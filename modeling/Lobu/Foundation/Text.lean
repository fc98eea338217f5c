import Mathlib.Data.List.DropRight

namespace Lobu.Foundation

/-! # Texts

Facts about texts as lists of characters that the readers and writers of keys,
commands, addresses and names share.
-/

universe u

section Separators

variable {α : Type u} {separator : α} {before other after rest : List α}

theorem last_separator_injective (once : separator ∉ after) (otherOnce : separator ∉ rest)
    (same : before ++ separator :: after = other ++ separator :: rest) : before = other ∧ after = rest := by
  rcases List.append_eq_append_iff.mp same with ⟨middle, longer, tail⟩ | ⟨middle, longer, tail⟩
  · cases middle with
    | nil => simp_all
    | cons first middle =>
      simp only [List.cons_append, List.cons.injEq] at tail
      exact absurd (by simp [tail.2]) once
  · cases middle with
    | nil => simp_all
    | cons first middle =>
      simp only [List.cons_append, List.cons.injEq] at tail
      exact absurd (by simp [tail.2]) otherOnce

theorem same_joined_iff :
    before ++ separator :: after = other ++ separator :: rest ↔ (before = other ∧ after = rest) ∨
      (∃ words, other = before ++ separator :: words ∧ after = words ++ separator :: rest) ∨
      ∃ words, before = other ++ separator :: words ∧ rest = words ++ separator :: after := by
  constructor
  · intro same
    rcases List.append_eq_append_iff.mp same with ⟨middle, longer, tail⟩ | ⟨middle, longer, tail⟩
    · cases middle with
      | nil => exact .inl ⟨by simpa using longer.symm, by simpa using tail⟩
      | cons first words =>
        obtain ⟨rfl, left⟩ := List.cons.inj tail
        exact .inr (.inl ⟨words, longer, left⟩)
    · cases middle with
      | nil => exact .inl ⟨by simpa using longer, by simpa using tail.symm⟩
      | cons first words =>
        obtain ⟨rfl, left⟩ := List.cons.inj tail
        exact .inr (.inr ⟨words, longer, left⟩)
  · rintro (⟨rfl, rfl⟩ | ⟨words, rfl, rfl⟩ | ⟨words, rfl, rfl⟩) <;> simp

theorem exists_last (member : separator ∈ before) :
    ∃ front back, before = front ++ separator :: back ∧ separator ∉ back := by
  obtain ⟨back, front, shape, absent⟩ :=
    List.eq_append_cons_of_mem (List.mem_reverse.mpr member)
  refine ⟨front.reverse, back.reverse, ?_, by simpa using absent⟩
  rw [← List.reverse_reverse before, shape]
  simp

theorem intercalate_append {fields others : List (List α)} (first : fields ≠ []) (second : others ≠ []) :
    [separator].intercalate (fields ++ others) =
      [separator].intercalate fields ++ separator :: [separator].intercalate others := by
  induction fields with
  | nil => contradiction
  | cons field fields ih =>
    cases fields with
    | nil =>
      rw [List.singleton_append, List.intercalate_cons_of_ne_nil second,
        List.intercalate_singleton, List.append_assoc]
      rfl
    | cons next fields =>
      have rest := ih (List.cons_ne_nil next fields)
      rw [List.cons_append] at rest
      rw [List.cons_append, List.cons_append, List.intercalate_cons_cons, rest,
        List.intercalate_cons_cons, List.append_assoc (field ++ [separator])]

variable [DecidableEq α]

theorem splitOn_suffix_iff {text tail : List α} :
    tail.splitOn separator <:+ text.splitOn separator ↔ text = tail ∨ separator :: tail <:+ text := by
  have joined : ∀ text : List α, [separator].intercalate (text.splitOn separator) = text :=
    fun text => List.intercalate_splitOn separator
  constructor
  · rintro ⟨front, fields⟩
    have whole := joined text
    rw [← fields] at whole
    by_cases nothing : front = []
    · rw [nothing, List.nil_append, joined] at whole
      exact .inl whole.symm
    · rw [intercalate_append nothing (List.splitOn_ne_nil _ _), joined] at whole
      exact .inr ⟨_, whole⟩
  · rintro (rfl | ⟨front, rfl⟩)
    · exact List.suffix_refl _
    · rw [List.splitOn_append_cons_self]
      exact List.suffix_append _ _

theorem splitOn_all_nil {text : List α} :
    (∀ piece ∈ text.splitOn separator, piece = []) ↔ ∀ c ∈ text, c = separator := by
  induction text with
  | nil => simp
  | cons first rest ih =>
    by_cases same : first = separator
    · subst same
      have pieces : (first :: rest).splitOn first = [] :: rest.splitOn first :=
        List.splitOn_append_cons_self [] rest
      simp [pieces, ih]
    · obtain ⟨piece, pieces, cut⟩ := List.exists_cons_of_ne_nil (List.splitOn_ne_nil separator rest)
      have longer : (first :: rest).splitOn separator = (first :: piece) :: pieces := by
        rw [List.splitOn_cons_eq_if_modifyHead, cut]
        simp [same]
      simp [longer, same]

/-- `text.lastIndexOf(c)`, none for -1. -/
def lastIndexOf (c : α) (text : List α) : Option Nat :=
  if c ∈ text then some (text.length - 1 - text.reverse.idxOf c) else none

theorem lastIndexOf_append {c : α} {after : List α} (before : List α) (last : c ∉ after) :
    lastIndexOf c (before ++ c :: after) = some before.length := by
  rw [lastIndexOf, if_pos (by simp)]
  have index : (before ++ c :: after).reverse.idxOf c = after.length := by
    rw [List.reverse_append, List.reverse_cons, List.append_assoc,
      List.idxOf_append_of_notMem (by simpa using last), List.singleton_append,
      List.idxOf_cons_self, List.length_reverse, Nat.add_zero]
  rw [index, List.length_append, List.length_cons]
  congr 1
  omega

end Separators

/-- What `String.prototype.trim` removes: white space and line terminators. -/
def isSpace (c : Char) : Bool :=
  decide (9 ≤ c.toNat ∧ c.toNat ≤ 13 ∨ 0x2000 ≤ c.toNat ∧ c.toNat ≤ 0x200A) ||
    [0x20, 0xA0, 0x1680, 0x2028, 0x2029, 0x202F, 0x205F, 0x3000, 0xFEFF].contains c.toNat

def trimStart (text : List Char) : List Char :=
  text.dropWhile isSpace

def trimEnd (text : List Char) : List Char :=
  text.rdropWhile isSpace

def trim (text : List Char) : List Char :=
  trimEnd (trimStart text)

section Trimming

variable {text more blanks : List Char}

theorem trimEnd_append_blanks (spaces : ∀ c ∈ blanks, isSpace c = true) :
    trimEnd (text ++ blanks) = trimEnd text := by
  induction blanks using List.reverseRecOn with
  | nil => rw [List.append_nil]
  | append_singleton blanks last ih =>
    rw [← List.append_assoc, trimEnd, List.rdropWhile_concat_pos]
    · exact ih fun c member => spaces c (List.mem_append_left _ member)
    · exact spaces last (by simp)

/-- The blanks that `trimEnd` has dropped. -/
theorem trimEnd_append_dropped (text : List Char) :
    ∃ blanks, (∀ c ∈ blanks, isSpace c = true) ∧ text = trimEnd text ++ blanks :=
  ⟨text.rtakeWhile isSpace, fun _ member => List.mem_rtakeWhile_imp member,
    List.rdropWhile_append_rtakeWhile.symm⟩

theorem trimEnd_append (ended : trimEnd more ≠ []) : trimEnd (text ++ more) = text ++ trimEnd more := by
  simp only [trimEnd, List.rdropWhile, ne_eq, List.reverse_eq_nil_iff] at ended ⊢
  rw [List.reverse_append, List.dropWhile_append, if_neg (by simpa using ended),
    List.reverse_append, List.reverse_reverse]

theorem trimEnd_cons (more : List Char) {first : Char} (letter : isSpace first = false) :
    ∃ rest, trimEnd (first :: more) = first :: rest := by
  cases ended : trimEnd (first :: more) with
  | nil =>
    have space := List.rdropWhile_eq_nil_iff.mp ended first List.mem_cons_self
    rw [letter] at space
    contradiction
  | cons other rest =>
    have begins : trimEnd (first :: more) <+: first :: more :=
      List.rdropWhile_prefix isSpace _
    rw [ended, List.cons_prefix_cons] at begins
    rw [begins.1]
    exact ⟨rest, rfl⟩

theorem trimStart_append (begun : trimStart text ≠ []) : trimStart (text ++ more) = trimStart text ++ more := by
  rw [trimStart, List.dropWhile_append, if_neg]
  · rfl
  · simpa [trimStart] using begun

theorem trimStart_append_blanks (spaces : ∀ c ∈ blanks, isSpace c = true)
    (never : trimStart text = []) : trimStart (text ++ blanks) = [] := by
  simp only [trimStart, List.dropWhile_eq_nil_iff] at never ⊢
  intro c member
  rcases List.mem_append.mp member with member | member
  · exact never c member
  · exact spaces c member

theorem trim_of_no_blank (plain : ∀ c ∈ text, isSpace c = false) : trim text = text := by
  have started : trimStart text = text := by
    rw [trimStart, List.dropWhile_eq_self_iff]
    intro some
    rw [plain _ (List.getElem_mem _)]
    decide
  rw [trim, started, trimEnd, List.rdropWhile_eq_self_iff]
  intro some
  rw [plain _ (List.getLast_mem _)]
  decide

theorem trim_trim (text : List Char) : trim (trim text) = trim text := by
  cases started : trimStart text with
  | nil =>
    have nothing : trim text = [] := by
      rw [trim, started]
      rfl
    rw [nothing]
    rfl
  | cons first others =>
    have letter : isSpace first = false := by
      have head := List.head?_dropWhile_not isSpace text
      rw [← trimStart, started] at head
      exact head
    obtain ⟨rest, trimmed⟩ := trimEnd_cons others letter
    have again : trimEnd (first :: rest) = first :: rest := by
      rw [← trimmed]
      exact List.rdropWhile_idempotent isSpace _
    have kept : trim text = first :: rest := by rw [trim, started, trimmed]
    rw [kept, trim, trimStart, List.dropWhile_cons_of_neg (by rw [letter]; exact Bool.false_ne_true), again]

theorem trimEnd_ne_nil (begun : trimStart text ≠ []) : trimEnd (trimStart text) ≠ [] := by
  intro nothing
  have spaces := List.rdropWhile_eq_nil_iff.mp nothing
  apply begun
  cases started : trimStart text with
  | nil => rfl
  | cons first others =>
    have space := spaces first (by rw [started]; exact List.mem_cons_self)
    have notSpace : isSpace first = false := by
      have head := List.head?_dropWhile_not isSpace text
      rw [← trimStart, started] at head
      exact head
    rw [space] at notSpace
    contradiction

theorem trim_append_blanks (text : List Char) (spaces : ∀ c ∈ blanks, isSpace c = true) :
    trim (text ++ blanks) = trim text := by
  by_cases begun : trimStart text = []
  · rw [trim, trim, trimStart_append_blanks spaces begun, begun]
  · rw [trim, trimStart_append begun, trimEnd_append_blanks spaces, trim]

theorem trim_blanks (spaces : ∀ c ∈ blanks, isSpace c = true) : trim blanks = [] :=
  trim_append_blanks [] spaces

end Trimming

theorem toNat_toLower (c : Char) : c.toLower.toNat =
    if 65 ≤ c.toNat ∧ c.toNat ≤ 90 then c.toNat + 32 else c.toNat := by
  unfold Char.toLower
  have upper : (c.val ≥ 'A'.val ∧ c.val ≤ 'Z'.val) ↔ 65 ≤ c.toNat ∧ c.toNat ≤ 90 := by
    simp only [ge_iff_le, UInt32.le_iff_toNat_le]
    exact Iff.rfl
  by_cases capital : 65 ≤ c.toNat ∧ c.toNat ≤ 90
  · rw [dif_pos (upper.mpr capital), if_pos capital]
    show (c.val + ('a'.val - 'A'.val)).toNat = c.val.toNat + 32
    have small : c.val.toNat ≤ 90 := capital.2
    have shift : ('a'.val - 'A'.val).toNat = 32 := by decide
    rw [UInt32.toNat_add, shift]
    omega
  · rw [dif_neg (fun up => capital (upper.mp up)), if_neg capital]

theorem toLower_toLower (c : Char) : c.toLower.toLower = c.toLower := by
  apply Char.toNat_inj.mp
  rw [toNat_toLower c.toLower, toNat_toLower c]
  grind

theorem toNat_toUpper (c : Char) : c.toUpper.toNat =
    if 97 ≤ c.toNat ∧ c.toNat ≤ 122 then c.toNat - 32 else c.toNat := by
  unfold Char.toUpper
  have small : (c.val ≥ 'a'.val ∧ c.val ≤ 'z'.val) ↔ 97 ≤ c.toNat ∧ c.toNat ≤ 122 := by
    simp only [ge_iff_le, UInt32.le_iff_toNat_le]
    exact Iff.rfl
  by_cases letter : 97 ≤ c.toNat ∧ c.toNat ≤ 122
  · rw [dif_pos (small.mpr letter), if_pos letter]
    show (c.val + ('A'.val - 'a'.val)).toNat = c.val.toNat - 32
    have bound : 97 ≤ c.val.toNat ∧ c.val.toNat ≤ 122 := letter
    have shift : ('A'.val - 'a'.val).toNat = 4294967264 := by decide
    rw [UInt32.toNat_add, shift]
    omega
  · rw [dif_neg (fun low => letter (small.mp low)), if_neg letter]

theorem isDigit_iff (c : Char) : c.isDigit = true ↔ 48 ≤ c.toNat ∧ c.toNat ≤ 57 := by
  simp only [Char.isDigit, Bool.and_eq_true, decide_eq_true_eq, ge_iff_le, UInt32.le_iff_toNat_le]
  exact Iff.rfl

theorem isUpper_iff (c : Char) : c.isUpper = true ↔ 65 ≤ c.toNat ∧ c.toNat ≤ 90 :=
  decide_eq_true_iff

theorem isLower_iff (c : Char) : c.isLower = true ↔ 97 ≤ c.toNat ∧ c.toNat ≤ 122 :=
  (Bool.and_eq_true_iff ..).trans (and_congr decide_eq_true_iff decide_eq_true_iff)

/-- `String.prototype.toLowerCase`.  How it writes a letter can depend on the letters
around it, but not across blanks at the end or before a closing parenthesis. -/
structure LowerCase where
  lower : List Char → List Char
  lower_append : ∀ text blanks rest : List Char, (∀ c ∈ blanks, isSpace c = true) →
    (∀ c ∈ rest.head?, c = ')') →
      lower (text ++ (blanks ++ rest)) = lower text ++ lower (blanks ++ rest)

/-- The letters of ASCII, and no others. -/
def asciiLowerCase : LowerCase where
  lower text := text.map Char.toLower
  lower_append _ _ _ _ _ := List.map_append

namespace LowerCase

variable (letters : LowerCase)

theorem lower_prefix (text : List Char) {blanks rest : List Char} (spaces : ∀ c ∈ blanks, isSpace c = true)
    (closed : ∀ c ∈ rest.head?, c = ')') : letters.lower text <+: letters.lower (text ++ (blanks ++ rest)) := by
  rw [letters.lower_append text blanks rest spaces closed]
  exact List.prefix_append _ _

def startsWith (text start : List Char) : Bool :=
  (letters.lower start).isPrefixOf (letters.lower text)

theorem startsWith_iff {text start : List Char} :
    letters.startsWith text start = true ↔ letters.lower start <+: letters.lower text :=
  List.isPrefixOf_iff_prefix

end LowerCase

end Lobu.Foundation
