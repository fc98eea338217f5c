import Lobu.Foundation.NameSets
import Lobu.Sources.Glob

namespace Lobu.Sources

open Lobu.Foundation

/-! # The language of a glob

The grammar speaks of characters, the expression of UTF-16 code units.
-/

def IsSurrogate (unit : Nat) : Prop := 0xd800 ≤ unit ∧ unit ≤ 0xdfff

theorem utf16_cases (c : Char) :
    (∃ unit, utf16 c = [unit] ∧ unit = c.toNat ∧ ¬ IsSurrogate unit) ∨
      ∃ high low, utf16 c = [high, low] ∧ (0xd800 ≤ high ∧ high < 0xdc00) ∧ 0xdc00 ≤ low ∧ low ≤ 0xdfff := by
  have valid : c.toNat < 0xd800 ∨ 0xdfff < c.toNat ∧ c.toNat < 0x110000 := c.valid
  unfold utf16 IsSurrogate
  split
  · exact .inl ⟨c.toNat, rfl, rfl, by omega⟩
  · exact .inr ⟨_, _, rfl, by omega, by omega⟩

/-- Units that begin in the middle of a character, and the character. -/
def Lead (lead : List Nat) (led : List Char) : Prop :=
  lead = [] ∧ led = [] ∨ ∃ c high low, utf16 c = [high, low] ∧ (0xdc00 ≤ low ∧ low ≤ 0xdfff) ∧
    lead = [low] ∧ led = [c]

/-- Units that end in the middle of a character. -/
def Tail (tail : List Nat) : Prop :=
  tail = [] ∨ ∃ high, tail = [high] ∧ 0xd800 ≤ high ∧ high < 0xdc00

theorem utf16_cut {path : List Char} {front back : List Nat} (whole : front ++ back = path.flatMap utf16) :
    ∃ before after tail lead led, Tail tail ∧ Lead lead led ∧ path = before ++ (led ++ after) ∧
      front = before.flatMap utf16 ++ tail ∧ back = lead ++ after.flatMap utf16 := by
  induction path generalizing front with
  | nil =>
    obtain ⟨rfl, rfl⟩ := List.append_eq_nil_iff.mp whole
    exact ⟨[], [], [], [], [], .inl rfl, .inl ⟨rfl, rfl⟩, rfl, rfl, rfl⟩
  | cons c path ih =>
    cases front with
    | nil => exact ⟨[], c :: path, [], [], [], .inl rfl, .inl ⟨rfl, rfl⟩, rfl, rfl, whole⟩
    | cons first front =>
      rw [List.flatMap_cons] at whole
      rcases utf16_cases c with ⟨unit, single, -, -⟩ | ⟨high, low, pair, isHigh, isLow⟩
      · rw [single] at whole
        obtain ⟨rfl, rest⟩ := List.cons.inj whole
        obtain ⟨before, after, tail, lead, led, isTail, isLead, rfl, rfl, rfl⟩ := ih rest
        exact ⟨c :: before, after, tail, lead, led, isTail, isLead, rfl, by rw [List.flatMap_cons, single]; rfl, rfl⟩
      · rw [pair, List.cons_append, List.cons_append, List.cons_append, List.nil_append] at whole
        obtain ⟨rfl, rest⟩ := List.cons.inj whole
        cases front with
        | nil =>
          exact ⟨[], path, [first], [low], [c], .inr ⟨first, rfl, isHigh⟩,
            .inr ⟨c, first, low, pair, isLow, rfl, rfl⟩, rfl, rfl, rest⟩
        | cons second front =>
          obtain ⟨rfl, left⟩ := List.cons.inj rest
          obtain ⟨before, after, tail, lead, led, isTail, isLead, rfl, rfl, rfl⟩ := ih left
          exact ⟨c :: before, after, tail, lead, led, isTail, isLead, rfl, by rw [List.flatMap_cons, pair]; rfl, rfl⟩

theorem units_nil {path : List Char} (nothing : path.flatMap utf16 = []) : path = [] := by
  cases path with
  | nil => rfl
  | cons c path => exact absurd (List.append_eq_nil_iff.mp nothing).1 (utf16_ne_nil c)

theorem directories_takes (front : List Char) : Piece.directories.Takes (front ++ ['/']) := by
  induction front with
  | nil => exact ⟨[[]], by simp, rfl⟩
  | cons c front ih =>
    obtain ⟨segments, plain, whole⟩ := ih
    by_cases slash : c = '/'
    · subst slash
      refine ⟨[] :: segments, ?_, by rw [List.cons_append, whole]; rfl⟩
      exact List.forall_mem_cons.mpr ⟨List.not_mem_nil, plain⟩
    · cases segments with
      | nil => exact absurd whole (by simp)
      | cons first segments =>
        rw [List.forall_mem_cons] at plain
        refine ⟨(c :: first) :: segments, List.forall_mem_cons.mpr ⟨?_, plain.2⟩, ?_⟩
        · rw [List.mem_cons, not_or]
          exact ⟨Ne.symm slash, plain.1⟩
        · rw [List.cons_append, whole]
          rfl

/-- No `?` takes one half of a character. -/
def Piece.TakesWhole (piece : Piece) (units : List Nat) : Prop :=
  piece.TakesUnits units ∧ (piece = .character → ∀ unit ∈ units, ¬ IsSurrogate unit)

section Whole

variable {lead tail : List Nat} {led before : List Char}

theorem slash_unit {text : List Char} (slash : '/' ∈ text) : 47 ∈ text.flatMap utf16 :=
  List.mem_flatMap.mpr ⟨'/', slash, by decide⟩

theorem Lead.no_slash (isLead : Lead lead led) : '/' ∉ led := by
  rcases isLead with ⟨-, rfl⟩ | ⟨c, high, low, pair, -, -, rfl⟩
  · exact List.not_mem_nil
  · intro slash
    rw [← List.mem_singleton.mp slash] at pair
    have single : utf16 '/' = [47] := rfl
    rw [single] at pair
    exact List.cons_ne_nil _ _ (List.cons.inj pair).2.symm

theorem Lead.nil (isLead : Lead [] led) : led = [] := by
  rcases isLead with ⟨-, nothing⟩ | ⟨c, high, low, -, -, isLead, -⟩
  · exact nothing
  · exact absurd isLead.symm (List.cons_ne_nil _ _)

theorem not_ragged {units : List Nat} (isLead : Lead lead led) (isTail : Tail tail)
    (whole : lead ++ before.flatMap utf16 ++ tail = units)
    (first : ∀ unit ∈ units.head?, ¬ (0xdc00 ≤ unit ∧ unit ≤ 0xdfff))
    (last : ∀ unit ∈ units.getLast?, ¬ (0xd800 ≤ unit ∧ unit < 0xdc00)) : (lead = [] ∧ led = []) ∧ tail = [] := by
  subst whole
  constructor
  · rcases isLead with nothing | ⟨c, high, low, -, isLow, rfl, -⟩
    · exact nothing
    · exact absurd isLow (first low rfl)
  · rcases isTail with nothing | ⟨high, rfl, isHigh⟩
    · exact nothing
    · refine absurd isHigh (last high ?_)
      rw [List.getLast?_append]
      rfl

theorem takes_of_units {piece : Piece} (isLead : Lead lead led) (isTail : Tail tail)
    (taken : piece.TakesWhole (lead ++ before.flatMap utf16 ++ tail)) : piece.Takes (led ++ before) := by
  obtain ⟨taken, halves⟩ := taken
  cases piece with
  | literal c =>
    have units : lead ++ before.flatMap utf16 ++ tail = utf16 c := taken
    have whole : (lead = [] ∧ led = []) ∧ tail = [] := by
      refine not_ragged isLead isTail units (fun unit isFirst => ?_) fun unit isLast => ?_
      · rcases utf16_cases c with ⟨only, single, -, plain⟩ | ⟨high, low, pair, isHigh, isLow⟩
        · rw [single] at isFirst
          obtain rfl := Option.some.inj isFirst
          exact fun isLow => plain ⟨by omega, isLow.2⟩
        · rw [pair] at isFirst
          obtain rfl := Option.some.inj isFirst
          omega
      · rcases utf16_cases c with ⟨only, single, -, plain⟩ | ⟨high, low, pair, isHigh, isLow⟩
        · rw [single, List.getLast?_singleton] at isLast
          obtain rfl := Option.some.inj isLast
          exact fun isHigh => plain ⟨isHigh.1, by omega⟩
        · rw [pair, List.getLast?_cons_cons, List.getLast?_singleton] at isLast
          obtain rfl := Option.some.inj isLast
          omega
    obtain ⟨⟨rfl, rfl⟩, rfl⟩ := whole
    rw [List.nil_append, List.append_nil] at units
    have same : before.flatMap utf16 = [c].flatMap utf16 := by
      rw [units, List.flatMap_cons, List.flatMap_nil, List.append_nil]
    exact utf16_injective same
  | run =>
    have noSlash : 47 ∉ lead ++ before.flatMap utf16 ++ tail := taken
    show '/' ∉ led ++ before
    intro slash
    rcases List.mem_append.mp slash with inLed | inBefore
    · exact isLead.no_slash inLed
    · exact noSlash (List.mem_append_left _ (List.mem_append_right _ (slash_unit inBefore)))
  | character =>
    obtain ⟨unit, single, other⟩ := taken
    have plain : ¬ IsSurrogate unit := halves rfl unit (single ▸ List.mem_singleton_self unit)
    have whole : (lead = [] ∧ led = []) ∧ tail = [] := by
      refine not_ragged isLead isTail single (fun first isFirst => ?_) fun last isLast => ?_
      · obtain rfl := Option.some.inj isFirst
        exact fun isLow => plain ⟨by omega, isLow.2⟩
      · rw [List.getLast?_singleton] at isLast
        obtain rfl := Option.some.inj isLast
        exact fun isHigh => plain ⟨isHigh.1, by omega⟩
    obtain ⟨⟨rfl, rfl⟩, rfl⟩ := whole
    rw [List.nil_append, List.append_nil] at single
    cases before with
    | nil => exact absurd single.symm (List.cons_ne_nil _ _)
    | cons c before =>
      rw [List.flatMap_cons] at single
      rcases utf16_cases c with ⟨only, isOnly, -, -⟩ | ⟨high, low, pair, -, -⟩
      · rw [isOnly] at single
        obtain ⟨rfl, nothing⟩ := List.cons.inj single
        refine ⟨c, by rw [units_nil nothing]; rfl, fun slash => other ?_⟩
        rw [slash] at isOnly
        exact (List.cons.inj isOnly).1.symm
      · rw [pair] at single
        exact absurd (List.cons.inj single).2 (List.cons_ne_nil _ _)
  | directories =>
    rcases taken with nothing | ⟨front, ended, -⟩
    · obtain ⟨front, -⟩ := List.append_eq_nil_iff.mp nothing
      obtain ⟨noLead, noUnits⟩ := List.append_eq_nil_iff.mp front
      subst noLead
      rw [isLead.nil, units_nil noUnits]
      exact ⟨[], fun _ member => absurd member List.not_mem_nil, rfl⟩
    · have last : (lead ++ before.flatMap utf16 ++ tail).getLast? = some 47 := by
        rw [ended, List.getLast?_concat]
      have noTail : tail = [] := by
        rcases isTail with nothing | ⟨high, rfl, isHigh⟩
        · exact nothing
        · rw [List.getLast?_concat] at last
          obtain rfl := Option.some.inj last
          omega
      rw [noTail, List.append_nil] at last
      rcases List.eq_nil_or_concat before with rfl | ⟨init, c, rfl⟩
      · rcases isLead with ⟨rfl, -⟩ | ⟨c, high, low, -, isLow, rfl, -⟩
        · contradiction
        · obtain rfl := Option.some.inj last
          omega
      · have slash : c = '/' := by
          rw [List.concat_eq_append, List.flatMap_append, List.flatMap_singleton, ← List.append_assoc] at last
          rcases utf16_cases c with ⟨unit, single, value, -⟩ | ⟨high, low, pair, -, isLow⟩
          · rw [single, List.getLast?_concat] at last
            obtain rfl := Option.some.inj last
            exact Char.toNat_inj.mp value.symm
          · rw [pair, List.getLast?_append_cons] at last
            obtain rfl := Option.some.inj last
            omega
        rw [List.concat_eq_append, slash, ← List.append_assoc]
        exact directories_takes (led ++ init)
  | anything => exact trivial

theorem reads_of_units {pieces : List Piece} {after : List Char} (isLead : Lead lead led)
    (reads : Reads Piece.TakesWhole pieces (lead ++ after.flatMap utf16)) :
    Reads Piece.Takes pieces (led ++ after) := by
  induction pieces generalizing lead led after with
  | nil =>
    obtain ⟨noLead, nothing⟩ := List.append_eq_nil_iff.mp (reads_nil.mp reads)
    subst noLead
    rw [isLead.nil, units_nil nothing]
    exact reads_nil.mpr rfl
  | cons piece pieces ih =>
    obtain ⟨front, back, whole, first, rest⟩ := reads_cons.mp reads
    have cut : ∀ part, front = lead ++ part → part ++ back = after.flatMap utf16 →
        Reads Piece.Takes (piece :: pieces) (led ++ after) := by
      intro part isFront left
      obtain ⟨before, later, tail, nextLead, nextLed, isTail, nextIs, rfl, rfl, rfl⟩ := utf16_cut left
      rw [isFront, ← List.append_assoc] at first
      exact reads_cons.mpr ⟨led ++ before, nextLed ++ later, List.append_assoc _ _ _,
        takes_of_units isLead isTail first, ih nextIs rest⟩
    rcases isLead with ⟨rfl, rfl⟩ | ⟨c, high, low, pair, isLow, rfl, rfl⟩
    · exact cut front rfl whole
    · cases front with
      | nil =>
        have empty : piece.TakesWhole ([] ++ [].flatMap utf16 ++ []) := first
        have nothing := takes_of_units (.inl ⟨rfl, rfl⟩) (.inl rfl) empty
        exact reads_cons.mpr ⟨[], _, rfl, nothing, ih (.inr ⟨c, high, low, pair, isLow, rfl, rfl⟩) (whole ▸ rest)⟩
      | cons unit part =>
        obtain ⟨rfl, left⟩ := List.cons.inj whole
        exact cut part rfl left

end Whole

/-- The code units can be divided among the pieces of the glob so that no `**` takes a line
terminator, each `?` takes one unit, and a `**` at the end takes what is behind its slash. -/
def Divides (glob path : List Char) : Prop :=
  Reads Piece.TakesUnits (pieces glob) (path.flatMap utf16)

/-- They can be divided so that a `?` takes one half of a character. -/
def DividesCharacter (glob path : List Char) : Prop :=
  ∃ parts, List.Forall₂ Piece.TakesUnits (pieces glob) parts ∧
    parts.flatten = path.flatMap utf16 ∧
      ∃ unit, (Piece.character, [unit]) ∈ (pieces glob).zip parts ∧ IsSurrogate unit

theorem whole_or_dividesCharacter {glob path : List Char} (divides : Divides glob path) :
    DividesCharacter glob path ∨ InLanguage glob path := by
  by_cases halves : DividesCharacter glob path
  · exact .inl halves
  · right
    obtain ⟨parts, each, whole⟩ := divides
    obtain ⟨sizes, takes⟩ := List.forall₂_iff_zip.mp each
    have wholes : List.Forall₂ Piece.TakesWhole (pieces glob) parts := by
      refine List.forall₂_iff_zip.mpr ⟨sizes, fun {piece part} member => ⟨takes member, ?_⟩⟩
      intro isCharacter unit inPart surrogate
      have taken := takes member
      rw [isCharacter] at taken member
      obtain ⟨only, single, -⟩ := taken
      rw [single, List.mem_singleton] at inPart
      exact halves ⟨parts, each, whole, only, single ▸ member, inPart ▸ surrogate⟩
    exact .pieces (reads_of_units (.inl ⟨rfl, rfl⟩) ⟨parts, wholes, whole⟩)

/-- The test of a path is right where a path of the language can be divided as the expression
divides it, and where one that can be divided inside a character is of the language. -/
theorem matchesGlob_language_iff (sep : Char) (path glob : List Char) :
    (matchesGlob sep path glob = some true ↔ InLanguage glob (norm sep path)) ↔
      (InLanguage glob (norm sep path) → Divides glob (norm sep path)) ∧
        (DividesCharacter glob (norm sep path) → InLanguage glob (norm sep path)) := by
  have divides : matchesGlob sep path glob = some true ↔ Divides glob (norm sep path) :=
    matchesGlob_iff
  rw [divides]
  constructor
  · intro right
    refine ⟨right.mpr, fun ⟨parts, each, whole, _⟩ => right.mp ⟨parts, each, whole⟩⟩
  · intro ⟨divided, halved⟩
    refine ⟨fun taken => ?_, divided⟩
    rcases whole_or_dividesCharacter taken with halves | inLanguage
    · exact halved halves
    · exact inLanguage

section Ordinary

variable {path : List Char} (basic : ∀ c ∈ path, c.toNat < 0x10000)
include basic

theorem units_of_basic : path.flatMap utf16 = path.map Char.toNat := by
  induction path with
  | nil => rfl
  | cons c path ih =>
    rw [List.forall_mem_cons] at basic
    rw [List.flatMap_cons, ih basic.2, utf16, if_pos basic.1]
    rfl

theorem not_dividesCharacter_of_basic (glob : List Char) : ¬ DividesCharacter glob path := by
  intro ⟨parts, _, whole, unit, taken, surrogate⟩
  have inPath : unit ∈ path.flatMap utf16 :=
    whole ▸ List.mem_flatten.mpr ⟨[unit], (List.of_mem_zip taken).2, List.mem_singleton_self unit⟩
  rw [units_of_basic basic] at inPath
  obtain ⟨c, -, rfl⟩ := List.mem_map.mp inPath
  have valid : c.toNat < 0xd800 ∨ 0xdfff < c.toNat ∧ c.toNat < 0x110000 := c.valid
  unfold IsSurrogate at surrogate
  omega

theorem takesUnits_of_plain {piece : Piece} (plain : ∀ c ∈ path, c.toNat ∉ lineTerminators)
    (taken : piece.Takes path) : piece.TakesUnits (path.flatMap utf16) := by
  cases piece with
  | literal c =>
    obtain rfl : path = [c] := taken
    exact List.append_nil _
  | run =>
    rw [units_of_basic basic]
    intro slash
    obtain ⟨c, inPath, code⟩ := List.mem_map.mp slash
    have same : c = '/' := Char.toNat_inj.mp code
    exact taken (same ▸ inPath)
  | character =>
    obtain ⟨c, rfl, other⟩ := taken
    rw [units_of_basic basic]
    exact ⟨c.toNat, rfl, fun slash => other (Char.toNat_inj.mp slash)⟩
  | directories =>
    rw [units_of_basic basic]
    obtain ⟨segments, -, rfl⟩ := taken
    rcases List.eq_nil_or_concat segments with rfl | ⟨init, last, rfl⟩
    · exact .inl rfl
    · rw [List.concat_eq_append, List.flatMap_append, List.flatMap_singleton, ← List.append_assoc,
        List.map_append] at *
      refine .inr ⟨_, rfl, fun unit member => ?_⟩
      obtain ⟨c, inFront, rfl⟩ := List.mem_map.mp member
      exact plain c (List.mem_append_left _ inFront)
  | anything =>
    rw [units_of_basic basic]
    intro unit member
    obtain ⟨c, inPath, rfl⟩ := List.mem_map.mp member
    exact plain c inPath

end Ordinary

theorem divides_of_plain {pieces : List Piece} {path : List Char}
    (basic : ∀ c ∈ path, c.toNat < 0x10000) (plain : ∀ c ∈ path, c.toNat ∉ lineTerminators)
    (reads : Reads Piece.Takes pieces path) : Reads Piece.TakesUnits pieces (path.flatMap utf16) := by
  induction pieces generalizing path with
  | nil =>
    rw [reads_nil.mp reads]
    exact reads_nil.mpr rfl
  | cons piece pieces ih =>
    obtain ⟨front, back, rfl, first, rest⟩ := reads_cons.mp reads
    simp only [List.forall_mem_append] at basic plain
    exact reads_cons.mpr ⟨_, _, List.flatMap_append.symm,
      takesUnits_of_plain basic.1 plain.1 first, ih basic.2 plain.2 rest⟩

/-- On paths of the basic plane without line terminators only a `/**` at the end goes wrong. -/
theorem matchesGlob_of_plain {sep : Char} {path glob : List Char} (basic : ∀ c ∈ norm sep path, c.toNat < 0x10000)
    (plain : ∀ c ∈ norm sep path, c.toNat ∉ lineTerminators) (inside : ¬ ['/', '*', '*'] <:+ glob) :
    matchesGlob sep path glob = some true ↔ InLanguage glob (norm sep path) := by
  rw [matchesGlob_iff]
  constructor
  · intro divides
    rcases whole_or_dividesCharacter divides with halves | inLanguage
    · exact absurd halves (not_dividesCharacter_of_basic basic glob)
    · exact inLanguage
  · intro inLanguage
    cases inLanguage with
    | pieces reads => exact divides_of_plain basic plain reads
    | directory => exact absurd (List.suffix_append _ _) inside

theorem matchesGlob_of_plain_notes : InLanguage "**/*.md".toList (norm '\\' "notes\\may.md".toList) :=
  (@matchesGlob_of_plain '\\' "notes\\may.md".toList "**/*.md".toList (by simp [norm]) (by simp [norm, lineTerminators])
    (by decide +kernel)).mp (by decide +kernel)

/-- `foo/**` is meant to take `foo` itself. -/
theorem directory_not_matched :
    ¬ ∀ (sep : Char) (path glob : List Char),
      (matchesGlob sep path glob = some true ↔ InLanguage glob (norm sep path)) := by
  intro right
  have itself : InLanguage ['f'] ['f'] :=
    .pieces ⟨[['f']], .cons rfl .nil, rfl⟩
  have matched := (right '/' ['f'] ['f', '/', '*', '*']).mpr (.directory itself)
  exact absurd matched (by decide)

end Lobu.Sources
