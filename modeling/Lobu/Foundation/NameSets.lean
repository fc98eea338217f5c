import Lobu.Foundation.Json

namespace Lobu.Foundation

/-! # Sets of names

A set of texts in the order of `Array.prototype.sort`: two lists of names are
written alike just where they have the same members.
-/

universe u

theorem utf16_cancel {first second : Char} {rest others : List Nat}
    (same : utf16 first ++ rest = utf16 second ++ others) : first = second ∧ rest = others := by
  have valid : ∀ char : Char, char.toNat < 0xd800 ∨ 0xdfff < char.toNat ∧ char.toNat < 0x110000 :=
    fun char => char.valid
  have firstValid := valid first
  have secondValid := valid second
  unfold utf16 at same
  have codes : first.toNat = second.toNat ∧ rest = others := by
    split at same <;> split at same
    · simp only [List.cons_append, List.nil_append, List.cons.injEq] at same
      exact same
    · simp only [List.cons_append, List.nil_append, List.cons.injEq] at same
      omega
    · simp only [List.cons_append, List.nil_append, List.cons.injEq] at same
      omega
    · simp only [List.cons_append, List.nil_append, List.cons.injEq] at same
      exact ⟨by omega, same.2.2⟩
  exact ⟨Char.toNat_inj.mp codes.1, codes.2⟩

theorem utf16_injective {first second : List Char}
    (same : first.flatMap utf16 = second.flatMap utf16) : first = second := by
  have nonempty : ∀ (char : Char) (rest : List Nat), utf16 char ++ rest ≠ [] := by
    intro char rest
    unfold utf16
    split <;> simp
  induction first generalizing second with
  | nil =>
    cases second with
    | nil => rfl
    | cons char second => exact absurd same.symm (nonempty char _)
  | cons char first ih =>
    cases second with
    | nil => exact absurd same (nonempty char _)
    | cons other second =>
      rw [List.flatMap_cons, List.flatMap_cons] at same
      obtain ⟨rfl, rest⟩ := utf16_cancel same
      rw [ih rest]

instance : Std.Antisymm sortsBefore :=
  ⟨fun _ _ before after => String.toList_inj.mp (utf16_injective (le_antisymm before after))⟩

instance : Std.Total sortsBefore := ⟨fun _ _ => le_total _ _⟩

instance : IsTrans String sortsBefore := ⟨fun _ _ _ first second => le_trans first second⟩

theorem eraseDups_nodup {α : Type u} [BEq α] [LawfulBEq α] (items : List α) : items.eraseDups.Nodup := by
  induction size : items.length using Nat.strongRecOn generalizing items with
  | ind size ih =>
    cases items with
    | nil => exact List.nodup_nil
    | cons item items =>
      rw [List.eraseDups_cons, List.nodup_cons]
      have shorter := List.length_filter_le (fun other => !other == item) items
      rw [List.length_cons] at size
      exact ⟨by simp, ih _ (by omega) _ rfl⟩

theorem eraseDups_of_nodup {α : Type u} [BEq α] [LawfulBEq α] {items : List α}
    (once : items.Nodup) : items.eraseDups = items := by
  induction items with
  | nil => rfl
  | cons item items ih =>
    rw [List.nodup_cons] at once
    have others : items.filter (fun other => !other == item) = items := by
      rw [List.filter_eq_self]
      intro other member
      have differs : other ≠ item := by
        rintro rfl
        exact once.1 member
      simpa using differs
    rw [List.eraseDups_cons, others, ih once.2]

/-- `[...new Set(names)].sort()` -/
def sortedSet (names : List String) : List String :=
  names.eraseDups.insertionSort sortsBefore

variable {names others : List String} {name : String}

@[simp] theorem mem_sortedSet : name ∈ sortedSet names ↔ name ∈ names := by
  rw [sortedSet, List.mem_insertionSort, List.mem_eraseDups]

theorem sortedSet_nodup (names : List String) : (sortedSet names).Nodup :=
  (List.perm_insertionSort _ _).nodup_iff.mpr (eraseDups_nodup names)

theorem sortedSet_sorted (names : List String) : (sortedSet names).Pairwise sortsBefore :=
  List.pairwise_insertionSort sortsBefore _

@[simp] theorem sortedSet_idempotent (names : List String) : sortedSet (sortedSet names) = sortedSet names := by
  have once := eraseDups_of_nodup (sortedSet_nodup names)
  rw [sortedSet, once, (sortedSet_sorted names).insertionSort_eq]

theorem sortedSet_eq_iff : sortedSet names = sortedSet others ↔ ∀ name, name ∈ names ↔ name ∈ others := by
  constructor
  · intro same name
    rw [← mem_sortedSet, same, mem_sortedSet]
  · intro members
    have permuted : (sortedSet names).Perm (sortedSet others) := by
      rw [List.perm_ext_iff_of_nodup (sortedSet_nodup names) (sortedSet_nodup others)]
      intro name
      rw [mem_sortedSet, mem_sortedSet, members]
    exact permuted.eq_of_pairwise' (sortedSet_sorted names) (sortedSet_sorted others)

end Lobu.Foundation
