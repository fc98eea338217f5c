import Lobu.Foundation.OrderedMap

namespace Lobu.Foundation

/-! # Reverse indexes

For each owner the set of its keys.  A set that becomes empty is dropped, so the owners of the index
are those that have a key.
-/

universe u v

/-- Owners with their sets of keys. -/
abbrev ReverseIndex (ω : Type u) (κ : Type v) := OrderedMap ω (List κ)

namespace ReverseIndex

variable {ω : Type u} {κ : Type v} [DecidableEq ω] [DecidableEq κ]
variable {index : ReverseIndex ω κ} {owner other : ω} {key another : κ} {ownerOf : κ → Option ω}

def members (index : ReverseIndex ω κ) (owner : ω) : List κ := (index.get? owner).getD []

/-- Put a key into the set of an owner, which may be new. -/
def attach (index : ReverseIndex ω κ) (owner : ω) (key : κ) : ReverseIndex ω κ :=
  let keys := index.members owner
  index.set owner (if key ∈ keys then keys else keys ++ [key])

/-- Take a key out of the set of an owner. -/
def detach (index : ReverseIndex ω κ) (owner : ω) (key : κ) : ReverseIndex ω κ :=
  match index.get? owner with
  | none => index
  | some keys =>
    let kept := keys.filter fun candidate => decide (candidate ≠ key)
    if kept = [] then index.delete owner else index.set owner kept

theorem mem_members_attach :
    another ∈ (index.attach owner key).members other ↔
      another ∈ index.members other ∨ other = owner ∧ another = key := by
  unfold attach
  rw [members, OrderedMap.get?_set]
  by_cases same : other = owner
  · subst same
    by_cases present : key ∈ index.members other
    · simp only [if_pos, present, Option.getD_some, true_and]
      constructor
      · exact Or.inl
      · intro either
        rcases either with member | isKey
        · exact member
        · exact isKey ▸ present
    · simp [present]
  · simp [same, members]

theorem mem_members_detach :
    another ∈ (index.detach owner key).members other ↔
      another ∈ index.members other ∧ ¬ (other = owner ∧ another = key) := by
  unfold detach
  cases found : index.get? owner with
  | none =>
    constructor
    · intro member
      refine ⟨member, ?_⟩
      intro isKey
      rw [isKey.1, members, found] at member
      exact absurd member List.not_mem_nil
    · exact fun member => member.1
  | some keys =>
    dsimp only
    by_cases same : other = owner
    · subst same
      by_cases emptied : keys.filter (fun candidate => decide (candidate ≠ key)) = []
      · have onlyKey := List.filter_eq_nil_iff.mp emptied
        rw [if_pos emptied, members, OrderedMap.get?_delete_same, members, found]
        simp only [Option.getD_none, List.not_mem_nil, Option.getD_some, true_and, false_iff, not_and, not_not]
        intro member
        simpa using onlyKey another member
      · rw [if_neg emptied, members, OrderedMap.get?_set_same, members, found]
        simp
    · split
      · simp [members, OrderedMap.get?_delete, same]
      · simp [members, OrderedMap.get?_set, same]

/-- The index lists each key under its owner and nowhere else. -/
structure Mirrors (index : ReverseIndex ω κ) (ownerOf : κ → Option ω) : Prop where
  listed : ∀ owner key, key ∈ index.members owner ↔ ownerOf key = some owner
  nonempty : ∀ owner keys, index.get? owner = some keys → keys ≠ []

omit [DecidableEq κ] in
theorem mirrors_empty : Mirrors (OrderedMap.empty : ReverseIndex ω κ) fun _ => none where
  listed := by simp [members]
  nonempty := by simp

theorem Mirrors.detach (mirrors : index.Mirrors ownerOf) (owned : ownerOf key = some owner) :
    (index.detach owner key).Mirrors fun another => if another = key then none else ownerOf another where
  listed := by
    intro other another
    rw [mem_members_detach, mirrors.listed]
    by_cases same : another = key
    · subst same
      simp only [owned, Option.some.injEq, and_true, if_pos, reduceCtorEq, iff_false, not_and, not_not]
      exact Eq.symm
    · simp [same]
  nonempty := by
    intro other keys
    unfold ReverseIndex.detach
    cases found : index.get? owner with
    | none => exact mirrors.nonempty other keys
    | some ownKeys =>
      dsimp only
      split
      · rw [OrderedMap.get?_delete]
        split
        · simp
        · exact mirrors.nonempty other keys
      · rename_i remain
        rw [OrderedMap.get?_set]
        split
        · intro same
          cases same
          exact remain
        · exact mirrors.nonempty other keys

theorem Mirrors.detach_unowned (mirrors : index.Mirrors ownerOf) (unowned : ownerOf key = none) :
    (index.detach owner key).Mirrors ownerOf where
  listed := by
    intro other another
    rw [mem_members_detach, mirrors.listed]
    constructor
    · exact And.left
    · intro owned
      refine ⟨owned, ?_⟩
      intro isKey
      rw [isKey.2, unowned] at owned
      cases owned
  nonempty := by
    intro other keys
    unfold ReverseIndex.detach
    cases found : index.get? owner with
    | none => exact mirrors.nonempty other keys
    | some ownKeys =>
      have unchanged : ownKeys.filter (fun candidate => decide (candidate ≠ key)) = ownKeys := by
        apply List.filter_eq_self.mpr
        intro candidate member
        have owned := (mirrors.listed owner candidate).mp (by rwa [members, found])
        simp only [ne_eq, decide_eq_true_eq]
        intro same
        rw [same, unowned] at owned
        cases owned
      dsimp only
      rw [unchanged, if_neg (mirrors.nonempty owner ownKeys found), OrderedMap.get?_set]
      split
      · intro same
        cases same
        exact mirrors.nonempty owner keys found
      · exact mirrors.nonempty other keys

theorem Mirrors.attach (mirrors : index.Mirrors ownerOf)
    (free : ∀ former, ownerOf key = some former → former = owner) :
    (index.attach owner key).Mirrors fun another =>
      if another = key then some owner else ownerOf another where
  listed := by
    intro other another
    rw [mem_members_attach, mirrors.listed]
    by_cases same : another = key
    · subst same
      simp only [and_true, if_pos, Option.some.injEq]
      constructor
      · intro either
        rcases either with former | isOwner
        · exact (free other former).symm
        · exact isOwner.symm
      · exact fun isOwner => Or.inr isOwner.symm
    · simp [same]
  nonempty := by
    intro other keys
    unfold ReverseIndex.attach
    rw [OrderedMap.get?_set]
    split
    · intro same
      cases same
      split
      · rename_i present
        exact List.ne_nil_of_mem present
      · simp
    · exact mirrors.nonempty other keys

end ReverseIndex

end Lobu.Foundation
