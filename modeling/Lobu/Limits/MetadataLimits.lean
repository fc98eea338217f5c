import Lobu.Foundation.JsonGrammar
import Mathlib.Algebra.BigOperators.Group.List.Basic

namespace Lobu.Limits

open Lobu.Foundation

/-! # Limits on untrusted metadata

A value is walked with a stack of its own, and the walk ends as soon as a limit is crossed.
-/

universe u

structure MetadataLimits where
  maxDepth : Nat
  maxNodes : Nat
  maxBytes : Nat
deriving DecidableEq

def defaultMetadataLimits : MetadataLimits where
  maxDepth := 32
  maxNodes := 10000
  maxBytes := 262144

/-- What `typeof` does not call an object, and `null`. -/
inductive Primitive (ν : Type) where
  | null
  | bool (value : Bool)
  | number (value : ν)
  | string (units : List Nat)
deriving DecidableEq

variable {ν : Type}

/-- The leaf that a value is; arrays and objects are none. -/
def primitive? : JsonTree ν → Option (Primitive ν)
  | .null => some .null
  | .bool value => some (.bool value)
  | .number value => some (.number value)
  | .string units => some (.string units)
  | .array _ => none
  | .object _ => none

def unitBytes (unit : Nat) : Nat := if unit < 0x80 then 1 else if unit < 0x800 then 2 else 3

/-- `Buffer.byteLength(value, 'utf8')`; a surrogate without its partner is written as U+FFFD. -/
def byteLength : List Nat → Nat
  | [] => 0
  | [unit] => unitBytes unit
  | high :: low :: units =>
    if 0xd800 ≤ high ∧ high < 0xdc00 ∧ 0xdc00 ≤ low ∧ low < 0xe000 then 4 + byteLength units
    else unitBytes high + byteLength (low :: units)

theorem length_le_byteLength (units : List Nat) : units.length ≤ byteLength units := by
  have positive : ∀ unit, 1 ≤ unitBytes unit := fun unit => by unfold unitBytes; split_ifs <;> omega
  fun_induction byteLength units with
  | case1 => exact Nat.le_refl 0
  | case2 unit => exact positive unit
  | case3 high low units _ ih =>
    rw [List.length_cons, List.length_cons]
    omega
  | case4 high low units _ ih =>
    have one := positive high
    rw [List.length_cons]
    omega

/-- `String(value)` of a number. -/
abbrev NumberText (ν : Type) := ν → String

namespace Primitive

variable (numberText : NumberText ν)

/-- The size of a leaf when there is room for it. -/
def bytes : Primitive ν → Nat
  | .string units => byteLength units
  | .number value => (numberText value).length
  | .bool value => (toString value).length
  | .null => "null".length

/-- `primitiveByteSize`, which does not measure a string that is too long anyway. -/
def byteSize (value : Primitive ν) (remainingBudget : Nat) : Nat :=
  match value with
  | .string units => if remainingBudget < units.length then units.length else byteLength units
  | .number value => (numberText value).length
  | .bool value => (toString value).length
  | .null => "null".length

theorem byteSize_cases (value : Primitive ν) (remainingBudget : Nat) :
    value.byteSize numberText remainingBudget = value.bytes numberText ∨
      remainingBudget < value.byteSize numberText remainingBudget ∧ remainingBudget < value.bytes numberText := by
  cases value with
  | string units =>
    by_cases long : remainingBudget < units.length
    · have bound := length_le_byteLength units
      rw [byteSize, if_pos long, bytes]
      exact .inr ⟨long, by omega⟩
    · rw [byteSize, if_neg long, bytes]
      exact .inl rfl
  | number value => exact .inl rfl
  | bool value => exact .inl rfl
  | null => exact .inl rfl

end Primitive

/-- The walk between two values: what is still to be looked at, and the counters. -/
structure Traversal (ν : Type) where
  stack : List (JsonTree ν × Nat)
  visited : Nat
  bytes : Nat

namespace Traversal

variable (numberText : NumberText ν) (limits : MetadataLimits)

/-- One more member; the walk that ends here says how many it has examined. -/
def member (state : Traversal ν) : Except Nat (Traversal ν) :=
  if limits.maxNodes < state.visited + 1 then .error (state.visited + 1)
  else .ok { state with visited := state.visited + 1 }

def leaf (state : Traversal ν) (value : Primitive ν) : Except Nat (Traversal ν) :=
  let bytes := state.bytes + value.byteSize numberText (limits.maxBytes - state.bytes)
  if limits.maxBytes < bytes then .error state.visited else .ok { state with bytes }

def child (childDepth : Nat) (state : Traversal ν) (child : JsonTree ν) : Except Nat (Traversal ν) :=
  match primitive? child with
  | none => .ok { state with stack := (child, childDepth) :: state.stack }
  | some value => state.leaf numberText limits value

def element (childDepth : Nat) (state : Traversal ν) (item : JsonTree ν) :
    Except Nat (Traversal ν) := do
  let state ← state.member limits
  state.child numberText limits childDepth item

def field (childDepth : Nat) (state : Traversal ν) (field : List Nat × JsonTree ν) :
    Except Nat (Traversal ν) := do
  let state ← state.member limits
  let state ← state.leaf numberText limits (.string field.1)
  state.child numberText limits childDepth field.2

/-- The body of the loop, for a value that has been popped. -/
def visit (state : Traversal ν) (node : JsonTree ν) (depth : Nat) : Except Nat (Traversal ν) :=
  if limits.maxDepth < depth then .error state.visited
  else
    match node with
    | .array items => items.foldlM (element numberText limits (depth + 1)) state
    | .object members => members.foldlM (field numberText limits (depth + 1)) state
    | .null => state.leaf numberText limits .null
    | .bool value => state.leaf numberText limits (.bool value)
    | .number value => state.leaf numberText limits (.number value)
    | .string units => state.leaf numberText limits (.string units)

/-- The loop, with the number of its rounds bounded.  It answers with how many members it has
examined.  The stack may be arranged anew before every pop. -/
def run (arrange : List (JsonTree ν × Nat) → List (JsonTree ν × Nat)) : Nat → Traversal ν → Option (Bool × Nat)
  | 0, _ => none
  | rounds + 1, state =>
    match arrange state.stack with
    | [] => some (false, state.visited)
    | (node, depth) :: stack =>
      match visit numberText limits { state with stack } node depth with
      | .error examined => some (true, examined)
      | .ok after => run arrange rounds after

def start (value : JsonTree ν) : Traversal ν := ⟨[(value, 0)], 0, 0⟩

end Traversal

/-- `exceedsValidationLimits`, and how many members it examines. -/
def exceedsValidationLimits (numberText : NumberText ν) (limits : MetadataLimits) (rounds : Nat)
    (value : JsonTree ν) : Option (Bool × Nat) :=
  Traversal.run numberText limits id rounds (Traversal.start value)

/-- What a value consists of. -/
inductive Part (ν : Type) where
  | container (depth : Nat)
  | member
  | leaf (value : Primitive ν)

mutual

/-- The parts of a value at some depth; the key of a field is a leaf too. -/
def parts (depth : Nat) : JsonTree ν → List (Part ν)
  | .array items => .container depth :: itemParts (depth + 1) items
  | .object members => .container depth :: memberParts (depth + 1) members
  | .null => [.leaf .null]
  | .bool value => [.leaf (.bool value)]
  | .number value => [.leaf (.number value)]
  | .string units => [.leaf (.string units)]

def itemParts (depth : Nat) : List (JsonTree ν) → List (Part ν)
  | [] => []
  | item :: items => .member :: (parts depth item ++ itemParts depth items)

def memberParts (depth : Nat) : List (List Nat × JsonTree ν) → List (Part ν)
  | [] => []
  | (key, value) :: members =>
    .member :: .leaf (.string key) :: (parts depth value ++ memberParts depth members)

end

def Part.members : Part ν → Nat
  | .member => 1
  | _ => 0

def Part.bytes (numberText : NumberText ν) : Part ν → Nat
  | .leaf value => value.bytes numberText
  | _ => 0

/-- A container nested too deep, too many members, or too many bytes, on top of those counted. -/
def Exceeds (numberText : NumberText ν) (limits : MetadataLimits) (visited bytes : Nat)
    (found : List (Part ν)) : Prop :=
  (∃ depth, .container depth ∈ found ∧ limits.maxDepth < depth) ∨
    limits.maxNodes < visited + (found.map Part.members).sum ∨
    limits.maxBytes < bytes + (found.map (Part.bytes numberText)).sum

section Spending

variable {numberText : NumberText ν} {limits : MetadataLimits} {visited bytes : Nat}
variable {found more spent spentLater : List (Part ν)} {state after : Traversal ν}

theorem Exceeds.append (exceeds : Exceeds numberText limits visited bytes found)
    (more : List (Part ν)) : Exceeds numberText limits visited bytes (found ++ more) := by
  simp only [Exceeds, List.map_append, List.sum_append, List.mem_append] at exceeds ⊢
  rcases exceeds with ⟨depth, member, deep⟩ | wide | large
  · exact .inl ⟨depth, .inl member, deep⟩
  · exact .inr (.inl (by omega))
  · exact .inr (.inr (by omega))

theorem Exceeds.of_perm (exceeds : Exceeds numberText limits visited bytes found)
    (same : found.Perm more) : Exceeds numberText limits visited bytes more := by
  rw [Exceeds, ← (same.map Part.members).sum_eq, ← (same.map (Part.bytes numberText)).sum_eq]
  simpa only [Exceeds, same.mem_iff] using exceeds

theorem exceeds_perm (same : found.Perm more) :
    Exceeds numberText limits visited bytes found ↔ Exceeds numberText limits visited bytes more :=
  ⟨fun exceeds => exceeds.of_perm same, fun exceeds => exceeds.of_perm same.symm⟩

/-- No limit is crossed yet.  A leaf is put on the stack only where the whole value is one. -/
structure Traversal.Within (limits : MetadataLimits) (state : Traversal ν) : Prop where
  visited : state.visited ≤ limits.maxNodes
  bytes : state.bytes ≤ limits.maxBytes
  rooted : ∀ entry ∈ state.stack, primitive? entry.1 = none ∨ entry.2 = 0

/-- The parts of what is on the stack. -/
def Traversal.pending (state : Traversal ν) : List (Part ν) :=
  state.stack.flatMap fun entry => parts entry.2 entry.1

/-- What a piece of the walk that looks at some parts may do: end, where the limits are crossed with
these parts already, or go on with the rest to the same answer. -/
def Traversal.Spends (numberText : NumberText ν) (limits : MetadataLimits) (state : Traversal ν)
    (spent : List (Part ν)) : Except Nat (Traversal ν) → Prop
  | .error examined => examined ≤ limits.maxNodes + 1 ∧
      Exceeds numberText limits state.visited state.bytes (spent ++ state.pending)
  | .ok after => after.Within limits ∧
      after.pending.length ≤ spent.length + state.pending.length ∧
      ∀ more, Exceeds numberText limits state.visited state.bytes
          (spent ++ (more ++ state.pending)) ↔
        Exceeds numberText limits after.visited after.bytes (more ++ after.pending)

namespace Traversal

theorem Spends.bind {first : Except Nat (Traversal ν)} {next : Traversal ν → Except Nat (Traversal ν)}
    (spends : state.Spends numberText limits spent first) (goes : ∀ after, Within limits after →
      after.Spends numberText limits spentLater (next after)) :
    state.Spends numberText limits (spent ++ spentLater) (first >>= next) := by
  cases first with
  | error examined =>
    refine ⟨spends.1, (spends.2.append spentLater).of_perm ?_⟩
    rw [List.append_assoc, List.append_assoc]
    exact List.perm_append_comm.append_left spent
  | ok between =>
    obtain ⟨within, shorter, same⟩ := spends
    have later := goes between within
    change state.Spends numberText limits (spent ++ spentLater) (next between)
    cases ended : next between with
    | error examined =>
      rw [ended] at later
      refine ⟨later.1, ?_⟩
      rw [List.append_assoc]
      exact (same spentLater).mpr later.2
    | ok after =>
      rw [ended] at later
      refine ⟨later.1, ?_, ?_⟩
      · have bound := later.2.1
        rw [List.length_append]
        omega
      · intro more
        rw [List.append_assoc, ← List.append_assoc spentLater, same, List.append_assoc]
        exact later.2.2 more

section

variable (within : state.Within limits)
include within

theorem member_spends : state.Spends numberText limits [.member] (state.member limits) := by
  have shifted : ∀ more, Exceeds numberText limits state.visited state.bytes (.member :: more) ↔
      Exceeds numberText limits (state.visited + 1) state.bytes more := fun more => by
    simp [Exceeds, Part.members, Part.bytes, Nat.add_assoc]
  unfold member
  split_ifs with crossed
  · refine ⟨Nat.succ_le_succ within.visited, (shifted _).mpr (.inr (.inl ?_))⟩
    omega
  · exact ⟨⟨Nat.le_of_not_lt crossed, within.bytes, within.rooted⟩, Nat.le_add_left _ _, fun more => shifted _⟩

theorem leaf_spends (value : Primitive ν) :
    state.Spends numberText limits [.leaf value] (state.leaf numberText limits value) := by
  have shifted : ∀ more, Exceeds numberText limits state.visited state.bytes (.leaf value :: more) ↔
      Exceeds numberText limits state.visited (state.bytes + value.bytes numberText) more :=
    fun more => by simp [Exceeds, Part.members, Part.bytes, Nat.add_assoc]
  have sized := value.byteSize_cases numberText (limits.maxBytes - state.bytes)
  have small := within.bytes
  simp only [leaf]
  split_ifs with crossed
  · refine ⟨within.visited.trans (Nat.le_succ _), (shifted _).mpr (.inr (.inr ?_))⟩
    omega
  · have measured : value.byteSize numberText (limits.maxBytes - state.bytes) = value.bytes numberText := by omega
    refine ⟨⟨within.visited, Nat.le_of_not_lt crossed, within.rooted⟩, Nat.le_add_left _ _, ?_⟩
    intro more
    rw [measured]
    exact shifted _

theorem push_spends {value : JsonTree ν} (nested : primitive? value = none) (depth : Nat) :
    state.Spends numberText limits (parts depth value)
      (.ok { state with stack := (value, depth) :: state.stack }) := by
  have whole : pending { state with stack := (value, depth) :: state.stack } =
      parts depth value ++ state.pending := List.flatMap_cons
  refine ⟨⟨within.visited, within.bytes, ?_⟩, ?_, ?_⟩
  · exact List.forall_mem_cons.mpr ⟨.inl nested, within.rooted⟩
  · rw [whole, List.length_append]
  · intro more
    rw [whole, ← List.append_assoc, ← List.append_assoc]
    exact exceeds_perm (List.perm_append_comm.append_right _)

theorem child_spends (value : JsonTree ν) (depth : Nat) :
    state.Spends numberText limits (parts depth value) (state.child numberText limits depth value) := by
  cases value with
  | null => exact leaf_spends within _
  | bool value => exact leaf_spends within _
  | number value => exact leaf_spends within _
  | string units => exact leaf_spends within _
  | array items => exact push_spends within rfl depth
  | object members => exact push_spends within rfl depth

theorem items_spend (depth : Nat) (items : List (JsonTree ν)) :
    state.Spends numberText limits (itemParts depth items)
      (items.foldlM (element numberText limits depth) state) := by
  induction items generalizing state with
  | nil => exact ⟨within, Nat.le_add_left _ _, fun more => Iff.rfl⟩
  | cons item items ih =>
    rw [List.foldlM_cons]
    have one : state.Spends numberText limits ([.member] ++ parts depth item)
        (state.element numberText limits depth item) :=
      (member_spends within).bind fun between within => child_spends within item depth
    exact one.bind fun between within => ih within

theorem members_spend (depth : Nat) (members : List (List Nat × JsonTree ν)) :
    state.Spends numberText limits (memberParts depth members)
      (members.foldlM (field numberText limits depth) state) := by
  induction members generalizing state with
  | nil => exact ⟨within, Nat.le_add_left _ _, fun more => Iff.rfl⟩
  | cons member members ih =>
    rw [List.foldlM_cons]
    have one : state.Spends numberText limits ([.member] ++ ([.leaf (.string member.1)] ++ parts depth member.2))
        (state.field numberText limits depth member) :=
      (member_spends within).bind fun between within =>
        (leaf_spends within _).bind fun between within => child_spends within member.2 depth
    exact one.bind fun between within => ih within

end

theorem Spends.container {result : Except Nat (Traversal ν)} {depth : Nat}
    (spends : state.Spends numberText limits spent result) (shallow : depth ≤ limits.maxDepth) :
    state.Spends numberText limits (.container depth :: spent) result := by
  have same : ∀ more, Exceeds numberText limits state.visited state.bytes
      (.container depth :: more) ↔ Exceeds numberText limits state.visited state.bytes more := by
    intro more
    have deep : (∃ other, Part.container (ν := ν) other ∈ .container depth :: more ∧
        limits.maxDepth < other) ↔ ∃ other, .container other ∈ more ∧ limits.maxDepth < other := by
      constructor
      · rintro ⟨other, member, deeper⟩
        rcases List.mem_cons.mp member with isHere | later
        · cases isHere
          omega
        · exact ⟨other, later, deeper⟩
      · rintro ⟨other, member, deeper⟩
        exact ⟨other, List.mem_cons_of_mem _ member, deeper⟩
    simp only [Exceeds, deep, List.map_cons, List.sum_cons, Part.members, Part.bytes, Nat.zero_add]
  cases result with
  | error examined => exact ⟨spends.1, (same _).mpr spends.2⟩
  | ok after =>
    refine ⟨spends.1, spends.2.1.trans (Nat.add_le_add_right (Nat.le_succ _) _), ?_⟩
    exact fun more => (same _).trans (spends.2.2 more)

theorem visit_spends (within : state.Within limits) (node : JsonTree ν) (depth : Nat)
    (rooted : primitive? node = none ∨ depth = 0) :
    state.Spends numberText limits (parts depth node) (state.visit numberText limits node depth) := by
  by_cases deep : limits.maxDepth < depth
  · have nested : primitive? node = none := rooted.resolve_right (by omega)
    have top : .container depth ∈ parts depth node ++ state.pending := by
      cases node <;> first | contradiction | exact List.mem_cons_self
    simp only [visit, if_pos deep]
    exact ⟨within.visited.trans (Nat.le_succ _), .inl ⟨depth, top, deep⟩⟩
  · have shallow := Nat.le_of_not_lt deep
    simp only [visit, if_neg deep]
    cases node with
    | null => exact leaf_spends within _
    | bool value => exact leaf_spends within _
    | number value => exact leaf_spends within _
    | string units => exact leaf_spends within _
    | array items => exact (items_spend within (depth + 1) items).container shallow
    | object members => exact (members_spend within (depth + 1) members).container shallow

theorem leaf_pending {value : Primitive ν} (ended : state.leaf numberText limits value = .ok after) :
    after.pending = state.pending := by
  simp only [leaf] at ended
  split at ended
  · contradiction
  · cases ended
    rfl

/-- A round leaves less to look at. -/
theorem visit_shorter (within : state.Within limits) {node : JsonTree ν} {depth : Nat}
    (ended : state.visit numberText limits node depth = .ok after) :
    after.pending.length < (parts depth node).length + state.pending.length := by
  simp only [visit] at ended
  split at ended
  · contradiction
  · cases node with
    | array items =>
      have spends : state.Spends numberText limits _ _ := items_spend within (depth + 1) items
      rw [show items.foldlM _ state = .ok after from ended] at spends
      exact Nat.lt_of_le_of_lt spends.2.1 (Nat.add_lt_add_right (Nat.lt_succ_self _) _)
    | object members =>
      have spends : state.Spends numberText limits _ _ := members_spend within (depth + 1) members
      rw [show members.foldlM _ state = .ok after from ended] at spends
      exact Nat.lt_of_le_of_lt spends.2.1 (Nat.add_lt_add_right (Nat.lt_succ_self _) _)
    | null | bool value | number value | string units =>
      rw [leaf_pending ended]
      exact Nat.lt_add_of_pos_left (Nat.succ_pos 0)

/-- The loop comes to its end, and answers by the parts of what was on the stack. -/
theorem run_eq {arrange : List (JsonTree ν × Nat) → List (JsonTree ν × Nat)}
    (permutes : ∀ stack, (arrange stack).Perm stack) (rounds : Nat) (within : state.Within limits)
    (enough : state.pending.length < rounds) :
    ∃ answer examined, state.run numberText limits arrange rounds = some (answer, examined) ∧
      examined ≤ limits.maxNodes + 1 ∧
      (answer = true ↔ Exceeds numberText limits state.visited state.bytes state.pending) := by
  induction rounds generalizing state with
  | zero => exact absurd enough (Nat.not_lt_zero _)
  | succ rounds ih =>
    have arranged := permutes state.stack
    have pending := arranged.flatMap_right fun entry => parts entry.2 entry.1
    rw [run]
    cases order : arrange state.stack with
    | nil =>
      rw [order] at pending
      refine ⟨false, state.visited, rfl, within.visited.trans (Nat.le_succ _), ?_⟩
      rw [Traversal.pending, ← exceeds_perm pending]
      have visited := within.visited
      have bytes := within.bytes
      simp only [Exceeds, List.flatMap_nil, List.not_mem_nil, List.map_nil, List.sum_nil]
      simp
      omega
    | cons entry stack =>
      obtain ⟨node, depth⟩ := entry
      rw [order] at arranged pending
      have popped : Within limits { state with stack } :=
        ⟨within.visited, within.bytes, fun entry member =>
          within.rooted entry (arranged.subset (List.mem_cons_of_mem _ member))⟩
      have spends : Spends numberText limits _ _ _ := visit_spends popped node depth
        (within.rooted _ (arranged.subset List.mem_cons_self))
      have whole : (parts depth node ++ Traversal.pending { state with stack }).Perm state.pending := pending
      cases visited : visit numberText limits { state with stack } node depth with
      | error examined =>
        rw [visited] at spends
        refine ⟨true, examined, by simp only [visited], spends.1, ?_⟩
        simpa using spends.2.of_perm whole
      | ok after =>
        rw [visited] at spends
        have shorter := visit_shorter popped visited
        have size := whole.length_eq
        rw [List.length_append] at size
        have same := spends.2.2 []
        rw [List.nil_append, List.nil_append, exceeds_perm whole] at same
        obtain ⟨answer, examined, ran, few, decided⟩ := ih spends.1 (by omega)
        exact ⟨answer, examined, by simpa only [visited] using ran, few, decided.trans same.symm⟩

end Traversal

end Spending

/-- The same value with the items and the fields in another order, at any depth. -/
inductive Reordered : JsonTree ν → JsonTree ν → Prop where
  | items (same : items.Perm others) : Reordered (.array items) (.array others)
  | fields (same : fields.Perm others) : Reordered (.object fields) (.object others)
  | item (inner : Reordered item other) :
      Reordered (.array (front ++ item :: back)) (.array (front ++ other :: back))
  | field (inner : Reordered value other) :
      Reordered (.object (front ++ (key, value) :: back)) (.object (front ++ (key, other) :: back))
  | trans (first : Reordered value between) (second : Reordered between other) :
      Reordered value other

theorem itemParts_eq (depth : Nat) (items : List (JsonTree ν)) :
    itemParts depth items = items.flatMap fun item => .member :: parts depth item := by
  induction items with
  | nil => rfl
  | cons item items ih => rw [itemParts, ih, List.flatMap_cons, List.cons_append]

theorem memberParts_eq (depth : Nat) (members : List (List Nat × JsonTree ν)) :
    memberParts depth members = members.flatMap fun member =>
      .member :: .leaf (.string member.1) :: parts depth member.2 := by
  induction members with
  | nil => rfl
  | cons member members ih =>
    rw [memberParts, ih, List.flatMap_cons, List.cons_append, List.cons_append]

theorem Reordered.parts {value other : JsonTree ν} (same : Reordered value other) (depth : Nat) :
    (parts depth value).Perm (parts depth other) := by
  induction same generalizing depth with
  | items same =>
    rw [Limits.parts, Limits.parts, itemParts_eq, itemParts_eq]
    exact (same.flatMap_right _).cons _
  | fields same =>
    rw [Limits.parts, Limits.parts, memberParts_eq, memberParts_eq]
    exact (same.flatMap_right _).cons _
  | item _ ih =>
    rw [Limits.parts, Limits.parts, itemParts_eq, itemParts_eq, List.flatMap_append,
      List.flatMap_append, List.flatMap_cons, List.flatMap_cons]
    exact ((((ih (depth + 1)).cons _).append_right _).append_left _).cons _
  | field _ ih =>
    rw [Limits.parts, Limits.parts, memberParts_eq, memberParts_eq, List.flatMap_append,
      List.flatMap_append, List.flatMap_cons, List.flatMap_cons]
    exact (((((ih (depth + 1)).cons _).cons _).append_right _).append_left _).cons _
  | trans _ _ ihFirst ihSecond => exact (ihFirst depth).trans (ihSecond depth)

theorem Traversal.start_within (limits : MetadataLimits) (value : JsonTree ν) : (start value).Within limits where
  visited := Nat.zero_le _
  bytes := Nat.zero_le _
  rooted entry member := .inr (by rw [List.mem_singleton.mp member])

/-- The walk ends within one member of its limit.  It answers by what the value consists of, for
every order of its items, its fields and the stack. -/
theorem exceedsValidationLimits_iff (numberText : NumberText ν) (limits : MetadataLimits)
    (value : JsonTree ν) (rounds : Nat) (enough : (parts 0 value).length < rounds) :
    ∃ answer examined, exceedsValidationLimits numberText limits rounds value = some (answer, examined) ∧
      examined ≤ limits.maxNodes + 1 ∧ (answer = true ↔ Exceeds numberText limits 0 0 (parts 0 value)) ∧
      ∀ other arrange, value = other ∨ Reordered value other →
        (∀ stack : List (JsonTree ν × Nat), (arrange stack).Perm stack) → ∃ examined ≤ limits.maxNodes + 1,
            (Traversal.start other).run numberText limits arrange rounds = some (answer, examined) := by
  have pending : ∀ value : JsonTree ν, (Traversal.start value).pending = parts 0 value :=
    fun value => List.append_nil _
  have general : ∀ (other : JsonTree ν) arrange, (parts 0 value).Perm (parts 0 other) →
      (∀ stack, (arrange stack).Perm stack) → ∃ answer examined,
        (Traversal.start other).run numberText limits arrange rounds = some (answer, examined) ∧
        examined ≤ limits.maxNodes + 1 ∧
        (answer = true ↔ Exceeds numberText limits 0 0 (parts 0 value)) := by
    intro other arrange same permutes
    have started := Traversal.start_within limits other
    have bound : (Traversal.start other).pending.length < rounds := by
      rwa [pending, ← same.length_eq]
    obtain ⟨answer, examined, ran, few, decided⟩ :=
      Traversal.run_eq permutes rounds started bound
    rw [pending, ← exceeds_perm same] at decided
    exact ⟨answer, examined, ran, few, decided⟩
  obtain ⟨answer, examined, ran, few, decided⟩ := general value id (.refl _) fun _ => .refl _
  refine ⟨answer, examined, ran, few, decided, ?_⟩
  intro other arrange same permutes
  have alike : (parts 0 value).Perm (parts 0 other) := by
    rcases same with rfl | reordered
    · exact .refl _
    · exact reordered.parts 0
  obtain ⟨another, examined, ran, few, alsoDecided⟩ := general other arrange alike permutes
  have equal : another = answer := Bool.eq_iff_iff.mpr (alsoDecided.trans decided.symm)
  exact ⟨examined, few, equal ▸ ran⟩

theorem exceedsValidationLimits_iff_wide :
    ∃ examined, exceedsValidationLimits (ν := Nat) toString ⟨32, 1, 10⟩ 6 (.array [.null, .number 7]) =
      some (true, examined) := by
  obtain ⟨answer, examined, ran, -, decided, -⟩ := exceedsValidationLimits_iff (ν := Nat) toString
    ⟨32, 1, 10⟩ (.array [.null, .number 7]) 6 (by decide)
  have wide := decided.mpr (.inr (.inl (by decide)))
  exact ⟨examined, wide ▸ ran⟩

end Lobu.Limits
