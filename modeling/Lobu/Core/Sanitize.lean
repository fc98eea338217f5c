import Lobu.Foundation.Json
import Mathlib.Data.List.Infix

namespace Lobu.Core

open Lobu.Foundation

/-! # Values in the log

Arrays and objects have an identity, which the guard against cycles compares; no two of a JSON value
have the same.
-/

inductive LogValue where
  | null
  | bool (value : Bool)
  | number (value : JsNumber)
  | string (value : String)
  | array (identity : Nat) (items : List LogValue)
  | object (identity : Nat) (fields : List (String × LogValue))

def defaultSensitiveKeys : List String :=
  ["anthropic_api_key", "apikey", "api_key", "token", "password", "secret", "authorization", "bearer",
    "credentials", "privatekey", "private_key"]

def maxSanitizeDepth : Nat := 8

def includesText (text part : String) : Bool := decide (part.toList <:+: text.toList)

def isSensitiveKey (lowerKey : String) (additionalLowered : List String) : Bool :=
  (defaultSensitiveKeys.any fun part => includesText (lowerKey.map Char.toLower) part) ||
    additionalLowered.any fun part => includesText lowerKey part

/-- The keys that would change a prototype. -/
def isDropped (key : String) : Bool :=
  key == "__proto__" || key == "constructor" || key == "prototype"

/-- `value.length` of a string. -/
def utf16Count (text : String) : Nat := (text.toList.flatMap utf16).length

def redactedText (text : String) : String := "[REDACTED:" ++ toString (utf16Count text) ++ "]"

def redacted : LogValue → LogValue
  | .string text => .string (redactedText text)
  | .null => .null
  | _ => .string "[REDACTED]"

section Sanitize

variable (sensitive : String → Bool)

mutual

/-- The value, and the arrays and objects that have been seen. -/
def sanitizeInner (seen : List Nat) (depth : Nat) : LogValue → LogValue × List Nat
  | .array identity items =>
    if maxSanitizeDepth ≤ depth then (.array identity items, seen)
    else if seen.contains identity then (.string "[Circular]", seen)
    else
      let sanitized := sanitizeItems (identity :: seen) depth 0 items
      (.array identity sanitized.1, sanitized.2)
  | .object identity fields =>
    if maxSanitizeDepth ≤ depth then (.object identity fields, seen)
    else if seen.contains identity then (.string "[Circular]", seen)
    else
      let sanitized := sanitizeFields (identity :: seen) depth fields
      (.object identity sanitized.1, sanitized.2)
  | value => (value, seen)

/-- The keys of an array are its indices. -/
def sanitizeItems (seen : List Nat) (depth index : Nat) : List LogValue → List LogValue × List Nat
  | [] => ([], seen)
  | value :: items =>
    let first :=
      if sensitive (toString index) then (redacted value, seen)
      else sanitizeInner seen (depth + 1) value
    let rest := sanitizeItems first.2 depth (index + 1) items
    (first.1 :: rest.1, rest.2)

def sanitizeFields (seen : List Nat) (depth : Nat) : List (String × LogValue) → List (String × LogValue) × List Nat
  | [] => ([], seen)
  | (key, value) :: fields =>
    if isDropped key then sanitizeFields seen depth fields
    else
      let first :=
        if sensitive key then (redacted value, seen) else sanitizeInner seen (depth + 1) value
      let rest := sanitizeFields first.2 depth fields
      ((key, first.1) :: rest.1, rest.2)

end

end Sanitize

/-- `lower` is `toLowerCase`. -/
def isSensitive (lower : String → String) (additionalSensitiveKeys : List String) (key : String) : Bool :=
  isSensitiveKey (lower key) (additionalSensitiveKeys.map lower)

def sanitizeForLogging (lower : String → String) (additionalSensitiveKeys : List String)
    (value : LogValue) : LogValue :=
  (sanitizeInner (isSensitive lower additionalSensitiveKeys) [] 0 value).1

mutual

/-- The arrays and objects of a value. -/
def identities : LogValue → List Nat
  | .array identity items => identity :: identitiesOfItems items
  | .object identity fields => identity :: identitiesOfFields fields
  | _ => []

def identitiesOfItems : List LogValue → List Nat
  | [] => []
  | value :: items => identities value ++ identitiesOfItems items

def identitiesOfFields : List (String × LogValue) → List Nat
  | [] => []
  | (_, value) :: fields => identities value ++ identitiesOfFields fields

end

mutual

def KeysOnce : LogValue → Prop
  | .array _ items => KeysOnceInItems items
  | .object _ fields => (fields.map Prod.fst).Nodup ∧ KeysOnceInFields fields
  | _ => True

def KeysOnceInItems : List LogValue → Prop
  | [] => True
  | value :: items => KeysOnce value ∧ KeysOnceInItems items

def KeysOnceInFields : List (String × LogValue) → Prop
  | [] => True
  | (_, value) :: fields => KeysOnce value ∧ KeysOnceInFields fields

end

/-- A tree of arrays and objects, none of which has a key twice. -/
structure IsJson (value : LogValue) : Prop where
  tree : (identities value).Nodup
  keys : KeysOnce value

section Tree

variable (sensitive : String → Bool)

mutual

/-- What `sanitizeInner` makes of a tree. -/
def sanitizeTree (depth : Nat) : LogValue → LogValue
  | .array identity items =>
    if maxSanitizeDepth ≤ depth then .array identity items
    else .array identity (sanitizeTreeItems depth 0 items)
  | .object identity fields =>
    if maxSanitizeDepth ≤ depth then .object identity fields
    else .object identity (sanitizeTreeFields depth fields)
  | value => value

def sanitizeTreeItems (depth index : Nat) : List LogValue → List LogValue
  | [] => []
  | value :: items =>
    (if sensitive (toString index) then redacted value else sanitizeTree (depth + 1) value) ::
      sanitizeTreeItems depth (index + 1) items

def sanitizeTreeFields (depth : Nat) : List (String × LogValue) → List (String × LogValue)
  | [] => []
  | (key, value) :: fields =>
    if isDropped key then sanitizeTreeFields depth fields
    else
      (key, if sensitive key then redacted value else sanitizeTree (depth + 1) value) ::
        sanitizeTreeFields depth fields

end

/-- The result is that of the tree, and only identities of the value have been seen besides. -/
structure Guarded {α : Type} (seen own : List Nat) (tree : α) (result : α × List Nat) : Prop where
  value : result.1 = tree
  seen : ∀ identity ∈ result.2, identity ∈ seen ∨ identity ∈ own

theorem Guarded.member (key : String) {value : LogValue} {seen : List Nat} {depth : Nat}
    (inner : Guarded seen (identities value) (sanitizeTree sensitive (depth + 1) value)
      (sanitizeInner sensitive seen (depth + 1) value)) :
    Guarded seen (identities value)
      (if sensitive key then redacted value else sanitizeTree sensitive (depth + 1) value)
      (if sensitive key then (redacted value, seen) else sanitizeInner sensitive seen (depth + 1) value) := by
  split
  · exact ⟨rfl, fun _ => .inl⟩
  · exact inner

theorem fresh_under {identity : Nat} {seen own : List Nat} (alone : identity ∉ own)
    (fresh : ∀ other, other = identity ∨ other ∈ own → other ∉ seen) : ∀ other ∈ own, other ∉ identity :: seen := by
  intro other member
  rw [List.mem_cons, not_or]
  exact ⟨fun same => alone (same ▸ member), fresh other (.inr member)⟩

section

variable {α : Type} {tree : α} {result : α × List Nat} {seen own others : List Nat} (guarded : Guarded seen own tree result)
include guarded

theorem Guarded.fresh_after (apart : ∀ other ∈ own, ∀ identity ∈ others, other ≠ identity)
    (fresh : ∀ identity, identity ∈ own ∨ identity ∈ others → identity ∉ seen) : ∀ identity ∈ others, identity ∉ result.2 := by
  intro identity member present
  rcases guarded.seen identity present with before | inside
  · exact fresh identity (.inr member) before
  · exact apart identity inside identity member rfl

theorem Guarded.seen_append {later : List Nat} (rest : ∀ identity ∈ later, identity ∈ result.2 ∨ identity ∈ others) :
    ∀ identity ∈ later, identity ∈ seen ∨ identity ∈ own ++ others := by
  intro identity member
  rw [List.mem_append]
  rcases rest identity member with present | inside
  · exact (guarded.seen identity present).imp_right .inl
  · exact .inr (.inr inside)

end

mutual

theorem sanitizeInner_tree : ∀ (value : LogValue) (seen : List Nat) (depth : Nat),
    (identities value).Nodup → (∀ identity ∈ identities value, identity ∉ seen) →
      Guarded seen (identities value) (sanitizeTree sensitive depth value) (sanitizeInner sensitive seen depth value)
  | .array identity items, seen, depth, tree, fresh => by
    simp only [identities, List.nodup_cons, List.mem_cons] at tree fresh
    rw [sanitizeInner, sanitizeTree]
    split
    · exact ⟨rfl, fun _ => .inl⟩
    · have unseen : ¬ seen.contains identity = true := by
        simpa using fresh identity (.inl rfl)
      rw [if_neg unseen]
      have inner := sanitizeItems_tree items (identity :: seen) depth 0 tree.2 (fresh_under tree.1 fresh)
      refine ⟨congrArg (LogValue.array identity) inner.value, ?_⟩
      intro other member
      have found := inner.seen other member
      simp only [identities, List.mem_cons] at found ⊢
      tauto
  | .object identity fields, seen, depth, tree, fresh => by
    simp only [identities, List.nodup_cons, List.mem_cons] at tree fresh
    rw [sanitizeInner, sanitizeTree]
    split
    · exact ⟨rfl, fun _ => .inl⟩
    · have unseen : ¬ seen.contains identity = true := by
        simpa using fresh identity (.inl rfl)
      rw [if_neg unseen]
      have inner := sanitizeFields_tree fields (identity :: seen) depth tree.2 (fresh_under tree.1 fresh)
      refine ⟨congrArg (LogValue.object identity) inner.value, ?_⟩
      intro other member
      have found := inner.seen other member
      simp only [identities, List.mem_cons] at found ⊢
      tauto
  | .null, seen, depth, _, _ => ⟨rfl, fun _ => .inl⟩
  | .bool _, seen, depth, _, _ => ⟨rfl, fun _ => .inl⟩
  | .number _, seen, depth, _, _ => ⟨rfl, fun _ => .inl⟩
  | .string _, seen, depth, _, _ => ⟨rfl, fun _ => .inl⟩

theorem sanitizeItems_tree : ∀ (items : List LogValue) (seen : List Nat) (depth index : Nat),
    (identitiesOfItems items).Nodup → (∀ identity ∈ identitiesOfItems items, identity ∉ seen) →
      Guarded seen (identitiesOfItems items) (sanitizeTreeItems sensitive depth index items)
        (sanitizeItems sensitive seen depth index items)
  | [], seen, depth, index, _, _ => ⟨rfl, fun _ => .inl⟩
  | value :: items, seen, depth, index, tree, fresh => by
    simp only [identitiesOfItems, List.nodup_append, List.mem_append] at tree fresh
    obtain ⟨own, others, apart⟩ := tree
    have inner := sanitizeInner_tree value seen (depth + 1) own fun _ member => fresh _ (.inl member)
    have first := Guarded.member sensitive (toString index) inner
    have rest := sanitizeItems_tree items _ depth (index + 1) others (first.fresh_after apart fresh)
    rw [sanitizeItems, sanitizeTreeItems]
    exact ⟨congrArg₂ List.cons first.value rest.value, first.seen_append rest.seen⟩

theorem sanitizeFields_tree : ∀ (fields : List (String × LogValue)) (seen : List Nat) (depth : Nat),
    (identitiesOfFields fields).Nodup → (∀ identity ∈ identitiesOfFields fields, identity ∉ seen) →
      Guarded seen (identitiesOfFields fields) (sanitizeTreeFields sensitive depth fields)
        (sanitizeFields sensitive seen depth fields)
  | [], seen, depth, _, _ => ⟨rfl, fun _ => .inl⟩
  | (key, value) :: fields, seen, depth, tree, fresh => by
    simp only [identitiesOfFields, List.nodup_append, List.mem_append] at tree fresh
    obtain ⟨own, others, apart⟩ := tree
    rw [sanitizeFields, sanitizeTreeFields]
    split
    · have rest := sanitizeFields_tree fields seen depth others fun _ member => fresh _ (.inr member)
      refine ⟨rest.value, ?_⟩
      intro other member
      rw [identitiesOfFields, List.mem_append]
      exact (rest.seen other member).imp_right .inr
    · have inner := sanitizeInner_tree value seen (depth + 1) own fun _ member =>
        fresh _ (.inl member)
      have first := Guarded.member sensitive key inner
      have rest := sanitizeFields_tree fields _ depth others (first.fresh_after apart fresh)
      exact ⟨congrArg₂ List.cons (congrArg (Prod.mk key) first.value) rest.value, first.seen_append rest.seen⟩

end

end Tree

end Lobu.Core
