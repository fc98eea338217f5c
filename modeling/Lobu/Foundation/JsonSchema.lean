import Lobu.Foundation.KeyOrder

namespace Lobu.Foundation

/-! # Places in a JSON schema

A value inside a schema is a schema itself, an object that names schemas, or data.  Only at the
places of schemas do keywords mean anything.
-/

inductive SchemaPlace where
  | schema
  | named
  | data
deriving DecidableEq

/-- The keywords whose value is an object of named schemas. -/
def namingKeywords : List String :=
  ["properties", "patternProperties", "$defs", "definitions", "dependentSchemas", "dependencies"]

/-- The keywords whose value is a schema or a list of schemas. -/
def schemaKeywords : List String :=
  ["items", "prefixItems", "additionalItems", "unevaluatedItems", "contains",
    "additionalProperties", "unevaluatedProperties", "propertyNames", "not", "if", "then", "else",
    "contentSchema", "anyOf", "oneOf", "allOf"]

namespace SchemaPlace

/-- The place of a property. -/
def child : SchemaPlace → String → SchemaPlace
  | .schema, keyword =>
    if namingKeywords.contains keyword then .named
    else if schemaKeywords.contains keyword then .schema
    else .data
  | .named, _ => .schema
  | .data, _ => .data

/-- The place of an item. -/
def item : SchemaPlace → SchemaPlace
  | .schema => .schema
  | .named => .data
  | .data => .data

end SchemaPlace

namespace Json

mutual

/-- One value differs from another only at the schemas that `used` selects. -/
def DiffersOnlyAt (used : List (String × Json) → Bool) : SchemaPlace → Json → Json → Prop
  | place, .object fields, after =>
    (place = .schema ∧ used fields = true) ∨
      ∃ afterFields, after = .object afterFields ∧
        FieldsDifferOnlyAt used place fields afterFields
  | place, .array items, after =>
    ∃ afterItems, after = .array afterItems ∧ ItemsDifferOnlyAt used place.item items afterItems
  | _, .null, after => after = .null
  | _, .bool value, after => after = .bool value
  | _, .number value, after => after = .number value
  | _, .string value, after => after = .string value

def ItemsDifferOnlyAt (used : List (String × Json) → Bool) : SchemaPlace → List Json → List Json → Prop
  | _, [], [] => True
  | place, item :: items, after :: afterItems =>
    DiffersOnlyAt used place item after ∧ ItemsDifferOnlyAt used place items afterItems
  | _, [], _ :: _ => False
  | _, _ :: _, [] => False

def FieldsDifferOnlyAt (used : List (String × Json) → Bool) :
    SchemaPlace → List (String × Json) → List (String × Json) → Prop
  | _, [], [] => True
  | place, (name, value) :: fields, after :: afterFields =>
    after.1 = name ∧ DiffersOnlyAt used (place.child name) value after.2 ∧
      FieldsDifferOnlyAt used place fields afterFields
  | _, [], _ :: _ => False
  | _, _ :: _, [] => False

end

variable {used : List (String × Json) → Bool} {place : SchemaPlace}

theorem itemsDifferOnlyAt_iff {items after : List Json} :
    ItemsDifferOnlyAt used place items after ↔ List.Forall₂ (DiffersOnlyAt used place) items after := by
  induction items generalizing after with
  | nil => cases after <;> simp [ItemsDifferOnlyAt]
  | cons item items ih => cases after <;> simp [ItemsDifferOnlyAt, ih]

theorem fieldsDifferOnlyAt_iff {fields after : List (String × Json)} :
    FieldsDifferOnlyAt used place fields after ↔ List.Forall₂ (fun field changed => changed.1 = field.1 ∧
        DiffersOnlyAt used (place.child field.1) field.2 changed.2) fields after := by
  induction fields generalizing after with
  | nil => cases after <;> simp [FieldsDifferOnlyAt]
  | cons field fields ih => cases after <;> simp [FieldsDifferOnlyAt, ih, and_assoc]

theorem FieldsDifferOnlyAt.names {fields after : List (String × Json)}
    (differ : FieldsDifferOnlyAt used place fields after) : after.map Prod.fst = fields.map Prod.fst := by
  induction fields generalizing after with
  | nil =>
    cases after with
    | nil => rfl
    | cons => exact differ.elim
  | cons field fields ih =>
    cases after with
    | nil => exact differ.elim
    | cons changed after =>
      rw [List.map_cons, List.map_cons, differ.1, ih differ.2.2]

end Json

end Lobu.Foundation
