import Lobu.Foundation.JsonSchema
import Lobu.Foundation.OrderedMap
import Lobu.Foundation.Text

namespace Lobu.Tools

open Lobu.Foundation

/-! # Schemas for providers

Providers that take no unions and no constants get input schemas in which they are projected away.
A projection goes through every value of a schema, whatever its place.
-/

/-- `changed` is whether the projected value is another object than the value itself. -/
structure Projection where
  value : Json
  changed : Bool
  notices : List String

def unionKeywords : List String := ["anyOf", "oneOf", "allOf"]

def hasOwn (fields : List (String × Json)) (key : String) : Bool := (fields.lookup key).isSome

def unionKeyword? (fields : List (String × Json)) : Option String :=
  unionKeywords.find? (hasOwn fields)

def projectedUnionSchema : Json :=
  .object [("type", .string "string"),
    ("description", .string "Projected from unsupported MCP schema union.")]

def typeOfConstValue : Json → Option String
  | .string _ => some "string"
  | .number (.finite value) => some (if value.den = 1 then "integer" else "number")
  | .number (.infinite _) => some "number"
  | .bool _ => some "boolean"
  | _ => none

/-- The values of variants that are constants of one type, and the type; none where one is not. -/
def literalValues : Option String → List Json → Option (Option String × List Json)
  | literalType, [] => some (literalType, [])
  | literalType, variant :: variants =>
    match variant.get? "const" with
    | none => none
    | some constValue =>
      match typeOfConstValue constValue with
      | none => none
      | some constType =>
        if literalType.getD constType ≠ constType then none
        else
          (literalValues (some constType) variants).map fun rest =>
            (rest.1, constValue :: rest.2)

def enumSchema (type : String) (values : List Json) (fields : List (String × Json))
    (description : String) : Json :=
  .object [("type", .string type), ("enum", .array values),
    ("description", .string (((fields.lookup "description").bind Json.string?).getD description))]

def projectUnionSchema (fields : List (String × Json)) (keyword : String) : Json :=
  let variants :=
    match fields.lookup keyword with
    | some (.array items) => items
    | _ => []
  match literalValues none variants with
  | some (some literalType, values) =>
    enumSchema literalType values fields "Projected from unsupported MCP schema union."
  | _ => projectedUnionSchema

def projectConst (fields : List (String × Json)) (constValue : Json) : Json :=
  match typeOfConstValue constValue with
  | some constType =>
    enumSchema constType [constValue] fields "Projected from unsupported MCP schema const."
  | none => projectedUnionSchema

/-- Assigning the properties one by one; an assignment to `__proto__` makes no property. -/
def assigned (fields : List (String × Json)) : List (String × Json) :=
  fields.filter fun field => !decide (field.1 = "__proto__")

mutual

def projectSchemaNode : Json → Projection
  | .array items =>
    let projected := projectItems items
    { value := .array (projected.map Projection.value)
      changed := true
      notices := projected.flatMap Projection.notices }
  | .object fields =>
    match unionKeyword? fields with
    | some keyword =>
      { value := projectUnionSchema fields keyword, changed := true, notices := [keyword] }
    | none =>
      match fields.lookup "const" with
      | some constValue =>
        { value := projectConst fields constValue, changed := true, notices := ["const"] }
      | none =>
        let projected := projectFields fields
        let changed := projected.any fun field => field.2.changed
        let rebuilt := assigned (projected.map fun field => (field.1, field.2.value))
        { value := if changed then .object rebuilt else .object fields
          changed
          notices := projected.flatMap fun field => field.2.notices }
  | .null => { value := .null, changed := false, notices := [] }
  | .bool value => { value := .bool value, changed := false, notices := [] }
  | .number value => { value := .number value, changed := false, notices := [] }
  | .string value => { value := .string value, changed := false, notices := [] }

def projectItems : List Json → List Projection
  | [] => []
  | item :: items => projectSchemaNode item :: projectItems items

def projectFields : List (String × Json) → List (String × Projection)
  | [] => []
  | (name, value) :: fields => (name, projectSchemaNode value) :: projectFields fields

end

def isRecord : Json → Bool
  | .object _ => true
  | _ => false

def requiresProviderSafeToolNames (letters : LowerCase) (provider : String) : Bool :=
  let normalized := letters.lower provider.toList
  ["anthropic", "claude", "gemini", "google"].any fun name => decide (normalized = name.toList)

/-- What becomes of the parameters of a tool. -/
def projectToolParametersForProvider (letters : LowerCase) (provider : String) (parameters : Json) : Json :=
  if !requiresProviderSafeToolNames letters provider then parameters
  else if !isRecord parameters then parameters
  else
    let projected := projectSchemaNode parameters
    if !projected.changed || !isRecord projected.value then parameters else projected.value

def normalizeInputSchema : Option (List (String × Json)) → List (String × Json)
  | none => [("type", .string "object"), ("properties", .object [])]
  | some [] => [("type", .string "object"), ("properties", .object [])]
  | some fields => fields

/-- What `projectMcpToolsForProvider` does with the input schema of a tool: an error quarantines the
tool. -/
def projectInputSchema (inputSchema : Option (List (String × Json))) : Except String Projection :=
  let fields := normalizeInputSchema inputSchema
  if fields.lookup "type" ≠ some (.string "object") then .error "root schema must be an object"
  else
    match unionKeyword? fields with
    | some keyword => .error ("root schema uses unsupported keyword " ++ keyword)
    | none => .ok (projectSchemaNode (.object fields))

def usesKeyword (fields : List (String × Json)) : Bool :=
  ["anyOf", "oneOf", "allOf", "const"].any (hasOwn fields)

mutual

/-- No object of the value has one of the keywords as a property, at any depth. -/
def KeywordFree : Json → Prop
  | .object fields => usesKeyword fields = false ∧ KeywordFreeFields fields
  | .array items => KeywordFreeItems items
  | _ => True

def KeywordFreeItems : List Json → Prop
  | [] => True
  | item :: items => KeywordFree item ∧ KeywordFreeItems items

def KeywordFreeFields : List (String × Json) → Prop
  | [] => True
  | (_, value) :: fields => KeywordFree value ∧ KeywordFreeFields fields

end

structure Faithful (schema projected : Json) : Prop where
  keywordFree : KeywordFree projected
  isObjectSchema : projected.get? "type" = some (.string "object")
  differs : Json.DiffersOnlyAt usesKeyword .schema schema projected

mutual

/-- Whether there is an array or a keyword in the value: it is rebuilt then. -/
def isRebuilt : Json → Bool
  | .object fields => usesKeyword fields || anyRebuilt fields
  | .array _ => true
  | _ => false

def anyRebuilt : List (String × Json) → Bool
  | [] => false
  | (_, value) :: fields => isRebuilt value || anyRebuilt fields

end

mutual

/-- Keywords are properties of schemas only, and no object that is rebuilt has a property
`__proto__`. -/
def isProjectable : SchemaPlace → Json → Bool
  | place, .object fields =>
    (decide (place = .schema) && usesKeyword fields) ||
      (!usesKeyword fields && !(anyRebuilt fields && hasOwn fields "__proto__") &&
        fieldsProjectable place fields)
  | place, .array items => itemsProjectable place.item items
  | _, _ => true

def itemsProjectable : SchemaPlace → List Json → Bool
  | _, [] => true
  | place, item :: items => isProjectable place item && itemsProjectable place items

def fieldsProjectable : SchemaPlace → List (String × Json) → Bool
  | _, [] => true
  | place, (name, value) :: fields =>
    isProjectable (place.child name) value && fieldsProjectable place fields

end

variable {fields : List (String × Json)} {items : List Json} {value : Json} {place : SchemaPlace}

theorem projectItems_eq : projectItems items = items.map projectSchemaNode := by
  induction items with
  | nil => rfl
  | cons item items ih => rw [projectItems, ih, List.map_cons]

theorem projectFields_eq :
    projectFields fields = fields.map fun field => (field.1, projectSchemaNode field.2) := by
  induction fields with
  | nil => rfl
  | cons field fields ih => rw [projectFields, ih, List.map_cons]

theorem keywordFreeItems_iff : KeywordFreeItems items ↔ ∀ item ∈ items, KeywordFree item := by
  induction items with
  | nil => simp [KeywordFreeItems]
  | cons item items ih => rw [KeywordFreeItems, ih, List.forall_mem_cons]

theorem keywordFreeFields_iff : KeywordFreeFields fields ↔ ∀ field ∈ fields, KeywordFree field.2 := by
  induction fields with
  | nil => simp [KeywordFreeFields]
  | cons field fields ih => rw [KeywordFreeFields, ih, List.forall_mem_cons]

theorem anyRebuilt_eq : anyRebuilt fields = fields.any fun field => isRebuilt field.2 := by
  induction fields with
  | nil => rfl
  | cons field fields ih => rw [anyRebuilt, ih, List.any_cons]

theorem itemsProjectable_iff :
    itemsProjectable place items = true ↔ ∀ item ∈ items, isProjectable place item = true := by
  induction items with
  | nil => simp [itemsProjectable]
  | cons item items ih => rw [itemsProjectable, Bool.and_eq_true, ih, List.forall_mem_cons]

theorem fieldsProjectable_iff :
    fieldsProjectable place fields = true ↔
      ∀ field ∈ fields, isProjectable (place.child field.1) field.2 = true := by
  induction fields with
  | nil => simp [fieldsProjectable]
  | cons field fields ih => rw [fieldsProjectable, Bool.and_eq_true, ih, List.forall_mem_cons]

theorem usesKeyword_eq : usesKeyword fields = ((unionKeyword? fields).isSome || hasOwn fields "const") := by
  simp only [usesKeyword, unionKeyword?, unionKeywords, List.any_cons, List.any_nil, Bool.or_false,
    List.find?_cons, List.find?_nil]
  cases hasOwn fields "anyOf" <;> cases hasOwn fields "oneOf" <;> cases hasOwn fields "allOf" <;> rfl

theorem hasOwn_eq {key : String} : hasOwn fields key = decide (key ∈ fields.map Prod.fst) := by
  unfold hasOwn
  induction fields with
  | nil => rfl
  | cons field fields ih =>
    rw [OrderedMap.lookup_cons_eq, List.map_cons]
    by_cases same : key = field.1
    · simp [same]
    · simp [same, ih]

theorem usesKeyword_iff :
    usesKeyword fields = true ↔
      ∃ keyword ∈ ["anyOf", "oneOf", "allOf", "const"], keyword ∈ fields.map Prod.fst := by
  simp only [usesKeyword, List.any_eq_true, hasOwn_eq, decide_eq_true_eq]

theorem projectSchemaNode_of_unused (unused : usesKeyword fields = false) :
    projectSchemaNode (.object fields) =
      { value :=
          if fields.any fun field => (projectSchemaNode field.2).changed then
            .object (assigned (fields.map fun field => (field.1, (projectSchemaNode field.2).value)))
          else .object fields
        changed := fields.any fun field => (projectSchemaNode field.2).changed
        notices := fields.flatMap fun field => (projectSchemaNode field.2).notices } := by
  rw [usesKeyword_eq, Bool.or_eq_false_iff, Option.isSome_eq_false_iff, Option.isNone_iff_eq_none] at unused
  have noConst : fields.lookup "const" = none := by
    simpa [hasOwn] using unused.2
  simp only [projectSchemaNode, unused.1, noConst, projectFields_eq, List.any_map, List.map_map, List.flatMap_map]
  rfl

def scalarTypes : List String := ["string", "integer", "number", "boolean"]

/-- What stands in the place of an object with a keyword. -/
inductive Replacement : Json → Prop where
  | union : Replacement projectedUnionSchema
  | constants (type : String) (values : List Json) (own : List (String × Json))
      (description : String) (isType : type ∈ scalarTypes)
      (scalars : ∀ value ∈ values, (typeOfConstValue value).isSome = true) :
      Replacement (enumSchema type values own description)

theorem typeOfConstValue_mem {type : String} (isType : typeOfConstValue value = some type) :
    type ∈ scalarTypes := by
  unfold typeOfConstValue at isType
  split at isType
  · cases isType
    decide
  · cases isType
    split <;> decide
  · cases isType
    decide
  · cases isType
    decide
  · cases isType

theorem literalValues_scalar {literalType : Option String} {variants values : List Json}
    {found : Option String} (literals : literalValues literalType variants = some (found, values))
    (known : ∀ type ∈ literalType, type ∈ scalarTypes) :
    (∀ type ∈ found, type ∈ scalarTypes) ∧ ∀ value ∈ values, (typeOfConstValue value).isSome = true := by
  induction variants generalizing literalType values with
  | nil =>
    cases literals
    exact ⟨known, by simp⟩
  | cons variant variants ih =>
    unfold literalValues at literals
    split at literals
    · cases literals
    · rename_i constValue _
      split at literals
      · cases literals
      · rename_i constType isType
        split at literals
        · cases literals
        · obtain ⟨rest, later, isRest⟩ := Option.map_eq_some_iff.mp literals
          cases isRest
          have scalars := ih later fun type isConst => by
            cases isConst
            exact typeOfConstValue_mem isType
          exact ⟨scalars.1, List.forall_mem_cons.mpr ⟨by simp [isType], scalars.2⟩⟩

theorem projectUnionSchema_replaces (fields : List (String × Json)) (keyword : String) :
    Replacement (projectUnionSchema fields keyword) := by
  unfold projectUnionSchema
  dsimp only
  split
  · rename_i literals
    have scalars := literalValues_scalar literals (by simp)
    exact .constants _ _ _ _ (scalars.1 _ rfl) scalars.2
  · exact .union

theorem projectConst_replaces (fields : List (String × Json)) (constValue : Json) :
    Replacement (projectConst fields constValue) := by
  unfold projectConst
  split
  · rename_i isType
    exact .constants _ _ _ _ (typeOfConstValue_mem isType) (by simp [isType])
  · exact .union

theorem projectSchemaNode_of_used (used : usesKeyword fields = true) :
    Replacement (projectSchemaNode (.object fields)).value ∧
      (projectSchemaNode (.object fields)).changed = true := by
  rw [usesKeyword_eq] at used
  unfold projectSchemaNode
  cases union : unionKeyword? fields with
  | some keyword => exact ⟨projectUnionSchema_replaces fields keyword, rfl⟩
  | none =>
    cases isConst : fields.lookup "const" with
    | some constValue => exact ⟨projectConst_replaces fields constValue, rfl⟩
    | none => simp [union, hasOwn, isConst] at used

theorem keywordFree_of_scalar (scalar : (typeOfConstValue value).isSome = true) : KeywordFree value := by
  cases value with
  | array items => simp [typeOfConstValue] at scalar
  | object fields => simp [typeOfConstValue] at scalar
  | _ => trivial

theorem replacement_fields (replaces : Replacement value) :
    ∃ own, value = .object own ∧ (∀ name ∈ own.map Prod.fst, name ∈ ["type", "enum", "description"]) ∧
      KeywordFree value ∧ value.get? "type" ≠ some (.string "object") := by
  cases replaces with
  | union => exact ⟨_, rfl, by decide, by simp [projectedUnionSchema, KeywordFree,
      KeywordFreeFields, usesKeyword, hasOwn], by decide⟩
  | constants type values own description isType scalars =>
    refine ⟨_, rfl, by simp, ?_, ?_⟩
    · have free : KeywordFreeItems values :=
        keywordFreeItems_iff.mpr fun value member => keywordFree_of_scalar (scalars value member)
      simp only [enumSchema, KeywordFree, KeywordFreeFields, free, and_self, and_true]
      rfl
    · intro isObject
      have same : type = "object" := by simpa [enumSchema, Json.get?, List.lookup_cons] using isObject
      rw [same] at isType
      revert isType
      decide

theorem projectSchemaNode_changed : (projectSchemaNode value).changed = isRebuilt value := by
  induction value using Json.induct with
  | array items ih => rfl
  | object fields ih =>
    rw [isRebuilt]
    cases used : usesKeyword fields with
    | true => rw [(projectSchemaNode_of_used used).2, Bool.true_or]
    | false =>
      rw [projectSchemaNode_of_unused used, anyRebuilt_eq, Bool.false_or, Bool.eq_iff_iff]
      simp only [List.any_eq_true]
      exact exists_congr fun field => and_congr_right fun member => by rw [ih field member]
  | _ => rfl

/-- The properties of an object with the projections of their values. -/
def projectedFields (fields : List (String × Json)) : List (String × Json) :=
  fields.map fun field => (field.1, (projectSchemaNode field.2).value)

theorem projectSchemaNode_value_of_unchanged (unchanged : isRebuilt value = false) :
    (projectSchemaNode value).value = value := by
  cases value with
  | array items => cases unchanged
  | object fields =>
    rw [isRebuilt, Bool.or_eq_false_iff] at unchanged
    have noneChanged : (fields.any fun field => (projectSchemaNode field.2).changed) = false := by
      rw [anyRebuilt_eq] at unchanged
      simpa only [projectSchemaNode_changed] using unchanged.2
    rw [projectSchemaNode_of_unused unchanged.1, noneChanged]
    rfl
  | _ => rfl

theorem projectSchemaNode_value (unused : usesKeyword fields = false) :
    (projectSchemaNode (.object fields)).value =
      .object (if anyRebuilt fields then assigned (projectedFields fields) else projectedFields fields) := by
  rw [projectSchemaNode_of_unused unused, anyRebuilt_eq]
  simp only [projectSchemaNode_changed]
  cases rebuilt : fields.any fun field => isRebuilt field.2 with
  | true => rfl
  | false =>
    have kept : projectedFields fields = fields := by
      conv_rhs => rw [← List.map_id fields]
      apply List.map_congr_left
      intro field member
      have unchanged : isRebuilt field.2 = false := by
        simpa using List.any_eq_false.mp rebuilt field member
      rw [projectSchemaNode_value_of_unchanged unchanged]
      rfl
    rw [kept]
    rfl

theorem names_projectedFields : (projectedFields fields).map Prod.fst = fields.map Prod.fst := by
  simp [projectedFields, Function.comp_def]

theorem lookup_projectedFields {key : String} :
    (projectedFields fields).lookup key =
      (fields.lookup key).map fun value => (projectSchemaNode value).value := by
  induction fields with
  | nil => rfl
  | cons field fields ih =>
    rw [projectedFields, List.map_cons, OrderedMap.lookup_cons_eq, OrderedMap.lookup_cons_eq]
    by_cases same : key = field.1
    · simp [same]
    · simp only [if_neg same]
      exact ih

theorem usesKeyword_sub {others : List (String × Json)} (unused : usesKeyword fields = false)
    (sub : ∀ name ∈ others.map Prod.fst, name ∈ fields.map Prod.fst) : usesKeyword others = false := by
  rw [Bool.eq_false_iff] at unused ⊢
  intro used
  obtain ⟨keyword, isKeyword, member⟩ := usesKeyword_iff.mp used
  exact unused (usesKeyword_iff.mpr ⟨keyword, isKeyword, sub keyword member⟩)

theorem projectSchemaNode_keywordFree : KeywordFree (projectSchemaNode value).value := by
  induction value using Json.induct with
  | array items ih =>
    simp only [projectSchemaNode, projectItems_eq, KeywordFree, keywordFreeItems_iff, List.map_map,
      List.forall_mem_map]
    exact ih
  | object fields ih =>
    cases used : usesKeyword fields with
    | true =>
      obtain ⟨own, _, _, free, _⟩ := replacement_fields (projectSchemaNode_of_used used).1
      exact free
    | false =>
      rw [projectSchemaNode_value used, KeywordFree]
      have sub : ∀ field ∈ (if anyRebuilt fields then assigned (projectedFields fields)
          else projectedFields fields), field ∈ projectedFields fields := by
        intro field member
        split at member
        · exact List.mem_of_mem_filter member
        · exact member
      constructor
      · apply usesKeyword_sub used
        intro name member
        obtain ⟨field, isField, isName⟩ := List.mem_map.mp member
        rw [← names_projectedFields, ← isName]
        exact List.mem_map_of_mem (sub field isField)
      · rw [keywordFreeFields_iff]
        intro field member
        obtain ⟨original, isOriginal, isField⟩ := List.mem_map.mp (sub field member)
        rw [← isField]
        exact ih original isOriginal
  | _ => trivial

theorem differsOnlyAt_iff :
    Json.DiffersOnlyAt usesKeyword place value (projectSchemaNode value).value ↔
      isProjectable place value = true := by
  induction value using Json.induct generalizing place with
  | array items ih =>
    simp only [projectSchemaNode, projectItems_eq, Json.DiffersOnlyAt, Json.array.injEq,
      exists_eq_left', Json.itemsDifferOnlyAt_iff, List.map_map, isProjectable,
      itemsProjectable_iff, List.forall₂_map_right_iff, List.forall₂_same, Function.comp_apply]
    exact forall₂_congr fun item member => ih item member
  | object fields ih =>
    cases used : usesKeyword fields with
    | true =>
      obtain ⟨own, isOwn, names, _⟩ := replacement_fields (projectSchemaNode_of_used used).1
      obtain ⟨keyword, isKeyword, member⟩ := usesKeyword_iff.mp used
      have apart : ∀ keyword ∈ ["anyOf", "oneOf", "allOf", "const"],
          keyword ∉ ["type", "enum", "description"] := by decide
      have gone : ¬ Json.FieldsDifferOnlyAt usesKeyword place fields own := by
        intro differ
        exact apart keyword isKeyword (names keyword (differ.names ▸ member))
      simp [isOwn, Json.DiffersOnlyAt, used, isProjectable, gone]
    | false =>
      have children : Json.FieldsDifferOnlyAt usesKeyword place fields (projectedFields fields) ↔
          ∀ field ∈ fields, isProjectable (place.child field.1) field.2 = true := by
        rw [Json.fieldsDifferOnlyAt_iff, projectedFields, List.forall₂_map_right_iff, List.forall₂_same]
        exact forall₂_congr fun field member => by rw [eq_self, true_and, ih field member]
      rw [projectSchemaNode_value used]
      simp only [Json.DiffersOnlyAt, used, Bool.false_eq_true, and_false, false_or,
        Json.object.injEq, exists_eq_left', isProjectable, Bool.and_false, Bool.not_false,
        Bool.true_and, Bool.false_or, Bool.and_eq_true, Bool.not_eq_true',
        fieldsProjectable_iff]
      by_cases dropped : (anyRebuilt fields && hasOwn fields "__proto__") = true
      · have both := (Bool.and_eq_true ..).mp dropped
        have gone : ¬ Json.FieldsDifferOnlyAt usesKeyword place fields (assigned (projectedFields fields)) := by
          intro differ
          have own : "__proto__" ∈ fields.map Prod.fst := by
            simpa only [hasOwn_eq, decide_eq_true_eq] using both.2
          rw [← differ.names] at own
          obtain ⟨field, isField, isProto⟩ := List.mem_map.mp own
          have kept := List.of_mem_filter isField
          simp [isProto] at kept
        simp [both.1, both.2, gone]
      · rw [Bool.not_eq_true] at dropped
        have whole : (if anyRebuilt fields then assigned (projectedFields fields)
            else projectedFields fields) = projectedFields fields := by
          split
          · rename_i rebuilt
            have none : hasOwn fields "__proto__" = false := by
              simpa [rebuilt] using dropped
            rw [assigned, List.filter_eq_self]
            intro field member
            have named : field.1 ∈ fields.map Prod.fst := by
              rw [← names_projectedFields]
              exact List.mem_map_of_mem member
            rw [Bool.not_eq_true', decide_eq_false_iff_not]
            intro isProto
            rw [hasOwn_eq, decide_eq_false_iff_not, ← isProto] at none
            exact none named
          · rfl
        rw [whole, children, dropped]
        simp
  | _ => simp [projectSchemaNode, Json.DiffersOnlyAt, isProjectable]

theorem projected_type_iff (isObject : fields.lookup "type" = some (.string "object"))
    (noUnion : unionKeyword? fields = none) :
    (projectSchemaNode (.object fields)).value.get? "type" = some (.string "object") ↔
      fields.lookup "const" = none := by
  cases isConst : fields.lookup "const" with
  | some constValue =>
    have used : usesKeyword fields = true := by simp [usesKeyword_eq, hasOwn, isConst]
    obtain ⟨_, _, _, _, notObject⟩ := replacement_fields (projectSchemaNode_of_used used).1
    simp [notObject]
  | none =>
    have unused : usesKeyword fields = false := by simp [usesKeyword_eq, hasOwn, isConst, noUnion]
    have kept : (projectedFields fields).lookup "type" = some (.string "object") := by
      rw [lookup_projectedFields, isObject]
      rfl
    rw [projectSchemaNode_value unused]
    simp only [Json.get?, iff_true]
    split
    · rw [assigned, OrderedMap.lookup_filter_ne, if_neg (by decide), kept]
    · exact kept

/-- What both functions promise of an object schema without a union at its root. -/
def ProjectionFaithful (letters : LowerCase) (fields : List (String × Json)) : Prop :=
  (∃ projected, projectInputSchema (some fields) = .ok projected ∧
    Faithful (.object fields) projected.value) ∧
  ∀ provider, requiresProviderSafeToolNames letters provider = true →
    Faithful (.object fields) (projectToolParametersForProvider letters provider (.object fields))

theorem faithful_iff (isObject : fields.lookup "type" = some (.string "object"))
    (noUnion : unionKeyword? fields = none) :
    Faithful (.object fields) (projectSchemaNode (.object fields)).value ↔
      fields.lookup "const" = none ∧ isProjectable .schema (.object fields) = true := by
  constructor
  · intro faithful
    exact ⟨(projected_type_iff isObject noUnion).mp faithful.isObjectSchema, differsOnlyAt_iff.mp faithful.differs⟩
  · intro projectable
    exact ⟨projectSchemaNode_keywordFree, (projected_type_iff isObject noUnion).mpr projectable.1,
      differsOnlyAt_iff.mpr projectable.2⟩

theorem projectInputSchema_object (isObject : fields.lookup "type" = some (.string "object"))
    (noUnion : unionKeyword? fields = none) :
    projectInputSchema (some fields) = .ok (projectSchemaNode (.object fields)) := by
  have nonempty : normalizeInputSchema (some fields) = fields := by
    cases fields with
    | nil => cases isObject
    | cons => rfl
  simp [projectInputSchema, nonempty, isObject, noUnion]

theorem projectToolParameters_object {letters : LowerCase} {provider : String}
    (required : requiresProviderSafeToolNames letters provider = true)
    (typed : (projectSchemaNode (.object fields)).value.get? "type" = some (.string "object")) :
    projectToolParametersForProvider letters provider (.object fields) =
      (projectSchemaNode (.object fields)).value := by
  have record : isRecord (projectSchemaNode (.object fields)).value = true := by
    revert typed
    cases (projectSchemaNode (.object fields)).value <;> simp [Json.get?, isRecord]
  unfold projectToolParametersForProvider
  dsimp only
  rw [required, record]
  cases rebuilt : isRebuilt (.object fields) with
  | true => simp [isRecord, projectSchemaNode_changed, rebuilt]
  | false =>
    rw [projectSchemaNode_value_of_unchanged rebuilt]
    simp [isRecord]

/-- The projection is faithful exactly when the root has no constant, keywords are properties of
schemas only, and no object that is rebuilt has a property `__proto__`. -/
theorem projectionFaithful_iff (letters : LowerCase) (fields : List (String × Json))
    (isObject : fields.lookup "type" = some (.string "object")) (noUnion : unionKeyword? fields = none) :
    ProjectionFaithful letters fields ↔
      fields.lookup "const" = none ∧ isProjectable .schema (.object fields) = true := by
  have projected := projectInputSchema_object isObject noUnion
  rw [← faithful_iff isObject noUnion]
  constructor
  · intro faithful
    obtain ⟨found, isFound, holds⟩ := faithful.1
    rw [projected] at isFound
    cases isFound
    exact holds
  · intro holds
    refine ⟨⟨_, projected, holds⟩, ?_⟩
    intro provider required
    rw [projectToolParameters_object required holds.isObjectSchema]
    exact holds

/-- A schema with a choice between two constants. -/
def modeSchema : List (String × Json) :=
  [("type", .string "object"),
    ("properties", .object [("name", .object [("type", .string "string")]),
      ("mode", .object [("oneOf", .array [.object [("const", .string "a")],
        .object [("const", .string "b")]])])]),
    ("required", .array [.string "name"])]

theorem modeSchema_faithful : ProjectionFaithful asciiLowerCase modeSchema :=
  (projectionFaithful_iff asciiLowerCase modeSchema rfl (by decide)).mpr
    ⟨by decide, by decide +kernel⟩

/-- A schema with a parameter called `const`. -/
def constSchema : List (String × Json) :=
  [("type", .string "object"),
    ("properties", .object [("const", .object [("type", .string "string")])]),
    ("required", .array [.string "const"])]

theorem constSchema_loses_its_parameter :
    constSchema.lookup "type" = some (.string "object") ∧ unionKeyword? constSchema = none ∧
      ¬ ProjectionFaithful asciiLowerCase constSchema := by
  refine ⟨rfl, by decide, ?_⟩
  intro faithful
  obtain ⟨projected, isProjected, holds⟩ := faithful.1
  rw [projectInputSchema_object rfl (by decide)] at isProjected
  cases isProjected
  have projectable := ((faithful_iff rfl (by decide)).mp holds).2
  revert projectable
  decide +kernel

end Lobu.Tools
