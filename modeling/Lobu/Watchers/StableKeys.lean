import Lobu.Foundation.JsonPath
import Lobu.Foundation.Text
import Lobu.Foundation.Words

namespace Lobu.Watchers

open Lobu.Foundation

/-! # Stable keys

The keys under which entities of different windows are merged: the slugs of their key fields,
joined.  What Unicode and the runtime contribute is a parameter.
-/

def isCapital (c : Char) : Bool := decide (65 ≤ c.toNat ∧ c.toNat ≤ 90)

/-- A small letter or a digit of ASCII. -/
def isSmall (c : Char) : Bool :=
  decide (97 ≤ c.toNat ∧ c.toNat ≤ 122 ∨ 48 ≤ c.toNat ∧ c.toNat ≤ 57)

def isAsciiLetterOrDigit (c : Char) : Bool := isCapital c || isSmall c

/-- Lower-casing, the letters and digits of all alphabets, `String(value)`, and the texts of what a
plain object inherits. -/
structure KeyRuntime extends LowerCase where
  isLetterOrDigit : Char → Bool
  stringOf : Json → List Char
  inherited : String → Option (List Char)
  lower_small : ∀ text : List Char, (∀ c ∈ text, isSmall c = true ∨ c = '-' ∨ c = ':') →
    lower text = text
  lower_no_capital : ∀ text : List Char, ∀ c ∈ lower text, isCapital c = false
  letter_ascii : ∀ c : Char, c.toNat < 128 → isLetterOrDigit c = isAsciiLetterOrDigit c
  stringOf_string : ∀ value, stringOf (.string value) = value.toList

structure KeyingConfig where
  entityPath : String
  keyFields : List String
  keyOutputField : String

/-- `\w`. -/
def isWordChar (c : Char) : Bool := isAsciiLetterOrDigit c || decide (c = '_')

variable (runtime : KeyRuntime) (config : KeyingConfig)

def slugify (value : List Char) : List Char :=
  let lowered := trim (runtime.lower value)
  let kept := lowered.filter fun c => isWordChar c || isSpace c || decide (c = '-')
  let hyphenated := replaceRuns (fun c => isSpace c || decide (c = '_')) '-' kept
  stripEnds '-' (replaceRuns (fun c => decide (c = '-')) '-' hyphenated)

/-- The text of a key field, empty for `null` and for `undefined`. -/
def fieldText (fields : List (String × Json)) (field : String) : List Char :=
  match fields.lookup field with
  | some .null => []
  | some value => runtime.stringOf value
  | none => (runtime.inherited field).getD []

def keyParts (fields : List (String × Json)) : List (List Char) :=
  config.keyFields.map fun field => slugify runtime (fieldText runtime fields field)

def stableKey (fields : List (String × Json)) : List Char :=
  [':', ':'].intercalate (keyParts runtime config fields)

/-- Whether an assignment to the property makes it one: `__proto__` is otherwise a setter, which
ignores a text. -/
def isAssignable (name : String) (fields : List (String × Json)) : Bool :=
  decide (name ≠ "__proto__") || (fields.lookup name).isSome

def assignField (name : String) (value : Json) (fields : List (String × Json)) : List (String × Json) :=
  if isAssignable name fields then Json.setField name value fields else fields

def keyEntity : Json → Json
  | .object fields =>
    .object (assignField config.keyOutputField
      (.string (String.ofList (stableKey runtime config fields))) fields)
  | other => other

def keyEntities : Json → Json
  | .array entities => .array (entities.map (keyEntity runtime config))
  | other => other

/-- `path.split('.')`. -/
def pathNames (path : String) : List String := (path.toList.splitOn '.').map String.ofList

def computeStableKeys (data : Json) : Json :=
  data.changePath (keyEntities runtime config) (pathNames config.entityPath)

/-- The choice of separators. -/
def isBreak (c : Char) : Bool := isSpace c || decide (c = '_') || decide (c = '-')

/-- A text without letter case, punctuation, surrounding blanks and its choice of separators. -/
def wordsOf (value : List Char) : List (List Char) :=
  words isBreak ((runtime.lower value).filter fun c => runtime.isLetterOrDigit c || isBreak c)

/-- The same without the letters and digits outside ASCII. -/
def asciiWordsOf (value : List Char) : List (List Char) :=
  keptOf isAsciiLetterOrDigit (wordsOf runtime value)

/-- The entities that the keys are computed for. -/
def entities (data : Json) : List (List (String × Json)) :=
  match data.getPath (pathNames config.entityPath) with
  | some (.array items) => items.filterMap fun
      | .object fields => some fields
      | _ => none
  | _ => []

def KeysStable (windows : List Json) : Prop :=
  (∀ first ∈ windows.flatMap (entities config), ∀ second ∈ windows.flatMap (entities config),
    stableKey runtime config first = stableKey runtime config second ↔
      ∀ field ∈ config.keyFields,
        wordsOf runtime (fieldText runtime first field) =
          wordsOf runtime (fieldText runtime second field)) ∧
  ∀ data ∈ windows,
    computeStableKeys runtime config (computeStableKeys runtime config data) =
      computeStableKeys runtime config data

/-- No two entities differ only in letters or digits outside ASCII. -/
def DifferInAscii (windows : List Json) : Prop :=
  ∀ first ∈ windows.flatMap (entities config), ∀ second ∈ windows.flatMap (entities config),
    (∀ field ∈ config.keyFields,
      asciiWordsOf runtime (fieldText runtime first field) =
        asciiWordsOf runtime (fieldText runtime second field)) →
    ∀ field ∈ config.keyFields,
      wordsOf runtime (fieldText runtime first field) =
        wordsOf runtime (fieldText runtime second field)

/-- The output field is no key field, or the other key fields have no letter or digit of ASCII. -/
def OutputApart (windows : List Json) : Prop :=
  config.keyOutputField ∈ config.keyFields →
    ∀ fields ∈ windows.flatMap (entities config),
      isAssignable config.keyOutputField fields = true →
        ∀ field ∈ config.keyFields.erase config.keyOutputField,
          asciiWordsOf runtime (fieldText runtime fields field) = []

theorem words_trim (text : List Char) (keeps : Char → Bool) :
    words isBreak ((trim text).filter keeps) = words isBreak (text.filter keeps) := by
  have spaces : ∀ {blanks : List Char}, (∀ c ∈ blanks, isSpace c = true) →
      ∀ c ∈ blanks.filter keeps, isBreak c = true := by
    intro blanks allSpaces c member
    simp [isBreak, allSpaces c (List.mem_of_mem_filter member)]
  obtain ⟨dropped, droppedSpaces, whole⟩ := trimEnd_append_dropped (trimStart text)
  have front : text = text.takeWhile isSpace ++ (trim text ++ dropped) := by
    conv_lhs => rw [← List.takeWhile_append_dropWhile (p := isSpace) (l := text)]
    exact congrArg _ whole
  conv_rhs => rw [front]
  rw [List.filter_append, List.filter_append,
    words_breaks_append _ (spaces fun c member => List.mem_takeWhile_imp member),
    words_append_breaks _ (spaces droppedSpaces)]

theorem isAsciiLetterOrDigit_toNat {c : Char} (ascii : isAsciiLetterOrDigit c = true) :
    48 ≤ c.toNat ∧ c.toNat < 128 := by
  simp only [isAsciiLetterOrDigit, isCapital, isSmall, Bool.or_eq_true, decide_eq_true_eq] at ascii
  omega

theorem kept_eq (c : Char) :
    (isWordChar c || isSpace c || decide (c = '-')) = (isAsciiLetterOrDigit c || isBreak c) := by
  simp only [isWordChar, isBreak]
  cases isAsciiLetterOrDigit c <;> cases isSpace c <;> simp

theorem keptOf_congr {keeps others : Char → Bool} {pieces : List (List Char)}
    (same : ∀ piece ∈ pieces, ∀ c ∈ piece, keeps c = others c) : keptOf keeps pieces = keptOf others pieces := by
  unfold keptOf
  rw [List.map_congr_left fun piece member => List.filter_congr (same piece member)]

theorem slugify_eq (value : List Char) : slugify runtime value = ['-'].intercalate (asciiWordsOf runtime value) := by
  have separators : (fun c => (isSpace c || decide (c = '_')) || decide (c = '-')) = isBreak := rfl
  have smaller : ∀ c, ((isAsciiLetterOrDigit c || isBreak c) &&
      (runtime.isLetterOrDigit c || isBreak c)) = (isAsciiLetterOrDigit c || isBreak c) := by
    intro c
    cases ascii : isAsciiLetterOrDigit c with
    | false => cases isBreak c <;> simp
    | true =>
      rw [runtime.letter_ascii c (isAsciiLetterOrDigit_toNat ascii).2, ascii]
      rfl
  have twice : (runtime.lower value).filter (fun c => isAsciiLetterOrDigit c || isBreak c) =
      ((runtime.lower value).filter fun c => runtime.isLetterOrDigit c || isBreak c).filter
        fun c => isAsciiLetterOrDigit c || isBreak c := by
    rw [List.filter_filter, funext smaller]
  unfold slugify
  dsimp only
  rw [replaceRuns_twice, separators, stripEnds_replaceRuns rfl, funext kept_eq, words_trim, twice,
    words_filter fun c isBreak => by simp [isBreak]]
  congr 1
  apply keptOf_congr
  intro word member c inWord
  simp [(isWord_of_mem member).2 c inWord]

theorem isWord_of_mem_asciiWordsOf {value word : List Char} (member : word ∈ asciiWordsOf runtime value) :
    IsWord isBreak word ∧ ∀ c ∈ word, isSmall c = true := by
  simp only [asciiWordsOf, keptOf, List.mem_filter, List.mem_map] at member
  obtain ⟨⟨whole, inWords, isKept⟩, nonempty⟩ := member
  have plain : ∀ c ∈ word, c ∈ whole ∧ isAsciiLetterOrDigit c = true := by
    intro c inWord
    rw [← isKept] at inWord
    exact List.mem_filter.mp inWord
  have lowered : ∀ c ∈ whole, isCapital c = false := by
    intro c inWhole
    rw [wordsOf, words, List.mem_filter] at inWords
    have inText := (mem_splitOnP inWords.1 c inWhole).2
    exact runtime.lower_no_capital value c (List.mem_of_mem_filter inText)
  refine ⟨⟨by simpa using nonempty, ?_⟩, ?_⟩
  · intro c inWord
    exact (isWord_of_mem inWords).2 c (plain c inWord).1
  · intro c inWord
    have ascii := (plain c inWord).2
    rw [isAsciiLetterOrDigit, lowered c (plain c inWord).1] at ascii
    exact ascii

theorem mem_slugify {value : List Char} {c : Char} (member : c ∈ slugify runtime value) :
    isSmall c = true ∨ c = '-' := by
  rw [slugify_eq] at member
  rcases mem_intercalate member with isHyphen | inWord
  · exact .inr (by simpa using isHyphen)
  · obtain ⟨word, isWord, inWord⟩ := inWord
    exact .inl ((isWord_of_mem_asciiWordsOf runtime isWord).2 c inWord)

variable {fields : List (String × Json)}

theorem colon_not_mem_keyParts {part : List Char} (member : part ∈ keyParts runtime config fields) : ':' ∉ part := by
  simp only [keyParts, List.mem_map] at member
  obtain ⟨field, _, isPart⟩ := member
  intro inPart
  rw [← isPart] at inPart
  have impossible := mem_slugify runtime inPart
  revert impossible
  decide

theorem stableKey_eq_iff_parts {first second : List (String × Json)} :
    stableKey runtime config first = stableKey runtime config second ↔
      keyParts runtime config first = keyParts runtime config second := by
  constructor
  · intro same
    apply intercalate_injective _ _ _ same
    · simp [keyParts]
    · exact fun part member => colon_not_mem_keyParts runtime config member
    · exact fun part member => colon_not_mem_keyParts runtime config member
  · exact congrArg _

theorem slugify_eq_iff (first second : List Char) :
    slugify runtime first = slugify runtime second ↔ asciiWordsOf runtime first = asciiWordsOf runtime second := by
  constructor
  · intro same
    rw [slugify_eq, slugify_eq] at same
    have words : ∀ value, words isBreak (['-'].intercalate (asciiWordsOf runtime value)) =
        asciiWordsOf runtime value :=
      fun value => words_intercalate rfl fun _ member => (isWord_of_mem_asciiWordsOf runtime member).1
    rw [← words first, same, words second]
  · intro same
    rw [slugify_eq, slugify_eq, same]

theorem stableKey_eq_iff {first second : List (String × Json)} :
    stableKey runtime config first = stableKey runtime config second ↔ ∀ field ∈ config.keyFields,
        asciiWordsOf runtime (fieldText runtime first field) =
          asciiWordsOf runtime (fieldText runtime second field) := by
  rw [stableKey_eq_iff_parts, keyParts, keyParts, List.map_inj_left]
  simp only [slugify_eq_iff]

theorem lookup_assignField {name other : String} {value : Json} :
    (assignField name value fields).lookup other =
      if other = name ∧ isAssignable name fields = true then some value else fields.lookup other := by
  unfold assignField
  by_cases assignable : isAssignable name fields = true
  · rw [if_pos assignable]
    by_cases same : other = name
    · rw [if_pos ⟨same, assignable⟩, same]
      exact Json.get?_set_same fields name value
    · rw [if_neg fun both => same both.1]
      exact Json.get?_set_other (.object fields) value same
  · simp [assignable]

theorem isAssignable_assignField {name : String} {value : Json} :
    isAssignable name (assignField name value fields) = isAssignable name fields := by
  cases assignable : isAssignable name fields with
  | true =>
    have own : (assignField name value fields).lookup name = some value := by
      rw [lookup_assignField, if_pos ⟨rfl, assignable⟩]
    simp [isAssignable, own]
  | false => simp [assignField, assignable]

theorem setField_eq_self {name : String} {value : Json}
    (present : fields.lookup name = some value) : Json.setField name value fields = fields := by
  induction fields with
  | nil => simp at present
  | cons field fields ih =>
    rw [OrderedMap.lookup_cons_eq] at present
    unfold Json.setField
    by_cases same : field.1 = name
    · rw [if_pos same.symm, Option.some.injEq] at present
      rw [if_pos same, ← present, ← same]
    · rw [if_neg (Ne.symm same)] at present
      rw [if_neg same, ih present]

theorem assignField_eq_self_iff {name : String} {value : Json} :
    assignField name value fields = fields ↔ (isAssignable name fields = true → fields.lookup name = some value) := by
  unfold assignField
  split
  · rename_i assignable
    constructor
    · intro same _
      rw [← same]
      exact Json.get?_set_same fields name value
    · exact fun present => setField_eq_self (present assignable)
  · rename_i fixed
    simp [fixed]

theorem filter_intercalate_parts {keeps : Char → Bool} {separator : List Char}
    {parts : List (List Char)} (dropped : ∀ c ∈ separator, keeps c = false)
    (kept : ∀ part ∈ parts, ∀ c ∈ part, keeps c = true) :
    (separator.intercalate parts).filter keeps = parts.flatten := by
  have none : separator.filter keeps = [] := by
    rw [List.filter_eq_nil_iff]
    simpa using dropped
  induction parts with
  | nil => rfl
  | cons part parts ih =>
    rw [List.forall_mem_cons] at kept
    have whole : part.filter keeps = part := List.filter_eq_self.mpr kept.1
    cases parts with
    | nil => simp [whole]
    | cons next parts =>
      rw [List.intercalate_cons_cons, List.filter_append, List.filter_append, whole, none, ih kept.2, List.append_nil]
      rfl

theorem mem_keyParts {part : List Char} {c : Char}
    (member : part ∈ keyParts runtime config fields) (inPart : c ∈ part) : isSmall c = true ∨ c = '-' := by
  simp only [keyParts, List.mem_map] at member
  obtain ⟨field, _, isPart⟩ := member
  rw [← isPart] at inPart
  exact mem_slugify runtime inPart

theorem slugify_stableKey (fields : List (String × Json)) :
    slugify runtime (stableKey runtime config fields) = (keyParts runtime config fields).flatten := by
  have lowered : runtime.lower (stableKey runtime config fields) = stableKey runtime config fields := by
    apply runtime.lower_small
    intro c member
    rcases mem_intercalate member with isColon | inPart
    · exact .inr (.inr (by simpa using isColon))
    · obtain ⟨part, member, inPart⟩ := inPart
      rcases mem_keyParts runtime config member inPart with small | hyphen
      · exact .inl small
      · exact .inr (.inl hyphen)
  have small : ∀ c, isSmall c = true → runtime.isLetterOrDigit c = true := by
    intro c isSmall
    have ascii : isAsciiLetterOrDigit c = true := by simp [isAsciiLetterOrDigit, isSmall]
    rw [runtime.letter_ascii c (isAsciiLetterOrDigit_toNat ascii).2, ascii]
  have colon : runtime.isLetterOrDigit ':' = false := by
    rw [runtime.letter_ascii ':' (by decide)]
    decide
  have unjoined : (stableKey runtime config fields).filter
      (fun c => runtime.isLetterOrDigit c || isBreak c) = (keyParts runtime config fields).flatten := by
    apply filter_intercalate_parts
    · intro c isColon
      have same : c = ':' := by simpa using isColon
      rw [same, colon]
      decide
    · intro part member c inPart
      rcases mem_keyParts runtime config member inPart with isSmall | hyphen
      · rw [small c isSmall, Bool.true_or]
      · simp [hyphen, isBreak]
  have joined : Joined isBreak '-' (keyParts runtime config fields).flatten := by
    apply Joined.flatten
    intro part member
    simp only [keyParts, List.mem_map] at member
    obtain ⟨field, _, isPart⟩ := member
    rw [← isPart, slugify_eq]
    exact ⟨_, fun _ isWord => (isWord_of_mem_asciiWordsOf runtime isWord).1, rfl⟩
  rw [slugify_eq, asciiWordsOf, wordsOf, lowered, unjoined]
  have kept : keptOf isAsciiLetterOrDigit (words isBreak (keyParts runtime config fields).flatten) =
      words isBreak (keyParts runtime config fields).flatten := by
    have ascii : ∀ word ∈ words isBreak (keyParts runtime config fields).flatten,
        word.filter isAsciiLetterOrDigit = word := by
      intro word isWord
      apply List.filter_eq_self.mpr
      intro c inWord
      have member := isWord
      rw [words, List.mem_filter] at member
      obtain ⟨part, isPart, inPart⟩ := List.mem_flatten.mp (mem_splitOnP member.1 c inWord).2
      rcases mem_keyParts runtime config isPart inPart with isSmall | hyphen
      · simp [isAsciiLetterOrDigit, isSmall]
      · have whole := (isWord_of_mem isWord).2 c inWord
        rw [hyphen] at whole
        exact absurd whole (by decide)
    rw [keptOf, List.map_congr_left ascii, List.map_id', words, List.filter_filter]
    simp only [Bool.and_self]
  rw [kept, joined.intercalate_words rfl]

theorem slugify_eq_nil_iff (value : List Char) : slugify runtime value = [] ↔ asciiWordsOf runtime value = [] := by
  rw [slugify_eq]
  constructor
  · intro isEmpty
    have read : words isBreak (['-'].intercalate (asciiWordsOf runtime value)) = _ :=
      words_intercalate rfl fun _ member => (isWord_of_mem_asciiWordsOf runtime member).1
    rw [isEmpty, words_nil] at read
    exact read.symm
  · intro isEmpty
    rw [isEmpty, List.intercalate_nil]

theorem flatten_eq_part_iff {names : List String} {name : String} (member : name ∈ names)
    (part : String → List Char) :
    (names.map part).flatten = part name ↔ ∀ other ∈ names.erase name, part other = [] := by
  obtain ⟨before, after, _, whole, erased⟩ := List.exists_erase_eq member
  rw [erased, whole, List.map_append, List.map_cons, List.flatten_append, List.flatten_cons]
  constructor
  · intro same
    have lengths := congrArg List.length same
    simp only [List.length_append] at lengths
    have front : (before.map part).flatten = [] := List.length_eq_zero_iff.mp (by omega)
    have back : (after.map part).flatten = [] := List.length_eq_zero_iff.mp (by omega)
    simp only [List.flatten_eq_nil_iff, List.mem_map, forall_exists_index, and_imp,
      forall_apply_eq_imp_iff₂] at front back
    intro other isOther
    rcases List.mem_append.mp isOther with inFront | inBack
    · exact front other inFront
    · exact back other inBack
  · intro isEmpty
    have front : (before.map part).flatten = [] := by
      simpa using fun other member => isEmpty other (List.mem_append_left _ member)
    have back : (after.map part).flatten = [] := by
      simpa using fun other member => isEmpty other (List.mem_append_right _ member)
    rw [front, back, List.nil_append, List.append_nil]

theorem stableKey_keyed_iff {fields keyed : List (String × Json)} {text : List Char}
    (own : keyed.lookup config.keyOutputField = some (.string (String.ofList text)))
    (others : ∀ other, other ≠ config.keyOutputField → keyed.lookup other = fields.lookup other) :
    stableKey runtime config keyed = stableKey runtime config fields ↔ (config.keyOutputField ∈ config.keyFields →
        slugify runtime text = slugify runtime (fieldText runtime fields config.keyOutputField)) := by
  have ownText : fieldText runtime keyed config.keyOutputField = text := by
    simp [fieldText, own, runtime.stringOf_string]
  rw [stableKey_eq_iff_parts, keyParts, keyParts, List.map_inj_left]
  constructor
  · intro same isKeyField
    rw [← same _ isKeyField, ownText]
  · intro same field isKeyField
    by_cases isOutput : field = config.keyOutputField
    · rw [isOutput, ownText]
      exact same (isOutput ▸ isKeyField)
    · simp only [fieldText, others field isOutput]

/-- A keyed entity keeps its key exactly when the output field is no key field, cannot be
assigned, or is the only key field with a slug. -/
theorem keyEntity_twice_iff (fields : List (String × Json)) :
    keyEntity runtime config (keyEntity runtime config (.object fields)) = keyEntity runtime config (.object fields) ↔
      (config.keyOutputField ∈ config.keyFields → isAssignable config.keyOutputField fields = true →
        ∀ field ∈ config.keyFields.erase config.keyOutputField,
          asciiWordsOf runtime (fieldText runtime fields field) = []) := by
  generalize isKeyed : assignField config.keyOutputField
    (.string (String.ofList (stableKey runtime config fields))) fields = keyed
  have assignable : isAssignable config.keyOutputField keyed = isAssignable config.keyOutputField fields := by
    rw [← isKeyed, isAssignable_assignField]
  simp only [keyEntity, isKeyed, Json.object.injEq, assignField_eq_self_iff, assignable]
  rw [forall_comm]
  apply forall_congr'
  intro canAssign
  have own : keyed.lookup config.keyOutputField =
      some (.string (String.ofList (stableKey runtime config fields))) := by
    rw [← isKeyed, lookup_assignField, if_pos ⟨rfl, canAssign⟩]
  have others : ∀ other, other ≠ config.keyOutputField → keyed.lookup other = fields.lookup other := by
    intro other unlike
    rw [← isKeyed, lookup_assignField, if_neg fun both => unlike both.1]
  have again := stableKey_keyed_iff runtime config own others
  rw [own, Option.some.injEq, Json.string.injEq, String.ofList_inj, eq_comm, again, slugify_stableKey]
  apply forall_congr'
  intro isKeyField
  simp only [← slugify_eq_nil_iff]
  exact flatten_eq_part_iff isKeyField fun field => slugify runtime (fieldText runtime fields field)

theorem computeStableKeys_twice_iff (data : Json) :
    computeStableKeys runtime config (computeStableKeys runtime config data) =
        computeStableKeys runtime config data ↔ ∀ fields ∈ entities config data,
        keyEntity runtime config (keyEntity runtime config (.object fields)) =
          keyEntity runtime config (.object fields) := by
  unfold computeStableKeys
  rw [Json.changePath_eq_self_iff, Json.getPath_changePath]
  unfold entities
  cases found : data.getPath (pathNames config.entityPath) with
  | none => simp
  | some value =>
    cases value with
    | array items =>
      simp only [Option.map_some, Option.some.injEq, forall_eq', keyEntities, Json.array.injEq,
        List.map_map, List.map_inj_left, Function.comp_apply, List.mem_filterMap]
      constructor
      · intro same fields isEntity
        obtain ⟨item, member, isFields⟩ := isEntity
        cases item with
        | object found =>
          cases isFields
          exact same _ member
        | _ => cases isFields
      · intro same item member
        cases item with
        | object fields => exact same fields ⟨_, member, rfl⟩
        | _ => rfl
    | _ => simp [keyEntities]

/-- The keys are what they stand for exactly when no two entities differ only outside ASCII and the
output field is kept apart from the key fields. -/
theorem keysStable_iff (windows : List Json) :
    KeysStable runtime config windows ↔
      DifferInAscii runtime config windows ∧ OutputApart runtime config windows := by
  unfold KeysStable
  apply and_congr
  · unfold DifferInAscii
    apply forall₂_congr
    intro first _
    apply forall₂_congr
    intro second _
    rw [stableKey_eq_iff]
    constructor
    · exact Iff.mp
    · intro differ
      refine ⟨differ, ?_⟩
      intro same field isKeyField
      rw [asciiWordsOf, asciiWordsOf, same field isKeyField]
  · simp only [computeStableKeys_twice_iff, keyEntity_twice_iff]
    unfold OutputApart
    simp only [List.mem_flatMap, forall_exists_index, and_imp]
    constructor
    · intro apart isKeyField fields data isWindow isEntity
      exact apart data isWindow fields isEntity isKeyField
    · intro apart data isWindow fields isEntity isKeyField
      exact apart isKeyField fields data isWindow isEntity

/-- A runtime whose letters and digits are those of ASCII and the Chinese ones. -/
def chineseRuntime : KeyRuntime where
  toLowerCase := asciiLowerCase
  isLetterOrDigit c := isAsciiLetterOrDigit c || decide (0x4E00 ≤ c.toNat ∧ c.toNat ≤ 0x9FFF)
  stringOf value := (value.string?.getD "").toList
  inherited _ := none
  lower_small := by
    intro text small
    show text.map Char.toLower = text
    conv_rhs => rw [← List.map_id text]
    apply List.map_congr_left
    intro c member
    apply Char.toNat_inj.mp
    have noCapital : ¬ (65 ≤ c.toNat ∧ c.toNat ≤ 90) := by
      rcases small c member with isSmallLetter | hyphen | colon
      · simp only [isSmall, decide_eq_true_eq] at isSmallLetter
        omega
      · rw [hyphen]
        decide
      · rw [colon]
        decide
    rw [toNat_toLower, if_neg noCapital]
    rfl
  lower_no_capital := by
    intro text c member
    obtain ⟨original, _, isLower⟩ := List.mem_map.mp member
    rw [← isLower]
    simp only [isCapital, toNat_toLower, decide_eq_false_iff_not]
    split <;> omega
  letter_ascii := by
    intro c ascii
    simp only [Bool.or_eq_left_iff_imp, decide_eq_true_eq]
    omega
  stringOf_string _ := rfl

/-- Two cities in one window. -/
def cities : Json :=
  .object [("cities", .array [.object [("name", .string "北京")], .object [("name", .string "上海")]])]

theorem cities_collide : ¬ KeysStable chineseRuntime ⟨"cities", ["name"], "city_key"⟩ [cities] := by
  intro stable
  have agree := stable.1 [("name", .string "北京")] (by decide +kernel) [("name", .string "上海")] (by decide +kernel)
  have names := agree.mp (by decide +kernel) "name" (by decide)
  revert names
  decide +kernel

end Lobu.Watchers
