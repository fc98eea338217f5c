import Lobu.Foundation.LastWrites
import Lobu.Watchers.Vocabulary

namespace Lobu.Watchers

open Lobu.Foundation

/-! # The classifiers of a completed window

The vocabularies of a watcher's classifiers grow by what is extracted from the data of a window,
and then the events that the data cites are classified by it.
-/

/-- The current version of a classifier. -/
structure Classifier where
  slug : String
  versionId : Nat
  config : Option ExtractionConfig

structure WatcherClassifiers where
  rows : List Classifier
  once : (rows.map Classifier.versionId).Nodup

/-- What is inserted into `event_classifications`. -/
structure Classification where
  eventId : JsNumber
  versionId : Nat
  values : List String
  excerpts : List (String × Json)

structure ExtractionRuntime extends ItemRuntime where
  similarity : Embedding → Embedding → Rat
  /-- What the embeddings service gave for the values that came without an embedding. -/
  generatedEmbeddings : String → Option Embedding

structure WindowOutcome where
  vocabularies : Nat → Vocabulary
  classifications : List Classification

def isValidEmbedding (embedding : Embedding) : Bool :=
  decide (embedding.length = 768) && embedding.all fun number => (Json.number? number).isSome

def parentCandidate (value : String) : MergeCandidate where
  value
  embedding := none
  build := {
    description := "Category: " ++ value
    examples := []
    embedding := none
    parent := none }
  onAutoMerge := none

section Run

variable (runtime : ExtractionRuntime) (classifiers : WatcherClassifiers)
variable (stored : Nat → Vocabulary) (extractedData : Json)

def extractedBy (classifier : Classifier) : List ExtractedValue :=
  match classifier.config with
  | some config =>
    if config.sourcePath = "" then []
    else extractClassifierValues runtime.toItemRuntime config extractedData
  | none => []

def embeddingOf (extracted : ExtractedValue) : Option Embedding :=
  extracted.embedding.or (runtime.generatedEmbeddings extracted.value)

def childCandidate (extracted : ExtractedValue) : MergeCandidate where
  value := extracted.value
  embedding := embeddingOf runtime extracted
  build := {
    description := (given extracted.description).getD ("Category: " ++ extracted.value)
    examples := extracted.examples.getD []
    embedding := none
    parent := extracted.parent.map fun reference =>
      OrderedMap.empty.set reference.slug reference.value }
  onAutoMerge := extracted.parent

/-- The merge of what a classifier's own path extracts. -/
def childMerge (classifier : Classifier) : MergedValues :=
  mergeValues runtime.similarity (stored classifier.versionId)
    ((extractedBy runtime extractedData classifier).map (childCandidate runtime))

def parentReferences : List (String × String) :=
  classifiers.rows.flatMap fun classifier =>
    (extractedBy runtime extractedData classifier).filterMap fun extracted =>
      extracted.parent.map fun reference => (reference.slug, reference.value)

def parentValues : List (String × List String) :=
  (grouped (parentReferences runtime classifiers extractedData)).map fun group =>
    (group.1, group.2.eraseDups)

/-- `classifierMap.get(slug)`, where the last classifier of a slug was put in. -/
def parentClassifier (slug : String) : Option Classifier :=
  classifiers.rows.reverse.find? fun classifier => decide (classifier.slug = slug)

/-- The vocabulary as it was read, with the values that the classifier's own merge has changed:
the two share them. -/
def firstRead (classifier : Classifier) : Vocabulary :=
  (stored classifier.versionId).mapValues fun name value =>
    ((childMerge runtime stored extractedData classifier).updatedValues.get? name).getD value

def parentMerge (classifier : Classifier) (values : List String) : MergedValues :=
  mergeValues runtime.similarity (firstRead runtime stored extractedData classifier)
    (values.map parentCandidate)

def persisted (classifier : Classifier) (merged : MergedValues) : Option (Nat × Vocabulary) :=
  if merged.hasChanges then some (classifier.versionId, merged.updatedValues) else none

def childWrites : List (Nat × Vocabulary) :=
  classifiers.rows.filterMap fun classifier =>
    persisted classifier (childMerge runtime stored extractedData classifier)

def parentWrites : List (Nat × Vocabulary) :=
  (parentValues runtime classifiers extractedData).filterMap fun group =>
    (parentClassifier classifiers group.1).bind fun parent =>
      persisted parent (parentMerge runtime stored extractedData parent group.2)

def invalidEmbedding : Option String :=
  classifiers.rows.findSome? fun classifier =>
    (extractedBy runtime extractedData classifier).findSome? fun extracted =>
      extracted.embedding.bind fun embedding =>
        if isValidEmbedding embedding then none
        else some ("Invalid embedding for classifier \"" ++ classifier.slug ++ "\" value \"" ++
          extracted.value ++ "\". Expected a 768-dim array of numbers.")

def updateClassifierValues : Except String (Nat → Vocabulary) :=
  match invalidEmbedding runtime classifiers extractedData with
  | some message => .error message
  | none => .ok (lastWritten (parentWrites runtime classifiers stored extractedData)
      (lastWritten (childWrites runtime classifiers stored extractedData) stored))

variable (validContentIds : JsNumber → Bool)

/-- The classifiers that come with an extraction config. -/
def configured : List Classifier :=
  classifiers.rows.filter fun classifier => classifier.config.isSome

def validCitations (config : CitationConfig) (item : Json) : List Citation :=
  (extractCitationsFromItem item config (inferCitationFormat config)).filter fun citation =>
    validContentIds citation.contentId

def citedParent (config : ExtractionConfig) (item : Json) : Option ParentReference :=
  config.parent.bind fun parent =>
    (given ((ownProperty item parent.valueField).bind Json.string?)).map fun value =>
      ⟨parent.slug, value⟩

def ownClassification (classifier : Classifier) (value : String) (citation : Citation) : Classification where
  eventId := citation.contentId
  versionId := classifier.versionId
  values := [value]
  excerpts :=
    if Json.truthy citation.excerpt then
      citation.excerpt.toList.map fun excerpt => (value, excerpt)
    else []

def parentClassification (config : ExtractionConfig) (item : Json) (citation : Citation) : Option Classification :=
  (citedParent config item).bind fun reference =>
    ((configured classifiers).find? fun parent => decide (parent.slug = reference.slug)).map
      fun parent => ⟨citation.contentId, parent.versionId, [reference.value], []⟩

def itemClassifications (classifier : Classifier) (config : ExtractionConfig)
    (citationConfig : CitationConfig) (item : Json) : List Classification :=
  match itemValue? config item with
  | none => []
  | some value =>
    (validCitations validContentIds citationConfig item).flatMap fun citation =>
      ownClassification classifier value citation ::
        (parentClassification classifiers config item citation).toList

def classificationsOf (classifier : Classifier) : List Classification :=
  match classifier.config with
  | none => []
  | some config =>
    match config.citationConfig with
    | none => []
    | some citationConfig =>
      (extractAtPath extractedData config.sourcePath).flatMap
        (itemClassifications classifiers validContentIds classifier config citationConfig)

def processExtractedClassifications : List Classification :=
  (configured classifiers).flatMap
    (classificationsOf classifiers extractedData validContentIds)

def processWatcherClassifications : Except String WindowOutcome :=
  if configured classifiers = [] then .ok ⟨stored, []⟩
  else
    (updateClassifierValues runtime classifiers stored extractedData).map fun vocabularies =>
      ⟨vocabularies, processExtractedClassifications classifiers extractedData validContentIds⟩

/-- The value that an extraction is merged into. -/
def IsMergedInto (classifier : Classifier) (extracted : ExtractedValue) (name : String) : Prop :=
  normalizeValue runtime.similarity extracted.value (stored classifier.versionId)
    (embeddingOf runtime extracted) = .autoMerged name

structure VocabularyKept (outcome : WindowOutcome) : Prop where
  stored_kept : ∀ classifier ∈ classifiers.rows, ∀ name before,
    (stored classifier.versionId).get? name = some before →
    ∃ after, (outcome.vocabularies classifier.versionId).get? name = some after ∧
      before.Follows (fun reference =>
        ∃ extracted ∈ extractedBy runtime extractedData classifier,
          IsMergedInto runtime stored classifier extracted name ∧
            extracted.parent = some reference) after
  extracted_kept : ∀ classifier ∈ classifiers.rows,
    ∀ extracted ∈ extractedBy runtime extractedData classifier,
    (outcome.vocabularies classifier.versionId).has extracted.value = true ∨
      ∃ name, IsMergedInto runtime stored classifier extracted name ∧
        (stored classifier.versionId).has name = true
  parents_kept : ∀ classifier ∈ classifiers.rows,
    ∀ extracted ∈ extractedBy runtime extractedData classifier, ∀ reference parent,
    extracted.parent = some reference → parentClassifier classifiers reference.slug = some parent →
      (outcome.vocabularies parent.versionId).has reference.value = true
  classified_known : ∀ classification ∈ outcome.classifications, ∀ value ∈ classification.values,
    (outcome.vocabularies classification.versionId).has value = true

/-- The classifier's own path extracts the value, and it is merged into no other. -/
def IsNewValue (classifier : Classifier) (value : String) : Prop :=
  ∃ extracted ∈ extractedBy runtime extractedData classifier, extracted.value = value ∧
    normalizeValue runtime.similarity extracted.value (stored classifier.versionId)
      (embeddingOf runtime extracted) = .new value

/-- An extracted value names the value as the one of this parent. -/
def IsParentValue (classifier : Classifier) (value : String) : Prop :=
  parentClassifier classifiers classifier.slug = some classifier ∧
    ∃ child ∈ classifiers.rows, ∃ extracted ∈ extractedBy runtime extractedData child,
      extracted.parent = some ⟨classifier.slug, value⟩

def IsOffered (classifier : Classifier) (value : String) : Prop :=
  (stored classifier.versionId).has value = true ∨
    IsNewValue runtime stored extractedData classifier value ∨
    IsParentValue runtime classifiers extractedData classifier value

/-- What the vocabularies are given is what they can take, and no event is classified otherwise. -/
structure Compatible : Prop where
  /-- A parent that is given a value it did not have extracts no other new one itself. -/
  one_pass : ∀ classifier ∈ classifiers.rows,
    (∃ value, IsParentValue runtime classifiers extractedData classifier value ∧
      (stored classifier.versionId).has value = false) →
    ∀ value, IsNewValue runtime stored extractedData classifier value →
      (stored classifier.versionId).has value = true ∨
        IsParentValue runtime classifiers extractedData classifier value
  /-- No value has the name of what every object inherits. -/
  ordinary_values : ∀ classifier ∈ classifiers.rows,
    ∀ extracted ∈ extractedBy runtime extractedData classifier,
    extracted.value ∈ inheritedNames → (stored classifier.versionId).has extracted.value = true ∨
      ∃ name, IsMergedInto runtime stored classifier extracted name ∧
        (stored classifier.versionId).has name = true
  ordinary_parents : ∀ classifier ∈ classifiers.rows, ∀ value,
    IsParentValue runtime classifiers extractedData classifier value → value ∈ inheritedNames →
      (stored classifier.versionId).has value = true
  /-- An event is classified by a value that is given, not by one that is merged into another. -/
  cited_values : ∀ classifier ∈ classifiers.rows, ∀ config citationConfig,
    classifier.config = some config → config.citationConfig = some citationConfig →
    ∀ item ∈ extractAtPath extractedData config.sourcePath,
    validCitations validContentIds citationConfig item ≠ [] → ∀ value,
    itemValue? config item = some value →
      IsOffered runtime classifiers stored extractedData classifier value
  cited_parents : ∀ classifier ∈ classifiers.rows, ∀ config citationConfig,
    classifier.config = some config → config.citationConfig = some citationConfig →
    ∀ item ∈ extractAtPath extractedData config.sourcePath,
    validCitations validContentIds citationConfig item ≠ [] → (itemValue? config item).isSome →
    ∀ reference parent, citedParent config item = some reference →
    (configured classifiers).find? (fun parent => decide (parent.slug = reference.slug)) =
      some parent →
      IsOffered runtime classifiers stored extractedData parent reference.value

end Run

variable {runtime : ExtractionRuntime} {classifiers : WatcherClassifiers}
variable {stored : Nat → Vocabulary} {extractedData : Json} {classifier parent : Classifier}
variable {value slug : String}

theorem mem_of_parentClassifier (found : parentClassifier classifiers slug = some parent) :
    parent ∈ classifiers.rows ∧ parent.slug = slug := by
  have member := List.mem_of_find?_eq_some found
  have same := List.find?_some found
  exact ⟨List.mem_reverse.mp member, of_decide_eq_true same⟩

theorem eq_of_versionId {other : Classifier} (member : classifier ∈ classifiers.rows)
    (otherMember : other ∈ classifiers.rows) (same : classifier.versionId = other.versionId) : classifier = other :=
  List.inj_on_of_nodup_map classifiers.once member otherMember same

/-- The values that the references name for a classifier. -/
def rolledUp (runtime : ExtractionRuntime) (classifiers : WatcherClassifiers)
    (extractedData : Json) (slug : String) : List String :=
  (itemsUnder slug (parentReferences runtime classifiers extractedData)).eraseDups

theorem mem_rolledUp :
    value ∈ rolledUp runtime classifiers extractedData slug ↔
      ∃ child ∈ classifiers.rows, ∃ extracted ∈ extractedBy runtime extractedData child,
        extracted.parent = some ⟨slug, value⟩ := by
  rw [rolledUp, List.mem_eraseDups, mem_itemsUnder, parentReferences, List.mem_flatMap]
  simp only [List.mem_filterMap, Option.map_eq_some_iff, Prod.mk.injEq]
  constructor
  · intro listed
    obtain ⟨child, member, extracted, present, reference, brought, sameSlug, sameValue⟩ := listed
    refine ⟨child, member, extracted, present, ?_⟩
    rw [brought, ← sameSlug, ← sameValue]
  · intro brings
    obtain ⟨child, member, extracted, present, brought⟩ := brings
    exact ⟨child, member, extracted, present, _, brought, rfl, rfl⟩

theorem mem_parentValues {group : String × List String}
    (listed : group ∈ parentValues runtime classifiers extractedData) :
    group.2 = rolledUp runtime classifiers extractedData group.1 := by
  obtain ⟨whole, grouped, same⟩ := List.mem_map.mp listed
  obtain ⟨key, values⟩ := whole
  subst same
  show values.eraseDups = _
  rw [(mem_grouped.mp grouped).1]
  rfl

theorem parentValues_of_ne_nil (given : rolledUp runtime classifiers extractedData slug ≠ []) :
    (slug, rolledUp runtime classifiers extractedData slug) ∈ parentValues runtime classifiers extractedData := by
  refine List.mem_map.mpr ⟨(slug, _), mem_grouped.mpr ⟨rfl, ?_⟩, rfl⟩
  intro none
  exact given (by rw [rolledUp, none]; rfl)

theorem persisted_eq_some {merged : MergedValues} {write : Nat × Vocabulary} :
    persisted classifier merged = some write ↔
      merged.hasChanges = true ∧ write = (classifier.versionId, merged.updatedValues) := by
  unfold persisted
  split
  · rename_i changed
    simp [changed, eq_comm]
  · rename_i still
    simp [still]

theorem childWrites_once : ((childWrites runtime classifiers stored extractedData).map Prod.fst).Nodup := by
  have apart : classifiers.rows.Pairwise fun first second => first.versionId ≠ second.versionId :=
    List.pairwise_map.mp classifiers.once
  refine List.pairwise_map.mpr (apart.filterMap _ ?_)
  intro first second different write written other alsoWritten
  rw [(persisted_eq_some.mp written).2, (persisted_eq_some.mp alsoWritten).2]
  exact different

theorem parentWrites_once : ((parentWrites runtime classifiers stored extractedData).map Prod.fst).Nodup := by
  have slugs : ((parentValues runtime classifiers extractedData).map Prod.fst).Nodup := by
    simpa [parentValues, Function.comp_def] using grouped_nodup (parentReferences runtime classifiers extractedData)
  refine List.pairwise_map.mpr ((List.pairwise_map.mp slugs).filterMap _ ?_)
  intro first second different write written other alsoWritten
  obtain ⟨parent, found, written⟩ := Option.bind_eq_some_iff.mp written
  obtain ⟨otherParent, alsoFound, alsoWritten⟩ := Option.bind_eq_some_iff.mp alsoWritten
  rw [(persisted_eq_some.mp written).2, (persisted_eq_some.mp alsoWritten).2]
  intro same
  have one := eq_of_versionId (mem_of_parentClassifier found).1 (mem_of_parentClassifier alsoFound).1 same
  apply different
  rw [← (mem_of_parentClassifier found).2, ← (mem_of_parentClassifier alsoFound).2, one]

theorem childPass_eq (member : classifier ∈ classifiers.rows) :
    lastWritten (childWrites runtime classifiers stored extractedData) stored classifier.versionId =
      (childMerge runtime stored extractedData classifier).updatedValues := by
  cases changed : (childMerge runtime stored extractedData classifier).hasChanges with
  | true =>
    apply lastWritten_of_mem childWrites_once
    exact List.mem_filterMap.mpr ⟨classifier, member, persisted_eq_some.mpr ⟨changed, rfl⟩⟩
  | false =>
    have same : (childMerge runtime stored extractedData classifier).updatedValues =
        stored classifier.versionId := mergeValues_unchanged changed
    rw [same]
    apply lastWritten_of_not_mem
    intro touched
    obtain ⟨write, written, isKey⟩ := List.mem_map.mp touched
    obtain ⟨other, otherMember, persists⟩ := List.mem_filterMap.mp written
    obtain ⟨otherChanged, shape⟩ := persisted_eq_some.mp persists
    rw [shape] at isKey
    rw [eq_of_versionId otherMember member isKey, changed] at otherChanged
    exact Bool.noConfusion otherChanged

/-- The classifier is one that the references name, and is given a value that it did not have. -/
def IsGivenMore (runtime : ExtractionRuntime) (classifiers : WatcherClassifiers)
    (stored : Nat → Vocabulary) (extractedData : Json) (classifier : Classifier) : Prop :=
  parentClassifier classifiers classifier.slug = some classifier ∧
    (parentMerge runtime stored extractedData classifier
      (rolledUp runtime classifiers extractedData classifier.slug)).hasChanges = true

theorem parentPass_given (more : IsGivenMore runtime classifiers stored extractedData classifier)
    (before : Nat → Vocabulary) :
    lastWritten (parentWrites runtime classifiers stored extractedData) before classifier.versionId =
      (parentMerge runtime stored extractedData classifier
        (rolledUp runtime classifiers extractedData classifier.slug)).updatedValues := by
  have named : rolledUp runtime classifiers extractedData classifier.slug ≠ [] := by
    intro none
    have changed := more.2
    rw [none] at changed
    exact Bool.noConfusion changed
  apply lastWritten_of_mem parentWrites_once
  refine List.mem_filterMap.mpr ⟨_, parentValues_of_ne_nil named, ?_⟩
  exact Option.bind_eq_some_iff.mpr ⟨classifier, more.1, persisted_eq_some.mpr ⟨more.2, rfl⟩⟩

theorem parentPass_other (member : classifier ∈ classifiers.rows)
    (noMore : ¬ IsGivenMore runtime classifiers stored extractedData classifier) (before : Nat → Vocabulary) :
    lastWritten (parentWrites runtime classifiers stored extractedData) before
        classifier.versionId = before classifier.versionId := by
  apply lastWritten_of_not_mem
  intro touched
  obtain ⟨write, written, isKey⟩ := List.mem_map.mp touched
  obtain ⟨group, listed, persists⟩ := List.mem_filterMap.mp written
  obtain ⟨parent, found, persists⟩ := Option.bind_eq_some_iff.mp persists
  obtain ⟨changed, shape⟩ := persisted_eq_some.mp persists
  rw [shape] at isKey
  have same := eq_of_versionId (mem_of_parentClassifier found).1 member isKey
  subst same
  have isSlug := (mem_of_parentClassifier found).2
  rw [mem_parentValues listed, ← isSlug] at changed
  rw [← isSlug] at found
  exact noMore ⟨found, changed⟩

theorem childMerge_has :
    (childMerge runtime stored extractedData classifier).updatedValues.has value = true ↔
      (stored classifier.versionId).has value = true ∨
        IsNewValue runtime stored extractedData classifier value ∧ value ∉ inheritedNames := by
  rw [childMerge, mergeValues_has]
  refine or_congr_right ?_
  constructor
  · intro added
    obtain ⟨candidate, among, isValue, isNew, ordinary⟩ := added
    obtain ⟨extracted, present, same⟩ := List.mem_map.mp among
    subst same
    subst isValue
    exact ⟨⟨extracted, present, rfl, isNew⟩, ordinary⟩
  · intro added
    obtain ⟨⟨extracted, present, isValue, isNew⟩, ordinary⟩ := added
    subst isValue
    exact ⟨_, List.mem_map.mpr ⟨extracted, present, rfl⟩, rfl, isNew, ordinary⟩

theorem firstRead_has :
    (firstRead runtime stored extractedData classifier).has value = (stored classifier.versionId).has value :=
  OrderedMap.has_mapValues _ _ _

theorem parentCandidate_isNew :
    (parentCandidate value).IsNew runtime.similarity (firstRead runtime stored extractedData classifier) ↔
      (stored classifier.versionId).has value = false ∧ value ∉ inheritedNames := by
  simp only [MergeCandidate.IsNew, parentCandidate, normalizeValue, hasValidEmbedding, isThere, firstRead_has]
  cases (stored classifier.versionId).has value with
  | true => simp
  | false => simp

theorem parentMerge_has {values : List String} :
    (parentMerge runtime stored extractedData classifier values).updatedValues.has value = true ↔
      (stored classifier.versionId).has value = true ∨ value ∈ values ∧ value ∉ inheritedNames := by
  rw [parentMerge, mergeValues_has, firstRead_has]
  constructor
  · intro has
    rcases has with has | ⟨candidate, among, isValue, isNew, ordinary⟩
    · exact .inl has
    · obtain ⟨given, listed, same⟩ := List.mem_map.mp among
      subst same
      exact .inr ⟨isValue ▸ listed, ordinary⟩
  · intro has
    rcases has with has | ⟨listed, ordinary⟩
    · exact .inl has
    · cases known : (stored classifier.versionId).has value with
      | true => exact .inl rfl
      | false =>
        exact .inr ⟨_, List.mem_map.mpr ⟨value, listed, rfl⟩, rfl,
          parentCandidate_isNew.mpr ⟨known, ordinary⟩, ordinary⟩

theorem isGivenMore_iff :
    IsGivenMore runtime classifiers stored extractedData classifier ↔
      ∃ value, IsParentValue runtime classifiers extractedData classifier value ∧
        (stored classifier.versionId).has value = false ∧ value ∉ inheritedNames := by
  constructor
  · intro more
    obtain ⟨candidate, among, changes⟩ := mergeValues_changes more.2
    obtain ⟨value, listed, same⟩ := List.mem_map.mp among
    subst same
    rcases changes with isNew | brings
    · exact ⟨value, ⟨more.1, mem_rolledUp.mp listed⟩, parentCandidate_isNew.mp isNew⟩
    · exact Bool.noConfusion brings
  · intro given
    obtain ⟨value, ⟨isParent, brought⟩, missing, ordinary⟩ := given
    refine ⟨isParent, ?_⟩
    by_contra still
    have same := mergeValues_unchanged (Bool.eq_false_iff.mpr still)
    have has : (parentMerge runtime stored extractedData classifier
        (rolledUp runtime classifiers extractedData classifier.slug)).updatedValues.has value =
          true := parentMerge_has.mpr (.inr ⟨mem_rolledUp.mpr brought, ordinary⟩)
    rw [parentMerge, same, firstRead_has, missing] at has
    exact Bool.noConfusion has

end Lobu.Watchers
