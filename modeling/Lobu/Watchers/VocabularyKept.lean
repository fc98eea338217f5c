import Lobu.Watchers.ClassifierRun

namespace Lobu.Watchers

open Lobu.Foundation

/-! # What becomes of the vocabularies

A call leaves of a vocabulary what its last pass wrote.  Where the parent pass writes one, it is the
first read with the parent values, and what the child pass added is gone.
-/

variable {runtime : ExtractionRuntime} {classifiers : WatcherClassifiers}
variable {stored : Nat → Vocabulary} {extractedData : Json} {validContentIds : JsNumber → Bool}
variable {classifier parent : Classifier} {value : String} {outcome : WindowOutcome}

section

variable (ran : processWatcherClassifications runtime classifiers stored extractedData validContentIds = .ok outcome)
include ran

theorem processWatcherClassifications_ok :
    (outcome.vocabularies = lastWritten (parentWrites runtime classifiers stored extractedData)
      (lastWritten (childWrites runtime classifiers stored extractedData) stored)) ∧ outcome.classifications =
      processExtractedClassifications classifiers extractedData validContentIds := by
  unfold processWatcherClassifications at ran
  split at ran
  · rename_i unconfigured
    have same := (Except.ok.inj ran).symm
    subst same
    have extracts : ∀ classifier ∈ classifiers.rows, extractedBy runtime extractedData classifier = [] := by
      intro classifier member
      have none : classifier.config = none := by
        have skipped := List.filter_eq_nil_iff.mp unconfigured classifier member
        simpa using skipped
      rw [extractedBy, none]
    have noChild : childWrites runtime classifiers stored extractedData = [] := by
      refine List.filterMap_eq_nil_iff.mpr fun classifier member => ?_
      rw [childMerge, extracts classifier member]
      rfl
    have noReference : parentReferences runtime classifiers extractedData = [] := by
      refine List.flatMap_eq_nil_iff.mpr fun classifier member => ?_
      rw [extracts classifier member]
      rfl
    have noParent : parentWrites runtime classifiers stored extractedData = [] := by
      rw [parentWrites, parentValues, noReference]
      rfl
    rw [noChild, noParent, processExtractedClassifications, unconfigured]
    exact ⟨rfl, rfl⟩
  · unfold updateClassifierValues at ran
    split at ran
    · simp [Except.map] at ran
    · have same := (Except.ok.inj ran).symm
      subst same
      exact ⟨rfl, rfl⟩

theorem vocabulary_given (more : IsGivenMore runtime classifiers stored extractedData classifier) :
    outcome.vocabularies classifier.versionId = (parentMerge runtime stored extractedData classifier
        (rolledUp runtime classifiers extractedData classifier.slug)).updatedValues := by
  rw [(processWatcherClassifications_ok ran).1]
  exact parentPass_given more _

theorem vocabulary_other (member : classifier ∈ classifiers.rows)
    (noMore : ¬ IsGivenMore runtime classifiers stored extractedData classifier) :
    outcome.vocabularies classifier.versionId =
      (childMerge runtime stored extractedData classifier).updatedValues := by
  rw [(processWatcherClassifications_ok ran).1, parentPass_other member noMore]
  exact childPass_eq member

theorem offered_of_has
    (member : classifier ∈ classifiers.rows) (has : (outcome.vocabularies classifier.versionId).has value = true) :
    (stored classifier.versionId).has value = true ∨ value ∉ inheritedNames ∧
      (IsNewValue runtime stored extractedData classifier value ∨
        IsParentValue runtime classifiers extractedData classifier value) := by
  by_cases more : IsGivenMore runtime classifiers stored extractedData classifier
  · rw [vocabulary_given ran more, parentMerge_has] at has
    rcases has with has | ⟨listed, ordinary⟩
    · exact .inl has
    · exact .inr ⟨ordinary, .inr ⟨more.1, mem_rolledUp.mp listed⟩⟩
  · rw [vocabulary_other ran member more, childMerge_has] at has
    rcases has with has | ⟨isNew, ordinary⟩
    · exact .inl has
    · exact .inr ⟨ordinary, .inl isNew⟩

theorem has_of_stored
    (member : classifier ∈ classifiers.rows) (known : (stored classifier.versionId).has value = true) :
    (outcome.vocabularies classifier.versionId).has value = true := by
  by_cases more : IsGivenMore runtime classifiers stored extractedData classifier
  · rw [vocabulary_given ran more, parentMerge_has]
    exact .inl known
  · rw [vocabulary_other ran member more, childMerge_has]
    exact .inl known

theorem has_of_parentValue (member : classifier ∈ classifiers.rows) (ordinary : value ∉ inheritedNames)
    (named : IsParentValue runtime classifiers extractedData classifier value) :
    (outcome.vocabularies classifier.versionId).has value = true := by
  cases known : (stored classifier.versionId).has value with
  | true => exact has_of_stored ran member known
  | false =>
    have more := isGivenMore_iff.mpr ⟨value, named, known, ordinary⟩
    rw [vocabulary_given ran more, parentMerge_has]
    exact .inr ⟨mem_rolledUp.mpr named.2, ordinary⟩

theorem stored_follows
    (member : classifier ∈ classifiers.rows) {name : String} {before : AttributeValue}
    (known : (stored classifier.versionId).get? name = some before) :
    ∃ after, (outcome.vocabularies classifier.versionId).get? name = some after ∧
      before.Follows (fun reference =>
        ∃ extracted ∈ extractedBy runtime extractedData classifier,
          IsMergedInto runtime stored classifier extracted name ∧
            extracted.parent = some reference) after := by
  obtain ⟨merged, present, follows⟩ : ∃ after,
      (childMerge runtime stored extractedData classifier).updatedValues.get? name = some after ∧
        before.Follows _ after := mergeValues_keeps known
  have own : before.Follows (fun reference =>
      ∃ extracted ∈ extractedBy runtime extractedData classifier,
        IsMergedInto runtime stored classifier extracted name ∧
          extracted.parent = some reference) merged := by
    refine follows.mono fun reference brought => ?_
    obtain ⟨candidate, among, into, brings⟩ := brought
    obtain ⟨extracted, listed, same⟩ := List.mem_map.mp among
    subst same
    exact ⟨extracted, listed, into, brings⟩
  by_cases more : IsGivenMore runtime classifiers stored extractedData classifier
  · have first : (firstRead runtime stored extractedData classifier).get? name = some merged := by
      rw [firstRead, OrderedMap.get?_mapValues, known, present]
      rfl
    obtain ⟨after, stays, rest⟩ : ∃ after, (parentMerge runtime stored extractedData classifier
          (rolledUp runtime classifiers extractedData classifier.slug)).updatedValues.get? name =
            some after ∧ merged.Follows _ after := mergeValues_keeps first
    refine ⟨after, by rw [vocabulary_given ran more, stays], own.trans (rest.mono ?_)⟩
    intro reference brought
    obtain ⟨candidate, among, _, brings⟩ := brought
    obtain ⟨value, _, same⟩ := List.mem_map.mp among
    subst same
    simp [parentCandidate] at brings
  · exact ⟨merged, by rw [vocabulary_other ran member more, present], own⟩

end

theorem mem_configured : classifier ∈ configured classifiers ↔
    classifier ∈ classifiers.rows ∧ classifier.config.isSome = true := List.mem_filter

theorem mem_classifications {classification : Classification} :
    classification ∈ processExtractedClassifications classifiers extractedData validContentIds ↔
      ∃ classifier ∈ classifiers.rows, ∃ config citationConfig,
        classifier.config = some config ∧ config.citationConfig = some citationConfig ∧
        ∃ item ∈ extractAtPath extractedData config.sourcePath, ∃ value, itemValue? config item = some value ∧
          ∃ citation ∈ validCitations validContentIds citationConfig item,
            classification = ownClassification classifier value citation ∨
              parentClassification classifiers config item citation = some classification := by
  unfold processExtractedClassifications
  rw [List.mem_flatMap]
  constructor
  · intro listed
    obtain ⟨classifier, member, listed⟩ := listed
    unfold classificationsOf at listed
    cases configuration : classifier.config with
    | none => simp [configuration] at listed
    | some config =>
      cases citations : config.citationConfig with
      | none => simp [configuration, citations] at listed
      | some citationConfig =>
        simp only [configuration, citations, List.mem_flatMap] at listed
        obtain ⟨item, among, listed⟩ := listed
        unfold itemClassifications at listed
        cases holds : itemValue? config item with
        | none => simp [holds] at listed
        | some value =>
          simp only [holds, List.mem_flatMap, List.mem_cons, Option.mem_toList] at listed
          obtain ⟨citation, valid, shape⟩ := listed
          exact ⟨classifier, (mem_configured.mp member).1, config, citationConfig,
            configuration, citations, item, among, value, holds, citation, valid, shape⟩
  · intro cited
    obtain ⟨classifier, member, config, citationConfig, configuration, citations, item, among,
      value, holds, citation, valid, shape⟩ := cited
    refine ⟨classifier, mem_configured.mpr ⟨member, by rw [configuration]; rfl⟩, ?_⟩
    simp only [classificationsOf, configuration, citations, List.mem_flatMap]
    refine ⟨item, among, ?_⟩
    simp only [itemClassifications, holds, List.mem_flatMap, List.mem_cons, Option.mem_toList]
    exact ⟨citation, valid, shape⟩

theorem parentClassification_eq_some {config : ExtractionConfig} {item : Json}
    {citation : Citation} {classification : Classification} :
    parentClassification classifiers config item citation = some classification ↔
      ∃ reference parent, citedParent config item = some reference ∧
        (configured classifiers).find? (fun parent => decide (parent.slug = reference.slug)) = some parent ∧
        classification = ⟨citation.contentId, parent.versionId, [reference.value], []⟩ := by
  simp only [parentClassification, Option.bind_eq_some_iff, Option.map_eq_some_iff]
  constructor
  · intro found
    obtain ⟨reference, cited, parent, isParent, shape⟩ := found
    exact ⟨reference, parent, cited, isParent, shape.symm⟩
  · intro found
    obtain ⟨reference, parent, cited, isParent, shape⟩ := found
    exact ⟨reference, cited, parent, isParent, shape.symm⟩

theorem has_of_offered
    (ran : processWatcherClassifications runtime classifiers stored extractedData validContentIds = .ok outcome)
    (compatible : Compatible runtime classifiers stored extractedData validContentIds)
    (member : classifier ∈ classifiers.rows)
    (offered : IsOffered runtime classifiers stored extractedData classifier value) :
    (outcome.vocabularies classifier.versionId).has value = true := by
  have parents : IsParentValue runtime classifiers extractedData classifier value →
      (outcome.vocabularies classifier.versionId).has value = true := by
    intro named
    by_cases inherited : value ∈ inheritedNames
    · exact has_of_stored ran member (compatible.ordinary_parents classifier member value named inherited)
    · exact has_of_parentValue ran member inherited named
  rcases offered with known | isNew | named
  · exact has_of_stored ran member known
  · by_cases inherited : value ∈ inheritedNames
    · obtain ⟨extracted, present, isValue, unmerged⟩ := isNew
      subst isValue
      rcases compatible.ordinary_values classifier member extracted present inherited with
        known | ⟨name, merged, _⟩
      · exact has_of_stored ran member known
      · rw [IsMergedInto, unmerged] at merged
        exact NormalizationResult.noConfusion merged
    · by_cases more : IsGivenMore runtime classifiers stored extractedData classifier
      · obtain ⟨given, named, missing, _⟩ := isGivenMore_iff.mp more
        rcases compatible.one_pass classifier member ⟨given, named, missing⟩ value isNew with
          known | named
        · exact has_of_stored ran member known
        · exact parents named
      · rw [vocabulary_other ran member more, childMerge_has]
        exact .inr ⟨isNew, inherited⟩
  · exact parents named

theorem compatible_of_kept
    (ran : processWatcherClassifications runtime classifiers stored extractedData validContentIds = .ok outcome)
    (kept : VocabularyKept runtime classifiers stored extractedData outcome) :
    Compatible runtime classifiers stored extractedData validContentIds := by
  have parents : ∀ classifier ∈ classifiers.rows, ∀ value,
      IsParentValue runtime classifiers extractedData classifier value →
        (outcome.vocabularies classifier.versionId).has value = true := by
    intro classifier member value named
    obtain ⟨isParent, child, among, extracted, present, brings⟩ := named
    exact kept.parents_kept child among extracted present _ classifier brings isParent
  have classified : ∀ classification ∈ outcome.classifications, ∀ classifier ∈ classifiers.rows,
      ∀ value, classification.versionId = classifier.versionId → classification.values = [value] →
        IsOffered runtime classifiers stored extractedData classifier value := by
    intro classification listed classifier member value isVersion isValue
    have has := kept.classified_known classification listed value (by simp [isValue])
    rw [isVersion] at has
    exact (offered_of_has ran member has).imp id fun added => added.2
  constructor
  · intro classifier member more value isNew
    obtain ⟨given, named, missing⟩ := more
    have has := parents classifier member given named
    have ordinary : given ∉ inheritedNames := by
      rcases offered_of_has ran member has with known | added
      · rw [missing] at known
        exact Bool.noConfusion known
      · exact added.1
    have changes := isGivenMore_iff.mpr ⟨given, named, missing, ordinary⟩
    obtain ⟨extracted, present, isValue, unmerged⟩ := isNew
    subst isValue
    rcases kept.extracted_kept classifier member extracted present with has | ⟨name, merged, _⟩
    · rw [vocabulary_given ran changes, parentMerge_has] at has
      exact has.imp id fun added => ⟨changes.1, mem_rolledUp.mp added.1⟩
    · rw [IsMergedInto, unmerged] at merged
      exact NormalizationResult.noConfusion merged
  · intro classifier member extracted present inherited
    rcases kept.extracted_kept classifier member extracted present with has | merged
    · rcases offered_of_has ran member has with known | added
      · exact .inl known
      · exact absurd inherited added.1
    · exact .inr merged
  · intro classifier member value named inherited
    rcases offered_of_has ran member (parents classifier member value named) with known | added
    · exact known
    · exact absurd inherited added.1
  · intro classifier member config citationConfig configuration citations item among cites value holds
    obtain ⟨citation, valid⟩ := List.exists_mem_of_ne_nil _ cites
    refine classified (ownClassification classifier value citation) ?_ classifier member value rfl rfl
    rw [(processWatcherClassifications_ok ran).2]
    exact mem_classifications.mpr ⟨classifier, member, config, citationConfig, configuration,
      citations, item, among, value, holds, citation, valid, .inl rfl⟩
  · intro classifier member config citationConfig configuration citations item among cites holds
      reference parent cited isParent
    obtain ⟨citation, valid⟩ := List.exists_mem_of_ne_nil _ cites
    obtain ⟨value, holds⟩ := Option.isSome_iff_exists.mp holds
    have parentMember := (mem_configured.mp (List.mem_of_find?_eq_some isParent)).1
    refine classified ⟨citation.contentId, parent.versionId, [reference.value], []⟩ ?_ parent
      parentMember reference.value rfl rfl
    rw [(processWatcherClassifications_ok ran).2]
    exact mem_classifications.mpr ⟨classifier, member, config, citationConfig, configuration,
      citations, item, among, value, holds, citation, valid,
      .inr (parentClassification_eq_some.mpr ⟨reference, parent, cited, isParent, rfl⟩)⟩

/-- A call keeps the vocabularies and classifies by them exactly when what it is given is
compatible with its passes. -/
theorem vocabulary_kept_iff
    (ran : processWatcherClassifications runtime classifiers stored extractedData validContentIds = .ok outcome) :
    VocabularyKept runtime classifiers stored extractedData outcome ↔
      Compatible runtime classifiers stored extractedData validContentIds := by
  refine ⟨compatible_of_kept ran, fun compatible => ?_⟩
  constructor
  · intro classifier member name before known
    exact stored_follows ran member known
  · intro classifier member extracted present
    cases normalized : normalizeValue runtime.similarity extracted.value
        (stored classifier.versionId) (embeddingOf runtime extracted) with
    | autoMerged name =>
      rcases normalizeValue_autoMerged normalized with known | ⟨_, inherited⟩
      · exact .inr ⟨name, normalized, known⟩
      · exact (compatible.ordinary_values classifier member extracted present inherited).imp
          (has_of_stored ran member) id
    | new name =>
      have isValue := normalizeValue_new normalized
      subst isValue
      exact .inl (has_of_offered ran compatible member (.inr (.inl ⟨extracted, present, rfl, normalized⟩)))
  · intro classifier member extracted present reference parent brings isParent
    obtain ⟨parentMember, isSlug⟩ := mem_of_parentClassifier isParent
    refine has_of_offered ran compatible parentMember (.inr (.inr ⟨by rw [isSlug]; exact isParent,
      classifier, member, extracted, present, ?_⟩))
    rw [brings, isSlug]
  · intro classification listed
    rw [(processWatcherClassifications_ok ran).2] at listed
    obtain ⟨classifier, member, config, citationConfig, configuration, citations, item, among,
      value, holds, citation, valid, shape⟩ := mem_classifications.mp listed
    have cites := List.ne_nil_of_mem valid
    rcases shape with own | parents
    · subst own
      intro cited isCited
      rw [List.mem_singleton.mp isCited]
      exact has_of_offered ran compatible member (compatible.cited_values classifier member config
        citationConfig configuration citations item among cites value holds)
    · obtain ⟨reference, parent, cited, isParent, shape⟩ := parentClassification_eq_some.mp parents
      subst shape
      intro value isCited
      rw [List.mem_singleton.mp isCited]
      exact has_of_offered ran compatible (mem_configured.mp (List.mem_of_find?_eq_some isParent)).1
        (compatible.cited_parents classifier member config citationConfig configuration citations
          item among cites (by rw [holds]; rfl) reference parent cited isParent)

/-- A runtime without an embeddings service. -/
def exactRuntime : ExtractionRuntime where
  stringOf value := value.string?.getD ""
  inherited _ _ := none
  stringOf_string _ := rfl
  similarity _ _ := 0
  generatedEmbeddings _ := none

def topics : Classifier :=
  ⟨"topics", 1, some ⟨"$.topics[*]", "name", none, none, none, none⟩⟩

def complaints : Classifier :=
  ⟨"complaints", 2, some ⟨"$.complaints[*]", "name", none, none,
    some ⟨some "cited_content_ids", none, none, none, none⟩, some ⟨"topics", "topic"⟩⟩⟩

def feedback : WatcherClassifiers := ⟨[topics, complaints], by decide⟩

/-- A topic, and a complaint about another one. -/
def feedbackData : Json :=
  .object [("topics", .array [.object [("name", .string "Pricing")]]),
    ("complaints", .array [.object [("name", .string "Too expensive"), ("topic", .string "Billing"),
      ("cited_content_ids", .array [.number (.finite 7)])]])]

def isEventSeven (id : JsNumber) : Bool := decide (id = .finite 7)

def feedbackOutcome : WindowOutcome where
  vocabularies := lastWritten
    (parentWrites exactRuntime feedback (fun _ => OrderedMap.empty) feedbackData)
    (lastWritten (childWrites exactRuntime feedback (fun _ => OrderedMap.empty) feedbackData)
      fun _ => OrderedMap.empty)
  classifications := processExtractedClassifications feedback feedbackData isEventSeven

theorem feedback_runs :
    processWatcherClassifications exactRuntime feedback (fun _ => OrderedMap.empty) feedbackData
      isEventSeven = .ok feedbackOutcome := by
  have valid : invalidEmbedding exactRuntime feedback feedbackData = none := by decide +kernel
  have configures : configured feedback ≠ [] := by decide
  rw [processWatcherClassifications, if_neg configures, updateClassifierValues, valid]
  rfl

theorem feedback_not_kept :
    ¬ VocabularyKept exactRuntime feedback (fun _ => OrderedMap.empty) feedbackData feedbackOutcome := by
  intro kept
  have extracts : extractedBy exactRuntime feedbackData topics = [⟨"Pricing", none, none, none, none⟩] := by rfl
  have lost : (feedbackOutcome.vocabularies 1).has "Pricing" = false := by decide +kernel
  have pricing : (⟨"Pricing", none, none, none, none⟩ : ExtractedValue) ∈
      extractedBy exactRuntime feedbackData topics := by
    rw [extracts]
    exact List.mem_singleton_self _
  rcases kept.extracted_kept topics List.mem_cons_self _ pricing with has | ⟨name, _, known⟩
  · exact Bool.noConfusion (lost.symm.trans has)
  · exact Bool.noConfusion known

/-- A parent's own new value is lost when it is also given another one. -/
theorem topic_lost :
    ¬ ∀ (runtime : ExtractionRuntime) (classifiers : WatcherClassifiers)
      (stored : Nat → Vocabulary) (extractedData : Json) (validContentIds : JsNumber → Bool)
      (outcome : WindowOutcome),
      processWatcherClassifications runtime classifiers stored extractedData validContentIds =
        .ok outcome → VocabularyKept runtime classifiers stored extractedData outcome :=
  fun claim => feedback_not_kept (claim _ _ _ _ _ _ feedback_runs)

theorem feedback_not_compatible :
    ¬ Compatible exactRuntime feedback (fun _ => OrderedMap.empty) feedbackData isEventSeven :=
  fun compatible => feedback_not_kept ((vocabulary_kept_iff feedback_runs).mpr compatible)

end Lobu.Watchers
