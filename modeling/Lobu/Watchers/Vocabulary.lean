import Lobu.Watchers.ExtractedItems

namespace Lobu.Watchers

open Lobu.Foundation

/-! # Vocabularies of classifiers

The values that a classifier knows, each under its name.  A candidate is merged into the value
that its embedding is closest to, or else into the one of its own name.
-/

structure AttributeValue where
  description : String
  examples : List String
  embedding : Option Embedding
  parent : Option (OrderedMap String String)

/-- The values in the order of `Object.entries`. -/
abbrev Vocabulary := OrderedMap String AttributeValue

/-- The value of a parent classifier that a value belongs to. -/
def AttributeValue.parentUnder (value : AttributeValue) (slug : String) : Option String :=
  value.parent.bind fun parent => parent.get? slug

/-- `target.parent[slug] = value`; under `__proto__` an assignment does nothing to a text. -/
def AttributeValue.withParent (target : AttributeValue) (reference : ParentReference) : AttributeValue :=
  let parent := target.parent.getD OrderedMap.empty
  { target with
    parent := some (
      if reference.slug = "__proto__" && !parent.has reference.slug then parent
      else parent.set reference.slug reference.value) }

def hasValidEmbedding : Option Embedding → Bool
  | some (_ :: _) => true
  | _ => false

def ensureEmbedding (config : AttributeValue) (workerEmbedding : Option Embedding) : AttributeValue :=
  if hasValidEmbedding workerEmbedding then { config with embedding := workerEmbedding }
  else if hasValidEmbedding config.embedding then config
  else { config with embedding := none }

/-- Whether a property read gives something; what every object inherits is read too. -/
def isThere (values : Vocabulary) (name : String) : Bool :=
  values.has name || inheritedNames.contains name

inductive NormalizationResult where
  | autoMerged (value : String)
  | new (value : String)

structure MergeCandidate where
  value : String
  embedding : Option Embedding
  build : AttributeValue
  /-- What an automatic merge writes into its target. -/
  onAutoMerge : Option ParentReference

structure MergedValues where
  updatedValues : Vocabulary
  hasChanges : Bool

section Merge

variable (similarity : Embedding → Embedding → Rat)

def bestMatch (embedding : Embedding) (existingValues : Vocabulary) : Option String × Rat :=
  existingValues.entries.foldl (fun best entry =>
    if hasValidEmbedding entry.2.embedding then
      let closeness := similarity embedding (entry.2.embedding.getD [])
      if best.2 < closeness then (some entry.1, closeness) else best
    else best) (none, 0)

def normalizeValue (newValue : String) (existingValues : Vocabulary)
    (newEmbedding : Option Embedding) : NormalizationResult :=
  if hasValidEmbedding newEmbedding then
    let best := bestMatch similarity (newEmbedding.getD []) existingValues
    match given best.1 with
    | some name => if 19 / 20 < best.2 then .autoMerged name else .new newValue
    | none => .new newValue
  else if isThere existingValues newValue then .autoMerged newValue
  else .new newValue

def mergeCandidate (existingValues : Vocabulary) (merged : MergedValues)
    (candidate : MergeCandidate) : MergedValues :=
  match normalizeValue similarity candidate.value existingValues candidate.embedding with
  | .autoMerged name =>
    match candidate.onAutoMerge with
    | none => merged
    | some reference =>
      { updatedValues := merged.updatedValues.mapValues fun key target =>
          if key = name then target.withParent reference else target
        hasChanges := true }
  | .new name =>
    if isThere merged.updatedValues name then merged
    else
      { updatedValues := merged.updatedValues.set name
          (ensureEmbedding candidate.build candidate.embedding)
        hasChanges := true }

def mergeValues (existingValues : Vocabulary) (candidates : List MergeCandidate) : MergedValues :=
  candidates.foldl (mergeCandidate similarity existingValues) ⟨existingValues, false⟩

end Merge

variable {similarity : Embedding → Embedding → Rat} {existingValues : Vocabulary}
variable {merged : MergedValues} {candidate : MergeCandidate} {candidates : List MergeCandidate}
variable {name value : String} {before after : AttributeValue}

/-- The candidate is one of a new value. -/
def MergeCandidate.IsNew (similarity : Embedding → Embedding → Rat) (existingValues : Vocabulary)
    (candidate : MergeCandidate) : Prop :=
  normalizeValue similarity candidate.value existingValues candidate.embedding =
    .new candidate.value

/-- The same value, but for references that candidates merged into it have written. -/
structure AttributeValue.Follows (references : ParentReference → Prop)
    (before after : AttributeValue) : Prop where
  description : after.description = before.description
  examples : after.examples = before.examples
  embedding : after.embedding = before.embedding
  parent : ∀ slug, after.parentUnder slug = before.parentUnder slug ∨
    ∃ value, references ⟨slug, value⟩ ∧ after.parentUnder slug = some value

/-- The references that the candidates merged into a value bring. -/
def MergedInto (similarity : Embedding → Embedding → Rat) (existingValues : Vocabulary)
    (candidates : List MergeCandidate) (name : String) (reference : ParentReference) : Prop :=
  ∃ candidate ∈ candidates,
    normalizeValue similarity candidate.value existingValues candidate.embedding =
      .autoMerged name ∧ candidate.onAutoMerge = some reference

theorem AttributeValue.Follows.refl (references : ParentReference → Prop)
    (value : AttributeValue) : value.Follows references value :=
  ⟨rfl, rfl, rfl, fun _ => .inl rfl⟩

theorem AttributeValue.Follows.trans {references : ParentReference → Prop}
    {first second third : AttributeValue} (begin_ : first.Follows references second)
    (rest : second.Follows references third) : first.Follows references third where
  description := rest.description.trans begin_.description
  examples := rest.examples.trans begin_.examples
  embedding := rest.embedding.trans begin_.embedding
  parent := by
    intro slug
    rcases rest.parent slug with same | written
    · rw [same]
      exact begin_.parent slug
    · exact .inr written

theorem AttributeValue.Follows.mono {references more : ParentReference → Prop}
    {first second : AttributeValue} (follows : first.Follows references second)
    (further : ∀ reference, references reference → more reference) : first.Follows more second where
  description := follows.description
  examples := follows.examples
  embedding := follows.embedding
  parent := by
    intro slug
    rcases follows.parent slug with same | ⟨value, brought, written⟩
    · exact .inl same
    · exact .inr ⟨value, further _ brought, written⟩

theorem AttributeValue.follows_withParent {references : ParentReference → Prop}
    (value : AttributeValue) {reference : ParentReference} (brought : references reference) :
    value.Follows references (value.withParent reference) where
  description := rfl
  examples := rfl
  embedding := rfl
  parent := by
    intro slug
    have unset : (value.parent.getD OrderedMap.empty).get? slug = value.parentUnder slug := by
      cases parent : value.parent <;> simp [parentUnder, parent]
    unfold parentUnder withParent
    simp only [Option.bind_some]
    split
    · exact .inl unset
    · by_cases same : slug = reference.slug
      · subst same
        exact .inr ⟨reference.value, brought, OrderedMap.get?_set_same _ _ _⟩
      · rw [OrderedMap.get?_set_other same]
        exact .inl unset

theorem normalizeValue_new {embedding : Option Embedding}
    (isNew : normalizeValue similarity value existingValues embedding = .new name) : name = value := by
  unfold normalizeValue at isNew
  split at isNew
  · simp only at isNew
    split at isNew
    · split at isNew
      · simp at isNew
      · exact (NormalizationResult.new.inj isNew).symm
    · exact (NormalizationResult.new.inj isNew).symm
  · split at isNew
    · simp at isNew
    · exact (NormalizationResult.new.inj isNew).symm

theorem bestMatch_mem {embedding : Embedding}
    (found : (bestMatch similarity embedding existingValues).1 = some name) : existingValues.has name = true := by
  have among : ∀ (entries : List (String × AttributeValue)) (best : Option String × Rat),
      (entries.foldl (fun best entry =>
        if hasValidEmbedding entry.2.embedding then
          let closeness := similarity embedding (entry.2.embedding.getD [])
          if best.2 < closeness then (some entry.1, closeness) else best
        else best) best).1 = some name →
      best.1 = some name ∨ name ∈ entries.map Prod.fst := by
    intro entries
    induction entries with
    | nil => exact fun best found => .inl found
    | cons entry entries ih =>
      intro best found
      rw [List.foldl_cons] at found
      rcases ih _ found with chosen | later
      · split at chosen
        · simp only at chosen
          split at chosen
          · exact .inr (List.mem_map.mpr ⟨entry, List.mem_cons_self, Option.some.inj chosen⟩)
          · exact .inl chosen
        · exact .inl chosen
      · exact .inr (List.mem_cons_of_mem _ later)
  rcases among existingValues.entries (none, 0) found with nothing | listed
  · simp at nothing
  · exact OrderedMap.has_iff_mem.mpr listed

theorem normalizeValue_autoMerged {embedding : Option Embedding}
    (found : normalizeValue similarity value existingValues embedding = .autoMerged name) :
    existingValues.has name = true ∨ name = value ∧ value ∈ inheritedNames := by
  unfold normalizeValue at found
  split at found
  · simp only at found
    split at found
    · rename_i target best
      split at found
      · have same := NormalizationResult.autoMerged.inj found
        subst same
        exact .inl (bestMatch_mem (Option.filter_eq_some_iff.mp best).1)
      · simp at found
    · simp at found
  · split at found
    · rename_i there
      have same := NormalizationResult.autoMerged.inj found
      subst same
      simp only [isThere, Bool.or_eq_true, List.contains_iff_mem] at there
      exact there.imp id fun inherited => ⟨rfl, inherited⟩
    · simp at found

theorem mergeCandidate_has :
    (mergeCandidate similarity existingValues merged candidate).updatedValues.has name = true ↔
      merged.updatedValues.has name = true ∨ candidate.value = name ∧
        candidate.IsNew similarity existingValues ∧ name ∉ inheritedNames := by
  unfold mergeCandidate MergeCandidate.IsNew
  split
  · rename_i target found
    rw [found]
    cases candidate.onAutoMerge with
    | none => simp
    | some reference => simp
  · rename_i other found
    have same := normalizeValue_new found
    subst same
    rw [found]
    split
    · rename_i there
      simp only [isThere, Bool.or_eq_true, List.contains_iff_mem] at there
      constructor
      · exact .inl
      · intro hasOrNew
        rcases hasOrNew with has | ⟨same, _, ordinary⟩
        · exact has
        · rw [same] at there
          exact there.resolve_right ordinary
    · rename_i missing
      simp only [isThere, Bool.or_eq_true, List.contains_iff_mem, not_or] at missing
      simp only [OrderedMap.has_set, Bool.or_eq_true, decide_eq_true_eq, true_and]
      constructor
      · intro isOrHas
        rcases isOrHas with is | has
        · exact .inr ⟨is.symm, is ▸ missing.2⟩
        · exact .inl has
      · intro hasOrIs
        rcases hasOrIs with has | is
        · exact .inr has
        · exact .inl is.1.symm

theorem foldl_mergeCandidate_has :
    (candidates.foldl (mergeCandidate similarity existingValues) merged).updatedValues.has name = true ↔
      merged.updatedValues.has name = true ∨ ∃ candidate ∈ candidates, candidate.value = name ∧
        candidate.IsNew similarity existingValues ∧ name ∉ inheritedNames := by
  induction candidates generalizing merged with
  | nil => simp
  | cons first candidates ih =>
    rw [List.foldl_cons, ih, mergeCandidate_has]
    simp only [List.mem_cons, exists_eq_or_imp, or_assoc]

theorem mergeValues_has :
    (mergeValues similarity existingValues candidates).updatedValues.has name = true ↔
      existingValues.has name = true ∨ ∃ candidate ∈ candidates, candidate.value = name ∧
        candidate.IsNew similarity existingValues ∧ name ∉ inheritedNames :=
  foldl_mergeCandidate_has

theorem mergeCandidate_unchanged
    (still : (mergeCandidate similarity existingValues merged candidate).hasChanges = false) :
    mergeCandidate similarity existingValues merged candidate = merged := by
  unfold mergeCandidate at still ⊢
  split
  · rename_i found
    rw [found] at still
    cases reference : candidate.onAutoMerge with
    | none => rfl
    | some reference' => simp [reference] at still
  · rename_i found
    rw [found] at still
    split
    · rfl
    · rename_i missing
      simp [missing] at still

theorem foldl_mergeCandidate_unchanged
    (still : (candidates.foldl (mergeCandidate similarity existingValues) merged).hasChanges = false) :
    candidates.foldl (mergeCandidate similarity existingValues) merged = merged := by
  induction candidates using List.reverseRecOn with
  | nil => rfl
  | append_singleton candidates last ih =>
    rw [List.foldl_append, List.foldl_cons, List.foldl_nil] at still ⊢
    have same := mergeCandidate_unchanged still
    rw [same] at still ⊢
    exact ih still

theorem mergeValues_unchanged (still : (mergeValues similarity existingValues candidates).hasChanges = false) :
    (mergeValues similarity existingValues candidates).updatedValues = existingValues := by
  rw [mergeValues, foldl_mergeCandidate_unchanged still]

theorem mergeCandidate_changes
    (changed : (mergeCandidate similarity existingValues merged candidate).hasChanges = true) :
    merged.hasChanges = true ∨ candidate.IsNew similarity existingValues ∨ candidate.onAutoMerge.isSome = true := by
  unfold mergeCandidate at changed
  split at changed
  · cases brought : candidate.onAutoMerge with
    | none =>
      rw [brought] at changed
      exact .inl changed
    | some reference => exact .inr (.inr rfl)
  · rename_i other found
    have same := normalizeValue_new found
    subst same
    exact .inr (.inl found)

theorem foldl_mergeCandidate_changes
    (changed : (candidates.foldl (mergeCandidate similarity existingValues) merged).hasChanges = true) :
    merged.hasChanges = true ∨ ∃ candidate ∈ candidates,
      candidate.IsNew similarity existingValues ∨ candidate.onAutoMerge.isSome = true := by
  induction candidates generalizing merged with
  | nil => exact .inl changed
  | cons first candidates ih =>
    rcases ih changed with before | ⟨candidate, member, changes⟩
    · rcases mergeCandidate_changes before with earlier | changes
      · exact .inl earlier
      · exact .inr ⟨first, List.mem_cons_self, changes⟩
    · exact .inr ⟨candidate, List.mem_cons_of_mem _ member, changes⟩

theorem mergeValues_changes (changed : (mergeValues similarity existingValues candidates).hasChanges = true) :
    ∃ candidate ∈ candidates, candidate.IsNew similarity existingValues ∨ candidate.onAutoMerge.isSome = true := by
  rcases foldl_mergeCandidate_changes changed with nothing | changes
  · simp at nothing
  · exact changes

theorem mergeCandidate_keeps {references : String → ParentReference → Prop} (brings : ∀ target reference,
      normalizeValue similarity candidate.value existingValues candidate.embedding =
        .autoMerged target → candidate.onAutoMerge = some reference → references target reference)
    (present : merged.updatedValues.get? name = some before) :
    ∃ after, (mergeCandidate similarity existingValues merged candidate).updatedValues.get? name =
      some after ∧ before.Follows (references name) after := by
  unfold mergeCandidate
  split
  · rename_i target found
    cases brought : candidate.onAutoMerge with
    | none => exact ⟨before, present, .refl _ before⟩
    | some reference =>
      simp only [OrderedMap.get?_mapValues, present, Option.map_some, Option.some.injEq, exists_eq_left']
      split
      · rename_i same
        subst same
        exact before.follows_withParent (brings _ _ found brought)
      · exact .refl _ before
  · rename_i other found
    split
    · exact ⟨before, present, .refl _ before⟩
    · rename_i missing
      have apart : name ≠ other := by
        intro same
        simp [isThere, OrderedMap.has, ← same, present] at missing
      refine ⟨before, ?_, .refl _ before⟩
      rw [← present]
      exact OrderedMap.get?_set_other apart

theorem foldl_mergeCandidate_keeps {references : String → ParentReference → Prop}
    (brings : ∀ candidate ∈ candidates, ∀ target reference,
      normalizeValue similarity candidate.value existingValues candidate.embedding =
        .autoMerged target → candidate.onAutoMerge = some reference → references target reference)
    (present : merged.updatedValues.get? name = some before) :
    ∃ after, (candidates.foldl (mergeCandidate similarity existingValues)
      merged).updatedValues.get? name = some after ∧ before.Follows (references name) after := by
  induction candidates generalizing merged before with
  | nil => exact ⟨before, present, .refl _ before⟩
  | cons first candidates ih =>
    obtain ⟨middle, kept, follows⟩ :=
      mergeCandidate_keeps (brings first List.mem_cons_self) present
    obtain ⟨after, stays, rest⟩ :=
      ih (fun candidate member => brings candidate (List.mem_cons_of_mem _ member)) kept
    exact ⟨after, stays, follows.trans rest⟩

theorem mergeValues_keeps (present : existingValues.get? name = some before) :
    ∃ after, (mergeValues similarity existingValues candidates).updatedValues.get? name =
      some after ∧ before.Follows (MergedInto similarity existingValues candidates name) after :=
  foldl_mergeCandidate_keeps
    (fun candidate member _ _ found brought => ⟨candidate, member, found, brought⟩) present

end Lobu.Watchers
