import Lobu.Courses.Retrieval

namespace Lobu.Courses

open Lobu.Foundation

/-! # Where the evidence comes from

Every snippet that the memory search returns is drawn from a row that it was
given, and stays in line with its event and its reference.
-/

section Rows

variable {row : SearchRow} {merged rows : List SearchRow}

theorem mem_addUnseen {other : SearchRow} (present : other ∈ addUnseen merged row) :
    other ∈ merged ∨ other = row := by
  unfold addUnseen at present
  split at present
  · exact .inl present
  · simpa using present

theorem mem_foldl_addUnseen (present : row ∈ rows.foldl addUnseen merged) : row ∈ merged ∨ row ∈ rows := by
  induction rows generalizing merged with
  | nil => exact .inl present
  | cons first rest ih =>
    rcases ih present with earlier | later
    · rcases mem_addUnseen earlier with kept | new
      · exact .inl kept
      · exact .inr (new ▸ List.mem_cons_self)
    · exact .inr (List.mem_cons_of_mem _ later)

theorem distinctSources_subset {platform : Platform} {met : List String} :
    distinctSources platform met rows ⊆ rows := by
  induction rows generalizing met with
  | nil => exact List.Subset.refl _
  | cons first rest ih =>
    unfold distinctSources
    split
    · exact List.Subset.trans ih (List.subset_cons_self _ _)
    · exact List.cons_subset_cons _ ih

end Rows

theorem firstUnits_within (units : Nat) (text : List Char) : firstUnits units text <+: text := by
  induction text generalizing units with
  | nil => exact List.prefix_refl _
  | cons char rest ih =>
    unfold firstUnits
    simp only
    split
    · exact (List.prefix_cons_inj char).mpr (ih _)
    · exact List.nil_prefix

theorem slice_within (text : String) (units : Nat) : (slice text units).toList <+: text.toList := by
  simpa [slice] using firstUnits_within units text.toList

@[simp] theorem utf16Length_append (first second : String) :
    utf16Length (first ++ second) = utf16Length first + utf16Length second := by
  simp [utf16Length]

mutual

/-- The units of the written value, counted text by text. -/
def writtenUnits (numberText : Rat → String) : Json → Nat
  | .array items => 2 + itemsUnits numberText items
  | .object fields => 2 + fieldsUnits numberText fields
  | value => utf16Length (scalarText numberText value)

def itemsUnits (numberText : Rat → String) : List Json → Nat
  | [] => 0
  | item :: items =>
    writtenUnits numberText item + (if items.isEmpty then 0 else 1 + itemsUnits numberText items)

def fieldsUnits (numberText : Rat → String) : List (String × Json) → Nat
  | [] => 0
  | (key, value) :: fields =>
    utf16Length (quoted key) + (1 + writtenUnits numberText value) +
      (if fields.isEmpty then 0 else 1 + fieldsUnits numberText fields)

end

theorem utf16Length_intercalate_cons (first : String) (rest : List String) :
    utf16Length (",".intercalate (first :: rest)) = utf16Length first +
      (if rest.isEmpty then 0 else 1 + utf16Length (",".intercalate rest)) := by
  cases rest with
  | nil => simp
  | cons second others =>
    have comma : utf16Length "," = 1 := by decide
    simp only [String.intercalate_cons_cons, utf16Length_append, comma, List.isEmpty_cons,
      Bool.false_eq_true, if_false]
    omega

mutual

theorem utf16Length_stringify (numberText : Rat → String) :
    ∀ value, utf16Length (stringify numberText value) = writtenUnits numberText value
  | .null => rfl
  | .bool _ => rfl
  | .number _ => rfl
  | .string _ => rfl
  | .array items => by
    have opened : utf16Length "[" = 1 := by decide
    have closed : utf16Length "]" = 1 := by decide
    rw [stringify, bracketed, utf16Length_append, utf16Length_append, writtenUnits, utf16Length_items, opened, closed]
    omega
  | .object fields => by
    have opened : utf16Length "\x7b" = 1 := by decide
    have closed : utf16Length "\x7d" = 1 := by decide
    rw [stringify, braced, utf16Length_append, utf16Length_append, writtenUnits, utf16Length_fields, opened, closed]
    omega

theorem utf16Length_items (numberText : Rat → String) :
    ∀ items, utf16Length (",".intercalate (stringifyItems numberText items)) = itemsUnits numberText items
  | [] => by simp [stringifyItems, itemsUnits, utf16Length]
  | item :: items => by
    rw [stringifyItems, utf16Length_intercalate_cons, itemsUnits, utf16Length_items, utf16Length_stringify]
    cases items <;> rfl

theorem utf16Length_fields (numberText : Rat → String) :
    ∀ fields, utf16Length (",".intercalate ((stringifyFields numberText fields).map
      fun field => quoted field.1 ++ ":" ++ field.2)) = fieldsUnits numberText fields
  | [] => by simp [stringifyFields, fieldsUnits, utf16Length]
  | (key, value) :: fields => by
    have colon : utf16Length ":" = 1 := by decide
    rw [stringifyFields, List.map_cons, utf16Length_intercalate_cons, fieldsUnits,
      utf16Length_fields, utf16Length_append, utf16Length_append, utf16Length_stringify, colon]
    cases fields <;> simp [stringifyFields] <;> omega

end

theorem exceeds_iff {platform : Platform} {result : CourseMemoryRetrieval} :
    result.exceeds platform = true ↔ maxRetrievalJsonChars < writtenUnits platform.numberText result.toJson := by
  rw [CourseMemoryRetrieval.exceeds, decide_eq_true_eq, utf16Length_stringify]

theorem boundResult_snippets_of_fits {platform : Platform} {result : CourseMemoryRetrieval}
    (fits : writtenUnits platform.numberText result.toJson ≤ maxRetrievalJsonChars) :
    (boundResult platform result).snippets = result.snippets := by
  have small : result.exceeds platform = false := by
    rw [← Bool.not_eq_true, exceeds_iff]
    omega
  have unshortened : shortenBelow platform result.snippets.length result = result := by
    cases result.snippets.length <;> simp [shortenBelow, small]
  have unpopped : popExcess platform result.snippets.length result = result := by
    cases result.snippets.length <;> simp [popExcess, small]
  rw [boundResult, unshortened, unpopped]

section Drawn

variable {platform : Platform} {courseEntityId : String} {row : SearchRow} {rows : List SearchRow}
variable {item : Snippet} {result : CourseMemoryRetrieval}

/-- The snippet is the row's, but for shortening. -/
structure DrawnFrom (platform : Platform) (courseEntityId : String) (row : SearchRow)
    (item : Snippet) : Prop where
  eventId : item.eventId = row.id
  sourceRef : item.sourceRef = sourceRef platform row
  course : item.courseEntityId = courseEntityId
  text : item.text.toList <+: (clean row.payloadText 300).toList
  title : ∀ title ∈ item.title, ∃ full ∈ row.title, title.toList <+: (clean full 200).toList
  sourceUrl : ∀ sourceUrl ∈ item.sourceUrl, some sourceUrl = safeSourceUrl platform row.sourceUrl
  readiness : item.readinessFields = readinessFields row.metadata
  kind : item.trustedEvidenceKind = verifiedEvidenceKind platform row

theorem drawn_snippet : DrawnFrom platform courseEntityId row (snippet platform courseEntityId row) :=
  ⟨rfl, rfl, rfl, List.prefix_refl _, by
    intro title present
    obtain ⟨full, stored, rfl⟩ := Option.map_eq_some_iff.mp present
    exact ⟨full, stored, List.prefix_refl _⟩, fun _ present => present.symm, rfl, rfl⟩

theorem DrawnFrom.shorten (drawn : DrawnFrom platform courseEntityId row item) :
    DrawnFrom platform courseEntityId row item.shorten where
  eventId := drawn.eventId
  sourceRef := drawn.sourceRef
  course := drawn.course
  text := (slice_within _ _).trans drawn.text
  title := by
    intro title present
    obtain ⟨longer, stored, rfl⟩ := Option.map_eq_some_iff.mp present
    obtain ⟨full, kept, within⟩ := drawn.title longer stored
    exact ⟨full, kept, (slice_within _ _).trans within⟩
  sourceUrl := fun _ absent => by cases absent
  readiness := drawn.readiness
  kind := drawn.kind

/-- Events, references and snippets are in line, and every snippet is drawn from one of the
rows. -/
structure Drawn (platform : Platform) (courseEntityId : String) (rows : List SearchRow)
    (result : CourseMemoryRetrieval) : Prop where
  eventIds : result.eventIds = result.snippets.map Snippet.eventId
  evidenceRefs : result.evidenceRefs = result.snippets.map Snippet.sourceRef
  snippets : ∀ item ∈ result.snippets, ∃ row ∈ rows, DrawnFrom platform courseEntityId row item

theorem drawn_of_empty (noEvents : result.eventIds = []) (noRefs : result.evidenceRefs = [])
    (noSnippets : result.snippets = []) : Drawn platform courseEntityId rows result := by
  constructor <;> simp [noEvents, noRefs, noSnippets]

section

variable (drawn : Drawn platform courseEntityId rows result)
include drawn

theorem Drawn.mono {more : List SearchRow} (within : rows ⊆ more) : Drawn platform courseEntityId more result := by
  refine ⟨drawn.eventIds, drawn.evidenceRefs, fun item present => ?_⟩
  obtain ⟨row, stored, from_⟩ := drawn.snippets item present
  exact ⟨row, within stored, from_⟩

theorem Drawn.shortenAt (index : Nat) :
    Drawn platform courseEntityId rows { result with snippets := result.snippets.modify index Snippet.shorten } := by
  have unmoved : ∀ {β : Type} (read : Snippet → β), (∀ item, read item.shorten = read item) →
      (result.snippets.modify index Snippet.shorten).map read = result.snippets.map read := by
    intro β read same
    apply List.ext_getElem?
    intro place
    rw [List.getElem?_map, List.getElem?_map, List.getElem?_modify]
    cases result.snippets[place]? with
    | none => rfl
    | some item => by_cases here : index = place <;> simp [here, same]
  refine ⟨?_, ?_, fun item present => ?_⟩
  · exact drawn.eventIds.trans (unmoved Snippet.eventId fun _ => rfl).symm
  · exact drawn.evidenceRefs.trans (unmoved Snippet.sourceRef fun _ => rfl).symm
  · obtain ⟨place, found⟩ := List.mem_iff_getElem?.mp present
    rw [List.getElem?_modify] at found
    obtain ⟨before, stood, changed⟩ := Option.map_eq_some_iff.mp found
    obtain ⟨row, stored, from_⟩ := drawn.snippets before (List.mem_of_getElem? stood)
    refine ⟨row, stored, ?_⟩
    subst changed
    split
    · exact from_.shorten
    · exact from_

theorem Drawn.pop : Drawn platform courseEntityId rows result.pop := by
  refine ⟨?_, ?_, fun item present => drawn.snippets item (List.dropLast_subset _ present)⟩
  · simp [CourseMemoryRetrieval.pop, drawn.eventIds, List.map_dropLast]
  · simp [CourseMemoryRetrieval.pop, drawn.evidenceRefs, List.map_dropLast]

theorem Drawn.shortenBelow (index : Nat) :
    Drawn platform courseEntityId rows (shortenBelow platform index result) := by
  induction index generalizing result with
  | zero => exact drawn
  | succ index ih =>
    unfold Courses.shortenBelow
    split
    · exact ih (drawn.shortenAt index)
    · exact drawn

theorem Drawn.popExcess (rounds : Nat) : Drawn platform courseEntityId rows (popExcess platform rounds result) := by
  induction rounds generalizing result with
  | zero => exact drawn
  | succ rounds ih =>
    unfold Courses.popExcess
    split
    · exact ih drawn.pop
    · exact drawn

theorem Drawn.bounded : Drawn platform courseEntityId rows (boundResult platform result) := by
  obtain ⟨eventIds, evidenceRefs, snippets⟩ :=
    (drawn.shortenBelow result.snippets.length).popExcess result.snippets.length
  exact ⟨eventIds, evidenceRefs, snippets⟩

end

end Drawn

def CourseMemoryRetrievalInput.owns (input : CourseMemoryRetrievalInput) (row : SearchRow) : Bool :=
  row.belongs input.organizationId input.ownerUserId input.agentId input.courseEntityId

/-- The result before it is bounded. -/
def loadedResult (platform : Platform) (input : CourseMemoryRetrievalInput)
    (rows : List SearchRow) (durationMs : Int) : CourseMemoryRetrieval :=
  let safe := (distinctSources platform [] rows).take input.hits
  { status := .loaded
    guardPassed := true
    candidateCount := rows.length
    safeCount := safe.length
    droppedCount := rows.length - safe.length
    durationMs := durationMs
    eventIds := safe.map SearchRow.id
    evidenceRefs := safe.map (sourceRef platform)
    snippets := safe.map (snippet platform input.courseEntityId) }

section Judged

variable {platform : Platform} (input : CourseMemoryRetrievalInput) (rows : List SearchRow)
variable (durationMs : Int)

theorem judgeRows_drawn :
    Drawn platform input.courseEntityId (rows.filter input.owns) (judgeRows platform input rows durationMs) := by
  unfold judgeRows
  extract_lets safeCandidates safe
  split
  · exact drawn_of_empty rfl rfl rfl
  · split
    · exact drawn_of_empty rfl rfl rfl
    · apply Drawn.bounded
      refine ⟨?_, ?_, fun item present => ?_⟩
      · simp [snippet]
      · simp [snippet]
      · obtain ⟨row, judged, rfl⟩ := List.mem_map.mp present
        exact ⟨row, distinctSources_subset (List.mem_of_mem_take judged), drawn_snippet⟩

theorem judgeRows_of_owned (owned : ∀ row ∈ rows, input.owns row = true)
    (found : (loadedResult platform input rows durationMs).snippets ≠ []) :
    judgeRows platform input rows durationMs =
      boundResult platform (loadedResult platform input rows durationMs) := by
  have all : (rows.filter fun row => row.belongs input.organizationId input.ownerUserId
      input.agentId input.courseEntityId) = rows := List.filter_eq_self.mpr owned
  have some_ : (distinctSources platform [] rows).take input.hits ≠ [] := by
    simpa [loadedResult] using found
  unfold judgeRows
  simp only [all, ne_eq, not_true_eq_false, if_false, if_neg some_]
  rfl

end Judged

end Lobu.Courses
