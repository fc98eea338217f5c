import Lobu.Courses.Context

namespace Lobu.Courses

open Lobu.Foundation

/-! # Course memory

The memory search behind the gate: it asks a few queries, merges their rows,
refuses the lot when one of them belongs elsewhere, and bounds what is left.
-/

/-- What the code takes from its platform. -/
structure Platform where
  /-- The hexadecimal digest. -/
  sha256 : String → String
  /-- A web address without its credentials, query and fragment; none where it is no such. -/
  webAddress : String → Option String
  letters : LowerCase
  numberText : Rat → String

def plainPlatform : Platform where
  sha256 text := text
  webAddress _ := none
  letters := asciiLowerCase
  numberText value := toString value.num

def maxHits : Nat := 8
def maxSearchRows : Nat := 64
def maxRetrievalJsonChars : Nat := 8000

structure SearchRow where
  id : Int
  payloadText : String
  title : Option String
  sourceUrl : Option String
  organizationId : String
  metadata : Json
  connectionId : Option Int
  connectorKey : Option String
  originId : Option String
  originType : Option String
  semanticType : Option String
deriving DecidableEq

/-- The value without its duplicates, in the order of a `Set`. -/
def distinct (values : List String) : List String := values.eraseDups

def endMarks : List Char := ['，', '。', '！', '？', '!', '?']

def buildCourseMemoryQueries (task : String) (skillTerms : List String) : List String :=
  let bounded := slice (String.ofList ((trim task.toList).rdropWhile endMarks.contains)) 560
  let terms := (distinct ((skillTerms.map trimmed).filter (· ≠ ""))).take 2
  ((distinct (bounded :: terms)).filter fun value => 2 ≤ utf16Length value).take 3

def nullableText : Option Json → Option (Option String)
  | some .null => some none
  | some (.string text) => some (some text)
  | _ => none

def optionalText : Option Json → Option (Option String)
  | none => some none
  | some value => nullableText (some value)

def optionalInteger : Option Json → Option (Option Int)
  | none => some none
  | some .null => some none
  | some (.number value) => (isSafeInteger value).map some
  | _ => none

def parseRow (item : Json) : Option SearchRow := do
  guard (item matches .object _ | .array _)
  let id ← (item.get? "id").bind Json.number? |>.bind isSafeInteger
  guard (0 < id)
  let payloadText ← (item.get? "payload_text").bind Json.string?
  guard (utf16Length payloadText ≤ 200000)
  let organizationId ← (item.get? "organization_id").bind Json.string?
  let metadata ← (item.get? "metadata").bind obj
  let title ← nullableText (item.get? "title")
  let sourceUrl ← nullableText (item.get? "source_url")
  let connectionId ← optionalInteger (item.get? "connection_id")
  let connectorKey ← optionalText (item.get? "connector_key")
  let originId ← optionalText (item.get? "origin_id")
  let originType ← optionalText (item.get? "origin_type")
  let semanticType ← optionalText (item.get? "semantic_type")
  return { id, payloadText, title, sourceUrl, organizationId, metadata, connectionId,
           connectorKey, originId, originType, semanticType }

def receivedCount (value : Json) : Nat := (list value).elim 0 List.length

def parseRows (value : Json) : Option (List SearchRow) := do
  let items ← list value
  guard (items.length ≤ maxSearchRows)
  items.mapM parseRow

def exactCourseId (metadata : Json) : Option String :=
  match metadata.get? "course_entity_ids" with
  | some (.array [.string only]) => some only
  | _ => none

/-- The row is of this organization, owner and agent, and of exactly this course. -/
def SearchRow.belongs (row : SearchRow) (organizationId ownerUserId agentId courseEntityId : String) : Bool :=
  decide (row.organizationId = organizationId ∧
    row.metadata.get? "owner_user_id" = some (.string ownerUserId) ∧
    row.metadata.get? "agent_id" = some (.string agentId) ∧
    exactCourseId row.metadata = some courseEntityId)

def addUnseen (merged : List SearchRow) (row : SearchRow) : List SearchRow :=
  if row.id ∈ merged.map SearchRow.id then merged else merged ++ [row]

def isControl (char : Char) : Bool :=
  decide (char.toNat ≤ 0x1f ∨ char.toNat = 0x7f ∨ char.toNat = 0x2028 ∨ char.toNat = 0x2029)

def clean (value : String) (max : Nat) : String :=
  slice (String.ofList (value.toList.map fun char => if isControl char then ' ' else char)) max

def readinessFieldNames : List (CourseReadinessField × String) :=
  [(.audience, "audience"), (.keyLearning, "key_learning"), (.coursePromise, "course_promise"),
    (.existingSalesTalk, "existing_sales_talk")]

def readinessFields (metadata : Json) : List (CourseReadinessField × String) :=
  match (metadata.get? "course_readiness").bind obj with
  | none => []
  | some value => readinessFieldNames.filterMap fun entry =>
    match value.get? entry.2 with
    | some (.string item) => if trimmed item ≠ "" then some (entry.1, clean item 500) else none
    | _ => none

def transcriptTypes : List String := ["transcript", "meeting_transcript"]
def meetingTypes : List String := ["meeting", "meeting_notes"]

section Platform

variable (platform : Platform)

def sourceRef (row : SearchRow) : String :=
  match row.metadata.get? "source_ref" with
  | some (.string value) =>
    if trimmed value = "" then "lobu:event:" ++ toString row.id
    else "lobu:source:" ++ String.ofList ((platform.sha256 value).toList.take 24)
  | _ => "lobu:event:" ++ toString row.id

def safeSourceUrl (value : Option String) : Option String :=
  match value with
  | none => none
  | some "" => none
  | some value => (platform.webAddress value).map fun address => clean address 256

def lowered (text : Option String) : Option String :=
  text.map fun value => String.ofList (platform.letters.lower (trim value.toList))

def verifiedEvidenceKind (row : SearchRow) : Option EvidenceKind :=
  if row.connectionId.any (0 < ·) && row.connectorKey.any (trimmed · ≠ "") then
    let types := [lowered platform row.semanticType, lowered platform row.originType].reduceOption
    if row.originId.any (fun text => "#transcript".toList.isSuffixOf text.toList) then
      some .transcript
    else if types.any transcriptTypes.contains then some .transcript
    else if types.any meetingTypes.contains then some .meeting
    else none
  else none

def snippet (courseEntityId : String) (row : SearchRow) : Snippet where
  eventId := row.id
  title := row.title.map (clean · 200)
  text := clean row.payloadText 300
  sourceUrl := safeSourceUrl platform row.sourceUrl
  sourceRef := sourceRef platform row
  courseEntityId := courseEntityId
  readinessFields := readinessFields row.metadata
  trustedEvidenceKind := verifiedEvidenceKind platform row

def nullableJson (text : Option String) : Json := text.elim .null .string

def Snippet.toJson (snippet : Snippet) : Json :=
  let kind : List (String × Json) := match snippet.trustedEvidenceKind with
    | some .meeting => [("trustedEvidenceKind", .string "meeting")]
    | some .transcript => [("trustedEvidenceKind", .string "transcript")]
    | none => []
  let readiness := snippet.readinessFields.map fun entry =>
    ((readinessFieldNames.lookup entry.1).getD "", Json.string entry.2)
  .object ([("eventId", .number (.finite snippet.eventId)), ("title", nullableJson snippet.title),
    ("text", .string snippet.text), ("sourceUrl", nullableJson snippet.sourceUrl),
    ("sourceRef", .string snippet.sourceRef), ("provenanceKind", .string "fresh_course_retrieval"),
    ("courseEntityId", .string snippet.courseEntityId), ("readinessFields", .object readiness)] ++
    kind)

def RetrievalStatus.text : RetrievalStatus → String
  | .loaded => "loaded"
  | .empty => "empty"
  | .degraded => "degraded"
  | .invariantViolation => "invariant_violation"

def count (value : Int) : Json := .number (.finite value)

def CourseMemoryRetrieval.toJson (result : CourseMemoryRetrieval) : Json :=
  .object [("status", .string result.status.text),
    ("crossCourseGuard", .string (if result.guardPassed then "passed" else "failed")),
    ("candidateCount", count result.candidateCount), ("safeCount", count result.safeCount),
    ("droppedCount", count result.droppedCount), ("durationMs", count result.durationMs),
    ("eventIds", .array (result.eventIds.map count)),
    ("evidenceRefs", .array (result.evidenceRefs.map .string)),
    ("snippets", .array (result.snippets.map Snippet.toJson))]

def CourseMemoryRetrieval.exceeds (result : CourseMemoryRetrieval) : Bool :=
  maxRetrievalJsonChars < utf16Length (stringify platform.numberText result.toJson)

def Snippet.shorten (snippet : Snippet) : Snippet :=
  { snippet with
    text := slice snippet.text 100
    title := snippet.title.map (slice · 80)
    sourceUrl := none }

/-- The snippets are shortened from the last to the first, while the result is too large. -/
def shortenBelow : Nat → CourseMemoryRetrieval → CourseMemoryRetrieval
  | 0, result => result
  | index + 1, result =>
    if result.exceeds platform then
      shortenBelow index
        { result with snippets := result.snippets.modify index Snippet.shorten }
    else result

def CourseMemoryRetrieval.pop (result : CourseMemoryRetrieval) : CourseMemoryRetrieval :=
  { result with
    snippets := result.snippets.dropLast
    eventIds := result.eventIds.dropLast
    evidenceRefs := result.evidenceRefs.dropLast }

/-- Each round drops a snippet, so there are at most as many rounds as snippets. -/
def popExcess : Nat → CourseMemoryRetrieval → CourseMemoryRetrieval
  | 0, result => result
  | rounds + 1, result =>
    if result.exceeds platform && !result.snippets.isEmpty then
      popExcess rounds result.pop
    else result

def boundResult (result : CourseMemoryRetrieval) : CourseMemoryRetrieval :=
  let bounded := popExcess platform result.snippets.length
    (shortenBelow platform result.snippets.length result)
  { bounded with
    safeCount := bounded.snippets.length,
    droppedCount := bounded.candidateCount - bounded.snippets.length }

end Platform

structure CourseMemoryRetrievalInput where
  organizationId : String
  ownerUserId : String
  agentId : String
  courseEntityId : String
  task : Option String
  skillTerms : List String
  limit : Option JsNumber

def CourseMemoryRetrievalInput.hits (input : CourseMemoryRetrievalInput) : Nat :=
  match input.limit.bind isSafeInteger with
  | some limit => min maxHits (max 1 limit).toNat
  | none => maxHits

def CourseMemoryRetrievalInput.search (input : CourseMemoryRetrievalInput) (query : String) : SearchInput where
  organizationId := input.organizationId
  ownerUserId := input.ownerUserId
  agentId := input.agentId
  entityIds := [input.courseEntityId]
  query := query
  limit := input.hits

/-- The rows of the queries, or how many rows were there when one of the answers was malformed.
A search that fails, or that the deadline cuts short, counts none. -/
def searchRows (input : CourseMemoryRetrievalInput) :
    List String → List SearchRow → CourseProcess (Except Nat (List SearchRow))
  | [], merged => pure (.ok merged)
  | query :: queries, merged => do
      match ← CourseProcess.of (.search (input.search query)) with
      | none => pure (.error 0)
      | some value =>
        match parseRows value with
        | none => pure (.error (merged.length + receivedCount value))
        | some rows =>
          let all := rows.foldl addUnseen merged
          if input.hits ≤ all.length then pure (.ok all) else searchRows input queries all

def emptyRetrieval (status : RetrievalStatus) (guardPassed : Bool) (candidateCount safeCount : Nat)
    (durationMs : Int) : CourseMemoryRetrieval where
  status := status
  guardPassed := guardPassed
  candidateCount := candidateCount
  safeCount := safeCount
  droppedCount := candidateCount - safeCount
  durationMs := durationMs
  eventIds := []
  evidenceRefs := []
  snippets := []

/-- The rows whose source has not been met before. -/
def distinctSources (platform : Platform) : List String → List SearchRow → List SearchRow
  | _, [] => []
  | met, row :: rows =>
    if sourceRef platform row ∈ met then distinctSources platform met rows
    else row :: distinctSources platform (sourceRef platform row :: met) rows

def judgeRows (platform : Platform) (input : CourseMemoryRetrievalInput) (rows : List SearchRow)
    (durationMs : Int) : CourseMemoryRetrieval :=
  let safeCandidates := rows.filter fun row =>
    row.belongs input.organizationId input.ownerUserId input.agentId input.courseEntityId
  if safeCandidates.length ≠ rows.length then
    emptyRetrieval .invariantViolation false rows.length safeCandidates.length durationMs
  else
    let safe := (distinctSources platform [] safeCandidates).take input.hits
    if safe = [] then emptyRetrieval .empty true 0 0 durationMs
    else boundResult platform
      { status := .loaded
        guardPassed := true
        candidateCount := rows.length
        safeCount := safe.length
        droppedCount := rows.length - safe.length
        durationMs := durationMs
        eventIds := safe.map SearchRow.id
        evidenceRefs := safe.map (sourceRef platform)
        snippets := safe.map (snippet platform input.courseEntityId) }

def retrieveCourseMemory (platform : Platform) (input : CourseMemoryRetrievalInput) :
    CourseProcess CourseMemoryRetrieval := do
  let started ← CourseProcess.of .now
  match input.task with
  -- `task.trim` throws where the message has no text
  | none => do
      let now ← CourseProcess.of .now
      pure (emptyRetrieval .degraded true 0 0 (now - started))
  | some task => do
      let rows ← searchRows input (buildCourseMemoryQueries task input.skillTerms) []
      let now ← CourseProcess.of .now
      match rows with
      | .ok rows => pure (judgeRows platform input rows (now - started))
      | .error candidateCount =>
        pure (emptyRetrieval .degraded true candidateCount 0 (now - started))

end Lobu.Courses
