import Lobu.Foundation.Json
import Lobu.Foundation.Text

namespace Lobu.Courses

open Lobu.Foundation

/-! # What Toolbox answers

How the client reads a resolution and a course bundle; `none` is the response
error that it throws.
-/

/-- `text.length`, in UTF-16 units. -/
def utf16Length (text : String) : Nat :=
  (text.toList.flatMap utf16).length

/-- `text.trim()`. -/
def trimmed (text : String) : String :=
  String.ofList (trim text.toList)

/-- The characters that lie within the first units of a text, as `text.slice(0, units)` where
that does not cut a surrogate pair. -/
def firstUnits : Nat → List Char → List Char
  | _, [] => []
  | units, char :: rest =>
    let width := (utf16 char).length
    if width ≤ units then char :: firstUnits (units - width) rest else []

def slice (text : String) (units : Nat) : String :=
  String.ofList (firstUnits units text.toList)

def isSafeInteger : JsNumber → Option Int
  | .finite value =>
    if value.den = 1 ∧ value.num.natAbs ≤ 9007199254740991 then some value.num else none
  | .infinite _ => none

def obj (value : Json) : Option Json :=
  match value with
  | .object _ => some value
  | _ => none

def field (value : Json) (key : String) : Json :=
  (value.get? key).getD .null

def str (value : Json) (max : Nat) : Option String :=
  match value with
  | .string text => if trimmed text ≠ "" ∧ utf16Length text ≤ max then some text else none
  | _ => none

def nullable (value : Option Json) (max : Nat) : Option (Option String) :=
  match value with
  | some .null => some none
  | some other => (str other max).map some
  | none => none

def list (value : Json) : Option (List Json) :=
  match value with
  | .array items => some items
  | _ => none

structure Course where
  courseKey : String
  courseEntityId : String
  displayName : String
deriving DecidableEq

def course (value : Json) : Option Course := do
  let fields ← obj value
  let courseKey ← str (field fields "courseKey") 200
  let courseEntityId ← str (field fields "courseEntityId") 200
  let displayName ← str (field fields "displayName") 500
  return { courseKey, courseEntityId, displayName }

def aliasesOf (fields : Json) : Option (List String) := do
  let aliases ← list (field fields "aliases")
  guard (aliases.length ≤ 50 ∧ field fields "status" = .string "active")
  aliases.mapM (str · 200)

def canonicalCourse (value : Json) : Option Course := do
  let fields ← obj value
  let _ ← aliasesOf fields
  course value

def candidateReasons : List String := ["message_name", "message_alias"]

def candidate (value : Json) : Option Course := do
  let fields ← obj value
  let _ ← aliasesOf fields
  let reasons ← list (field fields "reasons")
  guard (reasons.length ≤ 2)
  let found ← course value
  let read ← reasons.mapM (str · 200)
  guard (read.all candidateReasons.contains)
  return found

def resolutionMatches : List String :=
  ["explicit_course_key", "message_name", "message_alias", "conversation_binding",
    "single_course_default"]

def ambiguousReasons : List String :=
  ["alias_overlap", "name_overlap", "message_course_overlap", "multiple_active_courses",
    "explicit_course_key_not_found"]

inductive Resolution where
  | resolved (matchedBy : String) (course : Course)
  | ambiguous (reason : String) (candidates : List Course)
  | missing (noCourses : Bool)

def parseResolution (value : Json) : Option Resolution := do
  let fields ← obj value
  match field fields "status" with
  | .string "ambiguous" => do
      let reason ← (field fields "reason").string?
      guard (ambiguousReasons.contains reason)
      let candidates ← list (field fields "candidates")
      guard (1 ≤ candidates.length ∧ candidates.length ≤ 20)
      let read ← candidates.mapM candidate
      return .ambiguous reason read
  | .string "missing" =>
    match field fields "reason" with
    | .string "no_courses" => some (.missing true)
    | .string "archived_only" => some (.missing false)
    | _ => none
  | .string "resolved" => do
      guard (field fields "confidence" = .string "high")
      match field fields "matchedBy" with
      | .array [.string matched] => do
          guard (resolutionMatches.contains matched)
          let found ← course (field fields "course")
          return .resolved matched found
      | _ => none
  | _ => none

structure EvidenceRef where
  id : String
  sourceType : String
  sourceId : String
  sourceUrl : Option String
  sourceTitle : Option String
  excerptPreview : Option String
  evidenceKind : String
  confidence : String
  observedAt : String

def evidenceRef (value : Json) : Option EvidenceRef := do
  let fields ← obj value
  let id ← str (field fields "id") 200
  let sourceType ← str (field fields "sourceType") 200
  let sourceId ← str (field fields "sourceId") 200
  let sourceUrl ← nullable (fields.get? "sourceUrl") 2000
  let sourceTitle ← nullable (fields.get? "sourceTitle") 2000
  let excerptPreview ← nullable (fields.get? "excerptPreview") 500
  let evidenceKind ← str (field fields "evidenceKind") 200
  let confidence ← str (field fields "confidence") 200
  let observedAt ← str (field fields "observedAt") 200
  return { id, sourceType, sourceId, sourceUrl, sourceTitle, excerptPreview, evidenceKind,
           confidence, observedAt }

structure Profile where
  audience : Option String
  coursePromise : Option String

def collaborator (value : Json) : Option Unit := do
  let fields ← obj value
  let _ ← str (field fields "name") 200
  let _ ← nullable (fields.get? "role") 200
  return ()

def profile (value : Json) : Option Profile := do
  let fields ← obj value
  let collaborators ← list (field fields "collaborators")
  guard (collaborators.length ≤ 50)
  let _ ← collaborators.mapM collaborator
  let locations ← obj (field fields "resourceLocations")
  guard (locations.keys.length ≤ 100)
  let _ ← locations.keys.mapM fun key => nullable (locations.get? key) 2000
  let _ ← nullable (fields.get? "pmRole") 2000
  let _ ← nullable (fields.get? "teacher") 2000
  let audience ← nullable (fields.get? "audience") 2000
  let coursePromise ← nullable (fields.get? "coursePromise") 2000
  return { audience, coursePromise }

structure ContextPack where
  agentMd : String
  contextPackId : String
  version : Int
  stale : Bool

def isPositiveInteger : Json → Option Int
  | .number (.finite value) => if value.den = 1 ∧ 0 < value.num then some value.num else none
  | _ => none

def contextPack (value : Json) : Option ContextPack := do
  let fields ← obj value
  let version ← isPositiveInteger (field fields "version")
  let stale ← match field fields "stale" with
    | .bool stale => some stale
    | _ => none
  guard (field fields "confidence" ∈ [.string "high", .string "medium", .string "low"])
  let agentMd ← str (field fields "agentMd") 50000
  let contextPackId ← str (field fields "contextPackId") 200
  let _ ← str (field fields "generatedAt") 200
  let _ ← nullable (fields.get? "lastIndexedAt") 200
  return { agentMd, contextPackId, version, stale }

structure Bundle where
  course : Course
  profile : Profile
  context : ContextPack
  confirmed : List EvidenceRef

def parseBundle (value : Json) : Option Bundle := do
  let fields ← obj value
  let parsedProfile ← profile (field fields "profile")
  let context ← contextPack (field fields "context")
  let evidence ← obj (field fields "evidence")
  let confirmed ← list (field evidence "confirmed")
  let candidates ← list (field evidence "candidates")
  guard (confirmed.length ≤ 100 ∧ candidates.length ≤ 100)
  let read ← confirmed.mapM evidenceRef
  let _ ← candidates.mapM evidenceRef
  let found ← canonicalCourse (field fields "course")
  return { course := found, profile := parsedProfile, context := context, confirmed := read }

def courseJson (courseKey : String) : List (String × Json) :=
  [("courseKey", .string courseKey), ("courseEntityId", .string courseKey),
    ("displayName", .string courseKey), ("aliases", .array []), ("status", .string "active")]

def ambiguousJson : Json := .object
  [("status", .string "ambiguous"), ("reason", .string "multiple_active_courses"),
    ("candidates", .array (["drawing", "singing"].map fun courseKey =>
      .object (("reasons", .array []) :: courseJson courseKey)))]

def resolvedJson (courseKey : String) : Json := .object
  [("status", .string "resolved"), ("confidence", .string "high"),
    ("matchedBy", .array [.string "explicit_course_key"]),
    ("course", .object (courseJson courseKey))]

def bundleJson (courseKey : String) : Json := .object
  [("course", .object (courseJson courseKey)),
    ("profile", .object [("collaborators", .array []), ("resourceLocations", .object []),
      ("pmRole", .null), ("teacher", .null), ("audience", .null), ("coursePromise", .null)]),
    ("context", .object [("version", .number (.finite 1)), ("stale", .bool false),
      ("confidence", .string "high"), ("agentMd", .string "notes"),
      ("contextPackId", .string "pack"), ("generatedAt", .string "now"), ("lastIndexedAt", .null)]),
    ("evidence", .object [("confirmed", .array []), ("candidates", .array [])])]

end Lobu.Courses
