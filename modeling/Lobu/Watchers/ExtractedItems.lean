import Lobu.Foundation.JsonPath

namespace Lobu.Watchers

open Lobu.Foundation

/-! # Items of extracted data

A classifier names where its items stand in the extracted data, which of their properties holds
the value, and which cite events.  No property that is inherited holds a text or an item, so only
own ones are read for these.
-/

structure CitationConfig where
  idsField : Option String
  excerptsField : Option String
  contentIdKey : Option String
  excerptKey : Option String
  anchorKey : Option String

structure ParentConfig where
  slug : String
  valueField : String

structure ExtractionConfig where
  sourcePath : String
  valueField : String
  descriptionField : Option String
  examplesField : Option String
  citationConfig : Option CitationConfig
  parent : Option ParentConfig

/-- A reference to a value of another classifier. -/
structure ParentReference where
  slug : String
  value : String

abbrev Embedding := List Json

structure ExtractedValue where
  value : String
  description : Option String
  examples : Option (List String)
  embedding : Option Embedding
  parent : Option ParentReference

/-- `String(value)`, also of a property that an item inherits, if it is truthy. -/
structure ItemRuntime where
  stringOf : Json → String
  inherited : Json → String → Option String
  stringOf_string : ∀ value, stringOf (.string value) = value

/-- A text is falsy when it is empty. -/
def given (text : Option String) : Option String := text.filter fun text => text != ""

/-- `path.split("[*]")`. -/
def segmentsOf : List Char → List (List Char)
  | [] => [[]]
  | '[' :: '*' :: ']' :: rest => [] :: segmentsOf rest
  | c :: rest =>
    match segmentsOf rest with
    | [] => [[c]]
    | segment :: segments => (c :: segment) :: segments

/-- The names in a segment, without a dot before the first and one behind the last. -/
def namesOf (segment : List Char) : List String :=
  let started := if segment.head? = some '.' then segment.tail else segment
  let ended := if started.getLast? = some '.' then started.dropLast else started
  if ended = [] then [] else (ended.splitOn '.').map String.ofList

def traverse : List (List Char) → Json → List Json
  | [], json => [json]
  | [segment], json =>
    match json.getPath (namesOf segment) with
    | some (.array items) => items
    | some .null => []
    | some value => [value]
    | none => []
  | segment :: next :: segments, json =>
    match json.getPath (namesOf segment) with
    | some (.array items) => items.flatMap (traverse (next :: segments))
    | _ => []

def extractAtPath (data : Json) (path : String) : List Json :=
  if Json.truthy (some data) && path != "" then
    let cleanPath :=
      match path.toList with
      | '$' :: '.' :: rest => rest
      | whole => whole
    traverse (segmentsOf cleanPath) data
  else []

/-- A property of an item, and the length of one that is an array. -/
def ownProperty (item : Json) (name : String) : Option Json :=
  match item with
  | .array items => if name = "length" then some (.number (.finite items.length)) else item.child? name
  | other => other.child? name

def itemValue? (config : ExtractionConfig) (item : Json) : Option String :=
  given ((ownProperty item config.valueField).bind Json.string?)

section Extraction

variable (runtime : ItemRuntime) (config : ExtractionConfig)

/-- The text of a property, if it is truthy. -/
def propertyText (item : Json) (name : String) : Option String :=
  match ownProperty item name with
  | some value => if Json.truthy (some value) then some (runtime.stringOf value) else none
  | none => runtime.inherited item name

def itemExamples (item : Json) (field : String) : Option (List String) :=
  match ownProperty item field with
  | some (.array examples) =>
    let present := examples.filter fun
      | .null => false
      | _ => true
    some ((present.map runtime.stringOf).take 5)
  | _ => none

def extractedValue (item : Json) (value : String) : ExtractedValue where
  value
  description := (given config.descriptionField).bind (propertyText runtime item)
  examples := (given config.examplesField).bind (itemExamples runtime item)
  embedding :=
    match ownProperty item "embedding" with
    | some (.array numbers) => some numbers
    | _ => none
  parent := config.parent.bind fun parent =>
    (propertyText runtime item parent.valueField).map fun value => ⟨parent.slug, value⟩

/-- The first item of every value. -/
def extractFrom (seenValues : List String) : List Json → List ExtractedValue
  | [] => []
  | item :: items =>
    match itemValue? config item with
    | none => extractFrom seenValues items
    | some value =>
      if value ∈ seenValues then extractFrom seenValues items
      else extractedValue runtime config item value :: extractFrom (value :: seenValues) items

def extractClassifierValues (data : Json) : List ExtractedValue :=
  extractFrom runtime config [] (extractAtPath data config.sourcePath)

end Extraction

structure Citation where
  contentId : JsNumber
  excerpt : Option Json

inductive CitationFormat where
  | idsOnly
  | full
  | hybrid
  | anchor
  | none

def inferCitationFormat (config : CitationConfig) : CitationFormat :=
  let hasIds := (given config.idsField).isSome
  let hasExcerpts := (given config.excerptsField).isSome
  let hasAnchor := (given config.anchorKey).isSome
  if hasIds && hasExcerpts then .hybrid
  else if hasExcerpts && hasAnchor then .anchor
  else if hasExcerpts then .full
  else if hasIds then .idsOnly
  else .none

/-- The first citation of an event stays. -/
def addCitation (citations : List Citation) (citation : Citation) : List Citation :=
  if citations.any fun earlier => decide (earlier.contentId = citation.contentId) then citations
  else citations ++ [citation]

/-- An excerpt that is there replaces the one of the event's citation. -/
def mergeExcerpt (citations : List Citation) (citation : Citation) : List Citation :=
  let isSame := fun earlier : Citation => decide (earlier.contentId = citation.contentId)
  if citations.any isSame && Json.truthy citation.excerpt then
    citations.map fun earlier => if isSame earlier then citation else earlier
  else addCitation citations citation

def citedIds (item : Json) (field : Option String) : List Citation :=
  match (given field).bind (ownProperty item) with
  | some (.array ids) => (ids.filterMap Json.number?).map fun id => ⟨id, none⟩
  | _ => []

def citedObjects (config : CitationConfig) (item : Json) (textKey : String) : List Citation :=
  match (given config.excerptsField).bind (ownProperty item) with
  | some (.array objects) =>
    let contentIdKey := (given config.contentIdKey).getD "content_id"
    objects.filterMap fun object =>
      ((ownProperty object contentIdKey).bind Json.number?).map fun id =>
        ⟨id, ownProperty object textKey⟩
  | _ => []

def extractCitationsFromItem (item : Json) (config : CitationConfig) (format : CitationFormat) : List Citation :=
  let excerptKey := (given config.excerptKey).getD "excerpt"
  let anchorKey := (given config.anchorKey).getD "anchor"
  let ids := (citedIds item config.idsField).foldl addCitation []
  match format with
  | .idsOnly => ids
  | .full => (citedObjects config item excerptKey).foldl addCitation []
  | .hybrid => (citedObjects config item excerptKey).foldl mergeExcerpt ids
  | .anchor => (citedObjects config item anchorKey).foldl addCitation []
  | .none => []

end Lobu.Watchers
