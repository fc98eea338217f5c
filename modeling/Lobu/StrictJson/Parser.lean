import Lobu.Foundation.JsonGrammar
import Lobu.Foundation.Utf8

namespace Lobu.StrictJson

open Lobu.Foundation

/-! # The strict JSON parser

`parseStrictJsonBytes`: a parser that goes down with the nesting of the values.  Where the parser
stands in its source is told by the part of the source that is left.
-/

inductive StrictJsonErrorCode where
  | invalidJson
  | duplicateJsonMember

/-- A message is a list of UTF-16 code units, as it may quote a lone surrogate.  The loops of the
source have no fuel that could be exhausted. -/
inductive Failure where
  | strictJsonError (code : StrictJsonErrorCode) (message : List Nat)
  | exhausted

def unitsOf (text : List Char) : List Nat := text.flatMap utf16

def invalidJson (message : String) : Failure :=
  .strictJsonError .invalidJson (unitsOf message.toList)

/-- `Number` and `Number.isFinite` -/
structure NumberReader (ν : Type) where
  number : List Char → ν
  isFinite : ν → Bool

structure StrictJsonParser (ν : Type) where
  numbers : NumberReader ν
  source : List Char
  maxDepth : Nat
  maxValues : Nat

structure ParserState where
  rest : List Char
  valueCount : Nat

def skipWhitespace (rest : List Char) : List Char := rest.dropWhile isJsonSpace

def consume (character : Char) : List Char → Option (List Char)
  | [] => none
  | c :: rest => if c = character then some rest else none

/-- `source.slice(start, index)` -/
def between (start rest : List Char) : List Char := start.take (start.length - rest.length)

namespace StrictJsonParser

variable {ν : Type} (parser : StrictJsonParser ν)

def index (rest : List Char) : Nat := (unitsOf parser.source).length - (unitsOf rest).length

def invalidAt (message : String) (index : Nat) : Failure :=
  invalidJson (message ++ " at offset " ++ toString index)

def expect (character : Char) (rest : List Char) : Except Failure (List Char) :=
  match consume character rest with
  | some after => .ok after
  | none =>
    .error (invalidAt ("Expected " ++ quoted (String.singleton character)) (parser.index rest))

def parseLiteral (literal : List Char) (value : JsonTree ν) (rest : List Char) :
    Except Failure (JsonTree ν × List Char) :=
  if rest.take literal.length = literal then .ok (value, rest.drop literal.length)
  else
    .error (invalidAt ("Invalid JSON literal; expected " ++ String.ofList literal)
      (parser.index rest))

/-- What comes after a backslash. -/
def parseEscape : List Char → Except Failure (Nat × List Char)
  | [] => .error (invalidAt "Invalid JSON string escape" (parser.index [] + 1))
  | c :: rest =>
    if c = 'u' then
      let digits := rest.take 4
      if digits.length = 4 ∧ digits.all isHexDigit = true then
        .ok (hexValue digits, rest.drop 4)
      else .error (invalidAt "Invalid JSON Unicode escape" (parser.index rest))
    else
      match escapeUnit c with
      | some unit => .ok (unit, rest)
      | none => .error (invalidAt "Invalid JSON string escape" (parser.index (c :: rest) + 1))

theorem parseEscape_ok {rest after : List Char} {unit : Nat} (read : parser.parseEscape rest = .ok (unit, after)) :
    (∃ c, rest = c :: after ∧ escapeUnit c = some unit) ∨
      ∃ digits, rest = 'u' :: (digits ++ after) ∧ digits.length = 4 ∧
        digits.all isHexDigit = true ∧ unit = hexValue digits := by
  cases rest with
  | nil => cases read
  | cons c rest =>
    rw [parseEscape] at read
    split at read
    · rename_i same
      subst same
      dsimp only at read
      split at read
      · rename_i hex
        cases read
        exact Or.inr ⟨rest.take 4, by rw [List.take_append_drop], hex.1, hex.2, rfl⟩
      · cases read
    · split at read
      · rename_i known
        cases read
        exact Or.inl ⟨c, rfl, known⟩
      · cases read

theorem parseEscape_length {rest after : List Char} {unit : Nat}
    (read : parser.parseEscape rest = .ok (unit, after)) : after.length < rest.length := by
  rcases parser.parseEscape_ok read with ⟨c, rfl, _⟩ | ⟨digits, rfl, _⟩
  · simp
  · simp only [List.length_cons, List.length_append]
    omega

def parseCharacters (result : List Nat) (rest : List Char) : Except Failure (List Nat × List Char) :=
  match rest with
  | [] => .error (invalidAt "Unterminated JSON string" (parser.index []))
  | c :: rest =>
    if c = '"' then .ok (result, rest)
    else if c = '\\' then
      match _ : parser.parseEscape rest with
      | .ok (unit, after) => parseCharacters (result ++ [unit]) after
      | .error failure => .error failure
    else if c.toNat < 0x20 then
      .error (invalidAt "Unescaped control character in JSON string" (parser.index rest))
    else parseCharacters (result ++ utf16 c) rest
termination_by rest.length
decreasing_by
  · have shorter := parser.parseEscape_length ‹_›
    simp only [List.length_cons]
    omega
  · simp

def parseString (rest : List Char) : Except Failure (List Nat × List Char) := do
  let after ← parser.expect '"' rest
  parser.parseCharacters [] after

def requireDigits (message : String) (rest : List Char) : Except Failure (List Char) :=
  let after := rest.dropWhile Char.isDigit
  if after.length = rest.length then .error (invalidAt message (parser.index after)) else .ok after

def parseSign (rest : List Char) : Except Failure (List Char) :=
  match consume '-' rest with
  | some after =>
    if after = [] then .error (invalidAt "Incomplete JSON number" (parser.index after))
    else .ok after
  | none => .ok rest

def parseWhole (rest : List Char) : Except Failure (List Char) :=
  match consume '0' rest with
  | some after =>
    if after.head?.any Char.isDigit then
      .error (invalidAt "JSON number cannot contain a leading zero" (parser.index after))
    else .ok after
  | none => parser.requireDigits "Expected digits in JSON number" rest

def parseFraction (rest : List Char) : Except Failure (List Char) :=
  match consume '.' rest with
  | some after => parser.requireDigits "JSON number fraction requires digits" after
  | none => .ok rest

/-- What is left after one of two characters that may be missing. -/
def skipEither (first second : Char) (rest : List Char) : List Char :=
  (consume first rest <|> consume second rest).getD rest

def parseExponent (rest : List Char) : Except Failure (List Char) :=
  if rest.head? = some 'e' ∨ rest.head? = some 'E' then
    parser.requireDigits "JSON number exponent requires digits" (skipEither '+' '-' (rest.drop 1))
  else .ok rest

def parseNumber (rest : List Char) : Except Failure (JsonTree ν × List Char) := do
  let after ← parser.parseSign rest
  let after ← parser.parseWhole after
  let after ← parser.parseFraction after
  let after ← parser.parseExponent after
  let value := parser.numbers.number (between rest after)
  if parser.numbers.isFinite value then return (.number value, after)
  else throw (invalidAt "JSON number is outside finite range" (parser.index after))

section Containers

variable {σ : Type}

/-- The loop of `parseArray` and of `parseObject`: elements with commas between them. -/
def parseSeparated (close : Char) (element : σ → ParserState → Except Failure (σ × ParserState)) :
    Nat → σ → ParserState → Except Failure (σ × ParserState)
  | 0, _, _ => .error .exhausted
  | fuel + 1, result, state => do
      let (result, state) ← element result state
      let rest := skipWhitespace state.rest
      match consume close rest with
      | some after => return (result, { state with rest := after })
      | none =>
        let after ← parser.expect ',' rest
        parseSeparated close element fuel result { state with rest := skipWhitespace after }

def parseBracketed (close : Char) (element : σ → ParserState → Except Failure (σ × ParserState))
    (empty : σ) (state : ParserState) : Except Failure (σ × ParserState) :=
  let rest := skipWhitespace (state.rest.drop 1)
  match consume close rest with
  | some after => .ok (empty, { state with rest := after })
  | none =>
    parser.parseSeparated close element (rest.length + 1) empty { state with rest := rest }

end Containers

variable (inner : ParserState → Except Failure (JsonTree ν × ParserState))

/-- `result.push(this.parseValue(depth))` -/
def parseItem (result : List (JsonTree ν)) (state : ParserState) :
    Except Failure (List (JsonTree ν) × ParserState) := do
  let (value, state) ← inner state
  return (result ++ [value], state)

def parseArray (state : ParserState) : Except Failure (JsonTree ν × ParserState) := do
  let (items, state) ← parser.parseBracketed ']' (parseItem inner) [] state
  return (.array items, state)

/-- `Duplicate JSON object member at offset …: …` -/
def duplicateMember (name : List Nat) (rest : List Char) : Failure :=
  .strictJsonError .duplicateJsonMember
    (unitsOf ("Duplicate JSON object member at offset " ++ toString (parser.index rest) ++
      ": ").toList ++ name)

/-- The names that were seen, and the object as far as it is known. -/
structure ObjectState (ν : Type) where
  members : List (List Nat)
  result : List (List Nat × JsonTree ν)

def parseMember (object : ObjectState ν) (state : ParserState) : Except Failure (ObjectState ν × ParserState) :=
  if state.rest.head? ≠ some '"' then
    .error (invalidAt "Expected a quoted JSON object member name" (parser.index state.rest))
  else do
    let (name, rest) ← parser.parseString state.rest
    if name ∈ object.members then .error (parser.duplicateMember name rest)
    else
      let rest ← parser.expect ':' (skipWhitespace rest)
      let (value, state) ← inner { state with rest := skipWhitespace rest }
      return (⟨object.members ++ [name], OrderedMap.putUnder name value object.result⟩, state)

def parseObject (state : ParserState) : Except Failure (JsonTree ν × ParserState) := do
  let (object, state) ← parser.parseBracketed '\x7d' (parser.parseMember inner) ⟨[], []⟩ state
  return (.object object.result, state)

/-- A value that has no other values in it. -/
def scalar (parse : List Char → Except Failure (JsonTree ν × List Char)) (state : ParserState) :
    Except Failure (JsonTree ν × ParserState) := do
  let (value, after) ← parse state.rest
  return (value, { state with rest := after })

def stringValue (rest : List Char) : Except Failure (JsonTree ν × List Char) := do
  let (units, after) ← parser.parseString rest
  return (.string units, after)

/-- What is chosen by the first character; `inner` reads what lies one level deeper. -/
def parseChosen (state : ParserState) : Except Failure (JsonTree ν × ParserState) :=
  match state.rest.head? with
  | none => .error (invalidAt "Expected a JSON value" (parser.index state.rest))
  | some character =>
    if character = '\x7b' then parser.parseObject inner state
    else if character = '[' then parser.parseArray inner state
    else if character = '"' then scalar parser.stringValue state
    else if character = 't' then
      scalar (parser.parseLiteral ['t', 'r', 'u', 'e'] (.bool true)) state
    else if character = 'f' then
      scalar (parser.parseLiteral ['f', 'a', 'l', 's', 'e'] (.bool false)) state
    else if character = 'n' then scalar (parser.parseLiteral ['n', 'u', 'l', 'l'] .null) state
    else if character = '-' ∨ character.isDigit = true then scalar parser.parseNumber state
    else .error (invalidAt "Expected a JSON value" (parser.index state.rest))

def parseValue (depth : Nat) (state : ParserState) : Except Failure (JsonTree ν × ParserState) :=
  if deep : parser.maxDepth < depth then
    .error (invalidAt ("JSON nesting exceeds " ++ toString parser.maxDepth)
      (parser.index state.rest))
  else
    let valueCount := state.valueCount + 1
    if parser.maxValues < valueCount then
      .error (invalidAt ("JSON value count exceeds " ++ toString parser.maxValues)
        (parser.index state.rest))
    else
      parser.parseChosen (fun inner => parseValue (depth + 1) inner)
        { state with valueCount := valueCount }
termination_by parser.maxDepth + 1 - depth
decreasing_by omega

def parse : Except Failure (JsonTree ν) := do
  let (value, state) ← parser.parseValue 0 ⟨skipWhitespace parser.source, 0⟩
  let rest := skipWhitespace state.rest
  if rest = [] then return value
  else throw (invalidAt "Unexpected content after the top-level JSON value" (parser.index rest))

end StrictJsonParser

structure Limits where
  maxBytes : Option Nat
  maxDepth : Option Nat
  maxValues : Option Nat

namespace Limits

def bytes (limits : Limits) : Nat := limits.maxBytes.getD (1024 * 1024)

def depth (limits : Limits) : Nat := limits.maxDepth.getD 64

def values (limits : Limits) : Nat := limits.maxValues.getD 20000

end Limits

def parseStrictJsonBytes {ν : Type} (numbers : NumberReader ν) (limits : Limits)
    (bytes : List Nat) : Except Failure (JsonTree ν) :=
  if limits.bytes < bytes.length then
    .error (invalidJson ("JSON body exceeds " ++ toString limits.bytes ++ " bytes"))
  else
    match decodeFatal bytes with
    | none => .error (invalidJson "JSON body is not valid UTF-8")
    | some source => StrictJsonParser.parse ⟨numbers, source, limits.depth, limits.values⟩

end Lobu.StrictJson
