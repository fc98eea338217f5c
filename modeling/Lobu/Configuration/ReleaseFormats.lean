import Lobu.Foundation.IpText
import Lobu.Foundation.Json

namespace Lobu.Configuration

open Lobu.Foundation

/-! # The texts of a release

What the parser of a release's command asks of digests, identifiers, timestamps,
numbers and lists.
-/

/-- What the parser leaves to the runtime: how values are read as numbers and texts,
timestamps and addresses. -/
structure Runtime where
  /-- `Number(value)`, none for `NaN`. -/
  numberOf : Json → Option JsNumber
  /-- `String(value)`. -/
  textOf : Json → String
  /-- `Date.parse`, none for `NaN`. -/
  dateParse : String → Option Int
  /-- `new Date(time).toISOString()`. -/
  isoText : Int → String
  /-- A `https` address that is its own origin. -/
  isCanonicalHttpsOrigin : String → Bool

def safeInteger? : Option Json → Option Int
  | some (.number (.finite value)) =>
    if value.den = 1 ∧ value.num.natAbs ≤ 9007199254740991 then some value.num else none
  | _ => none

/-- `Number.isSafeInteger`, with bounds. -/
def isIntegerWithin (lower upper : Int) (value : Option Json) : Bool :=
  (safeInteger? value).any fun number => decide (lower ≤ number ∧ number ≤ upper)

def isPositiveSafeInteger : Option Json → Bool :=
  isIntegerWithin 1 9007199254740991

def isLowerHex (c : Char) : Bool :=
  c.isDigit || decide (97 ≤ c.toNat ∧ c.toNat ≤ 102)

def isHexText (length : Nat) (text : List Char) : Bool :=
  text.length == length && text.all isLowerHex

/-- Whether a text goes on after a prefix as it should. -/
def afterPrefix (before : String) (rest : List Char → Bool) (text : String) : Bool :=
  before.toList.isPrefixOf text.toList && rest (text.toList.drop before.toList.length)

/-- `/^personal-agent-baseline-v[12]-[0-9a-f]{64}$/` -/
def isPersonalBaselineVersion : String → Bool :=
  afterPrefix "personal-agent-baseline-v" fun rest =>
    match rest with
    | version :: '-' :: digest => (version == '1' || version == '2') && isHexText 64 digest
    | _ => false

/-- `/^(0|[1-9][0-9]*)$/` -/
def isDecimalRevision (text : String) : Bool :=
  match text.toList with
  | [] => false
  | first :: rest =>
    first.isDigit && rest.all Char.isDigit && (first != '0' || rest.isEmpty)

/-- `/^[a-z0-9][a-z0-9._-]{0,127}$/` -/
def isCapabilityName (text : String) : Bool :=
  let isPlain (c : Char) : Bool := c.isDigit || decide (97 ≤ c.toNat ∧ c.toNat ≤ 122)
  match text.toList with
  | [] => false
  | first :: rest =>
    isPlain first && decide (rest.length ≤ 127) &&
      rest.all fun c => isPlain c || c == '.' || c == '_' || c == '-'

/-- `/^[0-9a-f]{8}-[0-9a-f]{4}-[1-8][0-9a-f]{3}-[89ab][0-9a-f]{3}-[0-9a-f]{12}$/i` -/
def isUuidText (text : String) : Bool :=
  match (text.toList.map Char.toLower).splitOn '-' with
  | [first, second, version :: third, variety :: fourth, fifth] =>
    isHexText 8 first && isHexText 4 second &&
      decide (49 ≤ version.toNat ∧ version.toNat ≤ 56) && isHexText 3 third &&
      ['8', '9', 'a', 'b'].contains variety && isHexText 3 fourth && isHexText 12 fifth
  | _ => false

/-- The six bits of a character of base64. -/
def base64Value? (c : Char) : Option Nat :=
  if 65 ≤ c.toNat ∧ c.toNat ≤ 90 then some (c.toNat - 65)
  else if 97 ≤ c.toNat ∧ c.toNat ≤ 122 then some (c.toNat - 71)
  else if c.isDigit then some (c.toNat + 4)
  else if c = '+' then some 62
  else if c = '/' then some 63
  else none

/-- Base64 in groups of four that is what its bytes are written as: the bits of the last
character that no byte takes are zero. -/
def isCanonicalBase64Text : List Char → Bool
  | [] => true
  | [first, second, '=', '='] =>
    (base64Value? first).isSome && (base64Value? second).any fun bits => bits % 16 == 0
  | [first, second, third, '='] =>
    (base64Value? first).isSome && (base64Value? second).isSome &&
      (base64Value? third).any fun bits => bits % 4 == 0
  | first :: second :: third :: fourth :: rest =>
    (base64Value? first).isSome && (base64Value? second).isSome && (base64Value? third).isSome &&
      (base64Value? fourth).isSome && isCanonicalBase64Text rest
  | _ => false

def isCanonicalBase64 (text : String) : Bool :=
  text != "" && isCanonicalBase64Text text.toList

def isBlank (text : String) : Bool := (trim text.toList).isEmpty

/-- A text that is not blank. -/
def isFilled : Option Json → Bool
  | some (.string text) => !isBlank text
  | _ => false

def isTextWhere (holds : String → Bool) : Option Json → Bool
  | some (.string text) => holds text
  | _ => false

def unitCount (text : String) : Nat := (text.toList.flatMap utf16).length

def isCanonicalNonemptyString (maxLength : Nat) : Option Json → Bool :=
  isTextWhere fun text =>
    text != "" && decide (unitCount text ≤ maxLength) && trim text.toList == text.toList

def readDigits (count : Nat) (text : List Char) : Option (Nat × List Char) :=
  let digits := text.take count
  if digits.length = count ∧ digits.all Char.isDigit = true then
    some (decimalValue digits, text.drop count)
  else none

def readChar (expected : Char) : List Char → Option (List Char)
  | c :: rest => if c = expected then some rest else none
  | [] => none

/-- An optional point and one to nine digits. -/
def readFraction : List Char → Option (List Char)
  | '.' :: rest =>
    let digits := rest.takeWhile Char.isDigit
    if 1 ≤ digits.length ∧ digits.length ≤ 9 then some (rest.drop digits.length) else none
  | text => some text

/-- Whether what is left is `Z` or an offset within a day. -/
def isZone : List Char → Bool
  | ['Z'] => true
  | sign :: rest =>
    (sign == '+' || sign == '-') &&
      (do
        let (hour, rest) ← readDigits 2 rest
        let rest ← readChar ':' rest
        let (minute, rest) ← readDigits 2 rest
        pure (rest.isEmpty && decide (hour ≤ 23 ∧ minute ≤ 59))).getD false
  | [] => false

def isLeapYear (year : Nat) : Bool :=
  decide (year % 4 = 0 ∧ (year % 100 ≠ 0 ∨ year % 400 = 0))

def monthDays (year month : Nat) : Nat :=
  [31, if isLeapYear year then 29 else 28, 31, 30, 31, 30, 31, 31, 30, 31, 30, 31].getD (month - 1) 0

/-- Whether a text has the form of a timestamp and names a day and a time that exist. -/
def hasRfc3339Form (text : List Char) : Bool :=
  (do
    let (year, rest) ← readDigits 4 text
    let rest ← readChar '-' rest
    let (month, rest) ← readDigits 2 rest
    let rest ← readChar '-' rest
    let (day, rest) ← readDigits 2 rest
    let rest ← readChar 'T' rest
    let (hour, rest) ← readDigits 2 rest
    let rest ← readChar ':' rest
    let (minute, rest) ← readDigits 2 rest
    let rest ← readChar ':' rest
    let (second, rest) ← readDigits 2 rest
    let zone ← readFraction rest
    pure (decide (1 ≤ year ∧ 1 ≤ month ∧ month ≤ 12 ∧ hour ≤ 23 ∧ minute ≤ 59 ∧ second ≤ 59) &&
      decide (1 ≤ day ∧ day ≤ monthDays year month) && isZone zone)).getD false

example : hasRfc3339Form "2024-02-29T10:00:00.5+08:00".toList = true := by decide

section Timestamps

variable (runtime : Runtime)

def isStrictRfc3339 (text : String) : Bool :=
  hasRfc3339Form text.toList && (runtime.dateParse text).isSome

def isCanonicalTimestamp : Option Json → Bool :=
  isTextWhere fun text =>
    isStrictRfc3339 runtime text &&
      (runtime.dateParse text).any fun time => runtime.isoText time == text

/-- The time of a timestamp. -/
def timeOf (value : Option Json) : Option Int :=
  match value with
  | some (.string text) => runtime.dateParse text
  | _ => none

end Timestamps

/-- At most 64 different texts, none of them empty. -/
def isStringArray (minimum : Nat) : Option Json → Bool
  | some (.array items) =>
    decide (minimum ≤ items.length ∧ items.length ≤ 64) &&
      (items.all fun item => isTextWhere (fun text =>
        text != "" && decide (unitCount text ≤ 256)) (some item)) &&
      decide (items.map Json.string?).Nodup
  | _ => false

/-- The texts of an array. -/
def stringsOf : Option Json → List String
  | some (.array items) => items.filterMap Json.string?
  | _ => []

def isAscending : List Int → Bool
  | first :: second :: rest => decide (first < second) && isAscending (second :: rest)
  | _ => true

def isIntegerArray (minimum maximum : Nat) (upper : Int) : Option Json → Bool
  | some (.array items) =>
    decide (minimum ≤ items.length ∧ items.length ≤ maximum) &&
      (items.all fun item => isIntegerWithin 1 upper (some item)) &&
      isAscending (items.filterMap fun item => safeInteger? (some item))
  | _ => false

def isPositiveIntegerArray : Option Json → Bool := isIntegerArray 0 64 9007199254740991

/-- Rising percentages that end with all of them. -/
def isPercentageArray (value : Option Json) : Bool :=
  isIntegerArray 1 8 100 value &&
    match value with
    | some (.array items) => items.getLast?.any fun last => safeInteger? (some last) == some 100
    | _ => false

end Lobu.Configuration
