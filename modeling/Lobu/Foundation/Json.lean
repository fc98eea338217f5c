import Mathlib.Data.List.Lex
import Mathlib.Data.List.Sort
import Mathlib.Data.Rat.Defs

namespace Lobu.Foundation

/-! # JSON values

The values that `JSON.parse` gives, and how `JSON.stringify` writes them.  A
string is a list of code points, so one with a lone surrogate is no value here.
-/

/-- `JSON.parse` reads a numeral that is too large as an infinity. -/
inductive JsNumber where
  | finite (value : Rat)
  | infinite (negative : Bool)
deriving DecidableEq

inductive Json where
  | null
  | bool (value : Bool)
  | number (value : JsNumber)
  | string (value : String)
  | array (items : List Json)
  | object (fields : List (String × Json))

namespace Json

/-- A property read; `none` is `undefined`. -/
def get? : Json → String → Option Json
  | .object fields, key => fields.lookup key
  | _, _ => none

def string? : Json → Option String
  | .string value => some value
  | _ => none

def number? : Json → Option JsNumber
  | .number value => some value
  | _ => none

/-- Truthiness, of `undefined` too. -/
def truthy : Option Json → Bool
  | some (.bool value) => value
  | some (.number value) => decide (value ≠ .finite 0)
  | some (.string value) => value != ""
  | some (.array _) => true
  | some (.object _) => true
  | some .null => false
  | none => false

/-- `Object.keys` of an object. -/
def keys : Json → List String
  | .object fields => (fields.map Prod.fst).eraseDups
  | _ => []

def setField (key : String) (value : Json) : List (String × Json) → List (String × Json)
  | [] => [(key, value)]
  | (name, old) :: fields =>
    if name = key then (key, value) :: fields else (name, old) :: setField key value fields

/-- A property write to an object. -/
def set (json : Json) (key : String) (value : Json) : Json :=
  match json with
  | .object fields => .object (setField key value fields)
  | other => other

theorem get?_set_other (json : Json) {key other : String} (value : Json)
    (different : other ≠ key) : (json.set key value).get? other = json.get? other := by
  cases json with
  | object fields =>
    simp only [set, get?]
    induction fields with
    | nil => simp [setField, different]
    | cons field fields ih =>
      rw [setField]
      split
      · rename_i same
        have unlike : (other == field.1) = false := beq_false_of_ne (same ▸ different)
        rw [List.lookup_cons, List.lookup_cons, unlike, beq_false_of_ne different]
      · rw [List.lookup_cons, List.lookup_cons, ih]
  | _ => rfl

theorem get?_set_same (fields : List (String × Json)) (key : String) (value : Json) :
    ((object fields).set key value).get? key = some value := by
  simp only [set, get?]
  induction fields with
  | nil => simp [setField]
  | cons field fields ih =>
    rw [setField]
    split
    · exact List.lookup_cons_self
    · rename_i different
      have unlike : (key == field.1) = false := beq_false_of_ne (Ne.symm different)
      rw [List.lookup_cons, unlike]
      exact ih

end Json

def utf16 (char : Char) : List Nat :=
  if char.toNat < 0x10000 then [char.toNat]
  else
    let offset := char.toNat - 0x10000
    [0xd800 + offset / 0x400, 0xdc00 + offset % 0x400]

/-- The order of `Array.prototype.sort` on strings. -/
def sortsBefore (first second : String) : Prop :=
  first.toList.flatMap utf16 ≤ second.toList.flatMap utf16

instance : DecidableRel sortsBefore := fun first second =>
  inferInstanceAs (Decidable (first.toList.flatMap utf16 ≤ second.toList.flatMap utf16))

def hexDigit (value : Nat) : Char := Nat.digitChar (value % 16)

def escaped (char : Char) : String :=
  if char = '"' then "\\\""
  else if char = '\\' then "\\\\"
  else if char.toNat = 8 then "\\b"
  else if char.toNat = 12 then "\\f"
  else if char = '\n' then "\\n"
  else if char = '\r' then "\\r"
  else if char = '\t' then "\\t"
  else if char.toNat < 32 then
    String.ofList ['\\', 'u', '0', '0', hexDigit (char.toNat / 16), hexDigit char.toNat]
  else String.ofList [char]

def quoted (text : String) : String :=
  "\"" ++ String.join (text.toList.map escaped) ++ "\""

def escapeDigit (digit : Char) : Nat :=
  if digit.toNat < 58 then digit.toNat - 48 else digit.toNat - 87

/-- The character at the head of an escaped text, and what follows it. -/
def readEscaped : List Char → Option (Char × List Char)
  | '\\' :: 'b' :: rest => some (Char.ofNat 8, rest)
  | '\\' :: 'f' :: rest => some (Char.ofNat 12, rest)
  | '\\' :: 'n' :: rest => some ('\n', rest)
  | '\\' :: 'r' :: rest => some ('\r', rest)
  | '\\' :: 't' :: rest => some ('\t', rest)
  | '\\' :: 'u' :: _ :: _ :: high :: low :: rest =>
    some (Char.ofNat (escapeDigit high * 16 + escapeDigit low), rest)
  | '\\' :: char :: rest => some (char, rest)
  | char :: rest => some (char, rest)
  | [] => none

theorem escapeDigit_hexDigit (value : Nat) : escapeDigit (hexDigit value) = value % 16 := by
  have digits : ∀ digit : Fin 16, escapeDigit (Nat.digitChar digit.val) = digit.val := by decide
  exact digits ⟨value % 16, Nat.mod_lt _ (by decide)⟩

theorem readEscaped_escaped (char : Char) (rest : List Char) :
    readEscaped ((escaped char).toList ++ rest) = some (char, rest) := by
  unfold escaped
  split
  case isTrue same =>
    subst same
    rfl
  split
  case isTrue same =>
    subst same
    rfl
  case isFalse slash =>
  split
  case isTrue same =>
    have back : Char.ofNat 8 = char := by rw [← same, Char.ofNat_toNat]
    rw [← back]
    rfl
  split
  case isTrue same =>
    have back : Char.ofNat 12 = char := by rw [← same, Char.ofNat_toNat]
    rw [← back]
    rfl
  split
  case isTrue same =>
    subst same
    rfl
  split
  case isTrue same =>
    subst same
    rfl
  split
  case isTrue same =>
    subst same
    rfl
  split
  case isTrue control =>
    have value : escapeDigit (hexDigit (char.toNat / 16)) * 16 + escapeDigit (hexDigit char.toNat) = char.toNat := by
      rw [escapeDigit_hexDigit, escapeDigit_hexDigit]
      omega
    have back : Char.ofNat char.toNat = char := Char.ofNat_toNat char
    rw [String.toList_ofList, ← back]
    simp only [List.cons_append, List.nil_append, readEscaped, Char.ofNat_toNat, value]
  case isFalse =>
    rw [String.toList_ofList, List.singleton_append]
    unfold readEscaped
    split <;> simp_all

theorem escaped_text_cancel {first second rest others : List Char}
    (same : first.flatMap (fun char => (escaped char).toList) ++ '"' :: rest =
      second.flatMap (fun char => (escaped char).toList) ++ '"' :: others) : first = second ∧ rest = others := by
  have quote : ∀ (char : Char) (text tail : List Char), '"' :: tail ≠ (escaped char).toList ++ text := by
    intro char text tail starts
    have read := congrArg readEscaped starts
    rw [readEscaped_escaped] at read
    cases read
    cases starts
  induction first generalizing second with
  | nil =>
    cases second with
    | nil =>
      cases same
      exact ⟨rfl, rfl⟩
    | cons char second =>
      rw [List.flatMap_cons, List.append_assoc] at same
      exact absurd same (quote char _ _)
  | cons char first ih =>
    cases second with
    | nil =>
      rw [List.flatMap_cons, List.append_assoc] at same
      exact absurd same.symm (quote char _ _)
    | cons other second =>
      rw [List.flatMap_cons, List.flatMap_cons, List.append_assoc, List.append_assoc] at same
      have read := congrArg readEscaped same
      rw [readEscaped_escaped, readEscaped_escaped] at read
      obtain ⟨rfl, tails⟩ := Prod.mk.inj (Option.some.inj read)
      obtain ⟨texts, ends⟩ := ih tails
      exact ⟨by rw [texts], ends⟩

theorem quoted_cancel {first second : String} {rest others : List Char}
    (same : (quoted first).toList ++ rest = (quoted second).toList ++ others) : first = second ∧ rest = others := by
  have written : ∀ (text : String) (tail : List Char), (quoted text).toList ++ tail =
      '"' :: (text.toList.flatMap (fun char => (escaped char).toList) ++ '"' :: tail) := by
    intro text tail
    simp [quoted, String.toList_append, String.toList_join, List.flatMap_map]
  rw [written, written, List.cons.injEq] at same
  obtain ⟨texts, ends⟩ := escaped_text_cancel same.2
  exact ⟨String.toList_inj.mp texts, ends⟩

/-- `numberText` is how the runtime writes a finite number. -/
def scalarText (numberText : Rat → String) : Json → String
  | .null => "null"
  | .bool value => if value then "true" else "false"
  | .number (.finite value) => numberText value
  | .number (.infinite _) => "null"
  | .string value => quoted value
  | .array _ | .object _ => ""

def bracketed (items : List String) : String :=
  "[" ++ ",".intercalate items ++ "]"

def braced (fields : List (String × String)) : String :=
  "\x7b" ++ ",".intercalate (fields.map fun field => quoted field.1 ++ ":" ++ field.2) ++ "\x7d"

mutual

def stringify (numberText : Rat → String) : Json → String
  | .array items => bracketed (stringifyItems numberText items)
  | .object fields => braced (stringifyFields numberText fields)
  | value => scalarText numberText value

def stringifyItems (numberText : Rat → String) : List Json → List String
  | [] => []
  | item :: items => stringify numberText item :: stringifyItems numberText items

def stringifyFields (numberText : Rat → String) : List (String × Json) → List (String × String)
  | [] => []
  | (key, value) :: fields => (key, stringify numberText value) :: stringifyFields numberText fields

end

example : stringify (fun _ => "1") (.object [("a\n", .array [.number (.finite 1), .null])]) =
    "\x7b\"a\\n\":[1,null]\x7d" := by decide

namespace Json

mutual

/-- Whether two values are the same, object fields in the same order. -/
def same : Json → Json → Bool
  | .null, .null => true
  | .bool first, .bool second => first == second
  | .number first, .number second => decide (first = second)
  | .string first, .string second => first == second
  | .array first, .array second => sameItems first second
  | .object first, .object second => sameFields first second
  | _, _ => false

def sameItems : List Json → List Json → Bool
  | [], [] => true
  | first :: firsts, second :: seconds => same first second && sameItems firsts seconds
  | _, _ => false

def sameFields : List (String × Json) → List (String × Json) → Bool
  | [], [] => true
  | (name, first) :: firsts, (other, second) :: seconds =>
    name == other && same first second && sameFields firsts seconds
  | _, _ => false

end

mutual

theorem same_iff : ∀ first second : Json, same first second = true ↔ first = second
  | .null, second => by cases second <;> simp [same]
  | .bool _, second => by cases second <;> simp [same]
  | .number _, second => by cases second <;> simp [same]
  | .string _, second => by cases second <;> simp [same]
  | .array firsts, second => by
    cases second <;> simp [same, sameItems_iff firsts]
  | .object firsts, second => by
    cases second <;> simp [same, sameFields_iff firsts]

theorem sameItems_iff : ∀ firsts seconds : List Json, sameItems firsts seconds = true ↔ firsts = seconds
  | [], seconds => by cases seconds <;> simp [sameItems]
  | first :: firsts, seconds => by
    cases seconds <;> simp [sameItems, same_iff first, sameItems_iff firsts]

theorem sameFields_iff : ∀ firsts seconds : List (String × Json), sameFields firsts seconds = true ↔ firsts = seconds
  | [], seconds => by cases seconds <;> simp [sameFields]
  | (name, first) :: firsts, seconds => by
    cases seconds <;> simp [sameFields, same_iff first, sameFields_iff firsts, Prod.ext_iff]

end

instance : DecidableEq Json := fun first second =>
  decidable_of_iff (same first second = true) (same_iff first second)

mutual

/-- The form that canonical JSON writes: the fields of every object in the order of their
names. -/
def canonicalize : Json → Json
  | .array items => .array (canonicalizeItems items)
  | .object fields =>
    .object ((canonicalizeFields fields).insertionSort fun first second =>
      sortsBefore first.1 second.1)
  | value => value

def canonicalizeItems : List Json → List Json
  | [] => []
  | item :: items => canonicalize item :: canonicalizeItems items

def canonicalizeFields : List (String × Json) → List (String × Json)
  | [] => []
  | (name, value) :: fields => (name, canonicalize value) :: canonicalizeFields fields

end

example : canonicalize (.object [("b", .null), ("a", .array [.bool true])]) =
    .object [("a", .array [.bool true]), ("b", .null)] := by decide

theorem canonicalizeFields_eq (fields : List (String × Json)) :
    canonicalizeFields fields = fields.map fun field => (field.1, canonicalize field.2) := by
  induction fields with
  | nil => rfl
  | cons field fields ih =>
    obtain ⟨name, value⟩ := field
    rw [canonicalizeFields, ih, List.map_cons]

section Canonical

variable {ι : Type*} {names : ι → String} {values others : ι → Json} {items : List ι}

theorem canonicalize_object (names : ι → String) (values : ι → Json) (items : List ι) :
    canonicalize (.object (items.map fun item => (names item, values item))) =
      .object ((items.insertionSort fun first second =>
        sortsBefore (names first) (names second)).map fun item =>
          (names item, canonicalize (values item))) := by
  rw [canonicalize, canonicalizeFields_eq, List.map_map]
  congr 1
  symm
  exact List.map_insertionSort (fun first second => sortsBefore (names first) (names second))
    (fun first second : String × Json => sortsBefore first.1 second.1)
    (fun item => (names item, canonicalize (values item))) items fun _ _ _ _ => Iff.rfl

theorem canonicalize_object_iff :
    canonicalize (.object (items.map fun item => (names item, values item))) =
        canonicalize (.object (items.map fun item => (names item, others item))) ↔
      ∀ item ∈ items, canonicalize (values item) = canonicalize (others item) := by
  rw [canonicalize_object, canonicalize_object, object.injEq, List.map_inj_left]
  constructor
  · intro same item member
    exact (Prod.mk.inj (same item ((List.mem_insertionSort _).mpr member))).2
  · intro same item member
    rw [same item ((List.mem_insertionSort _).mp member)]

theorem canonicalize_overlay {fields similar : List (String × Json)}
    (same : canonicalize (.object fields) = canonicalize (.object similar))
    (overlay : String → Option Json) :
    canonicalize (.object (fields.map fun field =>
        (field.1, (overlay field.1).getD field.2))) =
      canonicalize (.object (similar.map fun field =>
        (field.1, (overlay field.1).getD field.2))) := by
  have sorted : ∀ fields : List (String × Json), canonicalize (.object fields) =
      .object ((fields.insertionSort fun first second => sortsBefore first.1 second.1).map
        fun field => (field.1, canonicalize field.2)) := by
    intro fields
    have written := canonicalize_object Prod.fst Prod.snd fields
    simpa using written
  have overlaid : ∀ fields : List (String × Json), canonicalize (.object (fields.map fun field =>
        (field.1, (overlay field.1).getD field.2))) =
      .object (((fields.insertionSort fun first second => sortsBefore first.1 second.1).map
        fun field => (field.1, canonicalize field.2)).map fun field =>
          (field.1, ((overlay field.1).map canonicalize).getD field.2)) := by
    intro fields
    rw [canonicalize_object Prod.fst (fun field => (overlay field.1).getD field.2) fields, List.map_map]
    congr 1
    apply List.map_congr_left
    intro field _
    cases written : overlay field.1 <;> simp [written]
  rw [sorted, sorted, object.injEq] at same
  rw [overlaid, overlaid, same]

end Canonical

end Json

end Lobu.Foundation
