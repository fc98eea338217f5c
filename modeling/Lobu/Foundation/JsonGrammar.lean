import Lobu.Foundation.IpText
import Lobu.Foundation.Json
import Lobu.Foundation.OrderedMap

namespace Lobu.Foundation

/-! # The grammar of JSON

The texts of RFC 8259 and the values that they stand for.  A string is a list of UTF-16 code units,
an object a list of members as they are written; what a numeral stands for is left open.
-/

inductive JsonTree (ν : Type) where
  | null
  | bool (value : Bool)
  | number (value : ν)
  | string (units : List Nat)
  | array (items : List (JsonTree ν))
  | object (members : List (List Nat × JsonTree ν))

def isJsonSpace (c : Char) : Bool := c == ' ' || c == '\t' || c == '\n' || c == '\r'

def IsBlank (text : List Char) : Prop := ∀ c ∈ text, isJsonSpace c = true

theorem isBlank_nil : IsBlank [] := fun _ member => absurd member List.not_mem_nil

def AreDigits (text : List Char) : Prop := text ≠ [] ∧ ∀ c ∈ text, c.isDigit = true

def IsSign (text : List Char) : Prop := text = [] ∨ text = ['-']

def IsWhole (text : List Char) : Prop :=
  text = ['0'] ∨ AreDigits text ∧ text.head? ≠ some '0'

def IsFraction (text : List Char) : Prop :=
  text = [] ∨ ∃ digits, text = '.' :: digits ∧ AreDigits digits

def IsExponent (text : List Char) : Prop :=
  text = [] ∨ ∃ mark sign digits, text = mark :: (sign ++ digits) ∧ (mark = 'e' ∨ mark = 'E') ∧
    (sign = [] ∨ sign = ['+'] ∨ sign = ['-']) ∧ AreDigits digits

def IsNumeral (text : List Char) : Prop :=
  ∃ sign whole fraction exponent, text = sign ++ (whole ++ (fraction ++ exponent)) ∧
    IsSign sign ∧ IsWhole whole ∧ IsFraction fraction ∧ IsExponent exponent

/-- The characters that stand for one by two. -/
def escapeUnit : Char → Option Nat
  | '"' => some 0x22
  | '\\' => some 0x5C
  | '/' => some 0x2F
  | 'b' => some 0x08
  | 'f' => some 0x0C
  | 'n' => some 0x0A
  | 'r' => some 0x0D
  | 't' => some 0x09
  | _ => none

inductive IsCharacters : List Char → List Nat → Prop where
  | nil : IsCharacters [] []
  | unescaped (visible : 0x20 ≤ c.toNat) (noQuote : c ≠ '"') (noEscape : c ≠ '\\')
      (more : IsCharacters text units) : IsCharacters (c :: text) (utf16 c ++ units)
  | escaped (known : escapeUnit c = some unit) (more : IsCharacters text units) :
      IsCharacters ('\\' :: c :: text) (unit :: units)
  | unicode (four : digits.length = 4) (hex : digits.all isHexDigit = true)
      (more : IsCharacters text units) :
      IsCharacters ('\\' :: 'u' :: (digits ++ text)) (hexValue digits :: units)

def IsString (text : List Char) (units : List Nat) : Prop :=
  ∃ characters, text = '"' :: (characters ++ ['"']) ∧ IsCharacters characters units

/-- What is separated by commas, at least one, with white space around it. -/
inductive Separated {α : Type} (item : List Char → α → Prop) : List Char → List α → Prop where
  | last (before : IsBlank blank) (one : item text value) (after : IsBlank blanks) :
      Separated item (blank ++ (text ++ blanks)) [value]
  | more (before : IsBlank blank) (one : item text value) (after : IsBlank blanks)
      (others : Separated item rest values) :
      Separated item (blank ++ (text ++ (blanks ++ ',' :: rest))) (value :: values)

inductive IsMember {α : Type} (value : List Char → α → Prop) : List Char → List Nat × α → Prop where
  | mk (name : IsString key units) (before : IsBlank blank) (after : IsBlank blanks)
      (one : value text found) :
      IsMember value (key ++ (blank ++ ':' :: (blanks ++ text))) (units, found)

inductive IsValue {ν : Type} (toNumber : List Char → ν) : List Char → JsonTree ν → Prop where
  | null : IsValue toNumber ['n', 'u', 'l', 'l'] .null
  | true : IsValue toNumber ['t', 'r', 'u', 'e'] (.bool true)
  | false : IsValue toNumber ['f', 'a', 'l', 's', 'e'] (.bool false)
  | number (numeral : IsNumeral text) : IsValue toNumber text (.number (toNumber text))
  | string (quoted : IsString text units) : IsValue toNumber text (.string units)
  | emptyArray (blank : IsBlank text) : IsValue toNumber ('[' :: (text ++ [']'])) (.array [])
  | array (separated : Separated (IsValue toNumber) text items) :
      IsValue toNumber ('[' :: (text ++ [']'])) (.array items)
  | emptyObject (blank : IsBlank text) :
      IsValue toNumber ('\x7b' :: (text ++ ['\x7d'])) (.object [])
  | object (separated : Separated (IsMember (IsValue toNumber)) text members) :
      IsValue toNumber ('\x7b' :: (text ++ ['\x7d'])) (.object members)

/-- A text of RFC 8259. -/
def IsDocument {ν : Type} (toNumber : List Char → ν) (text : List Char) (value : JsonTree ν) : Prop :=
  ∃ before inner after, text = before ++ (inner ++ after) ∧ IsBlank before ∧
    IsValue toNumber inner value ∧ IsBlank after

section Edges

variable {ν : Type} {toNumber : List Char → ν} {text rest : List Char} {value : JsonTree ν}

/-- What may follow a value: a numeral does not go on there. -/
def NumeralEnds (rest : List Char) : Prop :=
  ∀ c ∈ rest.head?, c.isDigit = false ∧ c ≠ '.' ∧ c ≠ 'e' ∧ c ≠ 'E'

/-- What begins a value is neither white space nor what closes an array. -/
def BeginsValue (text : List Char) : Prop :=
  ∃ c more, text = c :: more ∧ isJsonSpace c = false ∧ c ≠ ']'

theorem numeralEnds_of_blank {blank : List Char} (spaces : IsBlank blank)
    (ends : NumeralEnds rest) : NumeralEnds (blank ++ rest) := by
  cases blank with
  | nil => exact ends
  | cons c blank =>
    intro first same
    have space := spaces c List.mem_cons_self
    cases same
    simp only [isJsonSpace, Bool.or_eq_true, beq_iff_eq] at space
    rcases space with ((rfl | rfl) | rfl) | rfl <;> decide

theorem digit_begins {c : Char} (digit : c.isDigit = true) : isJsonSpace c = false ∧ c ≠ ']' := by
  constructor
  · by_contra space
    simp only [isJsonSpace, Bool.not_eq_false, Bool.or_eq_true, beq_iff_eq] at space
    rcases space with ((rfl | rfl) | rfl) | rfl <;> revert digit <;> decide
  · rintro rfl
    exact absurd digit (by decide)

theorem numeral_begins (numeral : IsNumeral text) : ∃ c more, text = c :: more ∧ (c = '-' ∨ c.isDigit = true) := by
  obtain ⟨sign, whole, fraction, exponent, rfl, signed, digits, _, _⟩ := numeral
  rcases signed with rfl | rfl
  · rcases digits with rfl | ⟨⟨nonempty, all⟩, _⟩
    · exact ⟨'0', _, rfl, Or.inr (by decide)⟩
    · cases whole with
      | nil => exact absurd rfl nonempty
      | cons c more => exact ⟨c, _, rfl, Or.inr (all c List.mem_cons_self)⟩
  · exact ⟨'-', _, rfl, Or.inl rfl⟩

def valueStarts : List Char := ['-', '"', '[', '\x7b', 't', 'f', 'n']

theorem value_first (written : IsValue toNumber text value) :
    ∃ c more, text = c :: more ∧ (c.isDigit = true ∨ c ∈ valueStarts) := by
  cases written with
  | number numeral =>
    obtain ⟨c, more, rfl, begins⟩ := numeral_begins numeral
    rcases begins with rfl | digit
    · exact ⟨'-', more, rfl, by decide⟩
    · exact ⟨c, more, rfl, Or.inl digit⟩
  | string quoted =>
    obtain ⟨characters, rfl, _⟩ := quoted
    exact ⟨'"', _, rfl, by decide⟩
  | _ => exact ⟨_, _, rfl, by decide⟩

theorem value_begins (written : IsValue toNumber text value) : BeginsValue text := by
  obtain ⟨c, more, rfl, digit | start⟩ := value_first written
  · exact ⟨c, more, rfl, digit_begins digit⟩
  · have apart : (valueStarts.all fun start => !isJsonSpace start && start != ']') = true := by decide
    have here := List.all_eq_true.mp apart c start
    simp only [Bool.and_eq_true, Bool.not_eq_true', bne_iff_ne] at here
    exact ⟨c, more, rfl, here⟩

end Edges

theorem Separated.blank {α : Type} {item : List Char → α → Prop} {text blank : List Char}
    {values : List α} (separated : Separated item text values) (spaces : IsBlank blank) :
    Separated item (blank ++ text) values := by
  have both : ∀ {more}, IsBlank more → IsBlank (blank ++ more) := by
    intro more others c member
    rcases List.mem_append.mp member with first | second
    · exact spaces c first
    · exact others c second
  cases separated with
  | last before one after =>
    rw [← List.append_assoc]
    exact .last (both before) one after
  | more before one after others =>
    rw [← List.append_assoc]
    exact .more (both before) one after others

theorem Separated.length_le {α : Type} {item : List Char → α → Prop} {text : List Char}
    {values : List α} (separated : Separated item text values) : values.length ≤ text.length + 1 := by
  induction separated with
  | last => simp
  | more _ _ _ _ ih =>
    simp only [List.length_cons, List.length_append]
    omega

namespace JsonTree

variable {ν : Type}

mutual

/-- How deep a value lies in the deepest of the arrays and objects. -/
def depth : JsonTree ν → Nat
  | .array items => itemsDepth items
  | .object members => membersDepth members
  | _ => 0

def itemsDepth : List (JsonTree ν) → Nat
  | [] => 0
  | item :: items => max (item.depth + 1) (itemsDepth items)

def membersDepth : List (List Nat × JsonTree ν) → Nat
  | [] => 0
  | (_, value) :: members => max (value.depth + 1) (membersDepth members)

end

mutual

def count : JsonTree ν → Nat
  | .array items => itemsCount items + 1
  | .object members => membersCount members + 1
  | _ => 1

def itemsCount : List (JsonTree ν) → Nat
  | [] => 0
  | item :: items => item.count + itemsCount items

def membersCount : List (List Nat × JsonTree ν) → Nat
  | [] => 0
  | (_, value) :: members => value.count + membersCount members

end

variable (isFinite : ν → Bool)

mutual

/-- No number is infinite, and no object has two members of one name. -/
def Strict : JsonTree ν → Prop
  | .number value => isFinite value = true
  | .array items => StrictItems items
  | .object members => (members.map Prod.fst).Nodup ∧ StrictMembers members
  | _ => True

def StrictItems : List (JsonTree ν) → Prop
  | [] => True
  | item :: items => item.Strict ∧ StrictItems items

def StrictMembers : List (List Nat × JsonTree ν) → Prop
  | [] => True
  | (_, value) :: members => value.Strict ∧ StrictMembers members

end

theorem membersDepth_eq (members : List (List Nat × JsonTree ν)) :
    membersDepth members = itemsDepth (members.map Prod.snd) := by
  induction members with
  | nil => rfl
  | cons member members ih => rw [membersDepth, List.map_cons, itemsDepth, ih]

theorem membersCount_eq (members : List (List Nat × JsonTree ν)) :
    membersCount members = itemsCount (members.map Prod.snd) := by
  induction members with
  | nil => rfl
  | cons member members ih => rw [membersCount, List.map_cons, itemsCount, ih]

theorem itemsCount_eq (items : List (JsonTree ν)) : itemsCount items = (items.map count).sum := by
  induction items with
  | nil => rfl
  | cons item items ih => rw [itemsCount, List.map_cons, List.sum_cons, ih]

theorem strictMembers_iff {members : List (List Nat × JsonTree ν)} :
    StrictMembers isFinite members ↔ StrictItems isFinite (members.map Prod.snd) := by
  induction members with
  | nil => exact Iff.rfl
  | cons member members ih => rw [StrictMembers, List.map_cons, StrictItems, ih]

/-- The members of an object that has been given them one by one: what comes later under one name
takes the place of what came before. -/
def defined {β : Type} (members : List (List Nat × β)) : List (List Nat × β) :=
  members.foldl (fun object entry => OrderedMap.putUnder entry.1 entry.2 object) []

mutual

/-- The value that `JSON.parse` gives for what is written. -/
def parsed : JsonTree ν → JsonTree ν
  | .array items => .array (parsedItems items)
  | .object members => .object (defined (parsedMembers members))
  | other => other

def parsedItems : List (JsonTree ν) → List (JsonTree ν)
  | [] => []
  | item :: items => item.parsed :: parsedItems items

def parsedMembers : List (List Nat × JsonTree ν) → List (List Nat × JsonTree ν)
  | [] => []
  | (name, value) :: members => (name, value.parsed) :: parsedMembers members

end

theorem putUnder_fresh {β : Type} {name : List Nat} {value : β} {object : List (List Nat × β)}
    (fresh : name ∉ object.map Prod.fst) : OrderedMap.putUnder name value object = object ++ [(name, value)] := by
  induction object with
  | nil => rfl
  | cons entry object ih =>
    simp only [List.map_cons, List.mem_cons, not_or] at fresh
    rw [OrderedMap.putUnder, if_neg (Ne.symm fresh.1), ih fresh.2, List.cons_append]

theorem defined_append {β : Type} {members : List (List Nat × β)} (object : List (List Nat × β))
    (once : ((object ++ members).map Prod.fst).Nodup) :
    members.foldl (fun object entry => OrderedMap.putUnder entry.1 entry.2 object) object = object ++ members := by
  induction members generalizing object with
  | nil => simp
  | cons entry members ih =>
    have fresh : entry.1 ∉ object.map Prod.fst := by
      rw [List.map_append, List.map_cons, List.nodup_middle, List.nodup_cons] at once
      exact fun member => once.1 (List.mem_append_left _ member)
    rw [List.foldl_cons, putUnder_fresh fresh]
    have split : object ++ entry :: members = object ++ [entry] ++ members := by simp
    rw [split] at once ⊢
    exact ih _ once

theorem defined_of_nodup {β : Type} {members : List (List Nat × β)}
    (once : (members.map Prod.fst).Nodup) : defined members = members :=
  defined_append [] once

variable {isFinite}

mutual

theorem parsed_of_strict : ∀ {value : JsonTree ν}, value.Strict isFinite → value.parsed = value
  | .null, _ => rfl
  | .bool _, _ => rfl
  | .number _, _ => rfl
  | .string _, _ => rfl
  | .array items, strict => by
    rw [parsed, parsedItems_of_strict strict]
  | .object members, strict => by
    rw [parsed, parsedMembers_of_strict strict.2, defined_of_nodup strict.1]

theorem parsedItems_of_strict : ∀ {items : List (JsonTree ν)}, StrictItems isFinite items → parsedItems items = items
  | [], _ => rfl
  | item :: items, strict => by
    rw [parsedItems, parsed_of_strict strict.1, parsedItems_of_strict strict.2]

theorem parsedMembers_of_strict : ∀ {members : List (List Nat × JsonTree ν)},
    StrictMembers isFinite members → parsedMembers members = members
  | [], _ => rfl
  | (_, value) :: members, strict => by
    rw [parsedMembers, parsed_of_strict strict.1, parsedMembers_of_strict strict.2]

end

end JsonTree

/-- What `JSON.parse` gives for a text. -/
def JsonParses {ν : Type} (toNumber : List Char → ν) (text : List Char) (value : JsonTree ν) : Prop :=
  ∃ written, IsDocument toNumber text written ∧ value = written.parsed

end Lobu.Foundation
