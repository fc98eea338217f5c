import Lobu.Foundation.Json
import Lobu.Foundation.Text

namespace Lobu.Foundation

/-! # What a JSON text says

A text that `JSON.stringify` writes says where it ends, so two values with one text are the
same, infinite numbers apart, which are written as `null`.  It is one line, and begins and ends
with no blank.
-/

/-- The characters of a finite number. -/
def isNumeral (c : Char) : Bool :=
  c.isDigit || c == '-' || c == '+' || c == '.' || c == 'e'

/-- How the runtime writes finite numbers: each in its own way, with a digit or a sign first. -/
structure NumberText where
  text : Rat → String
  injective : Function.Injective text
  begins : ∀ value, ∃ first rest, (text value).toList = first :: rest ∧
    (first.isDigit = true ∨ first = '-')
  numeral : ∀ value, ∀ c ∈ (text value).toList, isNumeral c = true

/-- The kind of value that a character begins. -/
def leadKind (c : Char) : Nat :=
  if c = 'n' then 0 else if c = 't' then 1 else if c = 'f' then 2 else if c = '"' then 3
  else if c = '[' then 4 else if c = '\x7b' then 5
  else if c.isDigit = true ∨ c = '-' then 6 else 7

def Json.kind : Json → Nat
  | .null => 0
  | .bool value => if value then 1 else 2
  | .string _ => 3
  | .array _ => 4
  | .object _ => 5
  | .number (.finite _) => 6
  | .number (.infinite _) => 0

variable {numbers : NumberText}

theorem kind_lt (value : Json) : value.kind < 7 := by
  cases value with
  | number number => cases number <;> simp [Json.kind]
  | bool value => cases value <;> simp [Json.kind]
  | _ => simp [Json.kind]

theorem leadKind_numeral {c : Char} (numeral : c.isDigit = true ∨ c = '-') : leadKind c = 6 := by
  have other : c ≠ 'n' ∧ c ≠ 't' ∧ c ≠ 'f' ∧ c ≠ '"' ∧ c ≠ '[' ∧ c ≠ '\x7b' := by
    refine ⟨?_, ?_, ?_, ?_, ?_, ?_⟩ <;> rintro rfl <;> revert numeral <;> decide
  simp [leadKind, other, numeral]

theorem stringify_begins (numbers : NumberText) (value : Json) :
    ∃ first rest, (stringify numbers.text value).toList = first :: rest ∧ leadKind first = value.kind := by
  cases value with
  | null =>
    refine ⟨'n', ['u', 'l', 'l'], ?_, rfl⟩
    simp only [stringify, scalarText]
    rfl
  | bool value =>
    cases value with
    | false =>
      refine ⟨'f', ['a', 'l', 's', 'e'], ?_, rfl⟩
      simp only [stringify, scalarText]
      rfl
    | true =>
      refine ⟨'t', ['r', 'u', 'e'], ?_, rfl⟩
      simp only [stringify, scalarText]
      rfl
  | number value =>
    cases value with
    | infinite negative =>
      refine ⟨'n', ['u', 'l', 'l'], ?_, rfl⟩
      simp only [stringify, scalarText]
      rfl
    | finite value =>
      obtain ⟨first, rest, text, digit⟩ := numbers.begins value
      exact ⟨first, rest, text, leadKind_numeral digit⟩
  | string text =>
    have opened : ∃ rest, (stringify numbers.text (.string text)).toList = '"' :: rest := by
      simp only [stringify, scalarText, quoted, String.toList_append]
      exact ⟨_, rfl⟩
    obtain ⟨rest, begins⟩ := opened
    exact ⟨'"', rest, begins, rfl⟩
  | array items =>
    have opened : ∃ rest, (stringify numbers.text (.array items)).toList = '[' :: rest := by
      simp only [stringify, bracketed, String.toList_append]
      exact ⟨_, rfl⟩
    obtain ⟨rest, begins⟩ := opened
    exact ⟨'[', rest, begins, rfl⟩
  | object fields =>
    have opened : ∃ rest, (stringify numbers.text (.object fields)).toList = '\x7b' :: rest := by
      simp only [stringify, braced, String.toList_append]
      exact ⟨_, rfl⟩
    obtain ⟨rest, begins⟩ := opened
    exact ⟨'\x7b', rest, begins, rfl⟩

theorem kind_of_same {value other : Json} {rest others : List Char}
    (same : (stringify numbers.text value).toList ++ rest =
      (stringify numbers.text other).toList ++ others) : value.kind = other.kind := by
  obtain ⟨first, tail, begins, kind⟩ := stringify_begins numbers value
  obtain ⟨second, more, starts, otherKind⟩ := stringify_begins numbers other
  rw [begins, starts, List.cons_append, List.cons_append, List.cons.injEq] at same
  rw [← kind, ← otherKind, same.1]

/-- What may follow a value. -/
def Ends (rest : List Char) : Prop :=
  ∀ c ∈ rest.head?, c = ',' ∨ c = ']' ∨ c = '\x7d'

theorem span_cancel {α : Type} {p : α → Bool} {first second rest others : List α}
    (inFirst : ∀ c ∈ first, p c = true) (inSecond : ∀ c ∈ second, p c = true)
    (ends : ∀ c ∈ rest.head?, p c = false) (endsToo : ∀ c ∈ others.head?, p c = false)
    (same : first ++ rest = second ++ others) : first = second ∧ rest = others := by
  have taken : ∀ {body tail : List α}, (∀ c ∈ body, p c = true) →
      (∀ c ∈ tail.head?, p c = false) → (body ++ tail).takeWhile p = body := by
    intro body tail inside outside
    rw [List.takeWhile_append_of_pos inside]
    cases tail with
    | nil => simp
    | cons c tail => simp [outside c rfl]
  have equal : first = second := by
    rw [← taken inFirst ends, same, taken inSecond endsToo]
  subst equal
  exact ⟨rfl, List.append_cancel_left same⟩

theorem number_cancel {value other : Rat} {rest others : List Char} (ends : Ends rest) (endsToo : Ends others)
    (same : (numbers.text value).toList ++ rest = (numbers.text other).toList ++ others) :
    value = other ∧ rest = others := by
  have delimiter : ∀ c, c = ',' ∨ c = ']' ∨ c = '\x7d' → isNumeral c = false := by
    rintro c (rfl | rfl | rfl) <;> decide
  obtain ⟨texts, tails⟩ := span_cancel (numbers.numeral value) (numbers.numeral other)
    (fun c member => delimiter c (ends c member)) (fun c member => delimiter c (endsToo c member))
    same
  exact ⟨numbers.injective (String.toList_inj.mp texts), tails⟩

namespace Json

mutual

/-- The value that its text stands for: an infinite number is written as `null`. -/
def written : Json → Json
  | .number (.infinite _) => .null
  | .array items => .array (writtenItems items)
  | .object fields => .object (writtenFields fields)
  | value => value

def writtenItems : List Json → List Json
  | [] => []
  | item :: items => written item :: writtenItems items

def writtenFields : List (String × Json) → List (String × Json)
  | [] => []
  | (name, value) :: fields => (name, written value) :: writtenFields fields

end

theorem writtenItems_eq (items : List Json) : writtenItems items = items.map written := by
  induction items with
  | nil => rfl
  | cons item items ih => rw [writtenItems, ih, List.map_cons]

theorem writtenFields_eq (fields : List (String × Json)) :
    writtenFields fields = fields.map fun field => (field.1, written field.2) := by
  induction fields with
  | nil => rfl
  | cons field fields ih =>
    obtain ⟨name, value⟩ := field
    rw [writtenFields, ih, List.map_cons]

end Json

theorem written_of_mem {items : List Json} {item : Json}
    (finite : Json.writtenItems items = items) (member : item ∈ items) : item.written = item := by
  rw [Json.writtenItems_eq] at finite
  have same : items.map Json.written = items.map id := by rw [finite, List.map_id]
  exact List.map_inj_left.mp same item member

theorem written_of_mem_fields {fields : List (String × Json)} {field : String × Json}
    (finite : Json.writtenFields fields = fields) (member : field ∈ fields) : field.2.written = field.2 := by
  rw [Json.writtenFields_eq] at finite
  have same : (fields.map fun field => (field.1, field.2.written)) = fields.map id := by
    rw [finite, List.map_id]
  exact congrArg Prod.snd (List.map_inj_left.mp same field member)

mutual

theorem stringify_written (numberText : Rat → String) : ∀ value : Json,
    stringify numberText value.written = stringify numberText value
  | .null => rfl
  | .bool _ => rfl
  | .string _ => rfl
  | .number (.finite _) => rfl
  | .number (.infinite _) => rfl
  | .array items => by
    rw [Json.written, stringify, stringify, stringifyItems_written numberText items]
  | .object fields => by
    rw [Json.written, stringify, stringify, stringifyFields_written numberText fields]

theorem stringifyItems_written (numberText : Rat → String) : ∀ items : List Json,
    stringifyItems numberText (Json.writtenItems items) = stringifyItems numberText items
  | [] => rfl
  | item :: items => by
    rw [Json.writtenItems, stringifyItems, stringifyItems, stringify_written numberText item,
      stringifyItems_written numberText items]

theorem stringifyFields_written (numberText : Rat → String) : ∀ fields : List (String × Json),
    stringifyFields numberText (Json.writtenFields fields) = stringifyFields numberText fields
  | [] => rfl
  | (name, value) :: fields => by
    rw [Json.writtenFields, stringifyFields, stringifyFields, stringify_written numberText value,
      stringifyFields_written numberText fields]

end

/-- The texts of a list as they stand before its closing bracket. -/
def joined : List (List Char) → List Char
  | [] => []
  | [text] => text
  | text :: more :: texts => text ++ ',' :: joined (more :: texts)

theorem toList_intercalate (texts : List String) :
    (",".intercalate texts).toList = joined (texts.map String.toList) := by
  induction texts with
  | nil => rfl
  | cons text texts ih =>
    cases texts with
    | nil => simp [joined]
    | cons more texts =>
      rw [String.intercalate_cons_cons, String.toList_append, String.toList_append, ih]
      simp [joined]

/-- What follows the first text of a list. -/
def joinedRest (texts : List (List Char)) : List Char :=
  match texts with
  | [] => []
  | _ :: _ => ',' :: joined texts

theorem joined_cons (text : List Char) (texts : List (List Char)) :
    joined (text :: texts) = text ++ joinedRest texts := by
  cases texts <;> simp [joined, joinedRest]

theorem ends_joinedRest {close : Char} (closes : close = ']' ∨ close = '\x7d')
    (texts : List (List Char)) (rest : List Char) : Ends (joinedRest texts ++ close :: rest) := by
  intro c head
  cases texts with
  | nil =>
    cases head
    exact .inr closes
  | cons text texts =>
    cases head
    exact .inl rfl

section Lists

variable {α : Type} {text : α → List Char} {close : Char}

theorem joined_cancel {items others : List α} {rest tail : List Char} (closes : close = ']' ∨ close = '\x7d')
    (begins : ∀ item, ∀ more, (text item ++ more).head? ≠ some close)
    (cancels : ∀ item ∈ items, ∀ other ∈ others, ∀ rest tail, Ends rest → Ends tail →
      text item ++ rest = text other ++ tail → item = other ∧ rest = tail)
    (same : joined (items.map text) ++ close :: rest = joined (others.map text) ++ close :: tail) :
    items = others ∧ rest = tail := by
  have comma : ',' ≠ close := by
    rcases closes with rfl | rfl <;> decide
  induction items generalizing others with
  | nil =>
    cases others with
    | nil =>
      cases same
      exact ⟨rfl, rfl⟩
    | cons other others =>
      rw [List.map_cons, joined_cons, List.append_assoc] at same
      exact absurd (congrArg List.head? same).symm (begins other _)
  | cons item items ih =>
    cases others with
    | nil =>
      rw [List.map_cons, joined_cons, List.append_assoc] at same
      exact absurd (congrArg List.head? same) (begins item _)
    | cons other others =>
      rw [List.map_cons, List.map_cons, joined_cons, joined_cons, List.append_assoc, List.append_assoc] at same
      obtain ⟨rfl, tails⟩ := cancels item List.mem_cons_self other List.mem_cons_self _ _
        (ends_joinedRest closes _ _) (ends_joinedRest closes _ _) same
      have rests : items = others ∧ rest = tail := by
        cases items with
        | nil =>
          cases others with
          | nil =>
            cases tails
            exact ⟨rfl, rfl⟩
          | cons other others =>
            have heads := congrArg List.head? tails
            simp only [List.map_nil, joinedRest, List.map_cons, List.nil_append,
              List.cons_append, List.head?_cons, Option.some.injEq] at heads
            exact absurd heads.symm comma
        | cons next items =>
          cases others with
          | nil =>
            have heads := congrArg List.head? tails
            simp only [List.map_nil, joinedRest, List.map_cons, List.nil_append,
              List.cons_append, List.head?_cons, Option.some.injEq] at heads
            exact absurd heads comma
          | cons other others =>
            apply ih
            · intro item member other present
              exact cancels item (List.mem_cons_of_mem _ member) other (List.mem_cons_of_mem _ present)
            · simpa [joinedRest] using tails
      exact ⟨by rw [rests.1], rests.2⟩

end Lists

theorem stringifyItems_eq (numberText : Rat → String) (items : List Json) :
    stringifyItems numberText items = items.map (stringify numberText) := by
  induction items with
  | nil => rfl
  | cons item items ih => rw [stringifyItems, ih, List.map_cons]

theorem stringifyFields_eq (numberText : Rat → String) (fields : List (String × Json)) :
    stringifyFields numberText fields = fields.map fun field => (field.1, stringify numberText field.2) := by
  induction fields with
  | nil => rfl
  | cons field fields ih =>
    obtain ⟨name, value⟩ := field
    rw [stringifyFields, ih, List.map_cons]

def fieldText (numberText : Rat → String) (field : String × Json) : List Char :=
  (quoted field.1 ++ ":" ++ stringify numberText field.2).toList

theorem stringify_array_toList (numberText : Rat → String) (items : List Json) :
    (stringify numberText (.array items)).toList =
      '[' :: joined (items.map fun item => (stringify numberText item).toList) ++ [']'] := by
  rw [stringify, bracketed, String.toList_append, String.toList_append, toList_intercalate,
    stringifyItems_eq, List.map_map]
  rfl

theorem stringify_object_toList (numberText : Rat → String) (fields : List (String × Json)) :
    (stringify numberText (.object fields)).toList =
      '\x7b' :: joined (fields.map (fieldText numberText)) ++ ['\x7d'] := by
  rw [stringify, braced, String.toList_append, String.toList_append, toList_intercalate,
    stringifyFields_eq, List.map_map, List.map_map]
  rfl

theorem fieldText_cancel {field other : String × Json} {rest tail : List Char}
    (value : ∀ {rest tail}, Ends rest → Ends tail → (stringify numbers.text field.2).toList ++ rest =
        (stringify numbers.text other.2).toList ++ tail → field.2 = other.2 ∧ rest = tail)
    (ends : Ends rest) (endsToo : Ends tail)
    (same : fieldText numbers.text field ++ rest = fieldText numbers.text other ++ tail) :
    field = other ∧ rest = tail := by
  simp only [fieldText, String.toList_append, List.append_assoc] at same
  obtain ⟨names, values⟩ := quoted_cancel same
  obtain ⟨equal, tails⟩ := value ends endsToo (List.append_cancel_left values)
  exact ⟨Prod.ext names equal, tails⟩

theorem head_stringify_ne {close : Char} (closes : close = ']' ∨ close = '\x7d') (value : Json)
    (more : List Char) : ((stringify numbers.text value).toList ++ more).head? ≠ some close := by
  obtain ⟨first, rest, begins, kind⟩ := stringify_begins numbers value
  rw [begins, List.cons_append, List.head?_cons]
  intro same
  have known : leadKind first = 7 := by
    rw [Option.some.inj same]
    rcases closes with rfl | rfl <;> decide
  have small := kind_lt value
  omega

theorem head_fieldText_ne {close : Char} (closes : close = ']' ∨ close = '\x7d')
    (field : String × Json) (more : List Char) : (fieldText numbers.text field ++ more).head? ≠ some close := by
  have quote : (fieldText numbers.text field ++ more).head? = some '"' := by
    simp only [fieldText, quoted, String.toList_append]
    rfl
  rw [quote]
  rintro same
  cases same
  rcases closes with same | same <;> revert same <;> decide

theorem shape_of_kind {other : Json} (finite : other.written = other) :
    (other.kind = 0 → other = .null) ∧ (∀ value, other.kind = (Json.bool value).kind → other = .bool value) ∧
    (other.kind = 3 → ∃ text, other = .string text) ∧ (other.kind = 4 → ∃ items, other = .array items) ∧
    (other.kind = 5 → ∃ fields, other = .object fields) ∧
    (other.kind = 6 → ∃ value, other = .number (.finite value)) := by
  cases other with
  | number number =>
    cases number with
    | infinite negative => contradiction
    | finite value =>
      refine ⟨?_, fun other => ?_, ?_, ?_, ?_, ?_⟩
      · simp [Json.kind]
      · cases other <;> simp [Json.kind]
      all_goals simp [Json.kind]
  | bool value =>
    refine ⟨?_, fun other => ?_, ?_, ?_, ?_, ?_⟩
    · cases value <;> simp [Json.kind]
    · cases value <;> cases other <;> simp [Json.kind]
    all_goals cases value <;> simp [Json.kind]
  | _ =>
    refine ⟨?_, fun other => ?_, ?_, ?_, ?_, ?_⟩
    · simp [Json.kind]
    · cases other <;> simp [Json.kind]
    all_goals simp [Json.kind]

mutual

theorem stringify_cancel (numbers : NumberText) : ∀ value : Json, value.written = value →
    ∀ other : Json, other.written = other → ∀ {rest tail : List Char}, Ends rest → Ends tail →
      (stringify numbers.text value).toList ++ rest =
        (stringify numbers.text other).toList ++ tail → value = other ∧ rest = tail
  | .null, _, other, finite, _, _, _, _, same => by
    obtain rfl := (shape_of_kind finite).1 (kind_of_same same).symm
    exact ⟨rfl, List.append_cancel_left same⟩
  | .bool value, _, other, finite, _, _, _, _, same => by
    obtain rfl := (shape_of_kind finite).2.1 value (kind_of_same same).symm
    exact ⟨rfl, List.append_cancel_left same⟩
  | .number (.infinite _), finite, _, _, _, _, _, _, _ => by contradiction
  | .number (.finite value), _, other, finite, _, _, ends, endsToo, same => by
    obtain ⟨number, rfl⟩ := (shape_of_kind finite).2.2.2.2.2 (kind_of_same same).symm
    simp only [stringify, scalarText] at same
    obtain ⟨rfl, tails⟩ := number_cancel ends endsToo same
    exact ⟨rfl, tails⟩
  | .string value, _, other, finite, _, _, _, _, same => by
    obtain ⟨text, rfl⟩ := (shape_of_kind finite).2.2.1 (kind_of_same same).symm
    simp only [stringify, scalarText] at same
    obtain ⟨rfl, tails⟩ := quoted_cancel same
    exact ⟨rfl, tails⟩
  | .array items, finite, other, finiteToo, _, _, _, _, same => by
    obtain ⟨others, rfl⟩ := (shape_of_kind finiteToo).2.2.2.1 (kind_of_same same).symm
    rw [stringify_array_toList, stringify_array_toList] at same
    simp only [List.cons_append, List.append_assoc, List.nil_append, List.cons.injEq, true_and] at same
    obtain ⟨rfl, tails⟩ := joined_cancel (.inl rfl) (fun item more => head_stringify_ne (.inl rfl) item more)
      (fun item member other present _ _ =>
        items_cancel numbers items (Json.array.inj finite) item member other
          (written_of_mem (Json.array.inj finiteToo) present)) same
    exact ⟨rfl, tails⟩
  | .object fields, finite, other, finiteToo, _, _, _, _, same => by
    obtain ⟨others, rfl⟩ := (shape_of_kind finiteToo).2.2.2.2.1 (kind_of_same same).symm
    rw [stringify_object_toList, stringify_object_toList] at same
    simp only [List.cons_append, List.append_assoc, List.nil_append, List.cons.injEq, true_and] at same
    obtain ⟨rfl, tails⟩ := joined_cancel (.inr rfl) (fun field more => head_fieldText_ne (.inr rfl) field more)
      (fun field member other present _ _ ends endsToo same => fieldText_cancel
        (fields_cancel numbers fields (Json.object.inj finite) field member other.2
          (written_of_mem_fields (Json.object.inj finiteToo) present)) ends endsToo same) same
    exact ⟨rfl, tails⟩

theorem items_cancel (numbers : NumberText) : ∀ items : List Json, Json.writtenItems items = items →
    ∀ item ∈ items, ∀ other : Json, other.written = other → ∀ {rest tail : List Char}, Ends rest → Ends tail →
        (stringify numbers.text item).toList ++ rest =
          (stringify numbers.text other).toList ++ tail → item = other ∧ rest = tail
  | [], _, _, member => by contradiction
  | first :: items, finite, item, member => by
    have parts := List.cons.inj finite
    rcases List.mem_cons.mp member with same | later
    · rw [same]
      exact stringify_cancel numbers first parts.1
    · exact items_cancel numbers items parts.2 item later

theorem fields_cancel (numbers : NumberText) : ∀ fields : List (String × Json), Json.writtenFields fields = fields →
    ∀ field ∈ fields, ∀ other : Json, other.written = other → ∀ {rest tail : List Char}, Ends rest → Ends tail →
        (stringify numbers.text field.2).toList ++ rest =
          (stringify numbers.text other).toList ++ tail → field.2 = other ∧ rest = tail
  | [], _, _, member => by contradiction
  | (name, value) :: fields, finite, field, member => by
    have parts := List.cons.inj finite
    rcases List.mem_cons.mp member with same | later
    · rw [same]
      exact stringify_cancel numbers value (Prod.mk.inj parts.1).2
    · exact fields_cancel numbers fields parts.2 field later

end

namespace Json

mutual

theorem written_written : ∀ value : Json, value.written.written = value.written
  | .null => rfl
  | .bool _ => rfl
  | .string _ => rfl
  | .number (.finite _) => rfl
  | .number (.infinite _) => rfl
  | .array items => by
    rw [written, written, writtenItems_written items]
  | .object fields => by
    rw [written, written, writtenFields_written fields]

theorem writtenItems_written : ∀ items : List Json, writtenItems (writtenItems items) = writtenItems items
  | [] => rfl
  | item :: items => by
    rw [writtenItems, writtenItems, written_written item, writtenItems_written items]

theorem writtenFields_written : ∀ fields : List (String × Json),
    writtenFields (writtenFields fields) = writtenFields fields
  | [] => rfl
  | (name, value) :: fields => by
    rw [writtenFields, writtenFields, written_written value, writtenFields_written fields]

end

end Json

/-- Two values have one text where they are the same, infinite numbers read as `null`. -/
theorem stringify_eq_iff (numbers : NumberText) {value other : Json} :
    stringify numbers.text value = stringify numbers.text other ↔ value.written = other.written := by
  constructor
  · intro same
    rw [← stringify_written, ← stringify_written numbers.text other] at same
    have ends : Ends [] := fun c head => by contradiction
    exact (stringify_cancel numbers value.written value.written_written other.written
      other.written_written ends ends (by rw [same])).1
  · intro same
    rw [← stringify_written, same, stringify_written]

theorem newline_not_escaped (c : Char) : '\n' ∉ (escaped c).toList := by
  unfold escaped
  split
  · decide
  split
  · decide
  split
  · decide
  split
  · decide
  split
  · decide
  split
  · decide
  split
  · decide
  split
  · have digit : ∀ value, hexDigit value ≠ '\n' := by
      intro value
      have digits : ∀ digit : Fin 16, Nat.digitChar digit.val ≠ '\n' := by decide
      exact digits ⟨value % 16, Nat.mod_lt _ (by decide)⟩
    simp [Ne.symm (digit _)]
  · rename_i other _ _ _
    simp [Ne.symm other]

theorem newline_not_quoted (text : String) : '\n' ∉ (quoted text).toList := by
  simp only [quoted, String.toList_append, String.toList_join, List.mem_append, not_or]
  refine ⟨⟨by decide, ?_⟩, by decide⟩
  intro member
  obtain ⟨_, listed, inside⟩ := List.mem_flatMap.mp member
  obtain ⟨c, _, rfl⟩ := List.mem_map.mp listed
  exact newline_not_escaped c inside

theorem newline_not_joined {texts : List (List Char)} (lines : ∀ text ∈ texts, '\n' ∉ text) :
    '\n' ∉ joined texts := by
  induction texts with
  | nil => simp [joined]
  | cons text texts ih =>
    rw [joined_cons, List.mem_append, not_or]
    refine ⟨lines text List.mem_cons_self, ?_⟩
    have rest := ih fun other member => lines other (List.mem_cons_of_mem _ member)
    cases texts with
    | nil => simp [joinedRest]
    | cons more texts =>
      rw [joinedRest, List.mem_cons, not_or]
      exact ⟨by decide, rest⟩

mutual

theorem newline_not_stringify (numbers : NumberText) : ∀ value : Json, '\n' ∉ (stringify numbers.text value).toList
  | .null => by
    simp only [stringify, scalarText]
    decide
  | .bool value => by
    cases value <;> simp only [stringify, scalarText] <;> decide
  | .string text => by
    simp only [stringify, scalarText]
    exact newline_not_quoted text
  | .number (.infinite _) => by
    simp only [stringify, scalarText]
    decide
  | .number (.finite value) => by
    simp only [stringify, scalarText]
    intro member
    exact absurd (numbers.numeral value _ member) (by decide)
  | .array items => by
    rw [stringify_array_toList, List.cons_append, List.mem_cons, List.mem_append, not_or, not_or]
    refine ⟨by decide, newline_not_joined ?_, by decide⟩
    intro text member
    obtain ⟨item, listed, rfl⟩ := List.mem_map.mp member
    exact newline_not_items numbers items item listed
  | .object fields => by
    rw [stringify_object_toList, List.cons_append, List.mem_cons, List.mem_append, not_or, not_or]
    refine ⟨by decide, newline_not_joined ?_, by decide⟩
    intro text member
    obtain ⟨field, listed, rfl⟩ := List.mem_map.mp member
    simp only [fieldText, String.toList_append, List.mem_append, not_or]
    exact ⟨⟨newline_not_quoted _, by decide⟩, newline_not_fields numbers fields field listed⟩

theorem newline_not_items (numbers : NumberText) : ∀ items : List Json, ∀ item ∈ items,
    '\n' ∉ (stringify numbers.text item).toList
  | [], _, member => by contradiction
  | first :: items, item, member => by
    rcases List.mem_cons.mp member with same | later
    · rw [same]
      exact newline_not_stringify numbers first
    · exact newline_not_items numbers items item later

theorem newline_not_fields (numbers : NumberText) : ∀ fields : List (String × Json),
    ∀ field ∈ fields, '\n' ∉ (stringify numbers.text field.2).toList
  | [], _, member => by contradiction
  | (_, value) :: fields, field, member => by
    rcases List.mem_cons.mp member with same | later
    · rw [same]
      exact newline_not_stringify numbers value
    · exact newline_not_fields numbers fields field later

end

theorem isSpace_numeral {c : Char} (numeral : isNumeral c = true) : isSpace c = false := by
  by_contra space
  rw [Bool.not_eq_false] at space
  simp only [isNumeral, Bool.or_eq_true, beq_iff_eq] at numeral
  rcases numeral with (((digit | rfl) | rfl) | rfl) | rfl
  · rw [isDigit_iff] at digit
    simp only [isSpace, Bool.or_eq_true, decide_eq_true_eq, List.contains_eq_mem,
      List.mem_cons, List.not_mem_nil, or_false] at space
    omega
  all_goals revert space; decide

theorem stringify_ends (numbers : NumberText) (value : Json) :
    ∃ front last, (stringify numbers.text value).toList = front ++ [last] ∧ isSpace last = false := by
  cases value with
  | null =>
    refine ⟨['n', 'u', 'l'], 'l', ?_, by decide⟩
    simp only [stringify, scalarText]
    rfl
  | bool value =>
    cases value with
    | false =>
      refine ⟨['f', 'a', 'l', 's'], 'e', ?_, by decide⟩
      simp only [stringify, scalarText]
      rfl
    | true =>
      refine ⟨['t', 'r', 'u'], 'e', ?_, by decide⟩
      simp only [stringify, scalarText]
      rfl
  | number value =>
    cases value with
    | infinite negative =>
      refine ⟨['n', 'u', 'l'], 'l', ?_, by decide⟩
      simp only [stringify, scalarText]
      rfl
    | finite value =>
      obtain ⟨first, rest, text, _⟩ := numbers.begins value
      have nonempty : (numbers.text value).toList ≠ [] := by simp [text]
      refine ⟨_, _, (List.dropLast_append_getLast nonempty).symm, ?_⟩
      exact isSpace_numeral (numbers.numeral value _ (List.getLast_mem nonempty))
  | string text =>
    refine ⟨('"' :: (String.join (text.toList.map escaped)).toList), '"', ?_, by decide⟩
    simp only [stringify, scalarText, quoted, String.toList_append]
    rfl
  | array items => exact ⟨_, ']', stringify_array_toList numbers.text items, by decide⟩
  | object fields => exact ⟨_, '\x7d', stringify_object_toList numbers.text fields, by decide⟩

theorem isSpace_of_leadKind {c : Char} (known : leadKind c < 7) : isSpace c = false := by
  unfold leadKind at known
  split at known
  · subst_vars; decide
  split at known
  · subst_vars; decide
  split at known
  · subst_vars; decide
  split at known
  · subst_vars; decide
  split at known
  · subst_vars; decide
  split at known
  · subst_vars; decide
  split at known
  · rename_i numeral
    apply isSpace_numeral
    rcases numeral with digit | rfl
    · simp [isNumeral, digit]
    · decide
  · omega

/-- `text.trim()` leaves a text alone that neither begins nor ends with a blank. -/
theorem trim_eq_self {text : List Char} (begins : ∀ c ∈ text.head?, isSpace c = false)
    (ends : ∀ c ∈ text.getLast?, isSpace c = false) : trim text = text := by
  have started : trimStart text = text := by
    cases text with
    | nil => rfl
    | cons first rest =>
      rw [trimStart, List.dropWhile_cons_of_neg]
      simp [begins first rfl]
  rw [trim, started, trimEnd, List.rdropWhile_eq_self_iff]
  intro nonempty
  rw [ends _ (List.getLast?_eq_some_getLast nonempty)]
  decide

theorem trim_stringify (numbers : NumberText) (value : Json) :
    trim (stringify numbers.text value).toList = (stringify numbers.text value).toList := by
  obtain ⟨first, rest, begins, kind⟩ := stringify_begins numbers value
  obtain ⟨front, last, ends, letter⟩ := stringify_ends numbers value
  apply trim_eq_self
  · intro c head
    rw [begins, List.head?_cons, Option.mem_some_iff] at head
    rw [← head]
    exact isSpace_of_leadKind (by rw [kind]; exact kind_lt value)
  · intro c tail
    rw [ends, List.getLast?_append, List.getLast?_singleton, Option.some_or, Option.mem_some_iff] at tail
    rw [← tail]
    exact letter

def digitsOf (number : Nat) : List Char := Nat.toDigits 10 number

theorem digitsOf_isDigit {number : Nat} : ∀ c ∈ digitsOf number, c.isDigit = true :=
  fun _ member => Nat.isDigit_of_mem_toDigits (by decide) (by decide) member

theorem digitsOf_injective {number other : Nat} (same : digitsOf number = digitsOf other) : number = other := by
  have back : ∀ number, Nat.ofDigitChars 10 (digitsOf number) 0 = number :=
    fun number => Nat.ofDigitChars_toDigits (by decide) (by decide)
  rw [← back number, same, back]

def signOf (value : Rat) : List Char := if value.num < 0 then ['-'] else []

def denominatorText (value : Rat) : List Char :=
  if value.den = 1 then [] else 'e' :: digitsOf value.den

theorem digitsOf_begins (number : Nat) (rest : List Char) :
    ∀ c ∈ (digitsOf number ++ rest).head?, c.isDigit = true := by
  intro c head
  cases digits : digitsOf number with
  | nil => exact absurd digits Nat.toDigits_ne_nil
  | cons first more =>
    rw [digits] at head
    cases head
    exact digitsOf_isDigit c (by rw [digits]; exact List.mem_cons_self)

/-- Whole numbers in decimal, and the others by numerator and denominator. -/
def wholeNumbers : NumberText where
  text value := String.ofList (signOf value ++ (digitsOf value.num.natAbs ++ denominatorText value))
  injective := by
    intro value other same
    have texts := String.ofList_inj.mp same
    have hyphen : ∀ (number : Rat), ∀ c ∈ signOf number, (c == '-') = true := by
      intro number c member
      unfold signOf at member
      split at member <;> simp_all
    have plain : ∀ (number : Nat) rest, ∀ c ∈ (digitsOf number ++ rest).head?, (c == '-') = false := by
      intro number rest c head
      have digit := digitsOf_begins number rest c head
      rw [beq_eq_false_iff_ne]
      rintro rfl
      revert digit
      decide
    obtain ⟨signs, texts⟩ := span_cancel (hyphen value) (hyphen other) (plain _ _) (plain _ _) texts
    have letter : ∀ number : Rat, ∀ c ∈ (denominatorText number).head?, c.isDigit = false := by
      intro number c head
      unfold denominatorText at head
      split at head
      · contradiction
      · cases head
        decide
    obtain ⟨digits, texts⟩ :=
      span_cancel digitsOf_isDigit digitsOf_isDigit (letter value) (letter other) texts
    have size := digitsOf_injective digits
    have numerators : value.num = other.num := by
      unfold signOf at signs
      split at signs <;> split at signs
      · omega
      · contradiction
      · contradiction
      · omega
    have denominators : value.den = other.den := by
      unfold denominatorText at texts
      split at texts <;> split at texts
      · omega
      · contradiction
      · contradiction
      · exact digitsOf_injective (List.cons.inj texts).2
    exact Rat.ext numerators denominators
  begins value := by
    rw [String.toList_ofList]
    unfold signOf
    split
    · exact ⟨'-', _, rfl, .inr rfl⟩
    · cases digits : digitsOf value.num.natAbs with
      | nil => exact absurd digits Nat.toDigits_ne_nil
      | cons first more =>
        have listed : first ∈ digitsOf value.num.natAbs := by
          rw [digits]
          exact List.mem_cons_self
        exact ⟨first, _, rfl, .inl (digitsOf_isDigit first listed)⟩
  numeral value c member := by
    have digit : ∀ number : Nat, c ∈ digitsOf number → isNumeral c = true := by
      intro number member
      simp [isNumeral, digitsOf_isDigit c member]
    rw [String.toList_ofList, List.mem_append, List.mem_append] at member
    rcases member with sign | digits | denominator
    · unfold signOf at sign
      split at sign <;> simp_all [isNumeral]
    · exact digit _ digits
    · unfold denominatorText at denominator
      split at denominator
      · contradiction
      · rcases List.mem_cons.mp denominator with rfl | digits
        · decide
        · exact digit _ digits

example : wholeNumbers.text (-12) = "-12" := by decide +kernel

end Lobu.Foundation
