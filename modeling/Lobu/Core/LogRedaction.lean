import Lobu.Core.Sanitize

namespace Lobu.Core

open Lobu.Foundation

/-! # What the log shows

Nothing under a sensitive key is shown but a mark, and everything else as it is or not at all.
-/

section Shown

variable (sensitive : String → Bool)

mutual

/-- The second value is the first one redacted, with keys left out or none. -/
def Redacted : LogValue → LogValue → Prop
  | .array _ items, shown => ∃ identity outs, shown = .array identity outs ∧
      RedactedItems 0 items outs
  | .object _ fields, shown => ∃ identity outs, shown = .object identity outs ∧
      ∀ member ∈ outs, RedactedMember fields member
  | value, shown => shown = value

def RedactedItems (index : Nat) : List LogValue → List LogValue → Prop
  | [], outs => outs = []
  | value :: items, outs => ∃ first rest, outs = first :: rest ∧
      (if sensitive (toString index) = true then first = redacted value else Redacted value first) ∧
      RedactedItems (index + 1) items rest

/-- One of the fields is what the member shows. -/
def RedactedMember : List (String × LogValue) → String × LogValue → Prop
  | [], _ => False
  | (key, value) :: fields, member =>
    (member.1 = key ∧
      if sensitive key = true then member.2 = redacted value else Redacted value member.2) ∨
    RedactedMember fields member

end

/-- A value that its mark would change. -/
def isTelling : LogValue → Bool
  | .null => false
  | .string text => redactedText text != text
  | _ => true

mutual

/-- A key somewhere in the value is sensitive and has a telling value. -/
def holdsSecret : LogValue → Bool
  | .array _ items => secretInItems 0 items
  | .object _ fields => secretInFields fields
  | _ => false

def secretInItems (index : Nat) : List LogValue → Bool
  | [] => false
  | value :: items =>
    (if sensitive (toString index) then isTelling value else holdsSecret value) ||
      secretInItems (index + 1) items

def secretInFields : List (String × LogValue) → Bool
  | [] => false
  | (key, value) :: fields =>
    (if sensitive key then isTelling value else holdsSecret value) || secretInFields fields

end

mutual

/-- An array or object at the greatest depth, of those that are not redacted or dropped above, holds a
secret. -/
def holdsDeepSecret (depth : Nat) : LogValue → Bool
  | .array _ items =>
    if maxSanitizeDepth ≤ depth then secretInItems sensitive 0 items
    else deepSecretInItems depth 0 items
  | .object _ fields =>
    if maxSanitizeDepth ≤ depth then secretInFields sensitive fields
    else deepSecretInFields depth fields
  | _ => false

def deepSecretInItems (depth index : Nat) : List LogValue → Bool
  | [] => false
  | value :: items =>
    (!sensitive (toString index) && holdsDeepSecret (depth + 1) value) ||
      deepSecretInItems depth (index + 1) items

def deepSecretInFields (depth : Nat) : List (String × LogValue) → Bool
  | [] => false
  | (key, value) :: fields =>
    (!isDropped key && !sensitive key && holdsDeepSecret (depth + 1) value) ||
      deepSecretInFields depth fields

end

variable {sensitive}

theorem redactedMember_iff {fields : List (String × LogValue)} (once : (fields.map Prod.fst).Nodup)
    {key : String} {value shown : LogValue} (member : (key, value) ∈ fields) :
    RedactedMember sensitive fields (key, shown) ↔
      if sensitive key = true then shown = redacted value else Redacted sensitive value shown := by
  induction fields with
  | nil => cases member
  | cons field fields ih =>
    obtain ⟨first, held⟩ := field
    simp only [List.map_cons, List.nodup_cons] at once
    have elsewhere : ∀ fields : List (String × LogValue), key ∉ fields.map Prod.fst →
        ¬ RedactedMember sensitive fields (key, shown) := by
      intro fields absent shows
      induction fields with
      | nil => exact shows
      | cons field fields ihThere =>
        simp only [List.map_cons, List.mem_cons, not_or] at absent
        rcases shows with ⟨same, -⟩ | later
        · exact absent.1 same
        · exact ihThere absent.2 later
    rw [RedactedMember]
    rcases List.mem_cons.mp member with same | later
    · obtain ⟨rfl, rfl⟩ := Prod.mk.inj same
      simp only [true_and]
      exact or_iff_left (elsewhere fields once.1)
    · have apart : key ≠ first := by
        rintro rfl
        exact once.1 (List.mem_map_of_mem later)
      rw [ih once.2 later]
      simp [apart]

theorem isTelling_iff (value : LogValue) : value = redacted value ↔ isTelling value = false := by
  cases value with
  | null => simp [redacted, isTelling]
  | string text =>
    simp only [redacted, isTelling, LogValue.string.injEq, bne_eq_false_iff_eq]
    exact eq_comm
  | _ => simp [redacted, isTelling]

def ShownUnder (sensitive : String → Bool) (key : String) (value shown : LogValue) : Prop :=
  if sensitive key = true then shown = redacted value else Redacted sensitive value shown

theorem redacted_array_iff {identity : Nat} {items outs : List LogValue} :
    Redacted sensitive (.array identity items) (.array identity outs) ↔ RedactedItems sensitive 0 items outs := by
  rw [Redacted]
  constructor
  · rintro ⟨_, shown, same, inner⟩
    cases same
    exact inner
  · exact fun inner => ⟨identity, outs, rfl, inner⟩

theorem redacted_object_iff {identity : Nat} {fields outs : List (String × LogValue)} :
    Redacted sensitive (.object identity fields) (.object identity outs) ↔
      ∀ member ∈ outs, RedactedMember sensitive fields member := by
  rw [Redacted]
  constructor
  · rintro ⟨_, shown, same, inner⟩
    cases same
    exact inner
  · exact fun inner => ⟨identity, outs, rfl, inner⟩

theorem redactedItems_cons_iff {index : Nat} {value first : LogValue} {items rest : List LogValue} :
    RedactedItems sensitive index (value :: items) (first :: rest) ↔
      ShownUnder sensitive (toString index) value first ∧ RedactedItems sensitive (index + 1) items rest := by
  rw [RedactedItems]
  constructor
  · rintro ⟨_, _, same, shows, inner⟩
    cases same
    exact ⟨shows, inner⟩
  · exact fun ⟨shows, inner⟩ => ⟨first, rest, rfl, shows, inner⟩

theorem shownUnder_self_iff {key : String} {value : LogValue}
    (inner : Redacted sensitive value value ↔ holdsSecret sensitive value = false) :
    ShownUnder sensitive key value value ↔
      (if sensitive key then isTelling value else holdsSecret sensitive value) = false := by
  rw [ShownUnder]
  split
  · exact isTelling_iff value
  · exact inner

mutual

theorem redacted_self_iff : ∀ value : LogValue, KeysOnce value →
    (Redacted sensitive value value ↔ holdsSecret sensitive value = false)
  | .array identity items, once => by
    rw [redacted_array_iff, holdsSecret]
    exact redactedItems_self_iff items 0 once
  | .object identity fields, once => by
    rw [redacted_object_iff, holdsSecret, ← redactedFields_self_iff fields once.2]
    exact forall₂_congr fun member present => redactedMember_iff once.1 present
  | .null, _ => by simp [Redacted, holdsSecret]
  | .bool _, _ => by simp [Redacted, holdsSecret]
  | .number _, _ => by simp [Redacted, holdsSecret]
  | .string _, _ => by simp [Redacted, holdsSecret]

theorem redactedItems_self_iff : ∀ (items : List LogValue) (index : Nat), KeysOnceInItems items →
    (RedactedItems sensitive index items items ↔ secretInItems sensitive index items = false)
  | [], index, _ => by simp [RedactedItems, secretInItems]
  | value :: items, index, once => by
    rw [redactedItems_cons_iff, secretInItems, Bool.or_eq_false_iff,
      shownUnder_self_iff (redacted_self_iff value once.1),
      redactedItems_self_iff items (index + 1) once.2]

theorem redactedFields_self_iff : ∀ fields : List (String × LogValue), KeysOnceInFields fields →
    ((∀ member ∈ fields, ShownUnder sensitive member.1 member.2 member.2) ↔ secretInFields sensitive fields = false)
  | [], _ => by simp [secretInFields]
  | (key, value) :: fields, once => by
    rw [List.forall_mem_cons, secretInFields, Bool.or_eq_false_iff,
      shownUnder_self_iff (redacted_self_iff value once.1),
      redactedFields_self_iff fields once.2]

end

theorem mem_sanitizeTreeFields {depth : Nat} {fields : List (String × LogValue)} {member : String × LogValue} :
    member ∈ sanitizeTreeFields sensitive depth fields ↔
      ∃ field ∈ fields, isDropped field.1 = false ∧ member = (field.1,
        if sensitive field.1 then redacted field.2 else sanitizeTree sensitive (depth + 1) field.2) := by
  induction fields with
  | nil => simp [sanitizeTreeFields]
  | cons field fields ih =>
    obtain ⟨key, value⟩ := field
    rw [sanitizeTreeFields]
    cases dropped : isDropped key with
    | true => simp [ih, dropped]
    | false => simp [ih, dropped]

theorem shownUnder_tree_iff {key : String} {value : LogValue} {depth : Nat}
    (inner : Redacted sensitive value (sanitizeTree sensitive (depth + 1) value) ↔
      holdsDeepSecret sensitive (depth + 1) value = false) :
    ShownUnder sensitive key value
        (if sensitive key then redacted value else sanitizeTree sensitive (depth + 1) value) ↔
      (!sensitive key && holdsDeepSecret sensitive (depth + 1) value) = false := by
  rw [ShownUnder]
  cases secret : sensitive key with
  | true => simp
  | false => simpa using inner

mutual

theorem redacted_tree_iff : ∀ (value : LogValue) (depth : Nat), KeysOnce value →
    (Redacted sensitive value (sanitizeTree sensitive depth value) ↔ holdsDeepSecret sensitive depth value = false)
  | .array identity items, depth, once => by
    rw [sanitizeTree, holdsDeepSecret]
    split
    · exact redacted_self_iff (.array identity items) once
    · rw [redacted_array_iff]
      exact redactedItems_tree_iff items depth 0 once
  | .object identity fields, depth, once => by
    rw [sanitizeTree, holdsDeepSecret]
    split
    · exact redacted_self_iff (.object identity fields) once
    · rw [redacted_object_iff, ← redactedFields_tree_iff fields depth once.2]
      constructor
      · intro shows field present kept
        have shown := shows _ (mem_sanitizeTreeFields.mpr ⟨field, present, kept, rfl⟩)
        exact (redactedMember_iff once.1 present).mp shown
      · rintro shows member shown
        obtain ⟨field, present, kept, rfl⟩ := mem_sanitizeTreeFields.mp shown
        exact (redactedMember_iff once.1 present).mpr (shows field present kept)
  | .null, _, _ => by simp [Redacted, sanitizeTree, holdsDeepSecret]
  | .bool _, _, _ => by simp [Redacted, sanitizeTree, holdsDeepSecret]
  | .number _, _, _ => by simp [Redacted, sanitizeTree, holdsDeepSecret]
  | .string _, _, _ => by simp [Redacted, sanitizeTree, holdsDeepSecret]

theorem redactedItems_tree_iff : ∀ (items : List LogValue) (depth index : Nat),
    KeysOnceInItems items → (RedactedItems sensitive index items (sanitizeTreeItems sensitive depth index items) ↔
      deepSecretInItems sensitive depth index items = false)
  | [], depth, index, _ => by simp [RedactedItems, sanitizeTreeItems, deepSecretInItems]
  | value :: items, depth, index, once => by
    rw [sanitizeTreeItems, redactedItems_cons_iff, deepSecretInItems, Bool.or_eq_false_iff,
      shownUnder_tree_iff (redacted_tree_iff value (depth + 1) once.1),
      redactedItems_tree_iff items depth (index + 1) once.2]

theorem redactedFields_tree_iff : ∀ (fields : List (String × LogValue)) (depth : Nat), KeysOnceInFields fields →
    ((∀ field ∈ fields, isDropped field.1 = false → ShownUnder sensitive field.1 field.2
      (if sensitive field.1 then redacted field.2 else sanitizeTree sensitive (depth + 1) field.2)) ↔
      deepSecretInFields sensitive depth fields = false)
  | [], depth, _ => by simp [deepSecretInFields]
  | (key, value) :: fields, depth, once => by
    rw [List.forall_mem_cons, deepSecretInFields, Bool.or_eq_false_iff,
      shownUnder_tree_iff (redacted_tree_iff value (depth + 1) once.1),
      redactedFields_tree_iff fields depth once.2]
    refine and_congr ?_ Iff.rfl
    cases dropped : isDropped key <;> simp

end

theorem redacted_inner_iff {value : LogValue} (json : IsJson value) :
    Redacted sensitive value (sanitizeInner sensitive [] 0 value).1 ↔ holdsDeepSecret sensitive 0 value = false := by
  rw [(sanitizeInner_tree sensitive value [] 0 json.tree fun _ _ => List.not_mem_nil).value]
  exact redacted_tree_iff value 0 json.keys

/-- What `sanitizeForLogging` gives for a JSON value is the value redacted just where no secret lies
in what is eight levels down. -/
theorem sanitized_iff (lower : String → String) (additionalSensitiveKeys : List String)
    {value : LogValue} (json : IsJson value) :
    Redacted (isSensitive lower additionalSensitiveKeys) value
        (sanitizeForLogging lower additionalSensitiveKeys value) ↔
      holdsDeepSecret (isSensitive lower additionalSensitiveKeys) 0 value = false :=
  redacted_inner_iff json

/-- An object of one key, so many levels down. -/
def nested : Nat → LogValue → LogValue
  | 0, value => value
  | levels + 1, value => .object levels [("inner", nested levels value)]

def asciiLower (text : String) : String := text.map Char.toLower

/-- The token is eight levels below the top. -/
def deepToken : LogValue := nested 8 (.object 8 [("token", .string "abc")])

theorem deep_token_shown : ¬ ∀ value : LogValue, IsJson value →
    Redacted (isSensitive asciiLower []) value (sanitizeForLogging asciiLower [] value) := by
  intro redacts
  have json : IsJson deepToken := by
    constructor
    · decide
    · simp [deepToken, nested, KeysOnce, KeysOnceInFields]
  have safe := (redacted_inner_iff json).mp (redacts deepToken json)
  have secret : holdsDeepSecret (isSensitive asciiLower []) 0 deepToken = true := by decide +kernel
  rw [secret] at safe
  cases safe

def login : LogValue :=
  .object 0 [("user", .string "ada"), ("apiKey", .string "abc"),
    ("roles", .array 1 [.string "admin", .object 2 [("token", .bool true)]])]

theorem sanitized_login : Redacted (isSensitive asciiLower ["user"]) login
    (sanitizeForLogging asciiLower ["user"] login) := by
  refine (sanitized_iff asciiLower ["user"] ⟨?_, ?_⟩).mpr ?_
  · decide
  · simp [login, KeysOnce, KeysOnceInItems, KeysOnceInFields]
  · decide +kernel

end Shown

end Lobu.Core
