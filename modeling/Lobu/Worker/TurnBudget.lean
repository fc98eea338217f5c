import Lobu.Worker.TurnController

namespace Lobu.Worker

open Lobu.Foundation

/-! # The tool budget of a turn

Calls are counted by the text of their arguments.  The text forgets the order of keys, every
property called `__proto__`, and which numbers are infinite; nothing else is forgotten.
-/

mutual

/-- The part of a value that its key depends on. -/
def kept : Json → Json
  | .number (.infinite _) => .null
  | .array items => .array (keptItems items)
  | .object fields => .object (keptFields fields)
  | value => value

def keptItems : List Json → List Json
  | [] => []
  | item :: items => kept item :: keptItems items

def keptFields : List (String × Json) → List (String × Json)
  | [] => []
  | (name, value) :: fields =>
    if name = "__proto__" then keptFields fields else (name, kept value) :: keptFields fields

end

mutual

/-- No object in the value has a property called `__proto__`, and no number is infinite. -/
def isPlain : Json → Bool
  | .number (.infinite _) => false
  | .array items => arePlain items
  | .object fields => haveOnlyPlain fields
  | _ => true

def arePlain : List Json → Bool
  | [] => true
  | item :: items => isPlain item && arePlain items

def haveOnlyPlain : List (String × Json) → Bool
  | [] => true
  | (name, value) :: fields => name != "__proto__" && isPlain value && haveOnlyPlain fields

end

def isOrdinary (field : String × Json) : Bool := decide (field.1 ≠ "__proto__")

theorem keptItems_eq (items : List Json) : keptItems items = items.map kept := by
  induction items with
  | nil => rfl
  | cons item items ih => rw [keptItems, ih, List.map_cons]

theorem keptFields_eq (fields : List (String × Json)) :
    keptFields fields = mapValues kept (fields.filter isOrdinary) := by
  induction fields with
  | nil => rfl
  | cons field fields ih =>
    obtain ⟨name, value⟩ := field
    rw [keptFields]
    by_cases proto : name = "__proto__" <;> simp [proto, ih, isOrdinary, mapValues]

mutual

theorem kept_of_plain : ∀ value : Json, isPlain value = true → kept value = value
  | .null, _ => rfl
  | .bool _, _ => rfl
  | .string _, _ => rfl
  | .number (.finite _), _ => rfl
  | .number (.infinite _), plain => by contradiction
  | .array items, plain => by
    rw [isPlain] at plain
    rw [kept, keptItems_of_plain items plain]
  | .object fields, plain => by
    rw [isPlain] at plain
    rw [kept, keptFields_of_plain fields plain]

theorem keptItems_of_plain : ∀ items : List Json, arePlain items = true → keptItems items = items
  | [], _ => rfl
  | item :: items, plain => by
    rw [arePlain, Bool.and_eq_true] at plain
    rw [keptItems, kept_of_plain item plain.1, keptItems_of_plain items plain.2]

theorem keptFields_of_plain : ∀ fields : List (String × Json), haveOnlyPlain fields = true →
    keptFields fields = fields
  | [], _ => rfl
  | (name, value) :: fields, plain => by
    rw [haveOnlyPlain, Bool.and_eq_true, Bool.and_eq_true, bne_iff_ne] at plain
    rw [keptFields, if_neg plain.1.1, kept_of_plain value plain.1.2, keptFields_of_plain fields plain.2]

end

theorem filter_isOrdinary_mapValues (change : Json → Json) (fields : List (String × Json)) :
    (mapValues change fields).filter isOrdinary = mapValues change (fields.filter isOrdinary) := by
  rw [mapValues, List.filter_map]
  rfl

theorem namesOnce_kept {value : Json} (once : value.namesOnce = true) : (kept value).namesOnce = true := by
  induction value using Json.induct with
  | number number => cases number <;> rfl
  | array items ih =>
    rw [Json.namesOnce, Json.namesOnceItems_iff] at once
    rw [kept, keptItems_eq, Json.namesOnce, Json.namesOnceItems_iff]
    intro item member
    obtain ⟨source, listed, rfl⟩ := List.mem_map.mp member
    exact ih source listed (once source listed)
  | object fields ih =>
    rw [Json.namesOnce_object] at once
    rw [kept, keptFields_eq, Json.namesOnce_object, names_mapValues]
    refine ⟨once.1.sublist (List.filter_sublist.map Prod.fst), ?_⟩
    intro field member
    obtain ⟨source, listed, rfl⟩ := List.mem_map.mp member
    have present := List.mem_of_mem_filter listed
    exact ih source present (once.2 source present)
  | _ => rfl

theorem kept_canonicalize {value : Json} (once : value.namesOnce = true) :
    kept value.canonicalize = (kept value).canonicalize := by
  induction value using Json.induct with
  | number number => cases number <;> rfl
  | array items ih =>
    rw [Json.namesOnce, Json.namesOnceItems_iff] at once
    simp only [Json.canonicalize, Json.canonicalizeItems_eq, kept, keptItems_eq, List.map_map, Json.array.injEq]
    exact List.map_congr_left fun item member => ih item member (once item member)
  | object fields ih =>
    rw [Json.namesOnce_object] at once
    have names : ((mapValues Json.canonicalize fields).map Prod.fst).Nodup := by
      rw [names_mapValues]
      exact once.1
    have values : mapValues kept (mapValues Json.canonicalize (fields.filter isOrdinary)) =
        mapValues Json.canonicalize (mapValues kept (fields.filter isOrdinary)) := by
      simp only [mapValues, List.map_map]
      refine List.map_congr_left fun field member => Prod.ext rfl ?_
      have present := List.mem_of_mem_filter member
      exact ih field present (once.2 field present)
    rw [Json.canonicalize_fields, kept, kept, keptFields_eq, keptFields_eq,
      Json.canonicalize_fields, filter_sortFields names, filter_isOrdinary_mapValues, ← sortFields_mapValues, values]
  | _ => rfl

theorem setField_of_absent {name : String} {fields : List (String × Json)} (value : Json)
    (absent : name ∉ fields.map Prod.fst) : Json.setField name value fields = fields ++ [(name, value)] := by
  induction fields with
  | nil => rfl
  | cons field fields ih =>
    rw [List.map_cons, List.mem_cons, not_or] at absent
    rw [Json.setField, if_neg (Ne.symm absent.1), ih absent.2, List.cons_append]

/-- The loop stopped the sorted keys leaves out `__proto__`. -/
theorem foldl_assign {fields done : List (String × Json)} (once : ((done ++ fields).map Prod.fst).Nodup) :
    fields.foldl assign done = done ++ fields.filter isOrdinary := by
  induction fields generalizing done with
  | nil => simp
  | cons field fields ih =>
    have shorter : ((done ++ fields).map Prod.fst).Nodup := by
      refine once.sublist (List.Sublist.map Prod.fst ?_)
      exact (List.Sublist.refl done).append (List.sublist_cons_self field fields)
    rw [List.foldl_cons, assign]
    by_cases proto : field.1 = "__proto__"
    · rw [if_pos proto, ih shorter]
      simp [isOrdinary, proto]
    · have absent : field.1 ∉ done.map Prod.fst := by
        rw [List.map_append, List.map_cons] at once
        intro member
        exact (List.nodup_append.mp once).2.2 _ member _ List.mem_cons_self rfl
      rw [if_neg proto, setField_of_absent _ absent, ih (by simpa using once)]
      simp [isOrdinary, proto]

theorem sortedCopy_eq {fields : List (String × Json)} (once : (fields.map Prod.fst).Nodup) :
    sortedCopy fields = inPropertyOrder (sortFields (fields.filter isOrdinary)) := by
  have sorted : ((sortFields fields).map Prod.fst).Nodup :=
    ((sortFields_perm fields).map Prod.fst).nodup_iff.mpr once
  rw [sortedCopy, foldl_assign (by simpa using sorted), List.nil_append, filter_sortFields once]

theorem replacedItems_eq (items : List Json) : replacedItems items = items.map replaced := by
  induction items with
  | nil => rfl
  | cons item items ih => rw [replacedItems, ih, List.map_cons]

theorem replacedFields_eq (fields : List (String × Json)) : replacedFields fields = mapValues replaced fields := by
  induction fields with
  | nil => rfl
  | cons field fields ih =>
    obtain ⟨name, value⟩ := field
    rw [replacedFields, ih]
    rfl

/-- What is written is the kept part of the value in its canonical form, its properties then in
their own order. -/
theorem written_replaced {value : Json} (once : value.namesOnce = true) :
    (replaced value).written = (kept value).canonicalize.propertyOrdered := by
  induction value using Json.induct with
  | number number => cases number <;> rfl
  | array items ih =>
    rw [Json.namesOnce, Json.namesOnceItems_iff] at once
    simp only [replaced, replacedItems_eq, Json.written, Json.writtenItems_eq, kept, keptItems_eq,
      Json.canonicalize, Json.canonicalizeItems_eq, Json.propertyOrdered,
      Json.propertyOrderedItems_eq, List.map_map, Json.array.injEq]
    exact List.map_congr_left fun item member => ih item member (once item member)
  | object fields ih =>
    rw [Json.namesOnce_object] at once
    have names : ((mapValues replaced fields).map Prod.fst).Nodup := by
      rw [names_mapValues]
      exact once.1
    have values : mapValues Json.written (mapValues replaced (fields.filter isOrdinary)) =
        mapValues Json.propertyOrdered (mapValues Json.canonicalize
          (mapValues kept (fields.filter isOrdinary))) := by
      simp only [mapValues, List.map_map]
      refine List.map_congr_left fun field member => Prod.ext rfl ?_
      have present := List.mem_of_mem_filter member
      exact ih field present (once.2 field present)
    have written : ∀ fields : List (String × Json), Json.writtenFields fields =
        mapValues Json.written fields := Json.writtenFields_eq
    rw [replaced, replacedFields_eq, sortedCopy_eq names, filter_isOrdinary_mapValues, Json.written, written,
      ← inPropertyOrder_mapValues, ← sortFields_mapValues, values, kept, keptFields_eq,
      Json.canonicalize_fields, Json.propertyOrdered_fields, sortFields_mapValues]
  | _ => rfl

/-- Calls of one tool whose arguments are equal up to the order of keys at any depth. -/
def ToolCall.Alike (first second : ToolCall) : Prop :=
  first.toolName = second.toolName ∧
    first.args.map (fun args => args.value.canonicalize) =
      second.args.map fun args => args.value.canonicalize

instance : DecidableRel ToolCall.Alike := fun first second =>
  inferInstanceAs (Decidable (first.toolName = second.toolName ∧
    first.args.map (fun args => args.value.canonicalize) =
      second.args.map fun args => args.value.canonicalize))

/-- Calls that are counted together. -/
def ToolCall.CountedAlike (first second : ToolCall) : Prop :=
  first.toolName = second.toolName ∧
    first.args.map (fun args => (kept args.value).canonicalize) =
      second.args.map fun args => (kept args.value).canonicalize

/-- The arguments lose nothing in the key. -/
def ToolCall.isPlain (call : ToolCall) : Bool :=
  call.args.all fun args => Lobu.Worker.isPlain args.value

theorem stringify_ne_undefined (numbers : NumberText) (value : Json) :
    stringify numbers.text value ≠ "undefined" := by
  intro same
  obtain ⟨first, rest, begins, kind⟩ := stringify_begins numbers value
  have letter : first = 'u' := by
    rw [same] at begins
    exact (List.cons.inj begins).1.symm
  have small := kind_lt value
  rw [← kind, letter] at small
  revert small
  decide

theorem stableArgsKey_eq_iff (numbers : NumberText) (first second : Option Arguments) :
    stableArgsKey numbers first = stableArgsKey numbers second ↔
      first.map (fun args => (kept args.value).canonicalize) =
        second.map fun args => (kept args.value).canonicalize := by
  cases first with
  | none =>
    cases second with
    | none => simp
    | some second => simp [stableArgsKey, (stringify_ne_undefined numbers _).symm]
  | some first =>
    cases second with
    | none => simp [stableArgsKey, stringify_ne_undefined numbers]
    | some second =>
      simp only [stableArgsKey, Option.map_some, Option.some.injEq]
      rw [stringify_eq_iff, written_replaced first.once, written_replaced second.once]
      constructor
      · intro same
        have settled : ∀ args : Arguments, (kept args.value).canonicalize.propertyOrdered.canonicalize =
              (kept args.value).canonicalize := by
          intro args
          rw [Json.canonicalize_propertyOrdered (Json.namesOnce_canonicalize (namesOnce_kept args.once)),
            Json.canonicalize_canonicalize]
        rw [← settled first, same, settled second]
      · intro same
        rw [same]

theorem callKey_eq_iff (numbers : NumberText) (first second : ToolCall) :
    callKey numbers first = callKey numbers second ↔ first.CountedAlike second := by
  rw [callKey, callKey, stringify_eq_iff]
  simp only [Json.written, Json.writtenItems, Json.array.injEq, List.cons.injEq, Json.string.injEq, and_true]
  rw [stableArgsKey_eq_iff]
  rfl

theorem ToolCall.Alike.counted {first second : ToolCall} (alike : first.Alike second) :
    first.CountedAlike second := by
  refine ⟨alike.1, ?_⟩
  have keptSame : ∀ args : Arguments, (kept args.value).canonicalize = kept args.value.canonicalize :=
    fun args => (kept_canonicalize args.once).symm
  simp only [keptSame]
  have mapped := congrArg (Option.map kept) alike.2
  simpa only [Option.map_map, Function.comp_def] using mapped

theorem alike_of_counted {first second : ToolCall} (plain : first.isPlain = true)
    (plainToo : second.isPlain = true) (counted : first.CountedAlike second) : first.Alike second := by
  have keptWhole : ∀ call : ToolCall, call.isPlain = true →
      call.args.map (fun args => (kept args.value).canonicalize) =
        call.args.map fun args => args.value.canonicalize := by
    intro call plain
    cases given : call.args with
    | none => rfl
    | some args =>
      simp only [ToolCall.isPlain, given, Option.all_some] at plain
      rw [Option.map_some, Option.map_some, kept_of_plain args.value plain]
  refine ⟨counted.1, ?_⟩
  rw [← keptWhole first plain, ← keptWhole second plainToo]
  exact counted.2

section Budget

variable {numbers : NumberText} {options : TurnControllerOptions}

/-- The calls of one class whose bodies were started. -/
def executedUnder (numbers : NumberText) (state : TurnState) (key : String) : Nat :=
  state.executed.countP fun call => decide (callKey numbers call = key)

/-- While the turn goes on the counters count the bodies started, which are within the bounds. -/
structure Budgeted (numbers : NumberText) (options : TurnControllerOptions)
    (state : TurnState) : Prop where
  total : state.executed.length ≤ options.toolCallCap
  identical : ∀ key, executedUnder numbers state key ≤ options.identicalCap
  counted : state.terminated = false → state.executed.length = state.totalToolCalls ∧
    ∀ key, executedUnder numbers state key = state.callCounts key

variable {before after : TurnState}

theorem Budgeted.stopped (budgeted : Budgeted numbers options before)
    (stopped : after.terminated = true) (same : after.executed = before.executed) :
    Budgeted numbers options after where
  total := by rw [same]; exact budgeted.total
  identical key := by rw [executedUnder, same]; exact budgeted.identical key
  counted going := by simp [stopped] at going

theorem budgeted_startTurn (before : TurnState) : Budgeted numbers options (startTurn before) where
  total := Nat.zero_le _
  identical _ := Nat.zero_le _
  counted _ := ⟨rfl, fun _ => rfl⟩

theorem Budgeted.guarded {state : TurnState} (budgeted : Budgeted numbers options state)
    (call : ToolCall) : Budgeted numbers options (guardedExecute numbers options state call).1 := by
  rcases guardedExecute_cases numbers options state call with
    ⟨going, total, identical, started⟩ | ⟨stopped, same, _⟩
  · obtain ⟨length, counts⟩ := budgeted.counted going
    have under : ∀ key, executedUnder numbers (guardedExecute numbers options state call).1 key =
        Function.update state.callCounts (callKey numbers call)
          (state.callCounts (callKey numbers call) + 1) key := by
      intro key
      have before := counts key
      rw [executedUnder] at before
      rw [started, executedUnder, List.countP_append, before]
      by_cases same : callKey numbers call = key
      · subst same
        simp
      · rw [Function.update_of_ne (Ne.symm same)]
        simp [same]
    refine ⟨?_, ?_, fun _ => ⟨?_, ?_⟩⟩
    · rw [started]
      simpa [length] using total
    · intro key
      rw [under]
      by_cases same : key = callKey numbers call
      · subst same
        simpa using identical
      · rw [Function.update_of_ne same, ← counts key]
        exact budgeted.identical key
    · rw [started]
      simp [length]
    · intro key
      rw [under, started]
  · exact budgeted.stopped stopped same

theorem budgeted_step {event : TurnEvent} (budgeted : Budgeted numbers options before)
    (stepped : (turnMachine numbers options).step before event = some after) : Budgeted numbers options after := by
  cases event with
  | invoke call =>
    cases stepped
    exact budgeted.guarded call
  | terminate reason message =>
    cases stepped
    have frame := terminate_frame before reason message
    exact budgeted.stopped frame.1 frame.2
  | attachAbort =>
    cases stepped
    exact ⟨budgeted.total, budgeted.identical, budgeted.counted⟩

theorem budgeted_of_reachable {state : TurnState}
    (reached : (turnMachine numbers options).Reachable unrestricted state) : Budgeted numbers options state := by
  apply reached.invariant
  · rintro state ⟨before, rfl⟩
    exact budgeted_startTurn before
  · intro before event after _ budgeted _ stepped
    exact budgeted_step budgeted stepped

theorem stopped_step {event : TurnEvent} (stopped : before.terminated = true)
    (stepped : (turnMachine numbers options).step before event = some after) :
    after.terminated = true ∧ after.executed = before.executed := by
  cases event with
  | invoke call =>
    cases stepped
    rcases guardedExecute_cases numbers options before call with ⟨going, _⟩ | ⟨ended, same, _⟩
    · simp [stopped] at going
    · exact ⟨ended, same⟩
  | terminate reason message =>
    cases stepped
    exact terminate_frame before reason message
  | attachAbort =>
    cases stepped
    exact ⟨stopped, rfl⟩

theorem stopped_later (stopped : before.terminated = true)
    (later : (turnMachine numbers options).Later unrestricted before after) :
    after.terminated = true ∧ after.executed = before.executed := by
  induction later with
  | refl => exact ⟨stopped, rfl⟩
  | tail _ moved ih =>
    obtain ⟨event, _, stepped⟩ := moved
    have step := stopped_step ih.1 stepped
    exact ⟨step.1, step.2.trans ih.2⟩

theorem countP_alike_le (numbers : NumberText) (state : TurnState) (call : ToolCall) :
    state.executed.countP (fun other => decide (call.Alike other)) ≤
      executedUnder numbers state (callKey numbers call) := by
  apply List.countP_mono_left
  intro other _ alike
  rw [decide_eq_true_eq] at alike ⊢
  exact ((callKey_eq_iff numbers call other).mpr alike.counted).symm

end Budget

end Lobu.Worker
