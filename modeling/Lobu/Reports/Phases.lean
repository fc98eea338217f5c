import Lobu.Reports.Reconcile

namespace Lobu.Reports

open Lobu.Foundation

/-! # What the phases of a reconciliation do

The observers of a schedule are seen as a partial map from weekdays to rows.  Each phase
after the choice of the survivors writes the map at one weekday after the other.
-/

theorem calendarDay_dayNumber (day : Fin 7) : calendarDay (dayNumber day) = some day := by
  revert day
  decide

theorem dayNumber_injective {day other : Fin 7} (same : dayNumber day = dayNumber other) : day = other := by
  have found := congrArg calendarDay same
  rw [calendarDay_dayNumber, calendarDay_dayNumber] at found
  exact Option.some.inj found

theorem dayNumber_of_calendarDay {weekday : Weekday} {day : Fin 7}
    (found : calendarDay weekday = some day) : weekday = dayNumber day := by
  match weekday with
  | none => contradiction
  | some (.infinite _) => contradiction
  | some (.finite value) =>
    simp only [calendarDay] at found
    split at found
    · rename_i inside
      cases found
      have whole : ((value.num.toNat : Nat) : Int) = value.num := Int.toNat_of_nonneg inside.2.1
      have same : ((value.num.toNat : Nat) : Rat) = value := by
        rw [← Int.cast_natCast, whole]
        exact Rat.den_eq_one_iff value |>.mp inside.1
      simp [dayNumber, same]
    · contradiction

theorem observerExternalKey_injective {toolboxScheduleId : String} {day other : Fin 7}
    (same : observerExternalKey toolboxScheduleId day =
      observerExternalKey toolboxScheduleId other) : day = other := by
  have apart : ∀ day other : Fin 7, toString day.val = toString other.val → day = other := by
    decide
  exact apart day other ((String.append_right_inj _).mp ((String.append_left_inj _).mp same))

section Owned

variable {runtime : Runtime} {organizationId toolboxScheduleId : String} {row other : ScheduledJobRow}

def Owned (organizationId toolboxScheduleId : String) (row : ScheduledJobRow) : Prop :=
  row.organizationId = organizationId ∧ isOwnedObserver row toolboxScheduleId = true

instance : Decidable (Owned organizationId toolboxScheduleId row) :=
  inferInstanceAs (Decidable (_ ∧ _))

theorem isOwnedObserver_iff : isOwnedObserver row toolboxScheduleId = true ↔
    row.actionType = observerActionType ∧ (actionArgsObject row).bind (·.get? "toolboxScheduleId") =
      some (.string toolboxScheduleId) := by
  simp [isOwnedObserver]

theorem actionArgsObject_get? (row : ScheduledJobRow) (key : String) :
    (actionArgsObject row).bind (·.get? key) = row.actionArgs.get? key := by
  unfold actionArgsObject
  cases row.actionArgs <;> rfl

theorem Owned.locks (owned : Owned organizationId toolboxScheduleId row) :
    locks runtime organizationId toolboxScheduleId row = true := by
  obtain ⟨typed, scheduled⟩ := isOwnedObserver_iff.mp owned.2
  rw [actionArgsObject_get?] at scheduled
  simp [Reports.locks, owned.1, typed, scheduleText, scheduled]

theorem locks_of_key (runtime : Runtime) {day : Fin 7} (inside : row.organizationId = organizationId)
    (keyed : row.externalKey = some (observerExternalKey toolboxScheduleId day)) :
    locks runtime organizationId toolboxScheduleId row = true := by
  have named : ((List.finRange 7).any fun weekday =>
      row.externalKey == some (observerExternalKey toolboxScheduleId weekday)) = true :=
    List.any_eq_true.mpr ⟨day, List.mem_finRange day, by simp [keyed]⟩
  simp [Reports.locks, inside, named]

theorem collides_key (collision : collides row other = true) :
    row.organizationId = other.organizationId ∧ row.externalKey = other.externalKey ∧ other.externalKey.isSome := by
  simp only [collides, externalKeyIndex, Bool.and_eq_true, beq_iff_eq] at collision
  obtain ⟨⟨⟨keyed, known⟩, otherKeyed, otherKnown⟩, same⟩ := collision
  obtain ⟨key, held⟩ := Option.isSome_iff_exists.mp keyed
  obtain ⟨user, owner⟩ := Option.isSome_iff_exists.mp known
  obtain ⟨otherKey, otherHeld⟩ := Option.isSome_iff_exists.mp otherKeyed
  obtain ⟨otherUser, otherOwner⟩ := Option.isSome_iff_exists.mp otherKnown
  simp only [held, owner, otherHeld, otherOwner, Option.bind_eq_bind, Option.bind_some,
    Option.pure_def, Option.some.injEq, Prod.mk.injEq] at same
  rw [held, otherHeld, same.2.2]
  exact ⟨same.1, rfl, rfl⟩

end Owned

section Weekdays

variable {runtime : Runtime} {row : ScheduledJobRow} {α β : Type}

/-- A computation whose only fault is a `TypeError`. -/
def OnlyTypeError (result : Except Fault α) : Prop := ∀ fault, result = .error fault → fault = .typeError

namespace OnlyTypeError

theorem ok (value : α) : OnlyTypeError (.ok value) := fun _ failed => nomatch failed

theorem refused : OnlyTypeError (.error .typeError : Except Fault α) := by
  intro fault failed
  cases failed
  rfl

theorem bind {result : Except Fault α} {next : α → Except Fault β} (first : OnlyTypeError result)
    (later : ∀ value, OnlyTypeError (next value)) : OnlyTypeError (result >>= next) := by
  cases result with
  | error fault =>
    intro other failed
    cases failed
    exact first _ rfl
  | ok value => exact later value

end OnlyTypeError

mutual

theorem elementText_fault : ∀ value : Json, OnlyTypeError (elementText runtime value)
  | .null => .ok _
  | .bool _ => .ok _
  | .number (.finite _) => .ok _
  | .number (.infinite _) => .ok _
  | .string _ => .ok _
  | .array items => (elementTexts_fault items).bind fun _ => .ok _
  | .object fields => by
    rw [elementText]
    split
    · exact .refused
    · exact .ok _

theorem elementTexts_fault : ∀ items : List Json, OnlyTypeError (elementTexts runtime items)
  | [] => .ok _
  | item :: items =>
    (elementText_fault item).bind fun _ => (elementTexts_fault items).bind fun _ => .ok _

end

theorem observerWeekday_fault : OnlyTypeError (observerWeekday runtime row) := by
  unfold observerWeekday
  split
  · unfold toNumber
    split
    case h_6 => exact (elementText_fault _).bind fun _ => .ok _
    case h_7 =>
      split
      · exact .refused
      · exact .ok _
    all_goals exact .ok _
  · exact .ok _

end Weekdays

section Statements

variable {runtime : Runtime} {request : Request} {database : Database}
variable {job written : ScheduledJobRow} {sets : ScheduledJobRow → ScheduledJobRow}
variable {weekday : Weekday} {view : Weekday → Option ScheduledJobRow}

/-- The rows of others and the accepted revisions are left alone. -/
structure Unaffected (input : ReconcileSalesBattleReportScheduleInput) (before after : Database) :
    Prop where
  sync : after.sync = before.sync
  foreign : ∀ job, ¬ Owned input.organizationId input.toolboxScheduleId job →
    (after.jobs.Holds job ↔ before.jobs.Holds job)

section Unaffected

variable {input : ReconcileSalesBattleReportScheduleInput} {before between after : Database}

theorem Unaffected.refl : Unaffected input before before :=
  ⟨rfl, fun _ _ => Iff.rfl⟩

theorem Unaffected.trans (first : Unaffected input before between)
    (second : Unaffected input between after) : Unaffected input before after :=
  ⟨second.sync.trans first.sync,
    fun job foreign => (second.foreign job foreign).trans (first.foreign job foreign)⟩

theorem Unaffected.of_written (sync : after.sync = before.sync)
    (owned : Owned input.organizationId input.toolboxScheduleId written)
    (old : Owned input.organizationId input.toolboxScheduleId job) (held : before.jobs.Holds job)
    (holds : ∀ other, after.jobs.Holds other ↔ other = written ∨ (before.jobs.Holds other ∧ other.id ≠ job.id)) :
    Unaffected input before after := by
  refine ⟨sync, fun other foreign => ?_⟩
  rw [holds other]
  constructor
  · rintro (rfl | ⟨present, _⟩)
    · exact absurd owned foreign
    · exact present
  · intro present
    refine .inr ⟨present, fun same => ?_⟩
    rw [present.eq held same] at foreign
    exact foreign old

end Unaffected

theorem updateJob_run (sets : ScheduledJobRow → ScheduledJobRow) (request : Request)
    (held : database.jobs.Holds job) (kept : (sets job).id = job.id)
    (apart : ∀ other, database.jobs.Holds other → other.id ≠ job.id → collides other (sets job) = false) :
    ∃ after, (updateJob request job.id sets).run database = .ok (some (sets job), after) ∧
      after.sync = database.sync ∧ ∀ other, after.jobs.Holds other ↔
        other = sets job ∨ (database.jobs.Holds other ∧ other.id ≠ job.id) := by
  have same : { sets job with id := job.id } = sets job := by
    rw [← kept]
  have alone : ∀ other, database.jobs.Holds other → other.id ≠ job.id →
      collides other { sets job with id := job.id } = false := by
    rw [same]
    exact apart
  obtain ⟨after, updated, holds⟩ := JobTable.update_held request.now held alone
  rw [same] at updated holds
  refine ⟨{ database with jobs := after }, ?_, rfl, holds⟩
  rw [updateJob, Transaction.run_attempt, updated]
  rfl

/-- The observers of a schedule, at most one for each weekday. -/
structure Tracked (runtime : Runtime) (input : ReconcileSalesBattleReportScheduleInput)
    (database : Database) (view : Weekday → Option ScheduledJobRow) : Prop where
  observers : ∀ job, database.jobs.Holds job ∧
    Owned input.organizationId input.toolboxScheduleId job ↔ ∃ weekday, view weekday = some job
  weekdays : ∀ weekday job, view weekday = some job → observerWeekday runtime job = .ok weekday
  keys : ∀ weekday job, view weekday = some job → ∀ key, job.externalKey = some key →
    ∃ day, weekday = dayNumber day ∧ key = observerExternalKey input.toolboxScheduleId day
  alone : ∀ job, database.jobs.Holds job →
    locks runtime input.organizationId input.toolboxScheduleId job = true →
      Owned input.organizationId input.toolboxScheduleId job

theorem update_some_iff {place : Weekday} {other : ScheduledJobRow} :
    Function.update view weekday (some written) place = some other ↔
      (place = weekday ∧ other = written) ∨ (place ≠ weekday ∧ view place = some other) := by
  by_cases chosen : place = weekday
  · subst chosen
    simp [eq_comm]
  · simp [chosen]

theorem Tracked.apart (tracked : Tracked runtime request.input database view)
    (owned : Owned request.input.organizationId request.input.toolboxScheduleId written)
    (keys : ∀ key, written.externalKey = some key → ∃ day, weekday = dayNumber day ∧
      key = observerExternalKey request.input.toolboxScheduleId day)
    {other : ScheduledJobRow} (held : database.jobs.Holds other)
    (elsewhere : view weekday ≠ some other) : collides other written = false := by
  by_contra collision
  obtain ⟨inside, same, keyed⟩ := collides_key (by simpa using collision)
  obtain ⟨key, found⟩ := Option.isSome_iff_exists.mp keyed
  obtain ⟨day, placed, rfl⟩ := keys key found
  have locked := locks_of_key runtime (inside.trans owned.1) (same.trans found)
  obtain ⟨place, present⟩ := (tracked.observers other).mp ⟨held, tracked.alone other held locked⟩
  obtain ⟨otherDay, rfl, sameKey⟩ := tracked.keys place other present _ (same.trans found)
  rw [← observerExternalKey_injective sameKey, ← placed] at present
  exact elsewhere present

theorem Tracked.placed {after : Database} {stays : ScheduledJobRow → Prop}
    (tracked : Tracked runtime request.input database view)
    (owned : Owned request.input.organizationId request.input.toolboxScheduleId written)
    (sorted : observerWeekday runtime written = .ok weekday)
    (keys : ∀ key, written.externalKey = some key → ∃ day, weekday = dayNumber day ∧
      key = observerExternalKey request.input.toolboxScheduleId day)
    (holds : ∀ other, after.jobs.Holds other ↔ other = written ∨ (database.jobs.Holds other ∧ stays other))
    (others : ∀ place other, view place = some other → (stays other ↔ place ≠ weekday)) :
    Tracked runtime request.input after (Function.update view weekday (some written)) := by
  refine ⟨?_, ?_, ?_, ?_⟩
  · intro other
    rw [holds other]
    constructor
    · rintro ⟨rfl | ⟨present, remains⟩, own⟩
      · exact ⟨weekday, Function.update_self ..⟩
      · obtain ⟨place, there⟩ := (tracked.observers _).mp ⟨present, own⟩
        exact ⟨place, update_some_iff.mpr (.inr ⟨(others place other there).mp remains, there⟩)⟩
    · rintro ⟨place, there⟩
      rcases update_some_iff.mp there with ⟨rfl, rfl⟩ | ⟨chosen, there⟩
      · exact ⟨.inl rfl, owned⟩
      · obtain ⟨present, own⟩ := (tracked.observers _).mpr ⟨place, there⟩
        exact ⟨.inr ⟨present, (others place other there).mpr chosen⟩, own⟩
  · intro place other there
    rcases update_some_iff.mp there with ⟨rfl, rfl⟩ | ⟨_, there⟩
    · exact sorted
    · exact tracked.weekdays place other there
  · intro place other there
    rcases update_some_iff.mp there with ⟨rfl, rfl⟩ | ⟨_, there⟩
    · exact keys
    · exact tracked.keys place other there
  · intro other present locked
    rcases (holds other).mp present with rfl | ⟨before, _⟩
    · exact owned
    · exact tracked.alone other before locked

theorem Tracked.write (sets : ScheduledJobRow → ScheduledJobRow)
    (tracked : Tracked runtime request.input database view)
    (found : view weekday = some job) (kept : (sets job).id = job.id)
    (owned : Owned request.input.organizationId request.input.toolboxScheduleId (sets job))
    (sorted : observerWeekday runtime (sets job) = .ok weekday)
    (keys : ∀ key, (sets job).externalKey = some key → ∃ day, weekday = dayNumber day ∧
      key = observerExternalKey request.input.toolboxScheduleId day) :
    ∃ after, (updateJob request job.id sets).run database = .ok (some (sets job), after) ∧
      Unaffected request.input database after ∧
      Tracked runtime request.input after (Function.update view weekday (some (sets job))) := by
  have held := ((tracked.observers job).mpr ⟨weekday, found⟩).1
  obtain ⟨after, ran, sync, holds⟩ := updateJob_run sets request held kept fun other present different =>
    tracked.apart owned keys present fun same => different (by rw [Option.some.inj (found.symm.trans same)])
  have old := ((tracked.observers job).mpr ⟨weekday, found⟩).2
  refine ⟨after, ran, .of_written sync owned old held holds, tracked.placed owned sorted keys holds ?_⟩
  intro place other there
  constructor
  · rintro different rfl
    exact different (by rw [Option.some.inj (there.symm.trans found)])
  · intro chosen same
    obtain rfl := ((tracked.observers _).mpr ⟨place, there⟩).1.eq held same
    have days := (tracked.weekdays _ _ there).symm.trans (tracked.weekdays _ _ found)
    exact chosen (Except.ok.inj days)

theorem Tracked.insert (job : ScheduledJobRow) (tracked : Tracked runtime request.input database view)
    (missing : view weekday = none) (owned : Owned request.input.organizationId request.input.toolboxScheduleId
      { job with id := database.jobs.nextId })
    (sorted : observerWeekday runtime { job with id := database.jobs.nextId } = .ok weekday)
    (keys : ∀ key, job.externalKey = some key → ∃ day, weekday = dayNumber day ∧
      key = observerExternalKey request.input.toolboxScheduleId day) :
    ∃ after, (insertJob request job).run database = .ok ({ job with id := database.jobs.nextId }, after) ∧
      Unaffected request.input database after ∧ Tracked runtime request.input after
        (Function.update view weekday (some { job with id := database.jobs.nextId })) := by
  obtain ⟨jobs, inserted, holds⟩ := JobTable.insert_fresh job request.now fun other present =>
    tracked.apart owned keys present (by rw [missing]; exact (Option.some_ne_none _).symm)
  have aside : Unaffected request.input database { database with jobs } := by
    refine ⟨rfl, fun other foreign => ?_⟩
    rw [holds other, or_iff_right]
    rintro rfl
    exact foreign owned
  refine ⟨{ database with jobs }, ?_, aside, tracked.placed owned sorted keys
    (fun other => (holds other).trans (by rw [and_true])) fun place other there => (true_iff _).mpr ?_⟩
  · rw [insertJob, Transaction.run_attempt, inserted]
    rfl
  · rintro rfl
    rw [missing] at there
    contradiction

end Statements

section MapPhases

variable {runtime : Runtime} {request : Request} {database : Database}
variable {job written : ScheduledJobRow} {survivors : Survivors}
variable {weekday : Weekday} {view : Weekday → Option ScheduledJobRow}

def Keyed (toolboxScheduleId : String) (weekday : Weekday) (job : ScheduledJobRow) : Prop :=
  ∀ day, weekday = dayNumber day →
    job.externalKey = some (observerExternalKey toolboxScheduleId day)

theorem repairExternalKeys_run (original : List (Nat × Option String))
    (tracked : Tracked runtime request.input database view)
    (placed : ∀ entry ∈ survivors, view entry.1 = some entry.2) (once : (survivors.map Prod.fst).Nodup) :
    ∃ repaired ids after later, (repairExternalKeys request original survivors).run database =
        .ok ((repaired, ids), after) ∧
      Unaffected request.input database after ∧ Tracked runtime request.input after later ∧
      repaired.map Prod.fst = survivors.map Prod.fst ∧ (∀ entry ∈ repaired, later entry.1 = some entry.2 ∧
        Keyed request.input.toolboxScheduleId entry.1 entry.2) ∧
      ∀ weekday ∉ survivors.map Prod.fst, later weekday = view weekday := by
  induction survivors generalizing database view with
  | nil => exact ⟨[], [], database, view, rfl, .refl, tracked, rfl, by simp, fun _ _ => rfl⟩
  | cons entry survivors ih =>
    obtain ⟨weekday, survivor⟩ := entry
    rw [List.map_cons, List.nodup_cons] at once
    obtain ⟨fresh, once⟩ := once
    have here : view weekday = some survivor := placed _ List.mem_cons_self
    have rest : ∀ entry ∈ survivors, view entry.1 = some entry.2 :=
      fun entry member => placed entry (List.mem_cons_of_mem _ member)
    cases found : calendarDay weekday with
    | none =>
      obtain ⟨repaired, ids, after, later, ran, aside, tracks, names, keyed, kept⟩ :=
        ih tracked rest once
      refine ⟨(weekday, survivor) :: repaired, ids, after, later, ?_, aside, tracks, by simp [names], ?_, ?_⟩
      · simp only [repairExternalKeys, found, Transaction.run_bind, ran, Transaction.run_pure]
      · intro entry member
        rcases List.mem_cons.mp member with rfl | member
        · refine ⟨(kept _ fresh).trans here, ?_⟩
          rintro day rfl
          rw [calendarDay_dayNumber] at found
          contradiction
        · exact keyed entry member
      · intro other outside
        exact kept other (fun inside => outside (List.mem_cons_of_mem _ inside))
    | some day =>
      obtain rfl := dayNumber_of_calendarDay found
      by_cases same : survivor.externalKey = some (observerExternalKey request.input.toolboxScheduleId day)
      · obtain ⟨repaired, ids, after, later, ran, aside, tracks, names, keyed, kept⟩ :=
          ih tracked rest once
        refine ⟨(dayNumber day, survivor) :: repaired, ids, after, later, ?_, aside, tracks, by simp [names], ?_, ?_⟩
        · simp only [repairExternalKeys, found, same, if_true, Transaction.run_bind, ran, Transaction.run_pure]
        · intro entry member
          rcases List.mem_cons.mp member with rfl | member
          · refine ⟨(kept _ fresh).trans here, ?_⟩
            intro other place
            rw [← dayNumber_injective place]
            exact same
          · exact keyed entry member
        · intro other outside
          exact kept other (fun inside => outside (List.mem_cons_of_mem _ inside))
      · have owned := ((tracked.observers survivor).mpr ⟨_, here⟩).2
        have sorted := tracked.weekdays _ _ here
        obtain ⟨between, wrote, unchanged, tracks⟩ := Tracked.write (fun job => { job with
            externalKey := some (observerExternalKey request.input.toolboxScheduleId day) })
          tracked here rfl owned sorted
          fun key held => ⟨day, rfl, (Option.some.inj held).symm⟩
        obtain ⟨repaired, ids, after, later, ran, aside, tracks, names, keyed, kept⟩ :=
          ih tracks (fun entry member => by
            rw [Function.update_of_ne, rest entry member]
            intro place
            exact fresh (List.mem_map.mpr ⟨entry, member, place⟩)) once
        refine ⟨(dayNumber day, { survivor with
            externalKey := some (observerExternalKey request.input.toolboxScheduleId day) }) ::
              repaired,
          if original.lookup survivor.id =
            some (some (observerExternalKey request.input.toolboxScheduleId day)) then ids
          else survivor.id :: ids, after, later, ?_, unchanged.trans aside, tracks,
          by simp [names], ?_, ?_⟩
        · simp only [repairExternalKeys, found, same, if_false, Transaction.run_bind, wrote,
            ran, Transaction.run_pure]
        · intro entry member
          rcases List.mem_cons.mp member with rfl | member
          · refine ⟨(kept _ fresh).trans (Function.update_self ..), ?_⟩
            intro other place
            rw [← dayNumber_injective place]
          · exact keyed entry member
        · intro other outside
          rw [kept other (fun inside => outside (List.mem_cons_of_mem _ inside)), Function.update_of_ne]
          rintro rfl
          exact outside List.mem_cons_self

/-- What a requested weekday's observer is. -/
structure Active (input : ReconcileSalesBattleReportScheduleInput) (day : Fin 7)
    (job : ScheduledJobRow) : Prop where
  running : job.paused = false
  same : sameObserver job input day = true

variable {day : Fin 7}

theorem observerArgs_owned (inside : job.organizationId = request.input.organizationId)
    (typed : job.actionType = observerActionType) (args : job.actionArgs = observerArgs request.input day) :
    Owned request.input.organizationId request.input.toolboxScheduleId job := by
  refine ⟨inside, isOwnedObserver_iff.mpr ⟨typed, ?_⟩⟩
  rw [actionArgsObject_get?, args]
  rfl

theorem observerArgs_weekday (args : job.actionArgs = observerArgs request.input day) :
    observerWeekday runtime job = .ok (dayNumber day) := by
  simp [observerWeekday, actionArgsObject, args, observerArgs, Json.get?, toNumber, dayNumber, List.lookup_cons]

theorem observerArgs_same (keyed : job.externalKey =
      some (observerExternalKey request.input.toolboxScheduleId day)) (typed : job.actionType = observerActionType)
    (revision : job.scheduleRevision = request.input.scheduleRevision) (cron : job.cron = some observerCron)
    (owner : job.createdByUser = some request.input.createdByUser)
    (args : job.actionArgs = observerArgs request.input day) : sameObserver job request.input day = true := by
  have small : |(request.input.scheduleRevision : Int)| < 2 ^ 53 := by
    have bound := request.input.revisionAllowed.2
    rw [abs_of_nonneg (Int.natCast_nonneg _)]
    omega
  have rounded := JsNumber.double_int small
  rw [Int.cast_natCast] at rounded
  simp [sameObserver, actionArgsObject, args, observerArgs, Json.get?, List.lookup_cons, keyed,
    typed, revision, cron, owner, rounded]

theorem activateObservers_run {days : List (Fin 7)} (tracked : Tracked runtime request.input database view)
    (placed : ∀ day ∈ days, survivors.lookup (dayNumber day) = view (dayNumber day)) (once : days.Nodup) :
    ∃ activation after later, (activateObservers request survivors days).run database = .ok (activation, after) ∧
      Unaffected request.input database after ∧ Tracked runtime request.input after later ∧
      (∀ day ∈ days, ∃ job, later (dayNumber day) = some job ∧ Active request.input day job) ∧
      ∀ weekday, (∀ day ∈ days, weekday ≠ dayNumber day) → later weekday = view weekday := by
  induction days generalizing database view with
  | nil => exact ⟨{}, database, view, rfl, .refl, tracked, by simp, fun _ _ => rfl⟩
  | cons day days ih =>
    rw [List.nodup_cons] at once
    obtain ⟨fresh, once⟩ := once
    have apart : ∀ other ∈ days, dayNumber day ≠ dayNumber other := by
      intro other member same
      exact fresh (dayNumber_injective same ▸ member)
    have here := placed day List.mem_cons_self
    have rest : ∀ job, ∀ other ∈ days, survivors.lookup (dayNumber other) =
        Function.update view (dayNumber day) job (dayNumber other) := by
      intro job other member
      rw [Function.update_of_ne (apart other member).symm]
      exact placed other (List.mem_cons_of_mem _ member)
    cases found : survivors.lookup (dayNumber day) with
    | none =>
      obtain ⟨between, wrote, unchanged, tracks⟩ := Tracked.insert (newObserver request day)
        tracked (here.symm.trans found) (observerArgs_owned rfl rfl rfl)
        (observerArgs_weekday rfl) fun key held => ⟨day, rfl, (Option.some.inj held).symm⟩
      obtain ⟨activation, after, later, ran, aside, tracks, active, kept⟩ :=
        ih tracks (rest _) once
      refine ⟨{ activation with
          created := database.jobs.nextId :: activation.created
          observerRefs := database.jobs.nextId :: activation.observerRefs },
        after, later, ?_, unchanged.trans aside, tracks, ?_, ?_⟩
      · simp only [activateObservers, found, Transaction.run_bind, wrote, ran, Transaction.run_pure]
      · intro other member
        rcases List.mem_cons.mp member with rfl | member
        · refine ⟨_, (kept _ apart).trans (Function.update_self ..), rfl, ?_⟩
          exact observerArgs_same rfl rfl rfl rfl rfl rfl
        · exact active other member
      · intro weekday outside
        rw [kept weekday fun other member => outside other (List.mem_cons_of_mem _ member),
          Function.update_of_ne (outside day List.mem_cons_self)]
    | some survivor =>
      have present : view (dayNumber day) = some survivor := here.symm.trans found
      by_cases stale : (survivor.paused || !sameObserver survivor request.input day) = true
      · have owned := ((tracked.observers survivor).mpr ⟨_, present⟩).2
        obtain ⟨between, wrote, unchanged, tracks⟩ := Tracked.write (activated request day)
          tracked present rfl (observerArgs_owned owned.1 rfl rfl) (observerArgs_weekday rfl)
          fun key held => ⟨day, rfl, (Option.some.inj held).symm⟩
        obtain ⟨activation, after, later, ran, aside, tracks, active, kept⟩ :=
          ih tracks (rest _) once
        refine ⟨{ activation with
            updated := survivor.id :: activation.updated
            observerRefs := survivor.id :: activation.observerRefs },
          after, later, ?_, unchanged.trans aside, tracks, ?_, ?_⟩
        · simp only [activateObservers, found, stale, if_true, Transaction.run_bind, wrote, ran, Transaction.run_pure]
          rfl
        · intro other member
          rcases List.mem_cons.mp member with rfl | member
          · refine ⟨_, (kept _ apart).trans (Function.update_self ..), rfl, ?_⟩
            exact observerArgs_same rfl rfl rfl rfl rfl rfl
          · exact active other member
        · intro weekday outside
          rw [kept weekday fun other member => outside other (List.mem_cons_of_mem _ member),
            Function.update_of_ne (outside day List.mem_cons_self)]
      · obtain ⟨activation, after, later, ran, aside, tracks, active, kept⟩ :=
          ih tracked (fun other member => placed other (List.mem_cons_of_mem _ member)) once
        refine ⟨{ activation with observerRefs := survivor.id :: activation.observerRefs },
          after, later, ?_, aside, tracks, ?_, ?_⟩
        · simp only [activateObservers, found]
          rw [if_neg stale, Transaction.run_bind, ran]
          rfl
        · intro other member
          rcases List.mem_cons.mp member with rfl | member
          · simp only [Bool.or_eq_true, Bool.not_eq_true', not_or, Bool.not_eq_true, Bool.not_eq_false] at stale
            exact ⟨survivor, (kept _ apart).trans present, stale.1, stale.2⟩
          · exact active other member
        · intro weekday outside
          exact kept weekday fun other member => outside other (List.mem_cons_of_mem _ member)

theorem pauseObservers_run (tracked : Tracked runtime request.input database view)
    (placed : ∀ entry ∈ survivors, shouldPause request entry.1 = true → view entry.1 = some entry.2)
    (once : (survivors.map Prod.fst).Nodup) :
    ∃ paused after later, (pauseObservers request survivors).run database = .ok (paused, after) ∧
      Unaffected request.input database after ∧ Tracked runtime request.input after later ∧
      (∀ entry ∈ survivors, shouldPause request entry.1 = true →
        later entry.1 = some { entry.2 with paused := true }) ∧
      ∀ weekday, (weekday ∈ survivors.map Prod.fst → shouldPause request weekday = false) →
        later weekday = view weekday := by
  induction survivors generalizing database view with
  | nil => exact ⟨[], database, view, rfl, .refl, tracked, by simp, fun _ _ => rfl⟩
  | cons entry survivors ih =>
    obtain ⟨weekday, survivor⟩ := entry
    rw [List.map_cons, List.nodup_cons] at once
    obtain ⟨fresh, once⟩ := once
    have rest : ∀ entry ∈ survivors, shouldPause request entry.1 = true → view entry.1 = some entry.2 :=
      fun entry member => placed entry (List.mem_cons_of_mem _ member)
    have outside : weekday ∈ survivors.map Prod.fst → shouldPause request weekday = false :=
      fun member => absurd member fresh
    by_cases pauses : (shouldPause request weekday && !survivor.paused) = true
    · obtain ⟨unwanted, running⟩ := by simpa using pauses
      have here : view weekday = some survivor := placed _ List.mem_cons_self unwanted
      have owned := ((tracked.observers survivor).mpr ⟨_, here⟩).2
      have sorted := tracked.weekdays _ _ here
      have keys := tracked.keys _ _ here
      obtain ⟨between, wrote, unchanged, tracks⟩ := Tracked.write
        (fun job => { job with paused := true }) tracked here rfl owned sorted keys
      obtain ⟨paused, after, later, ran, aside, tracks, stopped, kept⟩ :=
        ih tracks (fun entry member pauses => by
          rw [Function.update_of_ne, rest entry member pauses]
          intro place
          exact fresh (List.mem_map.mpr ⟨entry, member, place⟩)) once
      refine ⟨survivor.id :: paused, after, later, ?_, unchanged.trans aside, tracks, ?_, ?_⟩
      · simp only [pauseObservers, pauses, if_true, Transaction.run_bind, wrote, ran, Transaction.run_pure]
      · intro entry member wanted
        rcases List.mem_cons.mp member with rfl | member
        · rw [kept weekday outside, Function.update_self]
        · exact stopped entry member wanted
      · intro other others
        rw [kept other fun member => others (List.mem_cons_of_mem _ member), Function.update_of_ne]
        rintro rfl
        rw [others List.mem_cons_self] at unwanted
        contradiction
    · obtain ⟨paused, after, later, ran, aside, tracks, stopped, kept⟩ := ih tracked rest once
      refine ⟨paused, after, later, ?_, aside, tracks, ?_, ?_⟩
      · rw [pauseObservers, if_neg pauses, ran]
      · intro entry member wanted
        rcases List.mem_cons.mp member with rfl | member
        · have resting : survivor.paused = true := by
            simpa [wanted] using pauses
          rw [kept weekday outside, placed _ List.mem_cons_self wanted, ← resting]
        · exact stopped entry member wanted
      · intro other others
        exact kept other fun member => others (List.mem_cons_of_mem _ member)

end MapPhases

section ListPhases

variable {runtime : Runtime} {request : Request} {input : ReconcileSalesBattleReportScheduleInput}
variable {database : Database} {rows done : List ScheduledJobRow}
variable {groups : List (Weekday × List ScheduledJobRow)} {weekday : Weekday}

/-- The observers of a schedule as the rows that were read. -/
structure Listed (runtime : Runtime) (input : ReconcileSalesBattleReportScheduleInput)
    (database : Database) (rows : List ScheduledJobRow) : Prop where
  observers : ∀ job, database.jobs.Holds job ∧
    Owned input.organizationId input.toolboxScheduleId job ↔ job ∈ rows
  alone : ∀ job, database.jobs.Holds job →
    locks runtime input.organizationId input.toolboxScheduleId job = true →
      Owned input.organizationId input.toolboxScheduleId job
  ids : (rows.map (·.id)).Nodup

/-- The key that a row of this weekday has. -/
def keyOf (toolboxScheduleId : String) (weekday : Weekday) : Option String :=
  (calendarDay weekday).map (observerExternalKey toolboxScheduleId)

theorem externalKeyDrifts_false {row : ScheduledJobRow} :
    externalKeyDrifts input row weekday = false ↔ row.externalKey = keyOf input.toolboxScheduleId weekday := by
  cases found : calendarDay weekday <;> simp [externalKeyDrifts, keyOf, found]

theorem hasExternalKeyDrift_false :
    hasExternalKeyDrift runtime input rows = .ok false ↔
      ∀ row ∈ rows, ∃ weekday, observerWeekday runtime row = .ok weekday ∧
        row.externalKey = keyOf input.toolboxScheduleId weekday := by
  induction rows with
  | nil => simp [hasExternalKeyDrift]
  | cons row rows ih =>
    rw [List.forall_mem_cons, ← ih]
    cases read : observerWeekday runtime row with
    | error fault => simp [hasExternalKeyDrift, read, bind, Except.bind]
    | ok weekday =>
      simp only [hasExternalKeyDrift, read, bind, Except.bind, Except.ok.injEq,
        exists_eq_left', ← externalKeyDrifts_false]
      cases externalKeyDrifts input row weekday <;> simp [pure, Except.pure]

theorem hasExternalKeyDrift_fault : OnlyTypeError (hasExternalKeyDrift runtime input rows) := by
  induction rows with
  | nil => exact .ok _
  | cons row rows ih =>
    refine observerWeekday_fault.bind fun weekday => ?_
    split
    · exact .ok _
    · exact ih

def cleared (row : ScheduledJobRow) : ScheduledJobRow :=
  { row with externalKey := none }

theorem clearExternalKeys_run (listed : Listed runtime request.input database (done ++ rows)) :
    ∃ after, (clearExternalKeys request rows).run database = .ok (rows.map cleared, after) ∧
      Unaffected request.input database after ∧ Listed runtime request.input after (done ++ rows.map cleared) := by
  induction rows generalizing database done with
  | nil => exact ⟨database, rfl, .refl, listed⟩
  | cons row rows ih =>
    have appended : done ++ row :: rows = done ++ [row] ++ rows := by simp
    have member : row ∈ done ++ row :: rows := by simp
    have held := (listed.observers row).mpr member
    cases keyed : row.externalKey with
    | none =>
      have same : cleared row = row := by
        rw [cleared, ← keyed]
      rw [appended] at listed
      obtain ⟨after, ran, aside, listed⟩ := ih listed
      refine ⟨after, ?_, aside, ?_⟩
      · simp only [clearExternalKeys, keyed, Transaction.run_bind, ran, Transaction.run_pure, List.map_cons, same]
      · simpa [same] using listed
    | some key =>
      obtain ⟨between, wrote, sync, holds⟩ := updateJob_run cleared request
        held.1 rfl fun other _ _ => by simp [collides, externalKeyIndex, cleared]
      have owned : Owned request.input.organizationId request.input.toolboxScheduleId (cleared row) := held.2
      have unchanged := Unaffected.of_written sync owned held.2 held.1 holds
      have ids := listed.ids
      have next : Listed runtime request.input between (done ++ [cleared row] ++ rows) := by
        refine ⟨?_, ?_, by simpa [cleared] using ids⟩
        · intro other
          rw [holds other]
          constructor
          · rintro ⟨rfl | ⟨present, different⟩, owned⟩
            · simp
            · have among := (listed.observers other).mp ⟨present, owned⟩
              have apart : other ≠ row := fun same => different (congrArg _ same)
              simp only [List.mem_append, List.mem_cons, apart, false_or] at among
              simp only [List.mem_append, List.mem_singleton]
              tauto
          · intro among
            by_cases written : other = cleared row
            · subst written
              exact ⟨.inl rfl, held.2⟩
            · have before : other ∈ done ++ row :: rows ∧ other.id ≠ row.id := by
                rw [List.map_append, List.map_cons, List.nodup_append, List.nodup_cons] at ids
                simp only [List.mem_append, List.mem_singleton, written, or_false] at among
                rcases among with earlier | later
                · exact ⟨List.mem_append_left _ earlier, ids.2.2 _ (List.mem_map_of_mem earlier) _ List.mem_cons_self⟩
                · refine ⟨List.mem_append_right _ (List.mem_cons_of_mem _ later), ?_⟩
                  intro same
                  exact ids.2.1.1 (List.mem_map.mpr ⟨other, later, same⟩)
              obtain ⟨present, owned⟩ := (listed.observers other).mpr before.1
              exact ⟨.inr ⟨present, before.2⟩, owned⟩
        · intro other present locked
          rcases (holds other).mp present with rfl | ⟨before, _⟩
          · exact held.2
          · exact listed.alone other before locked
      obtain ⟨after, ran, aside, listed⟩ := ih next
      refine ⟨after, ?_, unchanged.trans aside, by simpa using listed⟩
      simp only [clearExternalKeys, keyed]
      rw [Transaction.run_bind, show (updateJob request row.id fun job =>
        { job with externalKey := none }).run database = _ from wrote]
      simp only [Transaction.run_bind, ran, Transaction.run_pure, List.map_cons, cleared]

/-- Rows under their weekdays, each weekday once. -/
structure Grouped (runtime : Runtime) (groups : List (Weekday × List ScheduledJobRow)) : Prop where
  once : (groups.map Prod.fst).Nodup
  sorted : ∀ group ∈ groups, ∀ row ∈ group.2, observerWeekday runtime row = .ok group.1

theorem pushCandidate_names {row : ScheduledJobRow} {name : Weekday} :
    name ∈ (pushCandidate weekday row groups).map Prod.fst ↔ name = weekday ∨ name ∈ groups.map Prod.fst := by
  induction groups with
  | nil => simp [pushCandidate]
  | cons group groups ih =>
    rw [pushCandidate]
    split
    · rename_i same
      subst same
      simp
    · rw [List.map_cons, List.mem_cons, ih, List.map_cons, List.mem_cons]
      tauto

theorem pushCandidate_grouped {row : ScheduledJobRow} (grouped : Grouped runtime groups)
    (read : observerWeekday runtime row = .ok weekday) :
    Grouped runtime (pushCandidate weekday row groups) ∧ ((pushCandidate weekday row groups).flatMap Prod.snd).Perm
        (groups.flatMap Prod.snd ++ [row]) := by
  induction groups with
  | nil =>
    refine ⟨⟨by simp [pushCandidate], ?_⟩, by simp [pushCandidate]⟩
    intro group member other inside
    simp only [pushCandidate, List.mem_singleton] at member
    subst member
    rw [List.mem_singleton.mp inside]
    exact read
  | cons group groups ih =>
    obtain ⟨known, candidates⟩ := group
    have once := grouped.once
    rw [List.map_cons, List.nodup_cons] at once
    have rest : Grouped runtime groups :=
      ⟨once.2, fun group member => grouped.sorted group (List.mem_cons_of_mem _ member)⟩
    have first := grouped.sorted _ List.mem_cons_self
    rw [pushCandidate]
    split
    · rename_i same
      subst same
      refine ⟨⟨grouped.once, ?_⟩, ?_⟩
      · intro group member other inside
        rcases List.mem_cons.mp member with rfl | member
        · rcases List.mem_append.mp inside with earlier | last
          · exact first other earlier
          · rw [List.mem_singleton.mp last]
            exact read
        · exact rest.sorted group member other inside
      · simp only [List.flatMap_cons, List.append_assoc]
        exact List.Perm.append_left _ List.perm_append_comm
    · rename_i different
      obtain ⟨pushed, permuted⟩ := ih rest
      refine ⟨⟨?_, ?_⟩, ?_⟩
      · rw [List.map_cons, List.nodup_cons]
        refine ⟨?_, pushed.once⟩
        rw [pushCandidate_names]
        rintro (same | inside)
        · exact different same
        · exact once.1 inside
      · intro group member
        rcases List.mem_cons.mp member with rfl | member
        · exact first
        · exact pushed.sorted group member
      · simp only [List.flatMap_cons, List.append_assoc]
        exact List.Perm.append_left _ permuted

theorem candidatesByWeekday_grouped {result : List (Weekday × List ScheduledJobRow)}
    (grouped : Grouped runtime groups) (succeeded : candidatesByWeekday runtime rows groups = .ok result) :
    Grouped runtime result ∧ (result.flatMap Prod.snd).Perm (groups.flatMap Prod.snd ++ rows) := by
  induction rows generalizing groups with
  | nil =>
    cases succeeded
    exact ⟨grouped, by simp⟩
  | cons row rows ih =>
    obtain ⟨weekday, read, next⟩ := Transaction.except_bind_ok.mp succeeded
    obtain ⟨pushed, permuted⟩ := pushCandidate_grouped grouped read
    obtain ⟨final, all⟩ := ih pushed next
    refine ⟨final, all.trans ?_⟩
    simpa using permuted.append_right rows

theorem candidatesByWeekday_total (groups : List (Weekday × List ScheduledJobRow))
    (readable : ∀ row ∈ rows, ∃ weekday, observerWeekday runtime row = .ok weekday) :
    ∃ result, candidatesByWeekday runtime rows groups = .ok result := by
  induction rows generalizing groups with
  | nil => exact ⟨groups, rfl⟩
  | cons row rows ih =>
    obtain ⟨weekday, read⟩ := readable row List.mem_cons_self
    obtain ⟨result, succeeded⟩ := ih (pushCandidate weekday row groups) fun row member =>
      readable row (List.mem_cons_of_mem _ member)
    exact ⟨result, Transaction.except_bind_ok.mpr ⟨weekday, read, succeeded⟩⟩

theorem candidatesByWeekday_fault : OnlyTypeError (candidatesByWeekday runtime rows groups) := by
  induction rows generalizing groups with
  | nil => exact .ok _
  | cons row rows ih => exact observerWeekday_fault.bind fun _ => ih

theorem deleteDuplicates_run (duplicates : List ScheduledJobRow) (database : Database) :
    ∃ after, (deleteDuplicates duplicates).run database = .ok (duplicates.map (·.id), after) ∧
      after.sync = database.sync ∧
      ∀ job, after.jobs.Holds job ↔ database.jobs.Holds job ∧ job.id ∉ duplicates.map (·.id) := by
  induction duplicates generalizing database with
  | nil => exact ⟨database, rfl, rfl, by simp⟩
  | cons duplicate duplicates ih =>
    obtain ⟨after, ran, sync, holds⟩ :=
      ih { database with jobs := database.jobs.delete duplicate.id }
    refine ⟨after, ?_, sync, ?_⟩
    · simp only [deleteDuplicates, deleteJob, Transaction.run_bind, Transaction.run_write, ran,
        Transaction.run_pure, List.map_cons]
    · intro job
      rw [holds, JobTable.holds_delete, List.map_cons, List.mem_cons, not_or, and_assoc]

theorem chooseSurvivors_run (runtime : Runtime) (groups : List (Weekday × List ScheduledJobRow))
    (database : Database) :
    ∃ survivors deleted after, (chooseSurvivors runtime groups).run database = .ok ((survivors, deleted), after) ∧
      after.sync = database.sync ∧ (∀ job, after.jobs.Holds job ↔ database.jobs.Holds job ∧ job.id ∉ deleted) ∧
      (survivors.map (·.2.id) ++ deleted).Perm ((groups.flatMap Prod.snd).map (·.id)) ∧
      (survivors.map Prod.fst).Sublist (groups.map Prod.fst) ∧
      ∀ entry ∈ survivors, ∃ group ∈ groups, group.1 = entry.1 ∧ entry.2 ∈ group.2 := by
  induction groups generalizing database with
  | nil => exact ⟨[], [], database, rfl, rfl, by simp, .refl _, .refl _, by simp⟩
  | cons group groups ih =>
    obtain ⟨weekday, candidates⟩ := group
    have permuted := List.perm_insertionSort (fun left right => preferredObserver runtime left right ≤ 0) candidates
    cases order : candidates.insertionSort (fun left right => preferredObserver runtime left right ≤ 0) with
    | nil =>
      rw [order] at permuted
      obtain rfl := List.nil_perm.mp permuted
      obtain ⟨survivors, deleted, after, ran, sync, holds, parts, names, found⟩ := ih database
      refine ⟨survivors, deleted, after, ?_, sync, holds, by simpa using parts,
        names.cons _, ?_⟩
      · simp only [chooseSurvivors, order, ran]
      · intro entry member
        obtain ⟨group, inside, here⟩ := found entry member
        exact ⟨group, List.mem_cons_of_mem _ inside, here⟩
    | cons survivor duplicates =>
      rw [order] at permuted
      obtain ⟨between, removed, unchanged, kept⟩ := deleteDuplicates_run duplicates database
      obtain ⟨survivors, deleted, after, ran, sync, holds, parts, names, found⟩ := ih between
      refine ⟨(weekday, survivor) :: survivors, duplicates.map (·.id) ++ deleted, after, ?_,
        sync.trans unchanged, ?_, ?_, names.cons_cons _, ?_⟩
      · simp only [chooseSurvivors, order, Transaction.run_bind, removed, ran, Transaction.run_pure]
      · intro job
        rw [holds, kept, List.mem_append, not_or, and_assoc]
      · rw [List.flatMap_cons, List.map_append]
        have first := permuted.map (·.id)
        calc List.map (·.2.id) ((weekday, survivor) :: survivors) ++
              (duplicates.map (·.id) ++ deleted)
            = survivor.id :: (survivors.map (·.2.id) ++ (duplicates.map (·.id) ++ deleted)) :=
              rfl
          _ |>.Perm (survivor.id :: (duplicates.map (·.id) ++
                (survivors.map (·.2.id) ++ deleted))) := by
              refine List.Perm.cons _ ?_
              rw [← List.append_assoc, ← List.append_assoc]
              exact List.Perm.append_right _ List.perm_append_comm
          _ |>.Perm (candidates.map (·.id) ++ (groups.flatMap Prod.snd).map (·.id)) :=
              first.append parts
      · intro entry member
        rcases List.mem_cons.mp member with rfl | member
        · exact ⟨_, List.mem_cons_self, rfl, permuted.mem_iff.mp List.mem_cons_self⟩
        · obtain ⟨group, inside, here⟩ := found entry member
          exact ⟨group, List.mem_cons_of_mem _ inside, here⟩

theorem chooseSurvivors_single (runtime : Runtime) (database : Database)
    (single : ∀ group ∈ groups, group.2.length ≤ 1) :
    ∃ survivors, (chooseSurvivors runtime groups).run database = .ok ((survivors, []), database) := by
  induction groups with
  | nil => exact ⟨[], rfl⟩
  | cons group groups ih =>
    obtain ⟨weekday, candidates⟩ := group
    obtain ⟨survivors, ran⟩ := ih fun group member => single group (List.mem_cons_of_mem _ member)
    have short := single _ List.mem_cons_self
    cases candidates with
    | nil => exact ⟨survivors, by simpa [chooseSurvivors] using ran⟩
    | cons survivor others =>
      cases others with
      | nil =>
        refine ⟨(weekday, survivor) :: survivors, ?_⟩
        simp [chooseSurvivors, deleteDuplicates, ran]
      | cons other others => simp at short

end ListPhases

end Lobu.Reports
