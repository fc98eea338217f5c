import Lobu.Reports.Requests

namespace Lobu.Reports

open Lobu.Foundation

/-! # Runs of requests

What any sequence of requests, for one schedule or for many, keeps of an accepted one.
-/

section Persistence

variable {runtime : Runtime} {request again : Request} {before after : Database}
variable {input other : ReconcileSalesBattleReportScheduleInput} {answer : ReconcileResult}
variable {view : Weekday → Option ScheduledJobRow}

theorem observerExternalKey_schedule {first second : String} {day other : Fin 7}
    (same : observerExternalKey first day = observerExternalKey second other) : first = second := by
  have digit : ∀ day : Fin 7, (toString day.val).toList.length = 1 := by decide
  have texts := congrArg String.toList ((String.append_left_inj _).mp same)
  have ends : ∀ (text : String) (day : Fin 7), (text ++ toString day.val).toList =
      text.toList ++ (toString day.val).toList := fun _ _ => String.toList_append
  rw [ends, ends] at texts
  have starts := List.append_inj_left' texts ((digit day).trans (digit other).symm)
  exact (String.append_right_inj _).mp ((String.append_left_inj _).mp (String.toList_inj.mp starts))

theorem syncRow_schedule (same : (other.organizationId, other.toolboxScheduleId) =
    (input.organizationId, input.toolboxScheduleId)) (database : Database) :
    syncRow other database = syncRow input database := by
  obtain ⟨organizations, schedules⟩ := Prod.mk.inj same
  unfold syncRow
  congr 1
  funext row
  rw [SyncRow.isFor, SyncRow.isFor, organizations, schedules]

theorem Owned.schedule {first second schedule otherSchedule : String} {job : ScheduledJobRow}
    (owned : Owned first schedule job) (another : Owned second otherSchedule job) :
    (first, schedule) = (second, otherSchedule) := by
  have scheduled := (isOwnedObserver_iff.mp owned.2).2
  rw [(isOwnedObserver_iff.mp another.2).2, Option.some.injEq, Json.string.injEq] at scheduled
  rw [← owned.1, another.1, scheduled]

theorem Tracked.elsewhere (tracked : Tracked runtime other before view)
    (different : (other.organizationId, other.toolboxScheduleId) ≠ (input.organizationId, input.toolboxScheduleId))
    (accepts : Accepts runtime input before after) : Tracked runtime other after view := by
  have foreign : ∀ job, Owned other.organizationId other.toolboxScheduleId job →
      ¬ Owned input.organizationId input.toolboxScheduleId job :=
    fun job mine yours => different (mine.schedule yours)
  refine ⟨?_, tracked.weekdays, tracked.keys, ?_⟩
  · intro job
    rw [← tracked.observers job]
    constructor
    · rintro ⟨held, mine⟩
      exact ⟨(accepts.foreign job (foreign job mine)).mp held, mine⟩
    · rintro ⟨held, mine⟩
      exact ⟨(accepts.foreign job (foreign job mine)).mpr held, mine⟩
  · intro job held locked
    by_cases yours : Owned input.organizationId input.toolboxScheduleId job
    · obtain ⟨others, theirs, _⟩ := accepts.settled
      obtain ⟨weekday, there⟩ := (theirs.observers job).mp ⟨held, yours⟩
      have scheduled := (isOwnedObserver_iff.mp yours.2).2
      rw [actionArgsObject_get?] at scheduled
      simp only [locks, Bool.and_eq_true, beq_iff_eq, Bool.or_eq_true, List.any_eq_true,
        scheduleText, scheduled, Option.some.injEq] at locked
      obtain ⟨inside, ⟨_, same⟩ | ⟨day, _, keyed⟩⟩ := locked
      · exact absurd (by rw [← inside, yours.1, same]) different
      · obtain ⟨otherDay, _, sameKey⟩ := theirs.keys weekday job there _ keyed
        exact absurd (by rw [← inside, yours.1, observerExternalKey_schedule sameKey]) different
    · exact tracked.alone job ((accepts.foreign job yours).mp held) locked

theorem Settled.transfer (settled : Settled runtime input before)
    (schedule : (other.organizationId, other.toolboxScheduleId) = (input.organizationId, input.toolboxScheduleId))
    (revision : other.scheduleRevision = input.scheduleRevision)
    (fingerprint : acceptedRequestFingerprint runtime other =
      acceptedRequestFingerprint runtime input) : Settled runtime other before := by
  obtain ⟨users, agents, courses, days, states⟩ :=
    acceptedRequestFingerprint_injective fingerprint
  obtain ⟨organizations, schedules⟩ := Prod.mk.inj schedule
  obtain ⟨row, found, accepted, written⟩ := settled.recorded
  obtain ⟨view, tracked, settles⟩ := settled.observers
  have active : ∀ day job, Active input day job → Active other day job := by
    intro day job works
    refine ⟨works.running, ?_⟩
    have same := works.same
    unfold sameObserver at same ⊢
    rw [schedules, revision, users, courses, agents]
    exact same
  refine ⟨⟨row, (syncRow_schedule schedule before).trans found, accepted.trans revision.symm, written.trans fingerprint.symm⟩,
    view, ⟨?_, tracked.weekdays, ?_, ?_⟩, ?_, ?_, ?_⟩
  · rw [organizations, schedules]
    exact tracked.observers
  · rw [schedules]
    exact tracked.keys
  · rw [organizations, schedules]
    exact tracked.alone
  · rw [schedules]
    exact settles.keyed
  · rw [states, days]
    intro running day member
    obtain ⟨job, found, works⟩ := settles.wanted running day member
    exact ⟨job, found, active day job works⟩
  · rw [states, days]
    exact settles.others

/-- An accepted request is in force or has been overtaken by a newer revision. -/
def Absorbed (runtime : Runtime) (input : ReconcileSalesBattleReportScheduleInput) (database : Database) : Prop :=
  (∃ row, syncRow input database = some row ∧ input.scheduleRevision < row.lastAcceptedRevision) ∨
    Settled runtime input database

theorem Accepts.advances (accepts : Accepts runtime input before after)
    (other : ReconcileSalesBattleReportScheduleInput) {row : SyncRow} (found : syncRow other before = some row) :
    ∃ newer, syncRow other after = some newer ∧ row.lastAcceptedRevision ≤ newer.lastAcceptedRevision := by
  by_cases same : (other.organizationId, other.toolboxScheduleId) = (input.organizationId, input.toolboxScheduleId)
  · rw [syncRow_schedule same] at found
    obtain ⟨newer, recorded, revision, _⟩ := accepts.recorded
    refine ⟨newer, (syncRow_schedule same after).trans recorded, ?_⟩
    rw [revision]
    exact (accepts.newest row found).1
  · exact ⟨row, (accepts.spared other same).trans found, le_rfl⟩

theorem Absorbed.accepts (absorbed : Absorbed runtime other before)
    (accepts : Accepts runtime input before after) : Absorbed runtime other after := by
  by_cases same : (other.organizationId, other.toolboxScheduleId) = (input.organizationId, input.toolboxScheduleId)
  · obtain ⟨newer, recorded, revision, _⟩ := accepts.recorded
    have latest := (syncRow_schedule same after).trans recorded
    rcases absorbed with ⟨row, found, overtaken⟩ | settled
    · rw [syncRow_schedule same] at found
      refine .inl ⟨newer, latest, ?_⟩
      rw [revision]
      exact lt_of_lt_of_le overtaken (accepts.newest row found).1
    · obtain ⟨row, found, accepted, written⟩ := settled.recorded
      rw [syncRow_schedule same] at found
      obtain ⟨bound, fingerprint⟩ := accepts.newest row found
      rcases bound.lt_or_eq with overtaken | equal
      · refine .inl ⟨newer, latest, ?_⟩
        rw [revision, ← accepted]
        exact overtaken
      · exact .inr (accepts.settles.transfer same (accepted.symm.trans equal)
          (written.symm.trans (fingerprint equal)))
  · rcases absorbed with ⟨row, found, newer⟩ | ⟨⟨row, found, rest⟩, view, tracked, settles⟩
    · exact .inl ⟨row, (accepts.spared other same).trans found, newer⟩
    · exact .inr ⟨⟨row, (accepts.spared other same).trans found, rest⟩, view, tracked.elsewhere same accepts, settles⟩

theorem Absorbed.step (absorbed : Absorbed runtime other before)
    (ran : (reconcileSalesBattleReportSchedule runtime request).run before =
      .ok (answer, after)) : Absorbed runtime other after := by
  rcases reconcile_outcome runtime request before with
    failed | ⟨refused, same, _⟩ | ⟨accepted, later, same, _, accepts⟩
  · rw [failed] at ran
    cases ran
  · rw [same] at ran
    cases ran
    exact absorbed
  · rw [same] at ran
    cases ran
    exact absorbed.accepts accepts

theorem Absorbed.repeated (absorbed : Absorbed runtime request.input before) :
    ∃ answer, (reconcileSalesBattleReportSchedule runtime request).run before = .ok (answer, before) := by
  rcases absorbed with ⟨row, found, newer⟩ | settled
  · refine ⟨.staleRevision row.lastAcceptedRevision, ?_⟩
    simp [reconcileSalesBattleReportSchedule, found, refusal, newer]
  · exact reconcile_settled settled

end Persistence

section Runs

variable {runtime : Runtime} {database : Database}
variable {input : ReconcileSalesBattleReportScheduleInput} {day : Fin 7} {job : ScheduledJobRow}

abbrev Desk := Session Request Database Fault ReconcileResult

/-- Requests for any schedules, one transaction after the other, from any rows. -/
def requests (runtime : Runtime) : Machine Desk (SessionEvent Request) :=
  Session.sessions (reconcileSalesBattleReportSchedule runtime) fun _ => True

/-- An observer row of the schedule. -/
structure Observer (input : ReconcileSalesBattleReportScheduleInput) (database : Database)
    (job : ScheduledJobRow) : Prop where
  held : database.jobs.Holds job
  owned : Owned input.organizationId input.toolboxScheduleId job

/-- The observer of a weekday, as the request has it. -/
structure Carries (input : ReconcileSalesBattleReportScheduleInput) (day : Fin 7)
    (job : ScheduledJobRow) : Prop where
  externalKey : job.externalKey = some (observerExternalKey input.toolboxScheduleId day)
  scheduleRevision : job.scheduleRevision = input.scheduleRevision
  owner : job.createdByUser = some input.createdByUser
  revision : job.actionArgs.get? "scheduleRevision" =
    some (.number (.finite input.scheduleRevision))
  course : job.actionArgs.get? "courseName" = some (.string input.courseName)
  agent : job.actionArgs.get? "agentId" = some (.string input.agentId)

/-- The schedule is as the accepted request wants it. -/
structure Reconciled (runtime : Runtime) (input : ReconcileSalesBattleReportScheduleInput)
    (database : Database) : Prop where
  single : ∀ first second, Observer input database first → Observer input database second →
    observerWeekday runtime first = observerWeekday runtime second → first = second
  wanted : input.desiredState = .active → ∀ day ∈ input.salesTalkWeekdays, ∃ job,
    Observer input database job ∧ observerWeekday runtime job = .ok (dayNumber day) ∧
      job.paused = false ∧ Carries input day job ∧
      ∀ other, Observer input database other → other.paused = false →
        observerWeekday runtime other = .ok (dayNumber day) → other = job
  others : input.desiredState = .active → ∀ job, Observer input database job →
    (∀ day ∈ input.salesTalkWeekdays, observerWeekday runtime job ≠ .ok (dayNumber day)) →
      job.paused = true
  resting : input.desiredState ≠ .active → ∀ job, Observer input database job → job.paused = true
  accepted : ∃ row, syncRow input database = some row ∧
    row.lastAcceptedRevision = input.scheduleRevision

theorem Active.carries (active : Active input day job) : Carries input day job := by
  have same := active.same
  unfold sameObserver at same
  split at same
  · contradiction
  · rename_i args found
    simp only [Bool.and_eq_true, decide_eq_true_eq] at same
    obtain ⟨⟨⟨⟨⟨⟨⟨⟨⟨keyed, _⟩, revision⟩, _⟩, owner⟩, _⟩, number⟩, _⟩, course⟩, agent⟩ := same
    have read : ∀ key, job.actionArgs.get? key = args.get? key := by
      intro key
      rw [← actionArgsObject_get?, found]
      rfl
    have small : |(input.scheduleRevision : Int)| < 2 ^ 53 := by
      have bound := input.revisionAllowed.2
      rw [abs_of_nonneg (Int.natCast_nonneg _)]
      omega
    have whole : job.scheduleRevision = input.scheduleRevision :=
      JsNumber.eq_of_double small (by rw [revision, Int.cast_natCast])
    exact ⟨keyed, whole, owner, (read _).trans number, (read _).trans course, (read _).trans agent⟩

theorem Settled.reconciled (settled : Settled runtime input database) : Reconciled runtime input database := by
  obtain ⟨row, found, revision, _⟩ := settled.recorded
  obtain ⟨view, tracked, settles⟩ := settled.observers
  have place : ∀ job, Observer input database job →
      ∃ weekday, view weekday = some job ∧ observerWeekday runtime job = .ok weekday := by
    intro job observer
    obtain ⟨weekday, there⟩ := (tracked.observers job).mp ⟨observer.held, observer.owned⟩
    exact ⟨weekday, there, tracked.weekdays weekday job there⟩
  have alone : ∀ first second, Observer input database first → Observer input database second →
      observerWeekday runtime first = observerWeekday runtime second → first = second := by
    intro first second firstObserver secondObserver same
    obtain ⟨weekday, there, read⟩ := place first firstObserver
    obtain ⟨other, otherThere, otherRead⟩ := place second secondObserver
    rw [read, otherRead] at same
    cases same
    exact Option.some.inj (there.symm.trans otherThere)
  refine ⟨alone, ?_, ?_, ?_, row, found, revision⟩
  · intro running day member
    obtain ⟨job, there, active⟩ := settles.wanted running day (mem_normalizedWeekdays.mpr member)
    obtain ⟨held, owned⟩ := (tracked.observers job).mpr ⟨_, there⟩
    have read := tracked.weekdays _ _ there
    exact ⟨job, ⟨held, owned⟩, read, active.running, active.carries,
      fun other observer _ same => alone other job observer ⟨held, owned⟩ (same.trans read.symm)⟩
  · intro running job observer unwanted
    obtain ⟨weekday, there, read⟩ := place job observer
    refine settles.others weekday job there fun _ day member same => ?_
    exact unwanted day (mem_normalizedWeekdays.mp member) (read.trans (by rw [same]))
  · intro idle job observer
    obtain ⟨weekday, there, _⟩ := place job observer
    exact settles.others weekday job there fun running => absurd running idle

variable {before after : Desk} {request : Request} {answer : Except Fault ReconcileResult}

theorem accepts_of_execute {before after : Database} {result : ReconcileResult}
    (executed : (reconcileSalesBattleReportSchedule runtime request).execute before =
      (.ok result, after)) (accepted : result.accepted = true) : Accepts runtime request.input before after := by
  have run := Transaction.run_of_execute executed
  rcases reconcile_outcome runtime request before with
    failed | ⟨other, ran, refused⟩ | ⟨other, final, ran, _, accepts⟩
  · rw [failed] at run
    cases run
  · rw [ran] at run
    cases run
    rw [accepted] at refused
    contradiction
  · rw [ran] at run
    cases run
    exact accepts

theorem revision_kept {later : Desk} (input : ReconcileSalesBattleReportScheduleInput)
    (reached : (requests runtime).Reachable unrestricted before)
    (run : (requests runtime).Later unrestricted before later) :
    ∀ row, syncRow input before.committed = some row → ∃ newer, syncRow input later.committed = some newer ∧
        row.lastAcceptedRevision ≤ newer.lastAcceptedRevision := by
  refine Session.committed_related (fun first second => ∀ row, syncRow input first = some row →
    ∃ newer, syncRow input second = some newer ∧
      row.lastAcceptedRevision ≤ newer.lastAcceptedRevision) ?_ ?_ ?_ reached run
  · intro rows row found
    exact ⟨row, found, le_rfl⟩
  · intro first second third earlier next row found
    obtain ⟨newer, known, bound⟩ := earlier row found
    obtain ⟨newest, latest, above⟩ := next newer known
    exact ⟨newest, latest, bound.trans above⟩
  · intro command session result after _ ran row found
    rcases reconcile_outcome runtime command session.committed with
      failed | ⟨other, same, _⟩ | ⟨other, final, same, _, accepts⟩
    · rw [failed] at ran
      cases ran
    · rw [same] at ran
      cases ran
      exact ⟨row, found, le_rfl⟩
    · rw [same] at ran
      cases ran
      exact accepts.advances input found

theorem absorbed_kept {later : Desk} (input : ReconcileSalesBattleReportScheduleInput)
    (reached : (requests runtime).Reachable unrestricted before)
    (run : (requests runtime).Later unrestricted before later)
    (absorbed : Absorbed runtime input before.committed) : Absorbed runtime input later.committed := by
  refine Session.committed_related (fun first second => Absorbed runtime input first →
    Absorbed runtime input second) (fun _ => id) (fun _ _ _ first second => second ∘ first)
    ?_ reached run absorbed
  intro command session result after _ ran earlier
  exact earlier.step ran

/-- An accepted request leaves its schedule as it wants it, and nothing that is answered
afterwards lets the same request change anything again. -/
theorem reconciliation_converges (runtime : Runtime) (reached : (requests runtime).Reachable unrestricted before)
    (answered : Session.Answers (reconcileSalesBattleReportSchedule runtime) before after request answer) :
    answer ≠ .error .uniqueViolation ∧ (∀ result, answer = .ok result → result.accepted = false →
        after.committed = before.committed) ∧ (∀ result, answer = .ok result → result.accepted = true →
        Reconciled runtime request.input after.committed) ∧
      (∀ later, (requests runtime).Later unrestricted before later → ∀ input row,
        syncRow input before.committed = some row → ∃ newer, syncRow input later.committed = some newer ∧
            row.lastAcceptedRevision ≤ newer.lastAcceptedRevision) ∧
      ∀ result, answer = .ok result → result.accepted = true →
        ∀ later, (requests runtime).Later unrestricted after later → ∀ again : Request, again.input = request.input →
            ∃ repeated, (reconcileSalesBattleReportSchedule runtime again).execute
              later.committed = (.ok repeated, later.committed) := by
  have executed := answered.executes reached
  have outcome := reconcile_outcome runtime request before.committed
  refine ⟨?_, ?_, ?_, ?_, ?_⟩
  · rintro rfl
    rcases outcome with failed | ⟨result, ran, _⟩ | ⟨result, final, ran, _⟩
    · rw [Transaction.execute_error failed] at executed
      cases executed
    · rw [Transaction.execute_ok ran] at executed
      cases executed
    · rw [Transaction.execute_ok ran] at executed
      cases executed
  · rintro result rfl refused
    rcases outcome with failed | ⟨other, ran, _⟩ | ⟨other, final, ran, accepted, _⟩
    · rw [Transaction.execute_error failed] at executed
      cases executed
    · rw [Transaction.execute_ok ran] at executed
      exact (Prod.mk.inj executed).2.symm
    · rw [Transaction.execute_ok ran] at executed
      cases executed
      rw [refused] at accepted
      contradiction
  · rintro result rfl accepted
    exact (accepts_of_execute executed accepted).settles.reconciled
  · intro later run input row found
    exact revision_kept input reached run row found
  · rintro result rfl accepted later run again same
    have settled : Absorbed runtime request.input after.committed :=
      .inr (accepts_of_execute executed accepted).settles
    have kept := absorbed_kept request.input (answered.reachable reached) run settled
    rw [← same] at kept
    obtain ⟨repeated, ran⟩ := kept.repeated
    exact ⟨repeated, Transaction.execute_ok ran⟩

end Runs

def plainRuntime : Runtime where
  numberText value := toString value.num
  numberText_digit := by decide
  textNumber _ := none
  localeCompare _ _ := 0
  jsonbText _ := ""
  idText id := toString id

/-- An observer of a weekday under the key of another. -/
def swappedJob (id : Nat) (weekday keyed : Fin 7) : StoredJob where
  job := {
    id
    externalKey := some (observerExternalKey "s" keyed)
    scheduleRevision := 1
    organizationId := "o"
    actionType := observerActionType
    actionArgs := .object [("toolboxScheduleId", .string "s"),
      ("salesTalkWeekday", .number (.finite weekday.val))]
    cron := none
    nextRunAt := 0
    paused := false
    description := ""
    createdByUser := some "u"
    createdByAgent := none
    createdAt := some id }
  updatedAt := 0

/-- Monday has two observers, and Monday and Tuesday have each other's keys. -/
def swappedDatabase : Database where
  jobs := {
    rows := [swappedJob 0 1 2, swappedJob 1 2 1, swappedJob 2 1 3]
    nextId := 3
    ids := by decide
    fresh := by decide
    keys := by decide }
  sync := []

def mondayRequest : Request where
  input := {
    organizationId := "o"
    createdByUser := "u"
    agentId := "a"
    toolboxScheduleId := "s"
    scheduleRevision := 1
    courseName := "c"
    salesTalkWeekdays := [1]
    desiredState := .active
    revisionAllowed := by decide }
  now := 9
  nextRunAt _ := 9

theorem reconciliation_converges_swapped :
    Reconciled plainRuntime mondayRequest.input ((reconcileSalesBattleReportSchedule plainRuntime
      mondayRequest).execute swappedDatabase).2 := by
  have answer : ((reconcileSalesBattleReportSchedule plainRuntime mondayRequest).execute
      swappedDatabase).1 = .ok (.reconciled 1 [] [0, 1] [1] [2] [0]) := by
    decide +kernel
  obtain ⟨session, run, answered⟩ : ∃ session, (requests plainRuntime).Later unrestricted
      ⟨swappedDatabase, none⟩ session ∧
      Session.Answers (reconcileSalesBattleReportSchedule plainRuntime) session
        ⟨((reconcileSalesBattleReportSchedule plainRuntime mondayRequest).execute
          swappedDatabase).2, none⟩ mondayRequest (.ok (.reconciled 1 [] [0, 1] [1] [2] [0])) :=
    Session.later_execute _ (Prod.ext answer rfl)
  have started : (requests plainRuntime).Reachable unrestricted ⟨swappedDatabase, none⟩ :=
    .start ⟨trivial, rfl⟩
  exact (reconciliation_converges plainRuntime (started.later run) answered).2.2.1 _ rfl rfl

end Lobu.Reports
