import Lobu.Reports.Phases

namespace Lobu.Reports

open Lobu.Foundation

/-! # Convergence of the reconciliation

What an accepted request leaves behind is settled for the request: each weekday has at
most one observer, and the observer is what the request asks for.  A settled schedule is
left alone by the same request.
-/

section Runs

variable {runtime : Runtime} {request again : Request} {database after : Database}
variable {input : ReconcileSalesBattleReportScheduleInput} {rows : List ScheduledJobRow}
variable {view : Weekday → Option ScheduledJobRow}

variable {survivors : Survivors}

theorem lookup_eq_some (once : (survivors.map Prod.fst).Nodup) (weekday : Weekday) (job : ScheduledJobRow) :
    survivors.lookup weekday = some job ↔ (weekday, job) ∈ survivors := by
  induction survivors with
  | nil => simp
  | cons entry survivors ih =>
    obtain ⟨known, survivor⟩ := entry
    rw [List.map_cons, List.nodup_cons] at once
    rw [List.lookup_cons, List.mem_cons]
    by_cases same : weekday = known
    · subst same
      have absent : (weekday, job) ∉ survivors := fun member =>
        once.1 (List.mem_map.mpr ⟨_, member, rfl⟩)
      simp [absent, eq_comm]
    · rw [beq_false_of_ne same]
      simp [same, ih once.2]

theorem lookup_eq_none {weekday : Weekday}
    (outside : weekday ∉ survivors.map Prod.fst) : survivors.lookup weekday = none := by
  apply List.lookup_eq_none_iff.mpr
  intro entry member
  apply bne_iff_ne.mpr
  rintro rfl
  exact outside (List.mem_map_of_mem member)

theorem tracked_of_chosen {deleted : List Nat} {groups : List (Weekday × List ScheduledJobRow)}
    (listed : Listed runtime input database rows) (grouped : Grouped runtime groups)
    (all : (groups.flatMap Prod.snd).Perm rows)
    (keys : ∀ row ∈ rows, ∀ weekday, observerWeekday runtime row = .ok weekday →
      ∀ key, row.externalKey = some key → keyOf input.toolboxScheduleId weekday = some key)
    (sync : after.sync = database.sync)
    (holds : ∀ job, after.jobs.Holds job ↔ database.jobs.Holds job ∧ job.id ∉ deleted)
    (parts : (survivors.map (·.2.id) ++ deleted).Perm ((groups.flatMap Prod.snd).map (·.id)))
    (names : (survivors.map Prod.fst).Sublist (groups.map Prod.fst))
    (found : ∀ entry ∈ survivors, ∃ group ∈ groups, group.1 = entry.1 ∧ entry.2 ∈ group.2) :
    Unaffected input database after ∧ Tracked runtime input after fun weekday => survivors.lookup weekday := by
  have once : (survivors.map Prod.fst).Nodup := grouped.once.sublist names
  have places := parts.trans (all.map (·.id))
  have distinct := places.nodup_iff.mpr listed.ids
  have among : ∀ entry ∈ survivors, entry.2 ∈ rows ∧ observerWeekday runtime entry.2 = .ok entry.1 := by
    intro entry member
    obtain ⟨group, inside, same, here⟩ := found entry member
    refine ⟨all.mem_iff.mp (List.mem_flatMap.mpr ⟨group, inside, here⟩), ?_⟩
    rw [← same]
    exact grouped.sorted group inside _ here
  have aside : Unaffected input database after := by
    refine ⟨sync, fun job foreign => ?_⟩
    rw [holds, and_iff_left_of_imp]
    intro present gone
    have placed := places.mem_iff.mp (List.mem_append_right _ gone)
    obtain ⟨row, member, same⟩ := List.mem_map.mp placed
    obtain ⟨listing, owned⟩ := (listed.observers row).mpr member
    rw [present.eq listing same.symm] at foreign
    exact foreign owned
  refine ⟨aside, ?_, ?_, ?_, ?_⟩
  · intro job
    rw [holds]
    constructor
    · rintro ⟨⟨present, kept⟩, owned⟩
      have member := (listed.observers job).mp ⟨present, owned⟩
      have placed := places.mem_iff.mpr (List.mem_map_of_mem member)
      obtain inside | gone := List.mem_append.mp placed
      · obtain ⟨entry, survived, same⟩ := List.mem_map.mp inside
        obtain rfl := List.inj_on_of_nodup_map listed.ids (among entry survived).1 member same
        exact ⟨entry.1, (lookup_eq_some once _ _).mpr survived⟩
      · exact absurd gone kept
    · rintro ⟨weekday, there⟩
      have survived := (lookup_eq_some once _ _).mp there
      obtain ⟨present, owned⟩ := (listed.observers job).mpr (among _ survived).1
      refine ⟨⟨present, ?_⟩, owned⟩
      intro gone
      exact List.disjoint_of_nodup_append distinct (List.mem_map_of_mem survived) gone
  · intro weekday job there
    exact (among _ ((lookup_eq_some once _ _).mp there)).2
  · intro weekday job there key held
    obtain ⟨member, read⟩ := among _ ((lookup_eq_some once _ _).mp there)
    have keyed := keys job member weekday read key held
    obtain ⟨day, placed, same⟩ := Option.map_eq_some_iff.mp keyed
    exact ⟨day, dayNumber_of_calendarDay placed, same.symm⟩
  · intro job present locked
    exact listed.alone job ((holds job).mp present).1 locked

/-- The observers of a schedule are what the input asks for. -/
structure Settles (input : ReconcileSalesBattleReportScheduleInput)
    (view : Weekday → Option ScheduledJobRow) : Prop where
  keyed : ∀ weekday job, view weekday = some job →
    Keyed input.toolboxScheduleId weekday job
  wanted : input.desiredState = .active → ∀ day ∈ normalizedWeekdays input,
    ∃ job, view (dayNumber day) = some job ∧ Active input day job
  others : ∀ weekday job, view weekday = some job →
    (input.desiredState = .active → ∀ day ∈ normalizedWeekdays input, weekday ≠ dayNumber day) →
      job.paused = true

theorem shouldPause_iff {weekday : Weekday} : shouldPause request weekday = true ↔
    (request.input.desiredState = .active → ∀ day ∈ normalizedWeekdays request.input, weekday ≠ dayNumber day) := by
  simp only [shouldPause, Bool.or_eq_true, decide_eq_true_eq, Bool.not_eq_true',
    ← Bool.not_eq_true, List.any_eq_true, not_exists, not_and]
  constructor
  · rintro (idle | unwanted) active day member same
    · exact idle active
    · exact unwanted day member same.symm
  · intro unwanted
    by_cases active : request.input.desiredState = .active
    · exact .inr fun day member same => unwanted active day member same.symm
    · exact .inl active

theorem normalizedWeekdays_nodup (input : ReconcileSalesBattleReportScheduleInput) :
    (normalizedWeekdays input).Nodup :=
  (List.perm_insertionSort _ _).nodup_iff.mpr (List.nodup_dedup _)

@[simp] theorem mem_normalizedWeekdays {day : Fin 7} :
    day ∈ normalizedWeekdays input ↔ day ∈ input.salesTalkWeekdays := by
  simp [normalizedWeekdays]

theorem repairDrift_run {drifted : Bool} (listed : Listed runtime request.input database rows)
    (drift : hasExternalKeyDrift runtime request.input rows = .ok drifted) :
    ∃ cleared between, (repairDrift request drifted rows).run database = .ok (cleared, between) ∧
      Unaffected request.input database between ∧ Listed runtime request.input between cleared ∧
      ∀ row ∈ cleared, ∀ weekday, observerWeekday runtime row = .ok weekday → ∀ key, row.externalKey = some key →
          keyOf request.input.toolboxScheduleId weekday = some key := by
  cases drifted with
  | true =>
    obtain ⟨between, ran, aside, next⟩ := clearExternalKeys_run (show Listed runtime
      request.input database ([] ++ rows) from listed)
    refine ⟨_, between, ran, aside, next, ?_⟩
    intro row member weekday _ key held
    obtain ⟨before, _, rfl⟩ := List.mem_map.mp member
    cases held
  | false =>
    refine ⟨rows, database, rfl, .refl, listed, ?_⟩
    intro row member weekday read key held
    obtain ⟨known, found, keyed⟩ := hasExternalKeyDrift_false.mp drift row member
    rw [read] at found
    cases found
    rw [← keyed, held]

theorem activation_run (tracked : Tracked runtime request.input database view)
    (placed : ∀ weekday, survivors.lookup weekday = view weekday) :
    ∃ active after later, (activation request survivors).run database = .ok (active, after) ∧
      Unaffected request.input database after ∧ Tracked runtime request.input after later ∧
      (request.input.desiredState = .active → ∀ day ∈ normalizedWeekdays request.input,
        ∃ job, later (dayNumber day) = some job ∧ Active request.input day job) ∧
      ∀ weekday, shouldPause request weekday = true → later weekday = view weekday := by
  by_cases active : request.input.desiredState = .active
  · obtain ⟨done, after, later, ran, aside, tracks, wanted, kept⟩ :=
      activateObservers_run tracked (fun day _ => placed (dayNumber day))
        (normalizedWeekdays_nodup request.input)
    refine ⟨done, after, later, ?_, aside, tracks, fun _ => wanted, ?_⟩
    · rw [activation, if_pos active, ran]
    · intro weekday unwanted
      exact kept weekday (shouldPause_iff.mp unwanted active)
  · refine ⟨{}, database, view, ?_, .refl, tracked, fun running => absurd running active, fun _ _ => rfl⟩
    rw [activation, if_neg active]
    rfl

theorem Active.key {day : Fin 7} {job : ScheduledJobRow} (active : Active input day job) :
    job.externalKey = some (observerExternalKey input.toolboxScheduleId day) := by
  have same := active.same
  unfold sameObserver at same
  split at same
  · contradiction
  · simp only [Bool.and_eq_true, decide_eq_true_eq] at same
    exact same.1.1.1.1.1.1.1.1.1

theorem settles_of_pause {keyed active later : Weekday → Option ScheduledJobRow}
    (repaired : ∀ entry ∈ survivors, keyed entry.1 = some entry.2 ∧
      Keyed request.input.toolboxScheduleId entry.1 entry.2)
    (outside : ∀ weekday ∉ survivors.map Prod.fst, keyed weekday = none)
    (wanted : request.input.desiredState = .active → ∀ day ∈ normalizedWeekdays request.input,
      ∃ job, active (dayNumber day) = some job ∧ Active request.input day job)
    (kept : ∀ weekday, shouldPause request weekday = true → active weekday = keyed weekday)
    (stopped : ∀ entry ∈ survivors, shouldPause request entry.1 = true →
      later entry.1 = some { entry.2 with paused := true }) (spared : ∀ weekday, (weekday ∈ survivors.map Prod.fst →
      shouldPause request weekday = false) → later weekday = active weekday) : Settles request.input later := by
  have unwanted : ∀ weekday job, later weekday = some job → shouldPause request weekday = true →
      ∃ entry ∈ survivors, entry.1 = weekday ∧ job = { entry.2 with paused := true } := by
    intro weekday job there pauses
    by_cases inside : weekday ∈ survivors.map Prod.fst
    · obtain ⟨entry, member, rfl⟩ := List.mem_map.mp inside
      rw [stopped entry member pauses] at there
      exact ⟨entry, member, rfl, (Option.some.inj there).symm⟩
    · rw [spared weekday (fun member => absurd member inside), kept weekday pauses, outside weekday inside] at there
      contradiction
  have running : ∀ weekday, shouldPause request weekday = false →
      ∃ day job, weekday = dayNumber day ∧ later weekday = some job ∧
        Active request.input day job := by
    intro weekday spares
    have chosen : ¬ (request.input.desiredState = .active →
        ∀ day ∈ normalizedWeekdays request.input, weekday ≠ dayNumber day) := by
      rw [← shouldPause_iff, spares]
      exact Bool.false_ne_true
    push Not at chosen
    obtain ⟨state, day, member, rfl⟩ := chosen
    obtain ⟨job, found, works⟩ := wanted state day member
    exact ⟨day, job, rfl, (spared _ fun _ => spares).trans found, works⟩
  refine ⟨?_, ?_, ?_⟩
  · intro weekday job there
    cases pauses : shouldPause request weekday with
    | true =>
      obtain ⟨entry, member, rfl, rfl⟩ := unwanted weekday job there pauses
      exact (repaired entry member).2
    | false =>
      obtain ⟨day, other, rfl, found, works⟩ := running weekday pauses
      rw [found] at there
      cases there
      intro place same
      rw [← dayNumber_injective same]
      exact works.key
  · intro state day member
    have spares : shouldPause request (dayNumber day) = false := by
      rw [← Bool.not_eq_true, shouldPause_iff]
      exact fun apart => apart state day member rfl
    obtain ⟨place, job, same, found, works⟩ := running _ spares
    rw [← dayNumber_injective same] at works
    exact ⟨job, found, works⟩
  · intro weekday job there apart
    obtain ⟨entry, _, _, rfl⟩ := unwanted weekday job there (shouldPause_iff.mpr apart)
    rfl

/-- The observers are brought to what the request asks for, unless a weekday has no
primitive value. -/
theorem reconcileObservers_outcome (listed : Listed runtime request.input database rows) :
    (reconcileObservers runtime request rows).run database = .error .typeError ∨ ∃ result after later,
        (reconcileObservers runtime request rows).run database = .ok (result, after) ∧
        Unaffected request.input database after ∧ Tracked runtime request.input after later ∧
        Settles request.input later := by
  cases drift : hasExternalKeyDrift runtime request.input rows with
  | error fault =>
    obtain rfl := hasExternalKeyDrift_fault _ drift
    left
    simp [reconcileObservers, drift, Except.map]
  | ok drifted =>
    obtain ⟨cleared, between, cleaned, first, next, keys⟩ := repairDrift_run listed drift
    cases grouping : candidatesByWeekday runtime cleared [] with
    | error fault =>
      obtain rfl := candidatesByWeekday_fault _ grouping
      left
      simp only [reconcileObservers, Transaction.run_bind, Transaction.run_ofExcept, drift,
        grouping, cleaned, Except.map]
    | ok groups =>
      obtain ⟨grouped, all⟩ := candidatesByWeekday_grouped ⟨by simp, by simp⟩ grouping
      obtain ⟨survivors, deleted, chosen, chose, sync, holds, parts, names, found⟩ :=
        chooseSurvivors_run runtime groups between
      obtain ⟨second, tracked⟩ := tracked_of_chosen next grouped (by simpa using all) keys
        sync holds parts names found
      have once := grouped.once.sublist names
      obtain ⟨repaired, ids, fixed, keyed, repairs, third, tracked, same, places, kept⟩ :=
        repairExternalKeys_run (rows.map fun row => (row.id, row.externalKey)) tracked
          (fun entry member => (lookup_eq_some once _ _).mpr member) once
      rw [← same] at once
      have outside : ∀ weekday ∉ repaired.map Prod.fst, keyed weekday = none := by
        intro weekday missing
        rw [same] at missing
        rw [kept weekday missing, lookup_eq_none missing]
      have placed : ∀ weekday, repaired.lookup weekday = keyed weekday := by
        intro weekday
        by_cases inside : weekday ∈ repaired.map Prod.fst
        · obtain ⟨entry, member, rfl⟩ := List.mem_map.mp inside
          rw [(places entry member).1]
          exact (lookup_eq_some once _ _).mpr member
        · rw [outside weekday inside, lookup_eq_none inside]
      obtain ⟨active, awake, running, activated, fourth, tracked, wanted, spared⟩ :=
        activation_run tracked placed
      obtain ⟨paused, after, later, stops, last, tracked, stopped, untouched⟩ :=
        pauseObservers_run tracked (fun entry member pauses =>
          (spared _ pauses).trans (places entry member).1) once
      right
      refine ⟨({ active with
          updated := active.updated ++ ids.filter fun id => !active.updated.contains id },
          paused, deleted), after, later, ?_, ?_, tracked,
        settles_of_pause places outside wanted spared stopped untouched⟩
      · simp only [reconcileObservers, Transaction.run_bind, Transaction.run_ofExcept, drift,
          cleaned, grouping, chose, repairs, activated, stops, Except.map,
          Transaction.run_pure]
      · exact first.trans (second.trans (third.trans (fourth.trans last)))

end Runs

end Lobu.Reports
