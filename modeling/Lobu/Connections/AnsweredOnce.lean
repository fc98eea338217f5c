import Lobu.Connections.PendingInteractions

namespace Lobu.Connections

open Lobu.Foundation

variable {Entry : Type} {table after : PendingInteractions Entry} {questionId : String}

/-! # A pending question is answered at most once -/

namespace PendingInteractions

theorem find?_change {update : RowUpdate (PendingInteraction Entry)} {kept : ∀ row, (update.sets row).id = row.id} :
    (table.change update kept).find? questionId = (table.find? questionId).map update.onRow := by
  have sameId : ∀ row, (update.onRow row).id = row.id := update.onRow_column _ kept
  simp only [find?, change, RowUpdate.run, List.find?_map, Function.comp_def, sameId]

theorem find?_tested (table : PendingInteractions Entry) (questionId : String)
    (test : PendingInteraction Entry → Bool) :
    table.rows.find? (fun row => decide (row.id = questionId) && test row) =
      (table.find? questionId).filter test := by
  obtain ⟨rows, once⟩ := table
  simp only [find?]
  induction rows with
  | nil => rfl
  | cons row rows ih =>
    rw [List.map_cons, List.nodup_cons] at once
    by_cases same : row.id = questionId
    · cases passes : test row with
      | true => simp [Option.filter, same, passes]
      | false =>
        have others : rows.find? (fun row => decide (row.id = questionId) && test row) = none := by
          apply List.find?_eq_none.mpr
          intro other present both
          simp only [Bool.and_eq_true, decide_eq_true_eq] at both
          apply once.1
          rw [same, ← both.1]
          exact List.mem_map_of_mem present
        simp [Option.filter, same, passes, others]
    · simpa [same] using ih once.2

theorem find?_delete {selects : PendingInteraction Entry → Bool} :
    (table.delete selects).find? questionId = (table.find? questionId).filter fun row => !selects row := by
  rw [← find?_tested]
  simp only [find?, delete, deleteWhere, List.find?_filter]
  congr 1
  funext row
  simp [Bool.and_comm]

end PendingInteractions

namespace QuestionCall

/-- What the call stores under the id. -/
def stores? (questionId : String) : QuestionCall Entry → Option (QuestionOwner × Entry)
  | .storePendingQuestion id owner entry => if id = questionId then some (owner, entry) else none
  | _ => none

/-- For whom the call asks something about the id. -/
def caller? (questionId : String) : QuestionCall Entry → Option QuestionOwner
  | .storePendingQuestion id owner _ => if id = questionId then some owner else none
  | .claimPendingQuestion id owner => if id = questionId then some owner else none
  | .deletePendingQuestion id owner => if id = questionId then some owner else none
  | .sweepStalePendingInteractions .. => none

end QuestionCall

/-- The caller has claimed the question and got it. -/
def QuestionRecord.returns (questionId : String) (record : QuestionRecord Entry) : Bool :=
  match record.call, record.answer with
  | .claimPendingQuestion id _, .claimed (some _) => decide (id = questionId) && record.answered
  | _, _ => false

/-- Whom the question was last registered for, and with what. -/
def registration (questionId : String) (calls : List (QuestionRecord Entry)) : Option (QuestionOwner × Entry) :=
  calls.findSome? fun record => record.call.stores? questionId

/-- What a call can do to the row of a question. -/
inductive RowEffect (questionId : String) (event : QuestionEvent Entry)
    (answer : QuestionAnswer Entry) :
    Option (PendingInteraction Entry) → Option (PendingInteraction Entry) → Prop where
  | stored {before : Option (PendingInteraction Entry)} {row : PendingInteraction Entry}
      (call : event.call = .storePendingQuestion questionId row.owner row.entryPayload) :
      RowEffect questionId event answer before (some row)
  | claimed {row : PendingInteraction Entry}
      (call : event.call = .claimPendingQuestion questionId row.owner)
      (returned : answer = .claimed (some row.entryPayload)) (unclaimed : row.claimedAt = none) :
      RowEffect questionId event answer (some row) (some { row with claimedAt := some event.now })
  | unchanged {before : Option (PendingInteraction Entry)}
      (unstored : event.call.stores? questionId = none)
      (kept : QuestionRecord.returns questionId ⟨event.call, answer, event.answered⟩ = false) :
      RowEffect questionId event answer before before
  | removed {before : Option (PendingInteraction Entry)}
      (unstored : event.call.stores? questionId = none)
      (kept : QuestionRecord.returns questionId ⟨event.call, answer, event.answered⟩ = false)
      (authorized : ∀ caller ∈ event.call.caller? questionId, ∀ row ∈ before, row.owner = caller) :
      RowEffect questionId event answer before none

variable {answer : QuestionAnswer Entry}

theorem RowEffect.left {event : QuestionEvent Entry}
    {before after : Option (PendingInteraction Entry)} (kept : after = before)
    (unstored : event.call.stores? questionId = none)
    (silent : QuestionRecord.returns questionId ⟨event.call, answer, event.answered⟩ = false) :
    RowEffect questionId event answer before after := by
  rw [kept]
  exact .unchanged unstored silent

theorem store_row (table : PendingInteractions Entry) (questionId : String)
    (owner : QuestionOwner) (entry : Entry) (now : Int) :
    ∃ row : PendingInteraction Entry, row.owner = owner ∧ row.entryPayload = entry ∧
      (storePendingQuestion questionId owner entry now table).find? questionId = some row := by
  unfold storePendingQuestion
  split
  · rename_i row found
    have same : row.id = questionId := by simpa using List.find?_some found
    rw [PendingInteractions.find?_change, found, Option.map_some, RowUpdate.onRow_selected (decide_eq_true same)]
    exact ⟨_, rfl, rfl, rfl⟩
  · rename_i absent
    refine ⟨⟨questionId, owner, entry, now, none⟩, rfl, rfl, ?_⟩
    simp only [PendingInteractions.find?] at absent ⊢
    simp [PendingInteractions.insert, List.find?_append, absent]

theorem store_other_row {other : String} (apart : other ≠ questionId) (owner : QuestionOwner)
    (entry : Entry) (now : Int) :
    (storePendingQuestion other owner entry now table).find? questionId = table.find? questionId := by
  unfold storePendingQuestion
  split
  · rw [PendingInteractions.find?_change]
    cases found : table.find? questionId with
    | none => rfl
    | some row =>
      have same : row.id = questionId := by simpa using List.find?_some found
      rw [Option.map_some, RowUpdate.onRow_skipped]
      simpa [same] using Ne.symm apart
  · simp [PendingInteractions.find?, PendingInteractions.insert, List.find?_append, apart]

theorem find?_id {row : PendingInteraction Entry} (found : table.find? questionId = some row) :
    row.id = questionId := by
  simpa using List.find?_some found

theorem returns_other {id : String} {owner : QuestionOwner} {answered : Bool} (apart : id ≠ questionId) :
    QuestionRecord.returns questionId ⟨.claimPendingQuestion id owner, answer, answered⟩ = false := by
  unfold QuestionRecord.returns
  split
  · rename_i call _
    cases call
    simp [apart]
  · rfl

theorem claim_row (owner : QuestionOwner) (now : Int) (picked : List String) (answered : Bool) :
    RowEffect questionId ⟨.claimPendingQuestion questionId owner, now, picked, answered⟩
      (.claimed (claimPendingQuestion questionId owner now table).1) (table.find? questionId)
      ((claimPendingQuestion questionId owner now table).2.find? questionId) := by
  simp only [claimPendingQuestion, PendingInteractions.find?_change, PendingInteractions.find?_tested]
  cases found : table.find? questionId with
  | none => exact .unchanged rfl rfl
  | some row =>
    have same := find?_id found
    cases claimable : claimableBy owner row with
    | true =>
      simp only [claimableBy, Bool.and_eq_true, decide_eq_true_eq, Option.isNone_iff_eq_none] at claimable
      obtain ⟨rfl, unclaimed⟩ := claimable
      have passes : claimableBy row.owner row = true := by simp [claimableBy, unclaimed]
      rw [Option.map_some, RowUpdate.onRow_selected (by simp [same, passes])]
      refine .claimed rfl ?_ unclaimed
      simp [passes]
    | false =>
      rw [Option.map_some, RowUpdate.onRow_skipped (by simp [claimable])]
      refine .unchanged rfl ?_
      simp [claimable, QuestionRecord.returns]

theorem claim_other_row {id : String} (apart : id ≠ questionId) (owner : QuestionOwner) (now : Int) :
    (claimPendingQuestion id owner now table).2.find? questionId = table.find? questionId := by
  simp only [claimPendingQuestion, PendingInteractions.find?_change]
  cases found : table.find? questionId with
  | none => rfl
  | some row =>
    have same := find?_id found
    rw [Option.map_some, RowUpdate.onRow_skipped]
    simp [same, Ne.symm apart]

theorem delete_row (owner : QuestionOwner) (now : Int) (picked : List String) (answered : Bool) :
    RowEffect questionId ⟨.deletePendingQuestion questionId owner, now, picked, answered⟩
      (.deleted (deletePendingQuestion questionId owner table).1) (table.find? questionId)
      ((deletePendingQuestion questionId owner table).2.find? questionId) := by
  simp only [deletePendingQuestion, PendingInteractions.find?_delete]
  cases found : table.find? questionId with
  | none => exact .unchanged rfl rfl
  | some row =>
    by_cases owned : row.owner = owner
    · subst owned
      simp only [Option.filter, find?_id found, decide_true, Bool.and_self, Bool.not_true]
      refine .removed rfl rfl ?_
      intro caller asks present same
      cases same
      simpa [QuestionCall.caller?] using asks
    · simp only [Option.filter, owned, decide_false, Bool.and_false, Bool.not_false]
      exact .unchanged rfl rfl

theorem delete_other_row {id : String} (apart : id ≠ questionId) (owner : QuestionOwner) :
    (deletePendingQuestion id owner table).2.find? questionId = table.find? questionId := by
  simp only [deletePendingQuestion, PendingInteractions.find?_delete]
  cases found : table.find? questionId with
  | none => rfl
  | some row => simp [Option.filter, find?_id found, Ne.symm apart]

theorem serve_row {event : QuestionEvent Entry}
    (served : serve table event = some (answer, after)) (questionId : String) :
    RowEffect questionId event answer (table.find? questionId) (after.find? questionId) := by
  obtain ⟨call, now, picked, answered⟩ := event
  cases call with
  | storePendingQuestion id owner entry =>
    cases served
    by_cases same : id = questionId
    · subst same
      obtain ⟨row, rfl, rfl, stored⟩ := store_row table id owner entry now
      rw [stored]
      exact .stored rfl
    · exact .left (store_other_row same owner entry now) (if_neg same) rfl
  | claimPendingQuestion id owner =>
    cases served
    by_cases same : id = questionId
    · subst same
      exact claim_row owner now picked answered
    · exact .left (claim_other_row same owner now) rfl (returns_other same)
  | sweepStalePendingInteractions maxAgeMs limit =>
    obtain ⟨⟨ids, swept⟩, sweeps, same⟩ := Option.map_eq_some_iff.mp served
    cases same
    simp only [sweepStalePendingInteractions] at sweeps
    split at sweeps
    · cases sweeps
      rw [PendingInteractions.find?_delete]
      cases found : table.find? questionId with
      | none => exact .unchanged rfl rfl
      | some row =>
        cases gone : picked.contains row.id with
        | true =>
          simp only [Option.filter, gone, Bool.not_true]
          exact .removed rfl rfl nofun
        | false =>
          simp only [Option.filter, gone, Bool.not_false]
          exact .unchanged rfl rfl
    · cases sweeps
  | deletePendingQuestion id owner =>
    cases served
    by_cases same : id = questionId
    · subst same
      exact delete_row owner now picked answered
    · exact .left (delete_other_row same owner) rfl rfl

section Runs

variable {state later : Questions Entry} {event : QuestionEvent Entry}

/-- The question is not stored again after a claim of it has returned, and where it is still
stored only for its owner. -/
def registeredOnce (questionId : String) : Discipline (Questions Entry) (QuestionEvent Entry)
  | state, event => ∀ stored ∈ event.call.stores? questionId,
      state.calls.countP (QuestionRecord.returns questionId) = 0 ∧
        ∀ row ∈ state.table.find? questionId, row.owner = stored.1

instance (questionId : String) (state : Questions Entry) (event : QuestionEvent Entry) :
    Decidable (registeredOnce questionId state event) :=
  inferInstanceAs (Decidable (∀ _ ∈ _, _ ∧ ∀ _ ∈ _, _))

structure AnsweredAtMostOnce (questionId : String) (calls : List (QuestionRecord Entry)) :
    Prop where
  once : calls.countP (QuestionRecord.returns questionId) ≤ 1
  byOwner : ∀ record earlier, record :: earlier <:+ calls → record.returns questionId = true →
    ∃ owner entry, record.call = .claimPendingQuestion questionId owner ∧
      record.answer = .claimed (some entry) ∧ registration questionId earlier = some (owner, entry)

/-- A row says what was last registered, and is claimed once a claim has returned. -/
structure Tracked (questionId : String) (state : Questions Entry) : Prop where
  registered : ∀ row ∈ state.table.find? questionId,
    registration questionId state.calls = some (row.owner, row.entryPayload)
  spent : 0 < state.calls.countP (QuestionRecord.returns questionId) →
    ∀ row ∈ state.table.find? questionId, row.claimedAt ≠ none
  answered : AnsweredAtMostOnce questionId state.calls

theorem AnsweredAtMostOnce.silent {calls : List (QuestionRecord Entry)}
    {record : QuestionRecord Entry} (answered : AnsweredAtMostOnce questionId calls)
    (silent : record.returns questionId = false) : AnsweredAtMostOnce questionId (record :: calls) := by
  refine ⟨?_, ?_⟩
  · rw [List.countP_cons_of_neg (by simp [silent])]
    exact answered.once
  · intro other earlier suffix returns
    rcases List.suffix_cons_iff.mp suffix with same | before
    · cases same
      rw [silent] at returns
      contradiction
    · exact answered.byOwner other earlier before returns

theorem registration_kept {calls : List (QuestionRecord Entry)} {record : QuestionRecord Entry}
    (unstored : record.call.stores? questionId = none) :
    registration questionId (record :: calls) = registration questionId calls := by
  simp [registration, unstored]

theorem tracked_step (tracked : Tracked questionId state) (permitted : registeredOnce questionId state event)
    (stepped : questions.step state event = some later) : Tracked questionId later := by
  obtain ⟨⟨answer, table⟩, served, rfl⟩ := Option.map_eq_some_iff.mp stepped
  have effect := serve_row served questionId
  obtain ⟨registered, spent, answered⟩ := tracked
  generalize beforeRow : state.table.find? questionId = before at effect registered spent
  generalize afterRow : table.find? questionId = after at effect
  cases effect with
  | stored call =>
    rename_i row
    have stores : event.call.stores? questionId = some (row.owner, row.entryPayload) := by
      simp [call, QuestionCall.stores?]
    have silent : QuestionRecord.returns questionId ⟨event.call, answer, event.answered⟩ = false := by
      rw [call]
      rfl
    refine ⟨?_, ?_, answered.silent silent⟩
    · intro found same
      rw [afterRow, Option.mem_some_iff] at same
      subst same
      simp [registration, stores]
    · intro some_
      rw [List.countP_cons_of_neg (by simp [silent]), (permitted _ stores).1] at some_
      contradiction
  | claimed call returned unclaimed =>
    rename_i row
    have fresh : state.calls.countP (QuestionRecord.returns questionId) = 0 := by
      by_contra some_
      exact spent (Nat.pos_of_ne_zero some_) row rfl unclaimed
    have unstored : event.call.stores? questionId = none := by
      rw [call]
      rfl
    refine ⟨?_, ?_, ?_, ?_⟩
    · intro found same
      rw [afterRow, Option.mem_some_iff] at same
      subst same
      rw [registration_kept unstored]
      exact registered row rfl
    · intro _ found same
      rw [afterRow, Option.mem_some_iff] at same
      subst same
      simp
    · rw [List.countP_cons, fresh]
      split <;> omega
    · intro record earlier suffix returns
      rcases List.suffix_cons_iff.mp suffix with same | before
      · cases same
        exact ⟨row.owner, row.entryPayload, call, returned, registered row rfl⟩
      · exact answered.byOwner record earlier before returns
  | unchanged unstored kept =>
    refine ⟨?_, ?_, answered.silent kept⟩
    · intro row found
      rw [afterRow] at found
      rw [registration_kept unstored]
      exact registered row found
    · intro some_ row found
      rw [afterRow] at found
      rw [List.countP_cons_of_neg (by simp [kept])] at some_
      exact spent some_ row found
  | removed unstored kept authorized =>
    refine ⟨?_, ?_, answered.silent kept⟩
    · intro row found
      rw [afterRow] at found
      cases found
    · intro _ row found
      rw [afterRow] at found
      cases found

theorem tracked (reached : questions.Reachable (registeredOnce questionId) state) : Tracked questionId state := by
  refine reached.invariant ?_ ?_
  · intro state ⟨empty, silent⟩
    refine ⟨?_, ?_, ?_, ?_⟩
    · intro row found
      rw [empty] at found
      cases found
    · intro some_
      rw [silent] at some_
      cases some_
    · rw [silent]
      exact Nat.zero_le 1
    · intro record earlier suffix
      rw [silent] at suffix
      exact absurd (List.eq_nil_of_suffix_nil suffix) (List.cons_ne_nil _ _)
  · intro before event after _ tracked permitted stepped
    exact tracked_step tracked permitted stepped

theorem strangers_change_nothing (permitted : registeredOnce questionId state event)
    (stepped : questions.step state event = some later) {caller : QuestionOwner}
    (asks : event.call.caller? questionId = some caller) {row : PendingInteraction Entry}
    (found : state.table.find? questionId = some row) (stranger : row.owner ≠ caller) :
    later.table.find? questionId = some row := by
  obtain ⟨⟨answer, table⟩, served, rfl⟩ := Option.map_eq_some_iff.mp stepped
  have effect := serve_row served questionId
  rw [found] at effect
  generalize afterRow : table.find? questionId = after at effect
  cases effect with
  | stored call =>
    rename_i stored
    have stores : event.call.stores? questionId = some (stored.owner, stored.entryPayload) := by
      simp [call, QuestionCall.stores?]
    rw [call] at asks
    have same : stored.owner = caller := by simpa [QuestionCall.caller?] using asks
    exact absurd (((permitted _ stores).2 row found).trans same) stranger
  | claimed call =>
    rw [call] at asks
    have same : row.owner = caller := by simpa [QuestionCall.caller?] using asks
    exact absurd same stranger
  | unchanged => rfl
  | removed _ _ authorized => exact absurd (authorized caller asks row rfl) stranger

theorem answered_at_most_once (reached : questions.Reachable (registeredOnce questionId) state) :
    AnsweredAtMostOnce questionId state.calls ∧ ∀ event later, registeredOnce questionId state event →
        questions.step state event = some later →
          ∀ caller ∈ event.call.caller? questionId, ∀ row ∈ state.table.find? questionId,
            row.owner ≠ caller → later.table.find? questionId = some row :=
  ⟨(tracked reached).answered, fun _ _ permitted stepped _ asks _ found stranger =>
    strangers_change_nothing permitted stepped asks found stranger⟩

end Runs

def ada : QuestionOwner := ⟨"org", "slack", "ada"⟩

/-- Another user clicks first; the owner clicks twice. -/
def clicked : List (QuestionEvent String) :=
  [{ call := .storePendingQuestion "q" ada "go?" },
    { call := .claimPendingQuestion "q" { ada with expectedUserId := "eve" } },
    { call := .claimPendingQuestion "q" ada }, { call := .claimPendingQuestion "q" ada }]

theorem answered_at_most_once_clicked :
    ∃ state : Questions String, state.calls.countP (QuestionRecord.returns "q") = 1 ∧
      AnsweredAtMostOnce "q" state.calls := by
  obtain ⟨state, reached, answered⟩ := Machine.exists_of_replay questions (registeredOnce "q")
    ⟨.empty, []⟩ clicked (fun state => state.calls.countP (QuestionRecord.returns "q") == 1)
    ⟨rfl, rfl⟩ (by decide)
  exact ⟨state, by simpa using answered, (answered_at_most_once reached).1⟩

/-- The retry comes after the click, and the card is clicked again. -/
theorem answered_twice :
    ¬ ∀ state : Questions String, questions.Reachable unrestricted state → AnsweredAtMostOnce "q" state.calls := by
  intro always
  obtain ⟨state, reached, twice⟩ := Machine.exists_of_replay questions unrestricted ⟨.empty, []⟩
    (clicked ++ [{ call := .storePendingQuestion "q" ada "go?" },
      { call := .claimPendingQuestion "q" ada }])
    (fun state => state.calls.countP (QuestionRecord.returns "q") == 2) ⟨rfl, rfl⟩ (by decide)
  have once := (always state reached).once
  simp only [beq_iff_eq] at twice
  omega

end Lobu.Connections
