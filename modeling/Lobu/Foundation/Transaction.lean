import Lobu.Foundation.Machine

namespace Lobu.Foundation

/-! # Transactions under one row lock

A transaction is a sequence of statements over the rows that its first statement
locks.  Whoever holds the lock works on rows that nobody else sees before the
commit; a rollback forgets them.  Other transactions wait, so the committed rows
go through a serial run.
-/

/-- A statement writes the rows; what comes next is chosen from the rows as it found them. -/
inductive Transaction (σ ε α : Type) where
  | done (result : α)
  | fail (error : ε)
  | statement (writes : σ → σ) (next : σ → Transaction σ ε α)

namespace Transaction

variable {σ ε α β γ : Type}

def bind : Transaction σ ε α → (α → Transaction σ ε β) → Transaction σ ε β
  | done result, rest => rest result
  | fail error, _ => fail error
  | statement writes next, rest => statement writes fun rows => (next rows).bind rest

instance : Monad (Transaction σ ε) where
  pure := done
  bind := bind

def read (view : σ → α) : Transaction σ ε α :=
  statement id fun rows => done (view rows)

def write (change : σ → σ) : Transaction σ ε Unit :=
  statement change fun _ => done ()

/-- A statement that the database may refuse. -/
def attempt (change : σ → Except ε (α × σ)) : Transaction σ ε α :=
  statement (fun rows => match change rows with | .ok (_, after) => after | .error _ => rows)
    fun rows => match change rows with | .ok (result, _) => done result | .error error => fail error

def ofExcept : Except ε α → Transaction σ ε α
  | .ok result => done result
  | .error error => fail error

/-- What a transaction that nobody disturbs computes. -/
def run : Transaction σ ε α → σ → Except ε (α × σ)
  | done result, rows => .ok (result, rows)
  | fail error, _ => .error error
  | statement writes next, rows => (next rows).run (writes rows)

/-- The answer of a transaction and the rows that it leaves; one that fails leaves them alone. -/
def execute (transaction : Transaction σ ε α) (rows : σ) : Except ε α × σ :=
  match transaction.run rows with
  | .ok (result, after) => (.ok result, after)
  | .error error => (.error error, rows)

variable {transaction : Transaction σ ε α} {rest : α → Transaction σ ε β} {rows after : σ}

@[simp] theorem run_pure (result : α) (rows : σ) :
    (pure result : Transaction σ ε α).run rows = .ok (result, rows) := rfl

@[simp] theorem run_done (result : α) (rows : σ) :
    (done result : Transaction σ ε α).run rows = .ok (result, rows) := rfl

@[simp] theorem run_fail (error : ε) (rows : σ) :
    (fail error : Transaction σ ε α).run rows = .error error := rfl

@[simp] theorem run_read (view : σ → α) (rows : σ) :
    (read view : Transaction σ ε α).run rows = .ok (view rows, rows) := rfl

@[simp] theorem run_write (change : σ → σ) (rows : σ) :
    (write change : Transaction σ ε Unit).run rows = .ok ((), change rows) := rfl

@[simp] theorem run_attempt (change : σ → Except ε (α × σ)) (rows : σ) : (attempt change).run rows = change rows := by
  simp only [attempt, run]
  cases change rows <;> rfl

@[simp] theorem run_ofExcept (result : Except ε α) (rows : σ) :
    (ofExcept result).run rows = result.map fun value => (value, rows) := by
  cases result <;> rfl

@[simp] theorem run_bind (transaction : Transaction σ ε α) (rest : α → Transaction σ ε β)
    (rows : σ) : (transaction >>= rest).run rows = match transaction.run rows with
      | .ok (result, after) => (rest result).run after
      | .error error => .error error := by
  change (transaction.bind rest).run rows = _
  induction transaction generalizing rows with
  | done result => rfl
  | fail error => rfl
  | statement writes next ih => exact ih rows (writes rows)

theorem except_bind_ok {given : Except ε α} {rest : α → Except ε β} {final : β} :
    (given >>= rest) = .ok final ↔ ∃ result, given = .ok result ∧ rest result = .ok final := by
  cases given with
  | error error =>
    constructor
    · intro failed
      cases failed
    · rintro ⟨result, failed, _⟩
      cases failed
  | ok value =>
    constructor
    · intro succeeded
      exact ⟨value, rfl, succeeded⟩
    · rintro ⟨result, same, succeeded⟩
      cases same
      exact succeeded

theorem match_run_ok {part : Except ε (α × σ)} {next : α → σ → Except ε γ} {final : γ} : (match part with
      | .ok (result, after) => next result after
      | .error error => .error error) = .ok final ↔
      ∃ result between, part = .ok (result, between) ∧ next result between = .ok final := by
  cases part with
  | error error => simp
  | ok ended =>
    obtain ⟨value, between⟩ := ended
    constructor
    · intro ran
      exact ⟨value, between, rfl, ran⟩
    · rintro ⟨_, _, same, ran⟩
      cases same
      exact ran

theorem run_bind_ok {final : β} :
    (transaction >>= rest).run rows = .ok (final, after) ↔
      ∃ result between, transaction.run rows = .ok (result, between) ∧
        (rest result).run between = .ok (final, after) := by
  rw [run_bind, match_run_ok]

/-- The loop rule: what holds before the first pass and is kept by every pass that comes to its
end holds once all items have had their pass. -/
theorem run_foldlM_ok {items : List γ} {body : β → γ → Transaction σ ε β} {start final : β}
    (motive : List γ → β → σ → Prop) (begins : motive [] start rows)
    (keeps : ∀ done item value between next later, done ++ [item] <+: items →
      motive done value between → (body value item).run between = .ok (next, later) →
        motive (done ++ [item]) next later)
    (ran : (items.foldlM body start).run rows = .ok (final, after)) : motive items final after := by
  have general : ∀ rest done value between, done ++ rest = items → motive done value between →
      (rest.foldlM body value).run between = .ok (final, after) → motive items final after := by
    intro rest
    induction rest with
    | nil =>
      intro done value between whole held ended
      cases ended
      rw [← whole, List.append_nil]
      exact held
    | cons item rest ih =>
      intro done value between whole held ended
      rw [List.foldlM_cons, run_bind_ok] at ended
      obtain ⟨next, later, passed, remaining⟩ := ended
      have joined : done ++ [item] ++ rest = items := by simpa using whole
      exact ih (done ++ [item]) next later joined
        (keeps done item value between next later ⟨rest, joined⟩ held passed) remaining
  exact general items [] start rows rfl begins ran

theorem ofExcept_ok {given : Except ε α} {result : α}
    (ran : (ofExcept given).run rows = .ok (result, after)) : given = .ok result ∧ after = rows := by
  cases given with
  | error error => contradiction
  | ok value =>
    cases ran
    exact ⟨rfl, rfl⟩

theorem execute_ok {result : α} (ran : transaction.run rows = .ok (result, after)) :
    transaction.execute rows = (.ok result, after) := by
  simp [execute, ran]

theorem execute_error {error : ε} (ran : transaction.run rows = .error error) :
    transaction.execute rows = (.error error, rows) := by
  simp [execute, ran]

theorem run_of_execute {result : α} (executed : transaction.execute rows = (.ok result, after)) :
    transaction.run rows = .ok (result, after) := by
  unfold execute at executed
  cases ran : transaction.run rows with
  | error error => simp [ran] at executed
  | ok ended =>
    obtain ⟨value, ending⟩ := ended
    simpa [ran] using executed

theorem rows_of_execute {error : ε} (executed : transaction.execute rows = (.error error, after)) : after = rows := by
  unfold execute at executed
  cases ran : transaction.run rows with
  | error other =>
    rw [ran] at executed
    cases executed
    rfl
  | ok ended => simp [ran] at executed

end Transaction

/-- The transaction that holds the lock, with the rows as it sees them. -/
structure Holder (κ σ ε α : Type) where
  command : κ
  rows : σ
  rest : Transaction σ ε α

structure Session (κ σ ε α : Type) where
  committed : σ
  holder : Option (Holder κ σ ε α)

inductive SessionEvent (κ : Type) where
  | lock (command : κ)
  | statement
  | finish
  | abort
deriving DecidableEq

namespace Session

variable {κ σ ε α : Type} (program : κ → Transaction σ ε α)

def step (session : Session κ σ ε α) : SessionEvent κ → Option (Session κ σ ε α)
  | .lock command =>
    match session.holder with
    | none => some { session with holder := some ⟨command, session.committed, program command⟩ }
    | some _ => none
  | .statement =>
    match session.holder with
    | some ⟨command, rows, .statement writes next⟩ =>
      some { session with holder := some ⟨command, writes rows, next rows⟩ }
    | _ => none
  | .finish =>
    match session.holder with
    | some ⟨_, rows, .done _⟩ => some ⟨rows, none⟩
    | some ⟨_, _, .fail _⟩ => some { session with holder := none }
    | _ => none
  -- a crash, a lost connection, a statement that the database gives up on
  | .abort =>
    match session.holder with
    | some _ => some { session with holder := none }
    | none => none

/-- The sessions over one locked row, from rows that `begins` allows. -/
def sessions (begins : σ → Prop) : Machine (Session κ σ ε α) (SessionEvent κ) where
  starts session := begins session.committed ∧ session.holder = none
  step := Session.step program

/-- A command's transaction ends here and answers its caller. -/
structure Answers (before after : Session κ σ ε α) (command : κ) (answer : Except ε α) : Prop where
  stepped : before.step program .finish = some after
  held : ∃ rows, before.holder = some
    ⟨command, rows, match answer with | .ok result => .done result | .error error => .fail error⟩

/-- What is left to run gives what the whole transaction gives on the committed rows. -/
def Consistent (session : Session κ σ ε α) : Prop :=
  ∀ holder ∈ session.holder,
    holder.rest.run holder.rows = (program holder.command).run session.committed

section Runs

variable {program} {before after : Session κ σ ε α} {begins : σ → Prop}
variable {allowed : Discipline (Session κ σ ε α) (SessionEvent κ)}
variable {event : SessionEvent κ} {command : κ} {answer : Except ε α}

theorem Consistent.step (consistent : before.Consistent program)
    (stepped : before.step program event = some after) : after.Consistent program := by
  cases event with
  | lock command =>
    cases locked : before.holder with
    | some holder => simp [Session.step, locked] at stepped
    | none =>
      simp only [Session.step, locked, Option.some.injEq] at stepped
      subst stepped
      intro holder held
      cases held
      rfl
  | statement =>
    cases locked : before.holder with
    | none => simp [Session.step, locked] at stepped
    | some holder =>
      obtain ⟨command, rows, rest⟩ := holder
      cases rest with
      | done result => simp [Session.step, locked] at stepped
      | fail error => simp [Session.step, locked] at stepped
      | statement writes next =>
        simp only [Session.step, locked, Option.some.injEq] at stepped
        subst stepped
        intro holder held
        cases held
        have before := consistent ⟨command, rows, .statement writes next⟩ locked
        exact before
  | finish =>
    cases locked : before.holder with
    | none => simp [Session.step, locked] at stepped
    | some holder =>
      obtain ⟨command, rows, rest⟩ := holder
      cases rest with
      | statement writes next => simp [Session.step, locked] at stepped
      | done result =>
        simp only [Session.step, locked, Option.some.injEq] at stepped
        subst stepped
        simp [Consistent]
      | fail error =>
        simp only [Session.step, locked, Option.some.injEq] at stepped
        subst stepped
        simp [Consistent]
  | abort =>
    cases locked : before.holder with
    | none => simp [Session.step, locked] at stepped
    | some holder =>
      simp only [Session.step, locked, Option.some.injEq] at stepped
      subst stepped
      simp [Consistent]

theorem consistent (reached : (sessions program begins).Reachable allowed before) : before.Consistent program := by
  apply reached.invariant
  · intro session starts holder held
    rw [starts.2] at held
    contradiction
  · intro before event after _ earlier _ stepped
    exact earlier.step stepped

theorem committed_kept (stepped : before.step program event = some after)
    (other : event ≠ .finish) : after.committed = before.committed := by
  cases event with
  | finish => contradiction
  | lock command =>
    cases locked : before.holder <;> simp [Session.step, locked] at stepped
    rw [← stepped]
  | abort =>
    cases locked : before.holder <;> simp [Session.step, locked] at stepped
    rw [← stepped]
  | statement =>
    simp only [Session.step] at stepped
    split at stepped
    · cases stepped
      rfl
    · contradiction

theorem answers_of_finish (stepped : before.step program .finish = some after) :
    ∃ command answer, Answers program before after command answer := by
  cases locked : before.holder with
  | none => simp [Session.step, locked] at stepped
  | some holder =>
    obtain ⟨command, rows, rest⟩ := holder
    cases rest with
    | done result => exact ⟨command, .ok result, stepped, rows, locked⟩
    | fail error => exact ⟨command, .error error, stepped, rows, locked⟩
    | statement writes next => simp [Session.step, locked] at stepped

theorem Answers.reachable (reached : (sessions program begins).Reachable unrestricted before)
    (answered : Answers program before after command answer) :
    (sessions program begins).Reachable unrestricted after := by
  have moved : (sessions program begins).step before .finish = some after := answered.stepped
  exact .step reached trivial moved

theorem Answers.executes (reached : (sessions program begins).Reachable allowed before)
    (answered : Answers program before after command answer) :
    (program command).execute before.committed = (answer, after.committed) := by
  obtain ⟨rows, held⟩ := answered.held
  have ran := consistent reached _ held
  have stepped := answered.stepped
  cases answer with
  | ok result =>
    simp only [Session.step, held, Option.some.injEq] at stepped
    subst stepped
    exact Transaction.execute_ok ran.symm
  | error error =>
    simp only [Session.step, held, Option.some.injEq] at stepped
    subst stepped
    exact Transaction.execute_error ran.symm

theorem step_committed (reached : (sessions program begins).Reachable allowed before)
    (stepped : before.step program event = some after) :
    after.committed = before.committed ∨ ∃ command answer, Answers program before after command answer ∧
        (program command).execute before.committed = (answer, after.committed) := by
  by_cases ends : event = .finish
  · subst ends
    obtain ⟨command, answer, answered⟩ := answers_of_finish stepped
    exact .inr ⟨command, answer, answered, answered.executes reached⟩
  · exact .inl (committed_kept stepped ends)

theorem committed_invariant {property : σ → Prop} (initially : ∀ rows, begins rows → property rows)
    (preserved : ∀ command rows result later, property rows →
      (program command).run rows = .ok (result, later) → property later)
    (reached : (sessions program begins).Reachable allowed before) : property before.committed := by
  induction reached with
  | start starts => exact initially _ starts.1
  | step reached _ moved ih =>
    rcases step_committed reached moved with same | ⟨command, answer, _, executed⟩
    · rw [same]
      exact ih
    · cases answer with
      | ok result => exact preserved _ _ _ _ ih (Transaction.run_of_execute executed)
      | error error =>
        rw [Transaction.rows_of_execute executed]
        exact ih

/-- A relation that every command that succeeds satisfies relates the committed rows to all
later ones. -/
theorem committed_related (relation : σ → σ → Prop) (reflexive : ∀ rows, relation rows rows)
    (transitive : ∀ first second third, relation first second → relation second third → relation first third)
    (stepwise : ∀ command session result later, (sessions program begins).Reachable allowed session →
      (program command).run session.committed = .ok (result, later) → relation session.committed later)
    (reached : (sessions program begins).Reachable allowed before)
    (later : (sessions program begins).Later allowed before after) : relation before.committed after.committed := by
  refine Machine.Later.related (fun first second => relation first.committed second.committed)
    (fun session => reflexive _) (fun _ _ _ => transitive _ _ _) ?_ reached later
  intro before event after reached _ stepped
  rcases step_committed reached stepped with same | ⟨command, answer, _, executed⟩
  · rw [same]
    exact reflexive _
  · cases answer with
    | ok result => exact stepwise _ _ _ _ reached (Transaction.run_of_execute executed)
    | error error =>
      rw [Transaction.rows_of_execute executed]
      exact reflexive _

end Runs

section Serial

variable {program} {begins : σ → Prop} {answer : Except ε α} {command : κ} {rows later : σ}

theorem later_ending (program : κ → Transaction σ ε α) (begins : σ → Prop) (committed : σ)
    (command : κ) (rest : Transaction σ ε α) (rows : σ) :
    ∃ ending answer, (sessions program begins).Later unrestricted
        ⟨committed, some ⟨command, rows, rest⟩⟩ ⟨committed, some ending⟩ ∧ Answers program ⟨committed, some ending⟩
        ⟨match rest.run rows with | .ok (_, after) => after | .error _ => committed, none⟩ command answer ∧
      answer = (rest.run rows).map Prod.fst := by
  induction rest generalizing rows with
  | done result => exact ⟨_, .ok result, .refl, ⟨rfl, rows, rfl⟩, rfl⟩
  | fail error => exact ⟨_, .error error, .refl, ⟨rfl, rows, rfl⟩, rfl⟩
  | statement writes next ih =>
    obtain ⟨ending, answer, later, answered⟩ := ih rows (writes rows)
    exact ⟨ending, answer, .head ⟨.statement, trivial, rfl⟩ later, answered⟩

theorem later_execute (begins : σ → Prop) (executed : (program command).execute rows = (answer, later)) :
    ∃ session, (sessions program begins).Later unrestricted ⟨rows, none⟩ session ∧
      Answers program session ⟨later, none⟩ command answer := by
  obtain ⟨ending, other, run, answered, same⟩ :=
    later_ending program begins rows command (program command) rows
  refine ⟨⟨rows, some ending⟩, .head ⟨.lock command, trivial, rfl⟩ run, ?_⟩
  unfold Transaction.execute at executed
  cases ran : (program command).run rows with
  | ok ended =>
    simp only [ran] at executed answered same
    cases executed
    subst same
    exact answered
  | error error =>
    simp only [ran] at executed answered same
    cases executed
    subst same
    exact answered

end Serial

end Session

end Lobu.Foundation
