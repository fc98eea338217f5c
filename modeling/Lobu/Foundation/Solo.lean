import Lobu.Foundation.Process

namespace Lobu.Foundation

/-! # Processes one at a time

Processes that have shared data to themselves, one after the other.  The next one may begin before
the last is done, which has then been cut short.
-/

namespace Process

variable {σ χ ρ α β : Type} {answers : ρ → Type}

/-- Whatever lawful answers it gets, the process asks only where `holds` has it so, and ends with a
result and data as they should be. -/
def Ensures (serve : Service σ χ answers) (lawful : σ → ρ → χ → Prop) (holds : σ → ρ → Prop)
    (leaves : σ → α → Prop) : σ → Process ρ answers α → Prop
  | shared, done result => leaves shared result
  | shared, ask request next => holds shared request ∧
      ∀ choice answer after, lawful shared request choice →
        serve shared request choice = some (answer, after) →
          Ensures serve lawful holds leaves after (next answer)

section Rules

variable {serve : Service σ χ answers} {lawful : σ → ρ → χ → Prop} {holds : σ → ρ → Prop}
variable {leaves : σ → α → Prop} {ends : σ → β → Prop} {shared : σ} {program : Process ρ answers α}

theorem Ensures.mono {weaker : σ → α → Prop} (ensures : program.Ensures serve lawful holds leaves shared)
    (weaken : ∀ shared result, leaves shared result → weaker shared result) :
    program.Ensures serve lawful holds weaker shared := by
  induction program generalizing shared with
  | done result => exact weaken _ _ ensures
  | ask request next ih =>
    exact ⟨ensures.1, fun choice answer after permitted served =>
      ih answer (ensures.2 choice answer after permitted served)⟩

theorem ensures_bind {following : α → Process ρ answers β} :
    (program >>= following).Ensures serve lawful holds ends shared ↔ program.Ensures serve lawful holds
        (fun shared result => (following result).Ensures serve lawful holds ends shared) shared := by
  change (program.bind following).Ensures serve lawful holds ends shared ↔ _
  induction program generalizing shared with
  | done result => exact Iff.rfl
  | ask request next ih =>
    refine and_congr Iff.rfl ?_
    refine forall_congr' fun choice => forall_congr' fun answer => forall_congr' fun after => ?_
    exact forall_congr' fun _ => forall_congr' fun _ => ih answer

theorem Ensures.bind {following : α → Process ρ answers β}
    (ensures : program.Ensures serve lawful holds leaves shared) (goes : ∀ after result, leaves after result →
      (following result).Ensures serve lawful holds ends after) :
    (program >>= following).Ensures serve lawful holds ends shared :=
  ensures_bind.mpr (ensures.mono goes)

theorem Ensures.answered {request : ρ} {following : answers request → Process ρ answers β}
    (held : holds shared request) (goes : ∀ choice answer after, lawful shared request choice →
      serve shared request choice = some (answer, after) → (following answer).Ensures serve lawful holds ends after) :
    (answerTo request >>= following).Ensures serve lawful holds ends shared :=
  ⟨held, goes⟩

end Rules

end Process

/-- The data, and what is left of the process that began last. -/
structure Solo (σ : Type) {ρ : Type} (answers : ρ → Type) (α : Type) where
  shared : σ
  running : Process ρ answers α

inductive SoloEvent (κ χ : Type) where
  -- the process before it, where it is not done, is cut short
  | begins (command : κ)
  | answer (choice : χ)

namespace Solo

variable {κ σ χ ρ α : Type} {answers : ρ → Type}

def step (program : κ → Process ρ answers α) (serve : Service σ χ answers)
    (solo : Solo σ answers α) : SoloEvent κ χ → Option (Solo σ answers α)
  | .begins command => some ⟨solo.shared, program command⟩
  | .answer choice =>
    match solo.running with
    | .done _ => none
    | .ask request next =>
      match serve solo.shared request choice with
      | some (answer, after) => some ⟨after, next answer⟩
      | none => none

def solos (program : κ → Process ρ answers α) (serve : Service σ χ answers) (starts : σ → Prop) :
    Machine (Solo σ answers α) (SoloEvent κ χ) where
  starts solo := starts solo.shared ∧ ∃ result, solo.running = .done result
  step := Solo.step program serve

variable {program : κ → Process ρ answers α} {serve : Service σ χ answers} {starts : σ → Prop}
variable {solo after : Solo σ answers α}

theorem step_cases {event : SoloEvent κ χ} (stepped : solo.step program serve event = some after) :
    (∃ command, event = .begins command ∧ after = ⟨solo.shared, program command⟩) ∨
    ∃ (choice : χ) (request : ρ) (next : answers request → Process ρ answers α)
        (answer : answers request) (shared : σ), event = .answer choice ∧
      solo.running = .ask request next ∧ serve solo.shared request choice = some (answer, shared) ∧
      after = ⟨shared, next answer⟩ := by
  cases event with
  | begins command =>
    cases stepped
    exact .inl ⟨command, rfl, rfl⟩
  | answer choice =>
    simp only [Solo.step] at stepped
    split at stepped
    · contradiction
    · rename_i request next running
      split at stepped
      · rename_i answer shared served
        cases stepped
        exact .inr ⟨choice, request, next, answer, shared, rfl, running, served, rfl⟩
      · contradiction

/-- The runs in which processes begin and are answered only as permitted. -/
structure Rules (κ σ ρ χ : Type) where
  begins : σ → κ → Prop
  answers : σ → ρ → χ → Prop

def Rules.allow (rules : Rules κ σ ρ χ) : Discipline (Solo σ answers α) (SoloEvent κ χ)
  | solo, .begins command => rules.begins solo.shared command
  | solo, .answer choice =>
    match solo.running with
    | .ask request _ => rules.answers solo.shared request choice
    | .done _ => True

instance (rules : Rules κ σ ρ χ) [∀ shared command, Decidable (rules.begins shared command)]
    [∀ shared request choice, Decidable (rules.answers shared request choice)]
    (solo : Solo σ answers α) (event : SoloEvent κ χ) : Decidable (rules.allow solo event) :=
  match event with
  | .begins command => inferInstanceAs (Decidable (rules.begins solo.shared command))
  | .answer choice =>
    match running : solo.running with
    | .ask request _ => decidable_of_iff (rules.answers solo.shared request choice)
        (by simp only [Rules.allow, running])
    | .done _ => .isTrue (by simp only [Rules.allow, running])

/-- The invariant rule.  Data that are good where a process asks and where it ends are good wherever
it is cut short; and the last process to begin still ensures what it did when it began. -/
theorem ensured {rules : Rules κ σ ρ χ} {holds : σ → ρ → Prop} {good : σ → Prop}
    (initially : ∀ shared, starts shared → good shared) (held : ∀ shared request, holds shared request → good shared)
    (conduct : ∀ shared command, good shared → rules.begins shared command →
      (program command).Ensures serve rules.answers holds (fun after _ => good after) shared)
    (reached : (solos program serve starts).Reachable rules.allow solo) :
    solo.running.Ensures serve rules.answers holds (fun after _ => good after) solo.shared := by
  let standing (solo : Solo σ answers α) : Prop :=
    solo.running.Ensures serve rules.answers holds (fun after _ => good after) solo.shared
  have good_of {solo : Solo σ answers α} (stands : standing solo) : good solo.shared := by
    cases running : solo.running with
    | done result =>
      simp only [standing, running] at stands
      exact stands
    | ask request next =>
      simp only [standing, running] at stands
      exact held _ _ stands.1
  change standing solo
  refine reached.invariant ?_ ?_
  · rintro solo ⟨begins, result, done⟩
    simp only [standing, done]
    exact initially _ begins
  · intro before event after _ stands permitted stepped
    rcases step_cases stepped with ⟨command, rfl, rfl⟩ |
      ⟨choice, request, next, answer, shared, rfl, running, served, rfl⟩
    · have fine : good before.shared := good_of stands
      exact conduct _ _ fine permitted
    · simp only [standing, running] at stands
      simp only [Rules.allow, running] at permitted
      exact stands.2 choice answer shared permitted served

end Solo

end Lobu.Foundation
