import Lobu.Foundation.Process

namespace Lobu.Foundation.Process

/-! # Processes that go on together

A program that begins two parts and awaits both has the questions of both open at once.  A schedule
says whose question is answered next; where it ends, the first part goes first.
-/

variable {ρ : Type} {answers : ρ → Type} {α β : Type}

def both : List Bool → Process ρ answers α → Process ρ answers β → Process ρ answers (α × β)
  | [], first, second => first.bind fun result => second.bind fun other => done (result, other)
  | true :: schedule, .ask request next, second =>
    .ask request fun answer => both schedule (next answer) second
  | false :: schedule, first, .ask request next =>
    .ask request fun answer => both schedule first (next answer)
  | _ :: schedule, first, second => both schedule first second

/-- All of the parts, each with a schedule of its own against the later ones. -/
def together : List (Process ρ answers Unit) → List (List Bool) → Process ρ answers Unit
  | [], _ => done ()
  | part :: parts, schedules =>
    (both (schedules.headD []) part (together parts schedules.tail)).bind fun _ => done ()

section Rules

variable {permits ours theirs : List (Exchange answers) → ρ → Prop}
variable {leaves : List (Exchange answers) → α → Prop}
variable {ends : List (Exchange answers) → β → Prop}
variable {said more : List (Exchange answers)}
variable {first : Process ρ answers α} {second : Process ρ answers β}

/-- A part that asks what is permitted goes on keeping to its rules whatever is asked by `others`. -/
structure Undisturbed (permits mine others : List (Exchange answers) → ρ → Prop)
    (leaves : List (Exchange answers) → α → Prop) : Prop where
  permitted : ∀ {said request}, mine said request → permits said request
  steady : ∀ {said request} (answer : answers request) {program : Process ρ answers α},
    others said request → program.Keeps mine (fun _ _ => True) leaves said →
      program.Keeps mine (fun _ _ => True) leaves (⟨request, answer⟩ :: said)

variable (forFirst : Undisturbed permits ours theirs leaves)
variable (forSecond : Undisturbed permits theirs ours ends)

include forFirst forSecond

theorem keeps_inTurn (keptFirst : first.Keeps ours (fun _ _ => True) leaves said)
    (keptSecond : second.Keeps theirs (fun _ _ => True) ends said) :
    (both [] first second).Keeps permits (fun _ _ => True)
      (fun said results => leaves said results.1 ∧ ends said results.2) said := by
  induction first generalizing said with
  | done result =>
    change Keeps _ _ _ said (second >>= fun other => pure (result, other))
    induction second generalizing said with
    | done other => exact ⟨keptFirst, keptSecond⟩
    | ask request next ih =>
      refine ⟨forSecond.permitted keptSecond.1, fun answer assumed => ?_⟩
      exact ih answer (forFirst.steady answer keptSecond.1 keptFirst) (keptSecond.2 answer assumed)
  | ask request next ih =>
    refine ⟨forFirst.permitted keptFirst.1, fun answer assumed => ?_⟩
    exact ih answer (keptFirst.2 answer assumed) (forSecond.steady answer keptFirst.1 keptSecond)

theorem Keeps.both (schedule : List Bool) (keptFirst : first.Keeps ours (fun _ _ => True) leaves said)
    (keptSecond : second.Keeps theirs (fun _ _ => True) ends said) :
    (Process.both schedule first second).Keeps permits (fun _ _ => True)
      (fun said results => leaves said results.1 ∧ ends said results.2) said := by
  induction schedule generalizing said first second with
  | nil => exact keeps_inTurn forFirst forSecond keptFirst keptSecond
  | cons turn schedule ih =>
    cases turn with
    | true =>
      cases first with
      | done result => exact ih keptFirst keptSecond
      | ask request next =>
        refine ⟨forFirst.permitted keptFirst.1, fun answer assumed => ?_⟩
        exact ih (keptFirst.2 answer assumed) (forSecond.steady answer keptFirst.1 keptSecond)
    | false =>
      cases second with
      | done result => cases first <;> exact ih keptFirst keptSecond
      | ask request next =>
        have goes : ∀ answer, (Process.both schedule first (next answer)).Keeps permits
            (fun _ _ => True) (fun said results => leaves said results.1 ∧ ends said results.2)
            (⟨request, answer⟩ :: said) := fun answer =>
          ih (forFirst.steady answer keptSecond.1 keptFirst) (keptSecond.2 answer trivial)
        cases first <;>
          exact ⟨forSecond.permitted keptSecond.1, fun answer _ => goes answer⟩

end Rules

section Kinds

variable {permits : List (Exchange answers) → ρ → Prop}
variable {leaves : List (Exchange answers) → α → Prop}
variable {said more : List (Exchange answers)} {kind : ρ → Bool} {value : Bool}

/-- The exchanges of one kind. -/
def ofKind (kind : ρ → Bool) (value : Bool) (said : List (Exchange answers)) : List (Exchange answers) :=
  said.filter fun exchange => kind exchange.request == value

/-- Whether a request is permitted depends on the exchanges of its own kind. -/
def Local (kind : ρ → Bool) (permits : List (Exchange answers) → ρ → Prop) : Prop :=
  ∀ said more request, ofKind kind (kind request) said = ofKind kind (kind request) more →
    permits said request → permits more request

def LocalTo (kind : ρ → Bool) (value : Bool) (leaves : List (Exchange answers) → α → Prop) : Prop :=
  ∀ said more result, ofKind kind value said = ofKind kind value more →
    leaves said result → leaves more result

/-- What is permitted to a part that asks only requests of one kind. -/
def within (kind : ρ → Bool) (value : Bool) (permits : List (Exchange answers) → ρ → Prop)
    (said : List (Exchange answers)) (request : ρ) : Prop :=
  permits said request ∧ kind request = value

theorem ofKind_cons (exchange : Exchange answers) (same : ofKind kind value said = ofKind kind value more) :
    ofKind kind value (exchange :: said) = ofKind kind value (exchange :: more) := by
  simp only [ofKind, List.filter_cons] at same ⊢
  rw [same]

theorem ofKind_foreign {exchange : Exchange answers} (foreign : kind exchange.request = !value) :
    ofKind kind value said = ofKind kind value (exchange :: said) := by
  simp [ofKind, foreign]

theorem Keeps.alike {program : Process ρ answers α} (isLocal : Local kind permits)
    (ending : LocalTo kind value leaves) (same : ofKind kind value said = ofKind kind value more)
    (kept : program.Keeps (within kind value permits) (fun _ _ => True) leaves said) :
    program.Keeps (within kind value permits) (fun _ _ => True) leaves more := by
  induction program generalizing said more with
  | done result => exact ending _ _ _ same kept
  | ask request next ih =>
    obtain ⟨⟨permitted, own⟩, goes⟩ := kept
    refine ⟨⟨isLocal _ _ _ (by rwa [own]) permitted, own⟩, ?_⟩
    intro answer assumed
    exact ih answer (ofKind_cons _ same) (goes answer assumed)

theorem undisturbed_kinds {allowed : List (Exchange answers) → ρ → Prop}
    (isLocal : Local kind permits) (ending : LocalTo kind value leaves)
    (weaken : ∀ said request, permits said request → allowed said request) :
    Undisturbed allowed (within kind value permits) (within kind (!value) permits) leaves where
  permitted mine := weaken _ _ mine.1
  steady answer _ foreign kept := by
    exact kept.alike isLocal ending (ofKind_foreign foreign.2)

theorem findSome?_ofKind {γ : Type} {look : Exchange answers → Option γ}
    (only : ∀ exchange, kind exchange.request = !value → look exchange = none) (said : List (Exchange answers)) :
    (ofKind kind value said).findSome? look = said.findSome? look := by
  induction said with
  | nil => rfl
  | cons exchange said ih =>
    by_cases own : kind exchange.request = value
    · simp only [ofKind, List.filter_cons, own, beq_self_eq_true, if_true, List.findSome?_cons]
      simp only [ofKind] at ih
      rw [ih]
    · have foreign : kind exchange.request = !value := by
        cases value <;> simpa using own
      rw [← ofKind_foreign foreign, ih, List.findSome?_cons, only exchange foreign]

theorem any_ofKind {test : Exchange answers → Bool}
    (only : ∀ exchange, kind exchange.request = !value → test exchange = false)
    (said : List (Exchange answers)) : (ofKind kind value said).any test = said.any test := by
  rw [ofKind, List.any_filter]
  congr 1
  funext exchange
  by_cases own : kind exchange.request = value
  · simp [own]
  · rw [only exchange (by cases value <;> simpa using own), Bool.and_false]

end Kinds

section Free

variable {permits : ρ → Prop} {said more : List (Exchange answers)}

theorem Keeps.anyTime {program : Process ρ answers α}
    (kept : program.Keeps (fun _ => permits) (fun _ _ => True) (fun _ _ => True) said) :
    program.Keeps (fun _ => permits) (fun _ _ => True) (fun _ _ => True) more := by
  induction program generalizing said more with
  | done result => trivial
  | ask request next ih => exact ⟨kept.1, fun answer assumed => ih answer (kept.2 answer assumed)⟩

theorem undisturbed_free : Undisturbed (fun _ => permits) (fun _ => permits) (fun _ => permits)
    (fun (_ : List (Exchange answers)) (_ : α) => True) where
  permitted permitted := permitted
  steady _ _ _ kept := kept.anyTime

theorem keeps_together {parts : List (Process ρ answers Unit)} (schedules : List (List Bool))
    (kept : ∀ part ∈ parts, part.Keeps (fun _ => permits) (fun _ _ => True) (fun _ _ => True) said) :
    (together parts schedules).Keeps (fun _ => permits) (fun _ _ => True) (fun _ _ => True) said := by
  induction parts generalizing schedules with
  | nil => trivial
  | cons part parts ih =>
    have others := ih schedules.tail fun part present => kept part (.tail _ present)
    have all := Keeps.both undisturbed_free undisturbed_free (schedules.headD []) (kept part (.head _)) others
    exact all.bind fun _ _ _ => trivial

end Free

end Lobu.Foundation.Process
