import Lobu.Foundation.Machine
import Lobu.Foundation.Table

namespace Lobu.Foundation

/-! # Processes

A process is a program that asks its surroundings and goes on with the answer.
Between a question and its answer anything may happen, so the processes of a
crowd interleave at their questions; one that is never answered has died.
-/

inductive Process (ρ : Type) (answers : ρ → Type) (α : Type) where
  | done (result : α)
  | ask (request : ρ) (next : answers request → Process ρ answers α)

/-- A question with its answer. -/
structure Exchange {ρ : Type} (answers : ρ → Type) where
  request : ρ
  answer : answers request

namespace Process

variable {ρ : Type} {answers : ρ → Type} {α β : Type}

def bind : Process ρ answers α → (α → Process ρ answers β) → Process ρ answers β
  | done result, rest => rest result
  | ask request next, rest => ask request fun answer => (next answer).bind rest

instance : Monad (Process ρ answers) where
  pure := done
  bind := bind

/-- The answer to one question. -/
def answerTo (request : ρ) : Process ρ answers (answers request) :=
  ask request done

/-- What is left of a process after an exchange of questions and answers, the latest first. -/
inductive After : Process ρ answers α → List (Exchange answers) → Process ρ answers α → Prop where
  | start : After program [] program
  | answered {request : ρ} {next : answers request → Process ρ answers α}
      (earlier : After program said (ask request next)) (answer : answers request) :
      After program (⟨request, answer⟩ :: said) (next answer)

/-- Whatever the answers that the process may assume, it asks only what is permitted after
what has been said, and ends with a result as it should. -/
def Keeps (permits : List (Exchange answers) → ρ → Prop)
    (assumes : List (Exchange answers) → Exchange answers → Prop) (leaves : List (Exchange answers) → α → Prop) :
    List (Exchange answers) → Process ρ answers α → Prop
  | said, done result => leaves said result
  | said, ask request next => permits said request ∧
      ∀ answer, assumes said ⟨request, answer⟩ →
        Keeps permits assumes leaves (⟨request, answer⟩ :: said) (next answer)

section Rules

variable {permits : List (Exchange answers) → ρ → Prop}
variable {assumes : List (Exchange answers) → Exchange answers → Prop}
variable {leaves : List (Exchange answers) → α → Prop}
variable {ends : List (Exchange answers) → β → Prop}
variable {said : List (Exchange answers)} {program rest : Process ρ answers α}

@[simp] theorem keeps_pure {result : α} :
    Keeps permits assumes leaves said (pure result) ↔ leaves said result := Iff.rfl

theorem Keeps.mono {weaker : List (Exchange answers) → α → Prop} (kept : Keeps permits assumes leaves said program)
    (weaken : ∀ said result, leaves said result → weaker said result) :
    Keeps permits assumes weaker said program := by
  induction program generalizing said with
  | done result => exact weaken said result kept
  | ask request next ih => exact ⟨kept.1, fun answer assumed => ih answer (kept.2 answer assumed)⟩

theorem Keeps.permitting {wider : List (Exchange answers) → ρ → Prop}
    (kept : Keeps permits assumes leaves said program)
    (widen : ∀ said request, permits said request → wider said request) :
    Keeps wider assumes leaves said program := by
  induction program generalizing said with
  | done result => exact kept
  | ask request next ih =>
    exact ⟨widen _ _ kept.1, fun answer assumed => ih answer (kept.2 answer assumed)⟩

theorem keeps_bind {following : α → Process ρ answers β} :
    Keeps permits assumes ends said (program >>= following) ↔ Keeps permits assumes
        (fun said result => Keeps permits assumes ends said (following result)) said program := by
  change Keeps permits assumes ends said (program.bind following) ↔ _
  induction program generalizing said with
  | done result => exact Iff.rfl
  | ask request next ih =>
    exact and_congr Iff.rfl (forall_congr' fun answer => forall_congr' fun _ => ih answer)

theorem keeps_answerTo {request : ρ} {following : answers request → Process ρ answers β} :
    Keeps permits assumes ends said (answerTo request >>= following) ↔
      permits said request ∧ ∀ answer, assumes said ⟨request, answer⟩ →
        Keeps permits assumes ends (⟨request, answer⟩ :: said) (following answer) := Iff.rfl

theorem Keeps.answered {request : ρ} {following : answers request → Process ρ answers β}
    (permitted : permits said request) (goes : ∀ answer, assumes said ⟨request, answer⟩ →
      Keeps permits assumes ends (⟨request, answer⟩ :: said) (following answer)) :
    Keeps permits assumes ends said (answerTo request >>= following) :=
  keeps_answerTo.mpr ⟨permitted, goes⟩

theorem Keeps.bind {following : α → Process ρ answers β} (kept : Keeps permits assumes leaves said program)
    (goes : ∀ after result, leaves after result → Keeps permits assumes ends after (following result)) :
    Keeps permits assumes ends said (program >>= following) :=
  keeps_bind.mpr (kept.mono goes)

theorem Keeps.after (kept : Keeps permits assumes leaves [] program)
    (went : After program said rest) (assumed : ∀ earlier exchange,
      exchange :: earlier <:+ said → assumes earlier exchange) : Keeps permits assumes leaves said rest := by
  induction went with
  | start => exact kept
  | answered earlier answer ih =>
    have before := ih fun others exchange suffix =>
      assumed others exchange (suffix.trans (List.suffix_cons _ _))
    exact before.2 answer (assumed _ _ (List.suffix_refl _))

theorem Keeps.permitted (kept : Keeps permits assumes leaves [] program)
    (went : After program said rest) (assumed : ∀ earlier exchange,
      exchange :: earlier <:+ said → assumes earlier exchange)
    {exchange : Exchange answers} {earlier : List (Exchange answers)}
    (heard : exchange :: earlier <:+ said) : permits earlier exchange.request := by
  induction went with
  | start => exact absurd (List.eq_nil_of_suffix_nil heard) (List.cons_ne_nil _ _)
  | answered before answer ih =>
    have shorter : ∀ others exchange, exchange :: others <:+ _ → assumes others exchange :=
      fun others exchange suffix => assumed others exchange (suffix.trans (List.suffix_cons _ _))
    rcases List.suffix_cons_iff.mp heard with same | suffix
    · cases same
      exact (kept.after before shorter).1
    · exact ih shorter suffix

end Rules

end Process

/-- How shared data answer a request; what they cannot settle is left to a choice. -/
abbrev Service (σ χ : Type) {ρ : Type} (answers : ρ → Type) :=
  σ → (request : ρ) → χ → Option (answers request × σ)

namespace Process

variable {σ χ ρ α : Type} {answers : ρ → Type} (serve : Service σ χ answers)

/-- A process on its own, with the choices that its answers are left to. -/
def follow : σ → List (Exchange answers) → List χ → Process ρ answers α → Option (List (Exchange answers) × α)
  | _, said, [], done result => some (said, result)
  | shared, said, choice :: choices, ask request next =>
    match serve shared request choice with
    | some (answer, after) => follow after (⟨request, answer⟩ :: said) choices (next answer)
    | none => none
  | _, _, _, _ => none

variable {serve}

theorem after_of_follow {program rest : Process ρ answers α} {shared : σ}
    {said ended : List (Exchange answers)} {choices : List χ} {result : α} (went : After program said rest)
    (followed : follow serve shared said choices rest = some (ended, result)) :
    After program ended (done result) := by
  induction choices generalizing shared said rest with
  | nil =>
    cases rest with
    | done found =>
      cases followed
      exact went
    | ask request next => cases followed
  | cons choice choices ih =>
    cases rest with
    | done found => cases followed
    | ask request next =>
      simp only [follow] at followed
      split at followed
      · rename_i answer after served
        exact ih (.answered went answer) followed
      · cases followed

/-- A process that ends where `test` holds exhibits such an end. -/
theorem exists_of_follow (serve : Service σ χ answers) (program : Process ρ answers α) (shared : σ)
    (choices : List χ) (test : List (Exchange answers) × α → Bool)
    (followed : (follow serve shared [] choices program).any test = true) :
    ∃ said result, After program said (done result) ∧ test (said, result) = true := by
  cases ended : follow serve shared [] choices program with
  | none => simp [ended] at followed
  | some pair =>
    rw [ended] at followed
    exact ⟨pair.1, pair.2, after_of_follow .start ended, followed⟩

end Process

/-- A process under way, with what it has asked and been told. -/
structure Member (κ : Type) {ρ : Type} (answers : ρ → Type) (α : Type) where
  command : κ
  said : List (Exchange answers)
  rest : Process ρ answers α

/-- What the member asks, where it is not done. -/
def Member.asking {κ ρ α : Type} {answers : ρ → Type} (member : Member κ answers α) : Option (κ × ρ) :=
  match member.rest with
  | .done _ => none
  | .ask request _ => some (member.command, request)

/-- Processes over shared data. -/
structure Crowd (κ σ : Type) {ρ : Type} (answers : ρ → Type) (α : Type) where
  shared : σ
  members : List (Member κ answers α)

inductive CrowdEvent (κ χ : Type) where
  | join (command : κ)
  -- the member at this place gets the answer that the choice leads to
  | answer (place : Nat) (choice : χ)

namespace Crowd

variable {κ σ χ ρ α : Type} {answers : ρ → Type}
variable (program : κ → Process ρ answers α) (serve : Service σ χ answers)

def step (crowd : Crowd κ σ answers α) : CrowdEvent κ χ → Option (Crowd κ σ answers α)
  | .join command =>
    some { crowd with members := crowd.members ++ [⟨command, [], program command⟩] }
  | .answer place choice =>
    match crowd.members[place]? with
    | some ⟨command, said, .ask request next⟩ =>
      match serve crowd.shared request choice with
      | some (answer, after) =>
        let going : Member κ answers α :=
          ⟨command, ⟨request, answer⟩ :: said, next answer⟩
        some ⟨after, crowd.members.set place going⟩
      | none => none
    | _ => none

/-- What the member at the place asks. -/
def asking (crowd : Crowd κ σ answers α) (place : Nat) : Option (κ × ρ) :=
  crowd.members[place]?.bind Member.asking

def crowds (begins : σ → Prop) : Machine (Crowd κ σ answers α) (CrowdEvent κ χ) where
  starts crowd := begins crowd.shared ∧ crowd.members = []
  step := Crowd.step program serve

/-- The runs in which only lawful answers are given. -/
def obeys (lawful : σ → κ → ρ → χ → Prop) : Discipline (Crowd κ σ answers α) (CrowdEvent κ χ)
  | _, .join _ => True
  | crowd, .answer place choice =>
    ∀ asked ∈ crowd.asking place, lawful crowd.shared asked.1 asked.2 choice

instance (lawful : σ → κ → ρ → χ → Prop)
    [∀ shared command request choice, Decidable (lawful shared command request choice)]
    (crowd : Crowd κ σ answers α) (event : CrowdEvent κ χ) :
    Decidable (obeys lawful crowd event) :=
  match event with
  | .join _ => .isTrue trivial
  | .answer place choice => inferInstanceAs
      (Decidable (∀ asked ∈ crowd.asking place, lawful crowd.shared asked.1 asked.2 choice))

variable {program serve} {crowd after : Crowd κ σ answers α}

variable {place : Nat}

theorem asking_of_found {command : κ} {said : List (Exchange answers)} {request : ρ}
    {next : answers request → Process ρ answers α}
    (found : crowd.members[place]? = some ⟨command, said, .ask request next⟩) :
    crowd.asking place = some (command, request) := by
  simp [asking, found, Member.asking]

variable {event : CrowdEvent κ χ}

theorem step_cases (stepped : crowd.step program serve event = some after) :
    (∃ command, event = .join command ∧
      after = { crowd with members := crowd.members ++ [⟨command, [], program command⟩] }) ∨
    ∃ (place : Nat) (choice : χ) (command : κ) (said : List (Exchange answers)) (request : ρ)
        (next : answers request → Process ρ answers α) (answer : answers request) (shared : σ),
      event = .answer place choice ∧ crowd.members[place]? = some ⟨command, said, .ask request next⟩ ∧
      serve crowd.shared request choice = some (answer, shared) ∧ after = ⟨shared,
        crowd.members.set place ⟨command, ⟨request, answer⟩ :: said, next answer⟩⟩ := by
  cases event with
  | join command =>
    cases stepped
    exact .inl ⟨command, rfl, rfl⟩
  | answer place choice =>
    simp only [Crowd.step] at stepped
    split at stepped
    · rename_i command said request next found
      split at stepped
      · rename_i answer shared served
        cases stepped
        exact .inr ⟨place, choice, command, said, request, next, answer, shared, rfl, found, served, rfl⟩
      · contradiction
    · contradiction

theorem went {begins : σ → Prop} {allowed : Discipline (Crowd κ σ answers α) (CrowdEvent κ χ)}
    (reached : (crowds program serve begins).Reachable allowed crowd) :
    ∀ member ∈ crowd.members, Process.After (program member.command) member.said member.rest := by
  let underWay (crowd : Crowd κ σ answers α) : Prop := ∀ member ∈ crowd.members,
    Process.After (program member.command) member.said member.rest
  change underWay crowd
  refine reached.invariant ?_ ?_
  · intro crowd starts member present
    rw [starts.2] at present
    cases present
  · intro before event after _ earlier _ stepped member present
    rcases step_cases stepped with ⟨command, rfl, rfl⟩ |
      ⟨place, choice, command, said, request, next, answer, shared, rfl, found, -, rfl⟩
    · rcases List.mem_append.mp present with old | new
      · exact earlier member old
      · rw [List.mem_singleton.mp new]
        exact .start
    · rcases List.mem_or_eq_of_mem_set present with old | new
      · exact earlier member old
      · rw [new]
        exact .answered (earlier _ (List.mem_of_getElem? found)) answer

/-- Members stay, and forget nothing that they have been told. -/
def Grown (before after : Crowd κ σ answers α) : Prop :=
  ∀ (place : Nat) (member : Member κ answers α), before.members[place]? = some member →
    ∃ grown : Member κ answers α, after.members[place]? = some grown ∧
      grown.command = member.command ∧ member.said <:+ grown.said

theorem grown_of_step (stepped : crowd.step program serve event = some after) : Grown crowd after := by
  intro place member found
  rcases step_cases stepped with ⟨command, -, rfl⟩ |
    ⟨index, choice, command, said, request, next, answer, shared, -, asking, -, rfl⟩
  · refine ⟨member, ?_, rfl, List.suffix_refl _⟩
    rw [List.getElem?_append_left (List.getElem?_eq_some_iff.mp found).1]
    exact found
  · by_cases same : index = place
    · subst same
      cases asking.symm.trans found
      refine ⟨_, List.getElem?_set_self (List.getElem?_eq_some_iff.mp found).1, rfl, ?_⟩
      exact List.suffix_cons _ _
    · exact ⟨member, by rw [List.getElem?_set_ne same, found], rfl, List.suffix_refl _⟩

variable {member : Member κ answers α}

theorem Grown.mem (grown : Grown crowd after) (present : member ∈ crowd.members) :
    ∃ other ∈ after.members, other.command = member.command ∧ member.said <:+ other.said := by
  obtain ⟨place, found⟩ := List.mem_iff_getElem?.mp present
  obtain ⟨other, foundAfter, command, longer⟩ := grown place member found
  exact ⟨other, List.mem_of_getElem? foundAfter, command, longer⟩

theorem ended_of_step (stepped : crowd.step program serve event = some after) {result : α}
    (present : member ∈ crowd.members) (ended : member.rest = .done result) : member ∈ after.members := by
  rcases step_cases stepped with ⟨command, -, rfl⟩ |
    ⟨index, choice, command, said, request, next, answer, shared, -, asking, -, rfl⟩
  · exact List.mem_append_left _ present
  · obtain ⟨place, found⟩ := List.mem_iff_getElem?.mp present
    by_cases same : index = place
    · subst same
      cases asking.symm.trans found
      cases ended
    · exact List.mem_of_getElem? ((List.getElem?_set_ne same).trans found)

theorem ended_later {begins : σ → Prop} {allowed : Discipline (Crowd κ σ answers α) (CrowdEvent κ χ)}
    (later : (crowds program serve begins).Later allowed crowd after)
    {result : α} (present : member ∈ crowd.members) (ended : member.rest = .done result) :
    member ∈ after.members := by
  induction later with
  | refl => exact present
  | tail _ moved ih =>
    obtain ⟨event, -, stepped⟩ := moved
    exact ended_of_step stepped ih ended

/-- The member at the place has been answered this request after what was said earlier. -/
def Asked (crowd : Crowd κ σ answers α) (place : Nat) (earlier : List (Exchange answers)) (request : ρ) : Prop :=
  ∃ (member : Member κ answers α) (answer : answers request),
    crowd.members[place]? = some member ∧ ⟨request, answer⟩ :: earlier <:+ member.said

theorem asked_of_step (stepped : crowd.step program serve event = some after)
    {earlier : List (Exchange answers)} {request : ρ} (asked : Asked after place earlier request) :
    Asked crowd place earlier request ∨ ∃ (choice : χ) (command : κ) (next : answers request → Process ρ answers α)
          (answer : answers request), event = .answer place choice ∧
        crowd.members[place]? = some ⟨command, earlier, .ask request next⟩ ∧
        serve crowd.shared request choice = some (answer, after.shared) := by
  obtain ⟨member, answer, found, heard⟩ := asked
  rcases step_cases stepped with ⟨command, -, rfl⟩ |
    ⟨index, choice, command, said, present, next, given, shared, rfl, asking, served, rfl⟩
  · rcases getElem?_append_singleton_cases found with ⟨-, rfl⟩ | old
    · exact absurd (List.eq_nil_of_suffix_nil heard) (List.cons_ne_nil _ _)
    · exact .inl ⟨member, answer, old, heard⟩
  · rcases getElem?_set_cases found with ⟨rfl, rfl⟩ | ⟨-, old⟩
    · rcases List.suffix_cons_iff.mp heard with same | before
      · cases same
        exact .inr ⟨choice, command, next, answer, rfl, asking, served⟩
      · exact .inl ⟨_, answer, asking, before⟩
    · exact .inl ⟨member, answer, old, heard⟩

/-- The member at the place has had this exchange. -/
def Told (crowd : Crowd κ σ answers α) (place : Nat) (exchange : Exchange answers) : Prop :=
  ∃ member : Member κ answers α, crowd.members[place]? = some member ∧ exchange ∈ member.said

variable {exchange : Exchange answers}

theorem Told.asked (told : Told crowd place exchange) :
    ∃ (member : Member κ answers α) (earlier : List (Exchange answers)),
      crowd.members[place]? = some member ∧ exchange :: earlier <:+ member.said := by
  obtain ⟨member, found, heard⟩ := told
  obtain ⟨later, earlier, said⟩ := List.append_of_mem heard
  exact ⟨member, earlier, found, later, said.symm⟩

theorem Told.grown (told : Told crowd place exchange) (grown : Grown crowd after) : Told after place exchange := by
  obtain ⟨member, found, heard⟩ := told
  obtain ⟨other, foundAfter, -, longer⟩ := grown place member found
  exact ⟨other, foundAfter, longer.subset heard⟩

theorem told_of_step (stepped : crowd.step program serve event = some after) (told : Told after place exchange) :
    Told crowd place exchange ∨ ∃ (choice : χ) (command : κ) (said : List (Exchange answers))
          (next : answers exchange.request → Process ρ answers α), event = .answer place choice ∧
        crowd.members[place]? = some ⟨command, said, .ask exchange.request next⟩ ∧
        serve crowd.shared exchange.request choice = some (exchange.answer, after.shared) := by
  obtain ⟨member, found, heard⟩ := told
  rcases step_cases stepped with ⟨command, -, rfl⟩ |
    ⟨index, choice, command, said, request, next, answer, shared, rfl, asking, served, rfl⟩
  · rcases getElem?_append_singleton_cases found with ⟨-, rfl⟩ | old
    · cases heard
    · exact .inl ⟨member, old, heard⟩
  · rcases getElem?_set_cases found with ⟨rfl, rfl⟩ | ⟨-, old⟩
    · rcases List.mem_cons.mp heard with rfl | before
      · exact .inr ⟨choice, command, said, next, rfl, asking, served⟩
      · exact .inl ⟨_, asking, before⟩
    · exact .inl ⟨member, old, heard⟩

theorem heard_lawful {begins : σ → Prop} {lawful : σ → κ → ρ → χ → Prop} {assumes : κ → Exchange answers → Prop}
    (answered : ∀ shared command request choice answer later,
      lawful shared command request choice → serve shared request choice = some (answer, later) →
        assumes command ⟨request, answer⟩) (reached : (crowds program serve begins).Reachable (obeys lawful) crowd) :
    ∀ member ∈ crowd.members, ∀ exchange ∈ member.said, assumes member.command exchange := by
  let told (crowd : Crowd κ σ answers α) : Prop :=
    ∀ member ∈ crowd.members, ∀ exchange ∈ member.said, assumes member.command exchange
  change told crowd
  refine reached.invariant ?_ ?_
  · intro crowd starts member present
    rw [starts.2] at present
    cases present
  · intro before event after _ earlier permitted stepped member present
    rcases step_cases stepped with ⟨command, rfl, rfl⟩ |
      ⟨place, choice, command, said, request, next, answer, shared, rfl, found, served, rfl⟩
    · rcases List.mem_append.mp present with old | new
      · exact earlier member old
      · rw [List.mem_singleton.mp new]
        simp
    · rcases List.mem_or_eq_of_mem_set present with old | new
      · exact earlier member old
      · subst new
        intro exchange heard
        rcases List.mem_cons.mp heard with rfl | before
        · exact answered _ _ _ _ _ _ (permitted _ (asking_of_found found)) served
        · exact earlier _ (List.mem_of_getElem? found) exchange before

section Invariant

variable {permits : κ → List (Exchange answers) → ρ → Prop}
variable {assumes : κ → List (Exchange answers) → Exchange answers → Prop}
variable {leaves : κ → List (Exchange answers) → α → Prop}
variable {vouched : σ → κ → Exchange answers → Prop}

/-- A member keeps to its rules, and the shared data vouch for what it has been told. -/
structure Upright (permits : κ → List (Exchange answers) → ρ → Prop)
    (assumes : κ → List (Exchange answers) → Exchange answers → Prop)
    (leaves : κ → List (Exchange answers) → α → Prop)
    (vouched : σ → κ → Exchange answers → Prop) (shared : σ) (member : Member κ answers α) :
    Prop where
  kept : (member.rest).Keeps (permits member.command) (assumes member.command)
    (leaves member.command) member.said
  told : ∀ exchange ∈ member.said, vouched shared member.command exchange

theorem Upright.permitted {shared : σ} {asked : κ × ρ}
    (upright : Upright permits assumes leaves vouched shared member) (asking : member.asking = some asked) :
    asked.1 = member.command ∧ permits member.command member.said asked.2 := by
  have kept := upright.kept
  unfold Member.asking at asking
  split at asking
  · cases asking
  · rename_i request next rest
    cases asking
    rw [rest] at kept
    exact ⟨rfl, kept.1⟩

/-- The invariant rule for crowds.  Every answer may rely on what the shared data have and on
what its member has been told, and has to vouch for itself from then on. -/
theorem upright {begins good : σ → Prop} {lawful : σ → κ → ρ → χ → Prop}
    (initially : ∀ shared, begins shared → good shared) (conduct : ∀ command,
      (program command).Keeps (permits command) (assumes command) (leaves command) [])
    (served : ∀ shared command said request choice answer after, good shared →
      (∀ exchange ∈ said, vouched shared command exchange) → permits command said request →
      lawful shared command request choice → serve shared request choice = some (answer, after) →
        good after ∧ assumes command said ⟨request, answer⟩ ∧ vouched after command ⟨request, answer⟩ ∧
          ∀ other exchange, vouched shared other exchange → vouched after other exchange)
    (reached : (crowds program serve begins).Reachable (obeys lawful) crowd) :
    good crowd.shared ∧ ∀ member ∈ crowd.members, Upright permits assumes leaves vouched crowd.shared member := by
  let standing (crowd : Crowd κ σ answers α) : Prop := good crowd.shared ∧
    ∀ member ∈ crowd.members, Upright permits assumes leaves vouched crowd.shared member
  change standing crowd
  refine reached.invariant ?_ ?_
  · intro crowd starts
    refine ⟨initially _ starts.1, ?_⟩
    rw [starts.2]
    intro member absent
    cases absent
  · intro before event after _ invariant permitted stepped
    rcases step_cases stepped with ⟨command, rfl, rfl⟩ |
      ⟨place, choice, command, said, request, next, answer, shared, rfl, found, answered, rfl⟩
    · refine ⟨invariant.1, ?_⟩
      intro member present
      rcases List.mem_append.mp present with old | new
      · exact invariant.2 member old
      · rw [List.mem_singleton.mp new]
        exact ⟨conduct command, by simp⟩
    · have asking := invariant.2 _ (List.mem_of_getElem? found)
      obtain ⟨goodAfter, assumed, vouches, carried⟩ := served _ _ _ _ _ _ _ invariant.1
        asking.told asking.kept.1 (permitted _ (asking_of_found found)) answered
      refine ⟨goodAfter, ?_⟩
      intro member present
      rcases List.mem_or_eq_of_mem_set present with old | new
      · have upright := invariant.2 member old
        exact ⟨upright.kept, fun exchange heard => carried _ _ (upright.told exchange heard)⟩
      · subst new
        refine ⟨asking.kept.2 answer assumed, ?_⟩
        intro exchange heard
        rcases List.mem_cons.mp heard with rfl | earlier
        · exact vouches
        · exact carried _ _ (asking.told exchange earlier)

end Invariant

end Crowd

end Lobu.Foundation
