import Lobu.Configuration.Outcomes

namespace Lobu.Configuration

open Lobu.Foundation

/-! # The revision as a version

The configuration revision of an agent is a version of its settings and its
management mode: they only change together, by one command of one revision.
-/

variable {Digest : Type}

def settingsOf (rows : Rows Digest) : Option Settings := rows.map AgentRecord.settings

/-- The mode that a read answers, with what it answers for an agent that is not there. -/
def modeOf (rows : Rows Digest) : ManagementMode :=
  (rows.map AgentRecord.managementMode).getD .native

def revisionOf (rows : Rows Digest) : Nat :=
  (rows.map AgentRecord.configurationRevision).getD 0

def commandsOf (rows : Rows Digest) : List (CommandRow Digest) :=
  (rows.map AgentRecord.commands).getD []

/-- The revision that a request expects, if it carries one. -/
def Request.expectedRevision : Request Digest → Option Nat
  | .bootstrap input => input.expectedConfigurationRevision
  | .apply input => input.expectedConfigurationRevision
  | .enrollToolboxManaged input => some input.expectedConfigurationRevision
  | .applyManagedRelease command => command.expectedConfigurationRevision

/-- Neither the settings nor the mode nor the revision are touched. -/
structure SameVersion (before after : Rows Digest) : Prop where
  settings : settingsOf after = settingsOf before
  mode : modeOf after = modeOf before
  revision : revisionOf after = revisionOf before

/-- The next revision, with the one command that led to it. -/
structure NextVersion (request : Request Digest) (before after : Rows Digest) : Prop where
  revision : revisionOf after = revisionOf before + 1
  command : ∃ row, commandsOf after = commandsOf before ++ [row] ∧
    row.resultingRevision = revisionOf after ∧ row.resultingMode = modeOf after ∧
    row.resultStatus = .applied
  expected : ∀ revision ∈ request.expectedRevision, revision = revisionOf before

/-- A short text for the values that have a release's sequence. -/
def shortText (value : Json) : String :=
  match value.get? "releaseSequence" with
  | some (.number (.finite sequence)) => toString sequence.num
  | _ => stringify toString value

/-- An authority whose digests are the values themselves. -/
def plainAuthority : Authority Json where
  service :=
    { platform :=
        { sha256 := id, digestText := shortText, parameterText := stringify toString
          names := Proxy.asciiNames }
      keyringError := none
      expectedEnvironment := .ok .production
      evidenceSignerError := none
      signature := fun _ => .valid
      isUuid := fun _ => true }
  target := { organizationId := "org", agentId := "agent" }
  schema := fun _ _ => true

def newAgent : Call Json where
  request := .bootstrap
    { commandId := "create", expectedConfigurationRevision := none, actorKind := "user"
      profile := .native "web" none, name := "agent", description := none
      settings := .object [("model", .string "small")]
      requestDigest :=
        "sha256:0000000000000000000000000000000000000000000000000000000000000000" }
  serviceNow := 0
  now := 0

section Calls

variable {authority : Authority Digest} {call : Call Digest}
variable {record next : AgentRecord Digest} {before after : Rows Digest} {answer : Answer Digest}

theorem sameVersion_withControl : SameVersion (some record) (some record.withControl) :=
  ⟨rfl, rfl, rfl⟩

theorem nextVersion_recorded {request : Request Digest} {control : ControlRow Digest}
    {row : CommandRow Digest} (commands : next.commands = commandsOf before)
    (advanced : control.configurationRevision = revisionOf before + 1)
    (revision : row.resultingRevision = revisionOf before + 1)
    (mode : row.resultingMode = control.managementMode) (status : row.resultStatus = .applied)
    (expected : ∀ revision ∈ request.expectedRevision, revision = revisionOf before) :
    NextVersion request before (some (next.recorded control row)) where
  revision := advanced
  command := by
    refine ⟨row, ?_, ?_, ?_, status⟩
    · rw [← commands]
      rfl
    · rw [revision, ← advanced]
      rfl
    · rw [mode]
      rfl
  expected := expected

theorem bootstrap_version {input : BootstrapInput} {command : MaterializedBootstrap Digest}
    {platform : Platform Digest} {target : Target} {schema : SettingKey → Json → Bool}
    (materialized : materialize platform target schema input = .ok command)
    (outcome : BootstrapOutcome platform target command before answer after) :
    SameVersion before after ∨ NextVersion (.bootstrap input) before after := by
  cases outcome with
  | refused record reason => exact .inl sameVersion_withControl
  | replayed record state => exact .inl sameVersion_withControl
  | applied earlier base next created present allowed writes row id digest revision mode status =>
    have version : revisionOf before = base.configurationRevision := by
      cases before <;> subst present <;> rfl
    have commands : next.commands = commandsOf before := by
      rw [writes.commands]
      cases before <;> subst present <;> rfl
    right
    apply nextVersion_recorded commands
    · rw [version]
    · rw [version, revision]
    · rw [mode, writes.control]
      exact allowed.native.symm
    · exact status
    · rw [version, Request.expectedRevision, ← (materialize_ok materialized).2.1]
      exact allowed.expected

theorem nativePatch_version {input : NativePatchInput} {command : NativePatchCommand Digest}
    {platform : Platform Digest} {target : Target} {schema : SettingKey → Json → Bool} {now : Int}
    (materialized : materializeNativePatchCommand platform target schema input = .ok command)
    (outcome : NativePatchOutcome platform target command now record answer after) :
    SameVersion (some record) after ∨ NextVersion (.apply input) (some record) after := by
  cases outcome with
  | commandConflict found differs => exact .inl sameVersion_withControl
  | replayed found same => exact .inl sameVersion_withControl
  | revisionMismatch fresh => exact .inl sameVersion_withControl
  | rejected reason fresh => exact .inl sameVersion_withControl
  | noChange allowed row id digest status => exact .inl ⟨rfl, rfl, rfl⟩
  | applied allowed row id digest revision mode status =>
    right
    apply nextVersion_recorded
    · rfl
    · rfl
    · exact revision
    · exact mode
    · exact status
    · rw [Request.expectedRevision, ← (materializeNativePatch_ok materialized).2]
      exact allowed.expected

theorem enrollment_version {service : ReleaseService Digest} {target : Target} {input : EnrollmentInput Digest}
    (outcome : EnrollmentOutcome service target input record answer after) :
    SameVersion (some record) after ∨ NextVersion (.enrollToolboxManaged input) (some record) after := by
  cases outcome with
  | commandConflict found differs => exact .inl sameVersion_withControl
  | replayed found same => exact .inl sameVersion_withControl
  | alreadyManaged fresh managed => exact .inl sameVersion_withControl
  | revisionMismatch fresh => exact .inl sameVersion_withControl
  | rejected reason fresh => exact .inl sameVersion_withControl
  | applied fresh native expected row id digest revision mode status =>
    right
    apply nextVersion_recorded
    · rfl
    · rfl
    · exact revision
    · exact mode
    · exact status
    · intro given carried
      cases carried
      exact expected

variable [DecidableEq Digest]

theorem ReleaseOutcome.unchanged {service : ReleaseService Digest} {now : Int}
    {prepared : PreparedApply Digest} {result : ReleaseResult Digest}
    (released : ReleaseOutcome service now prepared record result next)
    (idempotent : result.idempotent = true) : next.settings = record.settings := by
  cases released with
  | kept => rfl
  | repaired => contradiction
  | replaced => contradiction

theorem managedRelease_version {command : ApplyCommand Digest} {prepared : PreparedApply Digest}
    {serviceNow now : Int} (preparation : prepareManagedRelease authority command serviceNow = .ok prepared)
    (outcome : ManagedReleaseOutcome authority prepared now record answer after) :
    SameVersion (some record) after ∨ NextVersion (.applyManagedRelease command) (some record) after := by
  cases outcome with
  | unchanged accepted next released idempotent unrepaired state =>
    left
    refine ⟨?_, ?_, ?_⟩
    · exact congrArg some (released.unchanged idempotent)
    · exact congrArg ControlRow.managementMode released.controlRow
    · exact congrArg ControlRow.configurationRevision released.controlRow
  | recorded accepted next released changed expected state last row revision mode status =>
    right
    apply nextVersion_recorded
    · exact released.commands
    · rfl
    · exact revision
    · rw [mode, released.controlRow]
      rfl
    · exact status
    · rw [Request.expectedRevision, ← (prepareManagedRelease_ok preparation).carries]
      exact expected

theorem call_version (outcome : CallOutcome authority call before answer after) :
    SameVersion before after ∨ NextVersion call.request before after := by
  cases outcome with
  | bootstrap asked materialized outcome =>
    rw [asked]
    exact bootstrap_version materialized outcome
  | nativePatch asked materialized outcome =>
    rw [asked]
    exact nativePatch_version materialized outcome
  | enrollment asked outcome =>
    rw [asked]
    exact enrollment_version outcome
  | managedRelease asked preparation outcome =>
    rw [asked]
    exact managedRelease_version preparation outcome

end Calls

/-- A later version, which has the same settings and mode where it has the same revision. -/
structure LaterVersion (before after : Rows Digest) : Prop where
  revision : revisionOf before ≤ revisionOf after
  same : revisionOf after = revisionOf before →
    settingsOf after = settingsOf before ∧ modeOf after = modeOf before

section Runs

variable [DecidableEq Digest]
variable {authority : Authority Digest} {before after : AgentSession Digest}
variable {first second third : Rows Digest}

omit [DecidableEq Digest] in
theorem LaterVersion.trans (earlier : LaterVersion first second)
    (later : LaterVersion second third) : LaterVersion first third where
  revision := Nat.le_trans earlier.revision later.revision
  same := by
    intro same
    have low := earlier.revision
    have high := later.revision
    obtain ⟨settings, mode⟩ := earlier.same (by omega)
    obtain ⟨settings', mode'⟩ := later.same (by omega)
    exact ⟨settings'.trans settings, mode'.trans mode⟩

theorem run_laterVersion {call : Call Digest} {answer : Answer Digest}
    (ran : (program authority call).run first = .ok (answer, second)) : LaterVersion first second := by
  rcases call_version (program_ok ran) with same | next
  · exact ⟨same.revision.ge, fun _ => ⟨same.settings, same.mode⟩⟩
  · have advanced := next.revision
    exact ⟨by omega, fun same => by omega⟩

/-- Over every run the revision never falls, the same revision has the same settings and
mode, and each command that commits a change takes the revision that it expects to the next. -/
theorem revision_is_version (reached : (agentSessions authority).Reachable unrestricted before)
    (later : (agentSessions authority).Later unrestricted before after) :
    LaterVersion before.committed after.committed ∧
      ∀ event next, after.step (program authority) event = some next → SameVersion after.committed next.committed ∨
          ∃ call answer, Session.Answers (program authority) after next call (.ok answer) ∧
            NextVersion call.request after.committed next.committed := by
  constructor
  · apply Session.committed_related LaterVersion ?_ ?_ ?_ reached later
    · exact fun rows => ⟨le_refl _, fun _ => ⟨rfl, rfl⟩⟩
    · exact fun first second third earlier later => earlier.trans later
    · exact fun call session answer rows _ ran => run_laterVersion ran
  · intro event next stepped
    have reachable := reached.later later
    rcases Session.step_committed reachable stepped with same | ⟨call, answer, answered, executed⟩
    · rw [same]
      exact .inl ⟨rfl, rfl, rfl⟩
    · cases answer with
      | error failure =>
        rw [Transaction.rows_of_execute executed]
        exact .inl ⟨rfl, rfl, rfl⟩
      | ok answer =>
        have ran := Transaction.run_of_execute executed
        rcases call_version (program_ok ran) with same | advanced
        · exact .inl same
        · exact .inr ⟨call, answer, answered, advanced⟩

theorem call_answers (authority : Authority Digest) (call : Call Digest) (rows : Rows Digest) :
    ∃ ending, (agentSessions authority).Later unrestricted ⟨rows, none⟩ ending ∧
      Session.Answers (program authority) ending ⟨((program authority call).execute rows).2, none⟩ call
        ((program authority call).execute rows).1 :=
  Session.later_execute _ rfl

theorem later_call (authority : Authority Digest) (call : Call Digest) (rows : Rows Digest) :
    (agentSessions authority).Later unrestricted ⟨rows, none⟩ ⟨((program authority call).execute rows).2, none⟩ := by
  obtain ⟨ending, ran, answered⟩ := call_answers authority call rows
  exact ran.trans (.head ⟨.finish, trivial, answered.stepped⟩ .refl)

theorem revision_is_version_created :
    ∃ before after : AgentSession Json, (agentSessions plainAuthority).Later unrestricted before after ∧
        revisionOf before.committed = 0 ∧ revisionOf after.committed = 1 ∧
        LaterVersion before.committed after.committed := by
  have begun : (agentSessions plainAuthority).Reachable unrestricted
      (⟨none, none⟩ : AgentSession Json) := .start ⟨trivial, rfl⟩
  have later := later_call plainAuthority newAgent none
  have created : revisionOf ((program plainAuthority newAgent).execute none).2 = 1 := by
    decide +kernel
  exact ⟨_, _, later, rfl, created, (revision_is_version begun later).1⟩

end Runs

end Lobu.Configuration
