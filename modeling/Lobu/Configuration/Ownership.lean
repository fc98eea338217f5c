import Lobu.Configuration.Replays

namespace Lobu.Configuration

open Lobu.Foundation

/-! # The ownership seal

Who may change which settings.  A managed agent stays managed, and its release-owned
fields change through managed releases only; these change nothing else.
-/

variable {Digest : Type}

def settingOf (key : SettingKey) (rows : Rows Digest) : Option Json :=
  (settingsOf rows).map fun settings => settings key

/-- The fields that the managed mode takes away from native patches. -/
def ReleaseOwned (key : SettingKey) : Prop :=
  ownerOfAgentSetting key = .release ∨ ownerOfAgentSetting key = .releaseLegacy

/-- The fields that a release may write. -/
def ApplyCommand.releaseFields (command : ApplyCommand Digest) : List SettingKey :=
  if command.personal.isSome then personalBaselineReleaseSettingKeys
  else legacyManagedReleaseSettingKeys

/-- The answers that turn a command down. -/
inductive TurnedDown : Except Failure (Answer Digest) → Prop where
  | rejected (reason : RejectionReason) : TurnedDown (.ok (.rejected reason))
  | conflict (conflict : Conflict) (revision : Nat) : TurnedDown (.ok (.conflict conflict revision))
  | failed (failure : Failure) : TurnedDown (.error failure)

section Calls

variable {authority : Authority Digest} {call : Call Digest} {key : SettingKey}
variable {before after : Rows Digest} {record next : AgentRecord Digest} {answer : Answer Digest}
variable {platform : Platform Digest} {target : Target} {now : Int}

theorem patchField_owned {command : NativePatchCommand Digest}
    (allowed : (decideNativeSettingsPatch .toolboxManaged command.patch).reason = none)
    (owned : ReleaseOwned key) : patchField command key = none := by
  apply List.lookup_eq_none_iff.mpr
  intro field present
  have kept : ((command.patch.map Prod.fst).filter fun field =>
      ownerOfAgentSetting field = .release ∨ ownerOfAgentSetting field = .releaseLegacy) = [] := by
    simpa [decideNativeSettingsPatch] using allowed
  have other := List.filter_eq_nil_iff.mp kept field.1 (List.mem_map_of_mem present)
  simp only [bne_iff_ne, ne_eq]
  rintro rfl
  exact other (decide_eq_true owned)

theorem nativePatch_owned {command : NativePatchCommand Digest}
    (outcome : NativePatchOutcome platform target command now record answer after)
    (managed : record.managementMode = .toolboxManaged) (owned : ReleaseOwned key) :
    settingOf key after = settingOf key (some record) := by
  cases outcome with
  | applied allowed row =>
    have policy := allowed.policy
    rw [managed] at policy
    exact congrArg some (patchColumns_missing (patchField_owned policy owned))
  | _ => rfl

theorem bootstrap_managed {command : MaterializedBootstrap Digest}
    (outcome : BootstrapOutcome platform target command before answer after)
    (managed : modeOf before = .toolboxManaged) : NoEffect before after := by
  cases outcome with
  | refused record reason => exact noEffect_withControl
  | replayed record state => exact noEffect_withControl
  | applied earlier base next created present allowed writes row =>
    have native := allowed.native
    cases before with
    | none => contradiction
    | some record =>
      subst present
      have mode : record.managementMode = .toolboxManaged := managed
      rw [Option.getD_some, mode] at native
      contradiction

variable {service : ReleaseService Digest}

theorem enrollment_owned {input : EnrollmentInput Digest}
    (outcome : EnrollmentOutcome service target input record answer after) :
    settingOf key after = settingOf key (some record) := by
  cases outcome <;> rfl

theorem releaseOwnedColumns_eq : ∀ key, key ∈ releaseOwnedColumns ↔ key ∈ personalBaselineReleaseSettingKeys := by
  intro key
  cases key <;> decide

variable {command : ApplyCommand Digest}

theorem releasedSettings_other {settings : Settings} (other : key ∉ command.releaseFields) :
    releasedSettings service command settings key = settings key := by
  unfold ApplyCommand.releaseFields at other
  unfold releasedSettings
  cases personal : command.personal with
  | none =>
    rw [personal] at other
    exact patchColumns_other other
  | some baseline =>
    rw [personal] at other
    exact replaceColumns_other (fun column => other ((releaseOwnedColumns_eq key).mp column))

variable {prepared : PreparedApply Digest}

variable [DecidableEq Digest]

theorem ReleaseOutcome.settings
    {result : ReleaseResult Digest} (released : ReleaseOutcome service now prepared record result next) :
    next.settings = record.settings ∨
      next.settings = releasedSettings service prepared.command record.settings := by
  cases released with
  | kept => exact .inl rfl
  | repaired => exact .inr rfl
  | replaced => exact .inr rfl

theorem ReleaseOutcome.other
    {result : ReleaseResult Digest} (released : ReleaseOutcome service now prepared record result next)
    (other : key ∉ prepared.command.releaseFields) : next.settings key = record.settings key := by
  rcases released.settings with kept | written
  · rw [kept]
  · rw [written, releasedSettings_other other]

theorem managedRelease_other
    (outcome : ManagedReleaseOutcome authority prepared now record answer after)
    (other : key ∉ prepared.command.releaseFields) : settingOf key after = settingOf key (some record) := by
  cases outcome with
  | unchanged accepted next released =>
    have same := released.other other
    exact congrArg some same
  | recorded accepted next released =>
    have same := released.other other
    exact congrArg some same

omit [DecidableEq Digest] in
theorem materialized_noEffect {command : MaterializedBootstrap Digest}
    (outcome : BootstrapOutcome platform target command before answer after)
    (down : TurnedDown (.ok answer)) : NoEffect before after := by
  cases outcome with
  | refused record reason => exact noEffect_withControl
  | replayed record state => exact noEffect_withControl
  | applied => cases down

theorem call_turnedDown (outcome : CallOutcome authority call before answer after)
    (down : TurnedDown (.ok answer)) : NoEffect before after := by
  cases outcome with
  | bootstrap asked materialized outcome => exact materialized_noEffect outcome down
  | nativePatch asked materialized outcome =>
    cases outcome with
    | applied => cases down
    | noChange => cases down
    | _ => exact noEffect_withControl
  | enrollment asked outcome =>
    cases outcome with
    | applied => cases down
    | _ => exact noEffect_withControl
  | managedRelease asked preparation outcome =>
    cases outcome with
    | unchanged => cases down
    | recorded => cases down

theorem call_managed (outcome : CallOutcome authority call before answer after)
    (managed : modeOf before = .toolboxManaged) : modeOf after = .toolboxManaged := by
  cases outcome with
  | bootstrap asked materialized outcome =>
    rw [(bootstrap_managed outcome managed).version.mode]
    exact managed
  | nativePatch asked materialized outcome =>
    cases outcome <;> exact managed
  | enrollment asked outcome =>
    cases outcome with
    | applied => rfl
    | _ => exact managed
  | managedRelease asked preparation outcome =>
    cases outcome with
    | unchanged accepted next released =>
      have same := congrArg ControlRow.managementMode released.controlRow
      exact same.trans managed
    | recorded accepted next released =>
      have same := congrArg ControlRow.managementMode released.controlRow
      exact same.trans managed

theorem call_owned (outcome : CallOutcome authority call before answer after)
    (managed : modeOf before = .toolboxManaged)
    (unreleased : ∀ command, call.request ≠ .applyManagedRelease command)
    (owned : ReleaseOwned key) : settingOf key after = settingOf key before := by
  cases outcome with
  | bootstrap asked materialized outcome =>
    have same := (bootstrap_managed outcome managed).version.settings
    unfold settingOf
    rw [same]
  | nativePatch asked materialized outcome => exact nativePatch_owned outcome managed owned
  | enrollment asked outcome => exact enrollment_owned outcome
  | managedRelease asked preparation outcome => exact absurd asked (unreleased _)

theorem call_release (outcome : CallOutcome authority call before answer after)
    (asked : call.request = .applyManagedRelease command) (other : key ∉ command.releaseFields) :
    settingOf key after = settingOf key before := by
  cases outcome with
  | managedRelease same preparation outcome =>
    cases asked.symm.trans same
    rw [← (prepareManagedRelease_ok preparation).carries] at other
    exact managedRelease_other outcome other
  | bootstrap same | nativePatch same | enrollment same => cases asked.symm.trans same

omit [DecidableEq Digest] in
theorem releaseFields_owner {command : ApplyCommand Digest} (owned : key ∈ command.releaseFields) :
    ownerOfAgentSetting key = .release ∧
      (command.personal = none → key ∈ legacyManagedReleaseSettingKeys) := by
  unfold ApplyCommand.releaseFields at owned
  split at owned
  · rename_i personal
    refine ⟨?_, fun none => ?_⟩
    · simpa [personalBaselineReleaseSettingKeys] using (List.mem_filter.mp owned).2
    · rw [none] at personal
      contradiction
  · refine ⟨?_, fun _ => owned⟩
    revert owned
    cases key <;> decide

end Calls

section Runs

variable [DecidableEq Digest]
variable {authority : Authority Digest} {first second : AgentSession Digest}

theorem run_managed (reached : (agentSessions authority).Reachable unrestricted first)
    (later : (agentSessions authority).Later unrestricted first second)
    (managed : modeOf first.committed = .toolboxManaged) : modeOf second.committed = .toolboxManaged := by
  refine Session.committed_related
    (fun before after => modeOf before = .toolboxManaged → modeOf after = .toolboxManaged)
    ?_ ?_ ?_ reached later managed
  · exact fun rows => id
  · exact fun first second third earlier later => later ∘ earlier
  · exact fun call session answer rows _ ran => call_managed (program_ok ran)

/-- What a call does to an agent that has or has not been managed before. -/
structure RespectsOwners (everManaged : Prop) (call : Call Digest)
    (answer : Except Failure (Answer Digest)) (before after : Rows Digest) : Prop where
  sealed : everManaged → (∀ command, call.request ≠ .applyManagedRelease command) →
    ∀ key, ReleaseOwned key → settingOf key after = settingOf key before
  release : ∀ command, call.request = .applyManagedRelease command → ∀ key,
    ownerOfAgentSetting key ≠ .release ∨
      command.personal = none ∧ key ∉ legacyManagedReleaseSettingKeys →
    settingOf key after = settingOf key before
  turnedDown : TurnedDown answer → NoEffect before after

/-- Once managed an agent stays managed, and from then on its release-owned fields change
through managed releases only; these change no other field, and a command that is turned down
has no effect. -/
theorem ownership_sealed (reached : (agentSessions authority).Reachable unrestricted first)
    (later : (agentSessions authority).Later unrestricted first second) :
    (modeOf first.committed = .toolboxManaged → modeOf second.committed = .toolboxManaged) ∧
      ∀ event third, second.step (program authority) event = some third → third.committed = second.committed ∨
          ∃ call answer, Session.Answers (program authority) second third call answer ∧
            RespectsOwners (modeOf first.committed = .toolboxManaged) call answer
              second.committed third.committed := by
  refine ⟨run_managed reached later, ?_⟩
  intro event third stepped
  rcases Session.step_committed (reached.later later) stepped with
    same | ⟨call, answer, answered, executed⟩
  · exact .inl same
  · cases answer with
    | error failure => exact .inl (Transaction.rows_of_execute executed)
    | ok result =>
      have outcome := program_ok (Transaction.run_of_execute executed)
      refine .inr ⟨call, .ok result, answered, ?_, ?_, call_turnedDown outcome⟩
      · intro managed unreleased key owned
        exact call_owned outcome (run_managed reached later managed) unreleased owned
      · intro command asked key foreign
        refine call_release outcome asked fun field => ?_
        have owner := releaseFields_owner field
        rcases foreign with unowned | ⟨legacy, outside⟩
        · exact unowned owner.1
        · exact outside (owner.2 legacy)

/-- An agent in the managed mode, at its third revision. -/
def managedRows : Rows Json :=
  some
    { name := "agent", description := none, ownerPlatform := some "toolbox"
      ownerUserId := some "owner", settings := Settings.initial
      control := some
        { managementMode := .toolboxManaged, configurationRevision := 3, lastMutation := none }
      commands := [], fence := none, receipt := none, cursors := [], grants := []
      provisioningGrants := [] }

def patchVerbose : Call Json where
  request := .apply
    { commandId := "patch", expectedConfigurationRevision := some 3
      patch := .object [("verboseLogging", .bool true)] }
  serviceNow := 0
  now := 0

theorem ownership_sealed_patched :
    ∃ session : AgentSession Json, (agentSessions plainAuthority).Later unrestricted ⟨managedRows, none⟩ session ∧
        revisionOf session.committed = 4 ∧ modeOf session.committed = .toolboxManaged := by
  have begun : (agentSessions plainAuthority).Reachable unrestricted
      (⟨managedRows, none⟩ : AgentSession Json) := .start ⟨trivial, rfl⟩
  have later := later_call plainAuthority patchVerbose managedRows
  have patched : revisionOf ((program plainAuthority patchVerbose).execute managedRows).2 = 4 := by
    decide +kernel
  exact ⟨_, later, patched, (ownership_sealed begun later).1 rfl⟩

end Runs

end Lobu.Configuration
