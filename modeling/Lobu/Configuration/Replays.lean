import Lobu.Configuration.Revisions

namespace Lobu.Configuration

open Lobu.Foundation

/-! # Replays

A command that has been kept takes no effect again.  A patch or an enrollment with its
id is answered from the kept row; so is a bootstrap, unless it is refused first.
-/

variable {Digest : Type}

/-- The id that a request's command is kept under; releases have ids of their own making. -/
def Request.commandId? : Request Digest → Option String
  | .bootstrap input => some input.commandId
  | .apply input => some input.commandId
  | .enrollToolboxManaged input => some input.commandId
  | .applyManagedRelease _ => none

/-- The digest of a well-formed request's command. -/
def Request.commandDigest? (authority : Authority Digest) : Request Digest → Option Digest
  | .bootstrap input =>
    (materialize authority.platform authority.target authority.schema
      input).toOption.map MaterializedBootstrap.commandDigest
  | .apply input =>
    (materializeNativePatchCommand authority.platform authority.target authority.schema
      input).toOption.map NativePatchCommand.commandDigest
  | .enrollToolboxManaged input =>
    some (enrollmentDigest authority.platform authority.target input)
  | .applyManagedRelease _ => none

def commandOf (commandId : String) (rows : Rows Digest) : Option (CommandRow Digest) :=
  (commandsOf rows).find? fun row => row.commandId == commandId

def fenceOf (rows : Rows Digest) : Option FenceRow := rows.bind AgentRecord.fence

def grantTablesOf (rows : Rows Digest) : Option GrantTables := rows.map AgentRecord.grantTables

/-- None of the settings, the mode, the revision, the fence and the grants are touched. -/
structure NoEffect (before after : Rows Digest) : Prop where
  version : SameVersion before after
  fence : fenceOf after = fenceOf before
  grants : grantTablesOf after = grantTablesOf before

theorem NoEffect.refl (rows : Rows Digest) : NoEffect rows rows :=
  ⟨⟨rfl, rfl, rfl⟩, rfl, rfl⟩

theorem noEffect_withControl {record : AgentRecord Digest} : NoEffect (some record) (some record.withControl) :=
  ⟨sameVersion_withControl, rfl, rfl⟩

/-- The kept command's result, as a call reports it. -/
inductive Recorded (target : Target) (commandId : String) (row : CommandRow Digest) :
    Except Failure (Answer Digest) → Prop where
  | command : Recorded target commandId row
      (.ok (.alreadyApplied (stateFromCommandRow target commandId row)))
  | bootstrap (name : String) (description : Option String) : Recorded target commandId row
      (.ok (.bootstrapped .alreadyApplied false true (stateFromCommandRow target commandId row)
        name description))

theorem Recorded.isOk {target : Target} {commandId : String} {row : CommandRow Digest}
    {reply : Except Failure (Answer Digest)} (reported : Recorded target commandId row reply) :
    reply.isOk = true := by
  cases reported <;> rfl

inductive Conflicts : Except Failure (Answer Digest) → Prop where
  | answered (revision : Nat) : Conflicts (.ok (.conflict .commandConflict revision))
  | failed (revision : Nat) : Conflicts (.error (commandConflict revision))

def BootstrapProfile.isToolbox : BootstrapProfile → Bool
  | .toolboxPersonal .. => true
  | .native .. => false

def BootstrapProfile.fence? : BootstrapProfile → Option ProvisioningFence
  | .toolboxPersonal _ _ _ _ fence => fence
  | .native .. => none

/-- Why a bootstrap is refused whether or not its command has been kept. -/
inductive BootstrapRefused (profile : BootstrapProfile) (requestDigest : String)
    (record : AgentRecord Digest) : Except Failure (Answer Digest) → Prop where
  | managed (sealed : record.managementMode = .toolboxManaged) :
      BootstrapRefused profile requestDigest record (.ok (.rejected .managedConfigurationSealed))
  | released (toolbox : profile.isToolbox = true)
      (sealed : ∃ receipt ∈ record.receipt, receipt.status = .applied) :
      BootstrapRefused profile requestDigest record (.ok (.rejected .managedConfigurationSealed))
  | unfenced (toolbox : profile.isToolbox = true) (fence : profile.fence? = none)
      (fenced : record.fence ≠ none) :
      BootstrapRefused profile requestDigest record (.error .settingsManagedByFencedProvisioning)
  | stale (fence : profile.fence? = some claimed) (fenced : record.fence = some current)
      (older : claimed.claimGeneration < current.claimGeneration) :
      BootstrapRefused profile requestDigest record (.error (.fence .provisioningFenceStale))
  | claimed (fence : profile.fence? = some claim) (fenced : record.fence = some current)
      (other : exactFenceReplay current claim requestDigest = false) :
      BootstrapRefused profile requestDigest record (.error (.fence .provisioningFenceConflict))

/-- What a bootstrap answers once its id is kept. -/
inductive BootstrapRetried (target : Target) (command : MaterializedBootstrap Digest)
    (record : AgentRecord Digest) (row : CommandRow Digest) :
    Except Failure (Answer Digest) → Prop where
  | recorded (same : command.commandDigest = row.commandDigest)
      (reported : Recorded target command.commandId row answer) :
      BootstrapRetried target command record row answer
  | conflicts (differs : command.commandDigest ≠ row.commandDigest)
      (conflict : Conflicts answer) : BootstrapRetried target command record row answer
  | superseded (same : command.commandDigest = row.commandDigest)
      (toolbox : command.profile.isToolbox = true)
      (other : ∀ ownerUserId ∈ command.profile.ownerUserId, ownedBy record ownerUserId = false) :
      BootstrapRetried target command record row (.ok (.rejected .bootstrapOwnerSuperseded))
  | refused (refusal : BootstrapRefused command.profile command.requestDigest record answer) :
      BootstrapRetried target command record row answer

/-- What a call answers once its id is kept. -/
inductive Retried (authority : Authority Digest) (record : AgentRecord Digest)
    (row : CommandRow Digest) : Request Digest → Except Failure (Answer Digest) → Prop where
  | malformed (request : Request Digest) (digest : request.commandDigest? authority = none)
      (failure : Failure) : Retried authority record row request (.error failure)
  | unnamed (input : NativePatchInput) (blank : trim input.commandId.toList = []) :
      Retried authority record row (.apply input)
        (.error (.configuration .invalidNativeSettingsPatch none))
  | recorded (same : request.commandDigest? authority = some row.commandDigest)
      (id : request.commandId? = some commandId)
      (reported : Recorded authority.target commandId row answer) :
      Retried authority record row request answer
  | conflicts (digest : request.commandDigest? authority = some commandDigest)
      (differs : commandDigest ≠ row.commandDigest) (conflict : Conflicts answer) :
      Retried authority record row request answer
  | superseded (input : BootstrapInput)
      (same : (Request.bootstrap input).commandDigest? authority = some row.commandDigest)
      (toolbox : input.profile.isToolbox = true)
      (other : ∀ ownerUserId ∈ input.profile.ownerUserId, ownedBy record ownerUserId = false) :
      Retried authority record row (.bootstrap input)
        (.ok (.rejected .bootstrapOwnerSuperseded))
  | refused (input : BootstrapInput)
      (refusal : BootstrapRefused input.profile input.requestDigest record answer) :
      Retried authority record row (.bootstrap input) answer

section Retries

variable [DecidableEq Digest]
variable {platform : Platform Digest} {target : Target} {now : Int}
variable {record : AgentRecord Digest} {row : CommandRow Digest}

theorem nativePatch_retry {command : NativePatchCommand Digest}
    (kept : record.command? command.commandId = some row)
    (named : trim command.commandId.toList ≠ []) :
    (applyNativePatchInTransaction platform target command now).run (some record) =
      .ok (if row.commandDigest ≠ command.commandDigest then
          .conflict .commandConflict record.configurationRevision
        else .alreadyApplied (stateFromCommandRow target command.commandId row),
        some record.withControl) := by
  have found : record.withControl.commands.find? (fun row => row.commandId == command.commandId) = some row := kept
  simp only [applyNativePatchInTransaction, if_neg named, Transaction.run_bind, selectAgent_run,
    insertControl_run, selectControl_run, findConfigurationCommand_run, found]
  split <;> rfl

theorem enrollment_retry {service : ReleaseService Digest} {input : EnrollmentInput Digest}
    {serviceNow : Int} (kept : record.command? input.commandId = some row) :
    (enrollToolboxManagedInTransaction service target input serviceNow now).run (some record) =
      .ok (if row.commandDigest ≠ enrollmentDigest service.platform target input then
          .conflict .commandConflict record.configurationRevision
        else .alreadyApplied (stateFromCommandRow target input.commandId row),
        some record.withControl) := by
  have found : record.withControl.commands.find? (fun row => row.commandId == input.commandId) = some row := kept
  simp only [enrollToolboxManagedInTransaction, Transaction.run_bind, selectAgent_run,
    insertControl_run, selectControl_run, findConfigurationCommand_run, found]
  split <;> rfl

variable {command : MaterializedBootstrap Digest}

theorem replayCommand_retry {ownerUserId : String}
    {currentRevision : Nat} (toolbox : command.profile.isToolbox = true)
    (owner : command.profile.ownerUserId = some ownerUserId) :
    ∃ reply, BootstrapRetried target command record row reply ∧
      replayToolbox.replayCommand target command ownerUserId record (some row)
        (row.commandDigest != command.commandDigest) currentRevision = reply.map some := by
  unfold replayToolbox.replayCommand
  by_cases same : row.commandDigest = command.commandDigest
  · simp only [same, bne_self_eq_false, Bool.false_eq_true, if_false]
    by_cases owned : ownedBy record ownerUserId = false
    · refine ⟨_, .superseded same.symm toolbox ?_, by rw [if_pos owned]; rfl⟩
      intro other given
      rw [owner] at given
      cases given
      exact owned
    · exact ⟨_, .recorded same.symm (.bootstrap _ _), by rw [if_neg owned]; rfl⟩
  · have differs : (row.commandDigest != command.commandDigest) = true := by simpa using same
    rw [if_pos differs]
    exact ⟨_, .conflicts (Ne.symm same) (.failed _), rfl⟩

theorem replayToolbox_retry {ownerUserId : String}
    (toolbox : command.profile.isToolbox = true) (owner : command.profile.ownerUserId = some ownerUserId) :
    ∃ reply, BootstrapRetried target command record row reply ∧
      replayToolbox platform target command ownerUserId command.profile.fence?
        record.lockedControl record (some row) = reply.map some := by
  unfold replayToolbox
  cases fence : command.profile.fence? with
  | none =>
    cases fenced : record.fence with
    | none => exact replayCommand_retry toolbox owner
    | some current =>
      exact ⟨_, .refused (.unfenced toolbox fence (by simp [fenced])), rfl⟩
  | some claimed =>
    cases fenced : record.fence with
    | none => exact replayCommand_retry toolbox owner
    | some current =>
      by_cases older : claimed.claimGeneration < current.claimGeneration
      · exact ⟨_, .refused (.stale fence fenced older), by simp only [if_pos older]; rfl⟩
      · by_cases level : claimed.claimGeneration = current.claimGeneration
        · by_cases other : exactFenceReplay current claimed command.requestDigest = false
          · exact ⟨_, .refused (.claimed fence fenced other), by
              simp only [if_neg older, if_pos level, if_pos other]; rfl⟩
          · simp only [if_neg older, if_pos level, if_neg other]
            exact replayCommand_retry toolbox owner
        · simp only [if_neg older, if_neg level]
          exact replayCommand_retry toolbox owner

theorem existingNative_retry :
    BootstrapRetried target command record row
      (bootstrapExistingNative platform target command record.lockedControl record (some row)) := by
  unfold bootstrapExistingNative
  by_cases same : row.commandDigest = command.commandDigest
  · simp only [same, ne_eq, not_true_eq_false, if_false]
    exact .recorded same.symm (.bootstrap _ _)
  · simp only [same, ne_eq, not_false_eq_true, if_true]
    exact .conflicts (Ne.symm same) (.failed _)

theorem bootstrap_retry (kept : record.command? command.commandId = some row) :
    ∃ reply, BootstrapRetried target command record row reply ∧
      (bootstrapInTransaction platform target command now).run (some record) =
        reply.map fun answer => (answer, some record.withControl) := by
  have found : record.withControl.commands.find? (fun row => row.commandId == command.commandId) = some row := kept
  simp only [bootstrapInTransaction, insertAgent, Transaction.run_bind, Transaction.run_attempt,
    lockAgentAndConfigurationControl_run, bootstrapLocked]
  by_cases managed : record.lockedControl.control.managementMode = .toolboxManaged
  · refine ⟨_, .refused (.managed managed), ?_⟩
    rw [if_pos managed]
    rfl
  · simp only [if_neg managed, Transaction.run_bind, selectAgent_run, findConfigurationCommand_run, found]
    cases profile : command.profile with
    | native ownerPlatform ownerUserId =>
      have answered : BootstrapRetried target command record row
          (bootstrapExistingNative platform target command record.lockedControl record
            (some row)) := existingNative_retry
      refine ⟨_, answered, ?_⟩
      simp only [Bool.false_eq_true, if_false, Transaction.run_ofExcept]
      rfl
    | toolboxPersonal ownerUserId patUserId membershipId ownerEmail fence =>
      have toolbox : command.profile.isToolbox = true := by rw [profile]; rfl
      have owner : command.profile.ownerUserId = some ownerUserId := by rw [profile]; rfl
      have claim : command.profile.fence? = fence := by rw [profile]; rfl
      simp only
      by_cases sealed : (record.withControl.receipt.any fun row => row.status == .applied) = true
      · refine ⟨_, .refused (.released toolbox ?_), by rw [if_pos sealed]; rfl⟩
        obtain ⟨receipt, held, applied⟩ := (Option.any_eq_true _ _).mp sealed
        exact ⟨receipt, held, by simpa using applied⟩
      · obtain ⟨reply, retried, same⟩ : ∃ reply, BootstrapRetried target command record row reply ∧
            replayToolbox platform target command ownerUserId command.profile.fence?
              record.lockedControl record (some row) = reply.map some :=
          replayToolbox_retry toolbox owner
        rw [claim] at same
        have looked : replayToolbox platform target command ownerUserId fence
            record.lockedControl record.withControl (some row) = reply.map some := same
        refine ⟨reply, retried, ?_⟩
        rw [if_neg sealed]
        simp only [Transaction.run_bind, Transaction.run_ofExcept, looked]
        cases reply <;> rfl

end Retries

section Calls

variable {authority : Authority Digest} {call : Call Digest} {commandId : String}
variable {record : AgentRecord Digest} {row : CommandRow Digest}

theorem bootstrap_digest {input : BootstrapInput} {command : MaterializedBootstrap Digest}
    (materialized : materialize authority.platform authority.target authority.schema input = .ok command) :
    (Request.bootstrap input).commandDigest? authority = some command.commandDigest := by
  simp [Request.commandDigest?, materialized, Except.toOption]

theorem nativePatch_digest {input : NativePatchInput} {command : NativePatchCommand Digest}
    (materialized : materializeNativePatchCommand authority.platform authority.target
      authority.schema input = .ok command) :
    (Request.apply input).commandDigest? authority = some command.commandDigest := by
  simp [Request.commandDigest?, materialized, Except.toOption]

theorem BootstrapRetried.retried {input : BootstrapInput} {command : MaterializedBootstrap Digest}
    {reply : Except Failure (Answer Digest)}
    (materialized : materialize authority.platform authority.target authority.schema input = .ok command)
    (retried : BootstrapRetried authority.target command record row reply) :
    Retried authority record row (.bootstrap input) reply := by
  have digest := bootstrap_digest materialized
  obtain ⟨id, _, profile, requestDigest⟩ := materialize_ok materialized
  cases retried with
  | recorded same reported =>
    refine .recorded (digest.trans (congrArg some same)) ?_ reported
    rw [id]
    rfl
  | conflicts differs conflict => exact .conflicts digest differs conflict
  | superseded same toolbox other =>
    rw [profile] at toolbox other
    exact .superseded input (digest.trans (congrArg some same)) toolbox other
  | refused refusal =>
    rw [profile, requestDigest] at refusal
    exact .refused input refusal

variable [DecidableEq Digest]

theorem retried_of_kept {request : Request Digest} {commandDigest : Digest}
    (id : request.commandId? = some commandId)
    (digest : request.commandDigest? authority = some commandDigest) :
    Retried authority record row request
      (.ok (if row.commandDigest ≠ commandDigest then
          .conflict .commandConflict record.configurationRevision
        else .alreadyApplied (stateFromCommandRow authority.target commandId row))) := by
  by_cases same : row.commandDigest = commandDigest
  · rw [if_neg (not_not.mpr same)]
    exact .recorded (digest.trans (congrArg some same.symm)) id .command
  · rw [if_pos same]
    exact .conflicts digest (Ne.symm same) (.answered _)

theorem program_retry (id : call.request.commandId? = some commandId) (kept : record.command? commandId = some row) :
    ∃ reply, Retried authority record row call.request reply ∧ (program authority call).run (some record) =
        reply.map fun answer => (answer, some record.withControl) := by
  unfold program
  cases asked : call.request with
  | bootstrap input =>
    rw [asked] at id
    cases id
    simp only [Transaction.run_bind, Transaction.run_ofExcept]
    cases materialized : materialize authority.platform authority.target authority.schema input with
    | error failure =>
      refine ⟨.error failure, .malformed _ ?_ failure, rfl⟩
      simp [Request.commandDigest?, materialized, Except.toOption]
    | ok command =>
      rw [← (materialize_ok materialized).1] at kept
      obtain ⟨reply, retried, ran⟩ := bootstrap_retry kept
      exact ⟨reply, retried.retried materialized, ran⟩
  | apply input =>
    rw [asked] at id
    cases id
    simp only [Transaction.run_bind, Transaction.run_ofExcept]
    cases materialized : materializeNativePatchCommand authority.platform authority.target authority.schema input with
    | error failure =>
      refine ⟨.error failure, .malformed _ ?_ failure, rfl⟩
      simp [Request.commandDigest?, materialized, Except.toOption]
    | ok command =>
      have same := (materializeNativePatch_ok materialized).1
      rw [← same] at kept
      by_cases blank : trim command.commandId.toList = []
      · refine ⟨_, .unnamed input (same ▸ blank), ?_⟩
        simp only [Except.map, applyNativePatchInTransaction, if_pos blank, Transaction.run_fail]
      · refine ⟨_, retried_of_kept ?_ (nativePatch_digest materialized), nativePatch_retry kept blank⟩
        rw [same]
        rfl
  | enrollToolboxManaged input =>
    rw [asked] at id
    cases id
    exact ⟨_, retried_of_kept rfl rfl, enrollment_retry kept⟩
  | applyManagedRelease command =>
    rw [asked] at id
    contradiction

end Calls

section Kept

variable {authority : Authority Digest} {call : Call Digest} {commandId : String}
variable {before after : Rows Digest} {answer : Answer Digest} {row : CommandRow Digest}
variable {record : AgentRecord Digest}

theorem commandOf_some : commandOf commandId (some record) = record.command? commandId := rfl

theorem commands_recorded {control : ControlRow Digest} :
    commandsOf (some (record.recorded control row)) = record.commands ++ [row] := rfl

theorem commandOf_prefix (grown : commandsOf before <+: commandsOf after)
    (kept : commandOf commandId before = some row) : commandOf commandId after = some row := by
  obtain ⟨added, same⟩ := grown
  unfold commandOf at kept ⊢
  rw [← same, List.find?_append, kept]
  rfl

theorem commandOf_recorded {control : ControlRow Digest}
    (fresh : record.command? commandId = none) (id : row.commandId = commandId) :
    commandOf commandId (some (record.recorded control row)) = some row := by
  unfold AgentRecord.command? at fresh
  unfold commandOf
  rw [commands_recorded, List.find?_append, fresh]
  simp [id]

variable [DecidableEq Digest]

theorem call_commands (outcome : CallOutcome authority call before answer after) :
    commandsOf before <+: commandsOf after := by
  cases outcome with
  | bootstrap asked materialized outcome =>
    cases outcome with
    | refused record reason => exact List.prefix_refl _
    | replayed record state => exact List.prefix_refl _
    | applied earlier base next created present allowed writes row =>
      rw [commands_recorded, writes.commands]
      cases before <;> subst present <;> exact List.prefix_append _ _
  | nativePatch asked materialized outcome =>
    cases outcome with
    | applied allowed row => exact List.prefix_append _ _
    | noChange allowed row => exact List.prefix_append _ _
    | _ => exact List.prefix_refl _
  | enrollment asked outcome =>
    cases outcome with
    | applied fresh native expected row => exact List.prefix_append _ _
    | _ => exact List.prefix_refl _
  | managedRelease asked preparation outcome =>
    cases outcome with
    | unchanged accepted next released idempotent unrepaired state =>
      change _ <+: next.commands
      rw [released.commands]
      exact List.prefix_refl _
    | recorded accepted next released changed expected state last row =>
      rw [commands_recorded, released.commands]
      exact List.prefix_append _ _

theorem call_kept (outcome : CallOutcome authority call before answer after)
    (id : call.request.commandId? = some commandId) :
    NoEffect before after ∨ ∃ row, commandOf commandId after = some row ∧
      call.request.commandDigest? authority = some row.commandDigest := by
  cases outcome with
  | bootstrap asked materialized outcome =>
    rw [asked] at id ⊢
    cases id
    have named := (materialize_ok materialized).1
    cases outcome with
    | refused record reason => exact .inl noEffect_withControl
    | replayed record state => exact .inl noEffect_withControl
    | applied earlier base next created present allowed writes row same digest =>
      refine .inr ⟨row, commandOf_recorded ?_ (same.trans named), ?_⟩
      · have fresh := allowed.fresh
        rw [named] at fresh
        unfold AgentRecord.command? at fresh ⊢
        rw [writes.commands]
        exact fresh
      · rw [digest]
        exact bootstrap_digest materialized
  | nativePatch asked materialized outcome =>
    rw [asked] at id ⊢
    cases id
    have named := (materializeNativePatch_ok materialized).1
    cases outcome with
    | applied allowed row same digest =>
      refine .inr ⟨row, commandOf_recorded ?_ (same.trans named), ?_⟩
      · have fresh := allowed.fresh
        rw [named] at fresh
        exact fresh
      · rw [digest]
        exact nativePatch_digest materialized
    | noChange allowed row => exact .inl ⟨⟨rfl, rfl, rfl⟩, rfl, rfl⟩
    | _ => exact .inl noEffect_withControl
  | enrollment asked outcome =>
    rw [asked] at id ⊢
    cases id
    cases outcome with
    | applied fresh native expected row same digest =>
      refine .inr ⟨row, commandOf_recorded fresh same, ?_⟩
      rw [digest]
      rfl
    | _ => exact .inl noEffect_withControl
  | managedRelease asked preparation outcome =>
    rw [asked] at id
    contradiction

end Kept

section Runs

variable [DecidableEq Digest]
variable {authority : Authority Digest} {call : Call Digest} {commandId : String}
variable {first second third fourth : AgentSession Digest}
variable {answer reply : Except Failure (Answer Digest)} {row : CommandRow Digest}

theorem run_commands (reached : (agentSessions authority).Reachable unrestricted first)
    (later : (agentSessions authority).Later unrestricted first second) :
    commandsOf first.committed <+: commandsOf second.committed := by
  apply Session.committed_related (fun before after => commandsOf before <+: commandsOf after) ?_ ?_ ?_ reached later
  · exact fun rows => List.prefix_refl _
  · exact fun first second third earlier later => earlier.trans later
  · exact fun call session answer rows _ ran => call_commands (program_ok ran)

theorem answers_retry (reached : (agentSessions authority).Reachable unrestricted first)
    (answered : Session.Answers (program authority) first second call reply)
    (id : call.request.commandId? = some commandId) (kept : commandOf commandId first.committed = some row) :
    NoEffect first.committed second.committed ∧ ∃ record, first.committed = some record ∧
        Retried authority record row call.request reply := by
  have executed := answered.executes reached
  cases present : first.committed with
  | none =>
    rw [present] at kept
    contradiction
  | some record =>
    rw [present, commandOf_some] at kept
    rw [present] at executed
    obtain ⟨response, retried, ran⟩ := program_retry id kept
    cases response with
    | error failure =>
      rw [Transaction.execute_error ran] at executed
      obtain ⟨rfl, same⟩ := Prod.mk.inj executed
      rw [← same]
      exact ⟨NoEffect.refl _, record, rfl, retried⟩
    | ok result =>
      rw [Transaction.execute_ok ran] at executed
      obtain ⟨rfl, same⟩ := Prod.mk.inj executed
      rw [← same]
      exact ⟨noEffect_withControl, record, rfl, retried⟩

/-- A call that takes effect is kept under its id, and whatever happens after a command has
been kept, calls with its id take no effect and are answered from its row or refused. -/
theorem commands_take_effect_once (reached : (agentSessions authority).Reachable unrestricted first)
    (answered : Session.Answers (program authority) first second call answer)
    (id : call.request.commandId? = some commandId) :
    (NoEffect first.committed second.committed ∨ ∃ row, commandOf commandId second.committed = some row ∧
          call.request.commandDigest? authority = some row.commandDigest) ∧
      ∀ row third fourth retry reply, commandOf commandId second.committed = some row →
        (agentSessions authority).Later unrestricted second third →
        Session.Answers (program authority) third fourth retry reply → retry.request.commandId? = some commandId →
          NoEffect third.committed fourth.committed ∧ ∃ record, third.committed = some record ∧
              Retried authority record row retry.request reply := by
  have executed := answered.executes reached
  constructor
  · cases answer with
    | error failure =>
      rw [Transaction.rows_of_execute executed]
      exact .inl (NoEffect.refl _)
    | ok result => exact call_kept (program_ok (Transaction.run_of_execute executed)) id
  · intro row third fourth retry reply kept later retried same
    have reachable := answered.reachable reached
    have found := commandOf_prefix (run_commands reachable later) kept
    exact answers_retry (reachable.later later) retried same found

theorem commands_take_effect_once_created :
    ∃ before after : AgentSession Json, ∃ row reply, commandOf "create" before.committed = some row ∧
        Session.Answers (program plainAuthority) before after newAgent reply ∧
        NoEffect before.committed after.committed ∧ ∃ record, before.committed = some record ∧
          Retried plainAuthority record row newAgent.request reply := by
  have begun : (agentSessions plainAuthority).Reachable unrestricted
      (⟨none, none⟩ : AgentSession Json) := .start ⟨trivial, rfl⟩
  obtain ⟨ending, ran, answered⟩ := call_answers plainAuthority newAgent none
  obtain ⟨retrying, later, retried⟩ := call_answers plainAuthority newAgent
    ((program plainAuthority newAgent).execute none).2
  have present : (commandOf "create"
      ((program plainAuthority newAgent).execute none).2).isSome = true := by decide +kernel
  obtain ⟨row, kept⟩ := Option.isSome_iff_exists.mp present
  have same : commandOf "create" retrying.committed = some row :=
    commandOf_prefix (run_commands (answered.reachable (begun.later ran)) later) kept
  exact ⟨retrying, _, row, _, same, retried,
    (commands_take_effect_once (begun.later ran) answered rfl).2 row _ _ _ _ kept later
      retried rfl⟩

/-- A toolbox bootstrap with its own id. -/
def toolboxAgent (commandId : String) (fence : Option ProvisioningFence) : Call Json where
  request := .bootstrap
    { commandId, expectedConfigurationRevision := none, actorKind := "toolbox"
      profile := .toolboxPersonal "owner" "pat" "member" "owner@example.com" fence
      name := "agent", description := none, settings := .object []
      requestDigest :=
        "sha256:0000000000000000000000000000000000000000000000000000000000000000" }
  serviceNow := 0
  now := 0

def firstFence : ProvisioningFence where
  targetId := "target"
  claimGeneration := 1
  claimToken := "token"
  baselineVersionId := "baseline"
  effectiveSettingsDigest := "digest"

/-- The rows once a fenced bootstrap has followed an unfenced one. -/
def fencedRows : Rows Json :=
  ((program plainAuthority (toolboxAgent "fenced" (some firstFence))).execute
    ((program plainAuthority (toolboxAgent "plain" none)).execute none).2).2

/-- The retry of an unfenced bootstrap that a fenced one has followed is refused. -/
theorem recorded_bootstrap_refused :
    ¬∀ (first second : AgentSession Json) (call : Call Json) (commandId : String)
        (row : CommandRow Json) (reply : Except Failure (Answer Json)),
      (agentSessions plainAuthority).Reachable unrestricted first → commandOf commandId first.committed = some row →
      Session.Answers (program plainAuthority) first second call reply → call.request.commandId? = some commandId →
      call.request.commandDigest? plainAuthority = some row.commandDigest →
      Recorded plainAuthority.target commandId row reply := by
  intro always
  have begun : (agentSessions plainAuthority).Reachable unrestricted
      (⟨none, none⟩ : AgentSession Json) := .start ⟨trivial, rfl⟩
  have plain := begun.later (later_call plainAuthority (toolboxAgent "plain" none) none)
  have fenced : (agentSessions plainAuthority).Reachable unrestricted (⟨fencedRows, none⟩ : AgentSession Json) :=
    plain.later (later_call plainAuthority (toolboxAgent "fenced" (some firstFence)) _)
  obtain ⟨ending, ran, answered⟩ :=
    call_answers plainAuthority (toolboxAgent "plain" none) fencedRows
  have computed : (commandOf "plain" fencedRows).isSome = true ∧
      (commandOf "plain" fencedRows).map CommandRow.commandDigest =
        (toolboxAgent "plain" none).request.commandDigest? plainAuthority ∧
      (((program plainAuthority (toolboxAgent "plain" none)).execute fencedRows).1).isOk =
        false := by decide +kernel
  obtain ⟨present, digests, failed⟩ := computed
  obtain ⟨row, kept⟩ := Option.isSome_iff_exists.mp present
  rw [kept] at digests
  have found := commandOf_prefix (run_commands fenced ran) kept
  have reported := always ending _ (toolboxAgent "plain" none) "plain" row _ (fenced.later ran)
    found answered rfl digests.symm
  rw [reported.isOk] at failed
  cases failed

end Runs

end Lobu.Configuration
