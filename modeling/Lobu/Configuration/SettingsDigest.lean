import Lobu.Configuration.FieldSchemas
import Lobu.Configuration.Revisions

namespace Lobu.Configuration

open Lobu.Foundation

/-! # The recorded digest

A patch is digested before it is written: the parser, the normalization, the statement
and both projections each name the columns and say what stands for a null.
-/

variable {Digest : Type} {platform : Platform Digest} {target : Target} {now : Int}
variable {record : AgentRecord Digest} {after : Rows Digest} {answer : Answer Digest}

section Valid

variable {schema : SettingKey → Json → Bool} {value : Json} {patch : SettingsPatch}

theorem parsed_fields (parsed : parseNativeSettingsPatch schema value = .ok patch) :
    ∀ field ∈ patch, field.2 = .null ∨ schema field.1 field.2 = true := by
  cases value with
  | object fields =>
    simp only [parseNativeSettingsPatch] at parsed
    split at parsed
    · cases parsed
    · split at parsed
      · rename_i accepted
        cases parsed
        intro field member
        simpa using List.all_eq_true.mp accepted field member
      · cases parsed
  | _ => cases parsed

theorem materialized_fields {input : NativePatchInput} {command : NativePatchCommand Digest}
    (given : materializeNativePatchCommand platform target schema input = .ok command) :
    ∀ field ∈ command.patch, field.2 = .null ∨ schema field.1 field.2 = true := by
  obtain ⟨first, _, again⟩ := Transaction.except_bind_ok.mp given
  obtain ⟨patch, parsed, ended⟩ := Transaction.except_bind_ok.mp again
  cases ended
  simp only [parsedPatch] at parsed
  split at parsed
  · rename_i read
    cases parsed
    exact parsed_fields read
  · cases parsed

theorem storedValue_valid {parameterText : Json → String} {key : SettingKey} {value : Json}
    (valid : value = .null ∨ fieldSchema key value = true) :
    storedValue parameterText key (key.orUnset value) = key.orUnset value := by
  by_cases text : key.isText = true
  · rcases valid with null | accepted
    · rw [null]
      cases key <;> rfl
    · obtain ⟨written, rfl⟩ := fieldSchema_text text accepted
      change storedValue parameterText key (.string written) = .string written
      unfold storedValue
      rw [if_pos text]
  · unfold storedValue
    rw [if_neg text]

end Valid

section Patched

variable {parameterText : Json → String} {patch : SettingsPatch} {settings : Settings}

theorem lookup_normalized (key : SettingKey) :
    (normalizeNativeSettingsPatchForPersistence patch).lookup key = (patch.lookup key).map key.orUnset := by
  induction patch with
  | nil => rfl
  | cons field rest ih =>
    obtain ⟨name, value⟩ := field
    simp only [normalizeNativeSettingsPatchForPersistence, List.map_cons, List.lookup_cons] at ih ⊢
    cases same : key == name with
    | true => simp only [beq_iff_eq.mp same, Option.map_some]
    | false => exact ih

theorem patchAgentSettings_column {field : SettingKey → Option Json} {key : SettingKey}
    (column : key ∈ settingsColumns) : patchAgentSettings parameterText field settings key = match field key with
      | some value => storedValue parameterText key (key.orUnset value)
      | none => settings key :=
  if_pos column

theorem projected_patched (valid : ∀ field ∈ patch, field.2 = .null ∨ fieldSchema field.1 field.2 = true) :
    projectAgentConfigurationSettings (patchAgentSettings parameterText (fun key => patch.lookup key) settings) =
      projectedSettingsAfterPatch settings patch := by
  refine List.map_congr_left fun key column => ?_
  rw [patchAgentSettings_column column, lookup_normalized]
  cases given : patch.lookup key with
  | none => rfl
  | some value =>
    obtain ⟨earlier, later, split, _⟩ := List.lookup_eq_some_iff.mp given
    have accepted := valid (key, value) (by simp [split])
    simp only [Option.map_some, Option.getD_some, storedValue_valid accepted, SettingKey.orUnset_orUnset]

end Patched

section Recorded

variable {command : NativePatchCommand Digest}

/-- Whether the projection of the row changes, as the code compares it. -/
def patchChanges (command : NativePatchCommand Digest) (settings : Settings) : Bool :=
  (projectAgentConfigurationSettings settings).toJson.canonicalize ≠
    (projectedSettingsAfterPatch settings command.patch).toJson.canonicalize

/-- What a patch that is let through writes and answers. -/
inductive PatchSettles (platform : Platform Digest) (target : Target)
    (command : NativePatchCommand Digest) (record : AgentRecord Digest) :
    Answer Digest → Rows Digest → Prop where
  | applied (control : ControlRow Digest) (row : CommandRow Digest)
      (changes : patchChanges command record.settings = true)
      (id : row.commandId = command.commandId)
      (digest : row.resultingSettingsDigest = sha256Canonical platform
        (projectedSettingsAfterPatch record.settings command.patch).toJson) :
      PatchSettles platform target command record
        (.applied (stateFromCommandRow target command.commandId row))
        (some ((record.withSettings
          (patchAgentSettings platform.parameterText (fun key => command.patch.lookup key)
            record.settings)).recorded control row))
  | noChange (control : ControlRow Digest) (row : CommandRow Digest)
      (keeps : ¬ patchChanges command record.settings = true)
      (id : row.commandId = command.commandId)
      (digest : row.resultingSettingsDigest = sha256Canonical platform
        (projectedSettingsAfterPatch record.settings command.patch).toJson) :
      PatchSettles platform target command record
        (.noChange (stateFromCommandRow target command.commandId row))
        (some (record.recorded control row))

theorem commitNativePatch_settles (ran : (commitNativePatch platform target command record record.controlRow
      record.configurationRevision now).run (some record.withControl) = .ok (answer, after)) :
    PatchSettles platform target command record answer after := by
  simp only [commitNativePatch] at ran
  split at ran
  · rename_i changes
    simp only [Transaction.run_bind, updateSettings_run, updateControl_run,
      withSettings_configurationRevision, if_true] at ran
    obtain ⟨_, between, inserted, ended⟩ := Transaction.match_run_ok.mp ran
    obtain ⟨rfl, _⟩ := insertCommand_ok inserted
    cases ended
    exact .applied _ _ changes rfl rfl
  · rename_i keeps
    simp only [Transaction.run_bind, Transaction.run_pure, if_true, updateControl_run] at ran
    obtain ⟨_, between, inserted, ended⟩ := Transaction.match_run_ok.mp ran
    obtain ⟨rfl, _⟩ := insertCommand_ok inserted
    cases ended
    exact .noChange _ _ keeps rfl rfl

/-- The answers of a patch that has been let through. -/
inductive Settled : Answer Digest → AppliedState Digest → Prop where
  | applied (state : AppliedState Digest) : Settled (.applied state) state
  | noChange (state : AppliedState Digest) : Settled (.noChange state) state

variable [DecidableEq Digest]

theorem applyNativePatch_settles {state : AppliedState Digest} (settled : Settled answer state)
    (ran : (applyNativePatchInTransaction platform target command now).run (some record) = .ok (answer, after)) :
    PatchSettles platform target command record answer after := by
  obtain ⟨_, ⟨⟩, ⟨-, refused⟩ | ⟨-, committed⟩⟩ := applyNativePatch_reaches ran
  · cases settled with
    | applied state => exact absurd rfl (refused state).1
    | noChange state => exact absurd rfl (refused state).2
  · exact commitNativePatch_settles committed

/-- The digest that a patch records is the one that the row gives when it is read back, and
the answer is `no_change` exactly when the row's projection is what it was. -/
theorem recorded_digest_is_stored {input : NativePatchInput} {state : AppliedState Digest}
    (given : materializeNativePatchCommand platform target fieldSchema input = .ok command)
    (settled : Settled answer state)
    (ran : (applyNativePatchInTransaction platform target command now).run (some record) = .ok (answer, after)) :
    ∃ next, after = some next ∧ (readAgentConfigurationSettingsDigest platform).run after =
        .ok (state.settingsDigest, after) ∧ (∃ row ∈ next.commands, row.commandId = input.commandId ∧
        row.resultingSettingsDigest = state.settingsDigest) ∧ (answer = .noChange state ↔
        (projectAgentConfigurationSettings next.settings).toJson.canonicalize =
          (projectAgentConfigurationSettings record.settings).toJson.canonicalize) := by
  have valid := materialized_fields given
  have same : command.commandId = input.commandId := (materializeNativePatch_ok given).1
  have projected := @projected_patched platform.parameterText command.patch record.settings valid
  have readBack : ∀ next : AgentRecord Digest, (readAgentConfigurationSettingsDigest platform).run (some next) =
        .ok (settingsDigest platform next.settings, some next) := fun _ => rfl
  cases applyNativePatch_settles settled ran with
  | applied control row changes id digest =>
    cases settled
    have stored : settingsDigest platform
        (patchAgentSettings platform.parameterText (fun key => command.patch.lookup key)
          record.settings) = row.resultingSettingsDigest := by
      rw [digest, settingsDigest, projected]
    have changed : (projectAgentConfigurationSettings record.settings).toJson.canonicalize ≠
        (projectedSettingsAfterPatch record.settings command.patch).toJson.canonicalize :=
      of_decide_eq_true changes
    refine ⟨_, rfl, ?_, ⟨row, List.mem_append_right _ List.mem_cons_self, id.trans same, rfl⟩, ?_⟩
    · rw [readBack]
      exact congrArg (fun digest => Except.ok (digest, _)) stored
    · constructor
      · intro answered
        cases answered
      · intro unchanged
        have equal : (projectedSettingsAfterPatch record.settings command.patch).toJson.canonicalize =
            (projectAgentConfigurationSettings record.settings).toJson.canonicalize := by
          rw [← projected]
          exact unchanged
        exact absurd equal.symm changed
  | noChange control row keeps id digest =>
    cases settled
    have equal : (projectAgentConfigurationSettings record.settings).toJson.canonicalize =
        (projectedSettingsAfterPatch record.settings command.patch).toJson.canonicalize := by
      simpa [patchChanges] using keeps
    have stored : settingsDigest platform record.settings = row.resultingSettingsDigest := by
      rw [digest, settingsDigest, sha256Canonical, sha256Canonical, equal]
    refine ⟨_, rfl, ?_, ⟨row, List.mem_append_right _ List.mem_cons_self, id.trans same, rfl⟩, ?_⟩
    · rw [readBack]
      exact congrArg (fun digest => Except.ok (digest, _)) stored
    · exact ⟨fun _ => rfl, fun _ => rfl⟩

end Recorded

def clearSoul : NativePatchInput where
  commandId := "clear"
  expectedConfigurationRevision := some 0
  patch := .object [("toolsConfig", .object [("strictMode", .bool true)]), ("soulMd", .null)]

/-- What the patch is once it has been parsed. -/
def clearSoulCommand : NativePatchCommand Json where
  commandId := "clear"
  commandDigest := (Json.object
    [("kind", .string "native_patch"), ("agentId", .string "agent"),
      ("expectedRevision", .string "0"),
      ("patch", .object
        [("soulMd", .string ""), ("toolsConfig", .object [("strictMode", .bool true)])])]).canonicalize
  expectedConfigurationRevision := some 0
  patch := [(.soulMd, .null), (.toolsConfig, .object [("strictMode", .bool true)])]

def briefAgent : AgentRecord Json :=
  { name := "agent", description := none, ownerPlatform := none, ownerUserId := none
    settings := fun key => if key = .soulMd then .string "Be brief." else key.unset
    control := none, commands := [], fence := none, receipt := none, cursors := [], grants := []
    provisioningGrants := [] }

theorem recorded_digest_is_stored_cleared :
    ∃ state after, (applyNativePatchInTransaction plainAuthority.service.platform plainAuthority.target
          clearSoulCommand 0).run (some briefAgent) = .ok (.applied state, after) ∧
        (readAgentConfigurationSettingsDigest plainAuthority.service.platform).run after =
          .ok (state.settingsDigest, after) := by
  have given : materializeNativePatchCommand plainAuthority.service.platform plainAuthority.target
      fieldSchema clearSoul = .ok clearSoulCommand := rfl
  obtain ⟨state, after, ran⟩ : ∃ state after,
      (applyNativePatchInTransaction plainAuthority.service.platform plainAuthority.target
        clearSoulCommand 0).run (some briefAgent) = .ok (.applied state, after) := ⟨_, _, rfl⟩
  obtain ⟨_, _, readBack, _⟩ := recorded_digest_is_stored given (.applied state) ran
  exact ⟨state, after, ran, readBack⟩

end Lobu.Configuration
