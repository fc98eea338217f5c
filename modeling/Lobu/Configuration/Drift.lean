import Lobu.Configuration.ReleaseOrder

namespace Lobu.Configuration

open Lobu.Foundation

/-! # Drift

What the evidence of a release says of settings that have changed since.  A personal
baseline is read back key by key, so the release-owned fields that it leaves out are
written but not watched.
-/

variable {Digest : Type} [DecidableEq Digest]

/-- The columns that the command's `UPDATE` assigns. -/
def ApplyCommand.writtenFields (command : ApplyCommand Digest) : List SettingKey :=
  if command.personal.isSome then releaseOwnedColumns else legacyManagedColumns

/-- The command's baseline, if it has one, has the field. -/
def ApplyCommand.Carries (command : ApplyCommand Digest) (key : SettingKey) : Prop :=
  ∀ personal ∈ command.personal, key.name ∈ personal.settings.map Prod.fst

/-- The same JSON value, where a missing value is the field's default. -/
def SameValue (first second : Settings) (key : SettingKey) : Prop :=
  (key.orUnset (first key)).canonicalize = (key.orUnset (second key)).canonicalize

/-- Every field that the command wrote still has the value it was given. -/
def FieldsKept (command : ApplyCommand Digest) (written live : Settings) : Prop :=
  ∀ key ∈ command.writtenFields, SameValue live written key

/-- No field that the command left out has changed, or one that it carries has too. -/
def DriftSeen (command : ApplyCommand Digest) (written live : Settings) : Prop :=
  (∀ key ∈ command.writtenFields, ¬command.Carries key → SameValue live written key) ∨
    ∃ key ∈ command.writtenFields, command.Carries key ∧ ¬SameValue live written key

/-- Receipts of one release and one digest of its settings. -/
structure SameReceipt (row later : ReceiptRow Digest) : Prop where
  environment : later.environment = row.environment
  settingsHash : later.settingsHash = row.settingsHash
  personalBaseline : later.personalBaseline = row.personalBaseline
  baselineOverride : later.baselineOverride = row.baselineOverride

section Fields

variable {command : ApplyCommand Digest} {first second : Settings} {key : SettingKey}

theorem mem_liveReleaseFields : ∀ key, key ∈ liveReleaseFields ↔ key ∈ releaseOwnedColumns := by
  intro key
  cases key <;> decide

theorem named_eq_some {text : String} (named : SettingKey.named text = some key) : key.name = text := by
  simpa using List.find?_some named

/-- The value that a field of a stored baseline is digested with. -/
def liveValue (settings : Settings) (name : String) : Option Json :=
  ((SettingKey.named name).filter (· ∈ liveReleaseFields)).map fun key =>
    key.orUnset (settings key)

theorem liveField_eq (settings : Settings) (field : String × Json) :
    liveField settings field = (field.1, (liveValue settings field.1).getD field.2) := by
  unfold liveField liveValue
  cases named : SettingKey.named field.1 with
  | none => rfl
  | some key =>
    by_cases live : key ∈ liveReleaseFields
    · simp [live, Option.filter]
    · simp [live, Option.filter]

theorem settingsFromAgent_personal (settings : Settings) (fields : List (String × Json)) :
    settingsFromAgent settings (some fields) =
      .object (fields.map fun field => (field.1, (liveValue settings field.1).getD field.2)) := by
  rw [settingsFromAgent]
  congr 1
  exact List.map_congr_left fun field _ => liveField_eq settings field

theorem liveValue_owned (settings : Settings) (owned : key ∈ releaseOwnedColumns) :
    liveValue settings key.name = some (key.orUnset (settings key)) := by
  have live := (mem_liveReleaseFields key).mpr owned
  simp [liveValue, SettingKey.named_name, Option.filter, live]

theorem personal_alike {fields : List (String × Json)} :
    (settingsFromAgent first (some fields)).canonicalize = (settingsFromAgent second (some fields)).canonicalize ↔
      ∀ key ∈ releaseOwnedColumns, key.name ∈ fields.map Prod.fst → SameValue first second key := by
  rw [settingsFromAgent_personal, settingsFromAgent_personal, Json.canonicalize_object_iff]
  constructor
  · intro alike key owned carried
    obtain ⟨field, member, name⟩ := List.mem_map.mp carried
    have same := alike field member
    rw [name, liveValue_owned first owned, liveValue_owned second owned] at same
    exact same
  · intro alike field member
    unfold liveValue
    cases named : SettingKey.named field.1 with
    | none => rfl
    | some key =>
      by_cases live : key ∈ liveReleaseFields
      · have carried : key.name ∈ fields.map Prod.fst := by
          rw [named_eq_some named]
          exact List.mem_map_of_mem member
        have same := alike key ((mem_liveReleaseFields key).mp live) carried
        simpa [live, Option.filter, SameValue] using same
      · simp [live, Option.filter]

theorem legacy_alike :
    (settingsFromAgent first none).canonicalize = (settingsFromAgent second none).canonicalize ↔
      ∀ key ∈ legacyManagedColumns, SameValue first second key :=
  Json.canonicalize_object_iff

omit [DecidableEq Digest] in
theorem settings_alike :
    (settingsFromAgent first (command.personal.map PersonalBaseline.settings)).canonicalize =
        (settingsFromAgent second (command.personal.map PersonalBaseline.settings)).canonicalize ↔
      ∀ key ∈ command.writtenFields, command.Carries key → SameValue first second key := by
  unfold ApplyCommand.writtenFields ApplyCommand.Carries
  cases command.personal with
  | none => simpa using legacy_alike
  | some personal => simpa using personal_alike

omit [DecidableEq Digest] in
theorem watched_iff {written live : Settings} :
    ((∀ key ∈ command.writtenFields, command.Carries key → SameValue live written key) ↔
        FieldsKept command written live) ↔ DriftSeen command written live := by
  unfold FieldsKept DriftSeen
  constructor
  · intro tells
    by_cases watched : ∀ key ∈ command.writtenFields, command.Carries key → SameValue live written key
    · exact .inl fun key field _ => tells.mp watched key field
    · push Not at watched
      exact .inr watched
  · intro seen
    constructor
    · intro watched key field
      rcases seen with kept | ⟨other, field', carried, changed⟩
      · by_cases carried : command.Carries key
        · exact watched key field carried
        · exact kept key field carried
      · exact absurd (watched other field' carried) changed
    · exact fun all key field _ => all key field

end Fields

section Evidence

variable {service : ReleaseService Digest} {record later : AgentRecord Digest}
variable {row : ReceiptRow Digest}

theorem evidenceFromReceipt_of (agentId : String) (proven : Proven service row) :
    ∃ evidence, evidenceFromReceipt service agentId row = .ok evidence ∧
      evidence.drifted = row.personalBaseline.any fun personal =>
        personal.effectiveSettingsDigest != row.settingsHash := by
  obtain ⟨given, read⟩ := proven
  unfold evidenceFromReceipt
  rw [read]
  exact ⟨_, rfl, rfl⟩

theorem getEvidence_of (agentId : String) (held : record.receipt = some row)
    (environment : service.expectedEnvironment = .ok row.environment) (proven : Proven service row)
    (baseline : ∀ personal ∈ row.personalBaseline, personal.effectiveSettingsDigest = row.settingsHash) :
    ∃ evidence, getEvidence service agentId record = .ok (some evidence) ∧ (evidence.drifted = false ↔
        settingsHashFromAgent service record.settings row.personalBaseline = row.settingsHash) := by
  obtain ⟨evidence, read, drifted⟩ := evidenceFromReceipt_of agentId proven
  have undrifted : evidence.drifted = false := by
    rw [drifted]
    cases personal : row.personalBaseline with
    | none => rfl
    | some value =>
      have same := baseline value personal
      simp [same]
  unfold getEvidence
  simp only [environment, held, read]
  by_cases same : settingsHashFromAgent service record.settings row.personalBaseline = row.settingsHash
  · refine ⟨evidence, ?_, by simp [undrifted, same]⟩
    simp [Bind.bind, Except.bind, same, Pure.pure, Except.pure]
  · refine ⟨{ evidence with
        drifted := true
        liveSettingsHash := some
          (settingsHashFromAgent service record.settings row.personalBaseline) }, ?_, by simp [same]⟩
    simp [Bind.bind, Except.bind, same, Pure.pure, Except.pure]

end Evidence

section Baselines

variable {service : ReleaseService Digest} {command : ApplyCommand Digest} {now : Int}
variable {personal : PersonalBaseline Digest} {signed : PersonalBaselineContract Digest}

/-- A baseline under the digest of its settings. -/
def BaselineSigned (service : ReleaseService Digest) (personal : PersonalBaseline Digest) : Prop :=
  digestValue service (.object personal.settings) = personal.effectiveSettingsDigest

theorem validateBaselineOverride_ok {baselineVersion : Nat} {baselineOverride : BaselineOverride Digest}
    (given : validateBaselineOverride service command signed personal baselineVersion baselineOverride now = .ok ()) :
    personal.effectiveSettingsDigest = baselineOverride.overrideEffectiveSettingsDigest := by
  unfold validateBaselineOverride at given
  simp only at given
  split at given
  · contradiction
  · split at given
    · contradiction
    · split at given
      · contradiction
      · split at given
        · contradiction
        · split at given
          · contradiction
          · rename_i identity
            simp only [not_or, not_not] at identity
            exact identity.2.2

theorem validateBaselineIdentity_ok {expected hash : Digest} (contract : personalContract command = some signed)
    (given : validateBaselineIdentity service command signed personal now = .ok expected)
    (asserted : assertExpectedSettingsHash command hash = .ok ()) :
    personal.effectiveSettingsDigest = expected ∧ personal.effectiveSettingsDigest = hash := by
  have policy : command.signedManifest.controlPlanePolicy = some (.personal signed) := by
    unfold personalContract at contract
    split at contract
    · rename_i found
      cases contract
      exact found
    · contradiction
  unfold assertExpectedSettingsHash at asserted
  simp only [policy] at asserted
  unfold validateBaselineIdentity at given
  cases override : command.baselineOverride with
  | some version =>
    obtain ⟨baselineVersion, baselineOverride⟩ := version
    simp only [override] at given asserted
    obtain ⟨_, checked, ended⟩ := Transaction.except_bind_ok.mp given
    cases ended
    have same := validateBaselineOverride_ok checked
    refine ⟨same, ?_⟩
    rw [same]
    simpa using asserted
  | none =>
    simp only [override] at given asserted
    split at given
    · contradiction
    · split at given
      · contradiction
      · rename_i same
        cases given
        refine ⟨not_not.mp same, ?_⟩
        rw [not_not.mp same]
        simpa using asserted

theorem validatePersonalBaseline_ok {hash : Digest}
    (given : validatePersonalBaselineCommand service command now = .ok ())
    (asserted : assertExpectedSettingsHash command hash = .ok ()) (present : command.personal = some personal) :
    BaselineSigned service personal ∧ personal.effectiveSettingsDigest = hash := by
  unfold validatePersonalBaselineCommand at given
  cases contract : personalContract command with
  | none => simp [contract, present] at given
  | some signed =>
    simp only [contract, present] at given
    split at given
    · contradiction
    · obtain ⟨expected, identified, given⟩ := Transaction.except_bind_ok.mp given
      obtain ⟨same, asked⟩ := validateBaselineIdentity_ok contract identified asserted
      split at given
      · contradiction
      · rename_i digest
        exact ⟨(not_not.mp digest).trans same.symm, asked⟩

end Baselines

section Receipts

variable {authority : Authority Digest} {call : Call Digest} {command : ApplyCommand Digest}
variable {prepared : PreparedApply Digest} {now : Int} {result : ReleaseResult Digest}
variable {record next : AgentRecord Digest} {before after : Rows Digest} {answer : Answer Digest}

def BaselinesSigned (service : ReleaseService Digest) (rows : Rows Digest) : Prop :=
  ∀ row ∈ receiptOf rows, ∀ personal ∈ row.personalBaseline, BaselineSigned service personal

/-- A receipt that is in order, and whose digest is that of the settings. -/
structure ReceiptIntact (service : ReleaseService Digest) (command : ApplyCommand Digest)
    (settings : Settings) (row : ReceiptRow Digest) : Prop where
  environment : service.expectedEnvironment = .ok row.environment
  proven : Proven service row
  baseline : ∀ personal ∈ row.personalBaseline, personal.effectiveSettingsDigest = row.settingsHash
  hash : settingsHashFromAgent service settings row.personalBaseline = row.settingsHash
  alike : ∀ live, settingsHashFromAgent service live row.personalBaseline =
    settingsHashFromAgent service live command.personal

omit [DecidableEq Digest] in
theorem baseline_alike {service : ReleaseService Digest} {first second : PersonalBaseline Digest}
    (injective : Function.Injective service.platform.sha256)
    (signedFirst : BaselineSigned service first) (signedSecond : BaselineSigned service second)
    (same : first.effectiveSettingsDigest = second.effectiveSettingsDigest) (live : Settings) :
    settingsHashFromAgent service live (some first) = settingsHashFromAgent service live (some second) := by
  have digests : digestValue service (.object first.settings) = digestValue service (.object second.settings) := by
    rw [signedFirst, signedSecond, same]
  have canonical := injective digests
  simp only [settingsHashFromAgent, Option.map_some, settingsFromAgent_personal, digestValue, sha256Canonical]
  rw [Json.canonicalize_overlay canonical (liveValue live)]

section

variable (injective : Function.Injective authority.service.platform.sha256)
include injective

theorem retried_alike {row : ReceiptRow Digest} (passed : ReleasePrepared authority command call.serviceNow prepared)
    (retried : ReleaseRetried authority.service prepared record row)
    (expected : assertExpectedSettingsHash prepared.command row.settingsHash = .ok ())
    (signed : BaselinesSigned authority.service (some record)) :
    (∀ personal ∈ row.personalBaseline, personal.effectiveSettingsDigest = row.settingsHash) ∧
      ∀ live, settingsHashFromAgent authority.service live row.personalBaseline =
        settingsHashFromAgent authority.service live command.personal := by
  have retry := retried.retry
  rw [passed.carries] at retry expected
  unfold assertRetryMatchesReceipt at retry
  simp only at retry
  split at retry
  · contradiction
  · rename_i identity
    have identities := not_not.mp identity
    cases held : row.personalBaseline with
    | none =>
      cases present : command.personal with
      | none => exact ⟨nofun, fun _ => rfl⟩
      | some personal => simp [held, present] at identities
    | some first =>
      cases present : command.personal with
      | none => simp [held, present] at identities
      | some second =>
        obtain ⟨signedSecond, asked⟩ :=
          validatePersonalBaseline_ok passed.personal expected present
        have same : first.effectiveSettingsDigest = second.effectiveSettingsDigest := by
          simp only [held, present, Option.map_some, Option.some.injEq, Prod.mk.injEq] at identities
          exact identities.2
        refine ⟨?_, ?_⟩
        · intro personal given
          cases given
          exact same.trans asked
        · exact baseline_alike injective (signed row retried.held first held) signedSecond same

theorem release_intact (passed : ReleasePrepared authority command call.serviceNow prepared)
    (accepted : ReleaseAccepted prepared record)
    (released : ReleaseOutcome authority.service now prepared record result next)
    (signed : BaselinesSigned authority.service (some record)) :
    ∃ row, next.receipt = some row ∧ ReceiptIntact authority.service command next.settings row ∧
      BaselinesSigned authority.service (some next) := by
  have environments : ∀ row ∈ record.receipt, authority.service.expectedEnvironment = .ok row.environment := by
    intro row held
    rw [accepted.environment row held, passed.carries]
    exact passed.expected
  cases released with
  | kept retried intact moved expected proven evidence =>
    obtain ⟨baseline, alike⟩ := retried_alike injective passed retried expected signed
    have held := signed _ retried.held
    have environment := environments _ retried.held
    rcases moved with rfl | rfl
    · exact ⟨_, rfl, ⟨environment, proven, baseline, intact, alike⟩, fun row same => by cases same; exact held⟩
    · exact ⟨_, rfl, ⟨environment, proven, baseline, intact, alike⟩, fun row same => by cases same; exact held⟩
  | repaired retried drifted restored expected proven tables evidence =>
    obtain ⟨baseline, alike⟩ := retried_alike injective passed retried expected signed
    have held := signed _ retried.held
    have environment := environments _ retried.held
    refine ⟨_, rfl, ⟨environment, proven, baseline, ?_, alike⟩, fun row same => by cases same; exact held⟩
    refine (alike _).trans ?_
    rw [← passed.carries]
    exact restored
  | replaced other order hash proven tables evidence =>
    have checked := passed.personal
    have expected := passed.expected
    rw [← passed.carries] at checked expected
    refine ⟨_, rfl, ⟨expected, proven, ?_, rfl, ?_⟩, ?_⟩
    · intro personal present
      exact (validatePersonalBaseline_ok checked hash present).2
    · intro live
      rw [← passed.carries]
      rfl
    · intro row same personal present
      cases same
      exact (validatePersonalBaseline_ok checked hash present).1

theorem call_baselines (outcome : CallOutcome authority call before answer after)
    (signed : BaselinesSigned authority.service before) : BaselinesSigned authority.service after := by
  have untouched : receiptOf after = receiptOf before → BaselinesSigned authority.service after := by
    intro same
    unfold BaselinesSigned
    rw [same]
    exact signed
  cases outcome with
  | bootstrap asked materialized outcome => exact untouched (bootstrap_receipt outcome).1
  | nativePatch asked materialized outcome => exact untouched (by cases outcome <;> rfl)
  | enrollment asked outcome => exact untouched (by cases outcome <;> rfl)
  | managedRelease asked preparation outcome =>
    have passed := prepareManagedRelease_ok preparation
    cases outcome with
    | unchanged accepted next released =>
      obtain ⟨_, _, _, kept⟩ := release_intact injective passed accepted released signed
      exact kept
    | recorded accepted next released =>
      obtain ⟨_, _, _, kept⟩ := release_intact injective passed accepted released signed
      exact kept

theorem call_intact (outcome : CallOutcome authority call before answer after)
    (asked : call.request = .applyManagedRelease command) (signed : BaselinesSigned authority.service before) :
    ∃ record row, after = some record ∧ record.receipt = some row ∧
      ReceiptIntact authority.service command record.settings row := by
  cases outcome with
  | managedRelease same preparation outcome =>
    cases asked.symm.trans same
    have passed := prepareManagedRelease_ok preparation
    cases outcome with
    | unchanged accepted next released =>
      obtain ⟨row, held, intact, _⟩ := release_intact injective passed accepted released signed
      exact ⟨_, row, rfl, held, intact⟩
    | recorded accepted next released =>
      obtain ⟨row, held, intact, _⟩ := release_intact injective passed accepted released signed
      exact ⟨_, row, rfl, held, intact⟩
  | bootstrap same | nativePatch same | enrollment same => cases asked.symm.trans same

end

theorem evidence_watches {service : ReleaseService Digest} {settings : Settings}
    {row laterRow : ReceiptRow Digest} {later : AgentRecord Digest} (agentId : String)
    (injective : Function.Injective service.platform.sha256) (intact : ReceiptIntact service command settings row)
    (held : later.receipt = some laterRow) (same : SameReceipt row laterRow) :
    ∃ evidence, getEvidence service agentId later = .ok (some evidence) ∧
      (evidence.drifted = false ↔ ∀ key ∈ command.writtenFields, command.Carries key →
        SameValue later.settings settings key) := by
  obtain ⟨evidence, given, drifted⟩ := getEvidence_of agentId held (same.environment ▸ intact.environment) (by
      obtain ⟨override, read⟩ := intact.proven
      refine ⟨override, ?_⟩
      unfold baselineOverrideFromReceipt at read ⊢
      rw [same.baselineOverride, same.personalBaseline]
      exact read)
    (by
      rw [same.personalBaseline, same.settingsHash]
      exact intact.baseline)
  refine ⟨evidence, given, drifted.trans ?_⟩
  rw [same.personalBaseline, same.settingsHash, ← intact.hash, intact.alike, intact.alike, ← settings_alike]
  exact injective.eq_iff

end Receipts

section Runs

variable {authority : Authority Digest} {call : Call Digest} {command : ApplyCommand Digest}
variable {first second : AgentSession Digest} {answer : Answer Digest}

theorem run_baselines (injective : Function.Injective authority.service.platform.sha256)
    (reached : (releaseSessions authority).Reachable unrestricted first) :
    BaselinesSigned authority.service first.committed := by
  refine Session.committed_invariant ?_ ?_ reached
  · intro rows missing row held
    rw [missing] at held
    contradiction
  · intro call rows answer later signed ran
    exact call_baselines injective (program_ok ran) signed

/-- Right after a release the evidence is undrifted; from then on it tells whether the fields
that the release wrote are kept just where drift is seen. -/
theorem drift_is_seen (injective : Function.Injective authority.service.platform.sha256)
    (reached : (releaseSessions authority).Reachable unrestricted first)
    (answered : Session.Answers (program authority) first second call (.ok answer))
    (asked : call.request = .applyManagedRelease command) :
    ∃ record row, second.committed = some record ∧ record.receipt = some row ∧
      (∃ evidence, getEvidence authority.service authority.target.agentId record =
        .ok (some evidence) ∧ evidence.drifted = false) ∧
      ∀ (later : AgentRecord Digest) laterRow, later.receipt = some laterRow → SameReceipt row laterRow →
          ∃ evidence, getEvidence authority.service authority.target.agentId later = .ok (some evidence) ∧
            ((evidence.drifted = false ↔ FieldsKept command record.settings later.settings) ↔
              DriftSeen command record.settings later.settings) := by
  have outcome := program_ok (Transaction.run_of_execute (answered.executes reached))
  obtain ⟨record, row, present, held, intact⟩ :=
    call_intact injective outcome asked (run_baselines injective reached)
  refine ⟨record, row, present, held, ?_, ?_⟩
  · obtain ⟨evidence, given, drifted⟩ := evidence_watches authority.target.agentId injective
      intact held ⟨rfl, rfl, rfl, rfl⟩
    exact ⟨evidence, given, drifted.mpr fun key _ _ => rfl⟩
  · intro later laterRow found same
    obtain ⟨evidence, given, drifted⟩ := evidence_watches authority.target.agentId injective intact found same
    exact ⟨evidence, given, (by rw [drifted]; exact watched_iff)⟩

/-- A release of a personal baseline that has one field only. -/
def soulBaseline : ApplyCommand Json :=
  let baseline : Json := .object [("soulMd", .string "calm")]
  let release := soulRelease 1 none "calm"
  { release with
    signedManifest :=
      { release.signedManifest with
        managedSettings := []
        controlPlanePolicy := some (.personal
          { baselineVersionId := "baseline", baselineVersion := 1
            effectiveSettingsDigest := baseline }) }
    signedFeed :=
      { release.signedFeed with activation := some { activationMode := .perAgent, paused := false } }
    current := true
    personal := some
      { versionId := "baseline", effectiveSettingsDigest := baseline
        settings := [("soulMd", .string "calm")] } }

/-- The rows after its release, whose baseline leaves the identity at its default. -/
def baselineRows : Rows Json :=
  ((program plainAuthority (releaseCall soulBaseline)).execute ownedRows).2

theorem baseline_released : ∃ ending answer, (releaseSessions plainAuthority).Reachable unrestricted ending ∧
      Session.Answers (program plainAuthority) ending ⟨baselineRows, none⟩
        (releaseCall soulBaseline) (.ok answer) := by
  have begun : (releaseSessions plainAuthority).Reachable unrestricted
      (⟨ownedRows, none⟩ : AgentSession Json) := .start ⟨rfl, rfl⟩
  obtain ⟨ending, later, answered⟩ := call_answers plainAuthority (releaseCall soulBaseline) ownedRows
  have succeeded : ((program plainAuthority (releaseCall soulBaseline)).execute ownedRows).1.isOk =
      true := by decide +kernel
  cases reply : ((program plainAuthority (releaseCall soulBaseline)).execute ownedRows).1 with
  | error failure =>
    rw [reply] at succeeded
    cases succeeded
  | ok answer =>
    rw [reply] at answered
    exact ⟨ending, answer, begun.later later, answered⟩

theorem drift_is_seen_baseline :
    ∃ record : AgentRecord Json, baselineRows = some record ∧ ∃ evidence,
      getEvidence plainAuthority.service "agent" record = .ok (some evidence) ∧ evidence.drifted = false := by
  obtain ⟨ending, answer, reached, answered⟩ := baseline_released
  obtain ⟨record, row, present, _, evidence, _⟩ :=
    drift_is_seen Function.injective_id reached answered rfl
  exact ⟨record, present, evidence⟩

/-- The identity, which the baseline leaves out, changes after the release unseen. -/
theorem omitted_drift_unseen :
    ¬∀ (first second : AgentSession Json) (call : Call Json) (command : ApplyCommand Json)
        (answer : Answer Json) (record later : AgentRecord Json) (evidence : ReleaseEvidence Json),
      (releaseSessions plainAuthority).Reachable unrestricted first →
      Session.Answers (program plainAuthority) first second call (.ok answer) →
      call.request = .applyManagedRelease command → second.committed = some record →
      later.receipt = record.receipt → getEvidence plainAuthority.service "agent" later = .ok (some evidence) →
        (evidence.drifted = false ↔ FieldsKept command record.settings later.settings) := by
  intro always
  obtain ⟨ending, answer, reached, answered⟩ := baseline_released
  have outcome := program_ok (Transaction.run_of_execute (answered.executes reached))
  have injective : Function.Injective plainAuthority.service.platform.sha256 :=
    Function.injective_id
  obtain ⟨record, row, present, held, intact⟩ :=
    call_intact injective outcome rfl (run_baselines injective reached)
  have reset : settingOf .identityMd baselineRows = some (.string "") := by decide +kernel
  have rows : baselineRows = some record := present
  rw [rows] at reset
  let live : Settings := fun key =>
    if key = .identityMd then .string "changed" else record.settings key
  have found : (record.withSettings live).receipt = some row := held
  obtain ⟨evidence, given, drifted⟩ :=
    evidence_watches "agent" injective intact found ⟨rfl, rfl, rfl, rfl⟩
  have undrifted : evidence.drifted = false := by
    apply drifted.mpr
    intro key _ carries
    have name : key.name = "soulMd" := by simpa using carries _ rfl
    have soul : key = .soulMd := SettingKey.name_injective name
    rw [soul]
    rfl
  have kept := (always ending _ _ soulBaseline answer record (record.withSettings live) evidence
    reached answered rfl present rfl given).mp undrifted
  have same : SameValue live record.settings .identityMd := kept .identityMd (by decide)
  have identity : record.settings .identityMd = .string "" := Option.some.inj reset
  have changed : live .identityMd = .string "changed" := if_pos rfl
  unfold SameValue at same
  rw [identity, changed] at same
  exact absurd same (by decide)

end Runs

end Lobu.Configuration
