import Lobu.Foundation.Json

namespace Lobu.Configuration

open Lobu.Foundation

/-! # Agent settings

The registry of an agent's settings, who owns each, and the statements that write
the columns of the agents table that hold them.
-/

inductive SettingKey where
  | model
  | modelSelection
  | providerModelPreferences
  | networkConfig
  | egressConfig
  | nixConfig
  | mcpServers
  | mcpInstallNotified
  | soulMd
  | userMd
  | identityMd
  | skillsConfig
  | toolsConfig
  | guardrails
  | pluginsConfig
  | authProfiles
  | installedProviders
  | verboseLogging
  | preApprovedTools
deriving DecidableEq

inductive SettingOwner where
  | release
  | releaseLegacy
  | lobuOperator
  | runtime
  | credential
deriving DecidableEq

namespace SettingKey

/-- The keys in the order of the registry. -/
def all : List SettingKey :=
  [.model, .modelSelection, .providerModelPreferences, .networkConfig, .egressConfig, .nixConfig,
    .mcpServers, .mcpInstallNotified, .soulMd, .userMd, .identityMd, .skillsConfig, .toolsConfig,
    .guardrails, .pluginsConfig, .authProfiles, .installedProviders, .verboseLogging,
    .preApprovedTools]

def name : SettingKey → String
  | .model => "model"
  | .modelSelection => "modelSelection"
  | .providerModelPreferences => "providerModelPreferences"
  | .networkConfig => "networkConfig"
  | .egressConfig => "egressConfig"
  | .nixConfig => "nixConfig"
  | .mcpServers => "mcpServers"
  | .mcpInstallNotified => "mcpInstallNotified"
  | .soulMd => "soulMd"
  | .userMd => "userMd"
  | .identityMd => "identityMd"
  | .skillsConfig => "skillsConfig"
  | .toolsConfig => "toolsConfig"
  | .guardrails => "guardrails"
  | .pluginsConfig => "pluginsConfig"
  | .authProfiles => "authProfiles"
  | .installedProviders => "installedProviders"
  | .verboseLogging => "verboseLogging"
  | .preApprovedTools => "preApprovedTools"

def named (text : String) : Option SettingKey :=
  all.find? fun key => key.name == text

/-- What `??` puts in the place of a missing value. -/
def unset : SettingKey → Json
  | .model | .mcpInstallNotified | .authProfiles => .null
  | .modelSelection | .providerModelPreferences | .networkConfig | .egressConfig | .nixConfig
  | .mcpServers | .toolsConfig | .pluginsConfig => .object []
  | .soulMd | .userMd | .identityMd => .string ""
  | .skillsConfig => .object [("skills", .array [])]
  | .installedProviders | .preApprovedTools | .guardrails => .array []
  | .verboseLogging => .bool false

/-- `value ?? unset`, where `undefined` reads as `null`. -/
def orUnset (key : SettingKey) : Json → Json
  | .null => key.unset
  | value => value

/-- The columns of type `text`; the others hold JSON, and `verboseLogging` a boolean. -/
def isText : SettingKey → Bool
  | .model | .soulMd | .userMd | .identityMd => true
  | _ => false

theorem named_name (key : SettingKey) : named key.name = some key := by
  cases key <;> decide

theorem name_injective {first second : SettingKey} (same : first.name = second.name) : first = second := by
  have found := named_name first
  rw [same, named_name second] at found
  exact (Option.some.inj found).symm

@[simp] theorem orUnset_orUnset (key : SettingKey) (value : Json) :
    key.orUnset (key.orUnset value) = key.orUnset value := by
  cases value <;> cases key <;> rfl

end SettingKey

def ownerOfAgentSetting : SettingKey → SettingOwner
  | .model => .releaseLegacy
  | .modelSelection => .release
  | .providerModelPreferences => .release
  | .networkConfig => .release
  | .egressConfig => .release
  | .nixConfig => .release
  | .mcpServers => .release
  | .mcpInstallNotified => .runtime
  | .soulMd => .release
  | .userMd => .release
  | .identityMd => .release
  | .skillsConfig => .release
  | .toolsConfig => .release
  | .guardrails => .release
  | .pluginsConfig => .release
  | .authProfiles => .credential
  | .installedProviders => .release
  | .verboseLogging => .lobuOperator
  | .preApprovedTools => .release

def legacyManagedReleaseSettingKeys : List SettingKey :=
  [.identityMd, .soulMd, .userMd, .modelSelection, .toolsConfig]

def personalBaselineReleaseSettingKeys : List SettingKey :=
  SettingKey.all.filter fun key => ownerOfAgentSetting key = .release

/-- The own properties of a patch, in their order; the type of the source's patches has no
key of the runtime or of the credentials. -/
abbrev SettingsPatch := List (SettingKey × Json)

inductive FieldError where
  | unknownConfigurationField
  | runtimeFieldRequiresRuntimeApi
  | credentialFieldRequiresCredentialApi
  | invalidConfigurationFieldValue
deriving DecidableEq

/-- The columns of the settings projection, in its order. -/
def settingsColumns : List SettingKey :=
  [.model, .modelSelection, .providerModelPreferences, .networkConfig, .egressConfig, .nixConfig,
    .mcpServers, .soulMd, .userMd, .identityMd, .skillsConfig, .toolsConfig, .pluginsConfig,
    .installedProviders, .verboseLogging, .preApprovedTools, .guardrails]

def ownershipFault (field : String) : Option FieldError :=
  match SettingKey.named field with
  | none => some .unknownConfigurationField
  | some key =>
    match ownerOfAgentSetting key with
    | .runtime => some .runtimeFieldRequiresRuntimeApi
    | .credential => some .credentialFieldRequiresCredentialApi
    | _ => none

/-- `schema` is what the field's schema says of a value that is not null. -/
def parseNativeSettingsPatch (schema : SettingKey → Json → Bool) (value : Json) : Except FieldError SettingsPatch :=
  match value with
  | .object fields =>
    match fields.findSome? fun field => ownershipFault field.1 with
    | some fault => .error fault
    | none =>
      let patch := settingsColumns.filterMap fun key =>
        (value.get? key.name).map fun field => (key, field)
      if patch.all fun field => decide (field.2 = .null) || schema field.1 field.2 then .ok patch
      else .error .invalidConfigurationFieldValue
  | _ => .error .unknownConfigurationField

def normalizeNativeSettingsPatchForPersistence (patch : SettingsPatch) : SettingsPatch :=
  patch.map fun field => (field.1, field.1.orUnset field.2)

def SettingsPatch.toJson (patch : SettingsPatch) : Json :=
  .object (patch.map fun field => (field.1.name, field.2))

inductive ManagementMode where
  | native
  | toolboxManaged
deriving DecidableEq

theorem ManagementMode.native_of_ne {mode : ManagementMode} (other : mode ≠ .toolboxManaged) : mode = .native := by
  cases mode with
  | native => rfl
  | toolboxManaged => contradiction

inductive RejectionReason where
  | fieldOwnedByManagedRelease
  | managedConfigurationSealed
  | bootstrapOwnerSuperseded
  | invalidRelease
  | staleRelease
  | environmentMismatch
  | capabilityInactive
  | enrollmentDrifted

structure PatchPolicyDecision where
  allowedFields : List SettingKey
  rejectedFields : List SettingKey
  reason : Option RejectionReason

def decideNativeSettingsPatch (managementMode : ManagementMode) (patch : SettingsPatch) : PatchPolicyDecision :=
  let fields := patch.map Prod.fst
  match managementMode with
  | .native => { allowedFields := fields, rejectedFields := [], reason := none }
  | .toolboxManaged =>
    let rejectedFields := fields.filter fun field =>
      ownerOfAgentSetting field = .release ∨ ownerOfAgentSetting field = .releaseLegacy
    { allowedFields := fields.filter fun field => !rejectedFields.contains field
      rejectedFields
      reason := if rejectedFields.isEmpty then none else some .fieldOwnedByManagedRelease }

/-- The settings columns of an agent's row; `NULL` reads as `null`.  The rows for the keys of
the runtime and the credentials are elsewhere: no statement here writes them. -/
abbrev Settings := SettingKey → Json

/-- The column defaults of a new row. -/
def Settings.initial : Settings := SettingKey.unset

/-- What a column holds once the driver has sent a value: a column of type `text` gets a
value of another type in the driver's text for it. -/
def storedValue (parameterText : Json → String) (key : SettingKey) (value : Json) : Json :=
  if key.isText then
    match value with
    | .null => .null
    | .string text => .string text
    | other => .string (parameterText other)
  else value

section Writers

variable (parameterText : Json → String) (field : SettingKey → Option Json)

/-- `UPDATE agents SET` a value, or its default, in each of the columns. -/
def replaceColumns (columns : List SettingKey) (settings : Settings) : Settings := fun key =>
  if key ∈ columns then storedValue parameterText key (key.orUnset ((field key).getD .null))
  else settings key

/-- `UPDATE agents SET` each of the columns to a value where there is one, else to itself. -/
def patchColumns (columns : List SettingKey) (settings : Settings) : Settings := fun key =>
  if key ∈ columns then
    match field key with
    | some value => storedValue parameterText key (key.orUnset value)
    | none => settings key
  else settings key

def replaceAgentConfigurationSettings : Settings → Settings :=
  replaceColumns parameterText field
    [.model, .modelSelection, .providerModelPreferences, .networkConfig, .egressConfig, .nixConfig,
      .mcpServers, .soulMd, .userMd, .identityMd, .skillsConfig, .toolsConfig, .pluginsConfig,
      .installedProviders, .verboseLogging, .preApprovedTools, .guardrails]

def releaseOwnedColumns : List SettingKey :=
  [.modelSelection, .providerModelPreferences, .networkConfig, .egressConfig, .nixConfig,
    .mcpServers, .soulMd, .userMd, .identityMd, .skillsConfig, .toolsConfig, .pluginsConfig,
    .installedProviders, .preApprovedTools, .guardrails]

def replaceReleaseOwnedSettings : Settings → Settings :=
  replaceColumns parameterText field releaseOwnedColumns

def legacyManagedColumns : List SettingKey :=
  [.identityMd, .soulMd, .userMd, .modelSelection, .toolsConfig]

def applyLegacyManagedSettings : Settings → Settings :=
  patchColumns parameterText field legacyManagedColumns

def patchAgentSettings : Settings → Settings :=
  patchColumns parameterText field
    [.model, .modelSelection, .providerModelPreferences, .networkConfig, .egressConfig, .nixConfig,
      .mcpServers, .soulMd, .userMd, .identityMd, .skillsConfig, .toolsConfig, .pluginsConfig,
      .installedProviders, .verboseLogging, .preApprovedTools, .guardrails]

variable {parameterText field} {columns : List SettingKey} {settings : Settings} {key : SettingKey}

theorem replaceColumns_other (other : key ∉ columns) :
    replaceColumns parameterText field columns settings key = settings key :=
  if_neg other

theorem patchColumns_other (other : key ∉ columns) :
    patchColumns parameterText field columns settings key = settings key :=
  if_neg other

theorem patchColumns_missing (missing : field key = none) :
    patchColumns parameterText field columns settings key = settings key := by
  rw [patchColumns, missing]
  split <;> rfl

end Writers

/-- The durable settings in the form in which they are compared and digested. -/
def projectAgentConfigurationSettings (settings : Settings) : SettingsPatch :=
  settingsColumns.map fun key => (key, key.orUnset (settings key))

def projectedSettingsAfterPatch (settings : Settings) (patch : SettingsPatch) : SettingsPatch :=
  settingsColumns.map fun key =>
    (key, ((normalizeNativeSettingsPatchForPersistence patch).lookup key).getD
      (key.orUnset (settings key)))

/-- The fields that a release's digest reads from the live row. -/
def liveReleaseFields : List SettingKey :=
  [.identityMd, .soulMd, .userMd, .mcpServers, .skillsConfig, .preApprovedTools, .modelSelection,
    .providerModelPreferences, .networkConfig, .egressConfig, .nixConfig, .toolsConfig,
    .pluginsConfig, .guardrails, .installedProviders]

/-- One field of a stored baseline with the live value in its place. -/
def liveField (settings : Settings) (field : String × Json) : String × Json :=
  match SettingKey.named field.1 with
  | some key => if key ∈ liveReleaseFields then (field.1, key.orUnset (settings key)) else field
  | none => field

/-- What `settingsHashFromAgent` digests. -/
def settingsFromAgent (settings : Settings) (personalSettings : Option (List (String × Json))) : Json :=
  match personalSettings with
  | some fields => .object (fields.map (liveField settings))
  | none =>
    .object
      ([.identityMd, .soulMd, .userMd, .modelSelection, .toolsConfig].map fun key : SettingKey =>
        (key.name, key.orUnset (settings key)))

end Lobu.Configuration
