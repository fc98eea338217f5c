import Lobu.Configuration.Settings

namespace Lobu.Configuration

open Lobu.Foundation

/-! # The schemas of the settings

What the patch parser accepts as the value of a field.  Every object schema lets
further properties pass.
-/

def isString : Json → Bool
  | .string _ => true
  | _ => false

def isBoolean : Json → Bool
  | .bool _ => true
  | _ => false

/-- A finite number. -/
def isNumber : Json → Bool
  | .number (.finite _) => true
  | _ => false

def isUnknown : Json → Bool := fun _ => true

def isEnum (options : List String) : Json → Bool
  | .string text => options.contains text
  | _ => false

def isArrayOf (item : Json → Bool) : Json → Bool
  | .array items => items.all item
  | _ => false

def isRecordOf (value : Json → Bool) : Json → Bool
  | .object fields => fields.all fun field => value field.2
  | _ => false

structure ObjectField where
  name : String
  isOptional : Bool
  schema : Json → Bool

def required (name : String) (schema : Json → Bool) : ObjectField :=
  { name, isOptional := false, schema }

def optional (name : String) (schema : Json → Bool) : ObjectField :=
  { name, isOptional := true, schema }

/-- An object with the fields, and any others. -/
def isObjectOf (fields : List ObjectField) : Json → Bool
  | .object own => fields.all fun field =>
    match own.lookup field.name with
    | some value => field.schema value
    | none => field.isOptional
  | _ => false

def stringArraySchema : Json → Bool := isArrayOf isString

def stringRecordSchema : Json → Bool := isRecordOf isString

def modelSelectionSchema : Json → Bool :=
  isObjectOf [optional "mode" (isEnum ["auto", "pinned"]), optional "pinnedModel" isString]

def domainJudgeRuleSchema : Json → Bool :=
  isObjectOf [required "domain" isString, optional "judge" isString]

def networkConfigSchema : Json → Bool :=
  isObjectOf
    [optional "allowedDomains" stringArraySchema, optional "deniedDomains" stringArraySchema,
      optional "judgedDomains" (isArrayOf domainJudgeRuleSchema),
      optional "judges" stringRecordSchema]

def egressConfigSchema : Json → Bool :=
  isObjectOf [optional "extraPolicy" isString, optional "judgeModel" isString]

def nixConfigSchema : Json → Bool :=
  isObjectOf [optional "flakeUrl" isString, optional "packages" stringArraySchema]

def mcpToolFilterSchema : Json → Bool :=
  isObjectOf [optional "include" stringArraySchema, optional "exclude" stringArraySchema]

def mcpOAuthSchema : Json → Bool :=
  isObjectOf
    [optional "authUrl" isString, optional "tokenUrl" isString, optional "clientId" isString,
      optional "clientSecret" isString, optional "scopes" stringArraySchema,
      optional "deviceAuthorizationUrl" isString, optional "registrationUrl" isString,
      optional "resource" isString]

def mcpServerTypes : List String := ["sse", "streamable-http", "stdio"]

def mcpServerSchema : Json → Bool :=
  isObjectOf
    [optional "url" isString, optional "type" (isEnum mcpServerTypes), optional "command" isString,
      optional "args" stringArraySchema, optional "env" stringRecordSchema,
      optional "headers" stringRecordSchema, optional "description" isString,
      optional "toolFilter" mcpToolFilterSchema]

def mcpServersSchema : Json → Bool := isRecordOf mcpServerSchema

def skillMcpServerSchema : Json → Bool :=
  isObjectOf
    [required "id" isString, optional "name" isString, optional "url" isString,
      optional "type" (isEnum mcpServerTypes), optional "command" isString,
      optional "args" stringArraySchema, optional "oauth" mcpOAuthSchema,
      optional "inputs" (isArrayOf (isObjectOf
        [required "id" isString, optional "label" isString, optional "type" isString])),
      optional "headers" stringRecordSchema, optional "toolFilter" mcpToolFilterSchema]

/-- The union is told apart by `kind`. -/
def skillPreToolGuardrailSchema (value : Json) : Bool :=
  isObjectOf [required "kind" (isEnum ["builtin"]), required "name" isString] value ||
    isObjectOf
      [required "kind" (isEnum ["judge"]), required "policy" isString,
        optional "tools" stringArraySchema] value

def skillSchema : Json → Bool :=
  isObjectOf
    [required "repo" isString, required "name" isString, optional "description" isString,
      optional "instructions" isString, required "enabled" isBoolean, optional "system" isBoolean,
      optional "content" isString, optional "contentFetchedAt" isNumber,
      optional "mcpServers" (isArrayOf skillMcpServerSchema),
      optional "nixPackages" stringArraySchema, optional "networkConfig" networkConfigSchema,
      optional "providers" stringArraySchema, optional "modelPreference" isString,
      optional "thinkingLevel" (isEnum ["off", "low", "medium", "high"]),
      optional "guardrails"
        (isObjectOf [optional "pre-tool" (isArrayOf skillPreToolGuardrailSchema)])]

def skillsConfigSchema : Json → Bool :=
  isObjectOf [required "skills" (isArrayOf skillSchema)]

def toolsConfigSchema : Json → Bool :=
  isObjectOf
    [optional "allowedTools" stringArraySchema, optional "deniedTools" stringArraySchema,
      optional "strictMode" isBoolean, optional "mcpExposure" (isEnum ["tools", "cli"])]

def pluginSchema : Json → Bool :=
  isObjectOf
    [required "source" isString, required "slot" (isEnum ["tool", "provider", "memory"]),
      optional "enabled" isBoolean, optional "config" (isRecordOf isUnknown)]

def pluginsConfigSchema : Json → Bool :=
  isObjectOf [optional "plugins" (isArrayOf pluginSchema)]

def installedProviderSchema : Json → Bool :=
  isObjectOf
    [required "providerId" isString, required "installedAt" isNumber,
      optional "config" (isObjectOf [optional "baseUrl" isString])]

def installedProvidersSchema : Json → Bool := isArrayOf installedProviderSchema

/-- The schema of each field; the parser asks none of a field that has no column. -/
def fieldSchema : SettingKey → Json → Bool
  | .model => isString
  | .modelSelection => modelSelectionSchema
  | .providerModelPreferences => stringRecordSchema
  | .networkConfig => networkConfigSchema
  | .egressConfig => egressConfigSchema
  | .nixConfig => nixConfigSchema
  | .mcpServers => mcpServersSchema
  | .soulMd => isString
  | .userMd => isString
  | .identityMd => isString
  | .skillsConfig => skillsConfigSchema
  | .toolsConfig => toolsConfigSchema
  | .pluginsConfig => pluginsConfigSchema
  | .installedProviders => installedProvidersSchema
  | .verboseLogging => isBoolean
  | .preApprovedTools => stringArraySchema
  | .guardrails => stringArraySchema
  | .mcpInstallNotified | .authProfiles => fun _ => false

/-- What a patch gives a column of type `text` is a text. -/
theorem fieldSchema_text {key : SettingKey} {value : Json} (text : key.isText = true)
    (accepted : fieldSchema key value = true) : ∃ written, value = .string written := by
  have isText : isString value = true := by
    cases key <;> first | exact accepted | cases text
  cases value with
  | string written => exact ⟨written, rfl⟩
  | _ => cases isText

end Lobu.Configuration
