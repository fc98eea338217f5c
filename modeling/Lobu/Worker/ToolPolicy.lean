import Lobu.Foundation.Text

namespace Lobu.Worker

open Lobu.Foundation

/-! # Tool policies

The policy a worker builds from the configured and the requested tools, and the
check of a bash command against it.
-/

structure BashCommandPolicy where
  allowAll : Bool
  allowPrefixes : List String
  denyPrefixes : List String

structure ToolsConfig where
  allowedTools : List String := []
  deniedTools : List String := []
  strictMode : Option Bool := none

structure ToolPolicy where
  toolsConfig : Option ToolsConfig
  allowedPatterns : List String
  deniedPatterns : List String
  strictMode : Bool
  bashPolicy : BashCommandPolicy

def defaultPackageManagerDenyPrefixes : List String :=
  ["apt ", "apt-get ", "yum ", "dnf ", "apk ", "pacman ", "zypper ", "brew ", "nix-shell ",
    "nix-env ", "nix profile ", "sudo apt ", "sudo apt-get ", "sudo yum ", "sudo dnf ",
    "sudo apk ", "sudo pacman ", "sudo zypper ", "sudo brew ", "sudo nix-shell ",
    "sudo nix-env ", "sudo nix profile ", "pip install ", "pip3 install ", "uv pip install ",
    "npm install ", "npm i ", "pnpm install ", "pnpm add ", "yarn install ", "yarn add ",
    "bun install ", "bun add ", "cargo install ", "go install ", "gem install ", "poetry add ",
    "composer require "]

def trimmed (text : String) : String :=
  String.ofList (trim text.toList)

/-- A tool list is given as one text or as a list of texts. -/
inductive ToolList where
  | text (value : String)
  | list (values : List String)

def normalizeToolList : Option ToolList → List String
  | none => []
  | some (.text value) =>
    ((value.toList.splitOnP fun c => c == ',' || c == '\n').map
      fun entry => String.ofList (trim entry)).filter (· ≠ "")
  | some (.list values) => (values.map trimmed).filter (· ≠ "")

/-- `/^Bash\(([^:]+):\*\)$/i` -/
def parseBashFilter (pattern : String) : Option String :=
  let chars := pattern.toList
  let inner := (chars.drop 5).take (chars.length - 8)
  if (chars.take 5).map Char.toLower = "bash(".toList ∧ chars = chars.take 5 ++ inner ++ ":*)".toList ∧
      inner ≠ [] ∧ ':' ∉ inner then
    (some (String.ofList (trim inner))).filter (· ≠ "")
  else none

section Policies

variable (letters : LowerCase)

def normalizeToolName (name : String) : List Char :=
  letters.lower (trim name.toList)

def matchesToolPattern (toolName pattern : String) : Bool :=
  let normalizedTool := normalizeToolName letters toolName
  let normalizedPattern := trim pattern.toList
  let normalizedPatternLower := letters.lower normalizedPattern
  if normalizedPattern = ['*'] then true
  else if normalizedPatternLower.getLast? = some '*' then
    normalizedPatternLower.dropLast.isPrefixOf normalizedTool
  else normalizedTool == normalizedPatternLower

def buildToolPolicy (toolsConfig : Option ToolsConfig)
    (allowedTools disallowedTools : Option ToolList) : ToolPolicy :=
  let mergedAllowed := ((toolsConfig.elim [] ToolsConfig.allowedTools) ++
    normalizeToolList allowedTools).map trimmed
  let mergedDenied := ((toolsConfig.elim [] ToolsConfig.deniedTools) ++
    normalizeToolList disallowedTools).map trimmed
  { toolsConfig
    allowedPatterns := mergedAllowed
    deniedPatterns := mergedDenied
    strictMode := (toolsConfig.bind ToolsConfig.strictMode) == some true
    bashPolicy := {
      allowAll := mergedAllowed.any (matchesToolPattern letters "bash")
      allowPrefixes := mergedAllowed.filterMap parseBashFilter
      denyPrefixes := defaultPackageManagerDenyPrefixes ++
        mergedDenied.filterMap parseBashFilter } }

theorem parseBashFilter_ne_empty {pattern start : String}
    (filtered : parseBashFilter pattern = some start) : start ≠ "" := by
  simp only [parseBashFilter] at filtered
  split at filtered
  · obtain ⟨_, nonempty⟩ := Option.filter_eq_some_iff.mp filtered
    simpa using nonempty
  · contradiction

theorem buildToolPolicy_prefixes (toolsConfig : Option ToolsConfig) (allowedTools disallowedTools : Option ToolList) :
    let policy := (buildToolPolicy letters toolsConfig allowedTools disallowedTools).bashPolicy
    defaultPackageManagerDenyPrefixes ⊆ policy.denyPrefixes ∧
      ∀ start ∈ policy.allowPrefixes ++ policy.denyPrefixes, start ≠ "" := by
  refine ⟨List.subset_append_left _ _, ?_⟩
  intro start member
  rcases List.mem_append.mp member with allowed | denied
  · obtain ⟨pattern, _, filtered⟩ := List.mem_filterMap.mp allowed
    exact parseBashFilter_ne_empty filtered
  · rcases List.mem_append.mp denied with default | denied
    · have named : ∀ start ∈ defaultPackageManagerDenyPrefixes, start ≠ "" := by decide
      exact named start default
    · obtain ⟨pattern, _, filtered⟩ := List.mem_filterMap.mp denied
      exact parseBashFilter_ne_empty filtered

end Policies

/-- The variables of the loop.  `skip` is set where the loop consumes the next
character with `i++`. -/
structure SplitState where
  segments : List (List Char)
  current : List Char
  inSingle : Bool
  inDouble : Bool
  skip : Bool

namespace SplitState

variable (state : SplitState)

def initial : SplitState where
  segments := []
  current := []
  inSingle := false
  inDouble := false
  skip := false

def push : SplitState :=
  let trimmed := trim state.current
  { state with
    segments := if trimmed = [] then state.segments else state.segments ++ [trimmed]
    current := [] }

def consume (ch : Char) : SplitState :=
  { state with current := state.current ++ [ch] }

def skipping : SplitState :=
  { state with skip := true }

end SplitState

/-- One turn of the loop. -/
def splitChar (ch : Char) (next : Option Char) (state : SplitState) : SplitState :=
  if state.skip then { state with skip := false }
  else if state.inSingle then
    if ch = '\'' then { state with inSingle := false }
    else state.consume ch
  else if state.inDouble then
    if ch = '"' then { state with inDouble := false }
    else if ch = '$' ∧ next = some '(' then state.push.skipping
    else if ch = '`' then state.push
    else state.consume ch
  else if ch = '\'' then { state with inSingle := true }
  else if ch = '"' then { state with inDouble := true }
  else if ch = '$' ∧ next = some '(' then state.push.skipping
  else if (ch = '<' ∨ ch = '>') ∧ next = some '(' then state.push.skipping
  else if ch = ')' ∨ ch = '`' then state.push
  else if ch = '\n' ∨ ch = ';' then state.push
  else if ch = '&' ∨ ch = '|' then
    if next = some ch then state.push.skipping else state.push
  else state.consume ch

def splitFrom : List Char → SplitState → SplitState
  | [], state => state
  | ch :: rest, state => splitFrom rest (splitChar ch rest.head? state)

def splitShellCommands (command : List Char) : List (List Char) :=
  (splitFrom command .initial).push.segments

def BashCommandPolicy.hasAllowlist (policy : BashCommandPolicy) : Bool :=
  !policy.allowAll && !policy.allowPrefixes.isEmpty

def BashCommandPolicy.denies (policy : BashCommandPolicy) (letters : LowerCase) (segment : List Char) : Bool :=
  policy.denyPrefixes.any fun start => letters.startsWith segment start.toList

def BashCommandPolicy.allows (policy : BashCommandPolicy) (letters : LowerCase) (segment : List Char) : Bool :=
  policy.allowPrefixes.any fun start => letters.startsWith segment start.toList

def enforceSegments (letters : LowerCase) (policy : BashCommandPolicy) : List (List Char) → Except String Unit
  | [] => .ok ()
  | segment :: segments =>
    if policy.denies letters segment then .error "Bash command denied by policy"
    else if policy.hasAllowlist && !policy.allows letters segment then
      .error "Bash command not allowed by policy"
    else enforceSegments letters policy segments

theorem enforceSegments_ok {letters : LowerCase} {policy : BashCommandPolicy} {segments : List (List Char)} :
    enforceSegments letters policy segments = .ok () ↔ ∀ segment ∈ segments, policy.denies letters segment = false ∧
        (policy.hasAllowlist = true → policy.allows letters segment = true) := by
  induction segments with
  | nil => simp [enforceSegments]
  | cons segment segments ih =>
    simp only [enforceSegments, List.forall_mem_cons]
    cases denied : policy.denies letters segment with
    | true => simp
    | false =>
      cases listed : policy.hasAllowlist with
      | false => simp [ih, listed]
      | true => cases policy.allows letters segment <;> simp [ih, listed]

def enforceBashCommandPolicy (letters : LowerCase) (command : List Char)
    (policy : BashCommandPolicy) : Except String Unit :=
  if trim command = [] then .ok ()
  else enforceSegments letters policy (splitShellCommands command)

end Lobu.Worker
