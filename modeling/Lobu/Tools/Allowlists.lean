import Lobu.Tools.Authorization

namespace Lobu.Tools

open Lobu.Foundation

/-! # Allowlists

What a list of names allows, in the router that selects the tools of a turn and in the catalog.
A name with a slash is there to be a qualified one.
-/

/-- What both read of an entry. -/
structure ToolCatalogEntry where
  mcpId : String
  name : String
deriving DecidableEq

namespace ToolCatalogEntry

def canonicalToolKey (entry : ToolCatalogEntry) : String := toolIdentityKey entry.mcpId entry.name

end ToolCatalogEntry

variable (runtime : CallRuntime)

def plainName (entry : ToolCatalogEntry) : String := normalizeAllowedToolName runtime entry.name

def qualifiedName (entry : ToolCatalogEntry) : String :=
  normalizeAllowedToolName runtime
    (if entry.mcpId ≠ "" then qualifiedToolKey entry.mcpId entry.name else entry.name)

def isEligible (entries : List ToolCatalogEntry) (allowed : List String) (entry : ToolCatalogEntry) : Bool :=
  let qualifiedNames := entries.map (qualifiedName runtime)
  let plain := plainName runtime entry
  let qualified := qualifiedName runtime entry
  (!plain.toList.contains '/' && allowed.contains plain) ||
    (allowed.contains qualified && decide (qualifiedNames.count qualified = 1))

def eligibleIdentityKeys (entries : List ToolCatalogEntry) (allowedToolNames : Option (List String)) :
    Option (List String) :=
  allowedToolNames.map fun names =>
    let allowed := (names.map (normalizeAllowedToolName runtime)).filter (· ≠ "")
    (entries.filter (isEligible runtime entries allowed)).map ToolCatalogEntry.canonicalToolKey

def filterEligibleToolEntries (entries : List ToolCatalogEntry)
    (allowedToolNames : Option (List String)) : List ToolCatalogEntry :=
  let eligibleKeys := eligibleIdentityKeys runtime entries allowedToolNames
  entries.filter fun entry => eligibleKeys.all fun keys => keys.contains entry.canonicalToolKey

def allowedInCatalog (allowedToolNames : Option (List String)) (entry : ToolCatalogEntry) : Bool :=
  isEntryAllowed runtime entry.mcpId entry.name (buildAllowedNameSet runtime allowedToolNames)

/-- The name on a list is that of a tool of the server. -/
def NamesToolOf (item mcpId : String) : Prop :=
  ∃ name, normalizeAllowedToolName runtime item =
    normalizeAllowedToolName runtime (qualifiedToolKey mcpId name)

/-- Router and catalog allow the same entries, and in neither does a name with a slash admit a tool
of a server it does not name. -/
def AllowlistMeansOne (entries : List ToolCatalogEntry) (allowedToolNames : Option (List String)) : Prop :=
  filterEligibleToolEntries runtime entries allowedToolNames =
      entries.filter (allowedInCatalog runtime allowedToolNames) ∧
    ∀ item ∈ allowedToolNames.getD [], '/' ∈ (normalizeAllowedToolName runtime item).toList →
      ∀ entry ∈ entries,
        (entry ∈ filterEligibleToolEntries runtime entries (some [item]) ∨
          allowedInCatalog runtime (some [item]) entry = true) →
        NamesToolOf runtime item entry.mcpId

/-- The names on a list, as both compare them. -/
def allowedNames (allowedToolNames : Option (List String)) : List String :=
  (buildAllowedNameSet runtime allowedToolNames).getD []

/-- The qualified name of the entry is listed and is no other entry's. -/
def Unambiguous (entries : List ToolCatalogEntry) (allowedToolNames : Option (List String))
    (entry : ToolCatalogEntry) : Prop :=
  qualifiedName runtime entry ∈ allowedNames runtime allowedToolNames ∧
    (entries.map (qualifiedName runtime)).count (qualifiedName runtime entry) = 1

/-- A listed name with a slash is the plain name of an entry only where it names a tool of the
entry's server, and the qualified name of the entry is listed too. -/
def PlainNamesApart (entries : List ToolCatalogEntry) (allowedToolNames : Option (List String)) : Prop :=
  ∀ entry ∈ entries, '/' ∈ (plainName runtime entry).toList →
    plainName runtime entry ∈ allowedNames runtime allowedToolNames →
      Unambiguous runtime entries allowedToolNames entry ∧ NamesToolOf runtime entry.name entry.mcpId

/-- A listed name that is the qualified name of an entry is that of one only, or the plain name of
the entry is listed too. -/
def QualifiedNamesApart (entries : List ToolCatalogEntry) (allowedToolNames : Option (List String)) : Prop :=
  ∀ entry ∈ entries,
    normalizeAllowedToolName runtime (qualifiedToolKey entry.mcpId entry.name) ∈
        allowedNames runtime allowedToolNames →
      ('/' ∉ (plainName runtime entry).toList ∧
        plainName runtime entry ∈ allowedNames runtime allowedToolNames) ∨
      Unambiguous runtime entries allowedToolNames entry

variable {runtime} {entries : List ToolCatalogEntry} {entry : ToolCatalogEntry}
variable {allowedToolNames : Option (List String)} {names : List String} {item : String}

theorem mem_allowedNames :
    item ∈ allowedNames runtime (some names) ↔
      item ≠ "" ∧ ∃ listed ∈ names, normalizeAllowedToolName runtime listed = item := by
  simp only [allowedNames, buildAllowedNameSet, Option.map_some, Option.getD_some, List.mem_filter,
    List.mem_map, ne_eq, decide_eq_true_eq]
  exact and_comm

/-- What the router needs of an entry. -/
def Eligible (runtime : CallRuntime) (entries : List ToolCatalogEntry)
    (allowedToolNames : Option (List String)) (entry : ToolCatalogEntry) : Prop :=
  ('/' ∉ (plainName runtime entry).toList ∧
      plainName runtime entry ∈ allowedNames runtime allowedToolNames) ∨
    Unambiguous runtime entries allowedToolNames entry

theorem isEligible_iff :
    isEligible runtime entries (allowedNames runtime allowedToolNames) entry = true ↔
      Eligible runtime entries allowedToolNames entry := by
  simp [isEligible, Eligible, Unambiguous]

theorem filterEligibleToolEntries_eq :
    filterEligibleToolEntries runtime entries (some names) =
      entries.filter (isEligible runtime entries (allowedNames runtime (some names))) := by
  unfold filterEligibleToolEntries eligibleIdentityKeys
  apply List.filter_congr
  intro entry member
  rw [Bool.eq_iff_iff]
  simp only [Option.map_some, Option.all_some, List.contains_iff_mem, List.mem_map]
  constructor
  · intro found
    obtain ⟨other, kept, sameKey⟩ := found
    have eligible := (List.mem_filter.mp kept).2
    have same := toolIdentityKey_inj.mp sameKey
    have isOther : other = entry := by
      cases other
      cases entry
      simp_all
    rw [← isOther]
    exact eligible
  · exact fun eligible => ⟨entry, List.mem_filter.mpr ⟨member, eligible⟩, rfl⟩

theorem allowedInCatalog_iff :
    allowedInCatalog runtime (some names) entry = true ↔ plainName runtime entry ∈ allowedNames runtime (some names) ∨
        normalizeAllowedToolName runtime (qualifiedToolKey entry.mcpId entry.name) ∈
          allowedNames runtime (some names) := by
  simp only [allowedInCatalog, isEntryAllowed, buildAllowedNameSet, Option.map_some, allowedNames,
    Option.getD_some, Bool.or_eq_true, List.contains_iff_mem, plainName]

theorem filters_agree_iff :
    filterEligibleToolEntries runtime entries (some names) = entries.filter (allowedInCatalog runtime (some names)) ↔
      ∀ entry ∈ entries, Eligible runtime entries (some names) entry ↔
        allowedInCatalog runtime (some names) entry = true := by
  rw [filterEligibleToolEntries_eq]
  constructor
  · intro same entry member
    have both : entry ∈ entries.filter (isEligible runtime entries (allowedNames runtime (some names))) ↔
        entry ∈ entries.filter (allowedInCatalog runtime (some names)) := by rw [same]
    simpa only [List.mem_filter, member, true_and, isEligible_iff] using both
  · intro agree
    apply List.filter_congr
    intro entry member
    rw [Bool.eq_iff_iff, isEligible_iff]
    exact agree entry member

theorem allowedInCatalog_of_eligible (eligible : Eligible runtime entries (some names) entry) :
    allowedInCatalog runtime (some names) entry = true := by
  rw [allowedInCatalog_iff]
  rcases eligible with plain | qualified
  · exact .inl plain.2
  · have listed := qualified.1
    unfold qualifiedName at listed
    split at listed
    · exact .inr listed
    · exact .inl listed

theorem namesToolOf_of_qualified (admitted : allowedInCatalog runtime (some [item]) entry = true) :
    plainName runtime entry = normalizeAllowedToolName runtime item ∨ NamesToolOf runtime item entry.mcpId := by
  rw [allowedInCatalog_iff, mem_allowedNames, mem_allowedNames] at admitted
  simp only [List.mem_singleton, exists_eq_left] at admitted
  rcases admitted with plain | qualified
  · exact .inl plain.2.symm
  · exact .inr ⟨entry.name, qualified.2⟩

theorem allowlistMeansOne_iff_of_some :
    AllowlistMeansOne runtime entries (some names) ↔ PlainNamesApart runtime entries (some names) ∧
        QualifiedNamesApart runtime entries (some names) := by
  unfold AllowlistMeansOne
  rw [filters_agree_iff, Option.getD_some]
  constructor
  · intro meansOne
    obtain ⟨agree, own⟩ := meansOne
    constructor
    · intro entry member slash listed
      have eligible := (agree entry member).mpr (allowedInCatalog_iff.mpr (.inl listed))
      obtain ⟨nonempty, item, isListed, isPlain⟩ := mem_allowedNames.mp listed
      have admitted : allowedInCatalog runtime (some [item]) entry = true := by
        rw [allowedInCatalog_iff, mem_allowedNames]
        exact .inl ⟨nonempty, item, List.mem_singleton_self item, isPlain⟩
      obtain ⟨name, isQualified⟩ := own item isListed (isPlain ▸ slash) entry member (.inr admitted)
      refine ⟨?_, name, isPlain.symm.trans isQualified⟩
      rcases eligible with plain | unambiguous
      · exact absurd slash plain.1
      · exact unambiguous
    · intro entry member listed
      exact (agree entry member).mpr (allowedInCatalog_iff.mpr (.inr listed))
  · intro apart
    obtain ⟨plainApart, qualifiedApart⟩ := apart
    constructor
    · intro entry member
      refine ⟨allowedInCatalog_of_eligible, ?_⟩
      intro allowed
      rcases allowedInCatalog_iff.mp allowed with plain | qualified
      · by_cases slash : '/' ∈ (plainName runtime entry).toList
        · exact .inr (plainApart entry member slash plain).1
        · exact .inl ⟨slash, plain⟩
      · exact qualifiedApart entry member qualified
    · intro item listed slash entry member admitted
      have inCatalog : allowedInCatalog runtime (some [item]) entry = true := by
        rcases admitted with routed | inCatalog
        · rw [filterEligibleToolEntries_eq, List.mem_filter, isEligible_iff] at routed
          exact allowedInCatalog_of_eligible routed.2
        · exact inCatalog
      rcases namesToolOf_of_qualified inCatalog with isPlain | named
      · have nonempty : plainName runtime entry ≠ "" := by
          intro isEmpty
          rw [← isPlain, isEmpty] at slash
          cases slash
        have isListed := mem_allowedNames.mpr ⟨nonempty, item, listed, isPlain.symm⟩
        obtain ⟨name, isQualified⟩ := (plainApart entry member (isPlain ▸ slash) isListed).2
        exact ⟨name, isPlain.symm.trans isQualified⟩
      · exact named

/-- The allowlist means the same in both, and a qualified name only its own server, exactly where
the names on it keep apart. -/
theorem allowlistMeansOne_iff (runtime : CallRuntime) (entries : List ToolCatalogEntry)
    (allowedToolNames : Option (List String)) :
    AllowlistMeansOne runtime entries allowedToolNames ↔ PlainNamesApart runtime entries allowedToolNames ∧
        QualifiedNamesApart runtime entries allowedToolNames := by
  cases allowedToolNames with
  | some names => exact allowlistMeansOne_iff_of_some
  | none =>
    have everything : AllowlistMeansOne runtime entries none := by
      refine ⟨rfl, ?_⟩
      intro item listed
      cases listed
    have nothingListed : PlainNamesApart runtime entries none ∧ QualifiedNamesApart runtime entries none := by
      constructor
      · intro entry _ _ listed
        cases listed
      · intro entry _ listed
        cases listed
    exact iff_of_true everything nothingListed

/-- The second tool is called what the first one is when qualified. -/
def namesakes : List ToolCatalogEntry := [⟨"a", "b"⟩, ⟨"x", "a/b"⟩]

theorem namesakes_differ : ¬ AllowlistMeansOne plainCallRuntime namesakes (some ["a/b"]) := by
  intro meansOne
  have same := meansOne.1
  revert same
  decide +kernel

end Lobu.Tools
