import Lobu.Foundation.Text

namespace Lobu.OAuth

open Lobu.Foundation

/-! # Scopes

A scope is stored and requested as one text of names between blanks.  A text that
is absent or empty stands for the default scopes, one of blanks for none at all.
-/

inductive OAuthErrorCode where
  | invalidRequest
  | invalidClient
  | invalidGrant
  | unauthorizedClient
  | invalidScope
  | accessDenied
  | serverError
  | authorizationPending
  | expiredToken

structure OAuthError where
  error : OAuthErrorCode
  errorDescription : String

abbrev ScopeText := List Char

def AVAILABLE_SCOPES : List ScopeText :=
  ["mcp:read".toList, "mcp:write".toList, "mcp:execute".toList, "mcp:admin".toList,
    "profile:read".toList, "device_worker:run".toList, "connections:token".toList]

def DEFAULT_SCOPES : List ScopeText :=
  ["mcp:read".toList, "mcp:write".toList]

def parseScopes (scope : Option ScopeText) : List ScopeText :=
  match scope with
  | none => DEFAULT_SCOPES
  | some [] => DEFAULT_SCOPES
  | some scope => (scope.splitOn ' ').filter AVAILABLE_SCOPES.contains

/-- The scope that a refreshed token is stored with, where that of the old one is `stored`. -/
def refreshedScope (stored : Option ScopeText) : Option ScopeText → Except OAuthError (Option ScopeText)
  | none => .ok stored
  | some requested =>
    let originalScopes := parseScopes stored
    let requestedScopesRaw := (requested.splitOn ' ').filter (· ≠ [])
    let requestedScopes := parseScopes (some requested)
    if requestedScopesRaw.length ≠ requestedScopes.length then
      .error ⟨.invalidScope, "Requested scope contains unsupported values"⟩
    else if requestedScopes.all originalScopes.contains then
      .ok (some ([' '].intercalate requestedScopes))
    else .error ⟨.invalidScope, "Requested scope exceeds originally granted scope"⟩

/-- A request that names no scope and is not empty either. -/
def onlyBlanks (requested : ScopeText) : Prop :=
  requested ≠ [] ∧ ∀ c ∈ requested, c = ' '

instance (requested : ScopeText) : Decidable (onlyBlanks requested) :=
  @instDecidableAnd _ _ inferInstance (List.decidableBAll (fun c => c = ' ') requested)

section Parsing

variable {scope requested : ScopeText} {scopes : List ScopeText}

theorem available_word (available : scope ∈ AVAILABLE_SCOPES) : scope ≠ [] ∧ ' ' ∉ scope := by
  have words : ∀ name ∈ AVAILABLE_SCOPES, name ≠ [] ∧ ' ' ∉ name := by decide
  exact words scope available

theorem default_available : DEFAULT_SCOPES ⊆ AVAILABLE_SCOPES := by decide

theorem parseScopes_of_ne_nil (written : scope ≠ []) :
    parseScopes (some scope) = (scope.splitOn ' ').filter AVAILABLE_SCOPES.contains := by
  cases scope with
  | nil => contradiction
  | cons first rest => rfl

theorem parseScopes_available (stored : Option ScopeText) : parseScopes stored ⊆ AVAILABLE_SCOPES := by
  rcases stored with _ | scope
  · exact default_available
  · by_cases written : scope = []
    · subst written
      exact default_available
    · rw [parseScopes_of_ne_nil written]
      intro name member
      exact List.contains_iff_mem.mp (List.mem_filter.mp member).2

theorem intercalate_ne_nil (some_ : scopes ≠ []) (words : ∀ name ∈ scopes, name ≠ []) :
    [' '].intercalate scopes ≠ [] := by
  cases scopes with
  | nil => contradiction
  | cons first rest =>
    have word := words first List.mem_cons_self
    cases rest with
    | nil => simpa using word
    | cons second rest =>
      rw [List.intercalate_cons_cons]
      simp [word]

theorem parseScopes_intercalate (some_ : scopes ≠ []) (available : scopes ⊆ AVAILABLE_SCOPES) :
    parseScopes (some ([' '].intercalate scopes)) = scopes := by
  have words : ∀ name ∈ scopes, name ≠ [] ∧ ' ' ∉ name := fun name member =>
    available_word (available member)
  rw [parseScopes_of_ne_nil (intercalate_ne_nil some_ fun name member => (words name member).1),
    List.splitOn_intercalate ' ' (fun name member => (words name member).2) some_,
    List.filter_eq_self]
  intro name member
  exact List.contains_iff_mem.mpr (available member)

theorem parseScopes_blanks (blanks : onlyBlanks requested) : parseScopes (some requested) = [] := by
  rw [parseScopes_of_ne_nil blanks.1, List.filter_eq_nil_iff]
  intro name member
  rw [splitOn_all_nil.mpr blanks.2 name member]
  decide

end Parsing

section Refreshed

variable {stored scope asked : Option ScopeText} {requested : ScopeText}

theorem refreshedScope_granted (granted : refreshedScope stored (some requested) = .ok scope) :
    parseScopes (some requested) ⊆ parseScopes stored ∧
      scope = some ([' '].intercalate (parseScopes (some requested))) ∧
      ((requested.splitOn ' ').filter (· ≠ [])).length = (parseScopes (some requested)).length := by
  simp only [refreshedScope] at granted
  split at granted
  · cases granted
  · rename_i matched
    split at granted
    · rename_i subset
      cases granted
      refine ⟨fun name member => ?_, rfl, not_not.mp matched⟩
      exact List.contains_iff_mem.mp (List.all_eq_true.mp subset name member)
    · cases granted

theorem onlyBlanks_of_nothing (nothing : parseScopes (some requested) = [])
    (granted : refreshedScope stored (some requested) = .ok scope) : onlyBlanks requested := by
  have written : requested ≠ [] := by
    rintro rfl
    cases nothing
  have lengths := (refreshedScope_granted granted).2.2
  rw [nothing, List.length_nil, List.length_eq_zero_iff, List.filter_eq_nil_iff] at lengths
  refine ⟨written, splitOn_all_nil.mp fun piece member => ?_⟩
  simpa using lengths piece member

theorem refreshedScope_narrows (granted : refreshedScope stored asked = .ok scope) :
    parseScopes scope ⊆ parseScopes stored ↔
      ∀ requested ∈ asked, onlyBlanks requested → DEFAULT_SCOPES ⊆ parseScopes stored := by
  cases asked with
  | none =>
    cases granted
    simp
  | some requested =>
    obtain ⟨subset, rfl, -⟩ := refreshedScope_granted granted
    by_cases nothing : parseScopes (some requested) = []
    · have blanks := onlyBlanks_of_nothing nothing granted
      rw [nothing, List.intercalate_nil]
      simp [blanks, parseScopes]
    · have same := parseScopes_intercalate nothing (parseScopes_available _)
      have worded : ¬ onlyBlanks requested := fun blanks => nothing (parseScopes_blanks blanks)
      simp [same, subset, worded]

end Refreshed

end Lobu.OAuth
