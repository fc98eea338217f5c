import Lobu.Foundation.CaseMapping
import Lobu.Foundation.Text

namespace Lobu.Identifiers

open Lobu.Foundation

/-! # Canonical identity values

`identity-normalize.ts`: what a connector calls before it emits an identifier, and what the
ingestion runs again.  A `null` or `undefined` value is none.
-/

abbrev Text := List Char

def PHONE_MIN_DIGITS : Nat := 7

def PHONE_MAX_DIGITS : Nat := 15

/-- Only the digits of ASCII are digits to the expression. -/
def normalizePhone (raw : Option Text) : Option Text :=
  match raw with
  | none => none
  | some raw =>
    let digits := raw.filter Char.isDigit
    if digits.length < PHONE_MIN_DIGITS ∨ PHONE_MAX_DIGITS < digits.length then none else some digits

/-- The value after `trim().toLowerCase()`. -/
def folded (letters : CaseProperties) (raw : Text) : Text :=
  letters.toLowerCase (trim raw)

def normalizeEmail (letters : CaseProperties) (raw : Option Text) : Option Text :=
  match raw with
  | none => none
  | some raw =>
    let trimmed := folded letters raw
    let mailbox := trimmed.takeWhile (· != '@')
    let domain := (trimmed.dropWhile (· != '@')).tail
    if mailbox = [] ∨ domain = [] then none
    else if domain.contains '@' then none
    else if domain.contains '.' = false then none
    else if trimmed.any isSpace then none
    else some trimmed

/-- `[a-z0-9._-]`, in either case. -/
def isJidChar (c : Char) : Bool :=
  c.isAlphanum || c == '.' || c == '_' || c == '-'

def jidSuffixes : List Text :=
  ["s.whatsapp.net", "lid", "g.us", "broadcast", "newsletter"].map String.toList

/-- `(?::\d+)?`: without a digit behind the colon the group takes nothing. -/
def dropDevice (text : Text) : Text :=
  match text with
  | ':' :: digit :: rest => if digit.isDigit then rest.dropWhile Char.isDigit else text
  | _ => text

def normalizeWaJid (letters : CaseProperties) (raw : Option Text) : Option Text :=
  match raw with
  | none => none
  | some raw =>
    let trimmed := folded letters raw
    let name := trimmed.takeWhile isJidChar
    match dropDevice (trimmed.dropWhile isJidChar) with
    | '@' :: suffix =>
      if name ≠ [] ∧ suffix.map Char.toLower ∈ jidSuffixes then some (name ++ '@' :: suffix) else none
    | _ => none

/-- `[a-z0-9_-]`, in either case. -/
def isSlackChar (c : Char) : Bool :=
  c.isAlphanum || c == '_' || c == '-'

/-- The ids that get as far as `toUpperCase` are ASCII. -/
def normalizeSlackUserId (teamId userId : Option Text) : Option Text :=
  match teamId, userId with
  | some teamId, some userId =>
    let t := trim teamId
    let u := trim userId
    if t = [] ∨ u = [] then none
    else if t.all isSlackChar && u.all isSlackChar then some ((t ++ ':' :: u).map Char.toUpper)
    else none
  | _, _ => none

/-- `[a-z0-9]`. -/
def isLowerAlphanum (c : Char) : Bool :=
  c.isLower || c.isDigit

/-- `(?:[a-z0-9]|-(?=[a-z0-9]))*`, with nothing left. -/
def hyphensInside : Text → Bool
  | [] => true
  | c :: rest =>
    (isLowerAlphanum c || (c == '-' && rest.head?.any isLowerAlphanum)) && hyphensInside rest

def isGithubLogin : Text → Bool
  | [] => false
  | first :: rest => isLowerAlphanum first && decide (rest.length ≤ 38) && hyphensInside rest

def normalizeGithubLogin (letters : CaseProperties) (raw : Option Text) : Option Text :=
  match raw with
  | none => none
  | some raw =>
    let trimmed := folded letters raw
    if isGithubLogin trimmed then some trimmed else none

/-- `replace(/^0+(?=\d)/, '')` on a text of digits: the last digit stays. -/
def stripZeros (digits : Text) : Text :=
  match digits.dropWhile (· == '0') with
  | [] => ['0']
  | rest => rest

def normalizeNumericId (raw : Option Text) : Option Text :=
  match raw with
  | none => none
  | some raw =>
    let trimmed := trim raw
    if trimmed ≠ [] ∧ trimmed.all Char.isDigit then some (stripZeros trimmed) else none

/-- `[a-z0-9._-]`. -/
def isNameChar (c : Char) : Bool :=
  isLowerAlphanum c || c == '.' || c == '_' || c == '-'

/-- `/^[a-z0-9](?:[a-z0-9._-]{0,98}[a-z0-9])?$/` -/
def githubName (text : Text) : Bool :=
  text.head?.any isLowerAlphanum && text.getLast?.any isLowerAlphanum &&
    text.all isNameChar && decide (text.length ≤ 100)

def normalizeGithubRepoFullName (letters : CaseProperties) (raw : Option Text) : Option Text :=
  match raw with
  | none => none
  | some raw =>
    match (folded letters raw).splitOn '/' with
    | [owner, repo] =>
      if githubName owner && githubName repo then some (owner ++ '/' :: repo) else none
    | _ => none

def normalizeGoogleContactId (raw : Option Text) : Option Text :=
  match raw with
  | none => none
  | some raw => if trim raw = [] then none else some (trim raw)

def normalizeAuthUserId (raw : Option Text) : Option Text :=
  match raw with
  | none => none
  | some raw => if trim raw = [] then none else some (trim raw)

/-- Any other namespace, `slack_user_id` with it, gets its values trimmed only. -/
def normalizeIdentifier (letters : CaseProperties) (namespaceKey : String) (raw : Option Text) : Option Text :=
  match namespaceKey with
  | "phone" => normalizePhone raw
  | "email" => normalizeEmail letters raw
  | "wa_jid" => normalizeWaJid letters raw
  | "github_login" => normalizeGithubLogin letters raw
  | "github_user_id" => normalizeNumericId raw
  | "github_repo_id" => normalizeNumericId raw
  | "github_repo_full_name" => normalizeGithubRepoFullName letters raw
  | "google_contact_id" => normalizeGoogleContactId raw
  | "auth_user_id" => normalizeAuthUserId raw
  | _ =>
    match raw with
    | none => none
    | some raw => if trim raw = [] then none else some (trim raw)

end Lobu.Identifiers
