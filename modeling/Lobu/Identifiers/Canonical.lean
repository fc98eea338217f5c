import Lobu.Identifiers.Normalize

namespace Lobu.Identifiers

open Lobu.Foundation

/-! # One identity, one identifier -/

/-- `IDENTITY` of the connector SDK, the namespaces that have a normalizer of their own. -/
inductive StandardNamespace where
  | phone
  | email
  | waJid
  | slackUserId
  | githubLogin
  | githubUserId
  | githubRepoId
  | githubRepoFullName
  | googleContactId
  | authUserId

namespace StandardNamespace

def key : StandardNamespace → String
  | phone => "phone"
  | email => "email"
  | waJid => "wa_jid"
  | slackUserId => "slack_user_id"
  | githubLogin => "github_login"
  | githubUserId => "github_user_id"
  | githubRepoId => "github_repo_id"
  | githubRepoFullName => "github_repo_full_name"
  | googleContactId => "google_contact_id"
  | authUserId => "auth_user_id"

/-- What a connector reads: a Slack account is a team with a user, anything else one text. -/
abbrev Given : StandardNamespace → Type
  | slackUserId => Text × Text
  | phone | email | waJid | githubLogin | githubUserId | githubRepoId | githubRepoFullName
  | googleContactId | authUserId => Text

/-- What a connector writes that does not call the normalizer. -/
def written : (name : StandardNamespace) → Given name → Text
  | slackUserId, account => account.1 ++ ':' :: account.2
  | phone, raw => raw
  | email, raw => raw
  | waJid, raw => raw
  | githubLogin, raw => raw
  | githubUserId, raw => raw
  | githubRepoId, raw => raw
  | githubRepoFullName, raw => raw
  | googleContactId, raw => raw
  | authUserId, raw => raw

def ownNormalizer (letters : CaseProperties) : (name : StandardNamespace) → Given name → Option Text
  | slackUserId, account => normalizeSlackUserId (some account.1) (some account.2)
  | phone, raw => normalizePhone (some raw)
  | email, raw => normalizeEmail letters (some raw)
  | waJid, raw => normalizeWaJid letters (some raw)
  | githubLogin, raw => normalizeGithubLogin letters (some raw)
  | githubUserId, raw => normalizeNumericId (some raw)
  | githubRepoId, raw => normalizeNumericId (some raw)
  | githubRepoFullName, raw => normalizeGithubRepoFullName letters (some raw)
  | googleContactId, raw => normalizeGoogleContactId (some raw)
  | authUserId, raw => normalizeAuthUserId (some raw)

end StandardNamespace

variable {c : Char}

theorem isSpace_small (space : isSpace c = true) : c.toNat ≤ 32 ∨ 128 ≤ c.toNat := by
  simp only [isSpace, Bool.or_eq_true, decide_eq_true_eq, List.contains_eq_mem, List.mem_cons,
    List.not_mem_nil, or_false] at space
  omega

theorem not_space (visible : 32 < c.toNat ∧ c.toNat < 128) : isSpace c = false := by
  cases space : isSpace c with
  | false => rfl
  | true =>
    have := isSpace_small space
    omega

theorem eq_iff_toNat {c d : Char} : c = d ↔ c.toNat = d.toNat :=
  Char.toNat_inj.symm

theorem isAlphanum_visible (letter : c.isAlphanum = true) : 48 ≤ c.toNat ∧ c.toNat ≤ 122 ∧ c.toNat ≠ 58 := by
  change ((c.isUpper || c.isLower) || c.isDigit) = true at letter
  rw [Bool.or_eq_true, Bool.or_eq_true, isUpper_iff, isLower_iff, isDigit_iff] at letter
  omega

theorem isJidChar_visible (isChar : isJidChar c = true) : 32 < c.toNat ∧ c.toNat < 128 := by
  simp only [isJidChar, Bool.or_eq_true, beq_iff_eq] at isChar
  rcases isChar with ((letter | rfl) | rfl) | rfl
  · have := isAlphanum_visible letter
    omega
  all_goals decide

theorem isLowerAlphanum_visible (letter : isLowerAlphanum c = true) : 32 < c.toNat ∧ c.toNat < 128 := by
  rw [isLowerAlphanum, Bool.or_eq_true, isLower_iff, isDigit_iff] at letter
  omega

theorem isNameChar_visible (isChar : isNameChar c = true) : 32 < c.toNat ∧ c.toNat < 128 := by
  simp only [isNameChar, Bool.or_eq_true, beq_iff_eq] at isChar
  rcases isChar with ((letter | rfl) | rfl) | rfl
  · exact isLowerAlphanum_visible letter
  all_goals decide

theorem isSlackChar_upper (isChar : isSlackChar c = true) :
    32 < c.toUpper.toNat ∧ c.toUpper.toNat < 128 ∧ c.toUpper ≠ ':' := by
  rw [ne_eq, eq_iff_toNat, toNat_toUpper]
  simp only [isSlackChar, Bool.or_eq_true, beq_iff_eq] at isChar
  rcases isChar with (letter | rfl) | rfl
  · have := isAlphanum_visible letter
    have colon : ':'.toNat = 58 := rfl
    split <;> omega
  all_goals decide

section Outputs

variable {letters : CaseProperties} {raw out : Text}

theorem folded_kept (within : ∀ c ∈ out, IsLower c) (visible : ∀ c ∈ out, isSpace c = false) :
    folded letters out = out := by
  rw [folded, trim_of_no_blank visible]
  exact CaseProperties.toLowerCase_of_lower within

theorem folded_lower (member : c ∈ folded letters raw) : IsLower c :=
  CaseProperties.toLowerCase_lower member

theorem normalizePhone_again (normal : normalizePhone (some raw) = some out) :
    normalizePhone (some out) = some out := by
  simp only [normalizePhone] at normal ⊢
  split at normal
  · contradiction
  · rename_i fits
    obtain rfl := Option.some.inj normal
    rw [List.filter_filter]
    simp only [Bool.and_self]
    rw [if_neg fits]

theorem normalizeEmail_again (normal : normalizeEmail letters (some raw) = some out) :
    normalizeEmail letters (some out) = some out := by
  simp only [normalizeEmail] at normal
  split at normal
  · contradiction
  rename_i twoParts
  split at normal
  · contradiction
  rename_i oneAt
  split at normal
  · contradiction
  rename_i dotted
  split at normal
  · contradiction
  rename_i visible
  obtain rfl := Option.some.inj normal
  have kept : folded letters (folded letters raw) = folded letters raw := by
    refine folded_kept (fun c => folded_lower) fun c member => ?_
    simp only [List.any_eq_true, not_exists, not_and, Bool.not_eq_true] at visible
    exact visible c member
  simp only [normalizeEmail, kept]
  rw [if_neg twoParts, if_neg oneAt, if_neg dotted, if_neg visible]

theorem jidSuffix_visible {suffix : Text} (known : suffix.map Char.toLower ∈ jidSuffixes)
    (member : c ∈ suffix) : isSpace c = false := by
  have all : (jidSuffixes.all fun suffix => suffix.all fun c => !isSpace c) = true := by decide
  have lowered := List.all_eq_true.mp (List.all_eq_true.mp all _ known) c.toLower (List.mem_map_of_mem member)
  cases space : isSpace c with
  | false => rfl
  | true =>
    have small := isSpace_small space
    have same : c.toLower = c := by
      rw [eq_iff_toNat, toNat_toLower, if_neg (by omega)]
    rw [same, space] at lowered
    exact Bool.noConfusion lowered

theorem dropDevice_suffix (text : Text) : dropDevice text <:+ text := by
  unfold dropDevice
  split
  · split
    · exact ((List.dropWhile_suffix _).trans (List.suffix_cons _ _)).trans (List.suffix_cons _ _)
    · exact List.suffix_refl _
  · exact List.suffix_refl _

theorem normalizeWaJid_again (normal : normalizeWaJid letters (some raw) = some out) :
    normalizeWaJid letters (some out) = some out := by
  simp only [normalizeWaJid] at normal
  split at normal
  · rename_i suffix address
    split at normal
    · rename_i known
      obtain rfl := Option.some.inj normal
      let name := (folded letters raw).takeWhile isJidChar
      have isName : ∀ c ∈ name, isJidChar c = true := fun c member =>
        List.mem_takeWhile_imp member
      have within : ∀ c ∈ '@' :: suffix, c ∈ folded letters raw := by
        intro c member
        rw [← address] at member
        exact (List.dropWhile_suffix _).subset ((dropDevice_suffix _).subset member)
      have kept : folded letters (name ++ '@' :: suffix) = name ++ '@' :: suffix := by
        refine folded_kept (fun c member => ?_) fun c member => ?_
        · rcases List.mem_append.mp member with inName | behind
          · exact folded_lower ((List.takeWhile_prefix _).subset inName)
          · exact folded_lower (within c behind)
        · rcases List.mem_append.mp member with inName | behind
          · exact not_space (isJidChar_visible (isName c inName))
          · rcases List.mem_cons.mp behind with rfl | inSuffix
            · decide
            · exact jidSuffix_visible known.2 inSuffix
      have taken : (name ++ '@' :: suffix).takeWhile isJidChar = name := by
        rw [List.takeWhile_append_of_pos isName, List.takeWhile_cons_of_neg (by decide), List.append_nil]
      have left : (name ++ '@' :: suffix).dropWhile isJidChar = '@' :: suffix := by
        rw [List.dropWhile_append_of_pos isName, List.dropWhile_cons_of_neg (by decide)]
      show normalizeWaJid letters (some (name ++ '@' :: suffix)) = some (name ++ '@' :: suffix)
      simp only [normalizeWaJid, kept, taken, left]
      rw [dropDevice]
      · exact if_pos known
      · exact fun digit rest same => absurd (List.cons.inj same).1 (by decide)
    · contradiction
  · contradiction

theorem hyphensInside_visible {text : Text} (inside : hyphensInside text = true)
    (member : c ∈ text) : isSpace c = false := by
  induction text with
  | nil => cases member
  | cons first rest ih =>
    rw [hyphensInside, Bool.and_eq_true, Bool.or_eq_true, Bool.and_eq_true, beq_iff_eq] at inside
    rcases List.mem_cons.mp member with rfl | later
    · rcases inside.1 with letter | ⟨rfl, -⟩
      · exact not_space (isLowerAlphanum_visible letter)
      · decide
    · exact ih inside.2 later

theorem isGithubLogin_visible {text : Text} (login : isGithubLogin text = true)
    (member : c ∈ text) : isSpace c = false := by
  cases text with
  | nil => cases member
  | cons first rest =>
    rw [isGithubLogin, Bool.and_eq_true, Bool.and_eq_true] at login
    rcases List.mem_cons.mp member with rfl | later
    · exact not_space (isLowerAlphanum_visible login.1.1)
    · exact hyphensInside_visible login.2 later

theorem normalizeGithubLogin_again (normal : normalizeGithubLogin letters (some raw) = some out) :
    normalizeGithubLogin letters (some out) = some out := by
  simp only [normalizeGithubLogin] at normal
  split at normal
  · rename_i login
    obtain rfl := Option.some.inj normal
    have kept : folded letters (folded letters raw) = folded letters raw :=
      folded_kept (fun c => folded_lower) fun c => isGithubLogin_visible login
    simp only [normalizeGithubLogin, kept]
    exact if_pos login
  · contradiction

theorem stripZeros_of_head {first : Char} (rest : Text) (counts : (first == '0') = false) :
    stripZeros (first :: rest) = first :: rest := by
  have kept : (first :: rest).dropWhile (· == '0') = first :: rest :=
    List.dropWhile_cons_of_neg (by rw [counts]; exact Bool.false_ne_true)
  rw [stripZeros, kept]

theorem stripZeros_again (digits : Text) : stripZeros (stripZeros digits) = stripZeros digits := by
  cases rest : digits.dropWhile (· == '0') with
  | nil =>
    have zero : stripZeros digits = ['0'] := by rw [stripZeros, rest]
    rw [zero]
    decide
  | cons first others =>
    have stripped : stripZeros digits = first :: others := by rw [stripZeros, rest]
    rw [stripped]
    have head := List.head?_dropWhile_not (· == '0') digits
    rw [rest] at head
    exact stripZeros_of_head others head

theorem stripZeros_digits {digits : Text} (all : digits.all Char.isDigit = true) :
    stripZeros digits ≠ [] ∧ (stripZeros digits).all Char.isDigit = true := by
  unfold stripZeros
  split
  · decide
  · rename_i rest notNil
    refine ⟨notNil, List.all_eq_true.mpr fun c member => ?_⟩
    exact List.all_eq_true.mp all c ((List.dropWhile_suffix _).subset member)

theorem normalizeNumericId_again (normal : normalizeNumericId (some raw) = some out) :
    normalizeNumericId (some out) = some out := by
  simp only [normalizeNumericId] at normal
  split at normal
  · rename_i isNumber
    obtain rfl := Option.some.inj normal
    obtain ⟨filled, digits⟩ := stripZeros_digits isNumber.2
    have kept : trim (stripZeros (trim raw)) = stripZeros (trim raw) := by
      refine trim_of_no_blank fun c member => not_space ?_
      have := (isDigit_iff c).mp (List.all_eq_true.mp digits c member)
      omega
    simp only [normalizeNumericId, kept]
    rw [if_pos ⟨filled, digits⟩, stripZeros_again]
  · contradiction

theorem normalizeGithubRepoFullName_again (normal : normalizeGithubRepoFullName letters (some raw) = some out) :
    normalizeGithubRepoFullName letters (some out) = some out := by
  simp only [normalizeGithubRepoFullName] at normal
  split at normal
  · rename_i owner repo parts
    split at normal
    · rename_i names
      obtain rfl := Option.some.inj normal
      have whole : ['/'].intercalate ((folded letters raw).splitOn '/') = folded letters raw :=
        List.intercalate_splitOn '/'
      rw [parts, List.intercalate_cons_cons, List.intercalate_singleton, List.append_assoc,
        List.singleton_append] at whole
      have kept : folded letters (folded letters raw) = folded letters raw := by
        refine folded_kept (fun c => folded_lower) fun c member => ?_
        simp only [githubName, Bool.and_eq_true] at names
        rw [← whole] at member
        rcases List.mem_append.mp member with inOwner | behind
        · exact not_space (isNameChar_visible (List.all_eq_true.mp names.1.1.2 c inOwner))
        · rcases List.mem_cons.mp behind with rfl | inRepo
          · decide
          · exact not_space (isNameChar_visible (List.all_eq_true.mp names.2.1.2 c inRepo))
      rw [whole]
      simp only [normalizeGithubRepoFullName, kept, parts]
      rw [if_pos names, whole]
    · contradiction
  · contradiction

theorem normalizeGoogleContactId_again (normal : normalizeGoogleContactId (some raw) = some out) :
    normalizeGoogleContactId (some out) = some out := by
  simp only [normalizeGoogleContactId] at normal
  split at normal
  · contradiction
  · rename_i something
    obtain rfl := Option.some.inj normal
    simp only [normalizeGoogleContactId, trim_trim]
    exact if_neg something

end Outputs

def IsSlackId (text : Text) : Prop := trim text ≠ [] ∧ (trim text).all isSlackChar = true

instance (text : Text) : Decidable (IsSlackId text) := inferInstanceAs (Decidable (_ ∧ _))

def upperId (text : Text) : Text := (trim text).map Char.toUpper

theorem normalizeSlackUserId_iff {team user out : Text} :
    normalizeSlackUserId (some team) (some user) = some out ↔
      (IsSlackId team ∧ IsSlackId user) ∧ upperId team ++ ':' :: upperId user = out := by
  have joined : (trim team ++ ':' :: trim user).map Char.toUpper = upperId team ++ ':' :: upperId user := by
    rw [List.map_append, List.map_cons]
    rfl
  simp only [normalizeSlackUserId, joined, IsSlackId]
  constructor
  · intro normal
    split at normal
    · contradiction
    · rename_i filled
      split at normal
      · rename_i plain
        rw [Bool.and_eq_true] at plain
        rw [not_or] at filled
        exact ⟨⟨⟨filled.1, plain.1⟩, filled.2, plain.2⟩, Option.some.inj normal⟩
      · contradiction
  · intro ⟨⟨teamId, userId⟩, same⟩
    rw [if_neg (not_or.mpr ⟨teamId.1, userId.1⟩), if_pos (by rw [teamId.2, userId.2]; rfl), same]

theorem upperId_visible {text : Text} (isId : IsSlackId text) (member : c ∈ upperId text) :
    isSpace c = false ∧ c ≠ ':' := by
  obtain ⟨d, inText, rfl⟩ := List.mem_map.mp member
  obtain ⟨after, before, plain⟩ := isSlackChar_upper (List.all_eq_true.mp isId.2 d inText)
  exact ⟨not_space ⟨after, before⟩, plain⟩

/-- Two pairs that are one account of Slack: the ids are the same but for case and blanks. -/
def SameSlackAccount (first second : Text × Text) : Prop :=
  (IsSlackId first.1 ∧ IsSlackId first.2) ∧ (IsSlackId second.1 ∧ IsSlackId second.2) ∧
    upperId first.1 = upperId second.1 ∧ upperId first.2 = upperId second.2

theorem sameSlackAccount_iff {first second : Text × Text} :
    SameSlackAccount first second ↔ ∃ out, normalizeSlackUserId (some first.1) (some first.2) = some out ∧
        normalizeSlackUserId (some second.1) (some second.2) = some out := by
  simp only [normalizeSlackUserId_iff]
  constructor
  · intro ⟨isFirst, isSecond, team, user⟩
    exact ⟨_, ⟨isFirst, rfl⟩, isSecond, by rw [team, user]⟩
  · intro ⟨out, ⟨isFirst, written⟩, isSecond, same⟩
    have noColon : ∀ {text : Text}, IsSlackId text → ':' ∉ upperId text := fun isId member =>
      (upperId_visible isId member).2 rfl
    obtain ⟨team, user⟩ := last_separator_injective (noColon isFirst.2) (noColon isSecond.2) (written.trans same.symm)
    exact ⟨isFirst, isSecond, team, user⟩

/-- In the namespaces with a case of their own nothing is asked; one account of Slack has to be
written in one way, blanks at the ends apart. -/
def WrittenAlike : (name : StandardNamespace) → name.Given → name.Given → Prop
  | .slackUserId, first, second => SameSlackAccount first second →
      trim (StandardNamespace.written .slackUserId first) =
        trim (StandardNamespace.written .slackUserId second)
  | .phone, _, _ => True
  | .email, _, _ => True
  | .waJid, _, _ => True
  | .githubLogin, _, _ => True
  | .githubUserId, _, _ => True
  | .githubRepoId, _, _ => True
  | .githubRepoFullName, _, _ => True
  | .googleContactId, _, _ => True
  | .authUserId, _, _ => True

section Canonical

variable {letters : CaseProperties}

/-- The law of `normalizeIdentifier` for a raw value and for what connectors may read. -/
structure CanonicalAt (letters : CaseProperties) (name : StandardNamespace) (raw : Text)
    (given first second : name.Given) : Prop where
  again : ∀ out, normalizeIdentifier letters name.key (some raw) = some out →
    normalizeIdentifier letters name.key (some out) = some out
  kept : ∀ out, name.ownNormalizer letters given = some out →
    normalizeIdentifier letters name.key (some out) = some out
  together : ∀ out, name.ownNormalizer letters first = some out →
    name.ownNormalizer letters second = some out →
      normalizeIdentifier letters name.key (some (name.written first)) =
        normalizeIdentifier letters name.key (some (name.written second))

theorem canonicalAt_of_case {name : StandardNamespace} {raw : Text} {given first second : name.Given}
    (dispatched : ∀ given : name.Given,
      normalizeIdentifier letters name.key (some (name.written given)) = name.ownNormalizer letters given)
    (again : ∀ {raw out}, normalizeIdentifier letters name.key (some raw) = some out →
      normalizeIdentifier letters name.key (some out) = some out) :
    CanonicalAt letters name raw given first second where
  again _ normal := again normal
  kept out normal := by
    rw [← dispatched] at normal
    exact again normal
  together out isFirst isSecond := by
    rw [dispatched, dispatched, isFirst, isSecond]

theorem canonicalAt_slack_iff {raw : Text} {given first second : Text × Text} :
    CanonicalAt letters .slackUserId raw given first second ↔ (SameSlackAccount first second →
        trim (first.1 ++ ':' :: first.2) = trim (second.1 ++ ':' :: second.2)) := by
  have trimmed : ∀ account : Text × Text,
      normalizeIdentifier letters "slack_user_id" (some (account.1 ++ ':' :: account.2)) =
        some (trim (account.1 ++ ':' :: account.2)) := by
    intro account
    have filled : trim (account.1 ++ ':' :: account.2) ≠ [] := by
      refine trimEnd_ne_nil fun blank => ?_
      have space := List.dropWhile_eq_nil_iff.mp blank ':' (by simp)
      exact absurd space (by decide)
    exact if_neg filled
  constructor
  · intro canonical same
    obtain ⟨out, isFirst, isSecond⟩ := sameSlackAccount_iff.mp same
    have together := canonical.together out isFirst isSecond
    exact Option.some.inj ((trimmed first).symm.trans (together.trans (trimmed second)))
  · intro alike
    refine ⟨fun out normal => normalizeGoogleContactId_again normal, fun out normal => ?_,
      fun out isFirst isSecond => ?_⟩
    · obtain ⟨isId, rfl⟩ := normalizeSlackUserId_iff.mp normal
      have plain : trim (upperId given.1 ++ ':' :: upperId given.2) = upperId given.1 ++ ':' :: upperId given.2 := by
        refine trim_of_no_blank fun c member => ?_
        rcases List.mem_append.mp member with inTeam | behind
        · exact (upperId_visible isId.1 inTeam).1
        · rcases List.mem_cons.mp behind with rfl | inUser
          · decide
          · exact (upperId_visible isId.2 inUser).1
      have kept := trimmed (upperId given.1, upperId given.2)
      rw [plain] at kept
      exact kept
    · have same := sameSlackAccount_iff.mpr ⟨out, isFirst, isSecond⟩
      exact (trimmed first).trans ((congrArg some (alike same)).trans (trimmed second).symm)

end Canonical

theorem canonicalAt_iff (letters : CaseProperties) (name : StandardNamespace) (raw : Text)
    (given first second : name.Given) :
    CanonicalAt letters name raw given first second ↔ WrittenAlike name first second := by
  cases name with
  | slackUserId => exact canonicalAt_slack_iff
  | phone => exact iff_of_true (canonicalAt_of_case (fun _ => rfl) normalizePhone_again) trivial
  | email => exact iff_of_true (canonicalAt_of_case (fun _ => rfl) normalizeEmail_again) trivial
  | waJid => exact iff_of_true (canonicalAt_of_case (fun _ => rfl) normalizeWaJid_again) trivial
  | githubLogin =>
    exact iff_of_true (canonicalAt_of_case (fun _ => rfl) normalizeGithubLogin_again) trivial
  | githubUserId =>
    exact iff_of_true (canonicalAt_of_case (fun _ => rfl) normalizeNumericId_again) trivial
  | githubRepoId =>
    exact iff_of_true (canonicalAt_of_case (fun _ => rfl) normalizeNumericId_again) trivial
  | githubRepoFullName =>
    exact iff_of_true (canonicalAt_of_case (fun _ => rfl) normalizeGithubRepoFullName_again) trivial
  | googleContactId =>
    exact iff_of_true (canonicalAt_of_case (fun _ => rfl) normalizeGoogleContactId_again) trivial
  | authUserId =>
    exact iff_of_true (canonicalAt_of_case (fun _ => rfl) normalizeGoogleContactId_again) trivial

/-- A connector that skips the normalizer splits the account in two. -/
theorem slack_account_split :
    ¬ ∀ (letters : CaseProperties) (name : StandardNamespace) (raw : Text)
      (given first second : name.Given), CanonicalAt letters name raw given first second := by
  intro law
  let lower : Text × Text := (['t', '1'], ['u', '1'])
  let upper : Text × Text := (['T', '1'], ['U', '1'])
  have together := (law ⟨Char.isAlpha, fun c => c == '.'⟩ .slackUserId [] lower lower upper).together
    ['T', '1', ':', 'U', '1'] (by decide) (by decide)
  exact absurd together (by decide)

end Lobu.Identifiers
