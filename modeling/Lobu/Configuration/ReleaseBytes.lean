import Lobu.Configuration.ReleaseParsing

namespace Lobu.Configuration

open Lobu.Foundation Lobu.Foundation.Json

/-! # What the parser keeps

A parser that builds a part anew gives it the canonical form of what was sent: it takes
every key it allows, and what it leaves out under a condition is not there.
-/

section Checks

variable {condition : Bool} {error : ReleaseError} {check : Except ReleaseError Unit}
variable {fields : Members} {keys : List String}

variable {passed : Unit}

@[simp] theorem ensure_ok : ensure condition error = .ok passed ↔ condition = true := by
  cases condition <;> simp [ensure]

@[simp] theorem onlyIf_ok : onlyIf condition check = .ok passed ↔ (condition = true → check = .ok passed) := by
  cases condition <;> simp [onlyIf]

theorem ensureAll_ok {holds : String → Bool} {errors : String → ReleaseError} :
    ensureAll keys holds errors = .ok passed ↔ ∀ key ∈ keys, holds key = true := by
  simp only [ensureAll]
  cases found : keys.find? fun key => !holds key with
  | none =>
    simp only [true_iff]
    simpa using List.find?_eq_none.mp found
  | some key =>
    simp only [reduceCtorEq, false_iff]
    intro all
    have fails := List.find?_some found
    simp [all key (List.mem_of_find?_eq_some found)] at fails

@[simp] theorem recordOr_ok {value : Option Json} :
    recordOr error value = .ok fields ↔ value = some (.object fields) := by
  cases value with
  | none => simp [recordOr]
  | some value => cases value <;> simp [recordOr]

theorem assertExactKeys_ok {label : String} :
    assertExactKeys fields keys label = .ok passed ↔ ∀ field ∈ fields, field.1 ∈ keys := by
  simp only [assertExactKeys, ensureAll_ok, List.contains_iff_mem, List.forall_mem_map]

theorem assertManagedNestedKeys_ok {label : String} :
    assertManagedNestedKeys label fields keys = .ok passed ↔ ∀ field ∈ fields, field.1 ∈ keys := by
  simp only [assertManagedNestedKeys, ensureAll_ok, List.contains_iff_mem, List.forall_mem_map]

end Checks

/-- Whatever a parser accepts comes back with the canonical form of what was sent. -/
def Keeps (parse : Option Json → Except ReleaseError Json) : Prop :=
  ∀ value result, (∀ given ∈ value, given.namesOnce = true) → parse value = .ok result →
    Alike (some result) value

section Parts

variable {fields : Members} {key : String}

theorem namesOnce_lookup (once : (Json.object fields).namesOnce = true) :
    ∀ given ∈ fields.lookup key, given.namesOnce = true :=
  fun _ found => lookup_of_namesOnce once found

theorem parseOwn_keeps {parse : Option Json → Except ReleaseError Json} {member : Option Json}
    (keeps : Keeps parse) (once : (Json.object fields).namesOnce = true)
    (parsed : parseOwn fields key parse = .ok member) : Alike member (fields.lookup key) := by
  simp only [parseOwn] at parsed
  cases there : fields.lookup key with
  | none =>
    rw [there] at parsed
    cases parsed
    exact .refl none
  | some value =>
    rw [there] at parsed
    cases result : parse (some value) with
    | error error => simp [result] at parsed
    | ok built =>
      simp only [result, Except.ok.injEq, Functor.map, Except.map] at parsed
      cases parsed
      refine keeps _ _ ?_ result
      intro given isValue
      cases isValue
      exact lookup_of_namesOnce once there

theorem isOneOf_single {text : String} {value : Option Json} (one : isOneOf [text] value = true) :
    value = some (.string text) := by
  cases value with
  | none => cases one
  | some value =>
    cases value with
    | string written => simpa [isOneOf, isTextWhere] using one
    | _ => cases one

theorem parseSigningMetadata_keeps (label : String) : Keeps fun value => parseSigningMetadata value label := by
  intro value result once parsed
  simp only [parseSigningMetadata, Transaction.except_bind_ok, recordOr_ok, assertExactKeys_ok, ensure_ok] at parsed
  obtain ⟨fields, rfl, _, only, _, algorithm, _, keyId, _, signature, ended⟩ := parsed
  cases ended
  rw [alike_some]
  have distinct := (namesOnce_object.mp (once _ rfl)).1
  refine canonicalize_ofMembers ["algorithm", "keyId", "signature"] distinct rfl (by decide) only ?_
  simp only [List.forall_mem_cons, isOneOf_single algorithm]
  simp

theorem parseSignedRollout_keeps : Keeps parseSignedRollout := by
  intro value result once parsed
  simp only [parseSignedRollout, requireRecord, Transaction.except_bind_ok, recordOr_ok] at parsed
  obtain ⟨rollout, rfl, _, _, _, _, ended⟩ := parsed
  cases ended
  exact .refl _

theorem isOneOf_pair {first second : String} {value : Option Json}
    (one : isOneOf [first, second] value = true) (other : value ≠ some (.string first)) :
    value = some (.string second) := by
  cases value with
  | none => cases one
  | some value =>
    cases value with
    | string written =>
      simp only [isOneOf, isTextWhere, List.contains_iff_mem, List.mem_cons, List.not_mem_nil, or_false] at one
      rcases one with same | same
      · exact absurd (same ▸ rfl) other
      · rw [same]
    | _ => cases one

theorem hasOwn_false (missing : hasOwn fields key = false) : fields.lookup key = none := by
  simpa [hasOwn] using missing

theorem parseModelSelection_keeps : Keeps parseModelSelection := by
  intro value result once parsed
  simp only [parseModelSelection, Transaction.except_bind_ok, recordOr_ok,
    assertManagedNestedKeys_ok, ensure_ok] at parsed
  obtain ⟨fields, rfl, _, only, _, mode, rest⟩ := parsed
  have distinct := (namesOnce_object.mp (once _ rfl)).1
  rw [alike_some]
  split at rest
  · rename_i auto
    simp only [Transaction.except_bind_ok, ensure_ok, Bool.not_eq_true'] at rest
    obtain ⟨_, unpinned, ended⟩ := rest
    cases ended
    have missing := hasOwn_false unpinned
    have same : ofMembers [("mode", some (.string "auto"))] =
        ofMembers [("mode", some (.string "auto")), ("pinnedModel", fields.lookup "pinnedModel")] := by
      rw [missing]
      rfl
    rw [same]
    refine canonicalize_ofMembers ["mode", "pinnedModel"] distinct rfl (by decide) only ?_
    simp only [List.forall_mem_cons, auto]
    simp
  · rename_i other
    simp only [Transaction.except_bind_ok, ensure_ok] at rest
    obtain ⟨_, pinned, ended⟩ := rest
    cases ended
    refine canonicalize_ofMembers ["mode", "pinnedModel"] distinct rfl (by decide) only ?_
    simp only [List.forall_mem_cons, isOneOf_pair mode other]
    simp

theorem parseToolsConfig_keeps : Keeps parseToolsConfig := by
  intro value result once parsed
  simp only [parseToolsConfig, Transaction.except_bind_ok, recordOr_ok, assertManagedNestedKeys_ok] at parsed
  obtain ⟨fields, rfl, _, only, _, _, _, _, _, _, ended⟩ := parsed
  cases ended
  have distinct := (namesOnce_object.mp (once _ rfl)).1
  rw [alike_some]
  refine canonicalize_ofMembers ["allowedTools", "deniedTools", "strictMode", "mcpExposure"]
    distinct rfl (by decide) only ?_
  simp

theorem parseManagedSettings_keeps : Keeps parseManagedSettings := by
  intro value result once parsed
  simp only [parseManagedSettings, Transaction.except_bind_ok, recordOr_ok, ensureAll_ok,
    List.contains_iff_mem, List.forall_mem_map] at parsed
  obtain ⟨fields, rfl, _, only, _, _, modelSelection, selected, toolsConfig, tooled, ended⟩ := parsed
  cases ended
  have own := once _ rfl
  rw [alike_some]
  refine canonicalize_ofMembers ["identityMd", "soulMd", "userMd", "modelSelection", "toolsConfig"]
    (namesOnce_object.mp own).1 rfl (by decide) only ?_
  simp only [List.forall_mem_cons]
  simp [parseOwn_keeps parseModelSelection_keeps own selected, parseOwn_keeps parseToolsConfig_keeps own tooled]

theorem parseAssignment_keeps : Keeps parseAssignment := by
  intro value result once parsed
  simp only [parseAssignment, parseEnvironment, Transaction.except_bind_ok, recordOr_ok, assertExactKeys_ok] at parsed
  obtain ⟨fields, rfl, _, only, environment, ⟨_, _, unchanged⟩, _, _, ended⟩ := parsed
  cases unchanged
  cases ended
  rw [alike_some]
  refine canonicalize_ofMembers ["environment", "targetId", "toolboxUserId", "agentId"]
    (namesOnce_object.mp (once _ rfl)).1 rfl (by decide) only ?_
  simp

end Parts

section Conditional

variable {fields : Members} {key : String} {condition : Bool} {member source : Option Json}

theorem alike_memberIf (alike : Alike member source)
    (missing : condition = false → source = none) : Alike (memberIf condition member) source := by
  cases condition with
  | true => exact alike
  | false =>
    rw [missing rfl]
    exact .refl none

theorem alike_hasOwn : Alike (memberIf (hasOwn fields key) (fields.lookup key)) (fields.lookup key) :=
  alike_memberIf (.refl _) hasOwn_false

theorem parseTogether_ok {keys : List String} {error : ReleaseError} {together : Bool}
    (parsed : parseTogether fields keys error = .ok together) :
    ∀ key ∈ keys, together = false → fields.lookup key = none := by
  simp only [parseTogether, Transaction.except_bind_ok, ensure_ok] at parsed
  obtain ⟨_, _, ended⟩ := parsed
  cases ended
  intro key member absent
  have none : keys.filter (hasOwn fields) = [] := by simpa using absent
  have missing := List.filter_eq_nil_iff.mp none key member
  exact hasOwn_false (by simpa using missing)

end Conditional

section Command

variable (runtime : Runtime)

theorem parseControlPlanePolicy_keeps : Keeps (parseControlPlanePolicy runtime) := by
  intro value result once parsed
  simp only [parseControlPlanePolicy, requireRecord, Transaction.except_bind_ok, recordOr_ok] at parsed
  obtain ⟨policy, rfl, _, _, ended⟩ := parsed
  cases ended
  exact .refl _

theorem parseBaselineOverride_keeps : Keeps (parseBaselineOverride runtime) := by
  intro value result once parsed
  simp only [parseBaselineOverride, requireRecord, Transaction.except_bind_ok, recordOr_ok] at parsed
  obtain ⟨given, rfl, _, _, _, _, ended⟩ := parsed
  cases ended
  exact .refl _

def manifestNames : List String :=
  ["releaseId", "releaseSequence", "environment", "releaseKind", "createdAt", "managedSettings",
    "controlPlanePolicy", "rollbackToSequence", "rollbackTo", "signing"]

theorem alike_parsed {parse : Option Json → Except ReleaseError Json} {fields : Members}
    {key : String} {part : Json} (keeps : Keeps parse)
    (once : (Json.object fields).namesOnce = true) (parsed : parse (fields.lookup key) = .ok part) :
    Alike (some part) (fields.lookup key) :=
  keeps _ _ (namesOnce_lookup once) parsed

theorem parseManifest_keeps : Keeps (parseManifest runtime) := by
  intro value result once parsed
  simp only [parseManifest, parseEnvironment, Transaction.except_bind_ok, recordOr_ok, assertExactKeys_ok] at parsed
  obtain ⟨fields, rfl, _, only, _, _, _, _, environment, ⟨_, _, unchanged⟩, _, _, _, _,
    managedSettings, managed, controlPlanePolicy, policy, _, _, _, _, _, _, signing, signed,
    ended⟩ := parsed
  cases unchanged
  cases ended
  have own := once _ rfl
  rw [alike_some]
  refine canonicalize_ofMembers manifestNames (namesOnce_object.mp own).1 rfl (by decide) only ?_
  simp only [List.forall_mem_cons]
  have policyKept := parseOwn_keeps (parseControlPlanePolicy_keeps runtime) own policy
  have managedKept := alike_parsed parseManagedSettings_keeps own managed
  have signingKept := alike_parsed (parseSigningMetadata_keeps "manifest") own signed
  simp [policyKept, managedKept, signingKept, alike_hasOwn]

def publicationNames : List String :=
  ["releaseId", "releaseSequence", "manifestDigest", "manifest", "publicationKind"] ++
    rollbackFields

theorem checkOrdinaryFields_ok {fields : Members} {passed : Unit}
    (checked : checkOrdinaryFields fields = .ok passed) : ∀ key ∈ rollbackFields, fields.lookup key = none := by
  simp only [checkOrdinaryFields, Transaction.except_bind_ok, ensure_ok, Bool.not_eq_true'] at checked
  obtain ⟨_, absent, _⟩ := checked
  intro key member
  have missing := List.any_eq_false.mp absent key member
  exact hasOwn_false (Bool.not_eq_true _ ▸ missing)

theorem parsePublication_keeps {value result : Json} (once : value.namesOnce = true)
    (parsed : parsePublication runtime value = .ok result) : result.canonicalize = value.canonicalize := by
  simp only [parsePublication, Transaction.except_bind_ok, recordOr_ok, assertExactKeys_ok,
    onlyIf_ok, Option.some.injEq] at parsed
  obtain ⟨fields, rfl, _, only, _, _, _, _, _, _, _, _, _, ordinary, _, _, manifest, manifested, ended⟩ := parsed
  cases ended
  refine canonicalize_ofMembers publicationNames (namesOnce_object.mp once).1 rfl (by decide)
    (fun field member => ?_) ?_
  · have allowed := only field member
    simpa [publicationNames, rollbackFields] using allowed
  · have manifestKept := alike_parsed (parseManifest_keeps runtime) once manifested
    rw [List.forall_mem_append]
    constructor
    · simp [manifestKept]
    · rw [List.forall_mem_map]
      intro key member
      refine alike_memberIf (.refl _) fun other => ?_
      exact checkOrdinaryFields_ok (ordinary (by simpa using other)) key member

theorem parsePublications_keeps {items results : List Json} (once : ∀ item ∈ items, item.namesOnce = true)
    (parsed : parsePublications runtime items = .ok results) : results.map canonicalize = items.map canonicalize := by
  induction items generalizing results with
  | nil =>
    simp only [parsePublications, List.mapM_nil] at parsed
    cases parsed
    rfl
  | cons item items ih =>
    simp only [parsePublications, List.mapM_cons, Transaction.except_bind_ok] at parsed ih
    obtain ⟨result, first, rest, others, ended⟩ := parsed
    cases ended
    rw [List.forall_mem_cons] at once
    rw [List.map_cons, List.map_cons, parsePublication_keeps runtime once.1 first, ih once.2 others]

def feedNames : List String :=
  ["feedVersion", "feedSequence", "environment", "channel", "generatedAt", "publications",
    "activationMode", "rollout", "feedSigning"]

theorem isIntegerWithin_single {value : Option Json} (one : isIntegerWithin 1 1 value = true) :
    value = some (.number (.finite 1)) := by
  simp only [isIntegerWithin, Option.any_eq_true, decide_eq_true_eq] at one
  obtain ⟨number, read, lower, upper⟩ := one
  cases value with
  | none => cases read
  | some value =>
    cases value with
    | number given =>
      cases given with
      | infinite negative => cases read
      | finite given =>
        simp only [safeInteger?, Option.ite_none_right_eq_some, Option.some.injEq] at read
        obtain ⟨⟨whole, _⟩, same⟩ := read
        have isOne : given = 1 := Rat.ext (by simp; omega) (by simp [whole])
        rw [isOne]
    | _ => cases read

theorem parseFeed_keeps : Keeps (parseFeed runtime) := by
  intro value result once parsed
  simp only [parseFeed, parseEnvironment, Transaction.except_bind_ok, recordOr_ok,
    assertExactKeys_ok, ensure_ok] at parsed
  obtain ⟨fields, rfl, _, only, _, version, _, _, environment, ⟨_, _, unchanged⟩, _, _, _, _, _,
    filled, publications, published, _, together, _, _, rollout, rolled, feedSigning, signed,
    ended⟩ := parsed
  cases unchanged
  cases ended
  have own := once _ rfl
  rw [alike_some]
  refine canonicalize_ofMembers feedNames (namesOnce_object.mp own).1 rfl (by decide) only ?_
  have publicationsKept : Alike (some (.array publications)) (fields.lookup "publications") := by
    cases there : fields.lookup "publications" with
    | none => simp [there, itemsOf] at filled
    | some value =>
      cases value with
      | array items =>
        rw [there] at published
        have items := namesOnce_lookup own _ there
        rw [namesOnce, namesOnceItems_iff] at items
        rw [alike_some, canonicalize, canonicalize, canonicalizeItems_eq, canonicalizeItems_eq,
          parsePublications_keeps runtime items published]
      | _ => simp [there, itemsOf] at filled
  have rolloutKept := parseOwn_keeps parseSignedRollout_keeps own rolled
  have signingKept := alike_parsed (parseSigningMetadata_keeps "feed") own signed
  have activated : Alike (memberIf (hasOwn fields "activationMode") rollout) (fields.lookup "rollout") := by
    refine alike_memberIf rolloutKept fun missing => ?_
    rw [missing] at together
    exact hasOwn_false (by simpa using together)
  simp [isIntegerWithin_single version, publicationsKept, activated, signingKept, alike_hasOwn]

def commandNames : List String :=
  ["signedManifest", "signedFeed", "assignment"] ++ attemptKeys ++ personalKeys ++
    ["baselineVersion", "baselineOverride", "expectedCurrentReleaseSequence",
      "expectedConfigurationRevision", "commandDigest"]

theorem parseApplyCommand_keeps {value command : Json} (once : value.namesOnce = true)
    (parsed : parseApplyCommand runtime value = .ok command) : command.canonicalize = value.canonicalize := by
  simp only [parseApplyCommand, Transaction.except_bind_ok, recordOr_ok, assertExactKeys_ok,
    ensure_ok, Option.some.injEq] at parsed
  obtain ⟨fields, rfl, _, only, signedManifest, manifested, signedFeed, fed, assignment, assigned,
    isPersonal, personal, _, _, baselineOverride, overridden, _, _, _, unversioned, isCurrent,
    current, _, _, _, _, _, _, _, _, ended⟩ := parsed
  cases ended
  refine canonicalize_ofMembers commandNames (namesOnce_object.mp once).1 rfl (by decide) (fun field member => ?_) ?_
  · have taken : ∀ key ∈ commandKeys, key ∈ commandNames := by decide
    exact taken field.1 (only field member)
  · have manifestKept := alike_parsed (parseManifest_keeps runtime) once manifested
    have feedKept := alike_parsed (parseFeed_keeps runtime) once fed
    have assignmentKept := alike_parsed parseAssignment_keeps once assigned
    have overrideKept := parseOwn_keeps (parseBaselineOverride_keeps runtime) once overridden
    have versionKept : Alike (memberIf baselineOverride.isSome (fields.lookup "baselineVersion"))
        (fields.lookup "baselineVersion") := by
      refine alike_memberIf (.refl _) fun missing => ?_
      rw [missing, Bool.false_or, Bool.not_eq_true'] at unversioned
      exact hasOwn_false unversioned
    simp only [List.forall_mem_append, List.forall_mem_map]
    refine ⟨⟨⟨?_, ?_⟩, ?_⟩, ?_⟩
    · simp [manifestKept, feedKept, assignmentKept]
    · intro key member
      exact alike_memberIf (.refl _) (parseTogether_ok current key member)
    · intro key member
      exact alike_memberIf (.refl _) (parseTogether_ok personal key member)
    · simp [versionKept, overrideKept]

end Command

section Checked

variable {value other : Json}

theorem signedValue_some {fields : Members} {signingKey : String} {signing : Json}
    (found : fields.lookup signingKey = some signing) :
    signedValue (.object fields) signingKey = .object (fields.filter (fun field => field.1 != signingKey) ++
        [(signingKey, signing.without "signature")]) := by
  have there : (Json.object fields).get? signingKey = some signing := found
  unfold signedValue
  rw [there]
  rfl

theorem signedValue_none {fields : Members} {signingKey : String} (missing : fields.lookup signingKey = none) :
    signedValue (.object fields) signingKey = (Json.object fields).without signingKey := by
  have absent : (Json.object fields).get? signingKey = none := missing
  unfold signedValue
  rw [absent]
  rfl

theorem signedValue_canonical (signingKey : String) (once : value.namesOnce = true)
    (same : value.canonicalize = other.canonicalize) :
    (signedValue value signingKey).canonicalize = (signedValue other signingKey).canonicalize := by
  cases value with
  | object first =>
    obtain ⟨second, rfl⟩ := canonicalize_shape same.symm
    have distinct := (namesOnce_object.mp once).1
    have signing := alike_lookup distinct same signingKey
    cases found : first.lookup signingKey with
    | none =>
      rw [found] at signing
      have missing : second.lookup signingKey = none := by simpa [Alike] using signing.symm
      rw [signedValue_none found, signedValue_none missing]
      exact canonicalize_without signingKey once same
    | some metadata =>
      rw [found] at signing
      cases sent : second.lookup signingKey with
      | none => simp [Alike, sent] at signing
      | some copy =>
        rw [sent, alike_some] at signing
        have unsigned := canonicalize_without "signature" (lookup_of_namesOnce once found) signing
        have kept := without_perm signingKey distinct same
        rw [signedValue_some found, signedValue_some sent]
        refine (canonicalize_eq_iff_perm ?_).mpr ?_
        · rw [List.map_append, List.nodup_append]
          refine ⟨distinct.sublist (List.filter_sublist.map Prod.fst), by simp, ?_⟩
          intro name member last isKey
          rw [List.mem_map] at member
          obtain ⟨field, listed, rfl⟩ := member
          have differs := (List.mem_filter.mp listed).2
          simp only [List.map_cons, List.map_nil, List.mem_singleton] at isKey
          simpa [isKey] using differs
        · simp only [mapValues, List.map_append, List.map_cons, List.map_nil] at kept ⊢
          rw [unsigned]
          exact kept.append_right _
  | _ =>
    cases other with
    | object second => cases same
    | _ => exact same

/-- The publications of a command's feed. -/
def publicationsOf (command : Json) : List Json :=
  (itemsOf ((command.get? "signedFeed").bind fun feed => feed.get? "publications")).getD []

theorem itemsOf_alike {first second : Option Json} (alike : Alike first second) :
    ((itemsOf first).getD []).map canonicalize = ((itemsOf second).getD []).map canonicalize := by
  cases first with
  | none =>
    have missing : second = none := by simpa [Alike] using alike.symm
    rw [missing]
  | some value =>
    cases second with
    | none => simp [Alike] at alike
    | some other =>
      rw [alike_some] at alike
      cases value with
      | array items =>
        cases other with
        | array others =>
          simpa [canonicalize, canonicalizeItems_eq, itemsOf] using alike
        | _ => cases alike
      | _ =>
        cases other with
        | array others => cases alike
        | _ => rfl

theorem publicationsOf_canonical (once : value.namesOnce = true) (same : value.canonicalize = other.canonicalize) :
    (publicationsOf value).map canonicalize = (publicationsOf other).map canonicalize := by
  have feeds := alike_get? "signedFeed" once same
  have feedOnce := @namesOnce_get? value "signedFeed" once
  refine itemsOf_alike ?_
  cases there : value.get? "signedFeed" with
  | none =>
    rw [there] at feeds
    have missing : other.get? "signedFeed" = none := by simpa [Alike] using feeds.symm
    rw [missing]
    exact .refl none
  | some feed =>
    rw [there] at feeds
    cases sent : other.get? "signedFeed" with
    | none => simp [Alike, sent] at feeds
    | some copy =>
      rw [sent, alike_some] at feeds
      exact alike_get? "publications" (feedOnce feed there) feeds

theorem signedValue_alike {first second : Option Json} (signingKey : String)
    (once : ∀ given ∈ first, given.namesOnce = true) (alike : Alike first second) :
    Alike (first.map fun value => signedValue value signingKey)
      (second.map fun value => signedValue value signingKey) := by
  cases first with
  | none =>
    have missing : second = none := by simpa [Alike] using alike.symm
    rw [missing]
    exact .refl none
  | some value =>
    cases second with
    | none => simp [Alike] at alike
    | some other =>
      rw [alike_some] at alike
      exact alike_some.mpr (signedValue_canonical signingKey (once value rfl) alike)

end Checked

section Accepted

variable {runtime : Runtime} {value command : Json}

/-- Whatever is accepted is parsed into the canonical form of what was sent, part by part; so
are the texts that its signatures and its digest are about, and no other accepted value of
another canonical form is parsed into the same command. -/
theorem accepted_command_is_sent (once : value.namesOnce = true)
    (accepted : acceptReleaseCommand runtime value = .ok command) :
    command.canonicalize = value.canonicalize ∧ (∀ part ∈ ["signedManifest", "signedFeed"],
        Alike (command.get? part) (value.get? part)) ∧
      (publicationsOf command).map canonicalize = (publicationsOf value).map canonicalize ∧
      Alike ((command.get? "signedManifest").map fun manifest => signedValue manifest "signing")
        ((value.get? "signedManifest").map fun manifest => signedValue manifest "signing") ∧
      Alike ((command.get? "signedFeed").map fun feed => signedValue feed "feedSigning")
        ((value.get? "signedFeed").map fun feed => signedValue feed "feedSigning") ∧
      (command.without "commandDigest").canonicalize = (value.without "commandDigest").canonicalize ∧
      ∀ other : Json, other.namesOnce = true → acceptReleaseCommand runtime other = .ok command →
        other.canonicalize = value.canonicalize := by
  have kept : ∀ sent : Json, sent.namesOnce = true →
      acceptReleaseCommand runtime sent = .ok command → command.canonicalize = sent.canonicalize := by
    intro sent sentOnce given
    obtain ⟨_, _, parsed⟩ := Transaction.except_bind_ok.mp given
    exact parseApplyCommand_keeps runtime sentOnce parsed
  have same := kept value once accepted
  have parts : ∀ part, Alike (command.get? part) (value.get? part) := fun part =>
    (alike_get? part once same.symm).symm
  refine ⟨same, fun part _ => parts part, (publicationsOf_canonical once same.symm).symm, ?_, ?_,
    (canonicalize_without "commandDigest" once same.symm).symm, ?_⟩
  · exact (signedValue_alike "signing" (namesOnce_get? once) (parts "signedManifest").symm).symm
  · exact (signedValue_alike "feedSigning" (namesOnce_get? once) (parts "signedFeed").symm).symm
  · intro other otherOnce given
    rw [← kept other otherOnce given, same]

end Accepted

/-- A runtime for texts that are read as no number and one timestamp. -/
def plainRuntime : Runtime where
  numberOf _ := none
  textOf _ := ""
  dateParse text := if text = "2026-01-01T00:00:00Z" then some 1767225600000 else none
  isoText _ := ""
  isCanonicalHttpsOrigin _ := false

def sampleSigning : Json :=
  .object [("signature", .string "AAAA"), ("keyId", .string "key"), ("algorithm", .string "Ed25519")]

def sampleDigest : Json :=
  .string "sha256:0000000000000000000000000000000000000000000000000000000000000000"

def sampleManifest : Json :=
  .object
    [("signing", sampleSigning), ("releaseId", .string "r1"), ("environment", .string "staging"),
      ("releaseSequence", .number (.finite 1)), ("releaseKind", .string "capability_activation"),
      ("createdAt", .string "2026-01-01T00:00:00Z"),
      ("managedSettings", .object
        [("toolsConfig", .object [("strictMode", .bool true), ("allowedTools", .array [])]),
          ("soulMd", .string "")])]

def sampleFeed : Json :=
  .object
    [("feedVersion", .number (.finite 1)), ("environment", .string "staging"),
      ("feedSequence", .number (.finite 2)), ("channel", .string "stable"),
      ("generatedAt", .string "2026-01-01T00:00:00Z"), ("feedSigning", sampleSigning),
      ("publications", .array
        [.object
          [("manifest", sampleManifest), ("releaseId", .string "r1"),
            ("releaseSequence", .number (.finite 1)), ("manifestDigest", sampleDigest)]])]

def sampleCommand : Json :=
  .object
    [("commandDigest", sampleDigest), ("expectedCurrentReleaseSequence", .null),
      ("assignment", .object
        [("agentId", .string "agent"), ("toolboxUserId", .string "user"),
          ("targetId", .string "target"), ("environment", .string "staging")]),
      ("signedFeed", sampleFeed), ("signedManifest", sampleManifest)]

theorem sample_command_is_sent :
    ∃ command, acceptReleaseCommand plainRuntime sampleCommand = .ok command ∧
      command.canonicalize = sampleCommand.canonicalize ∧ command ≠ sampleCommand := by
  have once : sampleCommand.namesOnce = true := by decide +kernel
  have passes : (acceptReleaseCommand plainRuntime sampleCommand).isOk = true := by decide +kernel
  cases accepted : acceptReleaseCommand plainRuntime sampleCommand with
  | error error => simp [accepted, Except.isOk, Except.toBool] at passes
  | ok command =>
    have reordered : acceptReleaseCommand plainRuntime sampleCommand ≠ .ok sampleCommand := by
      decide +kernel
    refine ⟨command, rfl, (accepted_command_is_sent once accepted).1, fun same => ?_⟩
    exact reordered (same ▸ accepted)

end Lobu.Configuration
