import Lobu.OAuth.Provider

namespace Lobu.OAuth

open Lobu.Foundation

/-! # Chains of tokens

Every token comes from a grant: it was issued for an authorization or a device code,
or it was inserted when a refresh token was rotated, which has a chain of its own.
-/

/-- What a code stands for. -/
structure Grant where
  userId : String
  organizationId : Option String
  clientId : String
  scope : Option ScopeText
  resource : Option String

def StoredAuthorizationCode.grant (row : StoredAuthorizationCode) : Grant where
  userId := row.userId
  organizationId := row.organizationId
  clientId := row.clientId
  scope := row.scope
  resource := row.resource

def StoredDeviceCode.grantTo (row : StoredDeviceCode) (userId : String) : Grant where
  userId := userId
  organizationId := row.organizationId
  clientId := row.clientId
  scope := row.scope
  resource := row.resource

/-- What the user has consented to. -/
def consented (params : AuthorizationParams) (userId : String) (organizationId : Option String) : Grant where
  userId := userId
  organizationId := organizationId
  clientId := params.clientId
  scope := scopeOrNull params.scope
  resource := orNull params.resource

/-- What the user has approved on a device, the scope narrowed where there is an override. -/
def approvedOn (row : StoredDeviceCode) (userId : String) (organizationId : Option String)
    (scopeOverride : Option (Option ScopeText)) : Grant where
  userId := userId
  organizationId := organizationId
  clientId := row.clientId
  scope := scopeOverride.getD row.scope
  resource := row.resource

inductive GrantKey where
  | code (code : String)
  | device (deviceCode : String)

/-- The call has taken the code, and with it the grant. -/
inductive Takes (said : Dialogue) : GrantKey → Grant → Prop
  | code {code : String} {row : StoredAuthorizationCode}
      (used : ⟨.useCode code, some row⟩ ∈ said) : Takes said (.code code) row.grant
  | device {deviceCode clientId userId : String} {row : StoredDeviceCode}
      (claimed : ⟨.claimDevice deviceCode clientId, some row⟩ ∈ said)
      (user : orNull row.userId = some userId) :
      Takes said (.device deviceCode) (row.grantTo userId)

/-- A user has approved the grant under this key. -/
inductive Approved (crowd : Calls) : GrantKey → Grant → Prop
  | code {member : Member Command Statement.Answer Reply} {params : AuthorizationParams}
      {userId : String} {organizationId : Option String} {row : StoredAuthorizationCode}
      (present : member ∈ crowd.members)
      (command : member.command = .createAuthorizationCode params userId organizationId)
      (created : ⟨.insertCode row, ()⟩ ∈ member.said) :
      Approved crowd (.code row.code) (consented params userId organizationId)
  | device {creator approver : Member Command Statement.Answer Reply} {row : StoredDeviceCode}
      {userId : String} {organizationId : Option String} {deviceCodes : List String}
      {scopeOverride : Option (Option ScopeText)}
      (creates : creator ∈ crowd.members)
      (command : creator.command =
        .createDeviceAuthorization row.clientId row.scope row.resource)
      (created : ⟨.insertDevice row, ()⟩ ∈ creator.said)
      (approves : approver ∈ crowd.members)
      (approval : approver.command =
        .approveDeviceCode row.userCode userId organizationId scopeOverride)
      (approved : ⟨.approveDevice row.userCode userId organizationId scopeOverride, deviceCodes⟩ ∈
        approver.said)
      (answered : row.deviceCode ∈ deviceCodes) :
      Approved crowd (.device row.deviceCode) (approvedOn row userId organizationId scopeOverride)

/-- The token and the refresh tokens that it was refreshed from, back to the grant. -/
inductive Chain (crowd : Calls) :
    StoredOAuthToken → GrantKey → Grant → List StoredOAuthToken → Prop
  | issued {member : Member Command Statement.Answer Reply} {rows : List StoredOAuthToken}
      {earlier : Dialogue} {token : StoredOAuthToken} {key : GrantKey} {grant : Grant}
      (present : member ∈ crowd.members)
      (inserted : ⟨.insertTokens rows, ()⟩ :: earlier <:+ member.said)
      (taken : Takes earlier key grant) (among : token ∈ rows) : Chain crowd token key grant []
  | refreshed {member : Member Command Statement.Answer Reply} {rows : List StoredOAuthToken}
      {earlier : Dialogue} {token old : StoredOAuthToken} {tokenHash : String} {key : GrantKey}
      {grant : Grant} {ancestors : List StoredOAuthToken}
      (chain : Chain crowd old key grant ancestors) (present : member ∈ crowd.members)
      (rotated : ⟨.rotate old.id rows, ()⟩ :: earlier <:+ member.said)
      (found : ⟨.selectRefresh tokenHash, some old⟩ ∈ earlier) (among : token ∈ rows) :
      Chain crowd token key grant (old :: ancestors)

/-- What a call may ask any number of times. -/
def Statement.preliminary : Statement → Bool
  | .randomBytes => true
  | .dateNow => true
  | .selectClient _ => true
  | _ => false

def Statement.issues : Statement → Bool
  | .insertTokens _ => true
  | .rotate .. => true
  | _ => false

/-- The row of a token as it was inserted for a grant. -/
structure StoredOAuthToken.Bears (row : StoredOAuthToken) (grant : Grant) : Prop where
  userId : row.userId = grant.userId
  organizationId : row.organizationId = grant.organizationId
  clientId : row.clientId = grant.clientId
  scope : row.scope = grant.scope
  resource : row.resource = grant.resource
  revokedAt : row.revokedAt = none

/-- The row of a token as it was inserted for an old one. -/
structure StoredOAuthToken.Refreshes (row old : StoredOAuthToken) (params : TokenRequestParams) :
    Prop where
  userId : row.userId = old.userId
  organizationId : row.organizationId = old.organizationId
  clientId : row.clientId = old.clientId
  scope : refreshedScope old.scope params.scope = .ok row.scope
  resource : row.resource = (orNull params.resource).or old.resource
  revokedAt : row.revokedAt = none

section Conduct

variable (hashing : Hashing)

/-- The request is of the client that the code was given to and passes its checks. -/
def Checked (command : Command) (key : GrantKey) (said : Dialogue) : Prop :=
  match key with
  | .code code => ∃ params, command = .exchangeAuthorizationCode params ∧ params.code = some code ∧
      ∀ row, ⟨.useCode code, some row⟩ ∈ said → row.clientId = params.clientId ∧
        params.redirectUri = some row.redirectUri ∧
        ∃ verifier, params.codeVerifier = some verifier ∧
          verifyCodeChallenge hashing verifier row.codeChallenge row.codeChallengeMethod = true
  | .device deviceCode => ∃ params, command = .exchangeDeviceCode params ∧
      params.deviceCode = some deviceCode ∧
      ∀ clientId row, ⟨.claimDevice deviceCode clientId, some row⟩ ∈ said →
        clientId = params.clientId

/-- Tokens are issued for the one code that the call has taken. -/
structure Issues (command : Command) (said : Dialogue) (rows : List StoredOAuthToken) : Prop where
  taken : ∃ key grant, Takes said key grant
  granted : ∀ key grant, Takes said key grant → Checked hashing command key said ∧
    ∀ row ∈ rows, row.Bears grant
  only : ∀ key grant, Takes said key grant → ∀ otherKey otherGrant,
    Takes said otherKey otherGrant → otherKey = key ∧ otherGrant = grant
  first : ∀ exchange ∈ said, exchange.request.issues = false

/-- Tokens take the place of the one refresh token that the call has found. -/
structure Rotates (command : Command) (said : Dialogue) (id : String)
    (rows : List StoredOAuthToken) : Prop where
  found : ∃ tokenHash old, ⟨.selectRefresh tokenHash, some old⟩ ∈ said ∧ old.id = id
  refreshed : ∀ tokenHash old, ⟨.selectRefresh tokenHash, some old⟩ ∈ said → ∃ params,
    command = .refreshAccessToken params ∧ old.clientId = params.clientId ∧
      (∃ refreshToken, params.refreshToken = some refreshToken ∧
        tokenHash = hashing.hashToken refreshToken) ∧
      old.id = id ∧ ∀ row ∈ rows, row.Refreshes old params
  only : ∀ tokenHash old, ⟨.selectRefresh tokenHash, some old⟩ ∈ said → ∀ otherHash other,
    ⟨.selectRefresh otherHash, some other⟩ ∈ said → other = old
  first : ∀ exchange ∈ said, exchange.request.issues = false

def permitted (command : Command) (said : Dialogue) : Statement → Prop
  | .insertTokens rows => Issues hashing command said rows
  | .rotate id rows => Rotates hashing command said id rows
  | .approveDevice userCode userId organizationId scopeOverride =>
    command = .approveDeviceCode userCode userId organizationId scopeOverride
  | .insertCode row => ∃ params userId organizationId,
      command = .createAuthorizationCode params userId organizationId ∧
        row.grant = consented params userId organizationId
  | .insertDevice row => command = .createDeviceAuthorization row.clientId row.scope row.resource ∧
      row.status = .pending ∧ ⟨.randomBytes, row.deviceCode⟩ ∈ said ∧
      ∀ exchange ∈ said, exchange.request.preliminary = true
  | _ => True

end Conduct

section Dialogues

variable {said earlier : Dialogue} {exchange decisive : Exchange Statement.Answer}
variable {hashing : Hashing} {command : Command} {α : Type}

/-- The exchange is the only one that counts. -/
structure Sole (decisive : Exchange Statement.Answer) (said : Dialogue) : Prop where
  heard : decisive ∈ said
  only : ∀ exchange ∈ said, exchange.request.preliminary = false → exchange = decisive

def Preliminary (said : Dialogue) : Prop :=
  ∀ exchange ∈ said, exchange.request.preliminary = true

theorem Preliminary.cons (before : Preliminary said)
    (more : exchange.request.preliminary = true) : Preliminary (exchange :: said) := by
  intro other heard
  rcases List.mem_cons.mp heard with rfl | old
  · exact more
  · exact before other old

theorem Preliminary.sole (before : Preliminary said) (decisive : Exchange Statement.Answer) :
    Sole decisive (decisive :: said) := by
  refine ⟨List.mem_cons_self, ?_⟩
  intro other heard counts
  rcases List.mem_cons.mp heard with same | old
  · exact same
  · rw [before other old] at counts
    cases counts

theorem Sole.cons (sole : Sole decisive said) (more : exchange.request.preliminary = true) :
    Sole decisive (exchange :: said) := by
  refine ⟨List.mem_cons_of_mem _ sole.heard, ?_⟩
  intro other heard counts
  rcases List.mem_cons.mp heard with rfl | old
  · rw [more] at counts
    cases counts
  · exact sole.only other old counts

theorem Sole.first (sole : Sole decisive said) (other : decisive.request.issues = false) :
    ∀ exchange ∈ said, exchange.request.issues = false := by
  intro exchange heard
  cases counts : exchange.request.preliminary with
  | true => cases asked : exchange.request <;> rw [asked] at counts <;> first | rfl | cases counts
  | false =>
    rw [sole.only exchange heard counts]
    exact other

/-- The call asks nothing that it must not ask, and ends so. -/
abbrev Behaves (hashing : Hashing) (command : Command) (leaves : Dialogue → α → Prop)
    (said : Dialogue) (call : Call α) : Prop :=
  call.Keeps (permitted hashing command) (fun _ _ => True) leaves said

section Preliminaries

variable {property : Dialogue → Prop}
variable (closed : ∀ said exchange, exchange.request.preliminary = true → property said →
  property (exchange :: said))

include closed

theorem generateTokens_behaves (before : property said) :
    Behaves hashing command (fun after _ => property after) said generateTokens := by
  refine .answered trivial fun accessToken _ => .answered trivial fun refreshToken _ =>
    .answered trivial fun accessTokenId _ => .answered trivial fun refreshTokenId _ =>
    .answered trivial fun accessTime _ => .answered trivial fun refreshTime _ => ?_
  exact closed _ _ rfl (closed _ _ rfl (closed _ _ rfl (closed _ _ rfl (closed _ _ rfl (closed _ _ rfl before)))))

end Preliminaries

theorem verifyClientCredentials_behaves {clientId clientSecret : String} (before : Preliminary said) :
    Behaves hashing command (fun after _ => Preliminary after) said
      (verifyClientCredentials hashing clientId clientSecret) := by
  refine .answered trivial fun found _ => ?_
  have asked : Preliminary (⟨.selectClient clientId, found⟩ :: said) := before.cons rfl
  cases found with
  | none => exact asked
  | some client =>
    refine .answered trivial fun now _ => ?_
    have timed : Preliminary (⟨.dateNow, now⟩ :: ⟨.selectClient clientId, some client⟩ :: said) :=
      asked.cons rfl
    split
    · exact timed
    · cases orNull client.clientSecret <;> exact timed

theorem validateClientTokenAuthentication_behaves {clientId : String}
    {clientSecret : Option String} (before : Preliminary said) :
    Behaves hashing command (fun after _ => Preliminary after) said
      (validateClientTokenAuthentication hashing clientId clientSecret) := by
  refine .answered trivial fun found _ => ?_
  have asked : Preliminary (⟨.selectClient clientId, found⟩ :: said) := before.cons rfl
  cases found with
  | none => exact asked
  | some client =>
    simp only
    split
    · exact asked
    · cases clientSecret with
      | none => exact asked
      | some secret =>
        refine .bind (verifyClientCredentials_behaves asked) fun after valid left => ?_
        cases valid <;> exact left

section Issuing

variable {params : TokenRequestParams} {fresh : FreshTokens} {token : StoredOAuthToken}
variable {clientId userId : String} {organizationId : Option String} {scope : Option ScopeText}
variable {resource accessParent refreshParent : Option String}

theorem FreshTokens.mem_rows (among : token ∈ fresh.rows hashing clientId userId organizationId
      scope resource accessParent refreshParent) :
    token.userId = userId ∧ token.organizationId = organizationId ∧ token.clientId = clientId ∧
      token.scope = scope ∧ token.resource = resource ∧ token.revokedAt = none := by
  simp only [FreshTokens.rows, List.mem_cons, List.not_mem_nil, or_false] at among
  rcases among with rfl | rfl <;> simp

theorem Sole.takes_code {code : String} {row : StoredAuthorizationCode} {key : GrantKey}
    {grant : Grant} (sole : Sole ⟨.useCode code, some row⟩ said) (takes : Takes said key grant) :
    key = .code code ∧ grant = row.grant := by
  cases takes with
  | code used =>
    cases sole.only _ used rfl
    exact ⟨rfl, rfl⟩
  | device claimed _ => cases sole.only _ claimed rfl

theorem Sole.takes_device {deviceCode : String} {row : StoredDeviceCode} {key : GrantKey}
    {grant : Grant} (sole : Sole ⟨.claimDevice deviceCode clientId, some row⟩ said)
    (user : orNull row.userId = some userId) (takes : Takes said key grant) :
    key = .device deviceCode ∧ grant = row.grantTo userId := by
  cases takes with
  | code used => cases sole.only _ used rfl
  | device claimed other =>
    cases sole.only _ claimed rfl
    rw [user] at other
    cases other
    exact ⟨rfl, rfl⟩

theorem orNull_some {value : Option String} {text : String} (given : orNull value = some text) : value = some text :=
  (Option.filter_eq_some_iff.mp given).1

theorem issueTokens_behaves (key : GrantKey) (grant : Grant) (sole : Sole decisive said)
    (other : decisive.request.issues = false) (takes : ∀ after, Sole decisive after → Takes after key grant)
    (only : ∀ after, Sole decisive after → ∀ otherKey otherGrant, Takes after otherKey otherGrant →
      otherKey = key ∧ otherGrant = grant)
    (checked : ∀ after, Sole decisive after → Checked hashing command key after) :
    Behaves hashing command (fun _ _ => True) said
      (issueTokens hashing grant.clientId grant.userId grant.organizationId grant.scope grant.resource) := by
  refine .bind (generateTokens_behaves (fun _ _ more before => Sole.cons before more) sole) fun after fresh left => ?_
  refine .answered ⟨⟨key, grant, takes after left⟩, ?_, ?_, left.first other⟩ fun _ _ => trivial
  · intro otherKey otherGrant taken
    obtain ⟨rfl, rfl⟩ := only after left otherKey otherGrant taken
    refine ⟨checked after left, fun row among => ?_⟩
    obtain ⟨user, organization, client, scope, resource, live⟩ := FreshTokens.mem_rows among
    exact ⟨user, organization, client, scope, resource, live⟩
  · intro first firstGrant taken second secondGrant takenToo
    obtain ⟨rfl, rfl⟩ := only after left first firstGrant taken
    exact only after left second secondGrant takenToo

theorem exchangeAuthorizationCode_behaves :
    Behaves hashing (.exchangeAuthorizationCode params) (fun _ _ => True) []
      (exchangeAuthorizationCode hashing params) := by
  unfold exchangeAuthorizationCode
  split
  · rename_i code codeVerifier codeGiven verifierGiven
    refine .bind (validateClientTokenAuthentication_behaves (by simp [Preliminary])) fun after validation valid => ?_
    cases validation with
    | error refusal => trivial
    | ok client =>
      simp only
      split
      · trivial
      · refine .answered trivial fun used _ => ?_
        cases used with
        | none => trivial
        | some authCode =>
          simp only
          split
          · trivial
          · rename_i sameClient
            split
            · trivial
            · rename_i sameUri
              split
              · trivial
              · rename_i verified
                have sole := valid.sole ⟨.useCode code, some authCode⟩
                refine .bind (issueTokens_behaves (.code code) authCode.grant sole rfl (fun later left => .code left.heard)
                  (fun later left _ _ taken => left.takes_code taken)
                  fun later left => ⟨params, rfl, orNull_some codeGiven, ?_⟩)
                  fun _ _ _ => trivial
                intro row used
                cases left.only _ used rfl
                exact ⟨not_not.mp sameClient, (not_not.mp sameUri).symm, codeVerifier,
                  orNull_some verifierGiven, by simpa using verified⟩
  · trivial

theorem exchangeDeviceCode_behaves :
    Behaves hashing (.exchangeDeviceCode params) (fun _ _ => True) [] (exchangeDeviceCode hashing params) := by
  unfold exchangeDeviceCode
  split
  · trivial
  · rename_i code codeGiven
    refine .bind (validateClientTokenAuthentication_behaves (by simp [Preliminary])) fun after validation valid => ?_
    cases validation with
    | error refusal => trivial
    | ok client =>
      refine .answered trivial fun claimed _ => ?_
      cases claimed with
      | none => exact .answered trivial fun found _ => .answered trivial fun now _ => trivial
      | some deviceCode =>
        simp only
        split
        · trivial
        · rename_i userId user
          have sole := valid.sole ⟨.claimDevice code params.clientId, some deviceCode⟩
          refine .bind (issueTokens_behaves (.device code) (deviceCode.grantTo userId) sole rfl
            (fun later left => .device left.heard user)
            (fun later left _ _ taken => left.takes_device user taken)
            fun later left => ⟨params, rfl, orNull_some codeGiven, ?_⟩) fun _ _ _ => trivial
          intro clientId row claimed
          cases left.only _ claimed rfl
          rfl

theorem refreshAccessToken_behaves :
    Behaves hashing (.refreshAccessToken params) (fun _ _ => True) [] (refreshAccessToken hashing params) := by
  unfold refreshAccessToken
  split
  · trivial
  · rename_i refreshToken tokenGiven
    refine .bind (validateClientTokenAuthentication_behaves (by simp [Preliminary])) fun after validation valid => ?_
    cases validation with
    | error refusal => trivial
    | ok client =>
      simp only
      split
      · trivial
      · refine .answered trivial fun found _ => ?_
        cases found with
        | none => trivial
        | some old =>
          simp only
          split
          · trivial
          · rename_i sameClient
            split
            · trivial
            · rename_i scope narrowed
              have sole := valid.sole ⟨.selectRefresh (hashing.hashToken refreshToken), some old⟩
              refine .bind (generateTokens_behaves
                (fun _ _ more before => Sole.cons before more) sole) fun later fresh left => ?_
              refine .answered ⟨⟨_, old, left.heard, rfl⟩, ?_, ?_, left.first rfl⟩ fun _ _ => trivial
              · intro tokenHash other found
                cases left.only _ found rfl
                refine ⟨params, rfl, not_not.mp sameClient,
                  ⟨refreshToken, orNull_some tokenGiven, rfl⟩, rfl, fun row among => ?_⟩
                obtain ⟨user, organization, client, scope, resource, live⟩ :=
                  FreshTokens.mem_rows among
                exact ⟨user, organization, client, scope ▸ narrowed, resource, live⟩
              · intro tokenHash first found otherHash second foundToo
                cases left.only _ found rfl
                cases left.only _ foundToo rfl
                rfl

theorem verifyAccessToken_behaves {presented : String} :
    Behaves hashing command (fun _ _ => True) said (verifyAccessToken hashing presented) := by
  unfold verifyAccessToken
  split
  · exact .answered trivial fun _ _ => trivial
  · exact .answered trivial fun _ _ => trivial

theorem createDeviceAuthorization_behaves {baseUrl : String} :
    Behaves hashing (.createDeviceAuthorization clientId scope resource) (fun _ _ => True) []
      (createDeviceAuthorization baseUrl clientId scope resource) := by
  refine .answered trivial fun found _ => ?_
  cases found with
  | none => trivial
  | some client =>
    simp only
    split
    · trivial
    · exact .answered trivial fun _ _ => .answered trivial fun _ _ =>
        .answered trivial fun _ _ =>
          .answered ⟨rfl, rfl, by simp, by simp [Statement.preliminary]⟩ fun _ _ => trivial

theorem handle_behaves (baseUrl : String) (command : Command) :
    Behaves hashing command (fun _ _ => True) [] (handle hashing baseUrl command) := by
  cases command with
  | createAuthorizationCode params userId organizationId =>
    exact .answered trivial fun code _ => .answered trivial fun now _ =>
      .answered ⟨params, userId, organizationId, rfl, rfl⟩ fun _ _ => trivial
  | exchangeAuthorizationCode params =>
    exact .bind exchangeAuthorizationCode_behaves fun _ _ _ => trivial
  | refreshAccessToken params => exact .bind refreshAccessToken_behaves fun _ _ _ => trivial
  | verifyAccessToken token => exact .bind verifyAccessToken_behaves fun _ _ _ => trivial
  | revokeToken token clientId => exact .answered trivial fun _ _ => trivial
  | revokeAllUserTokens userId => exact .answered trivial fun _ _ => trivial
  | revokeClientForOrganization clientId organizationId =>
    exact .answered trivial fun _ _ => trivial
  | createDeviceAuthorization clientId scope resource =>
    exact .bind createDeviceAuthorization_behaves fun _ _ _ => trivial
  | approveDeviceCode userCode userId organizationId scopeOverride =>
    exact .answered rfl fun _ _ => trivial
  | denyDeviceCode userCode => exact .answered trivial fun _ _ => trivial
  | exchangeDeviceCode params => exact .bind exchangeDeviceCode_behaves fun _ _ _ => trivial

end Issuing

end Dialogues

end Lobu.OAuth
