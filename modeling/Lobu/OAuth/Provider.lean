import Lobu.Foundation.Process
import Lobu.OAuth.Scopes

namespace Lobu.OAuth

open Lobu.Foundation

/-! # The OAuth provider

The tables of the provider, the statements and transactions that it sends to the
database, and its functions as processes that send them.  Hashes are functions that
the provider is given.
-/

structure Hashing where
  hashToken : String → String
  generateCodeChallenge : String → String
  verifyClientSecret : String → String → Bool

structure StoredOAuthClient where
  id : String
  clientSecret : Option String := none
  clientSecretExpiresAt : Option Nat := none
  tokenEndpointAuthMethod : Option String
  grantTypes : Option (List String)

structure StoredAuthorizationCode where
  code : String
  clientId : String
  userId : String
  organizationId : Option String
  codeChallenge : String
  codeChallengeMethod : String
  redirectUri : String
  scope : Option ScopeText
  state : Option String
  resource : Option String
  expiresAt : Nat
  usedAt : Option Nat := none
deriving DecidableEq

inductive DeviceCodeStatus where
  | pending
  | approved
  | denied
  | expired
deriving DecidableEq

structure StoredDeviceCode where
  deviceCode : String
  userCode : String
  clientId : String
  scope : Option ScopeText
  resource : Option String
  userId : Option String := none
  organizationId : Option String := none
  status : DeviceCodeStatus := .pending
  pollInterval : Nat
  expiresAt : Nat
deriving DecidableEq

inductive TokenType where
  | access
  | refresh
deriving DecidableEq

structure StoredOAuthToken where
  id : String
  tokenType : TokenType
  tokenHash : String
  clientId : String
  userId : String
  organizationId : Option String
  scope : Option ScopeText
  resource : Option String
  parentTokenId : Option String := none
  expiresAt : Nat
  revokedAt : Option Nat := none
deriving DecidableEq

structure StoredPersonalToken where
  id : Nat
  tokenHash : String
  userId : String
  organizationId : Option String
  scope : Option ScopeText
  expiresAt : Option Nat
  revokedAt : Option Nat
  workerId : Option String

structure McpSession where
  sessionId : String
  clientId : String
  organizationId : Option String

/-- `drawn` holds the random values that have been drawn, which is no table. -/
structure Database where
  clients : List StoredOAuthClient
  users : List String
  codes : List StoredAuthorizationCode := []
  devices : List StoredDeviceCode := []
  tokens : List StoredOAuthToken := []
  personalTokens : List StoredPersonalToken := []
  sessions : List McpSession := []
  drawn : List String := []

/-- What the provider asks for: statements, a transaction, random values and the clock. -/
inductive Statement where
  | randomBytes
  | dateNow
  | selectClient (id : String)
  | insertCode (row : StoredAuthorizationCode)
  | useCode (code : String)
  | insertTokens (rows : List StoredOAuthToken)
  | selectRefresh (tokenHash : String)
  -- the transaction that revokes the old refresh token and inserts the new tokens
  | rotate (id : String) (rows : List StoredOAuthToken)
  | selectAccess (tokenHash : String)
  | selectPersonal (tokenHash : String)
  | revokeToken (tokenHash clientId : String)
  | revokeUser (userId : String)
  | revokeClient (clientId organizationId : String)
  | insertDevice (row : StoredDeviceCode)
  | approveDevice (userCode userId : String) (organizationId : Option String)
      (scopeOverride : Option (Option ScopeText))
  | denyDevice (userCode : String)
  | claimDevice (deviceCode clientId : String)
  | selectDevice (deviceCode : String)
deriving DecidableEq

@[reducible] def Statement.Answer : Statement → Type
  | .randomBytes => String
  | .dateNow => Nat
  | .selectClient _ => Option StoredOAuthClient
  | .insertCode _ => Unit
  | .useCode _ => Option StoredAuthorizationCode
  | .insertTokens _ => Unit
  | .selectRefresh _ => Option StoredOAuthToken
  | .rotate .. => Unit
  | .selectAccess _ => Option StoredOAuthToken
  | .selectPersonal _ => Option StoredPersonalToken
  | .revokeToken .. => Nat
  | .revokeUser _ => Nat
  | .revokeClient .. => Nat × Nat
  | .insertDevice _ => Unit
  | .approveDevice .. => List String
  | .denyDevice _ => List String
  | .claimDevice .. => Option StoredDeviceCode
  | .selectDevice _ => Option StoredDeviceCode

/-- What the database cannot settle: the time of a statement and a random value. -/
structure Choice where
  now : Nat
  value : String := ""

abbrev Dialogue := List (Exchange Statement.Answer)

/-- `UPDATE oauth_tokens SET revoked_at = NOW() WHERE …`. -/
def revocation (selects : StoredOAuthToken → Bool) (now : Nat) : RowUpdate StoredOAuthToken where
  selects := selects
  sets row := { row with revokedAt := some now }

def ownToken (tokenHash clientId : String) (row : StoredOAuthToken) : Bool :=
  decide (row.tokenHash = tokenHash ∧ row.clientId = clientId ∧ row.revokedAt = none)

def userToken (userId : String) (row : StoredOAuthToken) : Bool :=
  decide (row.userId = userId ∧ row.revokedAt = none)

def clientToken (clientId organizationId : String) (row : StoredOAuthToken) : Bool :=
  decide (row.clientId = clientId ∧ row.organizationId = some organizationId ∧
    row.revokedAt = none)

def codeUse (code : String) (now : Nat) : RowUpdate StoredAuthorizationCode where
  selects row := decide (row.code = code ∧ row.expiresAt > now ∧ row.usedAt = none)
  sets row := { row with usedAt := some now }

def pendingDevice (userCode : String) (now : Nat) (row : StoredDeviceCode) : Bool :=
  decide (row.userCode = userCode ∧ row.status = .pending ∧ row.expiresAt > now)

def deviceApproval (userCode userId : String) (organizationId : Option String)
    (scopeOverride : Option (Option ScopeText)) (now : Nat) : RowUpdate StoredDeviceCode where
  selects := pendingDevice userCode now
  sets row := { row with
    status := .approved
    userId := some userId
    organizationId := organizationId
    scope := scopeOverride.getD row.scope }

def deviceDenial (userCode : String) (now : Nat) : RowUpdate StoredDeviceCode where
  selects := pendingDevice userCode now
  sets row := { row with status := .denied }

def claimableDevice (deviceCode clientId : String) (now : Nat) (row : StoredDeviceCode) : Bool :=
  decide (row.deviceCode = deviceCode ∧ row.clientId = clientId ∧ row.status = .approved ∧
    row.expiresAt > now)

def liveRefresh (tokenHash : String) (now : Nat) (row : StoredOAuthToken) : Bool :=
  decide (row.tokenHash = tokenHash ∧ row.tokenType = .refresh ∧ row.revokedAt = none ∧
    row.expiresAt > now)

def liveAccess (users : List String) (tokenHash : String) (now : Nat) (row : StoredOAuthToken) : Bool :=
  decide (row.userId ∈ users ∧ row.tokenHash = tokenHash ∧ row.tokenType = .access ∧
    row.revokedAt = none ∧ row.expiresAt > now)

def livePersonal (users : List String) (tokenHash : String) (now : Nat) (row : StoredPersonalToken) : Bool :=
  decide (row.userId ∈ users ∧ row.tokenHash = tokenHash ∧ row.revokedAt = none) &&
    row.expiresAt.all (· > now)

namespace Database

variable (database : Database)

/-- The unique indexes of the tokens refuse these rows. -/
def refuses (rows : List StoredOAuthToken) : Bool :=
  !decide (((database.tokens ++ rows).map (·.id)).Nodup ∧
    ((database.tokens ++ rows).map (·.tokenHash)).Nodup)

def revoke (selects : StoredOAuthToken → Bool) (now : Nat) : Database :=
  { database with tokens := (revocation selects now).run database.tokens }

def addTokens (rows : List StoredOAuthToken) : Database :=
  { database with tokens := database.tokens ++ rows }

/-- The answer to a statement and what it leaves; none where the database refuses it. -/
def serve : Service Database Choice Statement.Answer
  | database, .randomBytes, choice =>
    some (choice.value, { database with drawn := choice.value :: database.drawn })
  | database, .dateNow, choice => some (choice.now, database)
  | database, .selectClient id, _ => some (database.clients.find? (·.id = id), database)
  | database, .insertCode row, _ =>
    if database.codes.any (·.code = row.code) then none
    else some ((), { database with codes := database.codes ++ [row] })
  | database, .useCode code, choice =>
    let update := codeUse code choice.now
    some ((database.codes.find? update.selects).map update.sets,
      { database with codes := update.run database.codes })
  | database, .insertTokens rows, _ =>
    if database.refuses rows then none else some ((), database.addTokens rows)
  | database, .selectRefresh tokenHash, choice =>
    some (database.tokens.find? (liveRefresh tokenHash choice.now), database)
  | database, .rotate id rows, choice =>
    if database.refuses rows then none
    else some ((), (database.revoke (·.id = id) choice.now).addTokens rows)
  | database, .selectAccess tokenHash, choice =>
    some (database.tokens.find? (liveAccess database.users tokenHash choice.now), database)
  | database, .selectPersonal tokenHash, choice =>
    some (database.personalTokens.find? (livePersonal database.users tokenHash choice.now),
      database)
  | database, .revokeToken tokenHash clientId, choice =>
    some (database.tokens.countP (ownToken tokenHash clientId),
      database.revoke (ownToken tokenHash clientId) choice.now)
  | database, .revokeUser userId, choice =>
    some (database.tokens.countP (userToken userId),
      database.revoke (userToken userId) choice.now)
  | database, .revokeClient clientId organizationId, choice =>
    let inSession (session : McpSession) : Bool :=
      decide (session.clientId = clientId ∧ session.organizationId = some organizationId)
    some ((database.tokens.countP (clientToken clientId organizationId),
        database.sessions.countP inSession),
      { database.revoke (clientToken clientId organizationId) choice.now with
        sessions := deleteWhere inSession database.sessions })
  | database, .insertDevice row, _ =>
    if database.devices.any (fun present => present.deviceCode = row.deviceCode ||
        present.userCode = row.userCode) then none
    else some ((), { database with devices := database.devices ++ [row] })
  | database, .approveDevice userCode userId organizationId scopeOverride, choice =>
    let update := deviceApproval userCode userId organizationId scopeOverride choice.now
    some ((database.devices.filter update.selects).map (·.deviceCode),
      { database with devices := update.run database.devices })
  | database, .denyDevice userCode, choice =>
    let update := deviceDenial userCode choice.now
    some ((database.devices.filter update.selects).map (·.deviceCode),
      { database with devices := update.run database.devices })
  | database, .claimDevice deviceCode clientId, choice =>
    some (database.devices.find? (claimableDevice deviceCode clientId choice.now),
      { database with
        devices := deleteWhere (claimableDevice deviceCode clientId choice.now)
          database.devices })
  | database, .selectDevice deviceCode, _ =>
    some (database.devices.find? (·.deviceCode = deviceCode), database)

end Database

abbrev Call (α : Type) := Process Statement Statement.Answer α

def Call.of (statement : Statement) : Call statement.Answer :=
  Process.answerTo statement

structure AuthorizationParams where
  clientId : String
  redirectUri : String
  scope : Option ScopeText := none
  state : Option String := none
  codeChallenge : String
  codeChallengeMethod : String
  resource : Option String := none
deriving DecidableEq

structure TokenRequestParams where
  clientId : String
  clientSecret : Option String := none
  code : Option String := none
  redirectUri : Option String := none
  codeVerifier : Option String := none
  refreshToken : Option String := none
  scope : Option ScopeText := none
  resource : Option String := none
  deviceCode : Option String := none

structure OAuthTokenResponse where
  accessToken : String
  tokenType : String
  expiresIn : Nat
  refreshToken : String
  scope : Option ScopeText

structure DeviceAuthorizationResponse where
  deviceCode : String
  userCode : String
  verificationUri : String
  verificationUriComplete : String
  expiresIn : Nat
  interval : Nat

inductive AuthTokenType where
  | accessToken
  | pat
deriving DecidableEq

structure AuthInfo where
  userId : String
  organizationId : Option String
  clientId : String
  scopes : List ScopeText
  expiresAt : Nat
  resource : Option String
  tokenType : AuthTokenType
  workerId : Option String

/-- `value || null`. -/
def orNull (value : Option String) : Option String :=
  value.filter (· ≠ "")

def scopeOrNull (scope : Option ScopeText) : Option ScopeText :=
  scope.filter (· ≠ [])

def ACCESS_TOKEN_LIFETIME_SECONDS : Nat := 24 * 3600
def REFRESH_TOKEN_LIFETIME_SECONDS : Nat := 30 * 24 * 3600
def AUTHORIZATION_CODE_LIFETIME_SECONDS : Nat := 600
def DEVICE_CODE_LIFETIME_SECONDS : Nat := 900
def DEVICE_CODE_POLL_INTERVAL_SECONDS : Nat := 5

/-- `calculateExpiry`, in milliseconds. -/
def calculateExpiry (lifetimeSeconds : Nat) : Call Nat := do
  let now ← Call.of .dateNow
  pure (now + lifetimeSeconds * 1000)

def deviceGrant : String := "urn:ietf:params:oauth:grant-type:device_code"

section Provider

variable (hashing : Hashing) (baseUrl : String)

def verifyCodeChallenge (verifier challenge method : String) : Bool :=
  if method = "plain" then verifier = challenge
  else hashing.generateCodeChallenge verifier = challenge

def createAuthorizationCode (params : AuthorizationParams) (userId : String)
    (organizationId : Option String) : Call String := do
  let code ← Call.of .randomBytes
  let expiresAt ← calculateExpiry AUTHORIZATION_CODE_LIFETIME_SECONDS
  Call.of (.insertCode {
    code, clientId := params.clientId, userId, organizationId,
    codeChallenge := params.codeChallenge, codeChallengeMethod := params.codeChallengeMethod,
    redirectUri := params.redirectUri, scope := scopeOrNull params.scope,
    state := orNull params.state, resource := orNull params.resource, expiresAt })
  pure code

def verifyClientCredentials (clientId clientSecret : String) : Call Bool := do
  match ← Call.of (.selectClient clientId) with
  | none => pure false
  | some client =>
    let now ← Call.of .dateNow
    if client.clientSecretExpiresAt.any (· < now) then pure false
    else
      match orNull client.clientSecret with
      | none => pure (clientSecret = "")
      | some stored => pure (hashing.verifyClientSecret clientSecret stored)

def validateClientTokenAuthentication (clientId : String) (clientSecret : Option String) :
    Call (Except OAuthError StoredOAuthClient) := do
  match ← Call.of (.selectClient clientId) with
  | none => pure (.error ⟨.invalidClient, "Unknown client_id"⟩)
  | some client =>
    let authMethod := (orNull client.tokenEndpointAuthMethod).getD "none"
    let requiresSecret := authMethod = "client_secret_post" || authMethod = "client_secret_basic"
    if requiresSecret && (orNull clientSecret).isNone then
      pure (.error ⟨.invalidClient, "client_secret is required for this client"⟩)
    else
      match clientSecret with
      | none => pure (.ok client)
      | some secret =>
        match ← verifyClientCredentials hashing clientId secret with
        | false => pure (.error ⟨.invalidClient, "Invalid client credentials"⟩)
        | true => pure (.ok client)

/-- `client.grant_types?.includes(grantType)`. -/
def StoredOAuthClient.supports (client : StoredOAuthClient) (grantType : String) : Bool :=
  client.grantTypes.any (·.contains grantType)

/-- The random values and expiries of a pair of tokens. -/
structure FreshTokens where
  accessToken : String
  refreshToken : String
  accessTokenId : String
  refreshTokenId : String
  accessExpiresAt : Nat
  refreshExpiresAt : Nat

def generateTokens : Call FreshTokens := do
  let accessToken ← Call.of .randomBytes
  let refreshToken ← Call.of .randomBytes
  let accessTokenId ← Call.of .randomBytes
  let refreshTokenId ← Call.of .randomBytes
  let accessExpiresAt ← calculateExpiry ACCESS_TOKEN_LIFETIME_SECONDS
  let refreshExpiresAt ← calculateExpiry REFRESH_TOKEN_LIFETIME_SECONDS
  pure ⟨accessToken, refreshToken, accessTokenId, refreshTokenId, accessExpiresAt,
    refreshExpiresAt⟩

def FreshTokens.response (fresh : FreshTokens) (scope : Option ScopeText) : OAuthTokenResponse where
  accessToken := fresh.accessToken
  tokenType := "Bearer"
  expiresIn := ACCESS_TOKEN_LIFETIME_SECONDS
  refreshToken := fresh.refreshToken
  scope := scopeOrNull scope

/-- The two rows of an `INSERT INTO oauth_tokens`. -/
def FreshTokens.rows (fresh : FreshTokens) (clientId userId : String)
    (organizationId : Option String) (scope : Option ScopeText) (resource : Option String)
    (accessParent refreshParent : Option String) : List StoredOAuthToken :=
  [{ id := fresh.accessTokenId, tokenType := .access,
     tokenHash := hashing.hashToken fresh.accessToken, clientId, userId, organizationId, scope,
     resource, parentTokenId := accessParent, expiresAt := fresh.accessExpiresAt },
   { id := fresh.refreshTokenId, tokenType := .refresh,
     tokenHash := hashing.hashToken fresh.refreshToken, clientId, userId, organizationId, scope,
     resource, parentTokenId := refreshParent, expiresAt := fresh.refreshExpiresAt }]

def issueTokens (clientId userId : String) (organizationId : Option String)
    (scope : Option ScopeText) (resource : Option String) : Call OAuthTokenResponse := do
  let fresh ← generateTokens
  Call.of (.insertTokens
    (fresh.rows hashing clientId userId organizationId scope resource none none))
  pure (fresh.response scope)

def exchangeAuthorizationCode (params : TokenRequestParams) :
    Call (Except OAuthError OAuthTokenResponse) := do
  match orNull params.code, orNull params.codeVerifier with
  | some code, some codeVerifier =>
    match ← validateClientTokenAuthentication hashing params.clientId params.clientSecret with
    | .error refusal => pure (.error refusal)
    | .ok client =>
      if !client.supports "authorization_code" then
        pure (.error ⟨.unauthorizedClient, "Client does not support authorization_code"⟩)
      else
        match ← Call.of (.useCode code) with
        | none => pure (.error ⟨.invalidGrant, "Invalid or expired authorization code"⟩)
        | some authCode =>
          if authCode.clientId ≠ params.clientId then
            pure (.error ⟨.invalidGrant, "Client ID mismatch"⟩)
          else if some authCode.redirectUri ≠ params.redirectUri then
            pure (.error ⟨.invalidGrant, "Redirect URI mismatch"⟩)
          else if !verifyCodeChallenge hashing codeVerifier authCode.codeChallenge
              authCode.codeChallengeMethod then
            pure (.error ⟨.invalidGrant, "Invalid code_verifier"⟩)
          else
            let response ← issueTokens hashing authCode.clientId authCode.userId
              authCode.organizationId authCode.scope authCode.resource
            pure (.ok response)
  | _, _ => pure (.error ⟨.invalidRequest, "Missing code or code_verifier"⟩)

def refreshAccessToken (params : TokenRequestParams) :
    Call (Except OAuthError OAuthTokenResponse) := do
  match orNull params.refreshToken with
  | none => pure (.error ⟨.invalidRequest, "Missing refresh_token"⟩)
  | some refreshToken =>
    match ← validateClientTokenAuthentication hashing params.clientId params.clientSecret with
    | .error refusal => pure (.error refusal)
    | .ok client =>
      if !client.supports "refresh_token" then
        pure (.error ⟨.unauthorizedClient, "Client does not support refresh_token"⟩)
      else
        match ← Call.of (.selectRefresh (hashing.hashToken refreshToken)) with
        | none => pure (.error ⟨.invalidGrant, "Invalid or expired refresh token"⟩)
        | some oldRefreshToken =>
          if oldRefreshToken.clientId ≠ params.clientId then
            pure (.error ⟨.invalidGrant, "Client ID mismatch"⟩)
          else
            match refreshedScope oldRefreshToken.scope params.scope with
            | .error refusal => pure (.error refusal)
            | .ok scope =>
              let fresh ← generateTokens
              Call.of (.rotate oldRefreshToken.id
                (fresh.rows hashing oldRefreshToken.clientId oldRefreshToken.userId
                  oldRefreshToken.organizationId scope
                  ((orNull params.resource).or oldRefreshToken.resource)
                  (some fresh.refreshTokenId) (some oldRefreshToken.id)))
              pure (.ok (fresh.response scope))

def StoredOAuthToken.authInfo (row : StoredOAuthToken) : AuthInfo where
  userId := row.userId
  organizationId := row.organizationId
  clientId := row.clientId
  scopes := parseScopes row.scope
  expiresAt := row.expiresAt / 1000
  resource := orNull row.resource
  tokenType := .accessToken
  workerId := none

/-- `Number.MAX_SAFE_INTEGER`. -/
def MAX_SAFE_INTEGER : Nat := 2 ^ 53 - 1

def StoredPersonalToken.authInfo (row : StoredPersonalToken) : AuthInfo where
  userId := row.userId
  organizationId := row.organizationId
  clientId := "pat_" ++ toString row.id
  scopes := parseScopes row.scope
  expiresAt := (row.expiresAt.map (· / 1000)).getD MAX_SAFE_INTEGER
  resource := none
  tokenType := .pat
  workerId := row.workerId

def isPersonalToken (token : String) : Bool :=
  "owl_pat_".toList.isPrefixOf token.toList

def verifyAccessToken (token : String) : Call (Option AuthInfo) := do
  if isPersonalToken token then
    let found ← Call.of (.selectPersonal (hashing.hashToken token))
    pure (found.map StoredPersonalToken.authInfo)
  else
    let found ← Call.of (.selectAccess (hashing.hashToken token))
    pure (found.map StoredOAuthToken.authInfo)

def revokeToken (token clientId : String) : Call Bool := do
  let revoked ← Call.of (.revokeToken (hashing.hashToken token) clientId)
  pure (0 < revoked)

def revokeAllUserTokens (userId : String) : Call Nat :=
  Call.of (.revokeUser userId)

def revokeClientForOrganization (clientId organizationId : String) : Call Bool := do
  let (revokedTokens, deletedSessions) ← Call.of (.revokeClient clientId organizationId)
  pure (0 < revokedTokens || 0 < deletedSessions)

def createDeviceAuthorization (clientId : String) (scope : Option ScopeText)
    (resource : Option String) : Call (Except OAuthError DeviceAuthorizationResponse) := do
  match ← Call.of (.selectClient clientId) with
  | none => pure (.error ⟨.invalidClient, "Unknown client_id"⟩)
  | some client =>
    if !client.supports deviceGrant then
      pure (.error ⟨.unauthorizedClient, "Client does not support device_code grant"⟩)
    else
      let deviceCode ← Call.of .randomBytes
      let userCode ← Call.of .randomBytes
      let expiresAt ← calculateExpiry DEVICE_CODE_LIFETIME_SECONDS
      Call.of (.insertDevice {
        deviceCode, userCode, clientId, scope, resource,
        pollInterval := DEVICE_CODE_POLL_INTERVAL_SECONDS, expiresAt })
      let verificationUri := baseUrl ++ "/oauth/device"
      pure (.ok {
        deviceCode, userCode, verificationUri,
        verificationUriComplete := verificationUri ++ "?user_code=" ++ userCode,
        expiresIn := DEVICE_CODE_LIFETIME_SECONDS,
        interval := DEVICE_CODE_POLL_INTERVAL_SECONDS })

def approveDeviceCode (userCode userId : String) (organizationId : Option String)
    (scopeOverride : Option (Option ScopeText)) : Call Bool := do
  let result ← Call.of (.approveDevice userCode userId organizationId scopeOverride)
  pure (0 < result.length)

def denyDeviceCode (userCode : String) : Call Bool := do
  let result ← Call.of (.denyDevice userCode)
  pure (0 < result.length)

/-- The error for a device code that could not be claimed. -/
def deviceRefusal (params : TokenRequestParams) (found : Option StoredDeviceCode) (now : Nat) : OAuthError :=
  match found with
  | none => ⟨.invalidGrant, "Unknown device_code"⟩
  | some deviceCode =>
    if deviceCode.clientId ≠ params.clientId then ⟨.invalidGrant, "Client ID mismatch"⟩
    else if deviceCode.expiresAt ≤ now then ⟨.expiredToken, "Device code has expired"⟩
    else
      match deviceCode.status with
      | .pending => ⟨.authorizationPending, "User has not yet authorized"⟩
      | .denied => ⟨.accessDenied, "User denied the authorization request"⟩
      | _ => ⟨.serverError, "Unexpected device code status"⟩

def exchangeDeviceCode (params : TokenRequestParams) :
    Call (Except OAuthError OAuthTokenResponse) := do
  match orNull params.deviceCode with
  | none => pure (.error ⟨.invalidRequest, "Missing device_code"⟩)
  | some code =>
    match ← validateClientTokenAuthentication hashing params.clientId params.clientSecret with
    | .error refusal => pure (.error refusal)
    | .ok _ =>
      match ← Call.of (.claimDevice code params.clientId) with
      | some deviceCode =>
        match orNull deviceCode.userId with
        | none => pure (.error ⟨.serverError, "Approved device code missing user_id"⟩)
        | some userId =>
          let response ← issueTokens hashing deviceCode.clientId userId
            deviceCode.organizationId deviceCode.scope deviceCode.resource
          pure (.ok response)
      | none =>
        let found ← Call.of (.selectDevice code)
        let now ← Call.of .dateNow
        pure (.error (deviceRefusal params found now))

inductive Command where
  | createAuthorizationCode (params : AuthorizationParams) (userId : String)
      (organizationId : Option String)
  | exchangeAuthorizationCode (params : TokenRequestParams)
  | refreshAccessToken (params : TokenRequestParams)
  | verifyAccessToken (token : String)
  | revokeToken (token clientId : String)
  | revokeAllUserTokens (userId : String)
  | revokeClientForOrganization (clientId organizationId : String)
  | createDeviceAuthorization (clientId : String) (scope : Option ScopeText)
      (resource : Option String)
  | approveDeviceCode (userCode userId : String) (organizationId : Option String)
      (scopeOverride : Option (Option ScopeText))
  | denyDeviceCode (userCode : String)
  | exchangeDeviceCode (params : TokenRequestParams)

inductive Reply where
  | code (code : String)
  | tokens (result : Except OAuthError OAuthTokenResponse)
  | verified (info : Option AuthInfo)
  | answered (done : Bool)
  | count (revoked : Nat)
  | device (result : Except OAuthError DeviceAuthorizationResponse)

def handle : Command → Call Reply
  | .createAuthorizationCode params userId organizationId =>
    createAuthorizationCode params userId organizationId >>= fun code => pure (.code code)
  | .exchangeAuthorizationCode params =>
    exchangeAuthorizationCode hashing params >>= fun result => pure (.tokens result)
  | .refreshAccessToken params =>
    refreshAccessToken hashing params >>= fun result => pure (.tokens result)
  | .verifyAccessToken token =>
    verifyAccessToken hashing token >>= fun info => pure (.verified info)
  | .revokeToken token clientId =>
    revokeToken hashing token clientId >>= fun done => pure (.answered done)
  | .revokeAllUserTokens userId => revokeAllUserTokens userId >>= fun count => pure (.count count)
  | .revokeClientForOrganization clientId organizationId =>
    revokeClientForOrganization clientId organizationId >>= fun done => pure (.answered done)
  | .createDeviceAuthorization clientId scope resource =>
    createDeviceAuthorization baseUrl clientId scope resource >>=
      fun result => pure (.device result)
  | .approveDeviceCode userCode userId organizationId scopeOverride =>
    approveDeviceCode userCode userId organizationId scopeOverride >>=
      fun done => pure (.answered done)
  | .denyDeviceCode userCode => denyDeviceCode userCode >>= fun done => pure (.answered done)
  | .exchangeDeviceCode params =>
    exchangeDeviceCode hashing params >>= fun result => pure (.tokens result)

abbrev Calls := Crowd Command Database Statement.Answer Reply

/-- A database in which nothing has been granted. -/
def Database.ungranted (database : Database) : Prop :=
  database.codes = [] ∧ database.devices = [] ∧ database.tokens = []

instance (database : Database) : Decidable database.ungranted :=
  inferInstanceAs (Decidable (_ ∧ _))

abbrev provider : Machine Calls (CrowdEvent Command Choice) :=
  Crowd.crowds (handle hashing baseUrl) Database.serve Database.ungranted

end Provider

end Lobu.OAuth
