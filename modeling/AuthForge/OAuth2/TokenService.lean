import AuthForge.Base.Prog
import AuthForge.OAuth2.Crypto

/-!
# The token service

`TokenService` issues authorization codes, exchanges them for token pairs and rotates refresh
tokens. Each of its functions is a chain of asynchronous repository calls, so each is a program
over the calls below; the continuation of a call is the callback of the source. Audit records and
log lines are left out: nothing reads them back.
-/

namespace AuthForge.OAuth2

/-! ### Calls the service makes -/

/-- One atomic call of the token service: a repository or port operation, a token drawn from the
random source, or a reading of the clock. -/
inductive RepoCall
  | validateClient (clientId clientSecret : String)
  | saveAuthCode (code : OAuth2AuthCode)
  | consumeAuthCode (code redirectUri : String)
  | purgeExpired
  | getRoles (subject : String)
  | resolve (subject : Subject)
  | getRolesOf (internalUserId : Int)
  | saveTokenPair (access : OAuth2AccessToken) (refresh : OAuth2RefreshToken)
  | atomicRevokeRefreshToken (token : String)
  | getRefreshToken (token : String)
  | revokeTokenFamily (familyId : String)
  | generateSecureToken (bytes : Nat)
  | nowSeconds

@[reducible] def RepoCall.Resp : RepoCall → Type
  | .validateClient _ _ => Bool
  | .saveAuthCode _ => Unit
  | .consumeAuthCode _ _ => Option OAuth2AuthCode
  | .purgeExpired => Unit
  | .getRoles _ => List String
  | .resolve _ => Option Int
  | .getRolesOf _ => List String
  | .saveTokenPair _ _ => Bool
  | .atomicRevokeRefreshToken _ => Option OAuth2RefreshToken
  | .getRefreshToken _ => Option OAuth2RefreshToken
  | .revokeTokenFamily _ => Unit
  | .generateSecureToken _ => String
  | .nowSeconds => Int

structure TokenResponse where
  accessToken : String
  tokenType : String := "Bearer"
  expiresIn : Int
  refreshToken : String
  roles : Option (List String) := none
  idToken : Option String := none
  deriving DecidableEq, Repr

inductive Reply
  | code (ok : Bool) (code error : String)
  | error (error description : String)
  | tokens (response : TokenResponse)
  /-- An exception left the callback and nothing was answered. -/
  | thrown (what : String)
  | swept
  deriving DecidableEq, Repr

abbrev RepoProg := Prog RepoCall RepoCall.Resp Reply
abbrev RepoAnswer := Answer RepoCall RepoCall.Resp

/-- The configured service: ports, lifetimes in seconds, issuer, and the signer of an initialised
JWK manager. The ports of the roles are by default those that the plugin wires: a role provider with
the lookup by subject, and no subject resolver. -/
structure TokenService where
  crypto : CryptoProvider
  authCodeTtl : Int
  accessTokenTtl : Int
  refreshTokenTtl : Int
  issuer : String
  signJwt : Option (IdTokenClaims → String) := none
  hasRoleProvider : Bool := true
  supportsSubjectLookup : Bool := true
  hasSubjectResolver : Bool := false

def knownService : TokenService where
  crypto := knownCrypto
  authCodeTtl := 600
  accessTokenTtl := 3600
  refreshTokenTtl := 2592000
  issuer := "https://auth.example.com"

namespace TokenService

variable (svc : TokenService)

def makeError (error desc : String) : Reply := .error error desc

/-! ### Scopes and id_token claims -/

/-- The tokens of a scope list that `scopeContains` compares: leading blanks and tabs are skipped
before each token, and a token ends at the next blank. -/
def scopeTokens : List Char → List Char → List (List Char)
  | tok, [] => if tok = [] then [] else [tok.reverse]
  | [], c :: cs => if c = ' ' ∨ c = '\t' then scopeTokens [] cs else scopeTokens [c] cs
  | t :: tok, c :: cs =>
    if c = ' ' then (t :: tok).reverse :: scopeTokens [] cs else scopeTokens (c :: t :: tok) cs

def scopeContains (scopes required : String) : Bool :=
  required = "" || (scopeTokens [] scopes.toList).contains required.toList

def amrArray (amr : String) : List String :=
  ((amr.toList.splitOn ' ').filter (· ≠ [])).map String.ofList

def codeIdTokenClaims (authCode : OAuth2AuthCode) (now : Int) : IdTokenClaims :=
  let amr := amrArray authCode.amr
  { iss := svc.issuer
    sub := authCode.userId
    aud := authCode.clientId
    iat := now
    exp := now + svc.accessTokenTtl
    nonce := if authCode.nonce = "" then none else some authCode.nonce
    authTime := if authCode.authTime > 0 then some authCode.authTime else none
    amr := if amr = [] then none else some amr
    acr := if amr = [] then none else some (if "mfa" ∈ amr then "2" else "1") }

def refreshIdTokenClaims (rt : OAuth2RefreshToken) (now : Int) : IdTokenClaims :=
  { iss := svc.issuer
    sub := rt.userId
    aud := rt.clientId
    iat := now
    exp := now + svc.accessTokenTtl }

/-- The `id_token` member: present when a key is loaded, the scope has `openid` and signing
succeeds. -/
def idToken (scope : String) (claims : IdTokenClaims) : Option String :=
  match svc.signJwt with
  | none => none
  | some sign =>
    if scopeContains scope "openid" then
      (if sign claims = "" then none else some (sign claims))
    else none

/-! ### Records of a new pair -/

def newAccessToken (tokenStr clientId userId scope : String) (now : Int) : OAuth2AccessToken :=
  { token := hashToken svc.crypto tokenStr
    clientId, userId, scope
    issuedAt := now
    expiresAt := now + svc.accessTokenTtl
    issuer := svc.issuer }

def newRefreshToken (refreshTokenStr tokenStr clientId userId scope familyId : String)
    (now : Int) : OAuth2RefreshToken :=
  { token := hashToken svc.crypto refreshTokenStr
    accessToken := hashToken svc.crypto tokenStr
    clientId, userId, scope
    expiresAt := now + svc.refreshTokenTtl
    familyId }

/-! ### Roles -/

def resolveRoles (subject : String) (cb : List String → RepoProg) : RepoProg :=
  if svc.hasRoleProvider = false then cb []
  else if svc.supportsSubjectLookup = true then .call (.getRoles subject) cb
  else if svc.hasSubjectResolver = false then cb []
  else
    match Subject.make subject with
    | .error what => .ret (.thrown what)
    | .ok subjectValue =>
      .call (.resolve subjectValue) fun internalUserId =>
      match internalUserId with
      | none => cb []
      | some userId => .call (.getRolesOf userId) cb

/-! ### The three flows -/

def newAuthCode (clientId subject scope redirectUri codeChallenge codeChallengeMethod nonce code :
    String) (now authTime : Int) (amr : String) : OAuth2AuthCode :=
  { code := hashToken svc.crypto code
    clientId
    userId := subject
    scope, redirectUri, codeChallenge, codeChallengeMethod, nonce
    expiresAt := now + svc.authCodeTtl
    authTime, amr }

def generateAuthorizationCode (clientId subject scope redirectUri codeChallenge
    codeChallengeMethod nonce : String) (authTime : Int) (amr : String) : RepoProg :=
  .call (.generateSecureToken 32) fun code =>
  .call .nowSeconds fun now =>
  .call (.saveAuthCode (svc.newAuthCode clientId subject scope redirectUri codeChallenge
    codeChallengeMethod nonce code now authTime amr)) fun _ =>
  .ret (.code true code "")

/-- The PKCE step of the exchange: the reply that ends the request, if it ends here. -/
def pkceFailure (authCode : OAuth2AuthCode) (codeVerifier : String) : Option Reply :=
  if authCode.codeChallenge = "" then none
  else if codeVerifier = "" then some (makeError "invalid_grant" "PKCE validation failed")
  else
    match validatePkceCodeVerifier svc.crypto codeVerifier authCode.codeChallenge
      authCode.codeChallengeMethod with
    | .ok true => none
    | .ok false => some (makeError "invalid_grant" "PKCE validation failed")
    | .error what => some (.thrown what)

def exchangeCodeForToken (code clientId clientSecret redirectUri codeVerifier : String) :
    RepoProg :=
  .call (.validateClient clientId clientSecret) fun isValid =>
  if isValid = false then .ret (makeError "invalid_client" "Client authentication failed") else
  .call (.consumeAuthCode (hashToken svc.crypto code) redirectUri) fun authCodeOpt =>
  match authCodeOpt with
  | none => .ret (makeError "invalid_grant" "Invalid authorization code")
  | some authCode =>
    if authCode.clientId ≠ clientId then .ret (makeError "invalid_client" "Client ID mismatch")
    else
    match svc.pkceFailure authCode codeVerifier with
    | some reply => .ret reply
    | none =>
      .call .nowSeconds fun now =>
      if now > authCode.expiresAt then .ret (makeError "invalid_grant" "Code expired") else
      svc.resolveRoles authCode.userId fun roles =>
      .call (.generateSecureToken 32) fun tokenStr =>
      .call (.generateSecureToken 32) fun refreshTokenStr =>
      .call (.generateSecureToken 16) fun familyId =>
      .call (.saveTokenPair
        (svc.newAccessToken tokenStr authCode.clientId authCode.userId authCode.scope now)
        (svc.newRefreshToken refreshTokenStr tokenStr authCode.clientId authCode.userId
          authCode.scope familyId now)) fun ok =>
      if ok = false then .ret (makeError "server_error" "Failed to persist token pair") else
      .ret (.tokens
        { accessToken := tokenStr
          expiresIn := svc.accessTokenTtl
          refreshToken := refreshTokenStr
          roles := some roles
          idToken := svc.idToken authCode.scope (svc.codeIdTokenClaims authCode now) })

def refreshAccessToken (refreshTokenStr clientId : String) : RepoProg :=
  .call (.atomicRevokeRefreshToken (hashToken svc.crypto refreshTokenStr)) fun storedRt =>
  match storedRt with
  | none =>
    .call (.getRefreshToken (hashToken svc.crypto refreshTokenStr)) fun maybeRevoked =>
    match maybeRevoked with
    | none => .ret (makeError "invalid_grant" "Invalid or revoked refresh token")
    | some rt =>
      if rt.revoked = true ∧ rt.familyId ≠ "" then
        .call (.revokeTokenFamily rt.familyId) fun _ =>
        .ret (makeError "invalid_grant" "Token reuse detected")
      else .ret (makeError "invalid_grant" "Invalid or revoked refresh token")
  | some rt =>
    if rt.clientId ≠ clientId then .ret (makeError "invalid_grant" "Client mismatch") else
    .call .nowSeconds fun now =>
    if now > rt.expiresAt then .ret (makeError "invalid_grant" "Token expired") else
    .call (.generateSecureToken 32) fun newTokenStr =>
    .call (.generateSecureToken 32) fun newRefreshTokenStr =>
    .call (.saveTokenPair
      (svc.newAccessToken newTokenStr rt.clientId rt.userId rt.scope now)
      (svc.newRefreshToken newRefreshTokenStr newTokenStr rt.clientId rt.userId rt.scope
        rt.familyId now)) fun ok =>
    if ok = false then .ret (makeError "server_error" "Failed to persist token pair") else
    .ret (.tokens
      { accessToken := newTokenStr
        expiresIn := svc.accessTokenTtl
        refreshToken := newRefreshTokenStr
        idToken := svc.idToken rt.scope (svc.refreshIdTokenClaims rt now) })

/-- The check of `validateAccessToken` on what the repository found, `now` being read after that. -/
def checkAccessToken (now : Int) : Option OAuth2AccessToken → Option OAuth2AccessToken
  | none => none
  | some t => if t.revoked = true then none else if now > t.expiresAt then none else some t

/-- `validateAccessToken` over a repository that finds tokens by `getAccessToken`. -/
def validateAccessToken (getAccessToken : String → Option OAuth2AccessToken) (now : Int)
    (token : String) : Option OAuth2AccessToken :=
  checkAccessToken now (getAccessToken (hashToken svc.crypto token))

theorem checkAccessToken_eq_some_iff {now : Int} {found : Option OAuth2AccessToken}
    {t : OAuth2AccessToken} :
    checkAccessToken now found = some t ↔ found = some t ∧ t.revoked = false ∧ now ≤ t.expiresAt := by
  cases found with
  | none => simp [checkAccessToken]
  | some u =>
    simp only [checkAccessToken]
    constructor
    · intro h
      split at h
      · cases h
      split at h
      · cases h
      obtain rfl := Option.some.inj h
      rename_i hrevoked hexpired
      exact ⟨rfl, by simpa using hrevoked, by omega⟩
    · intro h
      obtain ⟨hu, hrevoked, hexpires⟩ := h
      obtain rfl := Option.some.inj hu
      rw [if_neg (by simp [hrevoked]), if_neg (by omega)]

end TokenService

/-! ### Requests -/

structure CodeRequest where
  clientId : String
  subject : String
  scope : String
  redirectUri : String
  codeChallenge : String := ""
  codeChallengeMethod : String := ""
  nonce : String := ""
  authTime : Int := 0
  amr : String := ""
  deriving DecidableEq, Repr

structure ExchangeRequest where
  code : String
  clientId : String
  clientSecret : String := ""
  redirectUri : String := ""
  codeVerifier : String := ""
  deriving DecidableEq, Repr

structure RefreshRequest where
  refreshToken : String
  clientId : String
  deriving DecidableEq, Repr

inductive Request
  | generate (r : CodeRequest)
  | exchange (r : ExchangeRequest)
  | refresh (r : RefreshRequest)
  | purgeExpired
  deriving DecidableEq, Repr

namespace TokenService

variable (svc : TokenService)

def program : Request → RepoProg
  | .generate r =>
    svc.generateAuthorizationCode r.clientId r.subject r.scope r.redirectUri r.codeChallenge
      r.codeChallengeMethod r.nonce r.authTime r.amr
  | .exchange r =>
    svc.exchangeCodeForToken r.code r.clientId r.clientSecret r.redirectUri r.codeVerifier
  | .refresh r => svc.refreshAccessToken r.refreshToken r.clientId
  | .purgeExpired => .call .purgeExpired fun _ => .ret .swept

def authCodeOf (r : CodeRequest) (code : String) (now : Int) : OAuth2AuthCode :=
  svc.newAuthCode r.clientId r.subject r.scope r.redirectUri r.codeChallenge
    r.codeChallengeMethod r.nonce code now r.authTime r.amr

end TokenService

end AuthForge.OAuth2
