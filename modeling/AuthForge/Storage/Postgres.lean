import AuthForge.Base.Dict
import AuthForge.OAuth2.Repository

/-!
# The PostgreSQL repositories

`PostgresTokenRepository` over the tables `oauth2_access_tokens` and `oauth2_refresh_tokens`, both
with primary key `token`, `PostgresGrantRepository` over `oauth2_codes` with primary key `code`, and
`PostgresClientRepository` over the clients with their scopes. A failing statement is the
environment's choice; an insert also fails on a key that exists. A `NULL` text column reads as the
empty string, and the reader and the master client see one database.
-/

namespace AuthForge.Storage.Postgres

open OAuth2

structure TokenTables where
  oauth2AccessTokens : Dict String OAuth2AccessToken
  oauth2RefreshTokens : Dict String OAuth2RefreshToken

def accessTokenRow (now : Int) (access : OAuth2AccessToken) : OAuth2AccessToken :=
  { token := access.token
    clientId := access.clientId
    userId := access.userId
    scope := access.scope
    expiresAt := access.expiresAt
    revoked := access.revoked
    issuer := access.issuer
    issuedAt := now
    notBefore := now }

def refreshTokenRow (refresh : OAuth2RefreshToken) : OAuth2RefreshToken :=
  { token := refresh.token
    accessToken := refresh.accessToken
    clientId := refresh.clientId
    userId := refresh.userId
    scope := refresh.scope
    expiresAt := refresh.expiresAt
    revoked := refresh.revoked
    familyId := refresh.familyId }

/-- Both inserts in one transaction; `false` when it is rolled back. -/
def saveTokenPair (env : Env) (access : OAuth2AccessToken) (refresh : OAuth2RefreshToken)
    (s : TokenTables) : Bool × TokenTables :=
  if env.fails = true ∨ access.token ∈ s.oauth2AccessTokens ∨
      refresh.token ∈ s.oauth2RefreshTokens then
    (false, s)
  else
    (true,
      { oauth2AccessTokens :=
          s.oauth2AccessTokens.insert access.token (accessTokenRow env.now access)
        oauth2RefreshTokens :=
          s.oauth2RefreshTokens.insert refresh.token (refreshTokenRow refresh) })

/-- `UPDATE … SET revoked = true WHERE token = $1 AND revoked = false RETURNING …`. -/
def atomicRevokeRefreshToken (env : Env) (token : String) (s : TokenTables) :
    Option OAuth2RefreshToken × TokenTables :=
  if env.fails = true then (none, s)
  else
    match s.oauth2RefreshTokens.lookup token with
    | none => (none, s)
    | some row =>
      if row.revoked = true then (none, s)
      else
        (some (refreshTokenRow { row with revoked := true }),
          { s with oauth2RefreshTokens :=
              s.oauth2RefreshTokens.insert token { row with revoked := true } })

def getRefreshToken (env : Env) (token : String) (s : TokenTables) : Option OAuth2RefreshToken :=
  if env.fails = true then none else (s.oauth2RefreshTokens.lookup token).map refreshTokenRow

/-- The two updates of a family revocation. The callback runs in any case; when the first update
fails nothing is revoked, and the second one revokes the referenced access tokens. -/
def revokeTokenFamily (env : Env) (familyId : String) (s : TokenTables) : TokenTables :=
  if familyId = "" ∨ env.fails = true then s
  else
    let refreshTokens := s.oauth2RefreshTokens.mapValues fun _ rt =>
      if rt.familyId = familyId then { rt with revoked := true } else rt
    let accessTokens :=
      if env.cascadeFails = true then s.oauth2AccessTokens
      else s.oauth2AccessTokens.mapValues fun k token =>
        if refreshTokens.anyValue fun rt => rt.familyId = familyId ∧ rt.accessToken = k then
          { token with revoked := true }
        else token
    ⟨accessTokens, refreshTokens⟩

def tokenRepository : TokenRepository where
  State := TokenTables
  saveTokenPair := saveTokenPair
  atomicRevokeRefreshToken := atomicRevokeRefreshToken
  getRefreshToken := getRefreshToken
  revokeTokenFamily := revokeTokenFamily

/-! ### Single access tokens -/

/-- Which statements of a call fail: the one on the access tokens, the update with the audit
columns, the one without them, and the one on the refresh tokens. -/
structure CallFaults where
  access : Bool := false
  audit : Bool := false
  simple : Bool := false
  refresh : Bool := false
  deriving DecidableEq

def saveAccessToken (now : Int) (faults : CallFaults) (token : OAuth2AccessToken)
    (s : TokenTables) : TokenTables :=
  if faults.access = true ∨ token.token ∈ s.oauth2AccessTokens then s
  else
    { s with oauth2AccessTokens :=
        s.oauth2AccessTokens.insert token.token (accessTokenRow now token) }

def findAccessToken (faults : CallFaults) (token : String) (s : TokenTables) :
    Option OAuth2AccessToken :=
  if faults.access then none else s.oauth2AccessTokens.lookup token

/-- The columns that `getAccessToken` reads. -/
def getAccessToken (faults : CallFaults) (token : String) (s : TokenTables) :
    Option OAuth2AccessToken :=
  (findAccessToken faults token s).map fun row =>
    { token := row.token
      clientId := row.clientId
      userId := row.userId
      scope := row.scope
      expiresAt := row.expiresAt
      revoked := row.revoked }

def findRefreshToken (faults : CallFaults) (token : String) (s : TokenTables) :
    Option OAuth2RefreshToken :=
  if faults.refresh then none else s.oauth2RefreshTokens.lookup token

/-- A token that the access tokens do not have, or that cannot be looked up there, is looked up
among the refresh tokens. -/
def introspectToken (now : Int) (faults : CallFaults) (token : String) (s : TokenTables) :
    TokenIntrospection :=
  match findAccessToken faults token s with
  | some row =>
    if row.revoked = true ∨ row.expiresAt < now then {}
    else
      { active := true
        clientId := row.clientId
        exp := row.expiresAt
        iat := row.issuedAt
        nbf := row.notBefore
        sub := row.userId
        aud := row.audience
        iss := row.issuer
        scope := row.scope }
  | none =>
    match findRefreshToken faults token s with
    | none => {}
    | some rt =>
      if rt.revoked = true ∨ rt.expiresAt < now then {}
      else
        { active := true
          clientId := rt.clientId
          exp := rt.expiresAt
          iat := now
          nbf := now
          sub := rt.userId
          scope := rt.scope }

/-- The updates of a revocation with the given columns: the access token and, when it can be looked
up, a refresh token of the same name. -/
def revokeBoth (faults : CallFaults) (token : String)
    (access : OAuth2AccessToken → OAuth2AccessToken)
    (refresh : OAuth2RefreshToken → OAuth2RefreshToken) (s : TokenTables) : TokenTables where
  oauth2AccessTokens :=
    s.oauth2AccessTokens.mapValues fun k row => if k = token then access row else row
  oauth2RefreshTokens :=
    if faults.refresh then s.oauth2RefreshTokens
    else s.oauth2RefreshTokens.mapValues fun k rt => if k = token then refresh rt else rt

/-- The caller is told that the token is revoked in any case. -/
def revokeAccessToken (now : Int) (faults : CallFaults) (token revokedBy : String)
    (s : TokenTables) : TokenTables :=
  match findAccessToken faults token s with
  | none => s
  | some _ =>
    if faults.audit = false then
      revokeBoth faults token
        (fun row => { row with revoked := true, revokedAt := now, revokedBy })
        (fun rt => { rt with revoked := true, revokedAt := now, revokedBy }) s
    else if faults.simple = false then
      revokeBoth faults token (fun row => { row with revoked := true })
        (fun rt => { rt with revoked := true }) s
    else s

/-! ### Single refresh tokens and cleanup -/

def saveRefreshToken (faults : CallFaults) (token : OAuth2RefreshToken) (s : TokenTables) :
    TokenTables :=
  if faults.refresh = true ∨ token.token ∈ s.oauth2RefreshTokens then s
  else
    { s with oauth2RefreshTokens :=
        s.oauth2RefreshTokens.insert token.token (refreshTokenRow token) }

def revokeRefreshToken (faults : CallFaults) (token : String) (s : TokenTables) : TokenTables :=
  if faults.refresh then s
  else
    { s with oauth2RefreshTokens := s.oauth2RefreshTokens.mapValues fun k rt =>
        if k = token then { rt with revoked := true } else rt }

def incrementIntrospectCount (faults : CallFaults) (token : String) (s : TokenTables) :
    TokenTables :=
  match findAccessToken faults token s with
  | none => s
  | some found =>
    if faults.simple then s
    else
      { s with oauth2AccessTokens := s.oauth2AccessTokens.mapValues fun k row =>
          if k = token then { row with introspectCount := found.introspectCount + 1 } else row }

/-- `archive_expired_tokens(30)` deletes what has expired or was revoked 30 days ago; `revoked_at`
is 0 where it is `NULL`. -/
def archivable (now : Int) (row : OAuth2AccessToken) : Bool :=
  let cutoff := now - 30 * 86400
  row.expiresAt < cutoff || (row.revoked && row.revokedAt ≠ 0 && row.revokedAt < cutoff)

/-- The two sweeps and the archival, each of which may fail. -/
def purgeExpired (now : Int) (faults : CallFaults) (s : TokenTables) : TokenTables where
  oauth2AccessTokens :=
    let swept :=
      if faults.access then s.oauth2AccessTokens
      else s.oauth2AccessTokens.keepValues fun row => ¬row.expiresAt < now
    if faults.simple then swept else swept.keepValues fun row => !archivable now row
  oauth2RefreshTokens :=
    if faults.refresh then s.oauth2RefreshTokens
    else s.oauth2RefreshTokens.keepValues fun rt => ¬rt.expiresAt < now

/-! ### Revocation by owner -/

/-- `UPDATE oauth2_access_tokens SET revoked = true` on the rows that meet the condition. -/
def revokeAccessWhere (owned : OAuth2AccessToken → Bool) (s : TokenTables) : TokenTables :=
  { s with oauth2AccessTokens := s.oauth2AccessTokens.mapValues fun _ row =>
      if owned row then { row with revoked := true } else row }

def revokeRefreshWhere (owned : OAuth2RefreshToken → Bool) (s : TokenTables) : TokenTables :=
  { s with oauth2RefreshTokens := s.oauth2RefreshTokens.mapValues fun _ rt =>
      if owned rt then { rt with revoked := true } else rt }

/-! ### What the statements do to the refresh token table -/

theorem saveTokenPair_refreshTokens {env : Env} {access : OAuth2AccessToken}
    {refresh row : OAuth2RefreshToken} {s : TokenTables} {k : String}
    (h : (saveTokenPair env access refresh s).2.oauth2RefreshTokens.lookup k = some row) :
    row = refreshTokenRow refresh ∨ s.oauth2RefreshTokens.lookup k = some row := by
  unfold saveTokenPair at h
  split at h
  · exact .inr h
  · by_cases hk : k = refresh.token
    · subst hk
      simp only [AList.lookup_insert] at h
      exact .inl (Option.some.inj h).symm
    · simp only [AList.lookup_insert_ne hk] at h
      exact .inr h

theorem atomicRevokeRefreshToken_lost {env : Env} {k : String} {s : TokenTables}
    (h : (atomicRevokeRefreshToken env k s).1 = none) :
    (atomicRevokeRefreshToken env k s).2 = s := by
  unfold atomicRevokeRefreshToken at h ⊢
  split
  · rfl
  rename_i hfails
  rw [if_neg hfails] at h
  cases hlookup : s.oauth2RefreshTokens.lookup k with
  | none => rfl
  | some row =>
    simp only [hlookup] at h ⊢
    by_cases hrevoked : row.revoked = true
    · rw [if_pos hrevoked]
    · rw [if_neg hrevoked] at h
      cases h

theorem atomicRevokeRefreshToken_won {env : Env} {k : String} {s : TokenTables} {rt : OAuth2RefreshToken}
    (h : (atomicRevokeRefreshToken env k s).1 = some rt) :
    ∃ it, s.oauth2RefreshTokens.lookup k = some it ∧ it.revoked = false ∧
      rt = refreshTokenRow { it with revoked := true } ∧
      (atomicRevokeRefreshToken env k s).2 =
        { s with oauth2RefreshTokens :=
            s.oauth2RefreshTokens.insert k { it with revoked := true } } := by
  unfold atomicRevokeRefreshToken at h ⊢
  split at h
  · cases h
  rename_i hfails
  rw [if_neg hfails]
  cases hlookup : s.oauth2RefreshTokens.lookup k with
  | none => simp [hlookup] at h
  | some row =>
    simp only [hlookup] at h ⊢
    by_cases hrevoked : row.revoked = true
    · simp [hrevoked] at h
    · rw [if_neg hrevoked] at h ⊢
      exact ⟨row, rfl, by simpa using hrevoked, (Option.some.inj h).symm, rfl⟩

theorem atomicRevokeRefreshToken_eq_some {env : Env} {token : String} {s : TokenTables}
    {rt : OAuth2RefreshToken} (h : (atomicRevokeRefreshToken env token s).1 = some rt) :
    ∃ row, s.oauth2RefreshTokens.lookup token = some row ∧ row.revoked = false ∧
      rt.familyId = row.familyId := by
  obtain ⟨row, hlookup, hlive, rfl, -⟩ := atomicRevokeRefreshToken_won h
  exact ⟨row, hlookup, hlive, rfl⟩

theorem atomicRevokeRefreshToken_refreshTokens {env : Env} {token k : String} {s : TokenTables}
    {row : OAuth2RefreshToken}
    (h : (atomicRevokeRefreshToken env token s).2.oauth2RefreshTokens.lookup k = some row) :
    ∃ row₀, s.oauth2RefreshTokens.lookup k = some row₀ ∧ row.familyId = row₀.familyId ∧
      (row₀.revoked = true → row.revoked = true) := by
  unfold atomicRevokeRefreshToken at h
  split at h
  · exact ⟨row, h, rfl, id⟩
  · cases hlookup : s.oauth2RefreshTokens.lookup token with
    | none =>
      simp only [hlookup] at h
      exact ⟨row, h, rfl, id⟩
    | some row₀ =>
      simp only [hlookup] at h
      by_cases hrevoked : row₀.revoked = true
      · rw [if_pos hrevoked] at h
        exact ⟨row, h, rfl, id⟩
      · rw [if_neg hrevoked] at h
        by_cases hk : k = token
        · subst hk
          simp only [AList.lookup_insert] at h
          obtain rfl := Option.some.inj h
          exact ⟨row₀, hlookup, rfl, fun _ => rfl⟩
        · simp only [AList.lookup_insert_ne hk] at h
          exact ⟨row, h, rfl, id⟩

/-- A family revocation whose first update succeeds revokes the whole family; it never un-revokes
a row. -/
theorem revokeTokenFamily_refreshTokens {env : Env} {familyId k : String} {s : TokenTables}
    {row : OAuth2RefreshToken}
    (h : (revokeTokenFamily env familyId s).oauth2RefreshTokens.lookup k = some row) :
    ∃ row₀, s.oauth2RefreshTokens.lookup k = some row₀ ∧ row.familyId = row₀.familyId ∧
      (row₀.revoked = true → row.revoked = true) ∧
      (familyId ≠ "" → env.fails = false → row.familyId = familyId → row.revoked = true) := by
  unfold revokeTokenFamily at h
  split at h
  · rename_i hskip
    refine ⟨row, h, rfl, id, ?_⟩
    intro hne hfails
    rcases hskip with rfl | hskip
    · exact absurd rfl hne
    · rw [hfails] at hskip
      cases hskip
  · simp only [Dict.lookup_mapValues, Option.map_eq_some_iff] at h
    obtain ⟨row₀, hlookup, rfl⟩ := h
    refine ⟨row₀, hlookup, ?_, ?_, ?_⟩
    · split <;> rfl
    · intro hrevoked
      split
      · rfl
      · exact hrevoked
    · intro _ _ hfamily
      split
      · rfl
      · rename_i hne
        rw [if_neg hne] at hfamily
        exact absurd hfamily hne

/-! ### Grants -/

/-- A row of `oauth2_codes`. The table has no column for the nonce. -/
structure Oauth2Codes where
  code : String
  clientId : String
  userId : Option String
  scope : Option String
  redirectUri : Option String
  codeChallenge : Option String
  codeChallengeMethod : Option String
  expiresAt : Int
  used : Bool
  authTime : Option Int
  amr : Option String
  deriving DecidableEq, Repr

abbrev CodeTable := Dict String Oauth2Codes

/-- The row that is inserted: no challenge means no method either, and authentication time and
methods are written only when present. -/
def codeRow (code : OAuth2AuthCode) : Oauth2Codes where
  code := code.code
  clientId := code.clientId
  userId := some code.userId
  scope := some code.scope
  redirectUri := some code.redirectUri
  codeChallenge := if code.codeChallenge = "" then none else some code.codeChallenge
  codeChallengeMethod := if code.codeChallenge = "" then none else some code.codeChallengeMethod
  expiresAt := code.expiresAt
  used := code.used
  authTime := if code.authTime > 0 then some code.authTime else none
  amr := if code.amr = "" then none else some code.amr

/-- The record that both readers build from a row; the nonce keeps its default. -/
def Oauth2Codes.toAuthCode (row : Oauth2Codes) (used : Bool) : OAuth2AuthCode where
  code := row.code
  clientId := row.clientId
  userId := row.userId.getD ""
  scope := row.scope.getD ""
  redirectUri := row.redirectUri.getD ""
  codeChallenge := row.codeChallenge.getD ""
  codeChallengeMethod := row.codeChallengeMethod.getD ""
  nonce := ""
  expiresAt := row.expiresAt
  used := used
  authTime := row.authTime.getD 0
  amr := row.amr.getD ""

def saveAuthCode (env : Env) (code : OAuth2AuthCode) (codes : CodeTable) : CodeTable :=
  if env.fails = true ∨ code.code ∈ codes then codes else codes.insert code.code (codeRow code)

def getAuthCode (env : Env) (code : String) (codes : CodeTable) : Option OAuth2AuthCode :=
  if env.fails then none else (codes.lookup code).map fun row => row.toAuthCode row.used

/-- `UPDATE … SET used = true WHERE code = $1 AND used = false RETURNING …`. The redirect URI is
compared afterwards, so a mismatch burns the code. -/
def consumeAuthCode (env : Env) (code redirectUri : String) (codes : CodeTable) :
    Option OAuth2AuthCode × CodeTable :=
  if env.fails then (none, codes)
  else
    match codes.lookup code with
    | none => (none, codes)
    | some row =>
      if row.used = true then (none, codes)
      else
        let storedRedirectUri := row.redirectUri.getD ""
        (if storedRedirectUri ≠ "" ∧ redirectUri ≠ storedRedirectUri then none
          else some (row.toAuthCode true),
          codes.insert code { row with used := true })

def purgeExpiredCodes (env : Env) (codes : CodeTable) : CodeTable :=
  if env.fails then codes else codes.keepValues fun row => ¬row.expiresAt < env.now

def grantRepository : GrantRepository where
  State := CodeTable
  saveAuthCode := saveAuthCode
  consumeAuthCode := consumeAuthCode
  purgeExpired := purgeExpiredCodes

theorem lookup_saveAuthCode {env : Env} {code : OAuth2AuthCode} {codes : CodeTable}
    (hfails : env.fails = false) (hfresh : code.code ∉ codes) :
    (saveAuthCode env code codes).lookup code.code = some (codeRow code) := by
  rw [saveAuthCode, if_neg (by simp [hfails, hfresh]), AList.lookup_insert]

theorem consumeAuthCode_of_unused {env : Env} {code redirectUri : String} {codes : CodeTable}
    {row : Oauth2Codes} (hfails : env.fails = false) (hrow : codes.lookup code = some row)
    (hunused : row.used = false) (huri : redirectUri = row.redirectUri.getD "") :
    (consumeAuthCode env code redirectUri codes).1 = some (row.toAuthCode true) := by
  simp [consumeAuthCode, hfails, hrow, hunused, huri]

theorem consumeAuthCode_eq_some {env : Env} {code redirectUri : String} {codes : CodeTable}
    {c : OAuth2AuthCode} (h : (consumeAuthCode env code redirectUri codes).1 = some c) :
    ∃ row, codes.lookup code = some row ∧ row.used = false ∧ c = row.toAuthCode true := by
  unfold consumeAuthCode at h
  split at h
  · cases h
  split at h
  · cases h
  · rename_i row hrow
    split at h
    · cases h
    · rename_i hunused
      simp only at h
      split at h
      · cases h
      · exact ⟨row, hrow, by simpa using hunused, (Option.some.inj h).symm⟩

def recorded (codes : CodeTable) (code : String) : Option (String × String) :=
  (codes.lookup code).map fun row => (row.userId.getD "", row.amr.getD "")

theorem getD_amr_codeRow {c : OAuth2AuthCode} : (codeRow c).amr.getD "" = c.amr := by
  simp only [codeRow]
  split
  · rename_i hempty
    exact hempty.symm
  · rfl

theorem recorded_saveAuthCode {env : Env} {c : OAuth2AuthCode} {codes : CodeTable} {k : String}
    {v : String × String} (h : recorded (saveAuthCode env c codes) k = some v) :
    recorded codes k = some v ∨ (k = c.code ∧ v = (c.userId, c.amr)) := by
  unfold saveAuthCode at h
  split at h
  · exact .inl h
  rw [recorded] at h
  by_cases hk : k = c.code
  · subst hk
    rw [AList.lookup_insert] at h
    have hrow : (c.userId, (codeRow c).amr.getD "") = v := Option.some.inj h
    rw [getD_amr_codeRow] at hrow
    exact .inr ⟨rfl, hrow.symm⟩
  · rw [AList.lookup_insert_ne hk] at h
    exact .inl h

theorem recorded_of_consumed {env : Env} {code redirectUri : String} {codes : CodeTable}
    {c : OAuth2AuthCode} (h : (consumeAuthCode env code redirectUri codes).1 = some c) :
    recorded codes code = some (c.userId, c.amr) := by
  obtain ⟨row, hrow, -, rfl⟩ := consumeAuthCode_eq_some h
  rw [recorded, hrow]
  rfl

theorem recorded_consumeAuthCode {env : Env} {code redirectUri k : String} {codes : CodeTable}
    {v : String × String} (h : recorded (consumeAuthCode env code redirectUri codes).2 k = some v) :
    recorded codes k = some v := by
  unfold consumeAuthCode at h
  split at h
  · exact h
  split at h
  · exact h
  · rename_i row hrow
    split at h
    · exact h
    · rw [recorded] at h
      by_cases hk : k = code
      · subst hk
        rw [AList.lookup_insert] at h
        rw [recorded, hrow]
        exact h
      · rwa [AList.lookup_insert_ne hk] at h

theorem recorded_purgeExpiredCodes {env : Env} {k : String} {codes : CodeTable}
    {v : String × String} (h : recorded (purgeExpiredCodes env codes) k = some v) :
    recorded codes k = some v := by
  unfold purgeExpiredCodes at h
  split at h
  · exact h
  · rw [recorded, Dict.lookup_keepValues] at h
    obtain ⟨row, hrow, rfl⟩ := Option.map_eq_some_iff.mp h
    rw [recorded, (Option.filter_eq_some_iff.mp hrow).1]
    rfl

def codeLedger : CodeLedger grantRepository where
  stored := recorded
  save h := recorded_saveAuthCode h
  consumed h := .inr (recorded_of_consumed h)
  consume h := recorded_consumeAuthCode h
  purge h := recorded_purgeExpiredCodes h

/-! ### Clients -/

abbrev Clients := Dict String OAuth2Client

def getClient (env : Env) (clientId : String) (clients : Clients) : Option OAuth2Client :=
  if env.fails then none else clients.lookup clientId

def validateClient (sha256Hex : String → String) (env : Env) (clientId clientSecret : String)
    (clients : Clients) : Bool :=
  match if env.fails then none else clients.lookup clientId with
  | none => false
  | some client =>
    match client.clientType with
    | .PUBLIC => true
    | .CONFIDENTIAL =>
      clientSecret ≠ "" &&
        (sha256Hex (clientSecret ++ client.salt)).toList.map Char.toLower =
          client.clientSecretHash.toList.map Char.toLower

def clientRepository (sha256Hex : String → String) : ClientRepository where
  State := Clients
  getClient := getClient
  validateClient := validateClient sha256Hex

end AuthForge.Storage.Postgres
