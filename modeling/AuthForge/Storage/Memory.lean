import AuthForge.Base.Dict
import AuthForge.OAuth2.Repository

/-!
# The in-memory repositories

`MemoryClientRepository`, `MemoryGrantRepository` and `MemoryTokenRepository`. Every method holds
the repository's mutex from its first access to its callback, so each is one atomic call.
-/

namespace AuthForge.Storage.Memory

open OAuth2

/-! ### Clients -/

abbrev Clients := Dict String OAuth2Client

def getClient (clientId : String) (clients : Clients) : Option OAuth2Client :=
  clients.lookup clientId

def validateClient (clientId clientSecret : String) (clients : Clients) : Bool :=
  match clients.lookup clientId with
  | none => false
  | some client =>
    match client.clientType with
    | .PUBLIC => true
    | .CONFIDENTIAL => clientSecret ≠ "" && clientSecret = client.clientSecretHash

def clientRepository : ClientRepository where
  State := Clients
  getClient _ := getClient
  validateClient _ := validateClient

/-! ### Grants -/

abbrev AuthCodes := Dict String OAuth2AuthCode

def saveAuthCode (code : OAuth2AuthCode) (authCodes : AuthCodes) : AuthCodes :=
  authCodes.insert code.code code

/-- Compare-and-set of the `used` flag. A recorded redirect URI has to be repeated; a mismatch
leaves the code unused. -/
def consumeAuthCode (code redirectUri : String) (authCodes : AuthCodes) :
    Option OAuth2AuthCode × AuthCodes :=
  match authCodes.lookup code with
  | none => (none, authCodes)
  | some it =>
    if it.used = true then (none, authCodes)
    else if it.redirectUri ≠ "" ∧ redirectUri ≠ it.redirectUri then (none, authCodes)
    else (some { it with used := true }, authCodes.insert code { it with used := true })

def purgeExpiredCodes (now : Int) (authCodes : AuthCodes) : AuthCodes :=
  authCodes.keepValues fun c => ¬c.expiresAt < now

def grantRepository : GrantRepository where
  State := AuthCodes
  saveAuthCode _ := saveAuthCode
  consumeAuthCode _ := consumeAuthCode
  purgeExpired env := purgeExpiredCodes env.now

theorem consumeAuthCode_eq_some {code redirectUri : String} {authCodes : AuthCodes}
    {c : OAuth2AuthCode} (h : (consumeAuthCode code redirectUri authCodes).1 = some c) :
    ∃ it, authCodes.lookup code = some it ∧ it.used = false ∧
      (it.redirectUri ≠ "" → redirectUri = it.redirectUri) ∧ c = { it with used := true } ∧
      (consumeAuthCode code redirectUri authCodes).2 = authCodes.insert code c := by
  unfold consumeAuthCode at h ⊢
  cases hlookup : authCodes.lookup code with
  | none => simp [hlookup] at h
  | some it =>
    simp only [hlookup] at h ⊢
    by_cases hused : it.used = true
    · simp [hused] at h
    by_cases huri : it.redirectUri ≠ "" ∧ redirectUri ≠ it.redirectUri
    · simp [hused, huri] at h
    rw [if_neg hused, if_neg huri] at h ⊢
    obtain rfl := Option.some.inj h
    refine ⟨it, rfl, by simpa using hused, ?_, rfl, rfl⟩
    intro hne
    by_contra hdiff
    exact huri ⟨hne, hdiff⟩

theorem consumeAuthCode_eq_none {code redirectUri : String} {authCodes : AuthCodes}
    (h : (consumeAuthCode code redirectUri authCodes).1 = none) :
    (consumeAuthCode code redirectUri authCodes).2 = authCodes := by
  unfold consumeAuthCode at h ⊢
  cases hlookup : authCodes.lookup code with
  | none => rfl
  | some it =>
    simp only [hlookup] at h ⊢
    by_cases hused : it.used = true
    · rw [if_pos hused]
    by_cases huri : it.redirectUri ≠ "" ∧ redirectUri ≠ it.redirectUri
    · rw [if_neg hused, if_pos huri]
    · rw [if_neg hused, if_neg huri] at h
      cases h

def recorded (authCodes : AuthCodes) (code : String) : Option (String × String) :=
  (authCodes.lookup code).map fun c => (c.userId, c.amr)

theorem recorded_saveAuthCode {c : OAuth2AuthCode} {authCodes : AuthCodes} {k : String}
    {v : String × String} (h : recorded (saveAuthCode c authCodes) k = some v) :
    recorded authCodes k = some v ∨ (k = c.code ∧ v = (c.userId, c.amr)) := by
  unfold recorded saveAuthCode at h
  by_cases hk : k = c.code
  · subst hk
    rw [AList.lookup_insert] at h
    exact .inr ⟨rfl, (Option.some.inj h).symm⟩
  · rw [AList.lookup_insert_ne hk] at h
    exact .inl h

theorem recorded_of_consumed {code redirectUri : String} {authCodes : AuthCodes}
    {c : OAuth2AuthCode} (h : (consumeAuthCode code redirectUri authCodes).1 = some c) :
    recorded authCodes code = some (c.userId, c.amr) := by
  obtain ⟨it, hlookup, -, -, rfl, -⟩ := consumeAuthCode_eq_some h
  rw [recorded, hlookup]
  rfl

theorem recorded_consumeAuthCode {code redirectUri k : String} {authCodes : AuthCodes}
    {v : String × String} (h : recorded (consumeAuthCode code redirectUri authCodes).2 k = some v) :
    recorded authCodes k = some v := by
  cases hconsumed : (consumeAuthCode code redirectUri authCodes).1 with
  | none => rwa [consumeAuthCode_eq_none hconsumed] at h
  | some c =>
    obtain ⟨it, hlookup, -, -, rfl, hafter⟩ := consumeAuthCode_eq_some hconsumed
    rw [hafter, recorded] at h
    by_cases hk : k = code
    · subst hk
      rw [AList.lookup_insert] at h
      rw [recorded, hlookup]
      exact h
    · rwa [AList.lookup_insert_ne hk] at h

theorem recorded_purgeExpiredCodes {now : Int} {k : String} {authCodes : AuthCodes}
    {v : String × String} (h : recorded (purgeExpiredCodes now authCodes) k = some v) :
    recorded authCodes k = some v := by
  rw [recorded, purgeExpiredCodes, Dict.lookup_keepValues] at h
  obtain ⟨c, hc, rfl⟩ := Option.map_eq_some_iff.mp h
  rw [recorded, (Option.filter_eq_some_iff.mp hc).1]
  rfl

def codeLedger : CodeLedger grantRepository where
  stored := recorded
  save h := recorded_saveAuthCode h
  consumed h := .inr (recorded_of_consumed h)
  consume h := recorded_consumeAuthCode h
  purge h := recorded_purgeExpiredCodes h

/-! ### Tokens -/

structure Tokens where
  accessTokens : Dict String OAuth2AccessToken
  refreshTokens : Dict String OAuth2RefreshToken

/-- Save an access token; a missing issue time or start of validity is set to `now`. -/
def saveAccessToken (now : Int) (token : OAuth2AccessToken) (s : Tokens) : Tokens :=
  let tokenWithDefaults :=
    { token with
      issuedAt := if token.issuedAt = 0 then now else token.issuedAt
      notBefore := if token.notBefore = 0 then now else token.notBefore }
  { s with accessTokens := s.accessTokens.insert token.token tokenWithDefaults }

def saveRefreshToken (token : OAuth2RefreshToken) (s : Tokens) : Tokens :=
  { s with refreshTokens := s.refreshTokens.insert token.token token }

/-- The inherited `saveTokenPair`: one save after the other, the second one in the callback of
the first while the recursive mutex is still held. -/
def saveTokenPair (now : Int) (access : OAuth2AccessToken) (refresh : OAuth2RefreshToken)
    (s : Tokens) : Bool × Tokens :=
  (true, saveRefreshToken refresh (saveAccessToken now access s))

def getAccessToken (now : Int) (token : String) (s : Tokens) : Option OAuth2AccessToken :=
  match s.accessTokens.lookup token with
  | none => none
  | some it => if it.expiresAt > now ∧ it.revoked = false then some it else none

def getRefreshToken (now : Int) (token : String) (s : Tokens) : Option OAuth2RefreshToken :=
  match s.refreshTokens.lookup token with
  | none => none
  | some it => if it.expiresAt > now ∧ it.revoked = false then some it else none

def atomicRevokeRefreshToken (token : String) (s : Tokens) : Option OAuth2RefreshToken × Tokens :=
  match s.refreshTokens.lookup token with
  | none => (none, s)
  | some it =>
    if it.revoked = true then (none, s)
    else
      (some { it with revoked := true },
        { s with refreshTokens := s.refreshTokens.insert token { it with revoked := true } })

def revokeRefreshToken (token : String) (s : Tokens) : Tokens :=
  { s with refreshTokens := s.refreshTokens.mapValues fun k rt =>
      if k = token then { rt with revoked := true } else rt }

/-- Revoke the access token and the refresh token of this name. -/
def revokeAccessToken (now : Int) (token revokedBy : String) (s : Tokens) : Tokens where
  accessTokens := s.accessTokens.mapValues fun k it =>
    if k = token then { it with revoked := true, revokedAt := now, revokedBy } else it
  refreshTokens := s.refreshTokens.mapValues fun k rt =>
    if k = token then { rt with revoked := true, revokedAt := now, revokedBy } else rt

def incrementIntrospectCount (token : String) (s : Tokens) : Tokens :=
  { s with accessTokens := s.accessTokens.mapValues fun k it =>
      if k = token then { it with introspectCount := it.introspectCount + 1 } else it }

def purgeExpired (now : Int) (s : Tokens) : Tokens where
  accessTokens := s.accessTokens.keepValues fun it => ¬it.expiresAt < now
  refreshTokens := s.refreshTokens.keepValues fun rt => ¬rt.expiresAt < now

/-- Revoke every refresh token of the family and the access tokens they reference. -/
def revokeTokenFamily (familyId : String) (s : Tokens) : Tokens where
  accessTokens := s.accessTokens.mapValues fun k token =>
    if s.refreshTokens.anyValue fun rt => rt.familyId = familyId ∧ rt.accessToken = k then
      { token with revoked := true }
    else token
  refreshTokens := s.refreshTokens.mapValues fun _ rt =>
    if rt.familyId = familyId then { rt with revoked := true } else rt

theorem atomicRevokeRefreshToken_eq_some {token : String} {s : Tokens} {rt : OAuth2RefreshToken}
    (h : (atomicRevokeRefreshToken token s).1 = some rt) :
    ∃ it, s.refreshTokens.lookup token = some it ∧ it.revoked = false ∧
      rt = { it with revoked := true } ∧
      (atomicRevokeRefreshToken token s).2 =
        { s with refreshTokens := s.refreshTokens.insert token rt } := by
  unfold atomicRevokeRefreshToken at h ⊢
  cases hlookup : s.refreshTokens.lookup token with
  | none => simp [hlookup] at h
  | some it =>
    simp only [hlookup] at h ⊢
    by_cases hrevoked : it.revoked = true
    · simp [hrevoked] at h
    · rw [if_neg hrevoked] at h ⊢
      obtain rfl := Option.some.inj h
      exact ⟨it, rfl, by simpa using hrevoked, rfl, rfl⟩

theorem atomicRevokeRefreshToken_eq_none {token : String} {s : Tokens}
    (h : (atomicRevokeRefreshToken token s).1 = none) :
    (atomicRevokeRefreshToken token s).2 = s := by
  unfold atomicRevokeRefreshToken at h ⊢
  cases hlookup : s.refreshTokens.lookup token with
  | none => rfl
  | some it =>
    simp only [hlookup] at h ⊢
    by_cases hrevoked : it.revoked = true
    · rw [if_pos hrevoked]
    · rw [if_neg hrevoked] at h
      cases h

@[simp] theorem saveTokenPair_refreshTokens (now : Int) (access : OAuth2AccessToken)
    (refresh : OAuth2RefreshToken) (s : Tokens) :
    (saveTokenPair now access refresh s).2.refreshTokens =
      s.refreshTokens.insert refresh.token refresh := rfl

theorem saveTokenPair_accessTokens {now : Int} {access token : OAuth2AccessToken}
    {refresh : OAuth2RefreshToken} {s : Tokens} {k : String}
    (h : (saveTokenPair now access refresh s).2.accessTokens.lookup k = some token) :
    (k = access.token ∧ token = { access with
        issuedAt := token.issuedAt, notBefore := token.notBefore }) ∨
      s.accessTokens.lookup k = some token := by
  by_cases hk : k = access.token
  · subst hk
    change AList.lookup access.token (AList.insert access.token _ s.accessTokens) = _ at h
    rw [AList.lookup_insert] at h
    obtain rfl := Option.some.inj h
    exact .inl ⟨rfl, rfl⟩
  · change AList.lookup k (AList.insert access.token _ s.accessTokens) = _ at h
    rw [AList.lookup_insert_ne hk] at h
    exact .inr h

theorem revokeTokenFamily_refreshTokens {familyId k : String} {s : Tokens}
    {rt : OAuth2RefreshToken}
    (h : (revokeTokenFamily familyId s).refreshTokens.lookup k = some rt) :
    ∃ it, s.refreshTokens.lookup k = some it ∧
      (rt = it ∧ it.familyId ≠ familyId ∨ rt = { it with revoked := true }) := by
  simp only [revokeTokenFamily, Dict.lookup_mapValues, Option.map_eq_some_iff] at h
  obtain ⟨it, hlookup, rfl⟩ := h
  refine ⟨it, hlookup, ?_⟩
  by_cases hfamily : it.familyId = familyId
  · right
    rw [if_pos hfamily]
  · left
    rw [if_neg hfamily]
    exact ⟨rfl, hfamily⟩

theorem revokeTokenFamily_accessTokens {familyId k : String} {s : Tokens}
    {token : OAuth2AccessToken}
    (h : (revokeTokenFamily familyId s).accessTokens.lookup k = some token) :
    ∃ it, s.accessTokens.lookup k = some it ∧ token = { it with revoked := token.revoked } := by
  simp only [revokeTokenFamily, Dict.lookup_mapValues, Option.map_eq_some_iff] at h
  obtain ⟨it, hlookup, rfl⟩ := h
  refine ⟨it, hlookup, ?_⟩
  split <;> rfl

def tokenRepository : TokenRepository where
  State := Tokens
  saveTokenPair env := saveTokenPair env.now
  atomicRevokeRefreshToken _ := atomicRevokeRefreshToken
  getRefreshToken env := getRefreshToken env.now
  revokeTokenFamily _ := revokeTokenFamily

def Tokens.empty : Tokens := ⟨∅, ∅⟩

end AuthForge.Storage.Memory
