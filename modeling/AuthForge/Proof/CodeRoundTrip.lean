import AuthForge.OAuth2.Trace
import AuthForge.Storage.Postgres

/-!
# An authorization code through PostgreSQL

The row of a code has no column for the nonce, and a method is written only next to a challenge. A
record comes back as it was saved exactly when it has no nonce and no method without a challenge;
the id_token then carries what the authorization request asked for.
-/

namespace AuthForge.CodeRoundTrip

open OAuth2 Storage

/-- Saving a record and consuming it with its own redirect URI gives the record back, used. -/
def RoundTrips (saveEnv consumeEnv : Env) (codes : Postgres.CodeTable) (c : OAuth2AuthCode) : Prop :=
  (Postgres.consumeAuthCode consumeEnv c.code c.redirectUri
    (Postgres.saveAuthCode saveEnv c codes)).1 = some { c with used := true }

def nonceClaim (nonce : String) : Option String := if nonce = "" then none else some nonce

/-- The repositories of a deployment whose codes are in PostgreSQL. -/
abbrev overPostgres (clients : ClientRepository) (tokens : TokenRepository) : Repositories :=
  ⟨clients, Postgres.grantRepository, tokens⟩

variable {clients : ClientRepository} {tokens : TokenRepository}

def storedCodes (s : Store (overPostgres clients tokens)) : Postgres.CodeTable := s.grants

abbrev generated (svc : TokenService) (env : Nat → Env) (r : CodeRequest)
    (s : Store (overPostgres clients tokens)) : Store (overPostgres clients tokens) :=
  (Prog.eval Store.exec env 0 (svc.program (.generate r)) s).2.1

/-- Every id_token of an exchange of the issued code is a signature over claims with the nonce of
the authorization request. -/
def NonceCarried (svc : TokenService) (genEnv : Nat → Env) (r : CodeRequest)
    (s : Store (overPostgres clients tokens)) : Prop :=
  ∀ (exEnv : Nat → Env) (e : ExchangeRequest) response sign token,
    e.code = (genEnv 0).random → svc.signJwt = some sign →
    (Prog.eval Store.exec exEnv 0 (svc.program (.exchange e)) (generated svc genEnv r s)).1 =
      .tokens response →
    response.idToken = some token →
    ∃ claims, token = sign claims ∧ claims.nonce = nonceClaim r.nonce

/-- Nothing of the request is lost on the way into the row. -/
def fitsRow (r : CodeRequest) : Bool :=
  r.nonce = "" && (r.codeChallenge ≠ "" || r.codeChallengeMethod = "")

/-! ### Reading a row back -/

/-- What is left of a record after it went through its row. -/
theorem toAuthCode_codeRow {c : OAuth2AuthCode} (htime : 0 ≤ c.authTime) :
    (Postgres.codeRow c).toAuthCode true =
      { c with
        used := true
        nonce := ""
        codeChallengeMethod := if c.codeChallenge = "" then "" else c.codeChallengeMethod } := by
  have hchallenge : (if c.codeChallenge = "" then none else some c.codeChallenge).getD "" =
      c.codeChallenge := by
    split
    · rename_i hempty
      exact hempty.symm
    · rfl
  have hmethod : (if c.codeChallenge = "" then none else some c.codeChallengeMethod).getD "" =
      if c.codeChallenge = "" then "" else c.codeChallengeMethod := by
    split <;> rfl
  have htime' : (if c.authTime > 0 then some c.authTime else none).getD 0 = c.authTime := by
    split
    · rfl
    · simp only [Option.getD_none]
      omega
  have hamr : (if c.amr = "" then none else some c.amr).getD "" = c.amr := by
    split
    · rename_i hempty
      exact hempty.symm
    · rfl
  simp only [Postgres.Oauth2Codes.toAuthCode, Postgres.codeRow, Option.getD_some, hchallenge,
    hmethod, htime', hamr]

section Saved

variable {saveEnv consumeEnv : Env} {codes : Postgres.CodeTable} {c : OAuth2AuthCode}
  (hsave : saveEnv.fails = false) (hfresh : c.code ∉ codes)
include hsave hfresh

theorem consumed_eq (hconsume : consumeEnv.fails = false) (hunused : c.used = false) :
    (Postgres.consumeAuthCode consumeEnv c.code c.redirectUri
      (Postgres.saveAuthCode saveEnv c codes)).1 = some ((Postgres.codeRow c).toAuthCode true) :=
  Postgres.consumeAuthCode_of_unused hconsume (Postgres.lookup_saveAuthCode hsave hfresh) hunused
    rfl

/-- The two readers agree on a saved code. -/
theorem getAuthCode_eq_consumed {readEnv : Env} (hread : readEnv.fails = false)
    (hconsume : consumeEnv.fails = false) (hunused : c.used = false) :
    (Postgres.getAuthCode readEnv c.code (Postgres.saveAuthCode saveEnv c codes)).map
        (fun found => { found with used := true }) =
      (Postgres.consumeAuthCode consumeEnv c.code c.redirectUri
        (Postgres.saveAuthCode saveEnv c codes)).1 := by
  rw [consumed_eq hsave hfresh hconsume hunused, Postgres.getAuthCode, hread,
    Postgres.lookup_saveAuthCode hsave hfresh]
  rfl

theorem roundTrips_iff (hconsume : consumeEnv.fails = false) (hunused : c.used = false)
    (htime : 0 ≤ c.authTime) :
    RoundTrips saveEnv consumeEnv codes c ↔
      c.nonce = "" ∧ (c.codeChallenge ≠ "" ∨ c.codeChallengeMethod = "") := by
  rw [RoundTrips, consumed_eq hsave hfresh hconsume hunused, toAuthCode_codeRow htime]
  constructor
  · intro h
    have hrecord := Option.some.inj h
    have hnonce : "" = c.nonce := congrArg OAuth2AuthCode.nonce hrecord
    have hmethod : (if c.codeChallenge = "" then "" else c.codeChallengeMethod) =
      c.codeChallengeMethod := congrArg OAuth2AuthCode.codeChallengeMethod hrecord
    refine ⟨hnonce.symm, ?_⟩
    by_cases hchallenge : c.codeChallenge = ""
    · rw [if_pos hchallenge] at hmethod
      exact .inr hmethod.symm
    · exact .inl hchallenge
  · intro h
    obtain ⟨hnonce, hmethod⟩ := h
    have hkept : (if c.codeChallenge = "" then "" else c.codeChallengeMethod) =
        c.codeChallengeMethod := by
      split
      · rename_i hchallenge
        exact (hmethod.resolve_left (not_not.mpr hchallenge)).symm
      · rfl
    rw [hkept, ← hnonce]

end Saved

/-! ### The id_token -/

variable {svc : TokenService} {genEnv : Nat → Env} {r : CodeRequest}
  {s : Store (overPostgres clients tokens)}

theorem nonceCarried_of_empty (hnonce : r.nonce = "") : NonceCarried svc genEnv r s := by
  intro exEnv e response sign token hcode hsign hreply htoken
  obtain ⟨authCode, hconsumed, hidToken⟩ := TokenService.exchange_idToken hreply
  obtain ⟨row, -, -, rfl⟩ := Postgres.consumeAuthCode_eq_some hconsumed
  rw [htoken, TokenService.idToken, hsign] at hidToken
  simp only at hidToken
  split at hidToken
  · split at hidToken
    · cases hidToken
    · refine ⟨_, Option.some.inj hidToken, ?_⟩
      rw [hnonce]
      rfl
  · cases hidToken

/-- Under statements that succeed and a fresh key, the record of a request comes back from
PostgreSQL as it was and the id_token carries the requested nonce, exactly when the request has no
nonce and no challenge method without a challenge. -/
theorem code_round_trip_iff (svc : TokenService) (genEnv : Nat → Env) (consumeEnv : Env)
    (r : CodeRequest) (s : Store (overPostgres clients tokens)) (htime : 0 ≤ r.authTime)
    (hsave : (genEnv 2).fails = false) (hconsume : consumeEnv.fails = false)
    (hfresh : hashToken svc.crypto (genEnv 0).random ∉ storedCodes s) :
    RoundTrips (genEnv 2) consumeEnv (storedCodes s)
        (svc.authCodeOf r (genEnv 0).random (genEnv 1).now) ∧ NonceCarried svc genEnv r s ↔
      fitsRow r = true := by
  have hround := roundTrips_iff (c := svc.authCodeOf r (genEnv 0).random (genEnv 1).now) hsave
    hfresh hconsume rfl htime
  have hfits : fitsRow r = true ↔ r.nonce = "" ∧ (r.codeChallenge ≠ "" ∨ r.codeChallengeMethod = "") := by
    simp [fitsRow]
  rw [hround, hfits]
  constructor
  · intro h
    exact h.1
  · intro h
    exact ⟨h, nonceCarried_of_empty h.1⟩

/-! ### A code through the tables of a known deployment -/

/-- A signer that lets the nonce of the claims be read off the token. -/
def nonceSigner (claims : IdTokenClaims) : String :=
  match claims.nonce with
  | none => "no nonce"
  | some nonce => "nonce " ++ nonce

def signingService : TokenService := { knownService with signJwt := some nonceSigner }

def emptyTables : Store (overPostgres (Postgres.clientRepository fun _ => "")
    Postgres.tokenRepository) where
  clients := (AList.insert "spa"
    { clientId := "spa", clientType := .PUBLIC, clientSecretHash := "", salt := ""
      redirectUris := ["https://spa.example.com/callback"], allowedScopes := ["openid"] }
    ∅ : Postgres.Clients)
  grants := (∅ : Postgres.CodeTable)
  tokens := (⟨∅, ∅⟩ : Postgres.TokenTables)

def knownEnvs (token n : Nat) : Env := { now := 59, random := knownToken (token + n) }

def nonceRequest (nonce : String) : CodeRequest where
  clientId := "spa"
  subject := "1"
  scope := "openid"
  redirectUri := "https://spa.example.com/callback"
  nonce := nonce
  authTime := 59
  amr := "pwd"

theorem code_round_trip_iff_known :
    0 ≤ (nonceRequest "").authTime ∧ (knownEnvs 0 2).fails = false ∧ (knownEnvs 0 1).fails = false ∧
    hashToken signingService.crypto (knownEnvs 0 0).random ∉ storedCodes emptyTables ∧
    RoundTrips (knownEnvs 0 2) (knownEnvs 0 1) (storedCodes emptyTables)
      (signingService.authCodeOf (nonceRequest "") (knownEnvs 0 0).random (knownEnvs 0 1).now) ∧
    NonceCarried signingService (knownEnvs 0) (nonceRequest "") emptyTables := by
  have hfresh : hashToken signingService.crypto (knownEnvs 0 0).random ∉ storedCodes emptyTables :=
    AList.notMem_empty _
  refine ⟨by decide, rfl, rfl, hfresh, ?_⟩
  exact (code_round_trip_iff signingService (knownEnvs 0) (knownEnvs 0 1) (nonceRequest "")
    emptyTables (by decide) rfl rfl hfresh).mpr rfl

def knownExchange : ExchangeRequest where
  code := knownToken 0
  clientId := "spa"
  redirectUri := "https://spa.example.com/callback"

def idTokenOf : Reply → Option String
  | .tokens response => response.idToken
  | _ => none

theorem not_nonceCarried_known :
    ¬NonceCarried signingService (knownEnvs 0) (nonceRequest "n-0S6_WzA2Mj") emptyTables := by
  intro hcarried
  generalize hreply : (Prog.eval Store.exec (knownEnvs 0) 0
    (signingService.program (.exchange knownExchange))
    (generated signingService (knownEnvs 0) (nonceRequest "n-0S6_WzA2Mj") emptyTables)).1 = reply
  have htoken : idTokenOf reply = some "no nonce" := by
    rw [← hreply]
    decide +kernel
  cases reply with
  | tokens response =>
    obtain ⟨claims, hsigned, hnonce⟩ := hcarried (knownEnvs 0) knownExchange response nonceSigner
      "no nonce" rfl rfl hreply htoken
    rw [nonceSigner, hnonce] at hsigned
    revert hsigned
    decide
  | _ => cases htoken

/-- The nonce of the request is gone from the consumed record and from the id_token. -/
theorem code_loses_nonce :
    0 ≤ (nonceRequest "n-0S6_WzA2Mj").authTime ∧ (knownEnvs 0 2).fails = false ∧
    (knownEnvs 0 1).fails = false ∧
    hashToken signingService.crypto (knownEnvs 0 0).random ∉ storedCodes emptyTables ∧
    ¬RoundTrips (knownEnvs 0 2) (knownEnvs 0 1) (storedCodes emptyTables)
      (signingService.authCodeOf (nonceRequest "n-0S6_WzA2Mj") (knownEnvs 0 0).random
        (knownEnvs 0 1).now) ∧
    ¬NonceCarried signingService (knownEnvs 0) (nonceRequest "n-0S6_WzA2Mj") emptyTables := by
  refine ⟨by decide, rfl, rfl, AList.notMem_empty _, ?_, not_nonceCarried_known⟩
  intro hround
  have hrecord := (roundTrips_iff rfl (AList.notMem_empty _) rfl rfl (by decide)).mp hround
  revert hrecord
  decide +kernel

end AuthForge.CodeRoundTrip
