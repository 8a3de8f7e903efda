import Mathlib
import AuthForge.Proof.GrantTypes

/-!
# Registered clients at the token endpoint

A registration hands out a client id, a secret and the method by which the client is to present them.
Whether the secret is looked at depends on the type that is stored, whether it may be sent on the
method. Nothing keeps a client that is not public from declaring `none`, and then it can never
authenticate.
-/

namespace AuthForge.RegisteredClients

open OAuth2 Http Storage DeviceGrant Admin.ClientRegistration
open DeviceStatements (methodErrOf)

/-- What a successful registration tells the client about its authentication. -/
structure Credentials where
  clientId : String
  clientSecret : String
  method : String
  deriving DecidableEq

def credentials : ClientReply → Option Credentials
  | .registered clientId clientSecret _ _ _ method _ => some ⟨clientId, clientSecret, method⟩
  | .created clientId clientSecret method => some ⟨clientId, clientSecret, method⟩
  | _ => none

/-- The type that a registration stores, as it is. -/
def typeOf : ClientRequest → String
  | .register body => body.elim "" RegistrationBody.clientType
  | .create body => body.clientType
  | .updateScopes _ _ => ""

/-! ### The request to the token endpoint -/

def InHeader (c : Credentials) (req : HttpRequest) : Prop :=
  req.basic = some (some (c.clientId, c.clientSecret)) ∧ "client_secret" ∉ req.params

def InBody (c : Credentials) (req : HttpRequest) : Prop :=
  req.basic = none ∧ req.getParameter "client_id" = c.clientId ∧
    req.getParameter "client_secret" = c.clientSecret

def WithoutSecret (c : Credentials) (req : HttpRequest) : Prop :=
  req.basic = none ∧ req.getParameter "client_id" = c.clientId ∧ "client_secret" ∉ req.params

/-- The request authenticates as the method prescribes. A method that the server does not know
prescribes nothing, so header and body are both right. -/
def Presents (c : Credentials) (req : HttpRequest) : Prop :=
  if c.method = "none" then WithoutSecret c req
  else if c.method = "client_secret_basic" then InHeader c req
  else if c.method = "client_secret_post" then InBody c req
  else InHeader c req ∨ InBody c req

/-- The method is accepted and the credentials are valid. -/
def Passes (sha256Hex : String → String) (T : ClientTables) (req : HttpRequest) : Prop :=
  methodErrOf req (tokenCredentials req).2 (T.getClient {} (tokenCredentials req).1) = "" ∧
    T.validateClient sha256Hex {} (tokenCredentials req).1 (tokenCredentials req).2 = true

/-! ### What a registration stores -/

variable {cfg : ClientConfig} {env : Nat → Env} {T T' : ClientTables} {r : ClientRequest}
  {c : Credentials} {req : HttpRequest}

/-- The row of a client that was told these credentials. -/
structure RowOf (cfg : ClientConfig) (r : ClientRequest) (c : Credentials) (row : Oauth2Clients) :
    Prop where
  clientType : row.clientType = typeOf r
  method : row.tokenEndpointAuthMethod = c.method
  secret : row.clientSecret = hashClientSecretWithSalt cfg c.clientSecret row.salt

theorem credentials_of_inserted {ok : Bool} {reply : ClientReply} {code detail : String}
    (h : credentials (if ok = true then reply else .error code detail) = some c) :
    ok = true ∧ credentials reply = some c := by
  cases ok with
  | false => cases h
  | true => exact ⟨rfl, h⟩

/-- The credentials of a successful registration are those that were drawn, and the row is stored. -/
theorem row_of_credentials
    (h : credentials (Prog.eval exec env 0 (program cfg r) T).1 = some c) :
    (c.clientId = (env 0).random ∧ c.clientSecret = (env 1).random) ∧
      ∃ row, (Prog.eval exec env 0 (program cfg r) T).2.1.clients.lookup c.clientId = some row ∧
        RowOf cfg r c row := by
  cases r with
  | register body =>
    cases body with
    | none => cases h
    | some body =>
      simp only [program, registerClient] at h ⊢
      cases herror : registrationError cfg body with
      | some error => simp [herror, Prog.eval, credentials] at h
      | none =>
        simp only [herror, drawClient, Prog.eval, exec] at h ⊢
        obtain ⟨hok, htold⟩ := credentials_of_inserted h
        obtain rfl := Option.some.inj htold
        exact ⟨⟨rfl, rfl⟩, _, ClientTables.lookup_insertClient hok, rfl, rfl, rfl⟩
  | create body =>
    simp only [program, createClient] at h ⊢
    cases herror : creationError cfg body with
    | some error => simp [herror, Prog.eval, credentials] at h
    | none =>
      simp only [herror, drawClient, Prog.eval, exec] at h ⊢
      obtain ⟨hok, htold⟩ := credentials_of_inserted h
      obtain rfl := Option.some.inj htold
      exact ⟨⟨rfl, rfl⟩, _, ClientTables.lookup_insertClient hok, rfl, rfl, rfl⟩
  | updateScopes clientId scopes =>
    simp only [program, updateClientScopes] at h
    split at h
    · cases h
    · cases scopes with
      | none => cases h
      | some scopes =>
        simp only [Prog.eval, exec] at h
        split at h <;> cases h

/-! ### What the token endpoint makes of it -/

theorem getParameter_of_notMem (h : "client_secret" ∉ req.params) :
    req.getParameter "client_secret" = "" := by
  rw [HttpRequest.getParameter, Params.get, AList.lookup_eq_none.mpr h]
  rfl

/-- The secret that arrives: none with the method `none`, otherwise the client's own. -/
theorem tokenCredentials_of_presents (hid : c.clientId ≠ "") (hsecret : c.clientSecret ≠ "")
    (h : Presents c req) :
    tokenCredentials req = (c.clientId, if c.method = "none" then "" else c.clientSecret) := by
  have hbody (h : InBody c req) : tokenCredentials req = (c.clientId, c.clientSecret) := by
    obtain ⟨hbasic, hparam, hparamSecret⟩ := h
    simp [tokenCredentials, hbasic, hparam, hparamSecret]
  have hheader (h : InHeader c req) : tokenCredentials req = (c.clientId, c.clientSecret) := by
    obtain ⟨hbasic, -⟩ := h
    simp [tokenCredentials, hbasic, hid, hsecret]
  unfold Presents at h
  by_cases hnone : c.method = "none"
  · rw [if_pos hnone] at h
    obtain ⟨hbasic, hparam, habsent⟩ := h
    simp [tokenCredentials, hbasic, hparam, getParameter_of_notMem habsent, hnone]
  rw [if_neg hnone] at h ⊢
  split at h
  · exact hheader h
  split at h
  · exact hbody h
  · exact h.elim hheader hbody

/-- A request that presents the credentials as prescribed is never turned away for the method. -/
theorem enforced_of_presents (h : Presents c req) :
    enforceClientAuthMethod c.method (if c.method = "none" then "" else c.clientSecret)
      req.basic.isSome ("client_secret" ∈ req.params) = "" := by
  unfold Presents at h
  unfold enforceClientAuthMethod
  by_cases hnone : c.method = "none"
  · simp [hnone]
  rw [if_neg hnone] at h ⊢
  by_cases hbasic : c.method = "client_secret_basic"
  · rw [if_pos hbasic] at h
    simp [hbasic, h.1, h.2]
  rw [if_neg hbasic] at h
  by_cases hpost : c.method = "client_secret_post"
  · rw [if_pos hpost] at h
    simp [hpost, h.1]
  · simp [hbasic, hpost]

/-- The secret that was handed out is the one the digest in the row belongs to. -/
theorem secretMatches_of_row {row : Oauth2Clients} (h : RowOf cfg r c row) :
    ClientTables.secretMatches cfg.tokenService.crypto.sha256Hex c.clientSecret row.salt
      row.clientSecret = true := by
  rw [ClientTables.secretMatches, decide_eq_true_eq, h.secret]
  simp [hashClientSecretWithSalt]

theorem validateRow_iff {row : Oauth2Clients} (h : RowOf cfg r c row)
    (hsecret : c.clientSecret ≠ "") :
    ClientTables.validateRow cfg.tokenService.crypto.sha256Hex
        (if c.method = "none" then "" else c.clientSecret) row = true ↔
      typeOf r = "PUBLIC" ∨ c.method ≠ "none" := by
  have hmatches := secretMatches_of_row h
  have hpublic : ClientTables.clientTypeOf row = .PUBLIC ↔ typeOf r = "PUBLIC" := by
    rw [← h.clientType]
    unfold ClientTables.clientTypeOf ClientTables.stringToClientType
    by_cases hp : row.clientType = "PUBLIC"
    · simp [hp]
    by_cases hc : row.clientType = "CONFIDENTIAL" <;> simp [hp, hc]
  rw [← hpublic]
  unfold ClientTables.validateRow
  cases htype : ClientTables.clientTypeOf row with
  | PUBLIC => simp
  | CONFIDENTIAL =>
    by_cases hnone : c.method = "none"
    · simp [hnone]
    · simp [hnone, hsecret, hmatches]

/-- A client that was registered can authenticate as it was told exactly if it is public or its method
sends a secret. Ids and secrets that are drawn are taken not to be empty. -/
theorem registered_authenticates_iff
    (hissued : credentials (Prog.eval exec env 0 (program cfg r) T).1 = some c)
    (hdrawn : (env 0).random ≠ "" ∧ (env 1).random ≠ "")
    (hkept : T'.clients.lookup c.clientId =
      (Prog.eval exec env 0 (program cfg r) T).2.1.clients.lookup c.clientId)
    (hpresents : Presents c req) :
    Passes cfg.tokenService.crypto.sha256Hex T' req ↔
      typeOf r = "PUBLIC" ∨ c.method ≠ "none" := by
  obtain ⟨⟨hid, hsecret⟩, row, hlookup, hrow⟩ := row_of_credentials hissued
  rw [← hid, ← hsecret] at hdrawn
  rw [← validateRow_iff hrow hdrawn.2]
  have hstored := hkept.trans hlookup
  have hclient : T'.getClient {} c.clientId =
      some (ClientTables.toClient row (T'.scopesOf row.clientId)) := by
    simp [ClientTables.getClient, hstored]
  have hmethod : methodErrOf req (if c.method = "none" then "" else c.clientSecret)
      (T'.getClient {} c.clientId) = "" := by
    rw [hclient]
    change enforceClientAuthMethod row.tokenEndpointAuthMethod _ _ _ = ""
    rw [hrow.method]
    exact enforced_of_presents hpresents
  unfold Passes
  rw [tokenCredentials_of_presents hdrawn.1 hdrawn.2 hpresents]
  simp [hmethod, ClientTables.validateClient, hstored]

/-! ### Registrations that declare a method -/

/-- What the registration draws: the id, the secret and the salt. -/
def draws (n : Nat) : Env :=
  { random := [GrantTypes.sampleId, knownToken 0, GrantTypes.sampleSalt].getD n "", now := 900 }

def declaring (method : String) : ClientRequest :=
  .register (some { GrantTypes.sampleBody with tokenEndpointAuthMethod := method })

def registered (method : String) : ClientReply × ClientTables × List ClientCall :=
  Prog.eval exec draws 0 (program GrantTypes.sampleConfig (declaring method)) .empty

def told (method : String) : Credentials := ⟨GrantTypes.sampleId, knownToken 0, method⟩

/-- The client names itself and sends no secret, as `none` demands. -/
def secretless : HttpRequest where
  session := 0
  params := paramsOf [("grant_type", "client_credentials"), ("client_id", GrantTypes.sampleId)]

/-- A confidential client may declare `none`; then no request that obeys authenticates it. -/
theorem methodNone_rejected :
    credentials (registered "none").1 = some (told "none") ∧ Presents (told "none") secretless ∧
      ¬Passes GrantTypes.sampleConfig.tokenService.crypto.sha256Hex (registered "none").2.1
        secretless := by
  obtain ⟨hissued, hrejected⟩ :
      credentials (registered "none").1 = some (told "none") ∧
        ClientTables.validateClient GrantTypes.sampleConfig.tokenService.crypto.sha256Hex {}
          (tokenCredentials secretless).1 (tokenCredentials secretless).2
          (registered "none").2.1 = false := by
    decide +kernel
  refine ⟨hissued, ⟨rfl, by decide +kernel, by decide +kernel⟩, ?_⟩
  intro hpasses
  exact Bool.noConfusion (hpasses.2.symm.trans hrejected)

theorem registered_authenticates_basic :
    Passes GrantTypes.sampleConfig.tokenService.crypto.sha256Hex
      (registered "client_secret_basic").2.1 GrantTypes.clientCredentialsRequest := by
  have hissued : credentials (registered "client_secret_basic").1 =
      some (told "client_secret_basic") := by
    decide +kernel
  have hpresents : Presents (told "client_secret_basic") GrantTypes.clientCredentialsRequest :=
    ⟨rfl, by decide +kernel⟩
  refine (registered_authenticates_iff hissued (by decide +kernel) rfl hpresents).mpr (.inr ?_)
  decide

end AuthForge.RegisteredClients
