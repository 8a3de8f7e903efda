import AuthForge.Http.Runs

/-!
# Starting the code flow

Before anything else `authorize` and the completion of a login by the second factor check the client
and its redirect URI. Whether the client exists they learn from `validateClient` with an empty secret,
which both backends refuse a confidential client.
-/

namespace AuthForge.CodeFlowStart

open OAuth2 Http Storage AuthorizationEndpoint MfaController

/-! ### The two checks over any client repository -/

section Checks

variable (clients : ClientRepository) (env : Statement → Env) (clientId redirectUri : String)
  (s : clients.State)

def registeredAt : Bool :=
  OAuth2.validateRedirectUri (clients.getClient (env .validateRedirectUri) clientId s) redirectUri

/-- The answer that the checks of `authorize` stop with. -/
def authorizeChecks : Option Response :=
  if clients.validateClient (env .validateClient) clientId "" s = false then
    some (.plain 400 "Invalid client_id")
  else if registeredAt clients env clientId redirectUri s = false then
    some (.plain 400 "Invalid redirect_uri")
  else none

/-- The answer that the checks of `onTotpVerified` stop with. -/
def mfaChecks : Option Response :=
  if clients.validateClient (env .validateClient) clientId "" s = false then
    some (.error "AUTH_INVALID_CREDENTIALS" "verifyLogin: unknown or invalid client")
  else if registeredAt clients env clientId redirectUri s = false then
    some (.error "AUTH_INVALID_CREDENTIALS" "verifyLogin: redirect_uri not registered for client")
  else none

/-- The client gets past the checks of both handlers. -/
def Starts : Prop :=
  authorizeChecks clients env clientId redirectUri s = none ∧
    mfaChecks clients env clientId redirectUri s = none

end Checks

variable {clients : ClientRepository} {statements : Statement → Env} {clientId redirectUri : String}
  {s : clients.State} {stored : Dict String OAuth2Client} {client : OAuth2Client}

theorem starts_iff :
    Starts clients statements clientId redirectUri s ↔
      clients.validateClient (statements .validateClient) clientId "" s = true ∧
        registeredAt clients statements clientId redirectUri s = true := by
  unfold Starts authorizeChecks mfaChecks
  cases clients.validateClient (statements .validateClient) clientId "" s <;>
    cases registeredAt clients statements clientId redirectUri s <;> simp

theorem memory_starts_iff (hstored : stored.lookup clientId = some client)
    (huri : redirectUri ∈ client.redirectUris) :
    Starts Memory.clientRepository statements clientId redirectUri stored ↔
      client.clientType = .PUBLIC := by
  refine starts_iff.trans ?_
  have hregistered : registeredAt Memory.clientRepository statements clientId redirectUri stored =
      true := by
    simp [registeredAt, Memory.clientRepository, Memory.getClient, hstored, validateRedirectUri,
      OAuth2Client.isRegisteredRedirectUri, huri]
  rw [hregistered]
  cases htype : client.clientType <;>
    simp [Memory.clientRepository, Memory.validateClient, hstored, htype]

theorem postgres_starts_iff {sha256Hex : String → String}
    (hstored : stored.lookup clientId = some client) (huri : redirectUri ∈ client.redirectUris) :
    Starts (Postgres.clientRepository sha256Hex) statements clientId redirectUri stored ↔
      client.clientType = .PUBLIC ∧ (statements .validateClient).fails = false ∧
        (statements .validateRedirectUri).fails = false := by
  refine starts_iff.trans ?_
  have hregistered : registeredAt (Postgres.clientRepository sha256Hex) statements clientId
      redirectUri stored = !(statements .validateRedirectUri).fails := by
    cases hfails : (statements .validateRedirectUri).fails <;>
      simp [registeredAt, Postgres.clientRepository, Postgres.getClient, hstored, hfails,
        validateRedirectUri, OAuth2Client.isRegisteredRedirectUri, huri]
  rw [hregistered]
  cases hfails : (statements .validateClient).fails <;> cases htype : client.clientType <;>
    simp [Postgres.clientRepository, Postgres.validateClient, hstored, hfails, htype]

/-! ### The handlers run these checks -/

variable {b : Backend} {cfg : Config} {w : World b} {req : HttpRequest} {env : RequestEnv}

/-- A request that has passed the checks is answered with a redirect. -/
theorem withClient_redirects (cfg : Config) (w : World b) (env : RequestEnv) (sid : Nat)
    (f : AuthorizeFields) :
    ∃ location, (withClient cfg w sid env f).response = .redirect location := by
  have herror (error description : String) :
      ∃ location, buildAuthorizeErrorRedirect cfg f error description = .redirect location :=
    ⟨_, rfl⟩
  unfold withClient
  dsimp only
  split
  · exact herror _ _
  split
  · unfold World.answer noSessionResponse
    dsimp only
    split
    · exact herror _ _
    · exact ⟨_, rfl⟩
  split
  · exact ⟨_, rfl⟩
  unfold decideScopes
  dsimp only
  split
  · exact herror _ _
  split
  · unfold World.answer needsConsentResponse
    dsimp only
    split
    · exact herror _ _
    · exact ⟨_, rfl⟩
  unfold issueSilently
  split
  · exact herror _ _
  · exact ⟨_, rfl⟩

/-- The parameters of the request are valid as far as they can be told without the client. -/
structure WellFormed (cfg : Config) (req : HttpRequest) : Prop where
  fields : RuleSet.oauth2Authorize cfg.allowHttpRedirectUri req = []
  noProblem : (authorizeFields req).problem = none

theorem authorize_eq_checks (h : WellFormed cfg req) :
    authorize cfg w req env =
      match authorizeChecks (Postgres.clientRepository b.sha256Hex) env.client
        (authorizeFields req).clientId (authorizeFields req).redirectUri w.store.clients with
      | some response => w.answer response
      | none => withClient cfg w req.session env (authorizeFields req) := by
  have hvalid : (Postgres.clientRepository b.sha256Hex).validateClient (env.client .validateClient)
      (authorizeFields req).clientId "" w.store.clients =
    w.validateClient env (authorizeFields req).clientId "" := rfl
  have huri : registeredAt (Postgres.clientRepository b.sha256Hex) env.client
      (authorizeFields req).clientId (authorizeFields req).redirectUri w.store.clients =
    w.validateRedirectUri env (authorizeFields req).clientId (authorizeFields req).redirectUri :=
    rfl
  unfold authorize authorizeChecks
  dsimp only
  rw [h.fields, if_neg (by simp), h.noProblem, hvalid, huri]
  dsimp only
  split
  · rfl
  split <;> rfl

theorem onTotpVerified_of_refused {sid : Nat} {f : VerifyFields} {v : TotpVerified}
    {response : Response}
    (h : mfaChecks (Postgres.clientRepository b.sha256Hex) env.client f.clientId f.redirectUri
      w.store.clients = some response) :
    onTotpVerified cfg w sid env f v = w.answer response := by
  have hvalid : (Postgres.clientRepository b.sha256Hex).validateClient (env.client .validateClient)
      f.clientId "" w.store.clients = w.validateClient env f.clientId "" := rfl
  have huri : registeredAt (Postgres.clientRepository b.sha256Hex) env.client f.clientId
      f.redirectUri w.store.clients = w.validateRedirectUri env f.clientId f.redirectUri := rfl
  unfold mfaChecks at h
  rw [hvalid, huri] at h
  unfold onTotpVerified
  split at h
  · rename_i hrefused
    rw [if_pos hrefused, Option.some.inj h]
  · rename_i hvalidated
    rw [if_neg hvalidated]
    split at h
    · rename_i hrefused
      rw [if_pos hrefused, Option.some.inj h]
    · cases h

/-- A registered client with one of its redirect URIs gets past the checks exactly if it is public;
over the tables both lookups have to succeed as well. The handler answers accordingly. -/
theorem code_flow_starts_iff (hstored : stored.lookup clientId = some client)
    (huri : redirectUri ∈ client.redirectUris) (statements : Statement → Env)
    (sha256Hex : String → String) :
    (Starts Memory.clientRepository statements clientId redirectUri stored ↔
        client.clientType = .PUBLIC) ∧
      (Starts (Postgres.clientRepository sha256Hex) statements clientId redirectUri stored ↔
        client.clientType = .PUBLIC ∧ (statements .validateClient).fails = false ∧
          (statements .validateRedirectUri).fails = false) ∧
      ∀ {b : Backend} (cfg : Config) (w : World b) (req : HttpRequest) (env : RequestEnv),
        w.clients = stored → WellFormed cfg req → (authorizeFields req).clientId = clientId →
        ((authorize cfg w req env).response ≠ .plain 400 "Invalid client_id" ↔
          client.clientType = .PUBLIC ∧ env.fails .validateClient = false) := by
  refine ⟨memory_starts_iff hstored huri, postgres_starts_iff hstored huri, ?_⟩
  intro b cfg w req env hclients hwf hclient
  have hvalid : (Postgres.clientRepository b.sha256Hex).validateClient (env.client .validateClient)
      (authorizeFields req).clientId "" w.store.clients = true ↔
      client.clientType = .PUBLIC ∧ env.fails .validateClient = false := by
    change Postgres.validateClient b.sha256Hex (env.client .validateClient)
      (authorizeFields req).clientId "" w.clients = true ↔ _
    rw [hclients, hclient]
    cases hfails : env.fails .validateClient <;> cases htype : client.clientType <;>
      simp [Postgres.validateClient, RequestEnv.client, hstored, hfails, htype]
  rw [authorize_eq_checks hwf, ← hvalid]
  unfold authorizeChecks
  split
  · rename_i response hresponse
    split at hresponse
    · rename_i hrefused
      rw [← Option.some.inj hresponse]
      simp [hrefused, World.answer]
    · rename_i hvalidated
      have hlater : response = .plain 400 "Invalid redirect_uri" := by
        split at hresponse
        · exact (Option.some.inj hresponse).symm
        · cases hresponse
      rw [hlater]
      simp [hvalidated, World.answer]
  · rename_i hpassed
    obtain ⟨location, hlocation⟩ := withClient_redirects cfg w env req.session
      (authorizeFields req)
    rw [hlocation]
    split at hpassed
    · cases hpassed
    · rename_i hvalidated
      simp [hvalidated]

/-! ### A confidential client -/

def webClient : OAuth2Client := { knownClient with clientType := .CONFIDENTIAL }

/-- Over neither backend the client gets past the checks with its own redirect URI. -/
theorem confidential_never_starts :
    ¬Starts Memory.clientRepository (fun _ => {}) "spa" "https://spa.example.com/callback"
        (AList.singleton "spa" webClient) ∧
      ¬Starts (Postgres.clientRepository knownBackend.sha256Hex) (fun _ => {}) "spa"
        "https://spa.example.com/callback" (AList.singleton "spa" webClient) := by
  refine ⟨?_, ?_⟩
  · intro h
    have hrefused : (authorizeChecks Memory.clientRepository (fun _ => {}) "spa"
        "https://spa.example.com/callback" (AList.singleton "spa" webClient)).isNone = false := by
      decide +kernel
    rw [h.1] at hrefused
    cases hrefused
  · intro h
    have hrefused : (authorizeChecks (Postgres.clientRepository knownBackend.sha256Hex) (fun _ => {})
        "spa" "https://spa.example.com/callback" (AList.singleton "spa" webClient)).isNone =
          false := by
      decide +kernel
    rw [h.1] at hrefused
    cases hrefused

theorem code_flow_starts_public :
    Starts Memory.clientRepository (fun _ => {}) "spa" "https://spa.example.com/callback"
        (AList.singleton "spa" knownClient) ∧
      Starts (Postgres.clientRepository knownBackend.sha256Hex) (fun _ => {}) "spa"
        "https://spa.example.com/callback" (AList.singleton "spa" knownClient) := by
  have hstored : (AList.singleton "spa" knownClient : Dict String OAuth2Client).lookup "spa" =
      some knownClient := rfl
  have huri : "https://spa.example.com/callback" ∈ knownClient.redirectUris := by decide
  obtain ⟨hmemory, htables, -⟩ := code_flow_starts_iff hstored huri (fun _ => {})
    knownBackend.sha256Hex
  exact ⟨hmemory.mpr rfl, htables.mpr ⟨rfl, rfl, rfl⟩⟩

end AuthForge.CodeFlowStart
