import AuthForge.Http.Runs
import AuthForge.Http.TokenEndpoint

/-!
# Allowed grant types

The token endpoint authenticates the client and then follows whichever of the four grants the request
names. The allowed grant types that the client was registered with are stored and never read: with
other lists in the table every run is the same.
-/

namespace AuthForge.GrantTypes

open OAuth2 Http Http.DeviceGrant Http.DeviceStatements Http.Issuance Http.TokenEndpoint Storage
  Storage.ClientTables Admin.ClientRegistration Prog Service

variable {cfg : ClientConfig} {σ : Type} {rest : Rest σ}

/-! ### Other lists in the table -/

/-- The clients named here have these lists of allowed grant types instead of their own. -/
def relisted (lists : Dict String String) (T : ClientTables) : ClientTables :=
  { T with
    clients := T.clients.mapValues fun clientId row =>
      match lists.lookup clientId with
      | none => row
      | some allowedGrantTypes => { row with allowedGrantTypes } }

variable {lists : Dict String String} {T : ClientTables} {clientId clientSecret : String} {env : Env}

theorem getClient_relisted : (relisted lists T).getClient env clientId = T.getClient env clientId := by
  unfold getClient
  cases env.fails with
  | true => rfl
  | false =>
    simp only [relisted, Dict.lookup_mapValues, Bool.false_eq_true, if_false]
    cases T.clients.lookup clientId with
    | none => rfl
    | some row => cases lists.lookup clientId <;> rfl

theorem validateClient_relisted {sha256Hex : String → String} :
    (relisted lists T).validateClient sha256Hex env clientId clientSecret =
      T.validateClient sha256Hex env clientId clientSecret := by
  unfold validateClient
  cases env.fails with
  | true => rfl
  | false =>
    simp only [relisted, Dict.lookup_mapValues, Bool.false_eq_true, if_false]
    cases T.clients.lookup clientId with
    | none => rfl
    | some row => cases lists.lookup clientId <;> rfl

theorem mem_relisted : clientId ∈ (relisted lists T).clients ↔ clientId ∈ T.clients := by
  rw [← AList.lookup_isSome, ← AList.lookup_isSome, relisted, Dict.lookup_mapValues,
    Option.isSome_map]

theorem onTables_relisted {sha256Hex : String → String} {op : IssueCall} :
    onTables sha256Hex env op (relisted lists T) = onTables sha256Hex env op T := by
  cases op with
  | getClient clientId => exact congrArg some getClient_relisted
  | service op =>
    cases op with
    | validateClient clientId clientSecret => exact congrArg some validateClient_relisted
    | _ => rfl
  | device op =>
    cases op with
    | getClient clientId => exact congrArg some getClient_relisted
    | validateClient clientId clientSecret => exact congrArg some validateClient_relisted
    | _ => rfl
  | _ => rfl

/-- A new client has no list here, so its row is inserted as it is. -/
theorem insertClient_relisted (h : ∀ k ∈ lists, k ∈ T.clients) (row : Oauth2Clients) :
    (relisted lists T).insertClient env row =
      ((T.insertClient env row).1, relisted lists (T.insertClient env row).2) := by
  unfold insertClient
  simp only [mem_relisted]
  split
  · rfl
  · rename_i hnew
    rw [not_or] at hnew
    have hlist : lists.lookup row.clientId = none := by
      rw [AList.lookup_eq_none]
      exact fun hlisted => hnew.2 (h _ hlisted)
    have hnot : row.clientId ∉ (relisted lists T).clients := mt mem_relisted.mp hnew.2
    have hclients : (relisted lists T).clients.insert row.clientId row =
        (relisted lists { T with clients := T.clients.insert row.clientId row }).clients := by
      apply AList.ext
      rw [AList.entries_insert_of_notMem hnot]
      simp only [relisted, Dict.mapValues, AList.entries_insert_of_notMem hnew.2, List.map_cons,
        hlist]
    exact congrArg (fun clients => (true, { relisted lists T with clients })) hclients

theorem replaceScopes_relisted (scopes : List String) :
    (relisted lists T).replaceScopes env clientId scopes =
      ((T.replaceScopes env clientId scopes).1,
        relisted lists (T.replaceScopes env clientId scopes).2) := by
  unfold replaceScopes
  simp only [mem_relisted]
  split
  · rfl
  · split <;> rfl

theorem exec_relisted (h : ∀ k ∈ lists, k ∈ T.clients) (op : ClientCall) :
    Admin.ClientRegistration.exec env op (relisted lists T) =
      ((Admin.ClientRegistration.exec env op T).1,
        relisted lists (Admin.ClientRegistration.exec env op T).2) := by
  cases op with
  | insertClient row => exact insertClient_relisted h row
  | replaceScopes clientId scopes => exact replaceScopes_relisted scopes
  | _ => rfl

theorem mem_exec {k : String} (h : k ∈ T.clients) (op : ClientCall) :
    k ∈ (Admin.ClientRegistration.exec env op T).2.clients := by
  cases op with
  | insertClient row =>
    change k ∈ (T.insertClient env row).2.clients
    unfold insertClient
    split
    · exact h
    · exact (AList.mem_insert T.clients).mpr (.inr h)
  | replaceScopes clientId scopes =>
    change k ∈ (T.replaceScopes env clientId scopes).2.clients
    rw [clients_replaceScopes]
    exact h
  | _ => exact h

/-- The clients that get another list are in the table. -/
def Listed (lists : Dict String String) (s : ClientTables × σ) : Prop :=
  ∀ k ∈ lists, k ∈ s.1.clients

theorem unnoticed (lists : Dict String String) :
    (TokenEndpoint.service cfg rest).Unnoticed (fun s => (relisted lists s.1, s.2))
      (Listed lists) where
  exec := by
    intro s hs env op
    obtain ⟨T, s⟩ := s
    cases op with
    | issue op =>
      change exec _ rest env (.issue op) (relisted lists T, s) = _
      simp only [TokenEndpoint.exec, TokenEndpoint.service, onTables_relisted]
      split <;> rfl
    | client op => exact congrArg (fun r => (r.1, r.2, s)) (exec_relisted hs op)
  keeps := by
    intro s hs env op
    obtain ⟨T, s⟩ := s
    cases op with
    | issue op =>
      change Listed lists (exec _ rest env (.issue op) (T, s)).2
      simp only [TokenEndpoint.exec]
      split <;> exact hs
    | client op => exact fun k hk => mem_exec (hs k hk) op

/-! ### What an issued token went through -/

/-- The secret that the request presents was accepted for its client. -/
def SecretAccepted (req : HttpRequest) (answers : List EndpointAnswer) : Prop :=
  let (clientId, clientSecret) := tokenCredentials req
  ⟨.issue (.service (.validateClient clientId clientSecret)), true⟩ ∈ answers ∨
    ⟨.issue (.device (.validateClient clientId clientSecret)), true⟩ ∈ answers

def ClientFound (req : HttpRequest) (clientType : ClientType) (answers : List EndpointAnswer) :
    Prop :=
  ∃ client : OAuth2Client, client.clientType = clientType ∧
    (⟨.issue (.getClient (tokenCredentials req).1), some client⟩ ∈ answers ∨
      ⟨.issue (.device (.getClient (tokenCredentials req).1)), some client⟩ ∈ answers)

/-- The request names one of the four grants and passed the checks before it: the declared method,
and the secret unless the client is public, which it is not for the client credentials grant. -/
structure Granted (req : HttpRequest) (answers : List EndpointAnswer) : Prop where
  grantType : req.getParameter "grant_type" ∈ RuleSet.grantTypes
  method : ∃ client, ⟨.issue (.getClient (tokenCredentials req).1), client⟩ ∈ answers ∧
    methodErrOf req (tokenCredentials req).2 client = ""
  authenticated : SecretAccepted req answers ∨
    req.getParameter "grant_type" ∈ ["refresh_token", RuleSet.deviceCodeGrantType] ∧
      ClientFound req .PUBLIC answers
  confidential : req.getParameter "grant_type" = "client_credentials" →
    ClientFound req .CONFIDENTIAL answers

variable {req : HttpRequest} {answers : List EndpointAnswer}

theorem Granted.snoc (h : Granted req answers) (a : EndpointAnswer) : Granted req (answers ++ [a]) where
  grantType := h.grantType
  method := by
    obtain ⟨client, hmem, hmethod⟩ := h.method
    exact ⟨client, List.mem_append_left _ hmem, hmethod⟩
  authenticated := by
    rcases h.authenticated with hsecret | ⟨hgrant, client, hpublic, hfound⟩
    · exact .inl (hsecret.imp (List.mem_append_left _) (List.mem_append_left _))
    · refine .inr ⟨hgrant, client, hpublic, ?_⟩
      exact hfound.imp (List.mem_append_left _) (List.mem_append_left _)
  confidential := by
    intro hgrant
    obtain ⟨client, hconfidential, hfound⟩ := h.confidential hgrant
    refine ⟨client, hconfidential, ?_⟩
    exact hfound.imp (List.mem_append_left _) (List.mem_append_left _)

/-- An answer with an access token comes after the checks. -/
def IssuedSeen (req : HttpRequest) (answers : List EndpointAnswer) (reply : EndpointReply) : Prop :=
  ∀ r accessToken, reply = .issue r → r.accessToken = some accessToken → Granted req answers

abbrev Checked (req : HttpRequest) (answers : List EndpointAnswer) (p : EndpointProg) : Prop :=
  p.Course (fun _ _ => True) (IssuedSeen req) answers

theorem checked_call {op : EndpointCall} {k : op.Resp → EndpointProg}
    (hk : ∀ r, Checked req (answers ++ [⟨op, r⟩]) (k r)) : Checked req answers (.call op k) :=
  ⟨trivial, hk⟩

theorem checked_refused {r : IssueReply} (h : r.accessToken = none) :
    Checked req answers (.ret (.issue r)) := by
  intro r' accessToken heq htoken
  cases heq
  rw [h] at htoken
  cases htoken

theorem checked_of_granted (h : Granted req answers) (p : EndpointProg) :
    Checked req answers p := by
  induction p generalizing answers with
  | ret reply => exact fun _ _ _ _ => h
  | call op k ih => exact checked_call fun r => ih r (h.snoc ⟨op, r⟩)

theorem mem_snoc {a : EndpointAnswer} : a ∈ answers ++ [a] :=
  List.mem_append_right _ (List.mem_singleton_self a)

/-- The declared method was enforced. -/
def MethodChecked (req : HttpRequest) (answers : List EndpointAnswer) : Prop :=
  ∃ client, ⟨.issue (.getClient (tokenCredentials req).1), client⟩ ∈ answers ∧
    methodErrOf req (tokenCredentials req).2 client = ""

theorem MethodChecked.snoc (h : MethodChecked req answers) (a : EndpointAnswer) :
    MethodChecked req (answers ++ [a]) := by
  obtain ⟨client, hmem, hmethod⟩ := h
  exact ⟨client, List.mem_append_left _ hmem, hmethod⟩

section Grants

variable {cfg : Config} (hmethod : MethodChecked req answers)

include hmethod

/-- The secret was accepted for a grant that a public client may use too. -/
theorem granted_of_secret (hsecret : SecretAccepted req answers)
    (hgrant : req.getParameter "grant_type" ∈ RuleSet.grantTypes)
    (hother : req.getParameter "grant_type" ≠ "client_credentials") : Granted req answers :=
  ⟨hgrant, hmethod, .inl hsecret, fun h => absurd h hother⟩

theorem granted_of_public (hfound : ClientFound req .PUBLIC answers)
    (hgrant : req.getParameter "grant_type" ∈ ["refresh_token", RuleSet.deviceCodeGrantType]) :
    Granted req answers := by
  refine ⟨?_, hmethod, .inr ⟨hgrant, hfound⟩, ?_⟩
  · rcases List.mem_pair.mp hgrant with h | h <;> rw [h] <;> decide
  · intro h
    rw [h] at hgrant
    exact absurd hgrant (by decide)

theorem checked_exchange (hgrant : req.getParameter "grant_type" = "authorization_code") :
    Checked req answers (onIssue (tokenService cfg
      (.exchange (exchangeRequest req (tokenCredentials req).1 (tokenCredentials req).2)))) := by
  refine checked_call fun isValid => ?_
  cases isValid with
  | false => exact checked_refused rfl
  | true =>
    refine checked_of_granted ?_ _
    refine granted_of_secret (hmethod.snoc _) (.inl mem_snoc) ?_ ?_ <;> rw [hgrant] <;> decide

theorem checked_refresh (hgrant : req.getParameter "grant_type" = "refresh_token") :
    Checked req answers (onIssue (refreshTokenGrant cfg req (tokenCredentials req).1
      (tokenCredentials req).2)) := by
  refine checked_call fun client => ?_
  cases client with
  | none => exact checked_refused rfl
  | some client =>
    simp only
    split
    · split
      · exact checked_refused rfl
      · refine checked_call fun isValid => ?_
        cases isValid with
        | false => exact checked_refused rfl
        | true =>
          refine checked_of_granted ?_ _
          refine granted_of_secret ((hmethod.snoc _).snoc _) (.inl mem_snoc) ?_ ?_ <;>
            rw [hgrant] <;> decide
    · rename_i hpublic
      refine checked_of_granted (granted_of_public (hmethod.snoc _) ⟨client, ?_, .inl mem_snoc⟩ ?_) _
      · cases htype : client.clientType with
        | PUBLIC => rfl
        | CONFIDENTIAL => exact absurd htype hpublic
      · rw [hgrant]
        decide

theorem checked_clientCredentials
    (hgrant : req.getParameter "grant_type" = "client_credentials") :
    Checked req answers (onIssue (clientCredentialsGrant cfg req (tokenCredentials req).1
      (tokenCredentials req).2)) := by
  unfold clientCredentialsGrant
  split
  · exact checked_refused rfl
  refine checked_call fun isValid => ?_
  cases isValid with
  | false => exact checked_refused rfl
  | true =>
    refine checked_call fun client => ?_
    cases client with
    | none => exact checked_refused rfl
    | some client =>
      simp only
      split
      · exact checked_refused rfl
      · rename_i hconfidential
        refine checked_of_granted ?_ _
        refine ⟨?_, (hmethod.snoc _).snoc _, .inl (.inl (List.mem_append_left _ mem_snoc)), ?_⟩
        · rw [hgrant]
          decide
        · refine fun _ => ⟨client, ?_, .inl mem_snoc⟩
          cases htype : client.clientType with
          | PUBLIC => exact absurd htype hconfidential
          | CONFIDENTIAL => rfl

theorem checked_deviceCode
    (hgrant : req.getParameter "grant_type" = RuleSet.deviceCodeGrantType) :
    Checked req answers (onIssue (deviceCode cfg req (tokenCredentials req).1
      (tokenCredentials req).2)) := by
  unfold deviceCode DeviceStatements.deviceCodeGrant
  split
  · exact checked_refused rfl
  refine checked_call fun client => ?_
  cases client with
  | none => exact checked_refused rfl
  | some client =>
    simp only
    split
    · refine checked_call fun isValid => ?_
      cases isValid with
      | false => exact checked_refused rfl
      | true =>
        refine checked_of_granted ?_ _
        refine granted_of_secret ((hmethod.snoc _).snoc _) (.inr mem_snoc) ?_ ?_ <;>
          rw [hgrant] <;> decide
    · rename_i hpublic
      refine checked_of_granted (granted_of_public (hmethod.snoc _) ⟨client, ?_, .inr mem_snoc⟩ ?_) _
      · cases htype : client.clientType with
        | PUBLIC => rfl
        | CONFIDENTIAL => exact absurd htype hpublic
      · rw [hgrant]
        decide

theorem checked_dispatchGrant :
    Checked req answers (onIssue (dispatchGrant cfg req (tokenCredentials req).1
      (tokenCredentials req).2)) := by
  unfold dispatchGrant
  simp only
  split
  · rename_i hgrant
    exact checked_exchange hmethod hgrant
  split
  · rename_i hgrant
    exact checked_refresh hmethod hgrant
  split
  · rename_i hgrant
    exact checked_clientCredentials hmethod hgrant
  split
  · rename_i hgrant
    exact checked_deviceCode hmethod hgrant
  · exact checked_refused rfl

end Grants

theorem token_eq (cfg : Config) (h : RuleSet.oauth2Token req = []) :
    token cfg req = .call (.getClient (tokenCredentials req).1) fun client =>
      if methodErrOf req (tokenCredentials req).2 client ≠ "" then
        invalidClient (methodErrOf req (tokenCredentials req).2 client)
      else dispatchGrant cfg req (tokenCredentials req).1 (tokenCredentials req).2 := by
  rw [token, h]

theorem checked_token (cfg : Config) (req : HttpRequest) :
    Checked req [] (onIssue (token cfg req)) := by
  cases herrors : RuleSet.oauth2Token req with
  | cons error errors =>
    rw [token, herrors]
    exact checked_refused rfl
  | nil =>
    rw [token_eq cfg herrors]
    refine checked_call fun client => ?_
    change Checked req _ (onIssue (if methodErrOf req (tokenCredentials req).2 client ≠ "" then
        invalidClient (methodErrOf req (tokenCredentials req).2 client)
      else dispatchGrant cfg req (tokenCredentials req).1 (tokenCredentials req).2))
    split
    · exact checked_refused rfl
    · rename_i hmethod
      exact checked_dispatchGrant ⟨client, mem_snoc, not_not.mp hmethod⟩

/-! ### Runs of the endpoint -/

/-- A token is issued after the checks of the grant that the request names; what the clients were
registered for decides nothing, as with other lists the same happens in the same order. -/
theorem issued_without_allowlist {T : ClientTables} {s : σ} {history : List _}
    {p : Pool (TokenEndpoint.service cfg rest)}
    (hrun : (TokenEndpoint.service cfg rest).machine.Run anyStep
      ((TokenEndpoint.service cfg rest).start (T, s)) history p)
    {t : Thread (TokenEndpoint.service cfg rest)} (ht : t ∈ p.threads)
    (hrequest : t.request = .token req) {reply : IssueReply} (hreply : t.rest = .ret (.issue reply))
    {accessToken : String} (hissued : reply.accessToken = some accessToken) :
    Granted req t.answers ∧ ∀ lists : Dict String String, (∀ k ∈ lists, k ∈ T.clients) →
      ∃ p', (TokenEndpoint.service cfg rest).machine.Run anyStep
          ((TokenEndpoint.service cfg rest).start (relisted lists T, s)) history p' ∧
        t ∈ p'.threads := by
  refine ⟨?_, ?_⟩
  · have hcourse := t.reached
    rw [hrequest, hreply] at hcourse
    have hchecked := (checked_token cfg.toConfig req).of_reached hcourse
    rw [List.nil_append] at hchecked
    exact hchecked reply accessToken rfl hissued
  · intro lists hlists
    have hlisted : Listed lists (T, s) := hlists
    have hchanged := (unnoticed lists).run hlisted hrun
    exact ⟨_, hchanged, ht⟩

/-! ### A grant that is not allowed -/

/-- In the runs from no clients at all, a token is issued to a client only through a grant type of its
stored list. -/
def AllowlistHonoured (cfg : ClientConfig) (rest : Rest σ) (s : σ) : Prop :=
  ∀ history p, (TokenEndpoint.service cfg rest).machine.Run anyStep
      ((TokenEndpoint.service cfg rest).start (.empty, s)) history p →
    ∀ t ∈ p.threads, ∀ req reply accessToken, t.request = .token req →
      t.rest = .ret (.issue reply) → reply.accessToken = some accessToken →
      ∀ row, p.shared.1.clients.lookup (tokenCredentials req).1 = some row →
        req.getParameter "grant_type" ∈ splitNonEmpty ',' row.allowedGrantTypes

def sampleSalt : String := "5d1a7c30-8f2b-4c6e-9a41-0b3f6d2e8c57"

def sampleId : String := "c2f6e0a4-17d9-4b38-b5ac-93e1f07d6842"

/-- The known values and the digest of a salted secret. -/
def sampleConfig : ClientConfig where
  tokenService :=
    { knownService with
      crypto :=
        { knownCrypto with
          sha256Hex := fun s =>
            if s = knownToken 0 ++ sampleSalt then
              "345182cb2f59a346eb3d24dca8249a393461437e636824bfa9989e5ecdb7c72a"
            else knownCrypto.sha256Hex s } }
  crypto := knownConfig.crypto
  urlEncode := id

abbrev sampleStore := IssueStore Memory.clientRepository Memory.grantRepository

def noTokens : sampleStore where
  store :=
    { clients := (∅ : Memory.Clients)
      grants := (∅ : Memory.AuthCodes)
      tokens := Memory.Tokens.empty }
  deviceCodes := ∅

abbrev sampleEndpoint := TokenEndpoint.service sampleConfig (IssueStore.exec : Rest sampleStore)

/-- A confidential client that asks for no grant types, so that it gets the authorization code. -/
def sampleBody : RegistrationBody where
  clientName := "batch"
  redirectUris := some ["https://b.example/cb"]

def clientCredentialsRequest : HttpRequest where
  session := 0
  params := paramsOf [("grant_type", "client_credentials"), ("scope", "read")]
  basic := some (some (sampleId, knownToken 0))

/-- The client registers and is given a scope. -/
def registrationSteps : List (Input IssueEnv EndpointRequest) :=
  [.start (.client (.register (some sampleBody))),
   .advance 0 { random := sampleId }, .advance 0 { random := knownToken 0 },
   .advance 0 { random := sampleSalt }, .advance 0 { now := 900 }, .advance 0 {},
   .start (.client (.updateScopes sampleId (some ["read"]))), .advance 1 {}]

/-- It asks for a token with its own credentials. -/
def tokenSteps (tid : Nat) : List (Input IssueEnv EndpointRequest) :=
  [.start (.token clientCredentialsRequest),
   .advance tid {}, .advance tid {}, .advance tid {}, .advance tid { random := knownToken 1 },
   .advance tid { now := 1000 }, .advance tid { now := 1000 }]

def executed (T : ClientTables) (steps : List (Input IssueEnv EndpointRequest)) :
    List (Service.Event IssueEnv EndpointCall EndpointCall.Resp EndpointRequest) ×
      Pool sampleEndpoint :=
  sampleEndpoint.machine.exec [] (sampleEndpoint.start (T, noTokens)) steps

theorem run_executed (T : ClientTables) (steps : List (Input IssueEnv EndpointRequest)) :
    sampleEndpoint.machine.Run anyStep (sampleEndpoint.start (T, noTokens)) (executed T steps).1
      (executed T steps).2 :=
  Machine.run_exec _ _ _

def EndpointReply.accessToken : EndpointReply → Option String
  | .issue reply => reply.accessToken
  | .client _ => none

theorem reply_of_accessToken {p : Pool sampleEndpoint} {tid : Nat} {accessToken : String}
    (h : (p.threads[tid]?.bind Thread.result).bind EndpointReply.accessToken = some accessToken) :
    ∃ t reply, p.threads[tid]? = some t ∧ t.rest = .ret (.issue reply) ∧
      reply.accessToken = some accessToken := by
  obtain ⟨reply, hresult, htoken⟩ := Option.bind_eq_some_iff.mp h
  obtain ⟨t, ht, hrest⟩ := Pool.thread_of_result hresult
  cases reply with
  | issue reply => exact ⟨t, reply, ht, hrest, htoken⟩
  | client reply => cases htoken

theorem unlisted_grant_issues : ¬AllowlistHonoured sampleConfig IssueStore.exec noTokens := by
  intro h
  obtain ⟨hissued, hunlisted⟩ :
      ((executed .empty (registrationSteps ++ tokenSteps 2)).2.threads[2]?.bind
          Thread.result).bind EndpointReply.accessToken = some (knownToken 1) ∧
        (executed .empty (registrationSteps ++ tokenSteps 2)).2.shared.1.clients.lookup
            (tokenCredentials clientCredentialsRequest).1 =
          some (registrationRow sampleConfig sampleBody sampleId (knownToken 0) sampleSalt) ∧
        clientCredentialsRequest.getParameter "grant_type" ∉ splitNonEmpty ','
          (registrationRow sampleConfig sampleBody sampleId (knownToken 0)
            sampleSalt).allowedGrantTypes := by
    decide +kernel
  obtain ⟨t, reply, ht, hreply, htoken⟩ := reply_of_accessToken hissued
  have hrun := run_executed .empty (registrationSteps ++ tokenSteps 2)
  have hrequest : t.request = .token clientCredentialsRequest :=
    (Option.some.inj (request_of_exec ht)).symm
  -- what was evaluated above is all that is used of the run, so it becomes a variable
  generalize executed .empty (registrationSteps ++ tokenSteps 2) = run at ht hrun hunlisted
  exact hunlisted.2 (h _ _ hrun t (List.mem_of_getElem? ht)
    clientCredentialsRequest reply (knownToken 1) hrequest hreply htoken _ hunlisted.1)

def registeredTables : ClientTables := (executed .empty registrationSteps).2.shared.1

/-- The same request after the list was replaced by one that has its grant type. -/
theorem issued_without_allowlist_registered :
    ∃ t, (executed registeredTables (tokenSteps 0)).2.threads[0]? = some t ∧
      Granted clientCredentialsRequest t.answers ∧
      ∃ p', sampleEndpoint.machine.Run anyStep
          (sampleEndpoint.start
            (relisted (AList.insert sampleId "client_credentials" ∅) registeredTables, noTokens))
          (executed registeredTables (tokenSteps 0)).1 p' ∧ t ∈ p'.threads := by
  obtain ⟨hissued, hregistered⟩ :
      ((executed registeredTables (tokenSteps 0)).2.threads[0]?.bind Thread.result).bind
          EndpointReply.accessToken = some (knownToken 1) ∧
        sampleId ∈ registeredTables.clients := by
    decide +kernel
  obtain ⟨t, reply, ht, hreply, htoken⟩ := reply_of_accessToken hissued
  have hrequest : t.request = .token clientCredentialsRequest :=
    (Option.some.inj (request_of_exec ht)).symm
  have hgranted := issued_without_allowlist (run_executed registeredTables (tokenSteps 0))
    (List.mem_of_getElem? ht) hrequest hreply htoken
  refine ⟨t, ht, hgranted.1, hgranted.2 _ ?_⟩
  intro k hk
  rwa [(AList.mem_insert _).mp hk |>.resolve_right (AList.notMem_empty k)]

end AuthForge.GrantTypes
