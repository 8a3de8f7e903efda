import AuthForge.Http.Issuance
import AuthForge.Http.Runs

/-!
# Issued tokens are usable

An access token that a caller was given validates until it expires, unless it is revoked, when the
path that issued it stored it under its hash. All paths but the GitHub login do.
-/

namespace AuthForge.UsableTokens

open OAuth2 Http Http.Issuance Http.DeviceStatements Storage Prog Service

variable {cfg : Config} {clients : ClientRepository} {grants : GrantRepository}

/-! ### Draws and saves -/

def savedAccess : IssueCall → Option OAuth2AccessToken
  | .service (.saveTokenPair access _) => some access
  | .device (.saveTokenPair access _) => some access
  | .saveAccessToken access => some access
  | _ => none

def drawn : IssueAnswer → Option String
  | ⟨.service (.generateSecureToken _), r⟩ => some r
  | ⟨.device (.generateSecureToken _), r⟩ => some r
  | _ => none

def drawnBy : IssueEvent → Option String
  | .called _ _ _ a => drawn a
  | _ => none

def draws (history : List IssueEvent) : List String := history.filterMap drawnBy

/-- No two drawn strings have the same hash, and none of them is a hash: 32 and 16 random bytes are
43 and 22 characters, a hash has 64. -/
structure DistinctDraws (cfg : Config) (history : List IssueEvent) : Prop where
  hashes : ((draws history).map (hashToken cfg.tokenService.crypto)).Nodup
  not_hash : ∀ x ∈ draws history, ∀ y ∈ draws history, x ≠ hashToken cfg.tokenService.crypto y

def isGitHub : IssueRequest → Bool
  | .gitHub _ => true
  | _ => false

/-- The key under which a request stores the access token that it draws. -/
def storedKey (cfg : Config) (req : IssueRequest) (tokenStr : String) : String :=
  if isGitHub req then tokenStr else hashToken cfg.tokenService.crypto tokenStr

/-! ### What a request has drawn when it saves and when it answers -/

def NoneSaved (answers : List IssueAnswer) : Prop := ∀ a ∈ answers, savedAccess a.op = none

/-- A save is the first of its request and stores a drawn token. -/
def SaveSeen (key : String → String) (answers : List IssueAnswer) (op : IssueCall) : Prop :=
  ∀ access, savedAccess op = some access →
    NoneSaved answers ∧ ∃ tokenStr, access.token = key tokenStr ∧
      ∃ a ∈ answers, drawn a = some tokenStr

/-- A token is handed out right after it was saved. -/
def ReplySeen (key : String → String) (answers : List IssueAnswer) (reply : IssueReply) : Prop :=
  ∀ tokenStr, reply.accessToken = some tokenStr →
    ∃ a ∈ answers, (∃ access, savedAccess a.op = some access ∧ access.token = key tokenStr ∧
        access.revoked = false) ∧
      ∃ d ∈ answers, drawn d = some tokenStr

abbrev Seen (key : String → String) (answers : List IssueAnswer) (p : IssueProg) : Prop :=
  p.Course (SaveSeen key) (ReplySeen key) answers

variable {key : String → String} {answers : List IssueAnswer}

theorem NoneSaved.snoc (h : NoneSaved answers) {a : IssueAnswer} (ha : savedAccess a.op = none) :
    NoneSaved (answers ++ [a]) := by
  intro b hb
  rcases List.mem_append.mp hb with hb | hb
  · exact h b hb
  · rwa [List.mem_singleton.mp hb]

theorem noneSaved_nil : NoneSaved [] := by
  intro a ha
  cases ha

theorem saveSeen_of_not_save {op : IssueCall} (h : savedAccess op = none) :
    SaveSeen key answers op := by
  intro access haccess
  rw [h] at haccess
  cases haccess

/-- An operation that saves nothing: what is seen after it is seen with it. -/
theorem seen_call {op : IssueCall} {k : op.Resp → IssueProg} (h : NoneSaved answers)
    (hop : savedAccess op = none)
    (hk : ∀ r, NoneSaved (answers ++ [⟨op, r⟩]) → Seen key (answers ++ [⟨op, r⟩]) (k r)) :
    Seen key answers (.call op k) :=
  ⟨saveSeen_of_not_save hop, fun r => hk r (h.snoc hop)⟩

theorem seen_ret {reply : IssueReply} (h : reply.accessToken = none) :
    Seen key answers (.ret reply) := by
  intro tokenStr htoken
  rw [h] at htoken
  cases htoken

/-- A save that is answered at once, with the token it stored or with none. -/
theorem seen_save {op : IssueCall} {k : op.Resp → IssueProg} {access : OAuth2AccessToken}
    {tokenStr : String} {a : IssueAnswer} (h : NoneSaved answers)
    (hop : savedAccess op = some access) (hkey : access.token = key tokenStr)
    (hrevoked : access.revoked = false) (ha : a ∈ answers) (hdrawn : drawn a = some tokenStr)
    (hk : ∀ r, ∃ reply, k r = .ret reply ∧
      (reply.accessToken = none ∨ reply.accessToken = some tokenStr)) :
    Seen key answers (.call op k) := by
  refine ⟨?_, ?_⟩
  · intro access' haccess'
    obtain rfl := Option.some.inj (hop.symm.trans haccess')
    exact ⟨h, tokenStr, hkey, a, ha, hdrawn⟩
  · intro r
    obtain ⟨reply, hreply, htoken⟩ := hk r
    rw [hreply]
    rcases htoken with htoken | htoken
    · exact seen_ret htoken
    · intro tokenStr' htokenStr'
      obtain rfl := Option.some.inj (htoken.symm.trans htokenStr')
      exact ⟨⟨op, r⟩, by simp, ⟨access, hop, hkey, hrevoked⟩, a, List.mem_append_left _ ha, hdrawn⟩

/-! ### The six paths -/

abbrev hash (cfg : Config) : String → String := hashToken cfg.tokenService.crypto

theorem seen_service_ret {wrap : Reply → IssueReply}
    (hwrap : ∀ reply, (wrap reply).accessToken = (IssueReply.service reply).accessToken)
    {reply : Reply} (h : ∀ response, reply ≠ .tokens response) :
    Seen key answers (.ret (wrap reply)) := by
  refine seen_ret ?_
  rw [hwrap]
  cases reply with
  | tokens response => exact absurd rfl (h response)
  | _ => rfl

section

variable {wrap : Reply → IssueReply}
  (hwrap : ∀ reply, (wrap reply).accessToken = (IssueReply.service reply).accessToken)

include hwrap

theorem seen_resolveRoles {subject : String} {cb : List String → RepoProg}
    (h : NoneSaved answers)
    (hcb : ∀ answers roles, NoneSaved answers → Seen (hash cfg) answers
      ((onService (cb roles)).bind fun reply => .ret (wrap reply))) :
    Seen (hash cfg) answers ((onService (cfg.tokenService.resolveRoles subject cb)).bind
      fun reply => .ret (wrap reply)) := by
  unfold TokenService.resolveRoles
  split
  · exact hcb _ _ h
  split
  · exact seen_call h rfl fun roles h => hcb _ roles h
  split
  · exact hcb _ _ h
  split
  · exact seen_service_ret hwrap nofun
  refine seen_call h rfl fun internalUserId h => ?_
  cases internalUserId with
  | none => exact hcb _ _ h
  | some userId => exact seen_call h rfl fun roles h => hcb _ roles h

theorem seen_exchange (r : ExchangeRequest) (h : NoneSaved answers) :
    Seen (hash cfg) answers ((onService (cfg.tokenService.program (.exchange r))).bind
      fun reply => .ret (wrap reply)) := by
  refine seen_call h rfl fun isValid h => ?_
  cases isValid with
  | false => exact seen_service_ret hwrap nofun
  | true =>
  refine seen_call h rfl fun authCodeOpt h => ?_
  cases authCodeOpt with
  | none => exact seen_service_ret hwrap nofun
  | some authCode =>
  dsimp only
  split
  · exact seen_service_ret hwrap nofun
  cases hpkce : cfg.tokenService.pkceFailure authCode r.codeVerifier with
  | some reply =>
    refine seen_service_ret hwrap ?_
    intro response heq
    exact TokenService.pkceFailure_ne_tokens (heq ▸ hpkce)
  | none =>
  refine seen_call h rfl fun now h => ?_
  dsimp only
  split
  · exact seen_service_ret hwrap nofun
  refine seen_resolveRoles hwrap h fun answers roles h => ?_
  refine seen_call h rfl fun tokenStr h => ?_
  refine seen_call h rfl fun refreshTokenStr h => ?_
  refine seen_call h rfl fun familyId h => ?_
  refine seen_save (a := ⟨.service (.generateSecureToken 32), tokenStr⟩) h rfl rfl rfl (by simp)
    rfl ?_
  intro ok
  cases ok with
  | false => exact ⟨_, rfl, .inl (hwrap _)⟩
  | true => exact ⟨_, rfl, .inr (hwrap _)⟩

theorem seen_refresh (r : RefreshRequest) (h : NoneSaved answers) :
    Seen (hash cfg) answers ((onService (cfg.tokenService.program (.refresh r))).bind
      fun reply => .ret (wrap reply)) := by
  refine seen_call h rfl fun storedRt h => ?_
  cases storedRt with
  | none =>
    refine seen_call h rfl fun maybeRevoked h => ?_
    cases maybeRevoked with
    | none => exact seen_service_ret hwrap nofun
    | some rt =>
      dsimp only
      split
      · exact seen_call h rfl fun _ _ => seen_service_ret hwrap nofun
      · exact seen_service_ret hwrap nofun
  | some rt =>
    dsimp only
    split
    · exact seen_service_ret hwrap nofun
    refine seen_call h rfl fun now h => ?_
    dsimp only
    split
    · exact seen_service_ret hwrap nofun
    refine seen_call h rfl fun tokenStr h => ?_
    refine seen_call h rfl fun refreshTokenStr h => ?_
    refine seen_save (a := ⟨.service (.generateSecureToken 32), tokenStr⟩) h rfl rfl rfl (by simp)
      rfl ?_
    intro ok
    cases ok with
    | false => exact ⟨_, rfl, .inl (hwrap _)⟩
    | true => exact ⟨_, rfl, .inr (hwrap _)⟩

end

theorem seen_service (r : Request) : Seen (hash cfg) [] (tokenService cfg r) := by
  have hwrap : ∀ reply : Reply, (IssueReply.service reply).accessToken =
      (IssueReply.service reply).accessToken := fun _ => rfl
  cases r with
  | generate r =>
    refine seen_call noneSaved_nil rfl fun code h => ?_
    refine seen_call h rfl fun now h => ?_
    exact seen_call h rfl fun _ _ => seen_ret rfl
  | exchange r => exact seen_exchange hwrap r noneSaved_nil
  | refresh r => exact seen_refresh hwrap r noneSaved_nil
  | purgeExpired => exact seen_call noneSaved_nil rfl fun _ _ => seen_ret rfl

theorem seen_device_lookup {clientId deviceCodeHash : String} (h : NoneSaved answers) :
    Seen (hash cfg) answers ((onDevice (runDeviceCodeLookup cfg clientId deviceCodeHash)).bind
      fun response => .ret (.http response)) := by
  refine seen_call h rfl fun found h => ?_
  rcases found with _ | _ | row
  · exact seen_ret rfl
  · exact seen_ret rfl
  dsimp only
  split
  · exact seen_ret rfl
  refine seen_call h rfl fun now h => ?_
  dsimp only
  split
  · exact seen_ret rfl
  split
  · unfold DeviceStatements.pollPending
    split
    · exact seen_call h rfl fun _ _ => seen_ret rfl
    · exact seen_call h rfl fun _ _ => seen_ret rfl
  · exact seen_ret rfl
  · exact seen_ret rfl
  · refine seen_call h rfl fun consumed h => ?_
    rcases consumed with _ | _ | _
    · exact seen_ret rfl
    · exact seen_ret rfl
    refine seen_call h rfl fun tokenStr h => ?_
    refine seen_call h rfl fun refreshTokenStr h => ?_
    refine seen_call h rfl fun familyId h => ?_
    refine seen_save (a := ⟨.device (.generateSecureToken 32), tokenStr⟩) h rfl rfl rfl (by simp)
      rfl ?_
    intro ok
    cases ok with
    | false => exact ⟨_, rfl, .inl rfl⟩
    | true => exact ⟨_, rfl, .inr rfl⟩

theorem seen_approve (req : HttpRequest) :
    Seen (hash cfg) [] (deviceGrant cfg (.approve req)) := by
  unfold deviceGrant DeviceStatements.program DeviceStatements.approveDevice
  dsimp only
  split
  · exact seen_ret rfl
  split
  · exact seen_ret rfl
  refine seen_call noneSaved_nil rfl fun found h => ?_
  rcases found with _ | ⟨deviceCodeHash, code⟩
  · exact seen_ret rfl
  dsimp only
  split
  · exact seen_ret rfl
  refine seen_call h rfl fun now h => ?_
  dsimp only
  split
  · exact seen_ret rfl
  refine seen_call h rfl fun row h => ?_
  cases row with
  | none => exact seen_ret rfl
  | some row =>
    refine seen_call h rfl fun success h => ?_
    cases success with
    | false => exact seen_ret rfl
    | true => exact seen_ret rfl

theorem seen_poll (req : HttpRequest) : Seen (hash cfg) [] (deviceGrant cfg (.poll req)) := by
  simp only [deviceGrant, DeviceStatements.program, deviceToken]
  refine seen_call noneSaved_nil rfl fun client h => ?_
  beta_reduce
  split
  · exact seen_ret rfl
  unfold DeviceStatements.deviceCodeGrant
  split
  · exact seen_ret rfl
  refine seen_call h rfl fun client h => ?_
  cases client with
  | none => exact seen_ret rfl
  | some client =>
  dsimp only
  split
  · refine seen_call h rfl fun valid h => ?_
    cases valid with
    | false => exact seen_ret rfl
    | true => exact seen_device_lookup h
  · exact seen_device_lookup h

theorem seen_clientCredentials (req : HttpRequest) :
    Seen (hash cfg) [] (clientCredentials cfg req) := by
  simp only [clientCredentials]
  refine seen_call noneSaved_nil rfl fun client h => ?_
  split
  · exact seen_ret rfl
  unfold clientCredentialsGrant
  split
  · exact seen_ret rfl
  refine seen_call h rfl fun valid h => ?_
  cases valid with
  | false => exact seen_ret rfl
  | true =>
  refine seen_call h rfl fun client h => ?_
  cases client with
  | none => exact seen_ret rfl
  | some client =>
  dsimp only
  split
  · exact seen_ret rfl
  split
  · exact seen_ret rfl
  refine seen_call h rfl fun tokenStr h => ?_
  refine seen_call h rfl fun now h => ?_
  refine seen_save (a := ⟨.service (.generateSecureToken 32), tokenStr⟩) h rfl rfl rfl (by simp)
    rfl ?_
  exact fun _ => ⟨_, rfl, .inr rfl⟩

theorem seen_mfa (r : CodeRequest) (f : MfaController.VerifyFields) :
    Seen (hash cfg) [] (completeMfa cfg r f) := by
  refine seen_call noneSaved_nil rfl fun code h => ?_
  refine seen_call h rfl fun now h => ?_
  refine seen_call h rfl fun _ h => ?_
  have hwrap : ∀ reply, (IssueReply.http (mfaExchanged reply)).accessToken =
      (IssueReply.service reply).accessToken := by
    intro reply
    cases reply <;> rfl
  exact seen_exchange hwrap _ h

theorem seen_gitHub (code : String) : Seen id [] (gitHubLogin cfg code) := by
  refine seen_call noneSaved_nil rfl fun user h => ?_
  cases user with
  | error errorCode => exact seen_ret rfl
  | ok userId =>
  refine seen_call h rfl fun tokenStr h => ?_
  refine seen_call h rfl fun refreshTokenStr h => ?_
  refine seen_call h rfl fun now h => ?_
  refine seen_save (a := ⟨.service (.generateSecureToken 32), tokenStr⟩) h rfl rfl rfl (by simp)
    rfl ?_
  intro ok
  cases ok with
  | false => exact ⟨_, rfl, .inl rfl⟩
  | true => exact ⟨_, rfl, .inr rfl⟩

theorem seen_program (req : IssueRequest) :
    Seen (storedKey cfg req) [] (Issuance.program cfg req) := by
  cases req with
  | service r => exact seen_service r
  | device r =>
    cases r with
    | approve req => exact seen_approve req
    | poll req => exact seen_poll req
  | clientCredentials req => exact seen_clientCredentials req
  | mfa r f => exact seen_mfa r f
  | gitHub code => exact seen_gitHub code
  | revokeAccessToken token revokedBy =>
    exact seen_call noneSaved_nil rfl fun _ _ => seen_ret rfl
  | revokeRefreshToken token => exact seen_call noneSaved_nil rfl fun _ _ => seen_ret rfl
  | incrementIntrospectCount token => exact seen_call noneSaved_nil rfl fun _ _ => seen_ret rfl
  | purgeExpired => exact seen_call noneSaved_nil rfl fun _ _ => seen_ret rfl

/-! ### The access tokens in memory -/

/-- What an operation does to the tokens in memory. -/
def tokensAfter (env : IssueEnv) : IssueCall → Memory.Tokens → Memory.Tokens
  | .service (.saveTokenPair access refresh), s => (Memory.saveTokenPair env.now access refresh s).2
  | .service (.atomicRevokeRefreshToken token), s => (Memory.atomicRevokeRefreshToken token s).2
  | .service (.revokeTokenFamily familyId), s => Memory.revokeTokenFamily familyId s
  | .device (.saveTokenPair access refresh), s => (Memory.saveTokenPair env.now access refresh s).2
  | .saveAccessToken token, s => Memory.saveAccessToken env.now token s
  | .revokeAccessToken token revokedBy, s => Memory.revokeAccessToken env.now token revokedBy s
  | .revokeRefreshToken token, s => Memory.revokeRefreshToken token s
  | .incrementIntrospectCount token, s => Memory.incrementIntrospectCount token s
  | .purgeExpired, s => Memory.purgeExpired env.now s
  | _, s => s

variable {env : IssueEnv} {op : IssueCall}

theorem exec_tokens {s : IssueStore clients grants} :
    (IssueStore.exec env op s).2.tokens = tokensAfter env op s.tokens := by
  cases op with
  | service op => cases op <;> rfl
  | device op =>
    cases op with
    | setApproved deviceCodeHash userId =>
      simp only [IssueStore.exec, DeviceStore.exec, IssueStore.tokens]
      split <;> rfl
    | setPolled deviceCodeHash interval lastPolledAt =>
      simp only [IssueStore.exec, DeviceStore.exec, IssueStore.tokens]
      split <;> rfl
    | consume deviceCodeHash =>
      simp only [IssueStore.exec, DeviceStore.exec, IssueStore.tokens]
      split <;> rfl
    | _ => rfl
  | _ => rfl

/-- A revocation of this token, or of a family with a refresh token that came with it. -/
def Hits (tokens : Memory.Tokens) (token : String) : IssueCall → Prop
  | .revokeAccessToken token' _ => token' = token
  | .service (.revokeTokenFamily familyId) =>
    tokens.refreshTokens.anyValue (fun rt => rt.familyId = familyId ∧ rt.accessToken = token) = true
  | _ => False

/-- The token is on record, not revoked, with everything that validation answers with. -/
def OnRecord (tokens : Memory.Tokens) (access : OAuth2AccessToken) : Prop :=
  ∃ row, tokens.accessTokens.lookup access.token = some row ∧ row.userId = access.userId ∧
    row.clientId = access.clientId ∧ row.scope = access.scope ∧
    row.expiresAt = access.expiresAt ∧ row.revoked = false

theorem OnRecord.of_lookup {tokens tokens' : Memory.Tokens} {access : OAuth2AccessToken}
    (h : OnRecord tokens access)
    (hsame : tokens'.accessTokens.lookup access.token = tokens.accessTokens.lookup access.token) :
    OnRecord tokens' access := by
  obtain ⟨row, hrow, hrest⟩ := h
  exact ⟨row, hsame.trans hrow, hrest⟩

theorem onRecord_saveAccessToken {tokens : Memory.Tokens} {access : OAuth2AccessToken} {now : Int}
    (hrevoked : access.revoked = false) :
    OnRecord (Memory.saveAccessToken now access tokens) access :=
  ⟨_, AList.lookup_insert _, rfl, rfl, rfl, rfl, hrevoked⟩

theorem onRecord_save {tokens : Memory.Tokens} {access : OAuth2AccessToken}
    (hop : savedAccess op = some access) (hrevoked : access.revoked = false) :
    OnRecord (tokensAfter env op tokens) access := by
  unfold savedAccess at hop
  split at hop
  · cases hop
    exact onRecord_saveAccessToken hrevoked
  · cases hop
    exact onRecord_saveAccessToken hrevoked
  · cases hop
    exact onRecord_saveAccessToken hrevoked
  · cases hop

theorem lookup_saveAccessToken {tokens : Memory.Tokens} {access : OAuth2AccessToken} {now : Int}
    {k : String} (h : access.token ≠ k) :
    (Memory.saveAccessToken now access tokens).accessTokens.lookup k =
      tokens.accessTokens.lookup k :=
  AList.lookup_insert_ne (Ne.symm h)

theorem atomicRevoke_accessTokens {token : String} {tokens : Memory.Tokens} :
    (Memory.atomicRevokeRefreshToken token tokens).2.accessTokens = tokens.accessTokens := by
  cases h : (Memory.atomicRevokeRefreshToken token tokens).1 with
  | none => rw [Memory.atomicRevokeRefreshToken_eq_none h]
  | some rt =>
    obtain ⟨-, -, -, -, hafter⟩ := Memory.atomicRevokeRefreshToken_eq_some h
    rw [hafter]

/-- A token stays on record until it is revoked, overwritten or swept after it has expired. -/
theorem OnRecord.tokensAfter {tokens : Memory.Tokens} {access : OAuth2AccessToken}
    (h : OnRecord tokens access) (hhits : ¬Hits tokens access.token op)
    (hsave : ∀ a, savedAccess op = some a → a.token ≠ access.token)
    (hclock : env.now ≤ access.expiresAt) : OnRecord (tokensAfter env op tokens) access := by
  unfold UsableTokens.tokensAfter
  split
  · exact h.of_lookup (lookup_saveAccessToken (hsave _ rfl))
  · exact h.of_lookup (by rw [atomicRevoke_accessTokens])
  · rename_i familyId
    have hmiss : ¬tokens.refreshTokens.anyValue
        (fun rt => rt.familyId = familyId ∧ rt.accessToken = access.token) = true := hhits
    refine h.of_lookup ?_
    rw [Memory.revokeTokenFamily, Dict.lookup_mapValues]
    simp only [if_neg hmiss, Option.map_id']
  · exact h.of_lookup (lookup_saveAccessToken (hsave _ rfl))
  · exact h.of_lookup (lookup_saveAccessToken (hsave _ rfl))
  · rename_i token revokedBy
    have hne : ¬access.token = token := fun heq => hhits heq.symm
    refine h.of_lookup ?_
    rw [Memory.revokeAccessToken, Dict.lookup_mapValues]
    simp only [if_neg hne, Option.map_id']
  · exact h
  · obtain ⟨row, hrow, huser, hclient, hscope, hexpires, hrevoked⟩ := h
    rw [OnRecord, Memory.incrementIntrospectCount, Dict.lookup_mapValues, hrow]
    refine ⟨_, rfl, ?_⟩
    split <;> exact ⟨huser, hclient, hscope, hexpires, hrevoked⟩
  · obtain ⟨row, hrow, huser, hclient, hscope, hexpires, hrevoked⟩ := h
    refine ⟨row, ?_, huser, hclient, hscope, hexpires, hrevoked⟩
    rw [Memory.purgeExpired, Dict.lookup_keepValues, hrow]
    have hlive : env.now ≤ row.expiresAt := by omega
    simp [hlive]
  · exact h

/-- Only a save adds a key. -/
theorem lookup_tokensAfter_eq_none {tokens : Memory.Tokens} {k : String}
    (h : tokens.accessTokens.lookup k = none)
    (hsave : ∀ a, savedAccess op = some a → a.token ≠ k) :
    (tokensAfter env op tokens).accessTokens.lookup k = none := by
  unfold tokensAfter
  split
  · exact (lookup_saveAccessToken (hsave _ rfl)).trans h
  · rw [atomicRevoke_accessTokens, h]
  · rw [Memory.revokeTokenFamily, Dict.lookup_mapValues, h]
    rfl
  · exact (lookup_saveAccessToken (hsave _ rfl)).trans h
  · exact (lookup_saveAccessToken (hsave _ rfl)).trans h
  · rw [Memory.revokeAccessToken, Dict.lookup_mapValues, h]
    rfl
  · exact h
  · rw [Memory.incrementIntrospectCount, Dict.lookup_mapValues, h]
    rfl
  · rw [Memory.purgeExpired, Dict.lookup_keepValues, h]
    rfl
  · exact h

/-! ### Along a run -/

section Run

variable {ok : Guard (Pool (service cfg clients grants)) (Input IssueEnv IssueRequest) IssueEvent}
  {s₀ : IssueStore clients grants} {p : Pool (service cfg clients grants)}
  {history later past : List IssueEvent} {tid : Nat} {req : IssueRequest} {a : IssueAnswer}

theorem mem_draws {x : String} :
    x ∈ draws history ↔ ∃ tid req env d, .called tid req env d ∈ history ∧ drawn d = some x := by
  rw [draws, List.mem_filterMap]
  constructor
  · intro h
    obtain ⟨e, he, hx⟩ := h
    cases e with
    | called tid req env d => exact ⟨tid, req, env, d, he, hx⟩
    | started => cases hx
    | idle => cases hx
  · intro h
    obtain ⟨tid, req, env, d, he, hx⟩ := h
    exact ⟨_, he, hx⟩

/-- Two draws with the same hash are one draw. -/
theorem DistinctDraws.same_request (h : DistinctDraws cfg history) {tid' : Nat}
    {req' : IssueRequest} {env env' : IssueEnv} {d d' : IssueAnswer} {x y : String}
    (he : .called tid req env d ∈ history) (he' : .called tid' req' env' d' ∈ history)
    (hd : drawn d = some x) (hd' : drawn d' = some y) (heq : hash cfg x = hash cfg y) :
    tid = tid' ∧ x = y := by
  have hnodup : (history.filterMap fun e => (drawnBy e).map (hash cfg)).Nodup := by
    rw [← List.map_filterMap]
    exact h.hashes
  have hsame := eq_of_nodup_filterMap hnodup he he' (v := hash cfg x)
    (by simp [drawnBy, hd]) (by simp [drawnBy, hd', heq])
  cases hsame
  exact ⟨rfl, Option.some.inj (hd.symm.trans hd')⟩

theorem mem_past_of_answer (later : List IssueEvent) {d : IssueAnswer} (h : d ∈ answersOf tid past) :
    ∃ req env, .called tid req env d ∈ later ++ past := by
  obtain ⟨req, env, he⟩ := mem_answersOf.mp h
  exact ⟨req, env, List.mem_append_right _ he⟩

/-- Where a saved token comes from. -/
theorem save_origin {env : IssueEnv} {access : OAuth2AccessToken}
    (hrun : (service cfg clients grants).machine.Run ok ((service cfg clients grants).start s₀)
      (later ++ .called tid req env a :: past) p)
    (hsaved : savedAccess a.op = some access) :
    NoneSaved (answersOf tid past) ∧ ∃ tokenStr, access.token = storedKey cfg req tokenStr ∧
      ∃ d ∈ answersOf tid past, drawn d = some tokenStr := by
  obtain ⟨k, hreached⟩ := reached_of_called_of_split hrun
  exact ((seen_program req).of_reached hreached).1 access hsaved

/-- No later save overwrites a token that was stored under its hash. -/
theorem later_saves_differ {env : IssueEnv} {access : OAuth2AccessToken}
    (hrun : (service cfg clients grants).machine.Run ok ((service cfg clients grants).start s₀)
      (later ++ .called tid req env a :: past) p)
    (hdistinct : DistinctDraws cfg (later ++ .called tid req env a :: past))
    (hsaved : savedAccess a.op = some access) (hhashed : isGitHub req = false) {tid' : Nat}
    {req' : IssueRequest} {env' : IssueEnv} {a' : IssueAnswer} {access' : OAuth2AccessToken}
    (hlater : .called tid' req' env' a' ∈ later) (hsaved' : savedAccess a'.op = some access') :
    access'.token ≠ access.token := by
  intro heq
  obtain ⟨-, tokenStr, hkey, d, hd, hdrawn⟩ := save_origin hrun hsaved
  obtain ⟨reqd, envd, hed⟩ := mem_past_of_answer (later ++ [.called tid req env a]) hd
  rw [List.append_assoc, List.singleton_append] at hed
  obtain ⟨post, between, rfl⟩ := List.append_of_mem hlater
  have hrun' := hrun
  rw [List.append_assoc, List.cons_append] at hrun'
  obtain ⟨hnone, tokenStr', hkey', d', hd', hdrawn'⟩ := save_origin hrun' hsaved'
  obtain ⟨reqd', envd', hed'⟩ := mem_past_of_answer (post ++ [.called tid' req' env' a']) hd'
  rw [List.append_assoc, List.singleton_append, ← List.cons_append, ← List.append_assoc] at hed'
  rw [storedKey, hhashed] at hkey
  rw [hkey, hkey', storedKey] at heq
  cases hgit : isGitHub req' with
  | true =>
    rw [hgit] at heq
    exact hdistinct.not_hash tokenStr' (mem_draws.mpr ⟨_, _, _, _, hed', hdrawn'⟩) tokenStr
      (mem_draws.mpr ⟨_, _, _, _, hed, hdrawn⟩) heq
  | false =>
    rw [hgit] at heq
    obtain ⟨rfl, -⟩ := hdistinct.same_request hed' hed hdrawn' hdrawn heq
    have hmine : a ∈ answersOf tid' (between ++ .called tid' req env a :: past) :=
      mem_answersOf.mpr ⟨req, env, by simp⟩
    have := hnone a hmine
    rw [hsaved] at this
    cases this

/-- The hash of a token that was stored as it is keys no record. -/
theorem saves_differ_from_raw {env : IssueEnv} {access : OAuth2AccessToken} {tokenStr : String}
    (hrun : (service cfg clients grants).machine.Run ok ((service cfg clients grants).start s₀)
      (later ++ .called tid req env a :: past) p)
    (hdistinct : DistinctDraws cfg (later ++ .called tid req env a :: past))
    (hsaved : savedAccess a.op = some access) {tid' : Nat} {req' : IssueRequest}
    {env' : IssueEnv} {d : IssueAnswer}
    (hdraw : .called tid' req' env' d ∈ later ++ .called tid req env a :: past)
    (hdrawn : drawn d = some tokenStr) (hraw : isGitHub req' = true) :
    access.token ≠ hash cfg tokenStr := by
  intro heq
  obtain ⟨-, x, hkey, dx, hdx, hdrawnx⟩ := save_origin hrun hsaved
  obtain ⟨reqx, envx, hex⟩ := mem_past_of_answer (later ++ [.called tid req env a]) hdx
  rw [List.append_assoc, List.singleton_append] at hex
  rw [hkey, storedKey] at heq
  cases hgit : isGitHub req with
  | true =>
    rw [hgit] at heq
    exact hdistinct.not_hash x (mem_draws.mpr ⟨_, _, _, _, hex, hdrawnx⟩) tokenStr
      (mem_draws.mpr ⟨_, _, _, _, hdraw, hdrawn⟩) heq
  | false =>
    rw [hgit] at heq
    obtain ⟨rfl, -⟩ := hdistinct.same_request hex hdraw hdrawnx hdrawn heq
    have hmine : .called tid req env a ∈ later ++ .called tid req env a :: past := by simp
    rw [request_unique hrun hdraw hmine, hgit] at hraw
    cases hraw

/-- The events of a run up to a time. -/
def NotAfter (now : Int) : IssueEvent → Prop
  | .called _ _ env _ => env.now ≤ now
  | _ => True

def HitBy (tokens : Memory.Tokens) (token : String) : IssueEvent → Prop
  | .called _ _ _ a => Hits tokens token a.op
  | _ => False

variable (cfg s₀) in
/-- No event of `later` revokes the token; `earlier` are the events before. -/
def Unrevoked (token : String) (later earlier : List IssueEvent) : Prop :=
  Always (fun between e =>
    ¬HitBy ((service cfg clients grants).replay s₀ (between ++ earlier)).tokens token e) later

theorem onRecord_replay {access : OAuth2AccessToken} {now : Int} {earlier : List IssueEvent}
    (h : OnRecord ((service cfg clients grants).replay s₀ earlier).tokens access)
    (hhits : Unrevoked cfg s₀ access.token later earlier)
    (hsaves : ∀ tid req env a, .called tid req env a ∈ later →
      ∀ access', savedAccess a.op = some access' → access'.token ≠ access.token)
    (hclock : ∀ e ∈ later, NotAfter now e) (hnow : now ≤ access.expiresAt) :
    OnRecord ((service cfg clients grants).replay s₀ (later ++ earlier)).tokens access := by
  induction later with
  | nil => exact h
  | cons e later ih =>
    have hbefore := ih hhits.2
      (fun tid req env a he => hsaves tid req env a (List.mem_cons_of_mem _ he))
      (fun e he => hclock e (List.mem_cons_of_mem _ he))
    cases e with
    | started => exact hbefore
    | idle => exact hbefore
    | called tid req env a =>
      have hle : env.now ≤ now := hclock _ List.mem_cons_self
      rw [List.cons_append, replay]
      change OnRecord (IssueStore.exec env a.op _).2.tokens access
      rw [exec_tokens]
      exact hbefore.tokensAfter hhits.1 (hsaves tid req env a List.mem_cons_self)
        (hle.trans hnow)

theorem replay_lookup_eq_none {k : String} (hempty : s₀.tokens = Memory.Tokens.empty)
    (hsaves : ∀ tid req env a, .called tid req env a ∈ history →
      ∀ access, savedAccess a.op = some access → access.token ≠ k) :
    ((service cfg clients grants).replay s₀ history).tokens.accessTokens.lookup k = none := by
  induction history with
  | nil =>
    change s₀.tokens.accessTokens.lookup k = none
    rw [hempty]
    exact AList.lookup_empty k
  | cons e past ih =>
    have hbefore := ih fun tid req env a he => hsaves tid req env a (List.mem_cons_of_mem _ he)
    cases e with
    | started => exact hbefore
    | idle => exact hbefore
    | called tid req env a =>
      rw [replay]
      change (IssueStore.exec env a.op _).2.tokens.accessTokens.lookup k = none
      rw [exec_tokens]
      exact lookup_tokensAfter_eq_none hbefore (hsaves tid req env a List.mem_cons_self)

/-- A request that handed out a token has saved it. -/
theorem saved_of_returned
    (hrun : (service cfg clients grants).machine.Run ok ((service cfg clients grants).start s₀)
      history p)
    {t : Thread (service cfg clients grants)} {reply : IssueReply} {tokenStr : String}
    (ht : p.threads[tid]? = some t) (hreturned : t.rest = .ret reply)
    (htoken : reply.accessToken = some tokenStr) :
    (∃ later env a access past, history = later ++ .called tid t.request env a :: past ∧
      savedAccess a.op = some access ∧ access.token = storedKey cfg t.request tokenStr ∧
      access.revoked = false) ∧
    ∃ env d, .called tid t.request env d ∈ history ∧ drawn d = some tokenStr := by
  have hdesc := described_of_run hrun
  have hcourse := course_of_thread (S := service cfg clients grants) seen_program t
  rw [hreturned] at hcourse
  obtain ⟨a, ha, ⟨access, hsaved, hkey, hrevoked⟩, d, hd, hdrawn⟩ := hcourse tokenStr htoken
  rw [hdesc.answers ht] at ha hd
  obtain ⟨req, env, he⟩ := mem_answersOf.mp ha
  obtain ⟨req', env', he'⟩ := mem_answersOf.mp hd
  obtain rfl := hdesc.request ht he
  obtain rfl := hdesc.request ht he'
  obtain ⟨later, past, hsplit⟩ := List.append_of_mem he
  exact ⟨⟨later, env, a, access, past, hsplit, hsaved, hkey, hrevoked⟩, env', d, he', hdrawn⟩

end Run

/-! ### Validation -/

/-- Validation finds the token at one time and checks its expiry at another. -/
def Validates (cfg : Config) (tokens : Memory.Tokens) (now now' : Int) (tokenStr : String)
    (access : OAuth2AccessToken) : Prop :=
  ∃ found, cfg.tokenService.validateAccessToken (fun k => Memory.getAccessToken now k tokens) now'
      tokenStr = some found ∧
    found.userId = access.userId ∧ found.clientId = access.clientId ∧ found.scope = access.scope

theorem OnRecord.validates {tokens : Memory.Tokens} {access : OAuth2AccessToken} {now now' : Int}
    {tokenStr : String} (h : OnRecord tokens access) (hkey : access.token = hash cfg tokenStr)
    (hnow : now ≤ access.expiresAt - 1) (hnow' : now' ≤ access.expiresAt - 1) :
    Validates cfg tokens now now' tokenStr access := by
  obtain ⟨row, hrow, huser, hclient, hscope, hexpires, hrevoked⟩ := h
  have hlive : row.expiresAt > now ∧ row.revoked = false := ⟨by omega, hrevoked⟩
  have hfound : Memory.getAccessToken now (hash cfg tokenStr) tokens = some row := by
    rw [Memory.getAccessToken, ← hkey, hrow]
    exact if_pos hlive
  refine ⟨row, ?_, huser, hclient, hscope⟩
  exact TokenService.checkAccessToken_eq_some_iff.mpr ⟨hfound, hrevoked, by omega⟩

theorem not_validates_of_lookup {tokens : Memory.Tokens} {access : OAuth2AccessToken}
    {now now' : Int} {tokenStr : String}
    (h : tokens.accessTokens.lookup (hash cfg tokenStr) = none) :
    ¬Validates cfg tokens now now' tokenStr access := by
  intro hvalid
  obtain ⟨found, hfound, -⟩ := hvalid
  obtain ⟨hget, -⟩ := TokenService.checkAccessToken_eq_some_iff.mp hfound
  simp only [Memory.getAccessToken, h] at hget
  cases hget

/-- The time is after all steps of the run and before the token expires, and no step since the
token was saved revoked it. -/
structure InForce (cfg : Config) (s₀ : IssueStore clients grants) (access : OAuth2AccessToken)
    (later earlier : List IssueEvent) (now now' : Int) : Prop where
  unrevoked : Unrevoked cfg s₀ access.token later earlier
  clock : ∀ e ∈ later, NotAfter now e
  le : now ≤ now'
  unexpired : now' ≤ access.expiresAt - 1

/-- A token that a request handed out was saved by it, and validates as long as it is in force. -/
def Usable (cfg : Config) (s₀ : IssueStore clients grants) (history : List IssueEvent)
    (p : Pool (service cfg clients grants)) : Prop :=
  ∀ tid t reply tokenStr, p.threads[tid]? = some t → t.rest = .ret reply →
    reply.accessToken = some tokenStr →
    ∃ later env a access past, history = later ++ .called tid t.request env a :: past ∧
      savedAccess a.op = some access ∧
      ∀ now now', InForce cfg s₀ access later (.called tid t.request env a :: past) now now' →
        Validates cfg p.shared.tokens now now' tokenStr access

/-- In every run from an empty repository, and for every token that a request handed out: while it is
in force it validates with its user, client and scope exactly when the request was no GitHub
login. -/
theorem issued_usable_iff (cfg : Config) (clients : ClientRepository) (grants : GrantRepository)
    (s₀ : IssueStore clients grants) (hempty : s₀.tokens = Memory.Tokens.empty)
    (history : List IssueEvent) (p : Pool (service cfg clients grants))
    (hrun : (service cfg clients grants).machine.Run anyStep
      ((service cfg clients grants).start s₀) history p)
    (hdistinct : DistinctDraws cfg history) (tid : Nat)
    (t : Thread (service cfg clients grants)) (reply : IssueReply) (tokenStr : String)
    (ht : p.threads[tid]? = some t) (hreturned : t.rest = .ret reply)
    (htoken : reply.accessToken = some tokenStr) :
    ∃ later env a access past, history = later ++ .called tid t.request env a :: past ∧
      savedAccess a.op = some access ∧
      ∀ now now', InForce cfg s₀ access later (.called tid t.request env a :: past) now now' →
        (Validates cfg p.shared.tokens now now' tokenStr access ↔ isGitHub t.request = false) := by
  obtain ⟨⟨later, env, a, access, past, rfl, hsaved, hkey, hrevoked⟩, envd, d, hdraw, hdrawn⟩ :=
    saved_of_returned hrun ht hreturned htoken
  refine ⟨later, env, a, access, past, rfl, hsaved, ?_⟩
  intro now now' hforce
  rw [shared_eq_replay hrun]
  constructor
  · intro hvalid
    rw [← Bool.not_eq_true]
    intro hraw
    refine not_validates_of_lookup (replay_lookup_eq_none hempty ?_) hvalid
    intro tid' req' env' a' hmem access' hsaved'
    obtain ⟨post, before, hsplit⟩ := List.append_of_mem hmem
    rw [hsplit] at hrun hdistinct hdraw
    exact saves_differ_from_raw hrun hdistinct hsaved' hdraw hdrawn hraw
  · intro hhashed
    rw [storedKey, hhashed] at hkey
    have hle : now ≤ access.expiresAt := by
      have := hforce.le
      have := hforce.unexpired
      omega
    refine OnRecord.validates ?_ hkey ?_ hforce.unexpired
    · refine onRecord_replay ?_ hforce.unrevoked ?_ hforce.clock hle
      · rw [replay]
        change OnRecord (IssueStore.exec env a.op _).2.tokens access
        rw [exec_tokens]
        exact onRecord_save hsaved hrevoked
      · intro tid' req' env' a' hmem access' hsaved'
        exact later_saves_differ hrun hdistinct hsaved hhashed hmem hsaved'
    · have := hforce.le
      have := hforce.unexpired
      omega

/-! ### Two runs -/

abbrev knownIssuing := service knownConfig Memory.clientRepository Memory.grantRepository

def knownBatch : OAuth2Client where
  clientId := "batch"
  clientType := .CONFIDENTIAL
  clientSecretHash := "hunter2"
  salt := ""
  redirectUris := []
  allowedScopes := ["read"]

def knownIssueStore : IssueStore Memory.clientRepository Memory.grantRepository where
  store :=
    { clients := (AList.insert "batch" knownBatch ∅ : Memory.Clients)
      grants := (∅ : Memory.AuthCodes)
      tokens := Memory.Tokens.empty }
  deviceCodes := ∅

def gitHubSteps : List (Input IssueEnv IssueRequest) :=
  [.start (.gitHub "c0de"), .advance 0 { gitHubUser := .ok 7 },
   .advance 0 { random := knownToken 0 }, .advance 0 { random := knownToken 1 },
   .advance 0 { now := 1000 }, .advance 0 { now := 1000 }]

def executed (steps : List (Input IssueEnv IssueRequest)) : List IssueEvent × Pool knownIssuing :=
  knownIssuing.machine.exec [] (knownIssuing.start knownIssueStore) steps

theorem gitHub_history : (executed gitHubSteps).1 =
    [.called 0 (.gitHub "c0de") { now := 1000 } ⟨.service (.saveTokenPair
       (gitHubAccessToken knownService (knownToken 0) 7 1000)
       (gitHubRefreshToken knownService (knownToken 1) (knownToken 0) 7 1000)), true⟩,
     .called 0 (.gitHub "c0de") { now := 1000 } ⟨.service .nowSeconds, 1000⟩,
     .called 0 (.gitHub "c0de") { random := knownToken 1 }
       ⟨.service (.generateSecureToken 32), knownToken 1⟩,
     .called 0 (.gitHub "c0de") { random := knownToken 0 }
       ⟨.service (.generateSecureToken 32), knownToken 0⟩,
     .called 0 (.gitHub "c0de") { gitHubUser := .ok 7 } ⟨.gitHubUser "c0de", .ok 7⟩,
     .started 0 (.gitHub "c0de")] := rfl

/-- A caller logs in with GitHub and presents the token it was given in the same second. -/
theorem gitHub_token_unusable :
    knownIssuing.machine.Run anyStep (knownIssuing.start knownIssueStore)
      (executed gitHubSteps).1 (executed gitHubSteps).2 ∧
    DistinctDraws knownConfig (executed gitHubSteps).1 ∧
    ¬Usable knownConfig knownIssueStore (executed gitHubSteps).1 (executed gitHubSteps).2 := by
  refine ⟨Machine.run_exec _ _ _, ⟨by decide +kernel, by decide +kernel⟩, ?_⟩
  intro husable
  obtain ⟨t, ht, hreturned⟩ : ∃ t : Thread knownIssuing,
      (executed gitHubSteps).2.threads[0]? = some t ∧
      t.rest = .ret (.gitHubTokens (knownToken 0) (knownToken 1) 3600) := ⟨_, rfl, rfl⟩
  obtain ⟨later, env, a, access, past, hsplit, hsaved, hvalid⟩ :=
    husable 0 t _ (knownToken 0) ht hreturned rfl
  -- Nothing is revoked, the clock shows at most 1000, and the one save expires an hour later.
  have hevents : ∀ e ∈ (executed gitHubSteps).1, (∀ tokens token, ¬HitBy tokens token e) ∧
      NotAfter 1000 e ∧ ∀ tid req env a access, e = .called tid req env a →
        savedAccess a.op = some access → access.expiresAt = 4600 := by
    rw [gitHub_history]
    intro e he
    simp only [List.mem_cons, List.not_mem_nil, or_false] at he
    refine ⟨?_, ?_, ?_⟩
    · intro tokens token hhit
      rcases he with rfl | rfl | rfl | rfl | rfl | rfl <;> exact hhit
    · rcases he with rfl | rfl | rfl | rfl | rfl | rfl <;> simp [NotAfter]
    · intro tid req env a access heq hsaved
      rcases he with rfl | rfl | rfl | rfl | rfl | rfl <;> cases heq <;> cases hsaved
      rfl
  have hexpires : access.expiresAt = 4600 := by
    have hmem : .called 0 t.request env a ∈ (executed gitHubSteps).1 := by
      rw [hsplit]
      simp
    exact (hevents _ hmem).2.2 _ _ _ a access rfl hsaved
  have hlater : ∀ e ∈ later, e ∈ (executed gitHubSteps).1 := by
    intro e he
    rw [hsplit]
    exact List.mem_append_left _ he
  have hunrevoked : Unrevoked knownConfig knownIssueStore access.token later
      (.called 0 t.request env a :: past) := by
    refine always_of_split ?_
    intro post e between heq
    exact (hevents e (hlater e (by simp [heq]))).1 _ _
  have hforce : InForce knownConfig knownIssueStore access later
      (.called 0 t.request env a :: past) 1000 1000 :=
    ⟨hunrevoked, fun e he => (hevents e (hlater e he)).2.1, by omega, by omega⟩
  refine not_validates_of_lookup ?_ (hvalid 1000 1000 hforce)
  decide +kernel

def clientSteps : List (Input IssueEnv IssueRequest) :=
  [.start (.clientCredentials
     { session := 0, params := paramsOf [("client_id", "batch"), ("client_secret", "hunter2")] }),
   .advance 0 {}, .advance 0 {}, .advance 0 {}, .advance 0 { random := knownToken 0 },
   .advance 0 { now := 1000 }, .advance 0 { now := 1000 }]

theorem issued_usable_iff_clientSteps :
    ∃ t : Thread knownIssuing, (executed clientSteps).2.threads[0]? = some t ∧
      t.rest = .ret (.clientToken (knownToken 0) 3600 "read") ∧ isGitHub t.request = false ∧
      ∃ later env a access past,
        (executed clientSteps).1 = later ++ .called 0 t.request env a :: past ∧
        savedAccess a.op = some access ∧
        ∀ now now', InForce knownConfig knownIssueStore access later
            (.called 0 t.request env a :: past) now now' →
          (Validates knownConfig (executed clientSteps).2.shared.tokens now now' (knownToken 0)
            access ↔ isGitHub t.request = false) :=
  ⟨_, rfl, rfl, rfl,
    issued_usable_iff knownConfig _ _ knownIssueStore rfl _ _ (Machine.run_exec _ _ _)
      ⟨by decide +kernel, by decide +kernel⟩ 0 _ _ (knownToken 0) rfl rfl rfl⟩

end AuthForge.UsableTokens
