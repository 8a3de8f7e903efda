import AuthForge.OAuth2.Repository

/-!
# What the token service has seen when it makes a call

For every program of the token service: which calls it can make at all, and, for the calls that
write, the exact answers the request got before. Everything about interleaved requests is derived
from these facts and from what each repository does on a single call.
-/

namespace AuthForge.OAuth2.TokenService

open Prog

variable {svc : TokenService} {answers : List RepoAnswer}

theorem pkceFailure_eq_none_iff {authCode : OAuth2AuthCode} {codeVerifier : String} :
    svc.pkceFailure authCode codeVerifier = none ↔
      (authCode.codeChallenge ≠ "" →
        MatchesChallenge svc.crypto codeVerifier authCode.codeChallenge
          authCode.codeChallengeMethod) := by
  unfold pkceFailure
  by_cases hc : authCode.codeChallenge = ""
  · simp [hc]
  by_cases hv : codeVerifier = ""
  · simp [hc, hv, MatchesChallenge]
  rw [if_neg hc, if_neg hv, ← validatePkceCodeVerifier_eq_true_iff hv hc]
  split <;> simp_all

theorem pkceFailure_ne_tokens {authCode : OAuth2AuthCode} {codeVerifier : String}
    {response : TokenResponse} :
    svc.pkceFailure authCode codeVerifier ≠ some (.tokens response) := by
  unfold pkceFailure
  intro h
  split at h
  · cases h
  split at h
  · cases h
  split at h <;> cases h

/-! ### Where a request can save

A request reaches a saving call only behind all the checks of its program. The statements list
the answers it got on the way. -/

/-- What `resolveRoles` has been answered when it goes on with the roles. -/
inductive RolesResolved (svc : TokenService) (subject : String) :
    List RepoAnswer → List String → Prop
  | absent (hports : svc.hasRoleProvider = false ∨ svc.hasSubjectResolver = false) :
      RolesResolved svc subject [] []
  | bySubject (hlookup : svc.supportsSubjectLookup = true) (roles : List String) :
      RolesResolved svc subject [⟨.getRoles subject, roles⟩] roles
  | unresolved {subjectValue : Subject} (hvalue : Subject.make subject = .ok subjectValue) :
      RolesResolved svc subject [⟨.resolve subjectValue, none⟩] []
  | resolved {subjectValue : Subject} (hvalue : Subject.make subject = .ok subjectValue)
      (userId : Int) (roles : List String) :
      RolesResolved svc subject
        [⟨.resolve subjectValue, some userId⟩, ⟨.getRolesOf userId, roles⟩] roles

def IsRolesCall : RepoCall → Prop
  | .getRoles _ | .resolve _ | .getRolesOf _ => True
  | _ => False

theorem RolesResolved.isRolesCall {subject : String} {asked : List RepoAnswer}
    {roles : List String} (h : RolesResolved svc subject asked roles) :
    ∀ a ∈ asked, IsRolesCall a.op := by
  cases h with
  | absent => simp
  | bySubject => simp [IsRolesCall]
  | unresolved => simp [IsRolesCall]
  | resolved => simp [IsRolesCall]

theorem reached_resolveRoles {subject : String} {cb : List String → RepoProg} {op : RepoCall}
    {k : op.Resp → RepoProg} (hop : ¬IsRolesCall op)
    (h : Reached (svc.resolveRoles subject cb) answers (.call op k)) :
    ∃ asked roles rest, RolesResolved svc subject asked roles ∧ answers = asked ++ rest ∧
      Reached (cb roles) rest (.call op k) := by
  have hne : ∀ op', IsRolesCall op' → op' ≠ op := by
    intro op' hop' heq
    exact hop (heq ▸ hop')
  unfold resolveRoles at h
  split at h
  · rename_i hprovider
    exact ⟨[], [], answers, .absent (.inl hprovider), rfl, h⟩
  split at h
  · rename_i hlookup
    obtain ⟨roles, rest, rfl, h₁⟩ := Reached.answered h (hne _ trivial)
    exact ⟨_, roles, rest, .bySubject hlookup roles, rfl, h₁⟩
  split at h
  · rename_i hresolver
    exact ⟨[], [], answers, .absent (.inr hresolver), rfl, h⟩
  cases hvalue : Subject.make subject with
  | error what => exact absurd (hvalue ▸ h) not_reached_ret_call
  | ok subjectValue =>
    rw [hvalue] at h
    obtain ⟨internalUserId, rest, rfl, h₁⟩ := Reached.answered h (hne _ trivial)
    cases internalUserId with
    | none => exact ⟨_, [], rest, .unresolved hvalue, rfl, h₁⟩
    | some userId =>
      obtain ⟨roles, rest, rfl, h₂⟩ := Reached.answered h₁ (hne _ trivial)
      exact ⟨_, roles, rest, .resolved hvalue userId roles, rfl, h₂⟩

/-- What an exchange has learnt when it is about to save its pair. -/
structure ExchangeChecked (svc : TokenService) (r : ExchangeRequest)
    (answers : List RepoAnswer) (access : OAuth2AccessToken) (refresh : OAuth2RefreshToken)
    (authCode : OAuth2AuthCode) (now : Int) (roles : List String)
    (tokenStr refreshTokenStr familyId : String) : Prop where
  answers_eq : ∃ asked, RolesResolved svc authCode.userId asked roles ∧ answers =
    [⟨.validateClient r.clientId r.clientSecret, true⟩,
     ⟨.consumeAuthCode (hashToken svc.crypto r.code) r.redirectUri, some authCode⟩,
     ⟨.nowSeconds, now⟩] ++ asked ++
    [⟨.generateSecureToken 32, tokenStr⟩, ⟨.generateSecureToken 32, refreshTokenStr⟩,
     ⟨.generateSecureToken 16, familyId⟩]
  client : authCode.clientId = r.clientId
  pkce : svc.pkceFailure authCode r.codeVerifier = none
  live : now ≤ authCode.expiresAt
  access_eq : access =
    svc.newAccessToken tokenStr authCode.clientId authCode.userId authCode.scope now
  refresh_eq : refresh =
    svc.newRefreshToken refreshTokenStr tokenStr authCode.clientId authCode.userId
      authCode.scope familyId now

/-- The pair is the first one it saves. -/
theorem ExchangeChecked.not_saved {r : ExchangeRequest} {access a : OAuth2AccessToken}
    {refresh t : OAuth2RefreshToken} {authCode : OAuth2AuthCode} {now : Int} {roles : List String}
    {tokenStr refreshTokenStr familyId : String} {ok : Bool}
    (h : ExchangeChecked svc r answers access refresh authCode now roles tokenStr refreshTokenStr
      familyId) :
    (⟨.saveTokenPair a t, ok⟩ : RepoAnswer) ∉ answers := by
  obtain ⟨asked, hresolved, hanswers⟩ := h.answers_eq
  rw [hanswers]
  intro hmem
  simp only [List.mem_append, List.mem_cons, List.not_mem_nil, or_false] at hmem
  rcases hmem with (hmem | hmem) | hmem
  · rcases hmem with h | h | h <;> cases h
  · exact hresolved.isRolesCall _ hmem
  · rcases hmem with h | h | h <;> cases h

/-- What a refresh has learnt when it is about to save the rotated pair. -/
structure RefreshChecked (svc : TokenService) (r : RefreshRequest)
    (answers : List RepoAnswer) (access : OAuth2AccessToken) (refresh : OAuth2RefreshToken)
    (rt : OAuth2RefreshToken) (now : Int) (tokenStr refreshTokenStr : String) : Prop where
  answers_eq : answers =
    [⟨.atomicRevokeRefreshToken (hashToken svc.crypto r.refreshToken), some rt⟩,
     ⟨.nowSeconds, now⟩, ⟨.generateSecureToken 32, tokenStr⟩,
     ⟨.generateSecureToken 32, refreshTokenStr⟩]
  client : rt.clientId = r.clientId
  live : now ≤ rt.expiresAt
  access_eq : access = svc.newAccessToken tokenStr rt.clientId rt.userId rt.scope now
  refresh_eq : refresh =
    svc.newRefreshToken refreshTokenStr tokenStr rt.clientId rt.userId rt.scope rt.familyId now

theorem exchange_saving {r : ExchangeRequest} {access : OAuth2AccessToken}
    {refresh : OAuth2RefreshToken} {k : Bool → RepoProg}
    (h : Reached (svc.program (.exchange r)) answers (.call (.saveTokenPair access refresh) k)) :
    ∃ authCode now roles tokenStr refreshTokenStr familyId,
      ExchangeChecked svc r answers access refresh authCode now roles tokenStr refreshTokenStr
        familyId := by
  obtain ⟨isValid, rest, rfl, h₁⟩ := Reached.answered h nofun
  cases isValid with
  | false => exact absurd h₁ not_reached_ret_call
  | true =>
  obtain ⟨authCodeOpt, rest, rfl, h₂⟩ := Reached.answered h₁ nofun
  cases authCodeOpt with
  | none => exact absurd h₂ not_reached_ret_call
  | some authCode =>
  by_cases hclient : authCode.clientId = r.clientId
  swap
  · simp only [ne_eq, hclient, not_false_eq_true, if_true] at h₂
    exact absurd h₂ not_reached_ret_call
  simp only [hclient, ne_eq, not_true_eq_false, if_false] at h₂
  cases hpkce : svc.pkceFailure authCode r.codeVerifier with
  | some reply => exact absurd (hpkce ▸ h₂) not_reached_ret_call
  | none =>
  rw [hpkce] at h₂
  obtain ⟨now, rest, rfl, h₃⟩ := Reached.answered h₂ nofun
  by_cases hlive : now ≤ authCode.expiresAt
  swap
  · rw [if_pos (not_le.mp hlive)] at h₃
    exact absurd h₃ not_reached_ret_call
  rw [if_neg (not_lt.mpr hlive)] at h₃
  have hsave : ¬IsRolesCall (.saveTokenPair access refresh) := id
  obtain ⟨asked, roles, rest, hresolved, rfl, h₄⟩ := reached_resolveRoles hsave h₃
  obtain ⟨tokenStr, rest, rfl, h₅⟩ := Reached.answered h₄ nofun
  obtain ⟨refreshTokenStr, rest, rfl, h₆⟩ := Reached.answered h₅ nofun
  obtain ⟨familyId, rest, rfl, h₇⟩ := Reached.answered h₆ nofun
  rcases reached_call_iff.mp h₇ with ⟨rfl, hsave⟩ | ⟨ok, rest, rfl, h₈⟩
  · cases hsave
    exact ⟨authCode, now, roles, tokenStr, refreshTokenStr, familyId, ⟨asked, hresolved, by simp⟩,
      hclient, hpkce, hlive, by rw [hclient], by rw [hclient]⟩
  · cases ok with
    | false => exact absurd h₈ not_reached_ret_call
    | true => exact absurd h₈ not_reached_ret_call

theorem refresh_saving {r : RefreshRequest} {access : OAuth2AccessToken}
    {refresh : OAuth2RefreshToken} {k : Bool → RepoProg}
    (h : Reached (svc.program (.refresh r)) answers (.call (.saveTokenPair access refresh) k)) :
    ∃ rt now tokenStr refreshTokenStr,
      RefreshChecked svc r answers access refresh rt now tokenStr refreshTokenStr := by
  obtain ⟨storedRt, rest, rfl, h₁⟩ := Reached.answered h nofun
  cases storedRt with
  | none =>
    obtain ⟨maybeRevoked, rest, rfl, h₂⟩ := Reached.answered h₁ nofun
    cases maybeRevoked with
    | none => exact absurd h₂ not_reached_ret_call
    | some rt =>
      by_cases hreuse : rt.revoked = true ∧ rt.familyId ≠ ""
      · simp only [if_pos hreuse] at h₂
        obtain ⟨_, rest, rfl, h₃⟩ := Reached.answered h₂ nofun
        exact absurd h₃ not_reached_ret_call
      · simp only [if_neg hreuse] at h₂
        exact absurd h₂ not_reached_ret_call
  | some rt =>
    by_cases hclient : rt.clientId = r.clientId
    swap
    · simp only [ne_eq, hclient, not_false_eq_true, if_true] at h₁
      exact absurd h₁ not_reached_ret_call
    simp only [hclient, ne_eq, not_true_eq_false, if_false] at h₁
    obtain ⟨now, rest, rfl, h₂⟩ := Reached.answered h₁ nofun
    by_cases hlive : now ≤ rt.expiresAt
    swap
    · rw [if_pos (not_le.mp hlive)] at h₂
      exact absurd h₂ not_reached_ret_call
    rw [if_neg (not_lt.mpr hlive)] at h₂
    obtain ⟨tokenStr, rest, rfl, h₃⟩ := Reached.answered h₂ nofun
    obtain ⟨refreshTokenStr, rest, rfl, h₄⟩ := Reached.answered h₃ nofun
    rcases reached_call_iff.mp h₄ with ⟨rfl, hsave⟩ | ⟨ok, rest, rfl, h₅⟩
    · cases hsave
      exact ⟨rt, now, tokenStr, refreshTokenStr, rfl, hclient, hlive, by rw [hclient],
        by rw [hclient]⟩
    · cases ok with
      | false => exact absurd h₅ not_reached_ret_call
      | true => exact absurd h₅ not_reached_ret_call

/-- A refresh revokes a family only after a failed compare-and-set and a lookup that showed the
presented token revoked. -/
theorem refresh_revoking {r : RefreshRequest} {familyId : String} {k : Unit → RepoProg}
    (h : Reached (svc.program (.refresh r)) answers (.call (.revokeTokenFamily familyId) k)) :
    ∃ rt : OAuth2RefreshToken,
      answers =
        [⟨.atomicRevokeRefreshToken (hashToken svc.crypto r.refreshToken), none⟩,
         ⟨.getRefreshToken (hashToken svc.crypto r.refreshToken), some rt⟩] ∧
      rt.revoked = true ∧ rt.familyId = familyId ∧ familyId ≠ "" := by
  obtain ⟨storedRt, rest, rfl, h₁⟩ := Reached.answered h nofun
  cases storedRt with
  | none =>
    obtain ⟨maybeRevoked, rest, rfl, h₂⟩ := Reached.answered h₁ nofun
    cases maybeRevoked with
    | none => exact absurd h₂ not_reached_ret_call
    | some rt =>
      by_cases hreuse : rt.revoked = true ∧ rt.familyId ≠ ""
      · simp only [if_pos hreuse] at h₂
        rcases reached_call_iff.mp h₂ with ⟨rfl, hcall⟩ | ⟨-, rest, rfl, h₃⟩
        · cases hcall
          exact ⟨rt, rfl, hreuse.1, rfl, hreuse.2⟩
        · exact absurd h₃ not_reached_ret_call
      · simp only [if_neg hreuse] at h₂
        exact absurd h₂ not_reached_ret_call
  | some rt =>
    by_cases hclient : rt.clientId = r.clientId
    swap
    · simp only [ne_eq, hclient, not_false_eq_true, if_true] at h₁
      exact absurd h₁ not_reached_ret_call
    simp only [hclient, ne_eq, not_true_eq_false, if_false] at h₁
    obtain ⟨now, rest, rfl, h₂⟩ := Reached.answered h₁ nofun
    by_cases hlive : now ≤ rt.expiresAt
    swap
    · rw [if_pos (not_le.mp hlive)] at h₂
      exact absurd h₂ not_reached_ret_call
    rw [if_neg (not_lt.mpr hlive)] at h₂
    obtain ⟨_, rest, rfl, h₃⟩ := Reached.answered h₂ nofun
    obtain ⟨_, rest, rfl, h₄⟩ := Reached.answered h₃ nofun
    obtain ⟨ok, rest, rfl, h₅⟩ := Reached.answered h₄ nofun
    cases ok with
    | false => exact absurd h₅ not_reached_ret_call
    | true => exact absurd h₅ not_reached_ret_call

theorem generate_saving {r : CodeRequest} {c : OAuth2AuthCode} {k : Unit → RepoProg}
    (h : Reached (svc.program (.generate r)) answers (.call (.saveAuthCode c) k)) :
    ∃ code now,
      answers = [⟨.generateSecureToken 32, code⟩, ⟨.nowSeconds, now⟩] ∧
      c = svc.authCodeOf r code now := by
  obtain ⟨code, rest, rfl, h₁⟩ := Reached.answered h nofun
  obtain ⟨now, rest, rfl, h₂⟩ := Reached.answered h₁ nofun
  rcases reached_call_iff.mp h₂ with ⟨rfl, hcall⟩ | ⟨-, rest, rfl, h₃⟩
  · cases hcall
    exact ⟨code, now, rfl, rfl⟩
  · exact absurd h₃ not_reached_ret_call

/-! ### Which calls a program makes -/

theorem only_generate (r : CodeRequest) :
    (svc.program (.generate r)).Only fun
      | .generateSecureToken 32 | .nowSeconds | .saveAuthCode _ => True
      | _ => False :=
  ⟨trivial, fun _ => ⟨trivial, fun _ => ⟨trivial, fun _ => trivial⟩⟩⟩

theorem only_purgeExpired :
    (svc.program .purgeExpired).Only fun
      | .purgeExpired => True
      | _ => False :=
  ⟨trivial, fun _ => trivial⟩

theorem only_resolveRoles {P : RepoCall → Prop} {subject : String} {cb : List String → RepoProg}
    (hroles : ∀ op, IsRolesCall op → P op) (hcb : ∀ roles, (cb roles).Only P) :
    (svc.resolveRoles subject cb).Only P := by
  unfold resolveRoles
  split
  · exact hcb []
  split
  · exact ⟨hroles _ trivial, hcb⟩
  split
  · exact hcb []
  cases Subject.make subject with
  | error what => trivial
  | ok subjectValue =>
    refine ⟨hroles _ trivial, fun internalUserId => ?_⟩
    cases internalUserId with
    | none => exact hcb []
    | some userId => exact ⟨hroles _ trivial, hcb⟩

theorem only_exchange (r : ExchangeRequest) :
    (svc.program (.exchange r)).Only fun
      | .validateClient _ _ | .consumeAuthCode _ _ | .nowSeconds | .getRoles _ | .resolve _
      | .getRolesOf _ | .generateSecureToken _ | .saveTokenPair _ _ => True
      | _ => False := by
  refine ⟨trivial, fun isValid => ?_⟩
  cases isValid with
  | false => trivial
  | true =>
  refine ⟨trivial, fun authCodeOpt => ?_⟩
  cases authCodeOpt with
  | none => trivial
  | some authCode =>
  dsimp only
  split
  · trivial
  cases svc.pkceFailure authCode r.codeVerifier with
  | some reply => trivial
  | none =>
  refine ⟨trivial, fun now => ?_⟩
  dsimp only
  split
  · trivial
  refine only_resolveRoles ?_ fun roles => ?_
  · intro op hop
    cases op with
    | getRoles subject => trivial
    | resolve subject => trivial
    | getRolesOf internalUserId => trivial
    | _ => exact hop.elim
  refine ⟨trivial, fun _ => ⟨trivial, fun _ => ⟨trivial, fun _ => ⟨trivial, fun ok => ?_⟩⟩⟩⟩
  cases ok <;> trivial

theorem only_after_revoke (r : RefreshRequest) (storedRt : Option OAuth2RefreshToken) :
    ∀ k, svc.program (.refresh r) =
        .call (.atomicRevokeRefreshToken (hashToken svc.crypto r.refreshToken)) k →
      (k storedRt).Only fun
        | .getRefreshToken _ | .revokeTokenFamily _ | .nowSeconds | .generateSecureToken 32
        | .saveTokenPair _ _ => True
        | _ => False := by
  intro _ heq
  cases heq
  cases storedRt with
  | none =>
    refine ⟨trivial, fun maybeRevoked => ?_⟩
    cases maybeRevoked with
    | none => trivial
    | some rt =>
      dsimp only
      split
      · exact ⟨trivial, fun _ => trivial⟩
      · trivial
  | some rt =>
    dsimp only
    split
    · trivial
    refine ⟨trivial, fun now => ?_⟩
    dsimp only
    split
    · trivial
    refine ⟨trivial, fun _ => ⟨trivial, fun _ => ⟨trivial, fun ok => ?_⟩⟩⟩
    cases ok <;> trivial

theorem only_refresh (r : RefreshRequest) :
    (svc.program (.refresh r)).Only fun
      | .atomicRevokeRefreshToken _ | .getRefreshToken _ | .revokeTokenFamily _ | .nowSeconds
      | .generateSecureToken 32 | .saveTokenPair _ _ => True
      | _ => False := by
  refine ⟨trivial, fun storedRt => (only_after_revoke r storedRt _ rfl).imp ?_⟩
  intro op hop
  split at hop
  · trivial
  · trivial
  · trivial
  · trivial
  · trivial
  · exact hop.elim

theorem saveAuthCode_of_reached {req : Request} {c : OAuth2AuthCode} {k : Unit → RepoProg}
    (h : Reached (svc.program req) answers (.call (.saveAuthCode c) k)) :
    ∃ r code now, req = .generate r ∧
      answers = [⟨.generateSecureToken 32, code⟩, ⟨.nowSeconds, now⟩] ∧
      c = svc.authCodeOf r code now := by
  cases req with
  | generate r =>
    obtain ⟨code, now, hanswers, hc⟩ := generate_saving h
    exact ⟨r, code, now, rfl, hanswers, hc⟩
  | exchange r => exact ((only_exchange r).of_reached h).1.1.elim
  | refresh r => exact ((only_refresh r).of_reached h).1.1.elim
  | purgeExpired => exact (only_purgeExpired.of_reached h).1.1.elim

theorem saveTokenPair_of_reached {req : Request} {access : OAuth2AccessToken}
    {refresh : OAuth2RefreshToken} {k : Bool → RepoProg}
    (h : Reached (svc.program req) answers (.call (.saveTokenPair access refresh) k)) :
    (∃ r authCode now roles tokenStr refreshTokenStr familyId, req = .exchange r ∧
      ExchangeChecked svc r answers access refresh authCode now roles tokenStr refreshTokenStr
        familyId) ∨
    ∃ r rt now tokenStr refreshTokenStr, req = .refresh r ∧
      RefreshChecked svc r answers access refresh rt now tokenStr refreshTokenStr := by
  cases req with
  | generate r => exact ((only_generate r).of_reached h).1.1.elim
  | exchange r =>
    obtain ⟨authCode, now, roles, tokenStr, refreshTokenStr, familyId, hchecked⟩ :=
      exchange_saving h
    exact .inl ⟨r, authCode, now, roles, tokenStr, refreshTokenStr, familyId, rfl, hchecked⟩
  | refresh r =>
    obtain ⟨rt, now, tokenStr, refreshTokenStr, hchecked⟩ := refresh_saving h
    exact .inr ⟨r, rt, now, tokenStr, refreshTokenStr, rfl, hchecked⟩
  | purgeExpired => exact (only_purgeExpired.of_reached h).1.1.elim

/-! ### An exchange on its own -/

def ExchangeIssues {repos : Repositories} (svc : TokenService) (env : Nat → Env)
    (r : ExchangeRequest) (s : Store repos) : Prop :=
  ∃ response, (Prog.eval Store.exec env 0 (svc.program (.exchange r)) s).1 = .tokens response

/-- The roles that `resolveRoles` goes on with when it makes its first call as number `n`, and how
many calls it takes; none where it throws. -/
def rolesStep (svc : TokenService) (env : Nat → Env) (n : Nat) (subject : String) :
    Option (List String × Nat) :=
  if svc.hasRoleProvider = false then some ([], 0)
  else if svc.supportsSubjectLookup = true then some ((env n).roles, 1)
  else if svc.hasSubjectResolver = false then some ([], 0)
  else if subject = "" then none
  else if (env n).internalUserId = none then some ([], 1)
  else some ((env (n + 1)).roles, 2)

theorem eval_resolveRoles {repos : Repositories} {env : Nat → Env} {n : Nat} {subject : String}
    {cb : List String → RepoProg} {s : Store repos} :
    (Prog.eval Store.exec env n (svc.resolveRoles subject cb) s).1 =
      match svc.rolesStep env n subject with
      | none => .thrown "Subject: value must not be empty"
      | some (roles, calls) => (Prog.eval Store.exec env (n + calls) (cb roles) s).1 := by
  unfold resolveRoles rolesStep
  split
  · rfl
  split
  · rfl
  split
  · rfl
  by_cases hsubject : subject = ""
  · subst hsubject
    rfl
  rw [if_neg hsubject, Subject.make_of_ne hsubject]
  cases huser : (env n).internalUserId with
  | none => simp only [Prog.eval, Store.exec, huser, if_true]
  | some userId => simp only [Prog.eval, Store.exec, huser, reduceCtorEq, if_false]

/-- The roles step of the exchange of a code throws nothing, and the pair that the exchange would
hand to the token store persists there. -/
def PairPersists {repos : Repositories} (svc : TokenService) (env : Nat → Env)
    (authCode : OAuth2AuthCode) (s : Store repos) : Prop :=
  ∃ roles calls, svc.rolesStep env 3 authCode.userId = some (roles, calls) ∧
    (repos.tokens.saveTokenPair (env (calls + 6))
      (svc.newAccessToken (env (calls + 3)).random authCode.clientId authCode.userId
        authCode.scope (env 2).now)
      (svc.newRefreshToken (env (calls + 4)).random (env (calls + 3)).random authCode.clientId
        authCode.userId authCode.scope (env (calls + 5)).random (env 2).now) s.tokens).1 = true

/-- An exchange run alone is answered with tokens exactly when all its checks pass and the pair
persists. -/
theorem exchangeIssues_iff {repos : Repositories} {env : Nat → Env} {r : ExchangeRequest}
    {s : Store repos} :
    ExchangeIssues svc env r s ↔
      repos.clients.validateClient (env 0) r.clientId r.clientSecret s.clients = true ∧
      ∃ authCode, (repos.grants.consumeAuthCode (env 1) (hashToken svc.crypto r.code)
          r.redirectUri s.grants).1 = some authCode ∧
        authCode.clientId = r.clientId ∧ svc.pkceFailure authCode r.codeVerifier = none ∧
        (env 2).now ≤ authCode.expiresAt ∧ PairPersists svc env authCode s := by
  unfold ExchangeIssues program exchangeCodeForToken PairPersists
  simp only [Prog.eval, Store.exec]
  rcases Bool.eq_false_or_eq_true
    (repos.clients.validateClient (env 0) r.clientId r.clientSecret s.clients) with hvalid | hvalid
  swap
  · simp [hvalid, Prog.eval, makeError]
  simp only [hvalid, Bool.true_eq_false, if_false, Prog.eval, Store.exec, true_and]
  rcases Option.eq_none_or_eq_some (repos.grants.consumeAuthCode (env 1)
    (hashToken svc.crypto r.code) r.redirectUri s.grants).1 with hcode | ⟨authCode, hcode⟩
  · simp [hcode, Prog.eval, makeError]
  simp only [hcode, Option.some.injEq, exists_eq_left']
  by_cases hclient : authCode.clientId = r.clientId
  swap
  · simp [hclient, Prog.eval, makeError]
  rcases Option.eq_none_or_eq_some (svc.pkceFailure authCode r.codeVerifier) with
    hpkce | ⟨reply, hpkce⟩
  swap
  · have hreply : ∀ response, reply ≠ .tokens response := by
      intro response heq
      obtain rfl := heq
      exact pkceFailure_ne_tokens hpkce
    simp [hclient, hpkce, Prog.eval, hreply]
  rw [if_neg (not_not.mpr hclient)]
  simp only [hclient, hpkce, Prog.eval, Store.exec, true_and]
  by_cases hlive : (env 2).now ≤ authCode.expiresAt
  swap
  · simp [not_le.mp hlive, hlive, Prog.eval, makeError]
  simp only [gt_iff_lt, not_lt.mpr hlive, if_false, hlive, true_and, eval_resolveRoles, zero_add,
    Nat.reduceAdd]
  rcases Option.eq_none_or_eq_some (svc.rolesStep env 3 authCode.userId) with
    hroles | ⟨resolved, hroles⟩
  · simp [hroles]
  obtain ⟨roles, calls⟩ := resolved
  simp only [hroles, Option.some.injEq, Prod.mk.injEq, Prog.eval, Store.exec]
  rw [← hclient, show 3 + calls = calls + 3 from Nat.add_comm _ _]
  rcases Bool.eq_false_or_eq_true (repos.tokens.saveTokenPair (env (calls + 6))
    (svc.newAccessToken (env (calls + 3)).random authCode.clientId authCode.userId
      authCode.scope (env 2).now)
    (svc.newRefreshToken (env (calls + 4)).random (env (calls + 3)).random authCode.clientId
      authCode.userId authCode.scope (env (calls + 5)).random (env 2).now) s.tokens).1 with
    hsaved | hsaved
  · simp [hsaved, Prog.eval]
  · simp [hsaved, Prog.eval, makeError]

/-- The id_token of an answered exchange is built from the record that was consumed. -/
theorem exchange_idToken {repos : Repositories} {env : Nat → Env} {r : ExchangeRequest}
    {s : Store repos} {response : TokenResponse}
    (h : (Prog.eval Store.exec env 0 (svc.program (.exchange r)) s).1 = .tokens response) :
    ∃ authCode, (repos.grants.consumeAuthCode (env 1) (hashToken svc.crypto r.code)
        r.redirectUri s.grants).1 = some authCode ∧
      response.idToken = svc.idToken authCode.scope (svc.codeIdTokenClaims authCode (env 2).now) := by
  obtain ⟨hvalid, authCode, hcode, hclient, hpkce, hlive, hsaved⟩ := exchangeIssues_iff.mp ⟨_, h⟩
  refine ⟨authCode, hcode, ?_⟩
  obtain ⟨roles, calls, hroles, hsaved⟩ := hsaved
  unfold program exchangeCodeForToken at h
  simp only [Prog.eval, Store.exec, hvalid, Bool.true_eq_false, if_false, hcode] at h
  rw [if_neg (not_not.mpr hclient), hpkce] at h
  simp only [Prog.eval, Store.exec, gt_iff_lt, not_lt.mpr hlive, if_false, eval_resolveRoles,
    zero_add, Nat.reduceAdd, hroles] at h
  rw [show 3 + calls = calls + 3 from Nat.add_comm _ _] at h
  simp only [hsaved, Bool.true_eq_false, if_false] at h
  cases h
  rfl

/-! ### In an interleaving -/

section Interleaving

open Service

variable {repos : Repositories} {s₀ : Store repos} {p : Pool (svc.over repos)}
  {ok : Guard (Pool (svc.over repos)) RepoInput RepoEvent}

theorem reached_of_thread (t : Thread (svc.over repos)) {op : RepoCall}
    {k : op.Resp → RepoProg} (hrest : t.rest = .call op k) :
    Reached (svc.program t.request) t.answers (.call op k) :=
  hrest ▸ t.reached

theorem reached_of_event {post past : List RepoEvent} {tid : Nat} {req : Request} {env : Env}
    {op : RepoCall} {r : op.Resp}
    (hrun : (svc.over repos).machine.Run ok ((svc.over repos).start s₀)
      (post ++ .called tid req env ⟨op, r⟩ :: past) p) :
    ∃ k : op.Resp → RepoProg, Reached (svc.program req) (answersOf tid past) (.call op k) :=
  reached_of_called_of_split hrun

/-- A request saves at most one pair. -/
theorem not_saved_before {post past : List RepoEvent} {tid : Nat} {req : Request} {env : Env}
    {access : OAuth2AccessToken} {refresh : OAuth2RefreshToken} {ok' : Bool}
    (hrun : (svc.over repos).machine.Run ok ((svc.over repos).start s₀)
      (post ++ .called tid req env ⟨.saveTokenPair access refresh, ok'⟩ :: past) p)
    (req' : Request) (env' : Env) (a : OAuth2AccessToken) (r : OAuth2RefreshToken) (b : Bool) :
    Event.called tid req' env' ⟨.saveTokenPair a r, b⟩ ∉ past := by
  intro hmem
  have hanswer := mem_answersOf.mpr ⟨req', env', hmem⟩
  obtain ⟨k, hreached⟩ := reached_of_event hrun
  rcases saveTokenPair_of_reached hreached with
    ⟨_, _, _, _, _, _, _, -, hchecked⟩ | ⟨_, _, _, _, _, -, hchecked⟩
  · exact hchecked.not_saved hanswer
  · rw [hchecked.answers_eq] at hanswer
    simp at hanswer

end Interleaving

end AuthForge.OAuth2.TokenService
