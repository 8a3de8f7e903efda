import AuthForge.Base.History
import AuthForge.Http.Runs
import AuthForge.Http.TokenStatus

/-!
# Who revokes at the revocation endpoint, and for how long

A revocation introspects the token before it revokes it, in another call, and anything may happen in
between. Values are saved once, so the record that is revoked is the one that was introspected: its
client has presented the token. And a revocation that is answered with success has left nothing
live, whichever way it came to that answer.
-/

namespace AuthForge.EndpointRevocation

open Http Http.TokenStatus OAuth2 DeviceGrant Service
open Storage.Memory (Tokens TokenCall TokenReply Clients)

variable {cfg : Config} {s₀ s : StatusStore} {history later past : List StatusEvent}
  {p : Pool (service cfg)} {v : String} {t : Int}

/-! ### What a revocation request presents -/

def hashedToken (cfg : Config) (req : AddressedRequest) : String :=
  hashToken cfg.tokenService.crypto (req.getParameter "token")

def callerId (req : AddressedRequest) : String :=
  (extractDeviceClientCredentials req.toHttpRequest).1

def callerSecret (req : AddressedRequest) : String :=
  (extractDeviceClientCredentials req.toHttpRequest).2

/-! ### Calls that save and calls that revoke -/

/-- The value that a call saves a token under, and the client of the token. -/
def savedAs : TokenCall → Option (String × String)
  | .saveAccessToken token => some (token.token, token.clientId)
  | .saveRefreshToken token => some (token.token, token.clientId)
  | _ => none

/-- The call may leave the record under the value revoked, where `inFamily` says which families the
record belongs to. -/
def Revokes (inFamily : String → Prop) (v : String) : TokenCall → Prop
  | .saveAccessToken token => token.token = v ∧ token.revoked = true
  | .saveRefreshToken token => token.token = v ∧ token.revoked = true
  | .revokeAccessToken token _ => token = v
  | .revokeRefreshToken token => token = v
  | .atomicRevokeRefreshToken token => token = v
  | .revokeTokenFamily familyId => inFamily familyId
  | _ => False

theorem Revokes.imp {F G : String → Prop} {c : TokenCall} (hFG : ∀ familyId, F familyId → G familyId)
    (h : Revokes F v c) : Revokes G v c := by
  cases c with
  | revokeTokenFamily familyId => exact hFG familyId h
  | _ => exact h

/-- Something else than the endpoints made the call. -/
def Called (history : List StatusEvent) (op : TokenCall) : Prop :=
  ∃ tid req env r, (.called tid req env ⟨.repository op, r⟩ : StatusEvent) ∈ history

/-- A refresh token of the family has been saved: it has the value, or the value is that of its
access token. -/
def SavedIn (history : List StatusEvent) (v familyId : String) : Prop :=
  ∃ rt, Called history (.saveRefreshToken rt) ∧ rt.familyId = familyId ∧
    (rt.token = v ∨ rt.accessToken = v)

/-- Something else than the endpoints made a call that may leave the record under the value
revoked: a family was revoked that the record belonged to by then. -/
def RevokedElsewhere (v : String) (history : List StatusEvent) : Prop :=
  ∃ tid req env op r past,
    (.called tid req env ⟨.repository op, r⟩ :: past : List StatusEvent) <:+ history ∧
      Revokes (SavedIn past v) v op

def saveOf : StatusCall → Option (String × String)
  | .repository op => savedAs op
  | _ => none

/-- The values that something has been saved under. -/
def savedValues (history : List StatusEvent) : List String :=
  history.filterMap fun e =>
    match e with
    | .called _ _ _ a => (saveOf a.op).map Prod.fst
    | _ => none

/-- No value is saved twice. -/
def FreshSaves : Guard (Pool (service cfg)) (Input StatusEnv StatusRequest) StatusEvent :=
  fun history p i =>
    match i with
    | .start _ => True
    | .advance tid _ => ∀ saved ∈ (p.next tid).bind saveOf, saved.1 ∉ savedValues history

instance (history : List StatusEvent) (p : Pool (service cfg))
    (i : Input StatusEnv StatusRequest) : Decidable (FreshSaves history p i) :=
  match i with
  | .start _ => .isTrue trivial
  | .advance tid _ =>
    inferInstanceAs (Decidable (∀ saved ∈ (p.next tid).bind saveOf,
      saved.1 ∉ savedValues history))

/-- A revocation request presented the value and the credentials of this client, and the repository
accepts them. -/
def PresentedBy (cfg : Config) (clients : Clients) (client v : String) (history : List StatusEvent) :
    Prop :=
  ∃ tid req env a, (.called tid (.revoke req) env a : StatusEvent) ∈ history ∧
    hashedToken cfg req = v ∧ callerId req = client ∧
    Storage.Memory.validateClient client (callerSecret req) clients = true

/-- How the record under the value came to be revoked. -/
def RevokedBy (cfg : Config) (clients : Clients) (client v : String) (history : List StatusEvent) :
    Prop :=
  PresentedBy cfg clients client v history ∨ RevokedElsewhere v history

theorem Called.mem_savedValues {op : TokenCall} {client : String} (h : Called history op)
    (hsaved : savedAs op = some (v, client)) : v ∈ savedValues history := by
  obtain ⟨tid, req, env, r, hmem⟩ := h
  refine List.mem_filterMap.mpr ⟨_, hmem, ?_⟩
  simp only [saveOf, hsaved, Option.map_some]

/-- A save that comes next is the first one of its value. -/
theorem not_called_of_fresh {tid : Nat} {env : StatusEnv} {op op' : TokenCall}
    {client client' : String} (hfresh : FreshSaves history p (.advance tid env))
    (hnext : p.next tid = some (.repository op))
    (hop : savedAs op = some (v, client)) (hop' : savedAs op' = some (v, client')) :
    ¬Called history op' := by
  intro hcalled
  refine hfresh (v, client) ?_ (hcalled.mem_savedValues hop')
  rw [hnext]
  exact hop

theorem Called.mono {op : TokenCall} (h : Called past op) (e : StatusEvent) :
    Called (e :: past) op := by
  obtain ⟨tid, req, env, r, hmem⟩ := h
  exact ⟨tid, req, env, r, List.mem_cons_of_mem _ hmem⟩

theorem Called.append {op : TokenCall} (h : Called past op) (later : List StatusEvent) :
    Called (later ++ past) op := by
  obtain ⟨tid, req, env, r, hmem⟩ := h
  exact ⟨tid, req, env, r, List.mem_append_right _ hmem⟩

theorem RevokedBy.mono {clients : Clients} {client : String}
    (h : RevokedBy cfg clients client v past) (e : StatusEvent) :
    RevokedBy cfg clients client v (e :: past) := by
  rcases h with ⟨tid, req, env, a, hmem, h⟩ | ⟨tid, req, env, op, r, before, hsuffix, h⟩
  · exact .inl ⟨tid, req, env, a, List.mem_cons_of_mem _ hmem, h⟩
  · exact .inr ⟨tid, req, env, op, r, before, hsuffix.trans (List.suffix_cons e past), h⟩

/-! ### Records -/

/-- A refresh token of the family is stored: under the value, or with the value as its access
token. -/
def StoredIn (d : Tokens) (v familyId : String) : Prop :=
  ∃ k rt, d.refreshTokens.lookup k = some rt ∧ rt.familyId = familyId ∧
    (k = v ∨ rt.accessToken = v)

/-- What a call leaves of a record. -/
structure Remains (d : Tokens) (c : TokenCall) (v : String) (client client₀ : String)
    (expiresAt expiresAt₀ : Int) (revoked revoked₀ : Bool) : Prop where
  client : client = client₀
  expiresAt : expiresAt = expiresAt₀
  keeps : revoked₀ = true → revoked = true
  revokes : revoked = true → revoked₀ = true ∨ Revokes (StoredIn d v) v c

theorem Remains.refl (d : Tokens) (c : TokenCall) (v client : String) (expiresAt : Int)
    (revoked : Bool) : Remains d c v client client expiresAt expiresAt revoked revoked :=
  ⟨rfl, rfl, id, .inl⟩

section Records

variable {now : Int} {d : Tokens} {c : TokenCall}

theorem access_call {it : OAuth2AccessToken}
    (h : (Storage.Memory.call now d c).2.accessTokens.lookup v = some it) :
    (∃ token, c = .saveAccessToken token ∧ token.token = v ∧ it.clientId = token.clientId ∧
      it.revoked = token.revoked) ∨
      ∃ it₀, d.accessTokens.lookup v = some it₀ ∧
        Remains d c v it.clientId it₀.clientId it.expiresAt it₀.expiresAt it.revoked it₀.revoked := by
  have hsame (h : d.accessTokens.lookup v = some it) : ∃ it₀, d.accessTokens.lookup v = some it₀ ∧
      Remains d c v it.clientId it₀.clientId it.expiresAt it₀.expiresAt it.revoked it₀.revoked :=
    ⟨it, h, .refl d c v _ _ _⟩
  have hmapped {f : String → OAuth2AccessToken → OAuth2AccessToken}
      (hf : ∀ it, Remains d c v (f v it).clientId it.clientId (f v it).expiresAt it.expiresAt
        (f v it).revoked it.revoked)
      (h : (d.accessTokens.mapValues f).lookup v = some it) :
      ∃ it₀, d.accessTokens.lookup v = some it₀ ∧
        Remains d c v it.clientId it₀.clientId it.expiresAt it₀.expiresAt it.revoked it₀.revoked := by
    rw [Dict.lookup_mapValues] at h
    obtain ⟨it₀, hlookup, rfl⟩ := Option.map_eq_some_iff.mp h
    exact ⟨it₀, hlookup, hf it₀⟩
  cases c with
  | saveAccessToken token =>
    by_cases hv : v = token.token
    · subst hv
      left
      change AList.lookup token.token (AList.insert token.token _ d.accessTokens) = _ at h
      rw [AList.lookup_insert] at h
      obtain rfl := Option.some.inj h
      exact ⟨token, rfl, rfl, rfl, rfl⟩
    · exact .inr (hsame ((AList.lookup_insert_ne hv).symm.trans h))
  | atomicRevokeRefreshToken token =>
    refine .inr (hsame ?_)
    simp only [Storage.Memory.call, Storage.Memory.atomicRevokeRefreshToken] at h
    split at h
    · exact h
    · split at h <;> exact h
  | revokeAccessToken token revokedBy =>
    refine .inr (hmapped ?_ h)
    intro it
    split
    · rename_i hv
      exact ⟨rfl, rfl, fun _ => rfl, fun _ => .inr hv.symm⟩
    · exact .refl d _ v _ _ _
  | revokeTokenFamily familyId =>
    refine .inr (hmapped ?_ h)
    intro it
    split
    · rename_i hany
      obtain ⟨⟨k, rt⟩, hmem, hrt⟩ := List.any_eq_true.mp hany
      obtain ⟨hfamily, htoken⟩ := of_decide_eq_true hrt
      have hstored : StoredIn d v familyId :=
        ⟨k, rt, AList.mem_lookup_iff.mpr hmem, hfamily, .inr htoken⟩
      exact ⟨rfl, rfl, fun _ => rfl, fun _ => .inr hstored⟩
    · exact .refl d _ v _ _ _
  | incrementIntrospectCount token =>
    refine .inr (hmapped ?_ h)
    intro it
    split <;> exact .refl d _ v _ _ _
  | purgeExpired =>
    simp only [Storage.Memory.call, Storage.Memory.purgeExpired, Dict.lookup_keepValues] at h
    exact .inr (hsame (Option.filter_eq_some_iff.mp h).1)
  | saveRefreshToken | getAccessToken | getRefreshToken | revokeRefreshToken | introspectToken =>
    exact .inr (hsame h)

theorem refresh_call {rt : OAuth2RefreshToken}
    (h : (Storage.Memory.call now d c).2.refreshTokens.lookup v = some rt) :
    (∃ token, c = .saveRefreshToken token ∧ token.token = v ∧ rt.clientId = token.clientId ∧
      rt.revoked = token.revoked) ∨
      ∃ rt₀, d.refreshTokens.lookup v = some rt₀ ∧
        Remains d c v rt.clientId rt₀.clientId rt.expiresAt rt₀.expiresAt rt.revoked rt₀.revoked := by
  have hsame (h : d.refreshTokens.lookup v = some rt) : ∃ rt₀, d.refreshTokens.lookup v = some rt₀ ∧
      Remains d c v rt.clientId rt₀.clientId rt.expiresAt rt₀.expiresAt rt.revoked rt₀.revoked :=
    ⟨rt, h, .refl d c v _ _ _⟩
  have hmapped {f : String → OAuth2RefreshToken → OAuth2RefreshToken}
      (hf : ∀ rt, d.refreshTokens.lookup v = some rt →
        Remains d c v (f v rt).clientId rt.clientId (f v rt).expiresAt rt.expiresAt
          (f v rt).revoked rt.revoked)
      (h : (d.refreshTokens.mapValues f).lookup v = some rt) :
      ∃ rt₀, d.refreshTokens.lookup v = some rt₀ ∧
        Remains d c v rt.clientId rt₀.clientId rt.expiresAt rt₀.expiresAt rt.revoked rt₀.revoked := by
    rw [Dict.lookup_mapValues] at h
    obtain ⟨rt₀, hlookup, rfl⟩ := Option.map_eq_some_iff.mp h
    exact ⟨rt₀, hlookup, hf rt₀ hlookup⟩
  cases c with
  | saveRefreshToken token =>
    by_cases hv : v = token.token
    · subst hv
      left
      change AList.lookup token.token (AList.insert token.token token d.refreshTokens) = _ at h
      rw [AList.lookup_insert] at h
      obtain rfl := Option.some.inj h
      exact ⟨token, rfl, rfl, rfl, rfl⟩
    · exact .inr (hsame ((AList.lookup_insert_ne hv).symm.trans h))
  | atomicRevokeRefreshToken token =>
    right
    simp only [Storage.Memory.call, Storage.Memory.atomicRevokeRefreshToken] at h
    split at h
    · exact hsame h
    · rename_i rt₀ hlookup
      split at h
      · exact hsame h
      · by_cases hv : v = token
        · subst hv
          rw [AList.lookup_insert] at h
          obtain rfl := Option.some.inj h
          exact ⟨rt₀, hlookup, rfl, rfl, fun _ => rfl, fun _ => .inr rfl⟩
        · exact hsame ((AList.lookup_insert_ne hv).symm.trans h)
  | revokeAccessToken token revokedBy =>
    refine .inr (hmapped ?_ h)
    intro rt _
    split
    · rename_i hv
      exact ⟨rfl, rfl, fun _ => rfl, fun _ => .inr hv.symm⟩
    · exact .refl d _ v _ _ _
  | revokeRefreshToken token =>
    refine .inr (hmapped ?_ h)
    intro rt _
    split
    · rename_i hv
      exact ⟨rfl, rfl, fun _ => rfl, fun _ => .inr hv.symm⟩
    · exact .refl d _ v _ _ _
  | revokeTokenFamily familyId =>
    refine .inr (hmapped ?_ h)
    intro rt hlookup
    split
    · rename_i hfamily
      exact ⟨rfl, rfl, fun _ => rfl, fun _ => .inr ⟨v, rt, hlookup, hfamily, .inl rfl⟩⟩
    · exact .refl d _ v _ _ _
  | purgeExpired =>
    simp only [Storage.Memory.call, Storage.Memory.purgeExpired, Dict.lookup_keepValues] at h
    exact .inr (hsame (Option.filter_eq_some_iff.mp h).1)
  | saveAccessToken | getAccessToken | getRefreshToken | introspectToken
  | incrementIntrospectCount => exact .inr (hsame h)

end Records

/-! ### Programs -/

/-- The caller is authenticated, and the token was reported to be its own. -/
def Authorised (cfg : Config) (req : AddressedRequest) (answers : List StatusAnswer) : Prop :=
  ⟨.validateClient (callerId req) (callerSecret req), true⟩ ∈ answers ∧
    ∃ i : TokenIntrospection, ⟨.introspectToken (hashedToken cfg req), some i⟩ ∈ answers ∧
      i.active = true ∧ i.clientId = callerId req

/-- What a request issues. -/
def Issued (cfg : Config) : StatusRequest → List StatusAnswer → StatusCall → Prop
  | .revoke req, answers, .revokeAccessToken token _ =>
    token = hashedToken cfg req ∧ Authorised cfg req answers
  | .revoke req, answers, .revokeRefreshToken token =>
    token = hashedToken cfg req ∧ Authorised cfg req answers
  | .repository _, _, .repository _ => True
  | _, _, .revokeAccessToken _ _ => False
  | _, _, .revokeRefreshToken _ => False
  | _, _, .repository _ => False
  | _, _, _ => True

/-- A revocation is answered with success when the token was reported inactive or has been
revoked. -/
def Concluded (cfg : Config) (req : AddressedRequest) (answers : List StatusAnswer)
    (reply : StatusReply) : Prop :=
  reply = .success → ∃ i, ⟨.introspectToken (hashedToken cfg req), i⟩ ∈ answers ∧
    ((∃ j : TokenIntrospection, i = some j ∧ j.active = true) →
      ∃ revokedBy, ⟨.revokeAccessToken (hashedToken cfg req) revokedBy, ()⟩ ∈ answers)

theorem Concluded.mono {req : AddressedRequest} {answers : List StatusAnswer} {reply : StatusReply}
    (h : Concluded cfg req answers reply) (later : List StatusAnswer) :
    Concluded cfg req (answers ++ later) reply := by
  intro hreply
  obtain ⟨i, hi, hrevoked⟩ := h hreply
  refine ⟨i, List.mem_append_left _ hi, ?_⟩
  intro hactive
  obtain ⟨revokedBy, hmem⟩ := hrevoked hactive
  exact ⟨revokedBy, List.mem_append_left _ hmem⟩

theorem course_rateLimited {P : List StatusAnswer → StatusCall → Prop}
    {Q : List StatusAnswer → StatusReply → Prop} {key : String} {endpoint : StatusProg}
    (hcheck : P [] (.checkThrottled key)) (hsuccess : ∀ answers, P answers (.recordSuccess key))
    (hfailure : ∀ answers, P answers (.recordFailure key))
    (hmono : ∀ answers later reply, Q answers reply → Q (answers ++ later) reply)
    (hthrottled : ∀ answers retry, Q answers (.tooManyRequests retry))
    (h : ∀ retry, endpoint.Course P Q [⟨.checkThrottled key, retry⟩]) :
    (rateLimited key endpoint).Course P Q [] := by
  refine ⟨hcheck, ?_⟩
  intro retry
  dsimp only
  split
  · apply (h retry).bind
    intro answers reply hreply
    unfold rateAware
    split
    · exact ⟨hsuccess answers, fun _ => hmono _ _ _ hreply⟩
    · exact ⟨hfailure answers, fun _ => hmono _ _ _ hreply⟩
  · exact hthrottled _ retry

theorem course_revokeOwn {req : AddressedRequest} {answers : List StatusAnswer}
    (h : ⟨.validateClient (callerId req) (callerSecret req), true⟩ ∈ answers) :
    (revokeOwn (callerId req) (hashedToken cfg req)).Course (Issued cfg (.revoke req))
      (Concluded cfg req) answers := by
  refine ⟨trivial, ?_⟩
  intro introspection
  cases introspection with
  | none =>
    intro _
    refine ⟨none, by simp, ?_⟩
    intro hactive
    obtain ⟨j, hj, -⟩ := hactive
    cases hj
  | some i =>
    dsimp only
    by_cases hactive : i.active = false
    · rw [if_pos hactive]
      intro _
      refine ⟨some i, by simp, ?_⟩
      intro hlive
      obtain ⟨j, hj, hlive⟩ := hlive
      cases hj
      rw [hactive] at hlive
      cases hlive
    · rw [if_neg hactive]
      by_cases howner : i.clientId ≠ callerId req
      · rw [if_pos howner]
        intro hreply
        cases hreply
      · rw [if_neg howner]
        rw [not_not] at howner
        have hauthorised : Authorised cfg req
            (answers ++ [⟨.introspectToken (hashedToken cfg req), some i⟩]) :=
          ⟨List.mem_append_left _ h, i, by simp, by simpa using hactive, howner⟩
        refine ⟨⟨rfl, hauthorised⟩, ?_⟩
        intro _
        refine ⟨⟨rfl, List.mem_append_left _ hauthorised.1, i, by simp, by simpa using hactive,
          howner⟩, ?_⟩
        intro _ _
        exact ⟨some i, by simp, fun _ => ⟨callerId req, by simp⟩⟩

theorem course_revoke (req : AddressedRequest) :
    (revoke cfg req).Course (Issued cfg (.revoke req)) (Concluded cfg req) [] := by
  have hfails (reply : StatusReply) (hreply : reply ≠ .success) (answers : List StatusAnswer) :
      (Prog.ret reply : StatusProg).Course (Issued cfg (.revoke req)) (Concluded cfg req) answers :=
    fun h => absurd h hreply
  unfold revoke
  dsimp only
  split
  · exact hfails _ StatusReply.noConfusion _
  · apply course_rateLimited trivial (fun _ => trivial) (fun _ => trivial)
      (fun _ later _ h => h.mono later) (fun _ _ => StatusReply.noConfusion)
    intro retry
    unfold tokenParameter
    cases RuleSet.validateToken (req.getParameter "token") with
    | some error => exact hfails _ StatusReply.noConfusion _
    | none =>
      refine ⟨trivial, ?_⟩
      intro client
      dsimp only
      split
      · exact hfails _ StatusReply.noConfusion _
      · refine ⟨trivial, ?_⟩
        intro valid
        cases valid with
        | false => exact hfails _ StatusReply.noConfusion _
        | true =>
          apply course_revokeOwn
          simp [callerId, callerSecret]

/-- A result of something else than a revocation may be anything. -/
def AnsweredTo (cfg : Config) (request : StatusRequest) (answers : List StatusAnswer)
    (reply : StatusReply) : Prop :=
  ∀ req, request = .revoke req → Concluded cfg req answers reply

theorem course_introspect (req : AddressedRequest) :
    (introspect cfg req).Course (Issued cfg (.introspect req)) (AnsweredTo cfg (.introspect req))
      [] := by
  have hany (reply : StatusReply) (answers : List StatusAnswer) :
      AnsweredTo cfg (.introspect req) answers reply := by
    intro req' h
    cases h
  unfold introspect
  dsimp only
  split
  · exact hany _ _
  · apply course_rateLimited trivial (fun _ => trivial) (fun _ => trivial)
      (fun _ _ reply _ => hany reply _) (fun _ _ => hany _ _)
    intro retry
    unfold tokenParameter
    cases RuleSet.validateToken (req.getParameter "token") with
    | some error => exact hany _ _
    | none =>
      refine ⟨trivial, ?_⟩
      intro client
      dsimp only
      split
      · exact hany _ _
      · refine ⟨trivial, ?_⟩
        intro valid
        cases valid with
        | false => exact hany _ _
        | true => exact ⟨trivial, fun _ => hany _ _⟩

theorem course_program (request : StatusRequest) :
    (program cfg request).Course (Issued cfg request) (AnsweredTo cfg request) [] := by
  cases request with
  | introspect req => exact course_introspect req
  | revoke req =>
    have hanswered : (AnsweredTo cfg (.revoke req)) = Concluded cfg req := by
      funext answers reply
      apply propext
      constructor
      · intro h
        exact h req rfl
      · intro h req' heq
        cases heq
        exact h
    rw [hanswered]
    exact course_revoke req
  | repository op =>
    refine ⟨trivial, ?_⟩
    intro reply req h
    cases h

/-! ### The invariant -/

/-- The call on the token repository that an operation makes, if it writes. -/
def asCall : StatusCall → Option TokenCall
  | .revokeAccessToken token revokedBy => some (.revokeAccessToken token revokedBy)
  | .revokeRefreshToken token => some (.revokeRefreshToken token)
  | .repository op => some op
  | _ => none

/-- A call saved the record under the value for the client, and if it is revoked, it is known how. -/
structure Origin (cfg : Config) (clients : Clients) (history : List StatusEvent) (op : TokenCall)
    (v client : String) (revoked : Bool) : Prop where
  called : Called history op
  saved : savedAs op = some (v, client)
  revokedBy : revoked = true → RevokedBy cfg clients client v history

/-- Every record comes from the one save of its value. -/
structure Kept (cfg : Config) (clients : Clients) (history : List StatusEvent) (s : StatusStore) :
    Prop where
  same : s.clients = clients
  unique : ∀ op op' v c c', Called history op → Called history op' → savedAs op = some (v, c) →
    savedAs op' = some (v, c') → op = op'
  access : ∀ v it, s.tokens.accessTokens.lookup v = some it →
    ∃ token, Origin cfg clients history (.saveAccessToken token) v it.clientId it.revoked
  refresh : ∀ v rt, s.tokens.refreshTokens.lookup v = some rt →
    ∃ token, Origin cfg clients history (.saveRefreshToken token) v rt.clientId rt.revoked
  family : ∀ v rt, s.tokens.refreshTokens.lookup v = some rt →
    ∃ token, Called history (.saveRefreshToken token) ∧ token.token = v ∧
      rt.familyId = token.familyId ∧ rt.accessToken = token.accessToken
  accepted : ∀ tid req env client secret,
    (.called tid req env ⟨.validateClient client secret, true⟩ : StatusEvent) ∈ history →
    Storage.Memory.validateClient client secret clients = true
  reported : ∀ tid req env v (i : TokenIntrospection),
    (.called tid req env ⟨.introspectToken v, some i⟩ : StatusEvent) ∈ history → i.active = true →
    ∃ op, Called history op ∧ savedAs op = some (v, i.clientId)

theorem Origin.mono {clients : Clients} {op : TokenCall} {client : String} {revoked : Bool}
    (h : Origin cfg clients past op v client revoked) (e : StatusEvent) :
    Origin cfg clients (e :: past) op v client revoked :=
  ⟨h.called.mono e, h.saved, fun hrevoked => (h.revokedBy hrevoked).mono e⟩

theorem called_cons {tid : Nat} {req : StatusRequest} {env : StatusEnv} {a : StatusAnswer}
    {op : TokenCall} (h : Called (.called tid req env a :: past) op) :
    a.op = .repository op ∨ Called past op := by
  obtain ⟨tid', req', env', r, hmem⟩ := h
  rcases List.mem_cons.mp hmem with heq | hmem
  · cases heq
    exact .inl rfl
  · exact .inr ⟨tid', req', env', r, hmem⟩

theorem called_of_eq {tid : Nat} {req : StatusRequest} {env : StatusEnv} {a : StatusAnswer}
    {op : TokenCall} (h : a.op = .repository op) : Called (.called tid req env a :: past) op := by
  obtain ⟨op', r⟩ := a
  obtain rfl : op' = .repository op := h
  exact ⟨tid, req, env, r, List.mem_cons_self⟩

theorem tokens_exec (env : StatusEnv) (op : StatusCall) (s : StatusStore) :
    (exec env op s).2.tokens =
      ((asCall op).map fun c => (Storage.Memory.call env.now s.tokens c).2).getD s.tokens := by
  cases op <;> rfl

theorem clients_exec (env : StatusEnv) (op : StatusCall) (s : StatusStore) :
    (exec env op s).2.clients = s.clients := by
  cases op <;> rfl

theorem owner_of_active {now : Int} {d : Tokens}
    (h : (Storage.Memory.introspectToken now v d).active = true) :
    (∃ it, d.accessTokens.lookup v = some it ∧
      (Storage.Memory.introspectToken now v d).clientId = it.clientId) ∨
      ∃ rt, d.refreshTokens.lookup v = some rt ∧
        (Storage.Memory.introspectToken now v d).clientId = rt.clientId := by
  unfold Storage.Memory.introspectToken at h ⊢
  cases haccess : d.accessTokens.lookup v with
  | some it =>
    simp only [haccess] at h ⊢
    split at h
    · cases h
    · rename_i hlive
      rw [if_neg hlive]
      exact .inl ⟨it, rfl, rfl⟩
  | none =>
    simp only [haccess] at h ⊢
    cases hrefresh : d.refreshTokens.lookup v with
    | some rt =>
      simp only [hrefresh] at h ⊢
      split at h
      · cases h
      · rename_i hlive
        rw [if_neg hlive]
        exact .inr ⟨rt, rfl, rfl⟩
    | none =>
      simp only [hrefresh] at h
      cases h

theorem issued_revocation {request : StatusRequest} {answers : List StatusAnswer} {op : StatusCall}
    {c : TokenCall} (h : Issued cfg request answers op) (hc : asCall op = some c) :
    op = .repository c ∨ ∃ req, request = .revoke req ∧ Authorised cfg req answers ∧
      ∀ F v, Revokes F v c → hashedToken cfg req = v := by
  cases op with
  | revokeAccessToken token revokedBy =>
    cases hc
    cases request with
    | revoke req =>
      refine .inr ⟨req, rfl, h.2, ?_⟩
      intro F v hv
      exact h.1.symm.trans hv
    | introspect | repository => exact h.elim
  | revokeRefreshToken token =>
    cases hc
    cases request with
    | revoke req =>
      refine .inr ⟨req, rfl, h.2, ?_⟩
      intro F v hv
      exact h.1.symm.trans hv
    | introspect | repository => exact h.elim
  | repository op =>
    cases hc
    exact .inl rfl
  | _ => cases hc

theorem issued_of_executed {tid : Nat} {req : StatusRequest} {env : StatusEnv} {op : StatusCall}
    {q : Pool (service cfg)} (h : Executed FreshSaves s₀ history q tid req env op) :
    Issued cfg req (answersOf tid history) op := by
  obtain ⟨p', hafter⟩ := h.after
  obtain ⟨k, hreached⟩ := reached_of_called hafter
  exact ((course_program req).of_reached hreached).1

section Step

variable {clients : Clients} {tid : Nat} {req : StatusRequest} {env : StatusEnv} {op : StatusCall}
  {q : Pool (service cfg)} {client : String} {c op₀ : TokenCall}

/-- What is stored was saved. -/
theorem Kept.savedIn {familyId : String} (h : Kept cfg clients history s)
    (hstored : StoredIn s.tokens v familyId) : SavedIn history v familyId := by
  obtain ⟨k, rt, hlookup, hfamily, hv⟩ := hstored
  obtain ⟨token, hcalled, htoken, hsame, haccess⟩ := h.family k rt hlookup
  refine ⟨token, hcalled, hsame.symm.trans hfamily, ?_⟩
  rwa [htoken, ← haccess]

/-- A request that is about to revoke the record under a value has been authenticated as the client
that the value was saved for. -/
theorem Kept.revokedBy (h : Kept cfg clients history s) {r : op.Resp}
    (hissued : Issued cfg req (answersOf tid history) op) (hc : asCall op = some c)
    (hsaved : Called history op₀) (hop₀ : savedAs op₀ = some (v, client))
    (hrevokes : Revokes (SavedIn history v) v c) :
    RevokedBy cfg clients client v (.called tid req env ⟨op, r⟩ :: history) := by
  rcases issued_revocation hissued hc with rfl | ⟨req, rfl, ⟨hvalid, i, hi, hactive, howner⟩, hhash⟩
  · exact .inr ⟨tid, req, env, c, r, history, List.suffix_rfl, hrevokes⟩
  · obtain rfl := hhash _ v hrevokes
    obtain ⟨req₁, env₁, hvalid⟩ := mem_answersOf.mp hvalid
    obtain ⟨req₂, env₂, hi⟩ := mem_answersOf.mp hi
    obtain ⟨op₁, hcalled, hop₁⟩ := h.reported tid req₂ env₂ _ i hi hactive
    obtain rfl := h.unique op₀ op₁ _ _ _ hsaved hcalled hop₀ hop₁
    have hclient : client = callerId req := by
      rw [hop₀, Option.some.injEq, Prod.mk.injEq] at hop₁
      rw [hop₁.2, howner]
    subst hclient
    exact .inl ⟨tid, req, env, _, List.mem_cons_self, rfl, rfl, h.accepted tid req₁ env₁ _ _ hvalid⟩

/-- Only the other calls save. -/
theorem repository_of_saves (hc : asCall op = some c) (hsaved : savedAs c = some (v, client)) :
    op = .repository c := by
  cases op with
  | repository op =>
    cases hc
    rfl
  | revokeAccessToken token revokedBy =>
    cases hc
    cases hsaved
  | revokeRefreshToken token =>
    cases hc
    cases hsaved
  | _ => cases hc

theorem origin_of_save {r : op.Resp} {revoked : Bool} (hc : asCall op = some c)
    (hsaved : savedAs c = some (v, client))
    (hrevoked : revoked = true → Revokes (SavedIn history v) v c) :
    Origin cfg clients (.called tid req env ⟨op, r⟩ :: history) c v client revoked := by
  obtain rfl := repository_of_saves hc hsaved
  exact ⟨called_of_eq rfl, hsaved,
    fun h => .inr ⟨tid, req, env, c, r, history, List.suffix_rfl, hrevoked h⟩⟩

theorem Origin.remains {r : op.Resp} {client₀ : String} {expiresAt expiresAt₀ : Int}
    {revoked revoked₀ : Bool} (horigin : Origin cfg clients history op₀ v client₀ revoked₀)
    (h : Kept cfg clients history s) (hissued : Issued cfg req (answersOf tid history) op)
    (hc : asCall op = some c)
    (hremains : Remains s.tokens c v client client₀ expiresAt expiresAt₀ revoked revoked₀) :
    Origin cfg clients (.called tid req env ⟨op, r⟩ :: history) op₀ v client revoked := by
  rw [hremains.client]
  refine ⟨horigin.called.mono _, horigin.saved, ?_⟩
  intro hrevoked
  rcases hremains.revokes hrevoked with hold | hrevokes
  · exact (horigin.revokedBy hold).mono _
  · exact h.revokedBy hissued hc horigin.called horigin.saved
      (hrevokes.imp fun _ hstored => h.savedIn hstored)

/-! The fields of the invariant after a call. -/

theorem Kept.unique_called (h : Kept cfg clients history s) {r : op.Resp}
    (hfresh : ∀ c₁ c₂ v client₁ client₂, op = .repository c₁ → savedAs c₁ = some (v, client₁) →
      savedAs c₂ = some (v, client₂) → ¬Called history c₂)
    {c₁ c₂ : TokenCall} {client₁ client₂ : String}
    (h₁ : Called (.called tid req env ⟨op, r⟩ :: history) c₁)
    (h₂ : Called (.called tid req env ⟨op, r⟩ :: history) c₂)
    (hs₁ : savedAs c₁ = some (v, client₁)) (hs₂ : savedAs c₂ = some (v, client₂)) : c₁ = c₂ := by
  rcases called_cons h₁ with hop | hold₁
  · rcases called_cons h₂ with hop' | hold₂
    · dsimp only at hop hop'
      rw [hop] at hop'
      cases hop'
      rfl
    · exact absurd hold₂ (hfresh c₁ c₂ v client₁ client₂ hop hs₁ hs₂)
  · rcases called_cons h₂ with hop' | hold₂
    · exact absurd hold₁ (hfresh c₂ c₁ v client₂ client₁ hop' hs₂ hs₁)
    · exact h.unique c₁ c₂ v client₁ client₂ hold₁ hold₂ hs₁ hs₂

theorem Kept.access_called (h : Kept cfg clients history s) {r : op.Resp}
    (hissued : Issued cfg req (answersOf tid history) op) {it : OAuth2AccessToken}
    (hlookup : (exec env op s).2.tokens.accessTokens.lookup v = some it) :
    ∃ token, Origin cfg clients (.called tid req env ⟨op, r⟩ :: history) (.saveAccessToken token) v
      it.clientId it.revoked := by
  rw [tokens_exec] at hlookup
  cases hc : asCall op with
  | none =>
    rw [hc] at hlookup
    obtain ⟨token, horigin⟩ := h.access v it hlookup
    exact ⟨token, horigin.mono _⟩
  | some c =>
    rw [hc] at hlookup
    rcases access_call hlookup with ⟨token, rfl, rfl, hclient, hrevoked⟩ | ⟨it₀, hold, hremains⟩
    · rw [hclient, hrevoked]
      exact ⟨token, origin_of_save hc rfl fun hr => ⟨rfl, hr⟩⟩
    · obtain ⟨token, horigin⟩ := h.access v it₀ hold
      exact ⟨token, horigin.remains h hissued hc hremains⟩

theorem Kept.refresh_called (h : Kept cfg clients history s) {r : op.Resp}
    (hissued : Issued cfg req (answersOf tid history) op) {rt : OAuth2RefreshToken}
    (hlookup : (exec env op s).2.tokens.refreshTokens.lookup v = some rt) :
    ∃ token, Origin cfg clients (.called tid req env ⟨op, r⟩ :: history) (.saveRefreshToken token)
      v rt.clientId rt.revoked := by
  rw [tokens_exec] at hlookup
  cases hc : asCall op with
  | none =>
    rw [hc] at hlookup
    obtain ⟨token, horigin⟩ := h.refresh v rt hlookup
    exact ⟨token, horigin.mono _⟩
  | some c =>
    rw [hc] at hlookup
    rcases refresh_call hlookup with ⟨token, rfl, rfl, hclient, hrevoked⟩ | ⟨rt₀, hold, hremains⟩
    · rw [hclient, hrevoked]
      exact ⟨token, origin_of_save hc rfl fun hr => ⟨rfl, hr⟩⟩
    · obtain ⟨token, horigin⟩ := h.refresh v rt₀ hold
      exact ⟨token, horigin.remains h hissued hc hremains⟩

theorem Kept.family_called (h : Kept cfg clients history s) {r : op.Resp} {rt : OAuth2RefreshToken}
    (hlookup : (exec env op s).2.tokens.refreshTokens.lookup v = some rt) :
    ∃ token, Called (.called tid req env ⟨op, r⟩ :: history) (.saveRefreshToken token) ∧
      token.token = v ∧ rt.familyId = token.familyId ∧ rt.accessToken = token.accessToken := by
  rw [tokens_exec] at hlookup
  cases hc : asCall op with
  | none =>
    rw [hc] at hlookup
    obtain ⟨token, hcalled, hsame⟩ := h.family v rt hlookup
    exact ⟨token, hcalled.mono _, hsame⟩
  | some c =>
    rw [hc] at hlookup
    rcases Storage.Memory.refreshTokens_call hlookup with
      ⟨rfl, hv⟩ | ⟨rt₀, hold, -, hfamily, haccess⟩
    · exact ⟨rt, called_of_eq (repository_of_saves hc rfl), hv, rfl, rfl⟩
    · obtain ⟨token, hcalled, hv, hfamily₀, haccess₀⟩ := h.family v rt₀ hold
      exact ⟨token, hcalled.mono _, hv, hfamily.trans hfamily₀, haccess.trans haccess₀⟩

/-- A value that is reported active was saved for the client that is reported. -/
theorem Kept.saved_of_active (h : Kept cfg clients history s) {now : Int}
    (hactive : (Storage.Memory.introspectToken now v s.tokens).active = true) :
    ∃ op, Called history op ∧
      savedAs op = some (v, (Storage.Memory.introspectToken now v s.tokens).clientId) := by
  rcases owner_of_active hactive with ⟨it, hlookup, hclient⟩ | ⟨rt, hlookup, hclient⟩
  · obtain ⟨token, horigin⟩ := h.access v it hlookup
    exact ⟨_, horigin.called, hclient ▸ horigin.saved⟩
  · obtain ⟨token, horigin⟩ := h.refresh v rt hlookup
    exact ⟨_, horigin.called, hclient ▸ horigin.saved⟩

theorem Kept.called (h : Kept cfg clients history q.shared)
    (hexecuted : Executed FreshSaves s₀ history q tid req env op) :
    Kept cfg clients (.called tid req env ⟨op, (exec env op q.shared).1⟩ :: history)
      (exec env op q.shared).2 := by
  have hissued := issued_of_executed hexecuted
  have hresp {a : StatusAnswer} (ha : a = ⟨op, (exec env op q.shared).1⟩) :
      a.resp = (exec env a.op q.shared).1 := by
    subst ha
    rfl
  refine ⟨?_, ?_, ?_, ?_, ?_, ?_, ?_⟩
  · rw [clients_exec]
    exact h.same
  · intro c₁ c₂ v client₁ client₂ h₁ h₂ hs₁ hs₂
    refine h.unique_called ?_ h₁ h₂ hs₁ hs₂
    intro c c' v client client' hop hs hs'
    exact not_called_of_fresh hexecuted.guarded (hop ▸ hexecuted.next) hs hs'
  · exact fun v it hlookup => h.access_called hissued hlookup
  · exact fun v rt hlookup => h.refresh_called hissued hlookup
  · exact fun v rt hlookup => h.family_called hlookup
  · intro tid' req' env' client secret hmem
    rcases List.mem_cons.mp hmem with heq | hold
    · have hvalid : true = Storage.Memory.validateClient client secret q.shared.clients :=
        hresp (Event.called.inj heq).2.2.2
      rw [hvalid, h.same]
    · exact h.accepted tid' req' env' client secret hold
  · intro tid' req' env' v i hmem hactive
    rcases List.mem_cons.mp hmem with heq | hold
    · have hi : some i = some (Storage.Memory.introspectToken env.now v q.shared.tokens) :=
        hresp (Event.called.inj heq).2.2.2
      obtain rfl := Option.some.inj hi
      obtain ⟨op', hcalled, hsaved⟩ := h.saved_of_active hactive
      exact ⟨op', hcalled.mono _, hsaved⟩
    · obtain ⟨op', hcalled, hsaved⟩ := h.reported tid' req' env' v i hold hactive
      exact ⟨op', hcalled.mono _, hsaved⟩

end Step

theorem called_of_uncalled {e : StatusEvent} (he : ∀ tid req env a, e ≠ .called tid req env a)
    {op : TokenCall} (h : Called (e :: past) op) : Called past op := by
  obtain ⟨tid, req, env, r, hmem⟩ := h
  rcases List.mem_cons.mp hmem with heq | hmem
  · exact absurd heq.symm (he _ _ _ _)
  · exact ⟨tid, req, env, r, hmem⟩

theorem Kept.uncalled {clients : Clients} {e : StatusEvent}
    (he : ∀ tid req env a, e ≠ .called tid req env a) (h : Kept cfg clients past s) :
    Kept cfg clients (e :: past) s := by
  refine ⟨h.same, ?_, ?_, ?_, ?_, ?_, ?_⟩
  · intro op op' v c c' h₁ h₂
    exact h.unique op op' v c c' (called_of_uncalled he h₁) (called_of_uncalled he h₂)
  · intro v it hlookup
    obtain ⟨token, horigin⟩ := h.access v it hlookup
    exact ⟨token, horigin.mono e⟩
  · intro v rt hlookup
    obtain ⟨token, horigin⟩ := h.refresh v rt hlookup
    exact ⟨token, horigin.mono e⟩
  · intro v rt hlookup
    obtain ⟨token, hcalled, hsame⟩ := h.family v rt hlookup
    exact ⟨token, hcalled.mono e, hsame⟩
  · intro tid req env client secret hmem
    rcases List.mem_cons.mp hmem with heq | hmem
    · exact absurd heq.symm (he _ _ _ _)
    · exact h.accepted tid req env client secret hmem
  · intro tid req env v i hmem hactive
    rcases List.mem_cons.mp hmem with heq | hmem
    · exact absurd heq.symm (he _ _ _ _)
    · obtain ⟨op, hcalled, hsaved⟩ := h.reported tid req env v i hmem hactive
      exact ⟨op, hcalled.mono e, hsaved⟩

theorem kept_init (cfg : Config) (clients : Clients) (s : StatusStore) (hclients : s.clients = clients)
    (hempty : s.tokens = .empty) : Kept cfg clients [] s := by
  refine ⟨hclients, ?_, ?_, ?_, ?_, ?_, ?_⟩
  · intro op op' v c c' h
    obtain ⟨tid, req, env, r, hmem⟩ := h
    cases hmem
  · intro v it hlookup
    rw [hempty] at hlookup
    cases hlookup
  · intro v rt hlookup
    rw [hempty] at hlookup
    cases hlookup
  · intro v rt hlookup
    rw [hempty] at hlookup
    cases hlookup
  · intro tid req env client secret hmem
    cases hmem
  · intro tid req env v i hmem
    cases hmem

theorem kept_of_run (hempty : s₀.tokens = .empty)
    (hrun : (service cfg).machine.Run FreshSaves ((service cfg).start s₀) history p) :
    Kept cfg s₀.clients history p.shared :=
  shared_invariant (kept_init cfg s₀.clients s₀ rfl hempty)
    (fun _ _ _ _ h => h.uncalled fun _ _ _ _ heq => by cases heq)
    (fun _ _ h => h.uncalled fun _ _ _ _ heq => by cases heq)
    (fun _ _ _ _ _ _ hexecuted h => h.called hexecuted) hrun

theorem Kept.one_kind {clients : Clients} (h : Kept cfg clients history s)
    (it : OAuth2AccessToken) (rt : OAuth2RefreshToken)
    (haccess : s.tokens.accessTokens.lookup v = some it)
    (hrefresh : s.tokens.refreshTokens.lookup v = some rt) : False := by
  obtain ⟨token, hone⟩ := h.access v it haccess
  obtain ⟨token', hother⟩ := h.refresh v rt hrefresh
  cases h.unique _ _ v _ _ hone.called hother.called hone.saved hother.saved

/-! ### Who revokes -/

/-- In every run in which no value is saved twice, a token that is revoked was presented by a
revocation request that the repository authenticates as the client of the token, unless something
else than the endpoints has revoked it, or a family that it belonged to. -/
theorem revoked_by_its_client (hempty : s₀.tokens = .empty)
    (hrun : (service cfg).machine.Run FreshSaves ((service cfg).start s₀) history p) (v : String) :
    (∀ it, p.shared.tokens.accessTokens.lookup v = some it → it.revoked = true →
      RevokedBy cfg s₀.clients it.clientId v history) ∧
      ∀ rt, p.shared.tokens.refreshTokens.lookup v = some rt → rt.revoked = true →
        RevokedBy cfg s₀.clients rt.clientId v history := by
  have hkept := kept_of_run hempty hrun
  constructor
  · intro it hlookup hrevoked
    obtain ⟨token, horigin⟩ := hkept.access v it hlookup
    exact horigin.revokedBy hrevoked
  · intro rt hlookup hrevoked
    obtain ⟨token, horigin⟩ := hkept.refresh v rt hlookup
    exact horigin.revokedBy hrevoked

/-! ### For how long -/

/-- Nothing under the value is live at the time or later. -/
structure Dead (v : String) (t : Int) (d : Tokens) : Prop where
  access : ∀ it, d.accessTokens.lookup v = some it → it.revoked = true ∨ it.expiresAt < t
  refresh : ∀ rt, d.refreshTokens.lookup v = some rt → rt.revoked = true ∨ rt.expiresAt < t

section Dead

variable {now : Int} {d : Tokens} {c : TokenCall}

theorem Dead.call (h : Dead v t d) (hc : ∀ client, savedAs c ≠ some (v, client)) :
    Dead v t (Storage.Memory.call now d c).2 := by
  constructor
  · intro it hlookup
    rcases access_call hlookup with ⟨token, rfl, rfl, -, -⟩ | ⟨it₀, hold, hremains⟩
    · exact absurd rfl (hc token.clientId)
    · rcases h.access it₀ hold with hrevoked | hexpired
      · exact .inl (hremains.keeps hrevoked)
      · rw [hremains.expiresAt]
        exact .inr hexpired
  · intro rt hlookup
    rcases refresh_call hlookup with ⟨token, rfl, rfl, -, -⟩ | ⟨rt₀, hold, hremains⟩
    · exact absurd rfl (hc token.clientId)
    · rcases h.refresh rt₀ hold with hrevoked | hexpired
      · exact .inl (hremains.keeps hrevoked)
      · rw [hremains.expiresAt]
        exact .inr hexpired

theorem Dead.mono {t' : Int} (h : Dead v t d) (hle : t ≤ t') : Dead v t' d := by
  constructor
  · intro it hlookup
    exact (h.access it hlookup).imp_right fun hexpired => lt_of_lt_of_le hexpired hle
  · intro rt hlookup
    exact (h.refresh rt hlookup).imp_right fun hexpired => lt_of_lt_of_le hexpired hle

theorem dead_revokeAccessToken (t : Int) (revokedBy : String) :
    Dead v t (Storage.Memory.revokeAccessToken now v revokedBy d) := by
  constructor
  · intro it hlookup
    simp only [Storage.Memory.revokeAccessToken, Dict.lookup_mapValues, Option.map_eq_some_iff,
      if_true] at hlookup
    obtain ⟨it₀, -, rfl⟩ := hlookup
    exact .inl rfl
  · intro rt hlookup
    simp only [Storage.Memory.revokeAccessToken, Dict.lookup_mapValues, Option.map_eq_some_iff,
      if_true] at hlookup
    obtain ⟨rt₀, -, rfl⟩ := hlookup
    exact .inl rfl

/-- A value that is not reported active is dead, if it is not one of both kinds. -/
theorem dead_of_inactive (h : (Storage.Memory.introspectToken t v d).active = false)
    (hkind : ∀ it rt, d.accessTokens.lookup v = some it → d.refreshTokens.lookup v = some rt →
      False) : Dead v t d := by
  unfold Storage.Memory.introspectToken at h
  constructor
  · intro it hlookup
    by_contra hlive
    simp only [hlookup, if_neg hlive] at h
    cases h
  · intro rt hlookup
    by_contra hlive
    cases haccess : d.accessTokens.lookup v with
    | some it => exact hkind it rt haccess hlookup
    | none =>
      simp only [haccess, hlookup, if_neg hlive] at h
      cases h

/-- What is dead is offered by no reader. -/
theorem Dead.not_offered (h : Dead v t d) (hle : t ≤ now) :
    (Storage.Memory.introspectToken now v d).active = false ∧
      Storage.Memory.getAccessToken now v d = none ∧
      Storage.Memory.getRefreshToken now v d = none := by
  have hlate {expiresAt : Int} {revoked : Bool} (h : revoked = true ∨ expiresAt < t) :
      (revoked = true ∨ expiresAt < now) ∧ ¬(expiresAt > now ∧ revoked = false) := by
    rcases h with rfl | hexpired
    · simp
    · refine ⟨.inr (by omega), ?_⟩
      intro hlive
      omega
  refine ⟨?_, ?_, ?_⟩
  · unfold Storage.Memory.introspectToken
    cases haccess : d.accessTokens.lookup v with
    | some it =>
      simp only [if_pos (hlate (h.access it haccess)).1]
    | none =>
      cases hrefresh : d.refreshTokens.lookup v with
      | some rt => simp only [if_pos (hlate (h.refresh rt hrefresh)).1]
      | none => rfl
  · unfold Storage.Memory.getAccessToken
    cases haccess : d.accessTokens.lookup v with
    | some it => simp only [if_neg (hlate (h.access it haccess)).2]
    | none => rfl
  · unfold Storage.Memory.getRefreshToken
    cases hrefresh : d.refreshTokens.lookup v with
    | some rt => simp only [if_neg (hlate (h.refresh rt hrefresh)).2]
    | none => rfl

end Dead

theorem dead_of_run {q : Pool (service cfg)} {op : TokenCall} {client : String}
    (hdead : Dead v t q.shared.tokens)
    (hq : (service cfg).machine.Run FreshSaves ((service cfg).start s₀) past q)
    (hsaved : Called past op) (hop : savedAs op = some (v, client))
    (hrun : (service cfg).machine.Run FreshSaves ((service cfg).start s₀) (later ++ past) p) :
    Dead v t p.shared.tokens := by
  induction later generalizing p with
  | nil =>
    rw [List.nil_append] at hrun
    rwa [shared_eq_replay hrun, ← shared_eq_replay hq]
  | cons e later ih =>
    rw [List.cons_append] at hrun
    obtain ⟨q', -, hq', -, -⟩ := hrun.last
    have hbefore := ih hq'
    rw [shared_eq_replay hq'] at hbefore
    rw [shared_eq_replay hrun]
    cases e with
    | started => exact hbefore
    | idle => exact hbefore
    | called tid req env a =>
      change Dead v t (exec env a.op ((service cfg).replay s₀ (later ++ past))).2.tokens
      rw [tokens_exec]
      cases hc : asCall a.op with
      | none => exact hbefore
      | some c =>
        apply hbefore.call
        intro client' hsaves
        obtain ⟨q'', -, hguard, hnext, -⟩ := answered_of_called hrun
        rw [repository_of_saves hc hsaves] at hnext
        exact not_called_of_fresh hguard hnext hsaves hop (hsaved.append later)

def timeOf : StatusEvent → Option Int
  | .called _ _ env _ => some env.now
  | _ => none

/-- When a revocation request for a token that was saved before is answered with success, the token
is offered as live at no later time, neither as an access token nor as a refresh token, whatever was
called on the repository while the request ran or is called after it. -/
theorem success_is_final (hempty : s₀.tokens = .empty) {tid : Nat} {req : AddressedRequest}
    (hrun : (service cfg).machine.Run FreshSaves ((service cfg).start s₀)
      (later ++ .started tid (.revoke req) :: past) p)
    {op : TokenCall} {client : String} (hsaved : Called past op)
    (hop : savedAs op = some (hashedToken cfg req, client))
    (hdone : (p.threads[tid]?).bind Thread.result = some .success) {now : Int}
    (hnow : ∀ e ∈ later, ∀ time ∈ timeOf e, time ≤ now) :
    (Storage.Memory.introspectToken now (hashedToken cfg req) p.shared.tokens).active = false ∧
      Storage.Memory.getAccessToken now (hashedToken cfg req) p.shared.tokens = none ∧
      Storage.Memory.getRefreshToken now (hashedToken cfg req) p.shared.tokens = none := by
  suffices hdead : Dead (hashedToken cfg req) now p.shared.tokens from
    hdead.not_offered le_rfl
  obtain ⟨th, hth, hrequest⟩ := request_of_started hrun
  rw [hth] at hdone
  have hconcluded : Concluded cfg req th.answers .success := by
    have hcourse := course_of_thread (S := service cfg) course_program th
    rw [Thread.rest_of_result hdone, hrequest] at hcourse
    exact hcourse req rfl
  rw [(described_of_run hrun).answers hth] at hconcluded
  obtain ⟨i, hi, hrevoked⟩ := hconcluded rfl
  obtain ⟨post, req', env, mid, q, hlater, hq, hresp⟩ := answered_later hrun hi
  change i = some (Storage.Memory.introspectToken env.now _ q.shared.tokens) at hresp
  cases hactive : (Storage.Memory.introspectToken env.now (hashedToken cfg req)
      q.shared.tokens).active with
  | false =>
    have hle : env.now ≤ now := by
      refine hnow (.called tid req' env ⟨.introspectToken (hashedToken cfg req), i⟩) ?_ env.now rfl
      rw [hlater]
      exact List.mem_append_right _ List.mem_cons_self
    have hdead : Dead (hashedToken cfg req) env.now q.shared.tokens :=
      dead_of_inactive hactive (kept_of_run hempty hq).one_kind
    subst hlater
    rw [List.append_assoc, List.cons_append, List.append_cons] at hrun
    exact (dead_of_run hdead hq ((hsaved.mono _).append _) hop hrun).mono hle
  | true =>
    obtain ⟨revokedBy, hmem⟩ := hrevoked ⟨_, hresp, hactive⟩
    obtain ⟨post, req', env, mid, q, rfl, hq, -⟩ := answered_later hrun hmem
    rw [List.append_assoc, List.cons_append] at hrun
    obtain ⟨q', hq'⟩ := hrun.shorter
    have hdead : Dead (hashedToken cfg req) now q'.shared.tokens := by
      rw [shared_eq_replay hq']
      exact dead_revokeAccessToken now revokedBy
    exact dead_of_run hdead hq' (((hsaved.mono _).append _).mono _) hop hrun

/-! ### A token revoked by its client -/

/-- The digest of the one token below. -/
def tokenDigest : String := "3eb1bd439947eb762998e566ccc2e099c791118b2f40579cc4f7da2b5061b7f9"

def statusConfig : Config where
  tokenService := { knownService with crypto := { knownCrypto with sha256Hex _ := tokenDigest } }
  crypto := knownIdentityCrypto
  urlEncode s := s

def otherClient : OAuth2Client := { knownClient with clientId := "other" }

def revocation (clientId : String) : AddressedRequest where
  session := 0
  params := AList.insert "token" "0123456789abcdef0123456789abcdef"
    (AList.insert "client_id" clientId ∅)
  peerIp := "192.0.2.1"

def savedAccess : OAuth2AccessToken where
  token := "3EB1BD439947EB762998E566CCC2E099C791118B2F40579CC4F7DA2B5061B7F9"
  clientId := "spa"
  userId := "1"
  scope := "openid"
  expiresAt := 4600

def statusStore : StatusStore where
  limiter := {}
  clients := AList.insert "spa" knownClient (AList.insert "other" otherClient ∅)
  tokens := .empty

def clockAt (now : Int) : StatusEnv := { now, steady := now * Common.nanosPerSecond }

def save : List (Input StatusEnv StatusRequest) :=
  [.start (.repository (.saveAccessToken savedAccess)), .advance 0 (clockAt 1000),
   .start (.revoke (revocation "other"))]

/-- Another client tries first. -/
def attempts : List (Input StatusEnv StatusRequest) :=
  List.replicate 5 (.advance 1 (clockAt 1001)) ++ List.replicate 7 (.advance 2 (clockAt 1002))

def both : List (Input StatusEnv StatusRequest) :=
  (save ++ [.start (.revoke (revocation "spa"))]) ++ attempts

def run (inputs : List (Input StatusEnv StatusRequest)) :
    List StatusEvent × Pool (service statusConfig) :=
  (service statusConfig).machine.exec [] ((service statusConfig).start statusStore) inputs

def executed : List StatusEvent × Pool (service statusConfig) := run both

theorem executed_facts : (service statusConfig).machine.Guarded FreshSaves []
      ((service statusConfig).start statusStore) both ∧
    hashedToken statusConfig (revocation "spa") = savedAccess.token ∧
    (executed.2.threads[1]?).bind Thread.result = some (.error 400 "unauthorized_client"
      "This client is not allowed to revoke the token" none) ∧
    (executed.2.threads[2]?).bind Thread.result = some .success ∧
    executed.2.shared.tokens.accessTokens.lookup savedAccess.token =
      some { savedAccess with
        issuedAt := 1000, notBefore := 1000, revoked := true, revokedAt := 1002
        revokedBy := "spa" } ∧
    ∀ e ∈ executed.1, ∀ time ∈ timeOf e, time ≤ 4000 := by
  decide +kernel

theorem run_executed : (service statusConfig).machine.Run FreshSaves
    ((service statusConfig).start statusStore) executed.1 executed.2 :=
  Machine.Run.exec_of_guarded .init _ executed_facts.1

theorem revoked_by_its_client_both :
    ∃ it, executed.2.shared.tokens.accessTokens.lookup savedAccess.token = some it ∧
      it.revoked = true ∧
      RevokedBy statusConfig statusStore.clients it.clientId savedAccess.token executed.1 := by
  obtain ⟨-, -, -, -, hlookup, -⟩ := executed_facts
  exact ⟨_, hlookup, rfl, (revoked_by_its_client rfl run_executed _).1 _ hlookup rfl⟩

theorem success_is_final_both :
    (Storage.Memory.introspectToken 4000 savedAccess.token executed.2.shared.tokens).active =
      false := by
  obtain ⟨-, hhash, -, hdone, -, hnow⟩ := executed_facts
  have hsuffix : (run (save ++ [.start (.revoke (revocation "spa"))])).1 <:+ executed.1 :=
    Machine.suffix_exec_append _ attempts
  obtain ⟨later, hlater⟩ : (.started 2 (.revoke (revocation "spa")) : StatusEvent) :: (run save).1
      <:+ executed.1 := hsuffix
  have hrun := run_executed
  rw [← hlater] at hrun hnow
  have hsaved : Called (run save).1 (.saveAccessToken savedAccess) :=
    ⟨0, _, _, _, List.mem_cons_of_mem _ List.mem_cons_self⟩
  rw [← hhash]
  refine (success_is_final rfl hrun hsaved (by rw [hhash]; rfl) hdone ?_).1
  intro e he
  exact hnow e (List.mem_append_left _ he)

end AuthForge.EndpointRevocation
