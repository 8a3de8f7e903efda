import AuthForge.Storage.Memory

/-!
# Calls to the in-memory token repository

The operations of `MemoryTokenRepository` as the steps of one machine. Each call comes with the time
at which it is made.
-/

namespace AuthForge.Storage.Memory

open OAuth2

/-- Access tokens are looked up first. -/
def introspectToken (now : Int) (token : String) (s : Tokens) : TokenIntrospection :=
  match s.accessTokens.lookup token with
  | some it =>
    if it.revoked = true ∨ it.expiresAt < now then { active := false }
    else
      { active := true, clientId := it.clientId, tokenType := "Bearer", exp := it.expiresAt
        iat := it.issuedAt, iss := it.issuer, aud := it.audience, nbf := it.notBefore
        sub := it.userId, scope := it.scope }
  | none =>
    match s.refreshTokens.lookup token with
    | some rt =>
      if rt.revoked = true ∨ rt.expiresAt < now then { active := false }
      else
        { active := true, clientId := rt.clientId, tokenType := "Bearer", exp := rt.expiresAt
          sub := rt.userId, scope := rt.scope }
    | none => { active := false }

inductive TokenCall
  | saveAccessToken (token : OAuth2AccessToken)
  | saveRefreshToken (token : OAuth2RefreshToken)
  | getAccessToken (token : String)
  | getRefreshToken (token : String)
  | atomicRevokeRefreshToken (token : String)
  | revokeAccessToken (token revokedBy : String)
  | revokeRefreshToken (token : String)
  | revokeTokenFamily (familyId : String)
  | introspectToken (token : String)
  | incrementIntrospectCount (token : String)
  | purgeExpired
  deriving DecidableEq

inductive TokenReply
  | access (token : Option OAuth2AccessToken)
  | refresh (token : Option OAuth2RefreshToken)
  | introspection (result : TokenIntrospection)
  | done
  deriving DecidableEq

structure TimedCall where
  now : Int
  call : TokenCall
  deriving DecidableEq

structure TokenEvent extends TimedCall where
  reply : TokenReply
  deriving DecidableEq

def call (now : Int) (s : Tokens) : TokenCall → TokenReply × Tokens
  | .saveAccessToken token => (.done, saveAccessToken now token s)
  | .saveRefreshToken token => (.done, saveRefreshToken token s)
  | .getAccessToken token => (.access (getAccessToken now token s), s)
  | .getRefreshToken token => (.refresh (getRefreshToken now token s), s)
  | .atomicRevokeRefreshToken token =>
    let r := atomicRevokeRefreshToken token s
    (.refresh r.1, r.2)
  | .revokeAccessToken token revokedBy => (.done, revokeAccessToken now token revokedBy s)
  | .revokeRefreshToken token => (.done, revokeRefreshToken token s)
  | .revokeTokenFamily familyId => (.done, revokeTokenFamily familyId s)
  | .introspectToken token => (.introspection (introspectToken now token s), s)
  | .incrementIntrospectCount token => (.done, incrementIntrospectCount token s)
  | .purgeExpired => (.done, purgeExpired now s)

def tokenCalls : Machine Tokens TimedCall TokenEvent where
  step s i :=
    let r := call i.now s i.call
    (r.2, ⟨i, r.1⟩)

/-- The repository after a history of calls. -/
def after : List TokenEvent → Tokens
  | [] => .empty
  | e :: past => (call e.now (after past) e.call).2

theorem eq_after {ok : Guard Tokens TimedCall TokenEvent} {history : List TokenEvent} {s : Tokens}
    (hrun : tokenCalls.Run ok .empty history s) : s = after history := by
  induction hrun with
  | init => rfl
  | next i hrun hok ih =>
    rw [ih]
    rfl

/-! ### What a call does to the record under one value -/

section Records

variable {now : Int} {s : Tokens} {c : TokenCall} {v : String}

/-- The access token under a value after a call: a save of the value, or what is left of the record
that was there, which stays revoked once it is. -/
theorem accessTokens_call {it : OAuth2AccessToken}
    (h : (call now s c).2.accessTokens.lookup v = some it) :
    (∃ token, c = .saveAccessToken token ∧ token.token = v) ∨
      ∃ it₀, s.accessTokens.lookup v = some it₀ ∧ (it₀.revoked = true → it.revoked = true) := by
  have hsame (h : s.accessTokens.lookup v = some it) :
      ∃ it₀, s.accessTokens.lookup v = some it₀ ∧ (it₀.revoked = true → it.revoked = true) :=
    ⟨it, h, id⟩
  have hmapped {f : String → OAuth2AccessToken → OAuth2AccessToken}
      (hf : ∀ k it, it.revoked = true → (f k it).revoked = true)
      (h : (s.accessTokens.mapValues f).lookup v = some it) :
      ∃ it₀, s.accessTokens.lookup v = some it₀ ∧ (it₀.revoked = true → it.revoked = true) := by
    rw [Dict.lookup_mapValues] at h
    obtain ⟨it₀, hlookup, rfl⟩ := Option.map_eq_some_iff.mp h
    exact ⟨it₀, hlookup, hf v it₀⟩
  cases c with
  | saveAccessToken token =>
    by_cases hv : v = token.token
    · exact .inl ⟨token, rfl, hv.symm⟩
    · refine .inr (hsame ?_)
      exact (AList.lookup_insert_ne hv).symm.trans h
  | atomicRevokeRefreshToken token =>
    refine .inr (hsame ?_)
    simp only [call, atomicRevokeRefreshToken] at h
    split at h
    · exact h
    · split at h <;> exact h
  | revokeAccessToken token revokedBy =>
    refine .inr (hmapped ?_ h)
    intro k it hrevoked
    split
    · rfl
    · exact hrevoked
  | revokeTokenFamily familyId =>
    refine .inr (hmapped ?_ h)
    intro k it hrevoked
    split
    · rfl
    · exact hrevoked
  | incrementIntrospectCount token =>
    refine .inr (hmapped ?_ h)
    intro k it hrevoked
    split <;> exact hrevoked
  | purgeExpired =>
    simp only [call, purgeExpired, Dict.lookup_keepValues] at h
    exact .inr (hsame (Option.filter_eq_some_iff.mp h).1)
  | saveRefreshToken | getAccessToken | getRefreshToken | revokeRefreshToken | introspectToken =>
    exact .inr (hsame h)

/-- As for access tokens; a record that stays also stays in its family, with its access
token. -/
theorem refreshTokens_call {rt : OAuth2RefreshToken}
    (h : (call now s c).2.refreshTokens.lookup v = some rt) :
    c = .saveRefreshToken rt ∧ rt.token = v ∨
      ∃ rt₀, s.refreshTokens.lookup v = some rt₀ ∧ (rt₀.revoked = true → rt.revoked = true) ∧
        rt.familyId = rt₀.familyId ∧ rt.accessToken = rt₀.accessToken := by
  have hsame (h : s.refreshTokens.lookup v = some rt) :
      ∃ rt₀, s.refreshTokens.lookup v = some rt₀ ∧ (rt₀.revoked = true → rt.revoked = true) ∧
        rt.familyId = rt₀.familyId ∧ rt.accessToken = rt₀.accessToken :=
    ⟨rt, h, id, rfl, rfl⟩
  have hmapped {f : String → OAuth2RefreshToken → OAuth2RefreshToken}
      (hf : ∀ k rt, (rt.revoked = true → (f k rt).revoked = true) ∧
        (f k rt).familyId = rt.familyId ∧ (f k rt).accessToken = rt.accessToken)
      (h : (s.refreshTokens.mapValues f).lookup v = some rt) :
      ∃ rt₀, s.refreshTokens.lookup v = some rt₀ ∧ (rt₀.revoked = true → rt.revoked = true) ∧
        rt.familyId = rt₀.familyId ∧ rt.accessToken = rt₀.accessToken := by
    rw [Dict.lookup_mapValues] at h
    obtain ⟨rt₀, hlookup, rfl⟩ := Option.map_eq_some_iff.mp h
    exact ⟨rt₀, hlookup, hf v rt₀⟩
  cases c with
  | saveRefreshToken token =>
    change (s.refreshTokens.insert token.token token).lookup v = some rt at h
    by_cases hv : v = token.token
    · subst hv
      rw [AList.lookup_insert] at h
      obtain rfl := Option.some.inj h
      exact .inl ⟨rfl, rfl⟩
    · exact .inr (hsame ((AList.lookup_insert_ne hv).symm.trans h))
  | atomicRevokeRefreshToken token =>
    right
    simp only [call, atomicRevokeRefreshToken] at h
    split at h
    · exact hsame h
    · rename_i it hlookup
      split at h
      · exact hsame h
      · by_cases hv : v = token
        · subst hv
          rw [AList.lookup_insert] at h
          obtain rfl := Option.some.inj h
          exact ⟨it, hlookup, fun _ => rfl, rfl, rfl⟩
        · exact hsame ((AList.lookup_insert_ne hv).symm.trans h)
  | revokeAccessToken token revokedBy =>
    refine .inr (hmapped ?_ h)
    intro k rt
    split
    · exact ⟨fun _ => rfl, rfl, rfl⟩
    · exact ⟨id, rfl, rfl⟩
  | revokeRefreshToken token =>
    refine .inr (hmapped ?_ h)
    intro k rt
    split
    · exact ⟨fun _ => rfl, rfl, rfl⟩
    · exact ⟨id, rfl, rfl⟩
  | revokeTokenFamily familyId =>
    refine .inr (hmapped ?_ h)
    intro k rt
    split
    · exact ⟨fun _ => rfl, rfl, rfl⟩
    · exact ⟨id, rfl, rfl⟩
  | purgeExpired =>
    simp only [call, purgeExpired, Dict.lookup_keepValues] at h
    exact .inr (hsame (Option.filter_eq_some_iff.mp h).1)
  | saveAccessToken | getAccessToken | getRefreshToken | introspectToken
  | incrementIntrospectCount => exact .inr (hsame h)

end Records

end AuthForge.Storage.Memory
