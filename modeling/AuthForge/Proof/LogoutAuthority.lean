import AuthForge.Http.Logout

/-!
# Who can log a user out of the relying parties

A logout token goes out for the user of a valid access token, for the subject of a session, or for
whomever an `id_token_hint` names. A session has a subject only because its user has logged in there
since it was last cleared; a hint proves nothing.
-/

namespace AuthForge.LogoutAuthority

open Http Http.Logout OAuth2 Identity Storage

variable {sha256Hex : String → String} {grants : GrantRepository}

/-- In the session, a user with this public subject has logged in since it was last cleared. -/
def LoggedIn (d : Directory) (history : List Event) (sid : Nat) (sub : String) : Prop :=
  ∃ later e earlier id p, history = later ++ e :: earlier ∧
    (∃ clientId redirectUri decision,
      .passwordValidated sid id clientId redirectUri decision ∈ e.flow.log) ∧
    d.users.table.lookup id = some p ∧ p.publicSub = sub ∧ ∀ e' ∈ later, e'.cleared ≠ some sid

/-- The request presents a valid access token of the subject. -/
def PresentsToken (cfg : Config) (s : Site sha256Hex grants) (sub : String) : Logout.Input → Prop
  | .logout req env => ∃ token, presented cfg s req env = some token ∧ token.userId = sub
  | _ => False

/-- The request comes from a session in which the subject has logged in. -/
def FromSession (d : Directory) (history : List Event) (sub : String) : Logout.Input → Prop
  | .endSession req _ => LoggedIn d history req.session sub
  | _ => False

/-- The request carries a hint whose payload names the subject. -/
def NamedByHint (ports : Ports) (sub : String) : Logout.Input → Prop
  | .endSession req _ => req.getParameter "id_token_hint" ≠ "" ∧
      (decodeJwtPayloadClaims ports (req.getParameter "id_token_hint")).asString "sub" = some sub
  | _ => False

/-- An id_token for the subject has been signed. -/
def SignedFor (history : List Event) (sub : String) : Prop :=
  ∃ e ∈ history, ∃ idToken ∈ e.flow.idTokens, idToken.2.sub = sub

variable {cfg : Config} {ports : Ports} {s s₀ : Site sha256Hex grants} {history : List Event}

/-! ### The subject of a post -/

theorem sub_of_mem_notify {env : LogoutEnv} {userId : String} {post : Post}
    (h : post ∈ notify ports s env userId) : post.claims.sub = userId := by
  unfold notify at h
  split at h
  · cases h
  · dsimp only at h
    split at h
    · cases h
    · split at h
      · cases h
      · obtain ⟨⟨target, n⟩, -, hpost⟩ := List.mem_filterMap.mp h
        dsimp only at hpost
        split at hpost
        · cases hpost
        · unfold postTo at hpost
          dsimp only at hpost
          split at hpost
          · cases hpost
          · obtain rfl := Option.some.inj hpost
            rfl

/-! ### The subjects of sessions -/

section Handlers

variable {b : Backend} {w : World b} {i : Http.Input} {req : HttpRequest} {env : RequestEnv}
  {o : Http.Outcome b} {k : Nat} {sub : String}

/-- The subject of a session was there before the request, or the request is its login. -/
def SubKept (w : World b) (o : Http.Outcome b) : Prop :=
  ∀ k sub, (o.world.sessions k).sub = some sub → (w.sessions k).sub = some sub ∨
    ∃ id p, (∃ clientId redirectUri decision,
      .passwordValidated k id clientId redirectUri decision ∈ o.log) ∧
        w.directory.users.table.lookup id = some p ∧ p.publicSub = sub

theorem subKept_of_sessions (h : ∀ k, (o.world.sessions k).sub = (w.sessions k).sub) :
    SubKept w o :=
  fun k _ hsub => .inl ((h k).symm.trans hsub)

theorem sub_setSession {sid : Nat} {session : Session} :
    ((w.setSession sid session).sessions k).sub =
      if k = sid then session.sub else (w.sessions k).sub := by
  unfold World.setSession
  simp only [Function.update_apply]
  split <;> rfl

theorem sub_entered {result : AuthResult}
    (h : ((SessionController.entered cfg w req env result).sessions k).sub = some sub) :
    (w.sessions k).sub = some sub ∨ k = req.session ∧ sub = result.publicSub := by
  rw [SessionController.entered, sub_setSession] at h
  split at h
  · rename_i hk
    subst hk
    rcases Config.insertKey_eq_some h with hold | hnew
    · exact .inl hold
    · exact .inr ⟨rfl, hnew⟩
  · exact .inl h

theorem subKept_of_accepts {result : AuthResult} {users : UserTable}
    (haccepts : SessionController.Accepts cfg w req env result users)
    (hsessions : ∀ k, (o.world.sessions k).sub =
      ((SessionController.entered cfg { w with users } req env result).sessions k).sub)
    (hlog : SessionController.passwordAction cfg req (SessionController.loginFields req) result ∈
      o.log) : SubKept w o := by
  obtain ⟨-, id, p, hrow, rfl⟩ := haccepts.spec
  intro k sub hsub
  rw [hsessions] at hsub
  rcases sub_entered hsub with hold | ⟨rfl, rfl⟩
  · exact .inl hold
  · exact .inr ⟨id, p, ⟨_, _, _, hlog⟩, hrow, rfl⟩

theorem LoginCase.subKept (h : SessionController.LoginCase cfg w req env o) : SubKept w o := by
  cases h with
  | refused => exact subKept_of_sessions fun _ => rfl
  | stopped haccepts =>
    exact subKept_of_accepts haccepts (fun _ => rfl) List.mem_cons_self
  | bound haccepts =>
    refine subKept_of_accepts haccepts (fun k => ?_) (List.mem_cons_of_mem _ List.mem_cons_self)
    rw [SessionController.saveBinding, sub_setSession]
    split
    · rename_i hk
      rw [hk]
    · rfl
  | issued haccepts =>
    exact subKept_of_accepts haccepts (fun _ => rfl)
      (List.mem_cons_of_mem _ List.mem_cons_self)

theorem sub_keyed : ((MfaController.keyed cfg w req env).sessions k).sub = (w.sessions k).sub := by
  rw [MfaController.keyed, sub_setSession]
  split
  · rename_i hk
    rw [hk]
    rfl
  · rfl

theorem VerifyCase.subKept (h : MfaController.VerifyCase cfg w req env o) : SubKept w o := by
  cases h with
  | refused => exact subKept_of_sessions fun _ => rfl
  | rejected => exact subKept_of_sessions fun _ => sub_keyed
  | stopped => exact subKept_of_sessions fun _ => sub_keyed
  | issued => exact subKept_of_sessions fun _ => sub_keyed

theorem AuthorizeCase.subKept (h : AuthorizationEndpoint.AuthorizeCase cfg w req env o) :
    SubKept w o := by
  cases h <;> exact subKept_of_sessions fun _ => rfl

theorem ConsentCase.subKept (h : SessionController.ConsentCase cfg w req env o) :
    SubKept w o := by
  cases h <;> exact subKept_of_sessions fun _ => rfl

theorem DeviceAuthorizationCase.subKept (h : DeviceGrant.DeviceAuthorizationCase w req env o) :
    SubKept w o := by
  cases h <;> exact subKept_of_sessions fun _ => rfl

theorem ApproveCase.subKept (h : DeviceGrant.ApproveCase w req o) : SubKept w o := by
  cases h <;> exact subKept_of_sessions fun _ => rfl

theorem PollCase.subKept (h : DeviceGrant.PollCase cfg w env o) : SubKept w o := by
  cases h <;> exact subKept_of_sessions fun _ => rfl

theorem subKept_handle (cfg : Config) (w : World b) (i : Http.Input) :
    SubKept w (handle cfg w i) := by
  unfold handle
  cases i.endpoint with
  | login => exact LoginCase.subKept SessionController.login_cases
  | authorize => exact AuthorizeCase.subKept AuthorizationEndpoint.authorize_cases
  | consent => exact ConsentCase.subKept SessionController.consent_cases
  | verifyLogin => exact VerifyCase.subKept MfaController.verifyLogin_cases
  | deviceAuthorization =>
    exact DeviceAuthorizationCase.subKept DeviceGrant.deviceAuthorization_cases
  | approveDevice => exact ApproveCase.subKept DeviceGrant.approveDevice_cases
  | deviceToken => exact PollCase.subKept DeviceGrant.deviceToken_cases

/-- A step of a sign-in keeps the users, and a new subject of a session comes from its login. -/
theorem subKept_signInStep (cfg : Config) (w : World b) (i : SignInInput) :
    (signInStep cfg w i).1.directory = w.directory ∧
      ∀ k sub, ((signInStep cfg w i).1.sessions k).sub = some sub → (w.sessions k).sub = some sub ∨
        ∃ id p, (∃ clientId redirectUri decision,
          .passwordValidated k id clientId redirectUri decision ∈ (signInStep cfg w i).2.log) ∧
            w.directory.users.table.lookup id = some p ∧ p.publicSub = sub := by
  cases i with
  | flow i =>
    cases i with
    | http i => exact ⟨(handle_effect cfg w i).frame.directory, subKept_handle cfg w i⟩
    | exchange r env => exact ⟨rfl, fun _ _ hsub => .inl hsub⟩
    | refresh r env => exact ⟨rfl, fun _ _ hsub => .inl hsub⟩
  | gitHub account env =>
    cases account with
    | error _ => exact ⟨rfl, fun _ _ hsub => .inl hsub⟩
    | ok userId => exact ⟨rfl, fun _ _ hsub => .inl hsub⟩

end Handlers

/-! ### Runs -/

theorem LoggedIn.cons {d : Directory} {sid : Nat} {sub : String}
    (h : LoggedIn d history sid sub) {e : Event} (he : e.cleared ≠ some sid) :
    LoggedIn d (e :: history) sid sub := by
  obtain ⟨later, e₀, earlier, id, p, rfl, hlog, hrow, hsub, hlater⟩ := h
  refine ⟨e :: later, e₀, earlier, id, p, rfl, hlog, hrow, hsub, ?_⟩
  intro e' he'
  rcases List.mem_cons.mp he' with rfl | he'
  · exact he
  · exact hlater e' he'

/-- The users stay, and every subject of a session has logged in there. -/
structure Subjects (s₀ : Site sha256Hex grants) (history : List Event)
    (s : Site sha256Hex grants) : Prop where
  directory : s.world.directory = s₀.world.directory
  loggedIn : ∀ k sub, (s.world.sessions k).sub = some sub →
    LoggedIn s₀.world.directory history k sub

theorem sub_clearSession {sid k : Nat} {sub : String}
    (h : ((s.clearSession sid).world.sessions k).sub = some sub) :
    k ≠ sid ∧ (s.world.sessions k).sub = some sub := by
  unfold Site.clearSession at h
  rw [sub_setSession] at h
  split at h
  · cases h
  · rename_i hne
    exact ⟨hne, h⟩

/-- A request that is refused changes nothing. -/
theorem Subjects.refused (h : Subjects s₀ history s) {reply : Logout.Reply}
    (hreply : reply.completes = false) (sid : Nat) :
    Subjects s₀ ((s.answer reply).event sid :: history) (s.answer reply).site where
  directory := h.directory
  loggedIn k sub hsub := by
    refine (h.loggedIn k sub hsub).cons ?_
    unfold Outcome.event Site.answer
    dsimp only
    rw [hreply]
    exact nofun

/-- The session of a request that completes is cleared. -/
theorem Subjects.cleared (h : Subjects s₀ history s) {o : Logout.Outcome sha256Hex grants}
    {sid : Nat} (hworld : o.site.world.directory = s.world.directory)
    (hsessions : ∀ k, (o.site.world.sessions k).sub =
      ((s.clearSession sid).world.sessions k).sub) (hcompletes : o.reply.completes = true) :
    Subjects s₀ (o.event sid :: history) o.site where
  directory := hworld.trans h.directory
  loggedIn k sub hsub := by
    rw [hsessions] at hsub
    obtain ⟨hne, hsub⟩ := sub_clearSession hsub
    refine (h.loggedIn k sub hsub).cons ?_
    unfold Outcome.event
    dsimp only
    rw [hcompletes]
    exact fun heq => hne (Option.some.inj heq).symm

theorem Subjects.signIn (h : Subjects s₀ history s) (i : SignInInput) :
    Subjects s₀ ((step cfg ports s (.signIn i)).2 :: history) (step cfg ports s (.signIn i)).1 := by
  obtain ⟨hdirectory, hkept⟩ := subKept_signInStep cfg s.world i
  refine ⟨hdirectory.trans h.directory, ?_⟩
  intro k sub hsub
  rcases hkept k sub hsub with hold | ⟨id, p, hlog, hrow, hpublic⟩
  · exact (h.loggedIn k sub hold).cons nofun
  · rw [h.directory] at hrow
    exact ⟨[], _, history, id, p, rfl, hlog, hrow, hpublic, nofun⟩

theorem Subjects.step (h : Subjects s₀ history s) (i : Logout.Input) :
    Subjects s₀ ((step cfg ports s i).2 :: history) (step cfg ports s i).1 := by
  cases i with
  | signIn i => exact h.signIn i
  | logout req env =>
    change Subjects s₀ ((logout cfg ports s req env).event req.session :: history)
      (logout cfg ports s req env).site
    generalize ho : logout cfg ports s req env = o
    have hcase : LogoutCase cfg ports s req env o := ho ▸ logout_cases
    cases hcase with
    | refused hreply => exact h.refused hreply req.session
    | done htoken => exact h.cleared rfl (fun _ => rfl) rfl
  | endSession req env =>
    change Subjects s₀ ((endSession cfg ports s req env).event req.session :: history)
      (endSession cfg ports s req env).site
    generalize ho : endSession cfg ports s req env = o
    have hcase : EndSessionCase ports s req env o := ho ▸ endSession_cases
    cases hcase with
    | refused hreply => exact h.refused hreply req.session
    | finished hreply => exact h.cleared rfl (fun _ => rfl) hreply

theorem subjects_of_run (hinitial : ∀ k, s₀.world.sessions k = {})
    (hrun : SiteRun cfg ports s₀ history s) : Subjects s₀ history s := by
  induction hrun with
  | init =>
    refine ⟨rfl, fun k sub hsub => ?_⟩
    rw [hinitial] at hsub
    cases hsub
  | next i _ _ ih => exact ih.step i

/-! ### Every logout token has a reason -/

/-- The subject of an ended session is that of the session or named by the hint. -/
theorem subjectOf_cases {req : HttpRequest} (hne : subjectOf s ports req ≠ "") (env : LogoutEnv) :
    (s.world.sessions req.session).sub = some (subjectOf s ports req) ∨
      NamedByHint ports (subjectOf s ports req) (.endSession req env) := by
  unfold subjectOf at hne ⊢
  dsimp only at hne ⊢
  split at hne
  · rename_i hnone
    right
    rw [if_pos hnone]
    cases hsub : (hintPayload ports req).asString "sub" with
    | none =>
      rw [hsub] at hne
      exact absurd rfl hne
    | some sub =>
      unfold hintPayload at hsub
      dsimp only at hsub
      split at hsub
      · cases hsub
      · rename_i hhint
        exact ⟨hhint, hsub⟩
  · rename_i hsome
    left
    rw [if_neg hsome]
    cases hsub : (s.world.sessions req.session).sub with
    | none =>
      rw [hsub] at hsome
      exact absurd rfl hsome
    | some sub => rfl

/-- In every run, a logout token is dispatched only for the user of a valid access token that the
request presents, for a user who has logged in in its session since that was last cleared, or for
whomever its hint names. -/
theorem dispatched_only_for (hinitial : ∀ k, s₀.world.sessions k = {})
    (hrun : SiteRun cfg ports s₀ history s) {i : Logout.Input} {post : Post}
    (hpost : post ∈ (step cfg ports s i).2.posts) :
    PresentsToken cfg s post.claims.sub i ∨
      FromSession s₀.world.directory history post.claims.sub i ∨
        NamedByHint ports post.claims.sub i := by
  cases i with
  | signIn i => cases hpost
  | logout req env =>
    left
    change post ∈ (logout cfg ports s req env).posts at hpost
    generalize ho : logout cfg ports s req env = o at hpost
    have hcase : LogoutCase cfg ports s req env o := ho ▸ logout_cases
    cases hcase with
    | refused => cases hpost
    | done htoken => exact ⟨_, htoken, (sub_of_mem_notify hpost).symm⟩
  | endSession req env =>
    right
    change post ∈ (endSession cfg ports s req env).posts at hpost
    generalize ho : endSession cfg ports s req env = o at hpost
    have hcase : EndSessionCase ports s req env o := ho ▸ endSession_cases
    cases hcase with
    | refused => cases hpost
    | finished =>
      unfold finish at hpost
      dsimp only at hpost
      split at hpost
      · cases hpost
      · rename_i hne
        rw [sub_of_mem_notify hpost]
        refine (subjectOf_cases hne env).imp_left ?_
        exact (subjects_of_run hinitial hrun).loggedIn _ _

/-! ### A forged hint -/

def aliceAlone : List Logout.Input :=
  [.signIn (.flow (.http (knownLogin 0 "alice" "correct-horse" (knownEnv 59 0)))),
   .signIn (.flow (.exchange (knownExchange 0) (knownEnv 60 1).exchange))]

theorem dispatched_only_for_aliceAlone :
    ∃ post ∈ (step knownConfig knownPorts (siteExecuted aliceAlone).2
        (.endSession ⟨0, ∅, none, none⟩ (knownLogoutEnv 62))).2.posts,
      post.claims.sub = "11111111-1111-4111-8111-111111111111" ∧
        (PresentsToken knownConfig (siteExecuted aliceAlone).2 post.claims.sub
            (.endSession ⟨0, ∅, none, none⟩ (knownLogoutEnv 62)) ∨
          FromSession knownSite.world.directory (siteExecuted aliceAlone).1 post.claims.sub
            (.endSession ⟨0, ∅, none, none⟩ (knownLogoutEnv 62)) ∨
          NamedByHint knownPorts post.claims.sub
            (.endSession ⟨0, ∅, none, none⟩ (knownLogoutEnv 62))) := by
  have hposts : (step knownConfig knownPorts (siteExecuted aliceAlone).2
      (.endSession ⟨0, ∅, none, none⟩ (knownLogoutEnv 62))).2.posts.map
        (fun post => post.claims.sub) = ["11111111-1111-4111-8111-111111111111"] := by
    decide +kernel
  obtain ⟨post, hpost, hsub⟩ := List.mem_map.mp (hposts ▸ List.mem_singleton_self _)
  exact ⟨post, hpost, hsub, dispatched_only_for (fun _ => rfl) (siteRun_executed _) hpost⟩

/-- The user 1 signs in through GitHub. -/
def gitHubAlone : List Logout.Input :=
  [.signIn (.gitHub (.ok 1) (knownEnv 61 2).exchange)]

/-- A stranger without a session sends claims that nobody has signed. -/
def forgedHint : Logout.Input :=
  .endSession ⟨5, paramsOf [("id_token_hint", knownHint)], none, none⟩ (knownLogoutEnv 62)

theorem forged_hint_dispatches :
    ¬∀ (history : List Event) (s : Site (fun _ => "") Memory.grantRepository) (i : Logout.Input)
        (post : Post),
      SiteRun knownConfig knownPorts knownSite history s →
      post ∈ (step knownConfig knownPorts s i).2.posts →
      PresentsToken knownConfig s post.claims.sub i ∨
        FromSession knownSite.world.directory history post.claims.sub i ∨
          NamedByHint knownPorts post.claims.sub i ∧ SignedFor history post.claims.sub := by
  intro hclaim
  -- GitHub's user enters no password, and no id_token is signed for him.
  obtain ⟨hposts, hquiet⟩ :
      (step knownConfig knownPorts (siteExecuted gitHubAlone).2 forgedHint).2.posts.map
          (fun post => post.claims.sub) = ["1"] ∧
        ∀ e ∈ (siteExecuted gitHubAlone).1, e.flow.log = [] ∧ e.flow.idTokens = [] := by
    decide +kernel
  obtain ⟨post, hpost, -⟩ := List.mem_map.mp (hposts ▸ List.mem_singleton_self _)
  rcases hclaim _ _ forgedHint post (siteRun_executed _) hpost with
    hbearer | hsession | ⟨-, hsigned⟩
  · exact hbearer
  · obtain ⟨later, e, earlier, id, p, hhistory, ⟨_, _, _, hlog⟩, -⟩ := hsession
    have he : e ∈ (siteExecuted gitHubAlone).1 := by
      rw [hhistory]
      exact List.mem_append_right _ List.mem_cons_self
    rw [(hquiet e he).1] at hlog
    cases hlog
  · obtain ⟨e, he, idToken, hmem, -⟩ := hsigned
    rw [(hquiet e he).2] at hmem
    cases hmem

end AuthForge.LogoutAuthority
