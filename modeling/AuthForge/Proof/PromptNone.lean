import AuthForge.Http.Runs

/-!
# Authorization without interaction

With `prompt=none` no screen may be shown. Two of the three exits to a screen look at the prompt; the
one that forces another login does not, since a prompt cannot contain `none` and `login` at once. But
`max_age` leads there too.
-/

namespace AuthForge.PromptNone

open Http OAuth2 AuthorizationEndpoint

variable {b : Backend} {cfg : Config} {w : World b} {req : HttpRequest} {env : RequestEnv}
  {f : AuthorizeFields} {sid : Nat} {userId : String}

/-- The browser is sent to the login or to the consent screen. -/
def ShowsScreen (response : Response) : Prop :=
  ∃ l ∈ response.locations, ∃ url, l.page = .login url ∨ l.page = .consent url

/-- The session's user authenticated longer ago than the request allows, or nobody knows when. -/
def MaxAgeExceeded (s : Session) (env : RequestEnv) (f : AuthorizeFields) : Prop :=
  0 ≤ f.maxAgeSeconds ∧
    (s.authTime.getD 0 ≤ 0 ∨ f.maxAgeSeconds < env.now - s.authTime.getD 0)

/-- The request is in order, client and redirect URI are good, and the session names a user. -/
structure Admitted (cfg : Config) (w : World b) (req : HttpRequest) (env : RequestEnv) : Prop where
  valid : RuleSet.oauth2Authorize cfg.allowHttpRedirectUri req = []
  problem : (authorizeFields req).problem = none
  client : w.validateClient env (authorizeFields req).clientId "" = true
  redirectUri : w.validateRedirectUri env (authorizeFields req).clientId
    (authorizeFields req).redirectUri = true
  method : (authorizeFields req).codeChallengeMethod ∈ ["", "plain", "S256"]
  user : (w.sessions req.session).userId.getD "" ≠ ""

/-! ### Screens -/

theorem not_showsScreen_of_client {redirectUri query : String} :
    ¬ShowsScreen (.redirect ⟨.client redirectUri, query⟩) := by
  intro h
  obtain ⟨l, hl, url, hpage⟩ := h
  obtain rfl := List.mem_singleton.mp hl
  rcases hpage with hpage | hpage <;> cases hpage

theorem not_showsScreen_of_locations {response : Response} (h : response.locations = []) :
    ¬ShowsScreen response := by
  intro hscreen
  obtain ⟨l, hl, -⟩ := hscreen
  rw [h] at hl
  cases hl

theorem showsScreen_loginRedirect : ShowsScreen (loginRedirect cfg f) :=
  ⟨_, List.mem_singleton_self _, _, .inl rfl⟩

theorem not_showsScreen_error {error description : String} :
    ¬ShowsScreen (buildAuthorizeErrorRedirect cfg f error description) :=
  not_showsScreen_of_client

theorem not_showsScreen_issueSilently :
    ¬ShowsScreen (issueSilently cfg w sid env f userId).response := by
  unfold issueSilently
  split
  · exact not_showsScreen_error
  · split
    · exact not_showsScreen_of_client
    · exact not_showsScreen_error

/-! ### The exits -/

section Exits

variable (hnone : f.promptHas "none" = true)
include hnone

theorem not_showsScreen_noSession : ¬ShowsScreen (noSessionResponse cfg f) := by
  unfold noSessionResponse
  rw [if_pos hnone]
  exact not_showsScreen_error

theorem not_showsScreen_decideScopes :
    ¬ShowsScreen (decideScopes cfg w sid env f userId).response := by
  unfold decideScopes
  dsimp only
  split
  · exact not_showsScreen_error
  · split
    · unfold needsConsentResponse
      rw [if_pos hnone]
      exact not_showsScreen_error
    · exact not_showsScreen_issueSilently

/-- A prompt with `none` that is accepted does not ask for a login. -/
theorem promptHas_login_of_none (hproblem : f.problem = none) : f.promptHas "login" = false := by
  unfold AuthorizeFields.problem at hproblem
  split at hproblem
  · cases hproblem
  · rename_i hsingle
    have hlength : (splitNonEmpty ' ' f.prompt).length ≤ 1 :=
      Nat.not_lt.mp fun hlt => hsingle ⟨hnone, hlt⟩
    unfold AuthorizeFields.promptHas at hnone ⊢
    have hmem : "none" ∈ splitNonEmpty ' ' f.prompt := by simpa using hnone
    obtain ⟨v, hv⟩ := List.length_eq_one_iff.mp
      (Nat.le_antisymm hlength (List.length_pos_of_mem hmem))
    rw [hv] at hmem ⊢
    rw [← List.mem_singleton.mp hmem]
    decide

theorem reauthenticationNeeded_iff (hproblem : f.problem = none) (s : Session) :
    reauthenticationNeeded s env f = true ↔ MaxAgeExceeded s env f := by
  unfold reauthenticationNeeded MaxAgeExceeded
  simp [promptHas_login_of_none hnone hproblem]

end Exits

/-- With `prompt=none` a screen is shown exactly if the request is admitted for a session that is
older than `max_age` allows. -/
theorem never_shows_screen_iff (cfg : Config) (w : World b) (req : HttpRequest) (env : RequestEnv)
    (hnone : (authorizeFields req).promptHas "none" = true) :
    ¬ShowsScreen (authorize cfg w req env).response ↔
      ¬(Admitted cfg w req env ∧
        MaxAgeExceeded (w.sessions req.session) env (authorizeFields req)) := by
  unfold authorize
  dsimp only
  split
  · rename_i herrors
    exact iff_of_true (not_showsScreen_of_locations rfl) fun h => herrors h.1.valid
  rename_i hvalid
  split
  · rename_i hproblem
    refine iff_of_true (not_showsScreen_of_locations rfl) fun h => ?_
    exact absurd (hproblem.symm.trans h.1.problem) (Option.some_ne_none _)
  rename_i hproblem
  split
  · rename_i hclient
    refine iff_of_true (not_showsScreen_of_locations rfl) fun h => ?_
    exact absurd (hclient.symm.trans h.1.client) (by decide)
  rename_i hclient
  split
  · rename_i huri
    refine iff_of_true (not_showsScreen_of_locations rfl) fun h => ?_
    exact absurd (huri.symm.trans h.1.redirectUri) (by decide)
  rename_i huri
  unfold withClient
  dsimp only
  split
  · rename_i hmethod
    exact iff_of_true not_showsScreen_error fun h => hmethod h.1.method
  rename_i hmethod
  split
  · rename_i huser
    exact iff_of_true (not_showsScreen_noSession hnone) fun h => h.1.user huser
  rename_i huser
  split
  · rename_i hlogin
    refine iff_of_false (not_not_intro showsScreen_loginRedirect) (not_not_intro ⟨?_, ?_⟩)
    · exact ⟨not_not.mp hvalid, hproblem, by simpa using hclient, by simpa using huri,
        not_not.mp hmethod, huser⟩
    · exact (reauthenticationNeeded_iff hnone hproblem _).mp hlogin
  · rename_i hlogin
    refine iff_of_true (not_showsScreen_decideScopes hnone) fun h => ?_
    exact hlogin ((reauthenticationNeeded_iff hnone hproblem _).mpr h.2)

/-! ### A session that is too old -/

def silently (maxAge : String) : HttpRequest where
  session := 0
  params := paramsOf
    [("response_type", "code"), ("client_id", "spa"), ("prompt", "none"), ("max_age", maxAge),
     ("redirect_uri", "https://spa.example.com/callback"), ("state", "state123"),
     ("code_challenge", knownChallenge), ("code_challenge_method", "S256")]

/-- The session of a user who authenticated at 59. -/
def withSession : World knownBackend :=
  knownWorld.setSession 0 { userId := some "1", authTime := some 59, amr := some "pwd" }

theorem never_shows_screen_iff_withSession :
    (authorizeFields (silently "60")).promptHas "none" = true ∧
      (¬ShowsScreen (authorize knownConfig withSession (silently "60") (knownEnv 100 0)).response ↔
        ¬(Admitted knownConfig withSession (silently "60") (knownEnv 100 0) ∧
          MaxAgeExceeded (withSession.sessions 0) (knownEnv 100 0)
            (authorizeFields (silently "60")))) := by
  have hnone : (authorizeFields (silently "60")).promptHas "none" = true := by decide +kernel
  exact ⟨hnone, never_shows_screen_iff knownConfig withSession (silently "60") (knownEnv 100 0) hnone⟩

/-- Forty-one seconds later the browser asks for an authentication of the last ten seconds. -/
theorem promptNone_shows_login :
    ¬∀ (w : World knownBackend) (req : HttpRequest) (env : RequestEnv),
      (authorizeFields req).promptHas "none" = true →
      ¬ShowsScreen (authorize knownConfig w req env).response := by
  intro hclaim
  have hrun : (authorizeFields (silently "10")).promptHas "none" = true ∧
      (authorize knownConfig withSession (silently "10")
        (knownEnv 100 0)).response.locations.map Location.page = [.login "/login"] := by
    decide +kernel
  obtain ⟨hnone, hpages⟩ := hrun
  obtain ⟨l, hl, hpage⟩ := List.mem_map.mp (hpages ▸ List.mem_singleton_self _)
  exact hclaim withSession (silently "10") (knownEnv 100 0) hnone ⟨l, hl, _, .inl hpage⟩

end AuthForge.PromptNone
