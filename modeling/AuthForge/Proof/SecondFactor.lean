import AuthForge.Http.Runs

/-!
# The second factor belongs to the first

A login that needs a second factor writes client and redirect URI into the user's row and gives the
user id away as `mfa_token`. The second factor compares the request with that row, whichever session
wrote it. So tokens go to a session that passed the password step whenever the row holds what a
login of that session wrote.
-/

namespace AuthForge.SecondFactor

open Http OAuth2 Identity

variable {b : Backend}

/-- Tokens of the second factor go to a session that passed the password step for the same user,
client and redirect URI. -/
def BoundToLogin (trace : List Action) : Prop :=
  ∀ later sid id clientId redirectUri past,
    trace = later ++ .tokensReturned sid id clientId redirectUri :: past →
    ∃ decision, .passwordValidated sid id clientId redirectUri decision ∈ past

/-- A second factor whose one-time code is accepted finds in the user's row a pending binding that
a login of its own session wrote. -/
def ownBinding (cfg : Config) (past : List Action) (w : World b) (i : Input) : Bool :=
  match i.endpoint with
  | .verifyLogin =>
    match MfaController.verifyTotp cfg (MfaController.keyed cfg w i.req i.env) i.env
      (MfaController.verifyFields i.req) with
    | .error _ => true
    | .ok v =>
      .bindingSaved i.req.session v.userId v.pendingClientId v.pendingRedirectUri ∈ past
  | _ => true

variable {cfg : Config} {w₀ w : World b}

/-- In a run whose second factors find the binding of their own session, tokens are returned only
to sessions that passed the password step for the same user, client and redirect URI. -/
theorem bound_to_login (hinitial : Initial w₀) {history : List (List Action)}
    (hrun : ServerRun cfg (fun past w i => ownBinding cfg past w i = true) w₀ history w) :
    BoundToLogin history.flatten := by
  have halways : Always (fun past a => ∀ sid id clientId redirectUri,
      a = .tokensReturned sid id clientId redirectUri →
        ∃ decision, .passwordValidated sid id clientId redirectUri decision ∈ past)
      history.flatten := by
    refine ServerRun.always (fun _ _ => True) hinitial trivial (fun _ _ _ _ _ _ => trivial) ?_ hrun
    intro past w i earlier a hest _ hok hsourced sid id clientId redirectUri heq
    obtain rfl := heq
    cases hsourced with
    | tokens hendpoint htotp _ =>
      rw [ownBinding, hendpoint] at hok
      simp only [htotp, decide_eq_true_eq] at hok
      exact ⟨.RequireMfa, List.mem_append_right _ (hest.bound _ _ _ _ hok)⟩
  intro later sid id clientId redirectUri past htrace
  rw [htrace] at halways
  exact halways.split sid id clientId redirectUri rfl

def returnedTo (trace : List Action) : List (Nat × Int) :=
  trace.filterMap fun
    | .tokensReturned sid id _ _ => some (sid, id)
    | _ => none

def bothFactors : List Input :=
  [knownLogin 1 "bob" "battery-staple" (knownEnv 59 0), knownVerify 1 (knownEnv 59 0)]

theorem bound_to_login_bothFactors :
    Meets knownConfig (fun past w i => ownBinding knownConfig past w i = true) bothFactors ∧
    returnedTo (executed knownConfig bothFactors).1.flatten = [(1, 2)] ∧
    BoundToLogin (executed knownConfig bothFactors).1.flatten := by
  have hrun : Meets knownConfig (fun past w i => ownBinding knownConfig past w i = true)
      bothFactors ∧ returnedTo (executed knownConfig bothFactors).1.flatten = [(1, 2)] := by
    decide +kernel
  exact ⟨hrun.1, hrun.2, bound_to_login initial_knownWorld (serverRun_of_meets hrun.1)⟩

def foreignFactor : List Input :=
  [knownLogin 1 "bob" "battery-staple" (knownEnv 59 0), knownVerify 9 (knownEnv 59 0)]

def isPasswordStep (sid : Nat) : Action → Bool
  | .passwordValidated k _ _ _ _ => k = sid
  | _ => false

/-- The tokens go to the session without a login. -/
theorem foreignFactor_not_bound :
    Initial knownWorld ∧
    ServerRun knownConfig anyRequest knownWorld (executed knownConfig foreignFactor).1
      (executed knownConfig foreignFactor).2 ∧
    ¬BoundToLogin (executed knownConfig foreignFactor).1.flatten := by
  refine ⟨initial_knownWorld, serverRun_executed _ _, fun hbound => ?_⟩
  have htrace : (executed knownConfig foreignFactor).1.flatten.head? =
        some (.tokensReturned 9 2 "spa" "https://spa.example.com/callback") ∧
      (executed knownConfig foreignFactor).1.flatten.any (isPasswordStep 9) = false := by
    decide +kernel
  obtain ⟨past, hpast⟩ := List.head?_eq_some_iff.mp htrace.1
  obtain ⟨decision, hmem⟩ := hbound [] 9 2 _ _ past hpast
  rw [hpast] at htrace
  have := List.any_eq_false.mp htrace.2 _ (List.mem_cons_of_mem _ hmem)
  simp [isPasswordStep] at this

end AuthForge.SecondFactor
