import AuthForge.Http.Flow
import AuthForge.Http.Issuance

/-!
# Flows with GitHub logins

A GitHub login is no request of the authorization server: it asks GitHub for the account and saves a
token pair at once, without a code. A flow together with these logins is a machine of its own, with
the events of the flow.
-/

namespace AuthForge.Http

open OAuth2

variable {b : Backend}

/-! ### The login -/

section GitHub

variable (svc : TokenService) (userId : Int) (env : Nat → Env)

def gitHubPair : OAuth2AccessToken × OAuth2RefreshToken :=
  (Issuance.gitHubAccessToken svc (env 0).random userId (env 2).now,
    Issuance.gitHubRefreshToken svc (env 1).random (env 0).random userId (env 2).now)

def saveGitHubPair (w : World b) : Bool × b.tokens.State :=
  let pair := gitHubPair svc userId env
  b.tokens.saveTokenPair (env 3) pair.1 pair.2 w.store.tokens

end GitHub

/-- A login of the account that GitHub names, or a failed one. -/
def gitHubStep (cfg : Config) (w : World b) (account : Except String Int) (env : Nat → Env) :
    World b × FlowEvent :=
  match account with
  | .error _ => (w, {})
  | .ok userId =>
    let saved := saveGitHubPair cfg.tokenService userId env w
    ({ w with store := { w.store with tokens := saved.2 } },
      { pairs := if saved.1 then [gitHubPair cfg.tokenService userId env] else [] })

/-- Over tokens in memory the step does what the program of the login does, which asks for the
account in its first call. -/
theorem gitHubStep_eq_eval {sha256Hex : String → String} {grants : GrantRepository} (cfg : Config)
    (w : World ⟨sha256Hex, grants, Storage.Memory.tokenRepository⟩) (code : String)
    (env : Nat → Issuance.IssueEnv) :
    (gitHubStep cfg w (env 0).gitHubUser fun n => (env (n + 1)).toEnv).1.store =
      (Prog.eval Issuance.IssueStore.exec env 0 (Issuance.gitHubLogin cfg code)
        ⟨w.store, w.deviceCodes⟩).2.1.store := by
  unfold gitHubStep Issuance.gitHubLogin
  simp only [Prog.eval, Issuance.IssueStore.exec]
  cases (env 0).gitHubUser with
  | error errorCode => rfl
  | ok userId => rfl

/-! ### The machine -/

inductive SignInInput
  | flow (i : FlowInput)
  | gitHub (account : Except String Int) (env : Nat → Env)

def signInStep (cfg : Config) (w : World b) : SignInInput → World b × FlowEvent
  | .flow i => flowStep cfg w i
  | .gitHub account env => gitHubStep cfg w account env

def signIn (b : Backend) (cfg : Config) : Machine (World b) SignInInput FlowEvent where
  step := signInStep cfg

variable {cfg : Config} {w₀ w : World b} {past : List FlowEvent}

theorem Established.signInStep (h : Established cfg w₀ (logOf past) w) (i : SignInInput) :
    Established cfg w₀ (logOf ((signInStep cfg w i).2 :: past)) (signInStep cfg w i).1 := by
  cases i with
  | flow i => exact h.flowStep i
  | gitHub account env =>
    cases account with
    | error _ => exact h
    | ok userId => exact h.withStore rfl

end AuthForge.Http
