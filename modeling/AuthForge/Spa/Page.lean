import AuthForge.Base.Run
import AuthForge.Base.Sessions

/-!
# What happens in a page

Both frontends keep an access token in memory and a refresh token in memory and in the storage of
the browser. A page is a list of asynchronous activities over these variables. A step starts an
activity, hands the answer of the network to one, or goes on with one that waited for a promise; it
runs up to the next `await`. The notes say what has happened; no activity reads them.
-/

namespace AuthForge.Spa

open Sessions

abbrev Token := String

/-- The answer to a request, as far as the frontends tell answers apart. -/
inductive Answer
  /-- A 200 answer with tokens. -/
  | tokens (access refresh : Token)
  /-- A 200 answer of the login with an authorization code. -/
  | code
  | mfaRequired
  /-- A 200 answer of `userinfo`, with or without the role `admin`. -/
  | info (admin : Bool)
  /-- Any other 200 answer. -/
  | ok
  | unauthorized
  /-- Any other status, or no answer at all. -/
  | failed
  deriving DecidableEq

inductive Note
  /-- A refresh exchange began. -/
  | sent (p : Nat) (value : Token)
  | received (p : Nat) (access refresh : Token)
  | loginCalled (id : Nat)
  | loggedIn (id : Nat)
  | logoutCalled (id : Nat) (held : List Token)
  | cleared (id : Nat) (held : List Token)
  /-- A request that waited for the refresh `p` is sent again. -/
  | retried (id p : Nat) (bearer : Option Token)
  /-- The refresh exchange `p` was answered 401 and went to wait for a refresh. -/
  | refused (p : Nat)
  deriving DecidableEq

/-- The marks of a session: both a login and a code exchange count as logins. -/
def Note.mark : Note → Option (Mark Nat Token)
  | .sent p _ => some (.began p false)
  | .received p _ _ => some (.wrote p)
  | .loginCalled id => some (.began id true)
  | .loggedIn id => some (.wrote id)
  | .logoutCalled id held => some (.called id held)
  | .cleared id held => some (.cleared id held)
  | .retried _ _ _ => none
  | .refused _ => none

def marks (log : List Note) : List (Mark Nat Token) := log.filterMap Note.mark

/-- The refresh token values that have been sent in refresh exchanges, newest first. -/
def sentValues (log : List Note) : List Token :=
  log.filterMap fun
    | .sent _ value => some value
    | _ => none

/-- The tokens that refresh exchanges have returned, newest first. -/
def received (log : List Note) : List (Token × Token) :=
  log.filterMap fun
    | .received _ access refresh => some (access, refresh)
    | _ => none

/-- Where the history is the inputs, it determines the state. -/
theorem state_eq_of_run {σ ι : Type} {m : Machine σ ι ι} (hm : ∀ s i, (m.step s i).2 = i)
    {ok ok' : Guard σ ι ι} {s₀ s q : σ} {history : List ι} (hs : m.Run ok s₀ history s)
    (hq : m.Run ok' s₀ history q) : s = q := by
  induction hs generalizing q with
  | init => cases hq with
    | init => rfl
  | @next history s i hs _ ih =>
    obtain ⟨t, j, ht, -, hstep⟩ := hq.last
    obtain rfl := ih ht
    have hj : j = i := by
      rw [← hm s j, hstep, hm]
    rw [← hj, hstep]

end AuthForge.Spa
