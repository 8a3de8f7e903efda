import AuthForge.Base.Run

/-!
# The token cache of the Python client

`ClientCredentialsAuth`: requests of several threads through one cached token. `_get_token` runs
under a lock, which is held while the token endpoint answers. Between two steps a thread waits for
the lock, for the token endpoint or for the server; the steps of the threads interleave in any
order. The events say what has happened; no step reads them.
-/

namespace AuthForge.Sdk

abbrev Token := String

/-- Where `auth_flow` is in a thread. The retry carries the token of the attempt that was answered
401; the first attempt carries none. -/
inductive Flow
  /-- In front of the lock, with `force` exactly on the retry. -/
  | locking (refused : Option Token)
  /-- Inside the lock, before the answer of the token endpoint. -/
  | requesting (refused : Option Token)
  /-- Behind the lock, before the request is sent. -/
  | sending (refused : Option Token) (token : Token)
  /-- Before the answer to the request. -/
  | sent (refused : Option Token) (token : Token)
  | finished
  /-- `_request_token` has raised. -/
  | raised
  deriving DecidableEq

structure ClientCredentialsAuth where
  accessToken : Option Token := none
  expiresAt : Int := 0
  /-- The thread that holds the lock. -/
  lock : Option Nat := none
  flows : List Flow := []

inductive Input
  | start
  /-- The thread takes the lock, if it is free, at a time. -/
  | enter (id : Nat) (now : Int)
  /-- The token and its lifetime, or an error, and the time of the answer. -/
  | answer (id : Nat) (result : Option (Token × Int)) (now : Int)
  | send (id : Nat)
  | respond (id : Nat) (statusCode : Nat)

inductive Event
  | started (id : Nat)
  /-- The cached token was taken. -/
  | cached (id : Nat) (token : Token)
  /-- A token request was sent. -/
  | requested (id : Nat) (refused : Option Token)
  | returned (id : Nat) (refused : Option Token) (token : Token)
  | failed (id : Nat)
  | attempted (id : Nat) (refused : Option Token) (token : Token)
  /-- A first attempt was answered 401. -/
  | rejected (id : Nat) (token : Token)
  | answered (id : Nat)
  | idle
  deriving DecidableEq

namespace ClientCredentialsAuth

variable (s : ClientCredentialsAuth)

def move (id : Nat) (f : Flow) : ClientCredentialsAuth := { s with flows := s.flows.set id f }

/-- The cached token, unless a refresh is forced or due. -/
def reusable (clockSkew : Int) (force : Bool) (now : Int) : Option Token :=
  s.accessToken.filter fun _ => !force && now < s.expiresAt - clockSkew

/-- From the lock to the use of the cached token, or to the token request. -/
def enter (clockSkew : Int) (id : Nat) (now : Int) : ClientCredentialsAuth × Event :=
  match s.flows[id]?, s.lock with
  | some (.locking refused), none =>
    match s.reusable clockSkew refused.isSome now with
    | some token => (s.move id (.sending refused token), .cached id token)
    | none => ({ s.move id (.requesting refused) with lock := some id }, .requested id refused)
  | _, _ => (s, .idle)

/-- From the answer of the token endpoint to the release of the lock. -/
def answer (id : Nat) (result : Option (Token × Int)) (now : Int) : ClientCredentialsAuth × Event :=
  match s.flows[id]?, result with
  | some (.requesting refused), some (token, lifetime) =>
    ({ s.move id (.sending refused token) with
        accessToken := some token, expiresAt := now + lifetime, lock := none },
      .returned id refused token)
  | some (.requesting _), none => ({ s.move id .raised with lock := none }, .failed id)
  | _, _ => (s, .idle)

def send (id : Nat) : ClientCredentialsAuth × Event :=
  match s.flows[id]? with
  | some (.sending refused token) =>
    (s.move id (.sent refused token), .attempted id refused token)
  | _ => (s, .idle)

/-- A second 401 is passed through. -/
def respond (id statusCode : Nat) : ClientCredentialsAuth × Event :=
  match s.flows[id]? with
  | some (.sent none token) =>
    if statusCode = 401 then (s.move id (.locking (some token)), .rejected id token)
    else (s.move id .finished, .answered id)
  | some (.sent (some _) _) => (s.move id .finished, .answered id)
  | _ => (s, .idle)

def step (clockSkew : Int) : Input → ClientCredentialsAuth × Event
  | .start => ({ s with flows := s.flows ++ [.locking none] }, .started s.flows.length)
  | .enter id now => s.enter clockSkew id now
  | .answer id result now => s.answer id result now
  | .send id => s.send id
  | .respond id statusCode => s.respond id statusCode

end ClientCredentialsAuth

def authMachine (clockSkew : Int) : Machine ClientCredentialsAuth Input Event where
  step s i := s.step clockSkew i

/-! ### What a step can do -/

/-- Where a flow goes, and what is noted of it. -/
inductive Goes (id : Nat) : Flow → Flow → Event → Prop
  | cached (token : Token) : Goes id (.locking none) (.sending none token) (.cached id token)
  | requested (refused : Option Token) :
      Goes id (.locking refused) (.requesting refused) (.requested id refused)
  | returned (refused : Option Token) (token : Token) :
      Goes id (.requesting refused) (.sending refused token) (.returned id refused token)
  | failed (refused : Option Token) : Goes id (.requesting refused) .raised (.failed id)
  | attempted (refused : Option Token) (token : Token) :
      Goes id (.sending refused token) (.sent refused token) (.attempted id refused token)
  | rejected (token : Token) :
      Goes id (.sent none token) (.locking (some token)) (.rejected id token)
  | answered (refused : Option Token) (token : Token) :
      Goes id (.sent refused token) .finished (.answered id)

/-- A step starts a flow, moves one flow, or does nothing. -/
inductive Outcome (s : ClientCredentialsAuth) : ClientCredentialsAuth × Event → Prop
  | started {s' : ClientCredentialsAuth} (h : s'.flows = s.flows ++ [.locking none]) :
      Outcome s (s', .started s.flows.length)
  | moved {s' : ClientCredentialsAuth} {id : Nat} {f g : Flow} {e : Event}
      (hflow : s.flows[id]? = some f) (hmoved : s'.flows = s.flows.set id g)
      (hgoes : Goes id f g e) : Outcome s (s', e)
  | idle : Outcome s (s, .idle)

theorem outcome_step (clockSkew : Int) (s : ClientCredentialsAuth) (i : Input) :
    Outcome s (s.step clockSkew i) := by
  cases i with
  | start => exact .started rfl
  | enter id now =>
    change Outcome s (s.enter clockSkew id now)
    unfold ClientCredentialsAuth.enter
    split
    · rename_i refused hflow _
      split
      · rename_i token hcached
        cases refused with
        | none => exact .moved hflow rfl (.cached token)
        | some t => simp [ClientCredentialsAuth.reusable] at hcached
      · exact .moved hflow rfl (.requested refused)
    · exact .idle
  | answer id result now =>
    change Outcome s (s.answer id result now)
    unfold ClientCredentialsAuth.answer
    split
    · rename_i hflow
      exact .moved hflow rfl (.returned _ _)
    · rename_i hflow
      exact .moved hflow rfl (.failed _)
    · exact .idle
  | send id =>
    change Outcome s (s.send id)
    unfold ClientCredentialsAuth.send
    split
    · rename_i hflow
      exact .moved hflow rfl (.attempted _ _)
    · exact .idle
  | respond id statusCode =>
    change Outcome s (s.respond id statusCode)
    unfold ClientCredentialsAuth.respond
    split
    · rename_i hflow
      split
      · exact .moved hflow rfl (.rejected _)
      · exact .moved hflow rfl (.answered _ _)
    · rename_i hflow
      exact .moved hflow rfl (.answered _ _)
    · exact .idle

end AuthForge.Sdk
