import AuthForge.Spa.Page

/-!
# The session of the user frontend

The tokens of the `http` service, its response interceptor, the restoration of the session, the
calls of the auth service that bring tokens and the logout. Refresh exchanges bypass the interceptor,
and each caller starts its own.
-/

namespace AuthForge.Spa.User

/-- What goes on once a refresh exchange has brought tokens. -/
inductive Refresher
  /-- `restoreSession` of the store, which fetches the user. -/
  | store
  /-- The GitHub callback page in its link flow. -/
  | link
  /-- The request that was answered 401. -/
  | interceptor
  deriving DecidableEq

/-- The last request of a call that establishes a session. -/
inductive Login
  | loginTokens
  | verifyMfa
  | exchangeCode
  | githubLogin
  deriving DecidableEq

inductive Task
  /-- On the network: whether the URL is under `/oauth2/`, the flag `_retry`, and the bearer token
  it was sent with. -/
  | request (oauthRoute retry : Bool) (bearer : Option Token)
  | exchange (value : Token) (refresher : Refresher)
  | loginCode
  | login (l : Login)
  /-- `logout` waits for this many of its revocations. -/
  | revoking (left : Nat)
  | endingSession
  | done
  deriving DecidableEq

structure Page where
  accessToken : Option Token := none
  refreshToken : Option Token := none
  persisted : Option Token := none
  sessionRestored : Bool := false
  tasks : List Task := []
  log : List Note := []

namespace Page

variable (s : Page)

def note (n : Note) : Page := { s with log := n :: s.log }

def add (t : Task) : Page := { s with tasks := s.tasks ++ [t] }

def setTask (id : Nat) (t : Task) : Page := { s with tasks := s.tasks.set id t }

/-- All that a logout would take away. -/
def held : List Token := s.accessToken.toList ++ s.refreshToken.toList ++ s.persisted.toList

def setTokens (access refresh : Token) : Page :=
  { s with accessToken := some access, refreshToken := some refresh, persisted := some refresh }

def clearTokens : Page :=
  { s with accessToken := none, refreshToken := none, persisted := none }

/-! ### Calls -/

/-- A request of the `http` instance carries the access token. -/
def send (oauthRoute : Bool) : Page := s.add (.request oauthRoute false s.accessToken)

def fetchUser : Page := s.send true

/-- `tryRestoreSession` without an access token. -/
def tryRestoreSession (refresher : Refresher) : Page :=
  match s.refreshToken with
  | none => s
  | some value => (s.add (.exchange value refresher)).note (.sent s.tasks.length value)

def restoreSession : Page :=
  if s.sessionRestored then s
  else
    let restored := { s with sessionRestored := true }
    if s.accessToken ≠ none then restored else restored.tryRestoreSession .store

/-- The link flow of the GitHub callback page. -/
def link : Page := if s.accessToken ≠ none then s.send false else s.tryRestoreSession .link

def login : Page := (s.note (.loginCalled s.tasks.length)).add .loginCode

/-- `verifyMfa`, `exchangeCode` and the login flow of the GitHub callback page. -/
def finishLogin (l : Login) : Page := (s.note (.loginCalled s.tasks.length)).add (.login l)

/-- The revocations go out at once; without tokens the server-side session is ended at once. -/
def logout : Page :=
  let left := s.accessToken.toList.length + s.persisted.toList.length
  let called := s.note (.logoutCalled s.tasks.length s.held)
  if left = 0 then called.add .endingSession else called.add (.revoking left)

/-! ### Outcomes -/

/-- The end of `logout`; the store clears once more in the same turn. -/
def clear (id : Nat) : Page := (s.setTask id .done).clearTokens.note (.cleared id s.held)

/-- The response interceptor, on a 401 answer. -/
def unauthorized (id : Nat) (oauthRoute retry : Bool) : Page :=
  match s.refreshToken with
  | none => s.setTask id .done
  | some value =>
    if retry ∨ oauthRoute then s.setTask id .done
    else (s.setTask id (.exchange value .interceptor)).note (.sent id value)

/-- What waited for the exchange `id` goes on with the new access token. -/
def refreshed (id : Nat) : Refresher → Page
  | .store => (s.setTask id .done).fetchUser
  | .link => s.setTask id (.request false false s.accessToken)
  | .interceptor =>
    (s.setTask id (.request false true s.accessToken)).note (.retried id id s.accessToken)

/-- An answer to a refresh exchange; a 200 answer that the endpoint does not give is left aside. -/
def exchanged (id : Nat) (refresher : Refresher) : Answer → Page
  | .tokens access refresh =>
    ((s.setTokens access refresh).note (.received id access refresh)).refreshed id refresher
  | .unauthorized | .failed => s.clearTokens.setTask id .done
  | _ => s

def loggedIn (id : Nat) (access refresh : Token) : Page :=
  (((s.setTokens access refresh).note (.loggedIn id)).setTask id .done).fetchUser

/-- An answer to the last request of a login; `verifyMfa` and the GitHub callback page look for the
access token, a 200 answer that the token endpoint does not give is left aside. -/
def loginAnswered (id : Nat) : Login → Answer → Page
  | _, .tokens access refresh => s.loggedIn id access refresh
  | _, .unauthorized | _, .failed => s.setTask id .done
  | .verifyMfa, _ | .githubLogin, _ => s.setTask id .done
  | _, _ => s

def answer (id : Nat) (a : Answer) : Page :=
  match s.tasks[id]? with
  | some (.request oauthRoute retry _) =>
    match a with
    | .unauthorized => s.unauthorized id oauthRoute retry
    | _ => s.setTask id .done
  | some (.exchange _ refresher) => s.exchanged id refresher a
  | some .loginCode =>
    match a with
    | .code => s.setTask id (.login .loginTokens)
    | _ => s.setTask id .done
  | some (.login l) => s.loginAnswered id l a
  | some (.revoking left) =>
    -- an HTTP error is an answer as well; after a fetch that fails the session is not ended
    if a = .failed then s.clear id
    else if left ≤ 1 then s.setTask id .endingSession
    else s.setTask id (.revoking (left - 1))
  | some .endingSession => s.clear id
  | _ => s

end Page

inductive Input
  | request (oauthRoute : Bool)
  | restoreSession
  | link
  | login
  | verifyMfa
  | exchangeCode
  | githubLogin
  | logout
  | answer (id : Nat) (a : Answer)
  deriving DecidableEq

def Page.step (s : Page) : Input → Page
  | .request oauthRoute => s.send oauthRoute
  | .restoreSession => s.restoreSession
  | .link => s.link
  | .login => s.login
  | .verifyMfa => s.finishLogin .verifyMfa
  | .exchangeCode => s.finishLogin .exchangeCode
  | .githubLogin => s.finishLogin .githubLogin
  | .logout => s.logout
  | .answer id a => s.answer id a

/-- The runs of a page, with the inputs as history. -/
def machine : Machine Page Input Input where
  step s i := (s.step i, i)

/-- A page that has just been loaded; the store is initialised by its first input. -/
def load (persisted : Option Token) : Page :=
  { refreshToken := persisted, persisted := persisted }

end AuthForge.Spa.User
