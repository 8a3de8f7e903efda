import AuthForge.Spa.Page

/-!
# The session of the admin console

The auth store: login, the shared refresh, logout, the restoration of the session and the two
interceptors of the axios instance that all requests but those of the logout go through.
-/

namespace AuthForge.Spa.Admin

/-- Who goes on with the outcome of a request of the axios instance. -/
inductive Owner
  | view
  /-- `fetchUserInfo`, and whether `login` waits for it. -/
  | userInfo (login : Bool)
  /-- The POST of `refreshAccessToken`; the promise `refreshInFlight` is named by its task. -/
  | exchange (value : Token)
  | loginCode
  | loginTokens
  deriving DecidableEq

inductive Task
  /-- On the network, with the flag `_retry` and the bearer token it was sent with. -/
  | request (owner : Owner) (retry : Bool) (bearer : Option Token)
  /-- The response interceptor waits for the refresh `p`. -/
  | awaiting (owner : Owner) (p : Nat)
  /-- `restoreSession` waits for the refresh `p`. -/
  | restoring (p : Nat)
  /-- `logout` waits for this many of its fetches. -/
  | logout (left : Nat)
  | done
  deriving DecidableEq

structure Page where
  accessToken : Option Token := none
  refreshToken : Option Token := none
  persisted : Option Token := none
  /-- `user` has the role `admin`. -/
  admin : Bool := false
  refreshInFlight : Option Nat := none
  /-- The refreshes that are over, and whether they succeeded. -/
  settled : List (Nat × Bool) := []
  sessionRestorePromise : Bool := false
  tasks : List Task := []
  log : List Note := []

namespace Page

variable (s : Page)

def note (n : Note) : Page := { s with log := n :: s.log }

def add (t : Task) : Page := { s with tasks := s.tasks ++ [t] }

def setTask (id : Nat) (t : Task) : Page := { s with tasks := s.tasks.set id t }

/-- All that a logout would take away. -/
def held : List Token := s.accessToken.toList ++ s.refreshToken.toList ++ s.persisted.toList

def setTokens (access refresh : Token) : Page :=
  { s with accessToken := some access, refreshToken := some refresh, persisted := some refresh }

def clear (id : Nat) : Page :=
  { s with accessToken := none, refreshToken := none, persisted := none, admin := false }
    |>.note (.cleared id s.held)

/-! ### Calls -/

/-- The fetches go out at once; without tokens there are none, and nothing to wait for. -/
def logout : Page :=
  let id := s.tasks.length
  let left := s.accessToken.toList.length + s.refreshToken.toList.length
  let called := s.note (.logoutCalled id s.held)
  if left = 0 then (called.add .done).clear id else called.add (.logout left)

/-- A request of the instance carries the access token. -/
def send (owner : Owner) : Page := s.add (.request owner false s.accessToken)

/-- `refreshAccessToken` with a refresh token: the refresh to wait for, which is the one in flight
or a new one. -/
def refresh (value : Token) : Nat × Page :=
  match s.refreshInFlight with
  | some p => (p, s)
  | none =>
    let p := s.tasks.length
    (p, { s.send (.exchange value) with refreshInFlight := some p }.note (.sent p value))

def restoreSession : Page :=
  match s.persisted with
  | none => s
  | some value =>
    let r := { s with refreshToken := some value }.refresh value
    r.2.add (.restoring r.1)

def ensureSessionRestored : Page :=
  if s.sessionRestorePromise then s else { s.restoreSession with sessionRestorePromise := true }

def fetchUserInfo : Page := if s.accessToken = none then s else s.send (.userInfo false)

def login : Page := (s.note (.loginCalled s.tasks.length)).send .loginCode

/-! ### Outcomes -/

def settle (p : Nat) (ok : Bool) : Page :=
  { s with refreshInFlight := none, settled := (p, ok) :: s.settled }.setTask p .done

/-- The role check at the end of `login`. -/
def checkRole (login : Bool) : Page := if login ∧ s.admin = false then s.logout else s

def fail (id : Nat) : Owner → Page
  | .view | .loginCode | .loginTokens => s.setTask id .done
  | .userInfo login => ((s.setTask id .done).logout).checkRole login
  | .exchange _ => (s.settle id false).logout

/-- A 200 answer; one that the endpoint does not give is left aside. -/
def succeed (id : Nat) : Owner → Answer → Page
  | .view, _ => s.setTask id .done
  | .userInfo login, .info admin => ({ s with admin := admin }.setTask id .done).checkRole login
  | .exchange _, .tokens access refresh =>
    ((s.setTokens access refresh).note (.received id access refresh)).settle id true
  | .loginCode, .code => s.setTask id (.request .loginTokens false s.accessToken)
  | .loginCode, .mfaRequired => s.setTask id .done
  | .loginTokens, .tokens access refresh =>
    ((s.setTokens access refresh).note (.loggedIn id)).setTask id
      (.request (.userInfo true) false (some access))
  | _, _ => s

/-- The response interceptor on a 401 answer. -/
def unauthorized (id : Nat) (retry : Bool) (owner : Owner) : Page :=
  match s.refreshToken with
  | none => s.fail id owner
  | some value =>
    if retry then s.fail id owner
    else
      let r := s.refresh value
      let waiting := r.2.setTask id (.awaiting owner r.1)
      match owner with
      | .exchange _ => waiting.note (.refused id)
      | _ => waiting

def answer (id : Nat) (a : Answer) : Page :=
  match s.tasks[id]? with
  | some (.request owner retry _) =>
    match a with
    | .unauthorized => s.unauthorized id retry owner
    | .failed => s.fail id owner
    | a => s.succeed id owner a
  | some (.logout left) =>
    -- an HTTP error is an answer as well; the first fetch that fails ends the wait
    if a = .failed ∨ left ≤ 1 then (s.setTask id .done).clear id
    else s.setTask id (.logout (left - 1))
  | _ => s

/-- The refresh that the activity waited for is over. -/
def resume (id : Nat) : Page :=
  match s.tasks[id]? with
  | some (.awaiting owner p) =>
    match s.settled.lookup p with
    | some true =>
      (s.setTask id (.request owner true s.accessToken)).note (.retried id p s.accessToken)
    | some false => s.logout.fail id owner
    | none => s
  | some (.restoring p) =>
    match s.settled.lookup p with
    | some true => (s.setTask id .done).fetchUserInfo
    | some false => s.setTask id .done
    | none => s
  | _ => s

/-! ### Later activities leave a task alone -/

variable {s} {id : Nat} {t : Task}

theorem getElem?_add (ht : s.tasks[id]? = some t) (u : Task) : (s.add u).tasks[id]? = some t :=
  (List.getElem?_append_left (List.getElem?_eq_some_iff.mp ht).1).trans ht

theorem getElem?_refresh (ht : s.tasks[id]? = some t) (value : Token) :
    (s.refresh value).2.tasks[id]? = some t := by
  unfold refresh
  split
  · exact ht
  · exact getElem?_add ht _

theorem getElem?_logout (ht : s.tasks[id]? = some t) : s.logout.tasks[id]? = some t := by
  unfold logout
  dsimp only
  split
  · exact getElem?_add (s := s.note _) ht .done
  · exact getElem?_add (s := s.note _) ht (.logout _)

end Page

inductive Input
  | request
  | fetchUserInfo
  | restoreSession
  | ensureSessionRestored
  | login
  | logout
  | answer (id : Nat) (a : Answer)
  | resume (id : Nat)
  deriving DecidableEq

def Page.step (s : Page) : Input → Page
  | .request => s.send .view
  | .fetchUserInfo => s.fetchUserInfo
  | .restoreSession => s.restoreSession
  | .ensureSessionRestored => s.ensureSessionRestored
  | .login => s.login
  | .logout => s.logout
  | .answer id a => s.answer id a
  | .resume id => s.resume id

/-- The runs of a page, with the inputs as history. -/
def machine : Machine Page Input Input where
  step s i := (s.step i, i)

/-- A page that has just been loaded. -/
def load (persisted : Option Token) : Page := { persisted := persisted }

end AuthForge.Spa.Admin
