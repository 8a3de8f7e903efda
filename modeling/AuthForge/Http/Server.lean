import AuthForge.Base.Run
import AuthForge.Http.AuthorizationEndpoint
import AuthForge.Http.DeviceGrant
import AuthForge.Http.MfaController
import AuthForge.Http.SessionController

/-!
# The server as a machine

One input is one request with what it reads from outside; its event is the log of what it did.
`Effect` says, for all endpoints at once, how a request changes what later requests read. Properties
of whole runs are derived from it and never look into a handler again.
-/

namespace AuthForge.Http

open OAuth2 Identity

variable {b : Backend}

inductive Endpoint
  | login
  | authorize
  | consent
  | verifyLogin
  | deviceAuthorization
  | approveDevice
  | deviceToken
  deriving DecidableEq, Repr

structure Input where
  endpoint : Endpoint
  req : HttpRequest
  env : RequestEnv := {}

def handle (cfg : Config) (w : World b) (i : Input) : Outcome b :=
  match i.endpoint with
  | .login => SessionController.login cfg w i.req i.env
  | .authorize => AuthorizationEndpoint.authorize cfg w i.req i.env
  | .consent => SessionController.consent cfg w i.req i.env
  | .verifyLogin => MfaController.verifyLogin cfg w i.req i.env
  | .deviceAuthorization => DeviceGrant.deviceAuthorization cfg w i.req i.env
  | .approveDevice => DeviceGrant.approveDevice w i.req i.env
  | .deviceToken => DeviceGrant.deviceToken cfg w i.req i.env

def server (b : Backend) (cfg : Config) : Machine (World b) Input (List Action) where
  step w i := ((handle cfg w i).world, (handle cfg w i).log)

/-! ### What a request changes -/

def Action.fromLogin : Action → Bool
  | .passwordValidated .. => true
  | .bindingSaved .. => true
  | _ => false

/-- How a request changes what later requests read, in terms of its log. -/
structure Effect (cfg : Config) (w : World b) (o : Outcome b) : Prop where
  frame : Frame w o.world
  userId : ∀ k s, (o.world.sessions k).userId = some s → (w.sessions k).userId = some s ∨
    ∃ id c r d, .passwordValidated k id c r d ∈ o.log ∧ s = toString id
  validated : ∀ k id c r d, .passwordValidated k id c r d ∈ o.log →
    ∃ p, w.directory.users.table.lookup id = some p ∧
      d = evaluateLoginPolicy (authResultOf id p) cfg.requireEmailVerification
  bound : ∀ k id c r, .bindingSaved k id c r ∈ o.log →
    .passwordValidated k id c r .RequireMfa ∈ o.log
  pending : ∀ id c r, o.world.users.getPendingBinding id = some (c, r) →
    w.users.getPendingBinding id = some (c, r) ∨ (c, r) = ("", "") ∨
      ∃ k, .bindingSaved k id c r ∈ o.log

variable {cfg : Config} {w : World b} {req : HttpRequest} {env : RequestEnv} {o : Outcome b}

theorem Config.insertKey_eq_some {α : Type} {old : Option α} {new v : α}
    (h : cfg.insertKey old new = some v) : old = some v ∨ v = new := by
  unfold Config.insertKey at h
  split at h
  · exact .inr (Option.some.inj h).symm
  · split at h
    · exact .inr (Option.some.inj h).symm
    · exact .inl h

theorem frame_of_users {w' : World b} (hprofiles : w'.users.profiles = w.users.profiles)
    (hmappings : w'.mappings = w.mappings) (hclients : w'.clients = w.clients) : Frame w w' :=
  ⟨by rw [World.directory, World.directory, hprofiles, hmappings], hclients⟩

theorem Effect.of_quiet (hframe : Frame w o.world)
    (hsessions : ∀ k, (o.world.sessions k).userId = (w.sessions k).userId)
    (hpending : ∀ id, o.world.users.getPendingBinding id = w.users.getPendingBinding id ∨
      o.world.users.getPendingBinding id = (w.users.getPendingBinding id).map fun _ => ("", ""))
    (hlog : ∀ a ∈ o.log, a.fromLogin = false) : Effect cfg w o where
  frame := hframe
  userId k s hs := .inl (by rwa [hsessions] at hs)
  validated k id c r d h := by cases hlog _ h
  bound k id c r h := by cases hlog _ h
  pending id c r h := by
    rcases hpending id with hsame | hcleared
    · exact .inl (hsame ▸ h)
    · rw [hcleared, Option.map_eq_some_iff] at h
      obtain ⟨_, -, h⟩ := h
      exact .inr (.inl h.symm)

theorem Effect.of_same {w' : World b} {response : Response} {log : List Action}
    (husers : w'.users = w.users) (hmappings : w'.mappings = w.mappings)
    (hclients : w'.clients = w.clients) (hsessions : w'.sessions = w.sessions)
    (hlog : ∀ a ∈ log, a.fromLogin = false) :
    Effect cfg w { world := w', response, log } :=
  .of_quiet (frame_of_users (by rw [husers]) hmappings hclients) (fun k => by rw [hsessions])
    (fun id => .inl (by rw [husers])) hlog

section Login

open SessionController

variable {result : AuthResult} {users : UserTable}

theorem userId_setSession {sid k : Nat} {s : Session} :
    ((w.setSession sid s).sessions k).userId = if k = sid then s.userId else (w.sessions k).userId := by
  unfold World.setSession
  simp only [Function.update_apply]
  split <;> rfl

theorem userId_entered {k : Nat} {s : String}
    (h : ((entered cfg w req env result).sessions k).userId = some s) :
    (w.sessions k).userId = some s ∨ k = req.session ∧ s = toString result.internalId := by
  rw [entered, userId_setSession] at h
  split at h
  · rename_i hk
    subst hk
    rcases Config.insertKey_eq_some h with hold | hnew
    · exact .inl hold
    · exact .inr ⟨rfl, hnew⟩
  · exact .inl h

theorem userId_saveBinding {sid k : Nat} {f : LoginFields} :
    ((saveBinding cfg w sid f result).sessions k).userId = (w.sessions k).userId := by
  rw [saveBinding, userId_setSession]
  split
  · rename_i hk
    rw [hk]
  · rfl

/-- A login after its password step: the log ends with the accepted password, and what comes after
it is at most a pending binding and a code. -/
theorem Effect.of_login (haccepts : Accepts cfg w req env result users) {world : World b}
    {response : Response} (later : List Action)
    (hprofiles : world.users.profiles = users.profiles) (hmappings : world.mappings = w.mappings)
    (hclients : world.clients = w.clients)
    (hsessions : ∀ k, (world.sessions k).userId =
      ((entered cfg { w with users } req env result).sessions k).userId)
    (hpending : ∀ id c r, world.users.getPendingBinding id = some (c, r) →
      users.getPendingBinding id = some (c, r) ∨ ∃ k, .bindingSaved k id c r ∈ later)
    (hlater : ∀ a ∈ later, a.fromLogin = true →
      a = .bindingSaved req.session result.internalId (loginFields req).clientId
        (loginFields req).redirectUri ∧
      evaluateLoginPolicy result cfg.requireEmailVerification = .RequireMfa) :
    Effect cfg w
      { world, response, log := later ++ [passwordAction cfg req (loginFields req) result] } := by
  obtain ⟨hkept, id, p, hrow, rfl⟩ := haccepts.spec
  have hmem : ∀ {k i c r d}, .passwordValidated k i c r d ∈
      later ++ [passwordAction cfg req (loginFields req) (authResultOf id p)] →
        .passwordValidated k i c r d = passwordAction cfg req (loginFields req) (authResultOf id p) := by
    intro k i c r d h
    rcases List.mem_append.mp h with h | h
    · cases (hlater _ h rfl).1
    · exact List.mem_singleton.mp h
  refine ⟨frame_of_users (hprofiles.trans hkept.profiles) hmappings hclients, ?_, ?_, ?_, ?_⟩
  · intro k s hs
    rw [hsessions] at hs
    rcases userId_entered hs with hold | ⟨rfl, rfl⟩
    · exact .inl hold
    · exact .inr ⟨id, _, _, _, List.mem_append_right _ (List.mem_singleton_self _), rfl⟩
  · intro k i c r d h
    cases hmem h
    exact ⟨p, hrow, rfl⟩
  · intro k i c r h
    rcases List.mem_append.mp h with h | h
    · obtain ⟨heq, hdecision⟩ := hlater _ h rfl
      cases heq
      refine List.mem_append_right _ (List.mem_singleton.mpr ?_)
      rw [passwordAction, hdecision]
    · cases List.mem_singleton.mp h
  · intro i c r h
    rcases hpending i c r h with hold | ⟨k, hsaved⟩
    · exact .inl (hkept.pending i ▸ hold)
    · exact .inr (.inr ⟨k, List.mem_append_left _ hsaved⟩)

theorem SessionController.LoginCase.effect (h : LoginCase cfg w req env o) : Effect cfg w o := by
  cases h with
  | refused hkept =>
    refine .of_quiet (frame_of_users hkept.profiles rfl rfl) (fun _ => rfl) ?_ (List.forall_mem_nil _)
    exact fun id => .inl (hkept.pending id)
  | stopped haccepts =>
    exact .of_login haccepts [] rfl rfl rfl (fun _ => rfl) (fun _ _ _ h => .inl h)
      (List.forall_mem_nil _)
  | @bound users result haccepts hdecision =>
    refine .of_login haccepts [_] UserTable.profiles_setPendingBinding rfl rfl
      (fun _ => userId_saveBinding) ?_ ?_
    · intro id c r h
      have hset : (users.setPendingBinding result.internalId (loginFields req).clientId
        (loginFields req).redirectUri).getPendingBinding id = some (c, r) := h
      rw [UserTable.getPendingBinding_set] at hset
      split at hset
      · rename_i hid
        obtain ⟨_, -, hbinding⟩ := Option.map_eq_some_iff.mp hset
        cases hbinding
        exact .inr ⟨req.session, by rw [hid]; exact List.mem_singleton_self _⟩
      · exact .inl hset
    · intro a ha _
      exact ⟨List.mem_singleton.mp ha, hdecision⟩
  | issued haccepts =>
    refine .of_login haccepts [_] rfl rfl rfl (fun _ => rfl) (fun _ _ _ h => .inl h) ?_
    intro a ha hlogin
    rw [List.mem_singleton.mp ha] at hlogin
    cases hlogin

theorem SessionController.ConsentCase.effect (h : ConsentCase cfg w req env o) :
    Effect cfg w o := by
  cases h with
  | denied => exact .of_same rfl rfl rfl rfl (List.forall_mem_nil _)
  | failed => exact .of_same rfl rfl rfl rfl (List.forall_mem_nil _)
  | issued => exact .of_same rfl rfl rfl rfl (by simp [Action.fromLogin])

end Login

theorem AuthorizationEndpoint.AuthorizeCase.effect
    (h : AuthorizationEndpoint.AuthorizeCase cfg w req env o) : Effect cfg w o := by
  cases h with
  | answered => exact .of_same rfl rfl rfl rfl (List.forall_mem_nil _)
  | issued => exact .of_same rfl rfl rfl rfl (by simp [Action.fromLogin])

section SecondFactor

open MfaController

theorem userId_keyed {k : Nat} :
    ((keyed cfg w req env).sessions k).userId = (w.sessions k).userId := by
  rw [keyed, userId_setSession]
  split
  · rename_i hk
    rw [hk]
    rfl
  · rfl

theorem MfaController.VerifyCase.effect (h : VerifyCase cfg w req env o) : Effect cfg w o := by
  have hpending : ∀ id, (keyed cfg w req env).users.getPendingBinding id =
      w.users.getPendingBinding id := fun _ => rfl
  cases h with
  | refused => exact .of_same rfl rfl rfl rfl (List.forall_mem_nil _)
  | rejected =>
    exact .of_quiet (frame_of_users rfl rfl rfl) (fun _ => userId_keyed)
      (fun id => .inl (hpending id)) (List.forall_mem_nil _)
  | stopped =>
    exact .of_quiet (frame_of_users rfl rfl rfl) (fun _ => userId_keyed)
      (fun id => .inl (hpending id)) (by simp [Action.fromLogin])
  | @issued v response store users returned _ _ _ hclients husers hreturned =>
    have hlog : ∀ a ∈ returned ++ [.codeIssued req.session (mfaCode cfg w req env v),
        .totpAccepted req.session v.userId], a.fromLogin = false := by
      rcases hreturned with rfl | rfl <;> simp [Action.fromLogin]
    rcases husers with rfl | rfl
    · exact .of_quiet (frame_of_users rfl rfl hclients) (fun _ => userId_keyed)
        (fun _ => .inl rfl) hlog
    · refine .of_quiet (frame_of_users UserTable.profiles_clearPendingBinding rfl hclients)
        (fun _ => userId_keyed) ?_ hlog
      intro id
      simp only [UserTable.getPendingBinding_clear]
      split
      · exact .inr rfl
      · exact .inl rfl

end SecondFactor

section Device

open DeviceGrant

theorem DeviceGrant.DeviceAuthorizationCase.effect (h : DeviceAuthorizationCase w req env o) :
    Effect cfg w o := by
  cases h with
  | answered => exact .of_same rfl rfl rfl rfl (List.forall_mem_nil _)
  | stored => exact .of_same rfl rfl rfl rfl (List.forall_mem_nil _)

theorem DeviceGrant.ApproveCase.effect (h : ApproveCase w req o) : Effect cfg w o := by
  cases h with
  | answered => exact .of_same rfl rfl rfl rfl (List.forall_mem_nil _)
  | approved => exact .of_same rfl rfl rfl rfl (List.forall_mem_nil _)

theorem DeviceGrant.PollCase.effect (h : PollCase cfg w env o) : Effect cfg w o := by
  cases h with
  | answered => exact .of_same rfl rfl rfl rfl (List.forall_mem_nil _)
  | polled => exact .of_same rfl rfl rfl rfl (List.forall_mem_nil _)
  | redeemed _ _ hlog =>
    refine .of_same rfl rfl rfl rfl ?_
    rcases hlog with rfl | rfl <;> simp [Action.fromLogin]

end Device

theorem handle_effect (cfg : Config) (w : World b) (i : Input) : Effect cfg w (handle cfg w i) := by
  unfold handle
  cases i.endpoint with
  | login => exact SessionController.login_cases.effect
  | authorize => exact AuthorizationEndpoint.authorize_cases.effect
  | consent => exact SessionController.consent_cases.effect
  | verifyLogin => exact MfaController.verifyLogin_cases.effect
  | deviceAuthorization => exact DeviceGrant.deviceAuthorization_cases.effect
  | approveDevice => exact DeviceGrant.approveDevice_cases.effect
  | deviceToken => exact DeviceGrant.deviceToken_cases.effect

/-! ### Device codes are the business of the device requests -/

theorem SessionController.LoginCase.deviceCodes_eq
    (h : SessionController.LoginCase cfg w req env o) : o.world.deviceCodes = w.deviceCodes := by
  cases h <;> rfl

theorem SessionController.ConsentCase.deviceCodes_eq
    (h : SessionController.ConsentCase cfg w req env o) : o.world.deviceCodes = w.deviceCodes := by
  cases h <;> rfl

theorem AuthorizationEndpoint.AuthorizeCase.deviceCodes_eq
    (h : AuthorizationEndpoint.AuthorizeCase cfg w req env o) :
    o.world.deviceCodes = w.deviceCodes := by
  cases h <;> rfl

theorem MfaController.VerifyCase.deviceCodes_eq (h : MfaController.VerifyCase cfg w req env o) :
    o.world.deviceCodes = w.deviceCodes := by
  cases h <;> rfl

end AuthForge.Http
