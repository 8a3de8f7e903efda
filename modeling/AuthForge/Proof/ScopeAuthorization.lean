import AuthForge.Http.Runs

/-!
# Scopes of issued codes and device pairs

Only the silent path asks the scope engine. Login, consent and second factor copy the scope of the
request into the code, and a device pair gets the scope of the device code, whoever approved it. The
scopes are authorized in the runs in which the engine's first two tiers would accept what these
requests bring.
-/

namespace AuthForge.ScopeAuthorization

open Http OAuth2 Identity

variable {b : Backend}

def holdsAdmin (d : Directory) (subject : String) : Bool :=
  match d.subjectUser subject with
  | none => false
  | some id => "admin" ∈ d.roles id

/-- Every scope is allowed for the client, and an admin scope needs a subject with that role. -/
def ScopesPermitted (cfg : Config) (w : World b) (clientId subject scope : String) : Prop :=
  ∀ token ∈ requestedScopes scope,
    (∃ client, w.clients.lookup clientId = some client ∧ token ∈ client.allowedScopes) ∧
      (token ∈ cfg.adminScopes → holdsAdmin w.directory subject = true)

def ScopesAuthorized (cfg : Config) (w : World b) : Action → Prop
  | .codeIssued _ code => ScopesPermitted cfg w code.clientId code.userId code.scope
  | .pairIssued access => ScopesPermitted cfg w access.clientId access.userId access.scope
  | _ => True

/-! ### The condition on requests -/

/-- The engine's first two tiers accept the scopes for the client and the subject's roles. -/
def tiersPass (cfg : Config) (w : World b) (clientId subject scope : String) : Bool :=
  match w.clients.lookup clientId with
  | none => requestedScopes scope = []
  | some client =>
    !(evaluateScopes (requestedScopes scope) client (holdsAdmin w.directory subject)
      (fun _ => true) (· ∈ cfg.adminScopes)).hasErrors

/-- The session's user id, read as a subject, is not mapped to somebody else. -/
def mappedToSelf (w : World b) (sid : Nat) : Bool :=
  match (w.sessions sid).userId with
  | none => true
  | some userId =>
    match w.directory.getInternalUserId userId with
    | none => true
    | some id => w.directory.subjectUser userId = some id

def loginTiersPass (cfg : Config) (w : World b) (req : HttpRequest) (env : RequestEnv) : Bool :=
  let f := SessionController.loginFields req
  match (SessionController.passwordStep cfg env f w.users).1 with
  | .accepted result =>
    evaluateLoginPolicy result cfg.requireEmailVerification ≠ .Proceed ||
      tiersPass cfg w f.clientId result.publicSub f.scope
  | _ => true

def consentTiersPass (cfg : Config) (w : World b) (req : HttpRequest) (env : RequestEnv) : Bool :=
  let f := SessionController.consentFields req
  f.action = "deny" || (w.getInternalUserId env f.userId).isNone ||
    tiersPass cfg w f.clientId f.userId f.scope

def verifyTiersPass (cfg : Config) (w : World b) (req : HttpRequest) (env : RequestEnv) : Bool :=
  let f := MfaController.verifyFields req
  match MfaController.verifyTotp cfg (MfaController.keyed cfg w req env) env f with
  | .error _ => true
  | .ok v => tiersPass cfg w f.clientId v.publicSub f.scope

def approvalTiersPass (cfg : Config) (w : World b) (req : HttpRequest) : Bool :=
  match DeviceGrant.findByUserCode w (req.getParameter "user_code") with
  | none => true
  | some (_, row) => tiersPass cfg w row.clientId (req.getParameter "user_id") row.scope

/-- Each request that copies a scope brings one that the engine would accept, and a session's user
is who the engine takes it for. -/
def scopesChecked (cfg : Config) (w : World b) (i : Input) : Bool :=
  match i.endpoint with
  | .login => loginTiersPass cfg w i.req i.env
  | .authorize => mappedToSelf w i.req.session
  | .consent => consentTiersPass cfg w i.req i.env
  | .verifyLogin => verifyTiersPass cfg w i.req i.env
  | .approveDevice => approvalTiersPass cfg w i.req
  | .deviceAuthorization => true
  | .deviceToken => true

variable {cfg : Config} {w₀ w : World b} {past : List Action} {i : Input}
  {clientId subject scope : String}

theorem scopesPermitted_of_tiersPass (h : tiersPass cfg w clientId subject scope = true) :
    ScopesPermitted cfg w clientId subject scope := by
  intro token htoken
  unfold tiersPass at h
  split at h
  · rw [decide_eq_true_eq] at h
    rw [h] at htoken
    cases htoken
  · rename_i client hclient
    rw [Bool.not_eq_true', evaluateScopes_hasErrors_eq_false_iff] at h
    obtain ⟨hallowed, hadmin⟩ := h token htoken
    exact ⟨⟨client, hclient, hallowed⟩, fun hmem => hadmin (by simpa using hmem)⟩

theorem scopesPermitted_frame (hframe : Frame w₀ w) :
    ScopesPermitted cfg w clientId subject scope ↔
      ScopesPermitted cfg w₀ clientId subject scope := by
  unfold ScopesPermitted
  rw [hframe.clients, hframe.directory]

theorem scopesPermitted_of_summary {userId : String}
    (huser : (w.sessions i.req.session).userId = some userId)
    (hself : mappedToSelf w i.req.session = true)
    (h : (AuthorizationEndpoint.scopeSummary cfg w i.req i.env userId).hasErrors = false) :
    ScopesPermitted cfg w (AuthorizationEndpoint.authorizeFields i.req).clientId userId
      (AuthorizationEndpoint.authorizeFields i.req).scope := by
  intro token htoken
  obtain ⟨client, hclient, hallowed, hadmin⟩ := AuthorizationService.evaluateScopes_sound h htoken
  refine ⟨⟨client, ?_, hallowed⟩, fun hmem => ?_⟩
  · have hlookup : (if i.env.fails .getClient then none
      else w.clients.lookup (AuthorizationEndpoint.authorizeFields i.req).clientId) =
        some client := hclient
    split at hlookup
    · cases hlookup
    · exact hlookup
  · obtain ⟨id, hid, hrole⟩ := hadmin hmem
    have hmapped : w.directory.getInternalUserId userId = some id := by
      have hport : (if i.env.fails .findMapping then none
        else w.directory.getInternalUserId userId) = some id := hid
      split at hport
      · cases hport
      · exact hport
    have hsubject : w.directory.subjectUser userId = some id := by
      simpa [mappedToSelf, huser, hmapped] using hself
    have hroles : "admin" ∈ (if i.env.fails .getRoles then [] else w.directory.roles id) := hrole
    split at hroles
    · cases hroles
    · simp [holdsAdmin, hsubject, hroles]

theorem scopesPermitted_of_source {code : OAuth2AuthCode} {earlier : List Action}
    (hok : scopesChecked cfg w i = true) (hsource : CodeSource cfg w i code earlier) :
    ScopesPermitted cfg w code.clientId code.userId code.scope := by
  cases hsource with
  | login hendpoint haccepts hdecision =>
    have hpass : loginTiersPass cfg w i.req i.env = true := by
      simpa [scopesChecked, hendpoint] using hok
    simp only [loginTiersPass, haccepts.step, hdecision, ne_eq, not_true_eq_false, decide_false,
      Bool.false_or] at hpass
    exact scopesPermitted_of_tiersPass hpass
  | silent hendpoint huser hscopes =>
    have hself : mappedToSelf w i.req.session = true := by
      simpa [scopesChecked, hendpoint] using hok
    exact scopesPermitted_of_summary huser hself hscopes
  | consent hendpoint haction huser =>
    have hpass : consentTiersPass cfg w i.req i.env = true := by
      simpa [scopesChecked, hendpoint] using hok
    simp only [consentTiersPass, haction, huser, decide_false, Option.isNone_some, Bool.or_self,
      Bool.false_or] at hpass
    exact scopesPermitted_of_tiersPass hpass
  | secondFactor hendpoint htotp =>
    have hpass : verifyTiersPass cfg w i.req i.env = true := by
      simpa [scopesChecked, hendpoint] using hok
    simp only [verifyTiersPass, htotp] at hpass
    exact scopesPermitted_of_tiersPass hpass

/-! ### Device codes -/

/-- The scope of every approved device code is permitted for its client and user. -/
def ApprovalsPermitted (cfg : Config) (w₀ w : World b) : Prop :=
  ∀ deviceCodeHash row, w.deviceCodes.lookup deviceCodeHash = some row → row.status = .approved →
    ScopesPermitted cfg w₀ row.clientId row.userId row.scope

theorem ApprovalsPermitted.insert (h : ApprovalsPermitted cfg w₀ w) {w' : World b}
    {deviceCodeHash : String} {row : DeviceCode}
    (hdevices : w'.deviceCodes = w.deviceCodes.insert deviceCodeHash row)
    (hrow : row.status = .approved →
      ScopesPermitted cfg w₀ row.clientId row.userId row.scope) :
    ApprovalsPermitted cfg w₀ w' := by
  intro key row' hlookup
  rw [hdevices] at hlookup
  by_cases hkey : key = deviceCodeHash
  · rw [hkey, AList.lookup_insert] at hlookup
    obtain rfl := Option.some.inj hlookup
    exact hrow
  · rw [AList.lookup_insert_ne hkey] at hlookup
    exact h key row' hlookup

theorem ApprovalsPermitted.same (h : ApprovalsPermitted cfg w₀ w) {w' : World b}
    (hdevices : w'.deviceCodes = w.deviceCodes) : ApprovalsPermitted cfg w₀ w' := by
  unfold ApprovalsPermitted
  rw [hdevices]
  exact h

section Device

open DeviceGrant

variable {o : Outcome b}

theorem ApprovalsPermitted.deviceAuthorization (h : ApprovalsPermitted cfg w₀ w)
    (hcase : DeviceAuthorizationCase w i.req i.env o) : ApprovalsPermitted cfg w₀ o.world := by
  cases hcase with
  | answered => exact h
  | stored => exact h.insert rfl (fun hstatus => by cases hstatus)

theorem ApprovalsPermitted.approveDevice (h : ApprovalsPermitted cfg w₀ w) (hframe : Frame w₀ w)
    (hpass : approvalTiersPass cfg w i.req = true) (hcase : ApproveCase w i.req o) :
    ApprovalsPermitted cfg w₀ o.world := by
  cases hcase with
  | answered => exact h
  | approved hfound =>
    simp only [approvalTiersPass, hfound] at hpass
    refine h.insert rfl (fun _ => ?_)
    exact (scopesPermitted_frame hframe).mp (scopesPermitted_of_tiersPass hpass)

theorem ApprovalsPermitted.deviceToken (h : ApprovalsPermitted cfg w₀ w)
    (hcase : PollCase cfg w i.env o) : ApprovalsPermitted cfg w₀ o.world := by
  cases hcase with
  | answered => exact h
  | @polled deviceCodeHash row _ _ _ hrow => exact h.insert rfl (h deviceCodeHash row hrow)
  | redeemed => exact h.insert rfl (fun hstatus => by cases hstatus)

end Device

theorem ApprovalsPermitted.step (hest : Established cfg w₀ past w)
    (h : ApprovalsPermitted cfg w₀ w) (hok : scopesChecked cfg w i = true) :
    ApprovalsPermitted cfg w₀ (handle cfg w i).world := by
  unfold handle
  cases hendpoint : i.endpoint with
  | login => exact h.same SessionController.login_cases.deviceCodes_eq
  | authorize => exact h.same AuthorizationEndpoint.authorize_cases.deviceCodes_eq
  | consent => exact h.same SessionController.consent_cases.deviceCodes_eq
  | verifyLogin => exact h.same MfaController.verifyLogin_cases.deviceCodes_eq
  | deviceAuthorization => exact h.deviceAuthorization DeviceGrant.deviceAuthorization_cases
  | approveDevice =>
    have hpass : approvalTiersPass cfg w i.req = true := by
      simpa [scopesChecked, hendpoint] using hok
    exact h.approveDevice hest.frame hpass DeviceGrant.approveDevice_cases
  | deviceToken => exact h.deviceToken DeviceGrant.deviceToken_cases

/-- In a run whose requests bring acceptable scopes, every issued code and device pair has only
scopes that its client may ask for and, for admin scopes, a subject with the role. -/
theorem scopes_authorized (hinitial : Initial w₀) {history : List (List Action)}
    (hrun : ServerRun cfg (fun _ w i => scopesChecked cfg w i = true) w₀ history w) :
    ∀ a ∈ history.flatten, ScopesAuthorized cfg w₀ a := by
  have halways : Always (fun _ a => ScopesAuthorized cfg w₀ a) history.flatten := by
    refine ServerRun.always (fun _ w => ApprovalsPermitted cfg w₀ w) hinitial ?_
      (fun _ _ _ hest h hok => h.step hest hok) ?_ hrun
    · intro key row hlookup
      rw [hinitial.deviceCodes] at hlookup
      cases hlookup
    · intro past w i earlier a hest h hok hsourced
      cases hsourced with
      | code hsource =>
        exact (scopesPermitted_frame hest.frame).mp (scopesPermitted_of_source hok hsource)
      | pair hrow happroved => exact h _ _ hrow happroved
      | _ => trivial
  intro a ha
  obtain ⟨later, past, hsplit⟩ := List.append_of_mem ha
  rw [hsplit] at halways
  exact halways.split

def deviceRun : List Input :=
  [{ endpoint := .deviceAuthorization
     req := { session := 0, params := paramsOf [("client_id", "spa"), ("scope", "openid")] }
     env := { now := 59, random := fun n => if n = 0 then knownToken 0 else "BCDFGHJK" } },
   { endpoint := .approveDevice
     req := { session := 1, params := paramsOf [("user_code", "BCDFGHJK"), ("user_id", "1")] }
     env := { now := 60 } },
   { endpoint := .deviceToken
     req :=
       { session := 0
         params := paramsOf
           [("grant_type", "urn:ietf:params:oauth:grant-type:device_code"), ("client_id", "spa"),
            ("device_code", knownToken 0)] }
     env := { now := 70, random := fun n => if n = 2 then knownFamily else knownToken (n + 1) } }]

def pairsIssued (trace : List Action) : List (String × String) :=
  trace.filterMap fun
    | .pairIssued access => some (access.userId, access.scope)
    | _ => none

theorem scopes_authorized_deviceRun :
    Meets knownConfig (fun _ w i => scopesChecked knownConfig w i = true) deviceRun ∧
    pairsIssued (executed knownConfig deviceRun).1.flatten = [("1", "openid")] ∧
    ∀ a ∈ (executed knownConfig deviceRun).1.flatten, ScopesAuthorized knownConfig knownWorld a := by
  have hrun : Meets knownConfig (fun _ w i => scopesChecked knownConfig w i = true) deviceRun ∧
      pairsIssued (executed knownConfig deviceRun).1.flatten = [("1", "openid")] := by
    decide +kernel
  exact ⟨hrun.1, hrun.2, scopes_authorized initial_knownWorld (serverRun_of_meets hrun.1)⟩

def adminConsent : Input where
  endpoint := .consent
  req :=
    { session := 0
      params := paramsOf
        [("client_id", "spa"), ("user_id", "alice"), ("action", "approve"), ("scope", "admin"),
         ("redirect_uri", "https://spa.example.com/callback"), ("state", "state123")] }
  env := knownEnv 59 0

/-- The code carries the scope all the same. -/
theorem adminConsent_not_authorized :
    Initial knownWorld ∧
    ServerRun knownConfig anyRequest knownWorld (executed knownConfig [adminConsent]).1
      (executed knownConfig [adminConsent]).2 ∧
    ¬∀ a ∈ (executed knownConfig [adminConsent]).1.flatten,
      ScopesAuthorized knownConfig knownWorld a := by
  refine ⟨initial_knownWorld, serverRun_executed _ _, fun hauthorized => ?_⟩
  obtain ⟨hcode, hspa, hadmin, hnot⟩ :
      .codeIssued 0 (SessionController.consentCode knownConfig knownWorld adminConsent.req
          adminConsent.env) ∈ (executed knownConfig [adminConsent]).1.flatten ∧
        knownWorld.clients.lookup "spa" = some knownClient ∧
        "admin" ∈ requestedScopes "admin" ∧ "admin" ∉ knownClient.allowedScopes := by
    decide +kernel
  have hpermitted : ScopesPermitted knownConfig knownWorld "spa" "alice" "admin" :=
    hauthorized _ hcode
  obtain ⟨⟨client, hclient, hallowed⟩, -⟩ := hpermitted "admin" hadmin
  obtain rfl := Option.some.inj (hclient.symm.trans hspa)
  exact hnot hallowed

end AuthForge.ScopeAuthorization
