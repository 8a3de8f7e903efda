import AuthForge.Http.Runs

/-!
# Codes are issued to whoever logged in

A login issues its code to the user whose password it checked, and the silent path to the user of
its session. The consent handler and the second factor take the user from the request instead, so
the subjects of issued codes are authentic in the runs where those two requests name the user of
their own session.
-/

namespace AuthForge.SubjectAuthenticity

open Http OAuth2 Identity

variable {b : Backend}

/-- Every issued code stands for a user who passed the password step earlier in the session that
sent the request. -/
def SubjectsAuthentic (d : Directory) (trace : List Action) : Prop :=
  ∀ later sid code past, trace = later ++ .codeIssued sid code :: past →
    ∃ id, d.subjectUser code.userId = some id ∧
      ∃ clientId redirectUri decision,
        .passwordValidated sid id clientId redirectUri decision ∈ past

/-! ### The condition on requests -/

def consentNamesOwn (w : World b) (req : HttpRequest) (env : RequestEnv) : Bool :=
  let f := SessionController.consentFields req
  f.action = "deny" || (w.getInternalUserId env f.userId).isNone ||
    (w.sessionUser req.session).isSome && w.directory.subjectUser f.userId = w.sessionUser req.session

def verifyNamesOwn (cfg : Config) (w : World b) (req : HttpRequest) (env : RequestEnv) : Bool :=
  match MfaController.verifyTotp cfg (MfaController.keyed cfg w req env) env
    (MfaController.verifyFields req) with
  | .error _ => true
  | .ok v => w.sessionUser req.session = some v.userId

/-- Consents and second factors name the user of their own session. -/
def namesOwnUser (cfg : Config) (w : World b) (i : Input) : Bool :=
  match i.endpoint with
  | .consent => consentNamesOwn w i.req i.env
  | .verifyLogin => verifyNamesOwn cfg w i.req i.env
  | _ => true

/-! ### Who an issued code is for -/

variable {cfg : Config} {w₀ w : World b} {i : Input} {past earlier : List Action}
  {code : OAuth2AuthCode}

/-- Why a code for a user is issued: a login that proceeds, the session's user, or a second factor
of the session's user. -/
inductive IssuedFor (cfg : Config) (w₀ w : World b) (i : Input) (id : Int) : List Action → Prop
  | login {p : Profile} {clientId redirectUri : String} (hendpoint : i.endpoint = .login)
      (hrow : w₀.directory.users.table.lookup id = some p)
      (hdecision : evaluateLoginPolicy (authResultOf id p) cfg.requireEmailVerification = .Proceed) :
      IssuedFor cfg w₀ w i id
        [.passwordValidated i.req.session id clientId redirectUri .Proceed]
  | session (hendpoint : i.endpoint = .authorize ∨ i.endpoint = .consent)
      (huser : w.sessionUser i.req.session = some id) : IssuedFor cfg w₀ w i id []
  | secondFactor (hendpoint : i.endpoint = .verifyLogin)
      (huser : w.sessionUser i.req.session = some id) :
      IssuedFor cfg w₀ w i id [.totpAccepted i.req.session id]

theorem sessionUser_of_consentNamesOwn {id : Int} (h : consentNamesOwn w i.req i.env = true)
    (haction : (SessionController.consentFields i.req).action ≠ "deny")
    (huser : w.getInternalUserId i.env (SessionController.consentFields i.req).userId = some id) :
    ∃ id, w.sessionUser i.req.session = some id ∧
      w.directory.subjectUser (SessionController.consentFields i.req).userId = some id := by
  simp only [consentNamesOwn, haction, huser, decide_false, Option.isNone_some, Bool.or_self,
    Bool.false_or, Bool.and_eq_true, decide_eq_true_eq] at h
  obtain ⟨id, hid⟩ := Option.isSome_iff_exists.mp h.1
  exact ⟨id, hid, h.2.trans hid⟩

theorem issuedFor_of_source (hest : Established cfg w₀ past w) (hown : namesOwnUser cfg w i = true)
    (hsource : CodeSource cfg w i code earlier) :
    ∃ id, w₀.directory.subjectUser code.userId = some id ∧ IssuedFor cfg w₀ w i id earlier := by
  cases hsource with
  | login hendpoint haccepts hdecision =>
    obtain ⟨-, id, p, hrow, rfl⟩ := haccepts.spec
    rw [hest.directory] at hrow
    refine ⟨id, Directory.subjectUser_publicSub hrow, ?_⟩
    rw [SessionController.passwordAction, hdecision]
    exact .login hendpoint hrow hdecision
  | silent hendpoint huser =>
    obtain ⟨id, hid, hsubject⟩ := hest.sessionUser_of_userId huser
    exact ⟨id, hsubject, .session (.inl hendpoint) hid⟩
  | consent hendpoint haction huser =>
    have hnames : consentNamesOwn w i.req i.env = true := by
      simpa [namesOwnUser, hendpoint] using hown
    obtain ⟨id, hid, hsubject⟩ := sessionUser_of_consentNamesOwn hnames haction huser
    rw [hest.directory] at hsubject
    exact ⟨id, hsubject, .session (.inr hendpoint) hid⟩
  | secondFactor hendpoint htotp =>
    have hnames : verifyNamesOwn cfg w i.req i.env = true := by
      simpa [namesOwnUser, hendpoint] using hown
    simp only [verifyNamesOwn, htotp, decide_eq_true_eq] at hnames
    have hsubject := hest.subjectUser_totp (MfaController.acceptedTotp_of_keyed htotp)
    exact ⟨_, hsubject, .secondFactor hendpoint hnames⟩

/-- In a run whose consents and second factors name the user of their session, every issued code
stands for a user who passed the password step earlier in the same session. -/
theorem subjects_authentic (hinitial : Initial w₀) {history : List (List Action)}
    (hrun : ServerRun cfg (fun _ w i => namesOwnUser cfg w i = true) w₀ history w) :
    SubjectsAuthentic w₀.directory history.flatten := by
  have halways : Always (fun past a => ∀ sid code, a = .codeIssued sid code →
      ∃ id, w₀.directory.subjectUser code.userId = some id ∧
        ∃ clientId redirectUri decision,
          .passwordValidated sid id clientId redirectUri decision ∈ past) history.flatten := by
    refine ServerRun.always (fun _ _ => True) hinitial trivial (fun _ _ _ _ _ _ => trivial) ?_ hrun
    intro past w i earlier a hest _ hown hsourced sid code heq
    obtain rfl := heq
    cases hsourced with
    | code hsource =>
      obtain ⟨id, hsubject, hissued⟩ := issuedFor_of_source hest hown hsource
      refine ⟨id, hsubject, ?_⟩
      cases hissued with
      | login => exact ⟨_, _, _, List.mem_cons_self⟩
      | session _ huser => exact (hest.sessionUser huser).1
      | secondFactor _ huser =>
        obtain ⟨c, r, d, hmem⟩ := (hest.sessionUser huser).1
        exact ⟨c, r, d, List.mem_cons_of_mem _ hmem⟩
  intro later sid code past htrace
  rw [htrace] at halways
  exact halways.split sid code rfl

def aliceRun : List Input :=
  [knownLogin 0 "alice" "correct-horse" (knownEnv 59 0), knownAuthorize 0 (knownEnv 60 1),
   knownConsent 0 "alice" (knownEnv 61 2)]

theorem subjects_authentic_aliceRun :
    Meets knownConfig (fun _ w i => namesOwnUser knownConfig w i = true) aliceRun ∧
    issuedTo (executed knownConfig aliceRun).1.flatten =
      [(0, "alice"), (0, "1"), (0, "11111111-1111-4111-8111-111111111111")] ∧
    SubjectsAuthentic knownWorld.directory (executed knownConfig aliceRun).1.flatten := by
  have hrun : Meets knownConfig (fun _ w i => namesOwnUser knownConfig w i = true) aliceRun ∧
      issuedTo (executed knownConfig aliceRun).1.flatten =
        [(0, "alice"), (0, "1"), (0, "11111111-1111-4111-8111-111111111111")] := by
    decide +kernel
  exact ⟨hrun.1, hrun.2, subjects_authentic initial_knownWorld (serverRun_of_meets hrun.1)⟩

def forgedConsent : Input := knownConsent 0 "alice" (knownEnv 59 0)

/-- One request is enough to get a code for anybody. -/
theorem forgedConsent_not_authentic :
    Initial knownWorld ∧
    ServerRun knownConfig anyRequest knownWorld (executed knownConfig [forgedConsent]).1
      (executed knownConfig [forgedConsent]).2 ∧
    ¬SubjectsAuthentic knownWorld.directory (executed knownConfig [forgedConsent]).1.flatten := by
  refine ⟨initial_knownWorld, serverRun_executed _ _, fun hauthentic => ?_⟩
  have htrace : (executed knownConfig [forgedConsent]).1.flatten =
      [.codeIssued 0 (SessionController.consentCode knownConfig knownWorld forgedConsent.req
        forgedConsent.env)] := by
    decide +kernel
  obtain ⟨id, -, _, _, _, hmem⟩ := hauthentic [] 0 _ [] htrace
  cases hmem

end AuthForge.SubjectAuthenticity
