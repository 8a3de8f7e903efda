import AuthForge.Proof.SubjectAuthenticity

/-!
# No code for an unverified address

With `auth.require_email_verification` the login policy turns a user with an unverified address away,
after the session has been filled. The silent path and the consent handler do not ask again. The
second factor is safe by itself: it needs a pending binding, and only a login that the policy lets
past the address writes one.
-/

namespace AuthForge.EmailGate

open Http OAuth2 Identity SubjectAuthenticity

variable {b : Backend}

def emailVerified (d : Directory) (id : Int) : Bool :=
  match d.users.table.lookup id with
  | none => false
  | some p => p.emailVerified

/-- No issued code stands for a user with an unverified address. -/
def VerifiedOnly (d : Directory) (trace : List Action) : Prop :=
  ∀ later sid code past id, trace = later ++ .codeIssued sid code :: past →
    d.subjectUser code.userId = some id → emailVerified d id = true

/-! ### The condition on requests -/

def isDenial (sid : Nat) (id : Int) : Action → Bool
  | .passwordValidated k u _ _ decision => k = sid && u = id && decision = .DenyEmailNotVerified
  | _ => false

def sessionNotDenied (past : List Action) (w : World b) (sid : Nat) : Bool :=
  match w.sessionUser sid with
  | none => true
  | some id => !past.any (isDenial sid id)

/-- The two requests that trust the session come from one that was not turned away, and a consent
names the user of its session. -/
def meetsGate (past : List Action) (w : World b) (i : Input) : Bool :=
  match i.endpoint with
  | .authorize => sessionNotDenied past w i.req.session
  | .consent => consentNamesOwn w i.req i.env && sessionNotDenied past w i.req.session
  | _ => true

variable {cfg : Config} {w₀ w : World b} {sid : Nat} {id : Int} {past : List Action}

theorem emailVerified_of_decision {p : Profile} (hrequired : cfg.requireEmailVerification = true)
    (h : evaluateLoginPolicy (authResultOf id p) cfg.requireEmailVerification ≠
      .DenyEmailNotVerified) : p.emailVerified = true := by
  unfold evaluateLoginPolicy at h
  split at h
  · exact absurd rfl h
  · rename_i hverified
    simpa [hrequired, authResultOf] using hverified

theorem emailVerified_of_validated (hest : Established cfg w₀ past w)
    (hrequired : cfg.requireEmailVerification = true) {clientId redirectUri : String}
    {decision : LoginDecision}
    (hmem : .passwordValidated sid id clientId redirectUri decision ∈ past)
    (hdecision : decision ≠ .DenyEmailNotVerified) : emailVerified w₀.directory id = true := by
  obtain ⟨p, hrow, rfl⟩ := hest.validated _ _ _ _ _ hmem
  simp only [emailVerified, hrow]
  exact emailVerified_of_decision hrequired hdecision

theorem emailVerified_of_session (hest : Established cfg w₀ past w)
    (hrequired : cfg.requireEmailVerification = true) (huser : w.sessionUser sid = some id)
    (hnot : sessionNotDenied past w sid = true) : emailVerified w₀.directory id = true := by
  obtain ⟨c, r, decision, hmem⟩ := (hest.sessionUser huser).1
  refine emailVerified_of_validated hest hrequired hmem ?_
  intro heq
  obtain rfl := heq
  have hno : past.any (isDenial sid id) = false := by
    simpa [sessionNotDenied, huser] using hnot
  have := List.any_eq_false.mp hno _ hmem
  simp [isDenial] at this

theorem emailVerified_of_binding (hest : Established cfg w₀ past w)
    (hrequired : cfg.requireEmailVerification = true) {v : MfaController.TotpVerified}
    {f : MfaController.VerifyFields} (htotp : MfaController.AcceptedTotp w f v)
    (hclient : v.pendingClientId ≠ "") : emailVerified w₀.directory v.userId = true := by
  have hnonempty : (v.pendingClientId, v.pendingRedirectUri) ≠ ("", "") :=
    fun heq => hclient (Prod.mk.inj heq).1
  rcases htotp.binding with hempty | hbinding
  · exact absurd hempty hnonempty
  rcases hest.pending _ _ _ hbinding with hempty | ⟨k, hsaved⟩
  · exact absurd hempty hnonempty
  exact emailVerified_of_validated hest hrequired (hest.bound _ _ _ _ hsaved) nofun

/-- In a run that meets the condition, no code is issued for a user with an unverified address. -/
theorem verified_only (hinitial : Initial w₀) (hrequired : cfg.requireEmailVerification = true)
    {history : List (List Action)}
    (hrun : ServerRun cfg (fun past w i => meetsGate past w i = true) w₀ history w) :
    VerifiedOnly w₀.directory history.flatten := by
  have halways : Always (fun _ a => ∀ sid code id, a = .codeIssued sid code →
      w₀.directory.subjectUser code.userId = some id → emailVerified w₀.directory id = true)
      history.flatten := by
    refine ServerRun.always (fun _ _ => True) hinitial trivial (fun _ _ _ _ _ _ => trivial) ?_ hrun
    intro past w i earlier a hest _ hok hsourced sid code id heq hid
    obtain rfl := heq
    cases hsourced with
    | code hsource =>
      cases hsource with
      | login _ haccepts hdecision =>
        obtain ⟨-, id', p, hrow, rfl⟩ := haccepts.spec
        rw [hest.directory] at hrow
        have hsubject := Directory.subjectUser_publicSub hrow
        obtain rfl := Option.some.inj (hid.symm.trans hsubject)
        simp only [emailVerified, hrow]
        exact emailVerified_of_decision hrequired (by rw [hdecision]; nofun)
      | silent hendpoint huser =>
        obtain ⟨id', hsession, hsubject⟩ := hest.sessionUser_of_userId huser
        obtain rfl := Option.some.inj (hid.symm.trans hsubject)
        exact emailVerified_of_session hest hrequired hsession
          (by simpa [meetsGate, hendpoint] using hok)
      | consent hendpoint haction huser =>
        have hboth : consentNamesOwn w i.req i.env = true ∧
            sessionNotDenied past w i.req.session = true := by
          simpa [meetsGate, hendpoint] using hok
        obtain ⟨id', hsession, hsubject⟩ := sessionUser_of_consentNamesOwn hboth.1 haction huser
        rw [hest.directory] at hsubject
        obtain rfl := Option.some.inj (hid.symm.trans hsubject)
        exact emailVerified_of_session hest hrequired hsession hboth.2
      | secondFactor _ htotp hclient hbound =>
        have haccepted := MfaController.acceptedTotp_of_keyed htotp
        have hsubject := hest.subjectUser_totp haccepted
        obtain rfl := Option.some.inj (hid.symm.trans hsubject)
        rw [(Prod.mk.inj hbound).1] at hclient
        exact emailVerified_of_binding hest hrequired haccepted hclient
  intro later sid code past id htrace
  rw [htrace] at halways
  exact halways.split sid code id rfl

def strictConfig : Config := { knownConfig with requireEmailVerification := true }

def turnedAway : List Input :=
  [knownLogin 2 "carol" "correct-horse" (knownEnv 59 0),
   knownLogin 0 "alice" "correct-horse" (knownEnv 59 0), knownAuthorize 0 (knownEnv 60 1)]

theorem verified_only_turnedAway :
    Meets strictConfig (fun past w i => meetsGate past w i = true) turnedAway ∧
    issuedTo (executed strictConfig turnedAway).1.flatten =
      [(0, "1"), (0, "11111111-1111-4111-8111-111111111111")] ∧
    VerifiedOnly knownWorld.directory (executed strictConfig turnedAway).1.flatten := by
  have hrun : Meets strictConfig (fun past w i => meetsGate past w i = true) turnedAway ∧
      issuedTo (executed strictConfig turnedAway).1.flatten =
        [(0, "1"), (0, "11111111-1111-4111-8111-111111111111")] := by
    decide +kernel
  exact ⟨hrun.1, hrun.2, verified_only initial_knownWorld rfl (serverRun_of_meets hrun.1)⟩

def deniedThenSilent : List Input :=
  [knownLogin 2 "carol" "correct-horse" (knownEnv 59 0), knownAuthorize 2 (knownEnv 60 0)]

def deniedCode : OAuth2AuthCode :=
  knownService.authCodeOf
    { clientId := "spa", subject := "3", scope := ""
      redirectUri := "https://spa.example.com/callback"
      codeChallenge := knownChallenge, codeChallengeMethod := "S256", authTime := 59, amr := "pwd" }
    (knownToken 0) 60

/-- The silent path hands out a code for Carol all the same. -/
theorem deniedThenSilent_not_gated :
    Initial knownWorld ∧ strictConfig.requireEmailVerification = true ∧
    ServerRun strictConfig anyRequest knownWorld (executed strictConfig deniedThenSilent).1
      (executed strictConfig deniedThenSilent).2 ∧
    ¬VerifiedOnly knownWorld.directory (executed strictConfig deniedThenSilent).1.flatten := by
  refine ⟨initial_knownWorld, rfl, serverRun_executed _ _, fun hgated => ?_⟩
  obtain ⟨htrace, hcarol, hunverified⟩ :
      (executed strictConfig deniedThenSilent).1.flatten =
          [.codeIssued 2 deniedCode,
           .passwordValidated 2 3 "spa" "https://spa.example.com/callback"
             .DenyEmailNotVerified] ∧
        knownWorld.directory.subjectUser deniedCode.userId = some 3 ∧
        ¬emailVerified knownWorld.directory 3 = true := by
    decide +kernel
  exact hunverified (hgated [] 2 _ _ 3 htrace hcarol)

end AuthForge.EmailGate
