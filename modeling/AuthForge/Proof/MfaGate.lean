import AuthForge.Proof.SubjectAuthenticity

/-!
# No code before the second factor

The login policy stops a login that needs a second factor, but the session already names the user
by then. The silent path and the consent handler look at the session only, so the gate holds in the
runs that send these two from a session of such a user only after its second factor.
-/

namespace AuthForge.MfaGate

open Http OAuth2 Identity SubjectAuthenticity

variable {b : Backend}

def mfaEnabled (d : Directory) (id : Int) : Bool :=
  match d.users.table.lookup id with
  | none => false
  | some p => p.mfaEnabled

/-- In the session, a one-time code of the user was accepted after the password step, and no
password step of the user comes after it. -/
def BothFactors (sid : Nat) (id : Int) (past : List Action) : Prop :=
  ∃ since before, past = since ++ .totpAccepted sid id :: before ∧
    (∃ clientId redirectUri decision,
      .passwordValidated sid id clientId redirectUri decision ∈ before) ∧
    ∀ clientId redirectUri decision,
      .passwordValidated sid id clientId redirectUri decision ∉ since

/-- A code for a user with a second factor comes after both factors of that user in the session
that sent the request. -/
def SecondFactorFirst (d : Directory) (trace : List Action) : Prop :=
  ∀ later sid code past id, trace = later ++ .codeIssued sid code :: past →
    d.subjectUser code.userId = some id → mfaEnabled d id = true → BothFactors sid id past

/-! ### The condition on requests -/

/-- Of the password steps and accepted one-time codes of a user in a session, the newest is a
one-time code. -/
def secondFactorDone (sid : Nat) (id : Int) : List Action → Bool
  | [] => false
  | .totpAccepted k u :: past => k = sid && u = id || secondFactorDone sid id past
  | .passwordValidated k u _ _ _ :: past => !(k = sid && u = id) && secondFactorDone sid id past
  | _ :: past => secondFactorDone sid id past

def sessionCleared (past : List Action) (w : World b) (sid : Nat) : Bool :=
  match w.sessionUser sid with
  | none => true
  | some id => !mfaEnabled w.directory id || secondFactorDone sid id past

/-- Requests name their own user, and the two that trust the session come from a cleared one. -/
def meetsGate (cfg : Config) (past : List Action) (w : World b) (i : Input) : Bool :=
  namesOwnUser cfg w i &&
    match i.endpoint with
    | .authorize => sessionCleared past w i.req.session
    | .consent => sessionCleared past w i.req.session
    | _ => true

variable {cfg : Config} {w₀ w : World b} {sid : Nat} {id : Int} {past : List Action}

theorem split_of_secondFactorDone (h : secondFactorDone sid id past = true) :
    ∃ since before, past = since ++ .totpAccepted sid id :: before ∧
      ∀ clientId redirectUri decision,
        .passwordValidated sid id clientId redirectUri decision ∉ since := by
  -- an entry of another kind or user is put in front of the split of the rest
  have hcons : ∀ (a : Action) (rest : List Action),
      (∀ c r d, a ≠ .passwordValidated sid id c r d) →
      (∃ since before, rest = since ++ .totpAccepted sid id :: before ∧
        ∀ c r d, .passwordValidated sid id c r d ∉ since) →
      ∃ since before, a :: rest = since ++ .totpAccepted sid id :: before ∧
        ∀ c r d, .passwordValidated sid id c r d ∉ since := by
    intro a rest ha h
    obtain ⟨since, before, rfl, hsince⟩ := h
    refine ⟨a :: since, before, rfl, ?_⟩
    intro c r d hmem
    rcases List.mem_cons.mp hmem with heq | hmem
    · exact ha c r d heq.symm
    · exact hsince c r d hmem
  induction past with
  | nil => cases h
  | cons a past ih =>
    cases a with
    | totpAccepted k u =>
      rw [secondFactorDone, Bool.or_eq_true, Bool.and_eq_true, decide_eq_true_eq,
        decide_eq_true_eq] at h
      rcases h with ⟨rfl, rfl⟩ | h
      · exact ⟨[], past, rfl, fun _ _ _ hmem => by cases hmem⟩
      · exact hcons _ past (fun _ _ _ heq => by cases heq) (ih h)
    | passwordValidated k u c r d =>
      rw [secondFactorDone, Bool.and_eq_true] at h
      refine hcons _ past ?_ (ih h.2)
      intro c' r' d' heq
      cases heq
      simp at h
    | _ => exact hcons _ past (fun _ _ _ heq => by cases heq) (ih h)

theorem bothFactors_of_sessionCleared (hest : Established cfg w₀ past w)
    (huser : w.sessionUser sid = some id) (hmfa : mfaEnabled w₀.directory id = true)
    (hcleared : sessionCleared past w sid = true) : BothFactors sid id past := by
  have hdone : secondFactorDone sid id past = true := by
    simpa [sessionCleared, huser, hest.directory, hmfa] using hcleared
  obtain ⟨since, before, rfl, hsince⟩ := split_of_secondFactorDone hdone
  obtain ⟨c, r, d, hmem⟩ := (hest.sessionUser huser).1
  refine ⟨since, before, rfl, ⟨c, r, d, ?_⟩, hsince⟩
  rcases List.mem_append.mp hmem with hmem | hmem
  · exact absurd hmem (hsince c r d)
  · rcases List.mem_cons.mp hmem with heq | hmem
    · cases heq
    · exact hmem

theorem mfaEnabled_eq_false_of_proceed {p : Profile} {requireEmailVerification : Bool}
    (h : evaluateLoginPolicy (authResultOf id p) requireEmailVerification = .Proceed) :
    p.mfaEnabled = false := by
  unfold evaluateLoginPolicy at h
  split at h
  · cases h
  split at h
  · cases h
  · rename_i hmfa
    simpa [authResultOf] using hmfa

/-- In a run that meets the condition, no code for a user with a second factor is issued before
that factor is completed. -/
theorem second_factor_first (hinitial : Initial w₀) {history : List (List Action)}
    (hrun : ServerRun cfg (fun past w i => meetsGate cfg past w i = true) w₀ history w) :
    SecondFactorFirst w₀.directory history.flatten := by
  have halways : Always (fun past a => ∀ sid code id, a = .codeIssued sid code →
      w₀.directory.subjectUser code.userId = some id → mfaEnabled w₀.directory id = true →
      BothFactors sid id past) history.flatten := by
    refine ServerRun.always (fun _ _ => True) hinitial trivial (fun _ _ _ _ _ _ => trivial) ?_ hrun
    intro past w i earlier a hest _ hok hsourced sid code id heq hid hmfa
    obtain rfl := heq
    rw [meetsGate, Bool.and_eq_true] at hok
    cases hsourced with
    | code hsource =>
      obtain ⟨id', hsubject, hissued⟩ := issuedFor_of_source hest hok.1 hsource
      obtain rfl := Option.some.inj (hid.symm.trans hsubject)
      cases hissued with
      | login _ hrow hdecision =>
        simp only [mfaEnabled, hrow, mfaEnabled_eq_false_of_proceed hdecision] at hmfa
        cases hmfa
      | session hendpoint huser =>
        have hcleared : sessionCleared past w i.req.session = true := by
          rcases hendpoint with hendpoint | hendpoint <;> simpa [hendpoint] using hok.2
        exact bothFactors_of_sessionCleared hest huser hmfa hcleared
      | secondFactor _ huser =>
        exact ⟨[], past, rfl, (hest.sessionUser huser).1, fun _ _ _ hmem => by cases hmem⟩
  intro later sid code past id htrace
  rw [htrace] at halways
  exact halways.split sid code id rfl

def bobRun : List Input :=
  [knownLogin 1 "bob" "battery-staple" (knownEnv 59 0), knownVerify 1 (knownEnv 59 0),
   knownAuthorize 1 (knownEnv 60 3)]

theorem second_factor_first_bobRun :
    Meets knownConfig (fun past w i => meetsGate knownConfig past w i = true) bobRun ∧
    issuedTo (executed knownConfig bobRun).1.flatten =
      [(1, "2"), (1, "22222222-2222-4222-8222-222222222222")] ∧
    SecondFactorFirst knownWorld.directory (executed knownConfig bobRun).1.flatten := by
  have hrun : Meets knownConfig (fun past w i => meetsGate knownConfig past w i = true) bobRun ∧
      issuedTo (executed knownConfig bobRun).1.flatten =
        [(1, "2"), (1, "22222222-2222-4222-8222-222222222222")] := by
    decide +kernel
  exact ⟨hrun.1, hrun.2, second_factor_first initial_knownWorld (serverRun_of_meets hrun.1)⟩

def skippedFactor : List Input :=
  [knownLogin 1 "bob" "battery-staple" (knownEnv 59 0), knownAuthorize 1 (knownEnv 60 0)]

def skippedCode : OAuth2AuthCode :=
  knownService.authCodeOf
    { clientId := "spa", subject := "2", scope := ""
      redirectUri := "https://spa.example.com/callback"
      codeChallenge := knownChallenge, codeChallengeMethod := "S256", authTime := 59, amr := "pwd" }
    (knownToken 0) 60

/-- The silent path hands out a code for Bob without his second factor. -/
theorem skippedFactor_not_gated :
    Initial knownWorld ∧
    ServerRun knownConfig anyRequest knownWorld (executed knownConfig skippedFactor).1
      (executed knownConfig skippedFactor).2 ∧
    ¬SecondFactorFirst knownWorld.directory (executed knownConfig skippedFactor).1.flatten := by
  refine ⟨initial_knownWorld, serverRun_executed _ _, fun hgated => ?_⟩
  obtain ⟨htrace, hbob, hmfa⟩ :
      (executed knownConfig skippedFactor).1.flatten =
          [.codeIssued 1 skippedCode,
           .bindingSaved 1 2 "spa" "https://spa.example.com/callback",
           .passwordValidated 1 2 "spa" "https://spa.example.com/callback" .RequireMfa] ∧
        knownWorld.directory.subjectUser skippedCode.userId = some 2 ∧
        mfaEnabled knownWorld.directory 2 = true := by
    decide +kernel
  obtain ⟨since, before, hpast, -⟩ := hgated [] 1 _ _ 2 htrace hbob hmfa
  have hmem : .totpAccepted 1 2 ∈ since ++ .totpAccepted 1 2 :: before :=
    List.mem_append_right _ List.mem_cons_self
  rw [← hpast] at hmem
  simp at hmem

end AuthForge.MfaGate
