import AuthForge.Http.Flow
import AuthForge.Proof.SubjectAuthenticity

/-!
# What the authentication methods of an id_token vouch for

The method string travels from the session onto the code, from the code's record into the id_token,
and decides its `acr`. The second factor writes `pwd mfa` into the session before it looks at the
one-time code, so a session can carry the mark without a verified code, or with the code of another
user. Where that does not happen, every `acr` of 2 goes back to an accepted one-time code of the
subject in the session that issued the code.
-/

namespace AuthForge.AmrSoundness

open Http OAuth2 Identity SubjectAuthenticity

variable {b : Backend}

def hasMfa (amr : String) : Bool := "mfa" ∈ TokenService.amrArray amr

/-- The trace has issued the code with this hash to the subject, in a session that had accepted a
one-time code of the subject before. -/
def Vouched (d : Directory) (trace : List Action) (codeHash subject : String) : Prop :=
  ∃ sid code later earlier id, trace = later ++ .codeIssued sid code :: earlier ∧
    code.code = codeHash ∧ code.userId = subject ∧ d.subjectUser subject = some id ∧
    .totpAccepted sid id ∈ earlier

/-- Every id_token with `acr` 2 is vouched for. -/
def AmrSound (d : Directory) (history : List FlowEvent) : Prop :=
  ∀ later e past codeHash claims, history = later ++ e :: past →
    (codeHash, claims) ∈ e.idTokens → claims.acr = some "2" →
    Vouched d (logOf (e :: past)) codeHash claims.sub

/-! ### The condition on requests -/

def sessionAmr (s : Session) : String := s.amr.getD ""

/-- A second factor that puts the mark into its session has its one-time code accepted, for the
user of the session. -/
def marksJustified (cfg : Config) (w : World b) (req : HttpRequest) (env : RequestEnv) : Bool :=
  let s := w.sessions req.session
  !MfaController.fieldsPresent (MfaController.verifyFields req) || hasMfa (sessionAmr s) ||
    !hasMfa (sessionAmr (MfaController.secondFactorKeys cfg s env.now)) ||
    match MfaController.verifyTotp cfg (MfaController.keyed cfg w req env) env
      (MfaController.verifyFields req) with
    | .error _ => false
    | .ok v => w.sessionUser req.session = some v.userId

/-- A login that leaves the mark of its session in place is one of the session's user. -/
def loginKeepsUser (cfg : Config) (w : World b) (req : HttpRequest) (env : RequestEnv) : Bool :=
  !hasMfa (sessionAmr (w.sessions req.session)) || cfg.sessionOverwrites ||
    match (SessionController.passwordStep cfg env (SessionController.loginFields req) w.users).1 with
    | .accepted result => w.sessionUser req.session = some result.internalId
    | _ => true

/-- The mark is put into a session for its own user only, and from a marked session consents and
logins get codes for that user only. -/
def amrJustified (cfg : Config) (w : World b) : FlowInput → Bool
  | .http i =>
    match i.endpoint with
    | .verifyLogin => marksJustified cfg w i.req i.env
    | .login => loginKeepsUser cfg w i.req i.env
    | .consent =>
      !hasMfa (sessionAmr (w.sessions i.req.session)) || consentNamesOwn w i.req i.env
    | _ => true
  | _ => true

/-! ### The mark of a session -/

variable {cfg : Config} {w₀ w : World b} {i : Input} {trace earlier : List Action}
  {code : OAuth2AuthCode}

theorem hasMfa_empty : hasMfa "" = false := by decide +kernel

theorem hasMfa_pwd : hasMfa "pwd" = false := by decide +kernel

theorem insertKey_pwd_hasMfa {old : Option String}
    (h : hasMfa ((cfg.insertKey old "pwd").getD "") = true) :
    cfg.sessionOverwrites = false ∧ hasMfa (old.getD "") = true ∧
      cfg.insertKey old "pwd" = old := by
  unfold Config.insertKey at h ⊢
  split at h
  · rw [Option.getD_some, hasMfa_pwd] at h
    cases h
  · cases hoverwrites : cfg.sessionOverwrites with
    | true =>
      rw [hoverwrites, if_pos rfl, Option.getD_some, hasMfa_pwd] at h
      cases h
    | false =>
      rw [hoverwrites] at h
      exact ⟨rfl, h, rfl⟩

theorem acr_eq_two {svc : TokenService} {authCode : OAuth2AuthCode} {now : Int}
    (h : (svc.codeIdTokenClaims authCode now).acr = some "2") : hasMfa authCode.amr = true := by
  simp only [TokenService.codeIdTokenClaims] at h
  split at h
  · cases h
  · split at h
    · rename_i hmfa
      simpa [hasMfa] using hmfa
    · simp at h

theorem Vouched.append {d : Directory} {codeHash subject : String}
    (h : Vouched d trace codeHash subject) (later : List Action) :
    Vouched d (later ++ trace) codeHash subject := by
  obtain ⟨sid, code, after, before, id, rfl, hrest⟩ := h
  exact ⟨sid, code, later ++ after, before, id, by simp, hrest⟩

/-- What a run that meets the condition keeps: marked records are vouched for, and a marked session
has a user whose one-time code it accepted. -/
structure Justified (ledger : CodeLedger b.grants) (d : Directory) (trace : List Action)
    (w : World b) : Prop where
  codes : ∀ k subject amr, ledger.stored w.store.grants k = some (subject, amr) →
    hasMfa amr = true → Vouched d trace k subject
  sessions : ∀ sid, hasMfa (sessionAmr (w.sessions sid)) = true →
    ∃ id, w.sessionUser sid = some id ∧ .totpAccepted sid id ∈ trace

variable {ledger : CodeLedger b.grants}

/-! ### Codes that carry the mark -/

theorem issued_justified (hest : Established cfg w₀ trace w)
    (hjust : Justified ledger w₀.directory trace w) (hok : amrJustified cfg w (.http i) = true)
    (hsource : CodeSource cfg w i code earlier) (hmfa : hasMfa code.amr = true) :
    ∃ id, w₀.directory.subjectUser code.userId = some id ∧
      .totpAccepted i.req.session id ∈ earlier ++ trace := by
  cases hsource with
  | @login result users hendpoint haccepts hdecision =>
    obtain ⟨hkept, hmarked, -⟩ := insertKey_pwd_hasMfa hmfa
    obtain ⟨id, huser, htotp⟩ := hjust.sessions _ hmarked
    simp only [amrJustified, hendpoint, loginKeepsUser, haccepts.step, sessionAmr, hmarked, hkept,
      Bool.not_true, Bool.or_self, Bool.false_or, decide_eq_true_eq] at hok
    obtain ⟨-, id', p, hrow, rfl⟩ := haccepts.spec
    obtain rfl : id = id' := Option.some.inj (huser.symm.trans hok)
    rw [hest.directory] at hrow
    exact ⟨id, Directory.subjectUser_publicSub hrow, List.mem_append_right _ htotp⟩
  | silent hendpoint huser =>
    obtain ⟨id, hsession, htotp⟩ := hjust.sessions _ hmfa
    obtain ⟨id', hsession', hsubject⟩ := hest.sessionUser_of_userId huser
    obtain rfl : id = id' := Option.some.inj (hsession.symm.trans hsession')
    exact ⟨id, hsubject, htotp⟩
  | consent hendpoint haction huser =>
    obtain ⟨id, hsession, htotp⟩ := hjust.sessions _ hmfa
    have hmarked : hasMfa (sessionAmr (w.sessions i.req.session)) = true := hmfa
    simp only [amrJustified, hendpoint, hmarked, Bool.not_true, Bool.false_or] at hok
    obtain ⟨id', hsession', hsubject⟩ := sessionUser_of_consentNamesOwn hok haction huser
    obtain rfl : id = id' := Option.some.inj (hsession.symm.trans hsession')
    rw [hest.directory] at hsubject
    exact ⟨id, hsubject, htotp⟩
  | secondFactor hendpoint htotp =>
    have hsubject := hest.subjectUser_totp (MfaController.acceptedTotp_of_keyed htotp)
    exact ⟨_, hsubject, List.mem_append_left _ (List.mem_singleton_self _)⟩

theorem codes_step (hest : Established cfg w₀ trace w)
    (hjust : Justified ledger w₀.directory trace w) (hok : amrJustified cfg w (.http i) = true)
    {k subject amr : String}
    (hstored : ledger.stored (handle cfg w i).world.store.grants k = some (subject, amr))
    (hmfa : hasMfa amr = true) : Vouched w₀.directory ((handle cfg w i).log ++ trace) k subject := by
  rcases handle_ledger ledger hstored with hold | ⟨sid, c, hmem, rfl, hc⟩
  · exact (hjust.codes k subject amr hold hmfa).append _
  · cases hc
    obtain ⟨later, earlier, hlog⟩ := List.append_of_mem hmem
    have hsourced := handle_sourced cfg w i
    rw [hlog] at hsourced
    cases hsourced.split with
    | code hsource =>
      obtain ⟨id, hsubject, htotp⟩ := issued_justified hest hjust hok hsource hmfa
      exact ⟨_, c, later, earlier ++ trace, id, by rw [hlog]; simp, rfl, rfl, hsubject, htotp⟩

/-! ### Sessions that carry the mark -/

section Sessions

open SessionController MfaController

variable {req : HttpRequest} {env : RequestEnv} {o : Outcome b} {sid : Nat}

/-- The part of a session that decides whether it is marked and for whom. -/
def markOf (s : Session) : Option String × Option String := (s.userId, s.amr)

theorem markOf_setSession {s : Session} :
    markOf ((w.setSession sid s).sessions sid) = markOf s := by
  simp [World.setSession]

theorem markOf_setSession_ne {s : Session} {k : Nat} (hne : k ≠ sid) :
    markOf ((w.setSession sid s).sessions k) = markOf (w.sessions k) := by
  simp [World.setSession, Function.update_of_ne hne]

theorem markOf_entered (cfg : Config) (w : World b) (req : HttpRequest) (env : RequestEnv)
    (result : AuthResult) (k : Nat) :
    markOf ((entered cfg w req env result).sessions k) = markOf (w.sessions k) ∨
      markOf ((entered cfg w req env result).sessions k) =
        (cfg.insertKey (w.sessions k).userId (toString result.internalId),
          cfg.insertKey (w.sessions k).amr "pwd") := by
  by_cases hk : k = req.session
  · subst hk
    exact .inr markOf_setSession
  · exact .inl (markOf_setSession_ne hk)

theorem markOf_saveBinding {f : LoginFields} {result : AuthResult} (k : Nat) :
    markOf ((saveBinding cfg w sid f result).sessions k) = markOf (w.sessions k) := by
  by_cases hk : k = sid
  · subst hk
    exact markOf_setSession
  · exact markOf_setSession_ne hk

theorem login_mark (cfg : Config) (w : World b) (req : HttpRequest) (env : RequestEnv) (k : Nat) :
    markOf ((login cfg w req env).world.sessions k) = markOf (w.sessions k) ∨
      ∃ result : AuthResult, markOf ((login cfg w req env).world.sessions k) =
        (cfg.insertKey (w.sessions k).userId (toString result.internalId),
          cfg.insertKey (w.sessions k).amr "pwd") := by
  generalize ho : login cfg w req env = o
  have hcase : LoginCase cfg w req env o := ho ▸ login_cases
  cases hcase with
  | refused => exact .inl rfl
  | @stopped users result =>
    rcases markOf_entered cfg { w with users } req env result k with h | h
    · exact .inl h
    · exact .inr ⟨result, h⟩
  | @bound users result =>
    rcases markOf_entered cfg { w with users } req env result k with h | h
    · exact .inl ((markOf_saveBinding k).trans h)
    · exact .inr ⟨result, (markOf_saveBinding k).trans h⟩
  | @issued users result =>
    rcases markOf_entered cfg { w with users } req env result k with h | h
    · exact .inl h
    · exact .inr ⟨result, h⟩

theorem verifyLogin_of_missing (cfg : Config) (w : World b) (env : RequestEnv)
    (h : fieldsPresent (verifyFields req) = false) :
    ∃ response, verifyLogin cfg w req env = w.answer response := by
  unfold verifyLogin
  simp only
  split
  · exact ⟨_, rfl⟩
  split
  · exact ⟨_, rfl⟩
  rename_i hfirst hsecond
  rw [not_or] at hfirst hsecond
  simp [fieldsPresent, hfirst.1, hfirst.2, hsecond.1, hsecond.2] at h

theorem totpAccepted_mem {v : TotpVerified} (hfields : fieldsPresent (verifyFields req) = true)
    (htotp : verifyTotp cfg (keyed cfg w req env) env (verifyFields req) = .ok v) :
    .totpAccepted req.session v.userId ∈ (verifyLogin cfg w req env).log := by
  simp only [fieldsPresent, Bool.and_eq_true, decide_eq_true_eq] at hfields
  unfold verifyLogin
  simp only
  rw [if_neg (by simp [hfields.1.1.1, hfields.1.1.2]), if_neg (by simp [hfields.1.2, hfields.2]),
    htotp]
  exact List.mem_append_right _ (List.mem_singleton_self _)

theorem markOf_keyed (k : Nat) :
    markOf ((keyed cfg w req env).sessions k) = markOf (w.sessions k) ∨
      k = req.session ∧ markOf ((keyed cfg w req env).sessions k) =
        ((w.sessions k).userId, cfg.insertKey (w.sessions k).amr "pwd mfa") := by
  by_cases hk : k = req.session
  · subst hk
    exact .inr ⟨rfl, markOf_setSession⟩
  · exact .inl (markOf_setSession_ne hk)

theorem verifyLogin_mark (cfg : Config) (w : World b) (req : HttpRequest) (env : RequestEnv)
    (k : Nat) :
    markOf ((verifyLogin cfg w req env).world.sessions k) = markOf (w.sessions k) ∨
      k = req.session ∧ markOf ((verifyLogin cfg w req env).world.sessions k) =
        ((w.sessions k).userId, cfg.insertKey (w.sessions k).amr "pwd mfa") := by
  generalize ho : verifyLogin cfg w req env = o
  have hcase : VerifyCase cfg w req env o := ho ▸ verifyLogin_cases
  cases hcase with
  | refused => exact .inl rfl
  | rejected => exact markOf_keyed k
  | stopped => exact markOf_keyed k
  | issued => exact markOf_keyed k

/-- A session keeps its justification when user and methods stay as they were. -/
theorem session_kept (hjust : Justified ledger w₀.directory trace w) {w' : World b}
    (hdirectory : w'.directory = w.directory) {log : List Action}
    (hmark : markOf (w'.sessions sid) = markOf (w.sessions sid))
    (hmfa : hasMfa (sessionAmr (w'.sessions sid)) = true) :
    ∃ id, w'.sessionUser sid = some id ∧ .totpAccepted sid id ∈ log ++ trace := by
  obtain ⟨huser, hamr⟩ := Prod.mk.inj hmark
  rw [sessionAmr, hamr] at hmfa
  obtain ⟨id, hid, htotp⟩ := hjust.sessions sid hmfa
  refine ⟨id, ?_, List.mem_append_right _ htotp⟩
  rw [World.sessionUser, huser, hdirectory]
  exact hid

theorem login_session (hjust : Justified ledger w₀.directory trace w)
    (hdirectory : (login cfg w req env).world.directory = w.directory)
    (hmfa : hasMfa (sessionAmr ((login cfg w req env).world.sessions sid)) = true) :
    ∃ id, (login cfg w req env).world.sessionUser sid = some id ∧
      .totpAccepted sid id ∈ (login cfg w req env).log ++ trace := by
  rcases login_mark cfg w req env sid with hmark | ⟨result, hmark⟩
  · exact session_kept hjust hdirectory hmark hmfa
  · obtain ⟨huser, hamr⟩ := Prod.mk.inj hmark
    have hmfa' := hmfa
    rw [sessionAmr, hamr] at hmfa'
    obtain ⟨hkept, hmarked, hsame⟩ := insertKey_pwd_hasMfa hmfa'
    obtain ⟨id, hid, -⟩ := hjust.sessions sid hmarked
    -- a marked session has a user, and the key of an existing user is not overwritten either
    refine session_kept hjust hdirectory (hmark.trans ?_) hmfa
    obtain ⟨s, hs, -⟩ := Option.bind_eq_some_iff.mp hid
    rw [hsame, hs, Config.insertKey, hkept]
    exact congrArg (fun u => (u, (w.sessions sid).amr)) hs.symm

theorem verifyLogin_session (hjust : Justified ledger w₀.directory trace w)
    (hok : marksJustified cfg w req env = true)
    (hdirectory : (verifyLogin cfg w req env).world.directory = w.directory)
    (hmfa : hasMfa (sessionAmr ((verifyLogin cfg w req env).world.sessions sid)) = true) :
    ∃ id, (verifyLogin cfg w req env).world.sessionUser sid = some id ∧
      .totpAccepted sid id ∈ (verifyLogin cfg w req env).log ++ trace := by
  rcases verifyLogin_mark cfg w req env sid with hmark | ⟨rfl, hmark⟩
  · exact session_kept hjust hdirectory hmark hmfa
  obtain ⟨huser, hamr⟩ := Prod.mk.inj hmark
  by_cases hmarked : hasMfa (sessionAmr (w.sessions req.session)) = true
  · obtain ⟨id, hid, htotp⟩ := hjust.sessions _ hmarked
    refine ⟨id, ?_, List.mem_append_right _ htotp⟩
    rw [World.sessionUser, huser, hdirectory]
    exact hid
  cases hfields : fieldsPresent (verifyFields req) with
  | false =>
    obtain ⟨response, hsame⟩ := verifyLogin_of_missing cfg w env hfields
    rw [hsame] at hmfa
    exact absurd hmfa hmarked
  | true =>
    have hraised : hasMfa (sessionAmr
        (secondFactorKeys cfg (w.sessions req.session) env.now)) = true := by
      rw [sessionAmr, hamr] at hmfa
      exact hmfa
    simp only [marksJustified, hfields, hmarked, hraised, Bool.not_true, Bool.or_self,
      Bool.false_or] at hok
    split at hok
    · cases hok
    · rename_i v htotp
      refine ⟨v.userId, ?_, List.mem_append_left _ (totpAccepted_mem hfields htotp)⟩
      rw [World.sessionUser, huser, hdirectory]
      exact of_decide_eq_true hok

theorem sessions_of_same (hjust : Justified ledger w₀.directory trace w)
    (hdirectory : o.world.directory = w.directory) (hsessions : o.world.sessions = w.sessions)
    (hmfa : hasMfa (sessionAmr (o.world.sessions sid)) = true) :
    ∃ id, o.world.sessionUser sid = some id ∧ .totpAccepted sid id ∈ o.log ++ trace :=
  session_kept hjust hdirectory (by rw [hsessions]) hmfa

theorem sessions_step (hjust : Justified ledger w₀.directory trace w)
    (hok : amrJustified cfg w (.http i) = true)
    (hmfa : hasMfa (sessionAmr ((handle cfg w i).world.sessions sid)) = true) :
    ∃ id, (handle cfg w i).world.sessionUser sid = some id ∧
      .totpAccepted sid id ∈ (handle cfg w i).log ++ trace := by
  have hdirectory := (handle_effect cfg w i).frame.directory
  unfold handle at hdirectory hmfa ⊢
  cases hendpoint : i.endpoint with
  | login =>
    simp only [hendpoint] at hdirectory hmfa ⊢
    exact login_session hjust hdirectory hmfa
  | verifyLogin =>
    simp only [hendpoint] at hdirectory hmfa ⊢
    simp only [amrJustified, hendpoint] at hok
    exact verifyLogin_session hjust hok hdirectory hmfa
  | authorize =>
    simp only [hendpoint] at hdirectory hmfa ⊢
    refine sessions_of_same hjust hdirectory ?_ hmfa
    generalize ho : AuthorizationEndpoint.authorize cfg w i.req i.env = o
    have hcase : AuthorizationEndpoint.AuthorizeCase cfg w i.req i.env o :=
      ho ▸ AuthorizationEndpoint.authorize_cases
    cases hcase <;> rfl
  | consent =>
    simp only [hendpoint] at hdirectory hmfa ⊢
    refine sessions_of_same hjust hdirectory ?_ hmfa
    generalize ho : consent cfg w i.req i.env = o
    have hcase : ConsentCase cfg w i.req i.env o := ho ▸ consent_cases
    cases hcase <;> rfl
  | deviceAuthorization =>
    simp only [hendpoint] at hdirectory hmfa ⊢
    refine sessions_of_same hjust hdirectory ?_ hmfa
    generalize ho : DeviceGrant.deviceAuthorization cfg w i.req i.env = o
    have hcase : DeviceGrant.DeviceAuthorizationCase w i.req i.env o :=
      ho ▸ DeviceGrant.deviceAuthorization_cases
    cases hcase <;> rfl
  | approveDevice =>
    simp only [hendpoint] at hdirectory hmfa ⊢
    refine sessions_of_same hjust hdirectory ?_ hmfa
    generalize ho : DeviceGrant.approveDevice w i.req i.env = o
    have hcase : DeviceGrant.ApproveCase w i.req o := ho ▸ DeviceGrant.approveDevice_cases
    cases hcase <;> rfl
  | deviceToken =>
    simp only [hendpoint] at hdirectory hmfa ⊢
    refine sessions_of_same hjust hdirectory ?_ hmfa
    generalize ho : DeviceGrant.deviceToken cfg w i.req i.env = o
    have hcase : DeviceGrant.PollCase cfg w i.env o := ho ▸ DeviceGrant.deviceToken_cases
    cases hcase <;> rfl

end Sessions

/-! ### Runs -/

variable {past : List FlowEvent} {x : PendingExchange b} {input : FlowInput}

theorem Justified.flowStep (hest : Established cfg w₀ (logOf past) w)
    (hjust : Justified ledger w₀.directory (logOf past) w)
    (hok : amrJustified cfg w input = true) :
    Justified ledger w₀.directory (logOf ((flowStep cfg w input).2 :: past))
      (flowStep cfg w input).1 := by
  cases input with
  | http i =>
    refine ⟨?_, ?_⟩
    · intro k subject amr hstored hmfa
      exact codes_step hest hjust hok hstored hmfa
    · intro sid hmfa
      exact sessions_step hjust hok hmfa
  | exchange r env =>
    refine ⟨?_, hjust.sessions⟩
    intro k subject amr hstored hmfa
    refine hjust.codes k subject amr ?_ hmfa
    have hsaved : SavedOnly b.repos.grants fun s => ledger.stored s k = some (subject, amr) :=
      ledger.savedOnly k (subject, amr)
    exact hsaved.eval (onlyExchange_noSave r) hstored
  | refresh r env =>
    refine ⟨?_, hjust.sessions⟩
    intro k subject amr hstored hmfa
    refine hjust.codes k subject amr ?_ hmfa
    have hsaved : SavedOnly b.repos.grants fun s => ledger.stored s k = some (subject, amr) :=
      ledger.savedOnly k (subject, amr)
    exact hsaved.eval (onlyRefresh_noSave r) hstored

/-- A marked record that an exchange hands out is vouched for when the marked records of the store
it meets are. -/
theorem vouched_of_consumed (ledger : CodeLedger b.grants) {svc : TokenService} {d : Directory} {authCode : OAuth2AuthCode}
    (hcodes : ∀ k subject amr, ledger.stored x.store.grants k = some (subject, amr) →
      hasMfa amr = true → Vouched d trace k subject)
    (hconsumed : x.consumed svc = some authCode) (hmfa : hasMfa authCode.amr = true) :
    Vouched d trace (x.codeHash svc) authCode.userId := by
  rcases ledger.consumed hconsumed with hempty | hstored
  · rw [hempty, hasMfa_empty] at hmfa
    cases hmfa
  · exact hcodes _ _ _ hstored hmfa

/-- The records that the second factor's own exchange meets. -/
theorem secondFactor_codes (hest : Established cfg w₀ trace w)
    (hjust : Justified ledger w₀.directory trace w) {v : MfaController.TotpVerified}
    (hissuing : MfaController.issuing cfg w i.req i.env = some v) {k subject amr : String}
    (hstored : ledger.stored (MfaController.codeSaved cfg w i.req i.env v).store.grants k =
      some (subject, amr)) (hmfa : hasMfa amr = true) :
    Vouched w₀.directory ((MfaController.verifyLogin cfg w i.req i.env).log ++ trace) k subject := by
  rcases stored_saveCode ledger hstored with hold | ⟨rfl, hnew⟩
  · exact (hjust.codes k subject amr hold hmfa).append _
  · cases hnew
    obtain ⟨htotp, -, -⟩ := MfaController.issuing_eq_some.mp hissuing
    have hsubject := hest.subjectUser_totp (MfaController.acceptedTotp_of_keyed htotp)
    rw [MfaController.verifyLogin_of_issuing hissuing]
    generalize MfaController.exchangeIssued cfg (MfaController.codeSaved cfg w i.req i.env v)
      i.req.session i.env (MfaController.verifyFields i.req) v (i.env.generate 0).random = redeemed
    refine ⟨i.req.session, MfaController.mfaCode cfg w i.req i.env v, redeemed.log,
      .totpAccepted i.req.session v.userId :: trace, v.userId, ?_, rfl, rfl, hsubject,
      List.mem_cons_self⟩
    simp only [Outcome.after, List.append_assoc, List.cons_append, List.nil_append]

theorem vouched_of_idToken (hest : Established cfg w₀ (logOf past) w)
    (hjust : Justified ledger w₀.directory (logOf past) w) {codeHash : String}
    {claims : IdTokenClaims} (hmem : (codeHash, claims) ∈ (flowStep cfg w input).2.idTokens)
    (hacr : claims.acr = some "2") :
    Vouched w₀.directory (logOf ((flowStep cfg w input).2 :: past)) codeHash claims.sub := by
  cases input with
  | http i =>
    have hmem' : (codeHash, claims) ∈ idTokensOf cfg.tokenService (exchangeOf cfg w (.http i)) := hmem
    obtain ⟨x, authCode, hx, rfl, hconsumed, rfl⟩ := mem_idTokensOf hmem'
    have hmfa := acr_eq_two hacr
    unfold exchangeOf at hx
    cases hendpoint : i.endpoint with
    | verifyLogin =>
      simp only [hendpoint, secondFactorExchange, Option.map_eq_some_iff] at hx
      obtain ⟨v, hissuing, rfl⟩ := hx
      refine vouched_of_consumed ledger ?_ hconsumed hmfa
      intro k subject amr hstored hmfa'
      have hlog : (Http.flowStep cfg w (.http i)).2.log =
          (MfaController.verifyLogin cfg w i.req i.env).log := by
        simp only [Http.flowStep, handle, hendpoint]
      rw [logOf, List.flatMap_cons, hlog]
      exact secondFactor_codes hest hjust hissuing hstored hmfa'
    | _ => simp [hendpoint] at hx
  | exchange r env =>
    have hmem' : (codeHash, claims) ∈ idTokensOf cfg.tokenService
      (exchangeOf cfg w (.exchange r env)) := hmem
    obtain ⟨x, authCode, hx, rfl, hconsumed, rfl⟩ := mem_idTokensOf hmem'
    obtain rfl := Option.some.inj hx
    exact vouched_of_consumed ledger hjust.codes hconsumed (acr_eq_two hacr)
  | refresh r env => cases hmem

/-- In a run that starts without codes and marks sessions for their own verified users only, every
id_token with `acr` 2 goes back to a code issued in a session that had accepted a one-time code of
the subject. -/
theorem amr_sound (ledger : CodeLedger b.grants) (hinitial : Initial w₀)
    (hempty : ∀ k, ledger.stored w₀.store.grants k = none) {history : List FlowEvent}
    (hrun : FlowRun cfg (fun _ w input => amrJustified cfg w input = true) w₀ history w) :
    AmrSound w₀.directory history := by
  have hall : (Established cfg w₀ (logOf history) w ∧
      Justified ledger w₀.directory (logOf history) w) ∧
      Always (fun past e => ∀ codeHash claims, (codeHash, claims) ∈ e.idTokens →
        claims.acr = some "2" → Vouched w₀.directory (logOf (e :: past)) codeHash claims.sub)
        history := by
    refine Machine.Run.invariant (fun h w => (Established cfg w₀ (logOf h) w ∧
      Justified ledger w₀.directory (logOf h) w) ∧ Always _ h) ⟨⟨hinitial.established, ?_⟩, trivial⟩
      ?_ hrun
    · refine ⟨?_, ?_⟩
      · intro k subject amr hstored
        rw [hempty] at hstored
        cases hstored
      · intro sid hmfa
        rw [hinitial.sessions, sessionAmr, Option.getD_none, hasMfa_empty] at hmfa
        cases hmfa
    · intro h w input _ hinv hok
      obtain ⟨⟨hest, hjust⟩, halways⟩ := hinv
      refine ⟨⟨hest.flowStep input, Justified.flowStep hest hjust hok⟩, ?_, halways⟩
      intro codeHash claims hmem hacr
      exact vouched_of_idToken hest hjust hmem hacr
  intro later e past codeHash claims hhistory
  have halways := hall.2
  rw [hhistory] at halways
  exact halways.split codeHash claims

/-! ### Bob's second factor, and a failed one in Alice's session -/

def signingConfig (sessionOverwrites : Bool) : Config :=
  { knownConfig with
    tokenService := { knownService with signJwt := some fun _ => "header.claims.signature" }
    sessionOverwrites }

/-- Alice has agreed to `openid` before, and the key of her session is a mapped subject. -/
def consentedWorld : World knownBackend :=
  { knownWorld with
    consents := [(1, "spa", "openid")]
    mappings := knownWorld.mappings.insert ("local", "1") 1 }

theorem initial_consentedWorld : Initial consentedWorld :=
  ⟨initial_knownWorld.sessions, initial_knownWorld.pending, initial_knownWorld.deviceCodes⟩

theorem recorded_consentedWorld (k : String) :
    Storage.Memory.codeLedger.stored consentedWorld.store.grants k = none :=
  rfl

def bobFlow : List FlowInput :=
  [.http (knownLogin 1 "bob" "battery-staple" (knownEnv 59 0)), .http (knownVerify 1 (knownEnv 59 0))]

def acrIssued (history : List FlowEvent) : List (String × Option String) :=
  history.flatMap fun e => e.idTokens.map fun t => (t.2.sub, t.2.acr)

theorem amr_sound_bobFlow :
    Initial consentedWorld ∧
    (∀ k, Storage.Memory.codeLedger.stored consentedWorld.store.grants k = none) ∧
    (flow knownBackend (signingConfig true)).Guarded
      (fun _ w input => amrJustified (signingConfig true) w input = true) [] consentedWorld bobFlow ∧
    acrIssued (flowExecuted (signingConfig true) consentedWorld bobFlow).1 =
      [("22222222-2222-4222-8222-222222222222", some "2")] ∧
    AmrSound consentedWorld.directory (flowExecuted (signingConfig true) consentedWorld bobFlow).1 := by
  have hrun : (flow knownBackend (signingConfig true)).Guarded
      (fun _ w input => amrJustified (signingConfig true) w input = true) [] consentedWorld bobFlow ∧
      acrIssued (flowExecuted (signingConfig true) consentedWorld bobFlow).1 =
        [("22222222-2222-4222-8222-222222222222", some "2")] := by
    decide +kernel
  exact ⟨initial_consentedWorld, recorded_consentedWorld, hrun.1, hrun.2,
    amr_sound Storage.Memory.codeLedger initial_consentedWorld recorded_consentedWorld
      (flowRun_of_guarded hrun.1)⟩

def wrongFactor (env : RequestEnv) : Input where
  endpoint := .verifyLogin
  req :=
    { session := 1
      params := paramsOf
        [("mfa_token", "2"), ("code", "000000"), ("client_id", "spa"),
         ("redirect_uri", "https://spa.example.com/callback")] }
  env := env

def openidAuthorize (env : RequestEnv) : Input where
  endpoint := .authorize
  req :=
    { session := 1
      params := paramsOf
        [("response_type", "code"), ("client_id", "spa"), ("scope", "openid"),
         ("redirect_uri", "https://spa.example.com/callback"), ("state", "state123"),
         ("code_challenge", knownChallenge), ("code_challenge_method", "S256")] }
  env := env

/-- Refused second factors around Alice's login, a silent authorization, and the exchange. -/
def failedFactors : List FlowInput :=
  [.http (wrongFactor (knownEnv 59 0)), .http (knownLogin 1 "alice" "correct-horse" (knownEnv 59 0)),
   .http (wrongFactor (knownEnv 59 0)), .http (openidAuthorize (knownEnv 60 1)),
   .exchange (knownExchange 1) fun n => { now := 61, random := knownToken n }]

def isTotpAccepted : Action → Bool
  | .totpAccepted _ _ => true
  | _ => false

theorem failedFactors_acr (sessionOverwrites : Bool) :
    acrIssued (flowExecuted (signingConfig sessionOverwrites) consentedWorld failedFactors).1 =
        [("1", some "2")] ∧
      (logOf (flowExecuted (signingConfig sessionOverwrites) consentedWorld failedFactors).1).any
        isTotpAccepted = false := by
  revert sessionOverwrites
  decide +kernel

theorem mem_acrIssued {history : List FlowEvent} {subject : String} {acr : Option String}
    (h : (subject, acr) ∈ acrIssued history) :
    ∃ e ∈ history, ∃ codeHash claims, (codeHash, claims) ∈ e.idTokens ∧ claims.sub = subject ∧
      claims.acr = acr := by
  obtain ⟨e, he, hmem⟩ := List.mem_flatMap.mp h
  obtain ⟨t, ht, heq⟩ := List.mem_map.mp hmem
  cases heq
  exact ⟨e, he, t.1, t.2, ht, rfl, rfl⟩

theorem not_amrSound_of_unverified {d : Directory} {history : List FlowEvent} {subject : String}
    (hacr : (subject, some "2") ∈ acrIssued history)
    (htotp : (logOf history).any isTotpAccepted = false) : ¬AmrSound d history := by
  intro hsound
  obtain ⟨e, he, codeHash, claims, hmem, -, htwo⟩ := mem_acrIssued hacr
  obtain ⟨later, past, rfl⟩ := List.append_of_mem he
  obtain ⟨sid, code, after, before, id, htrace, -, -, -, haccepted⟩ :=
    hsound later e past codeHash claims rfl hmem htwo
  have hlog : .totpAccepted sid id ∈ logOf (later ++ e :: past) := by
    rw [logOf, List.flatMap_append]
    refine List.mem_append_right _ ?_
    change _ ∈ logOf (e :: past)
    rw [htrace]
    exact List.mem_append_right _ (List.mem_cons_of_mem _ haccepted)
  have := List.any_eq_false.mp htotp _ hlog
  simp [isTotpAccepted] at this

/-- Alice's id_token says that she used a second factor, whichever way the session keeps its
keys. -/
theorem failedFactors_not_sound :
    Initial consentedWorld ∧
    FlowRun (signingConfig false) anyStep consentedWorld
      (flowExecuted (signingConfig false) consentedWorld failedFactors).1
      (flowExecuted (signingConfig false) consentedWorld failedFactors).2 ∧
    ¬AmrSound consentedWorld.directory
      (flowExecuted (signingConfig false) consentedWorld failedFactors).1 ∧
    FlowRun (signingConfig true) anyStep consentedWorld
      (flowExecuted (signingConfig true) consentedWorld failedFactors).1
      (flowExecuted (signingConfig true) consentedWorld failedFactors).2 ∧
    ¬AmrSound consentedWorld.directory
      (flowExecuted (signingConfig true) consentedWorld failedFactors).1 := by
  have hunsound : ∀ sessionOverwrites, ¬AmrSound consentedWorld.directory
      (flowExecuted (signingConfig sessionOverwrites) consentedWorld failedFactors).1 := by
    intro sessionOverwrites
    obtain ⟨hacr, htotp⟩ := failedFactors_acr sessionOverwrites
    have hmem : ("1", some "2") ∈ acrIssued
        (flowExecuted (signingConfig sessionOverwrites) consentedWorld failedFactors).1 := by
      rw [hacr]
      exact List.mem_singleton_self _
    exact not_amrSound_of_unverified hmem htotp
  exact ⟨initial_consentedWorld, flowRun_executed _ _ _, hunsound false, flowRun_executed _ _ _,
    hunsound true⟩

end AuthForge.AmrSoundness
