import AuthForge.Identity.MfaService

/-!
# The secret of an active second factor was confirmed

A secret counts as confirmed once a correct code for it was presented. Two statements can put another
one under an active second factor: storing a secret while it is active, and activating it after the
secret that was checked has been replaced. The result is about runs in which neither happens.
-/

namespace AuthForge.ConfirmedSecret

open Identity
open Service hiding program

variable {crypto : IdentityCrypto} {issuerName : String} {s₀ : MfaTable}
  {history : List MfaEvent} {p : Pool (mfaService crypto issuerName)} {tid : Nat} {userId : Int}

/-- A request to enable has read the secret of the user and holds a correct code for it. -/
def Confirmed (crypto : IdentityCrypto) (history : List MfaEvent) (userId : Int) (secret : String) :
    Prop :=
  ∃ tid code env env' data now,
    .called tid (.verifyAndEnable userId code) env ⟨.getMfaData userId, some data⟩ ∈ history ∧
    .called tid (.verifyAndEnable userId code) env' ⟨.nowSeconds, now⟩ ∈ history ∧
    data.secret = secret ∧ Totp.verifyCode crypto secret code now = true

/-- The secret of the user that an answer brought. -/
def readSecret (userId : Int) : Answer MfaCall MfaCall.Resp → Option String
  | ⟨.getMfaData id, some data⟩ => if id = userId then some data.secret else none
  | _ => none

/-- No secret is stored under an active second factor, and it is activated with the secret that the
request has read. -/
def StepKeeps (history : List MfaEvent) (tid : Nat) (s : MfaTable) : Option MfaCall → Prop
  | some (.setSecret userId _) => ∀ row ∈ s.lookup userId, row.enabled = false
  | some (.enable userId _) => ∀ row ∈ s.lookup userId,
      ∀ secret ∈ (answersOf tid history).filterMap (readSecret userId), row.secret = secret
  | _ => True

def KeepsConfirmed : Guard (Pool (mfaService crypto issuerName)) (Input MfaEnv MfaRequest) MfaEvent :=
  fun history p i =>
    match i with
    | .start _ => True
    | .advance tid env => env.fails = false → StepKeeps history tid p.shared (p.next tid)

/-! ### What a request was answered before it activates -/

/-- A request activates only for its own user, with a correct code for what it has read. -/
def Justified (crypto : IdentityCrypto) (request : MfaRequest)
    (answers : List (Answer MfaCall MfaCall.Resp)) : MfaCall → Prop
  | .enable userId _ => ∃ code data now, request = .verifyAndEnable userId code ∧
      ⟨.getMfaData userId, some data⟩ ∈ answers ∧ ⟨.nowSeconds, now⟩ ∈ answers ∧
      Totp.verifyCode crypto data.secret code now = true
  | _ => True

theorem traced_generateBackupCodes {request : MfaRequest} {k : List String → MfaProg}
    (count : Nat) {codes : List String} {answers : List (Answer MfaCall MfaCall.Resp)}
    (hk : ∀ codes later, (k codes).Traced (Justified crypto request) (answers ++ later)) :
    (generateBackupCodes count codes k).Traced (Justified crypto request) answers := by
  induction count generalizing codes answers with
  | zero =>
    have hdone := hk codes []
    rwa [List.append_nil] at hdone
  | succ count ih =>
    refine ⟨trivial, ?_⟩
    intro randomBytes
    refine ih ?_
    intro codes later
    rw [List.append_assoc]
    exact hk codes _

theorem traced_verifyAndEnable (userId : Int) (code : String) :
    (verifyAndEnable crypto userId code).Traced
      (Justified crypto (.verifyAndEnable userId code)) [] := by
  refine ⟨trivial, ?_⟩
  intro found
  cases found with
  | none => trivial
  | some data =>
    dsimp only
    split
    · trivial
    refine ⟨trivial, ?_⟩
    intro now
    dsimp only
    split
    · trivial
    rename_i hcode
    refine traced_generateBackupCodes 10 ?_
    intro codes later
    refine ⟨⟨code, data, now, rfl, ?_, ?_, by simpa using hcode⟩, ?_⟩
    · exact List.mem_append_left later List.mem_cons_self
    · exact List.mem_append_left later (List.mem_cons_of_mem _ List.mem_cons_self)
    · intro ok
      cases ok <;> trivial

theorem traced_program (request : MfaRequest) :
    ((mfaService crypto issuerName).program request).Traced (Justified crypto request) [] := by
  cases request with
  | setupSecret userId accountLabel =>
    refine ⟨trivial, fun _ => ⟨trivial, ?_⟩⟩
    intro ok
    cases ok <;> trivial
  | verifyAndEnable userId code => exact traced_verifyAndEnable userId code
  | verifyLoginCode userId code =>
    refine ⟨trivial, ?_⟩
    intro found
    cases found with
    | none => trivial
    | some data =>
      dsimp only
      split
      · trivial
      · exact ⟨trivial, fun _ => trivial⟩

/-! ### Runs -/

theorem Confirmed.cons {e : MfaEvent} {secret : String} (h : Confirmed crypto history userId secret) :
    Confirmed crypto (e :: history) userId secret := by
  obtain ⟨tid, code, env, env', data, now, hread, htime, hsecret⟩ := h
  exact ⟨tid, code, env, env', data, now, List.mem_cons_of_mem e hread, List.mem_cons_of_mem e htime,
    hsecret⟩

/-- Every secret under an active second factor was confirmed. -/
def AllConfirmed (crypto : IdentityCrypto) (history : List MfaEvent) (s : MfaTable) : Prop :=
  ∀ userId, ∀ data ∈ s.lookup userId, data.enabled = true →
    Confirmed crypto history userId data.secret

theorem AllConfirmed.cons {e : MfaEvent} {s : MfaTable} (h : AllConfirmed crypto history s) :
    AllConfirmed crypto (e :: history) s :=
  fun userId data hdata henabled => (h userId data hdata henabled).cons

/-- In every run that keeps to the condition, the secret under an active second factor was
confirmed. -/
theorem active_secret_confirmed
    (hstart : ∀ userId, ∀ data ∈ s₀.lookup userId, data.enabled = false)
    (hrun : (mfaService crypto issuerName).machine.Run KeepsConfirmed
      ((mfaService crypto issuerName).start s₀) history p) :
    AllConfirmed crypto history p.shared := by
  refine shared_invariant (P := AllConfirmed crypto) ?_ (fun _ _ _ _ ih => ih.cons)
    (fun _ _ ih => ih.cons) ?_ hrun
  · intro userId data hdata henabled
    rw [hstart userId data hdata] at henabled
    cases henabled
  · intro h q tid request env op hexec ih
    cases op with
    | getMfaData | secureRandomBytes | nowSeconds => exact ih.cons
    | setSecret userId secret =>
      intro id data hdata henabled
      rcases MfaTable.lookup_updateRow hdata with hsame | ⟨hup, rfl, old, hold, rfl⟩
      · exact (ih id data hsame henabled).cons
      · have hguarded := hexec.guarded hup
        rw [hexec.next] at hguarded
        have hoff := hguarded old hold
        rw [hoff] at henabled
        cases henabled
    | enable userId hashedBackupCodes =>
      intro id data hdata henabled
      rcases MfaTable.lookup_updateRow hdata with hsame | ⟨hup, rfl, old, hold, rfl⟩
      · exact (ih id data hsame henabled).cons
      · have hguarded := hexec.guarded hup
        rw [hexec.next] at hguarded
        obtain ⟨p', hrun⟩ := hexec.after
        obtain ⟨code, read, now, rfl, hread, htime, hcode⟩ := traced_of_called traced_program hrun
        have hsecret := hguarded old hold read.secret
          (List.mem_filterMap.mpr ⟨_, hread, if_pos rfl⟩)
        obtain ⟨request₁, env₁, hread⟩ := mem_answersOf.mp hread
        obtain ⟨request₂, env₂, htime⟩ := mem_answersOf.mp htime
        obtain rfl := request_unique hrun List.mem_cons_self (List.mem_cons_of_mem _ hread)
        obtain rfl := request_unique hrun List.mem_cons_self (List.mem_cons_of_mem _ htime)
        refine ⟨tid, code, env₁, env₂, read, now, List.mem_cons_of_mem _ hread,
          List.mem_cons_of_mem _ htime, hsecret.symm, ?_⟩
        change Totp.verifyCode crypto old.secret code now = true
        rw [hsecret]
        exact hcode

/-! ### A second setup -/

instance (history : List MfaEvent) (tid : Nat) (s : MfaTable) :
    (call : Option MfaCall) → Decidable (StepKeeps history tid s call)
  | some (.setSecret userId _) =>
    inferInstanceAs (Decidable (∀ row ∈ s.lookup userId, row.enabled = false))
  | some (.enable userId _) =>
    inferInstanceAs (Decidable (∀ row ∈ s.lookup userId,
      ∀ secret ∈ (answersOf tid history).filterMap (readSecret userId), row.secret = secret))
  | some (.getMfaData _) | some (.secureRandomBytes _) | some .nowSeconds | none => .isTrue trivial

instance (history : List MfaEvent) (p : Pool (mfaService crypto issuerName))
    (i : Input MfaEnv MfaRequest) : Decidable (KeepsConfirmed history p i) :=
  match i with
  | .start _ => .isTrue trivial
  | .advance tid env =>
    inferInstanceAs (Decidable (env.fails = false → StepKeeps history tid p.shared (p.next tid)))

/-- The digest of one backup code, and HMAC-SHA1 under twenty zero bytes around the time step zero. -/
def knownCrypto : IdentityCrypto where
  sha256Hex s :=
    if s = "AAAAAAAA" then "c34ab6abb7b2bb595bc25c3b388c872fd1d575819a8f55cc689510285e212385" else ""
  pbkdf2HmacSha256 _ _ _ _ := []
  hmacSha1 key message :=
    if key ≠ List.replicate 20 0 then []
    else if message = List.replicate 8 255 then
      [180, 33, 102, 83, 107, 175, 224, 223, 131, 107, 96, 153, 226, 80, 190, 100, 108, 47, 36, 115]
    else if message = List.replicate 8 0 then
      [218, 182, 154, 217, 142, 40, 118, 79, 151, 126, 226, 72, 126, 79, 63, 104, 115, 178, 162, 151]
    else []

def freshUser : MfaTable := AList.insert 7 {} ∅

def executed (inputs : List (Input MfaEnv MfaRequest)) :
    List MfaEvent × Pool (mfaService knownCrypto "OAuth2Server") :=
  (mfaService knownCrypto "OAuth2Server").machine.exec [] (Service.start _ freshUser) inputs

def steps (tid count : Nat) (byte : UInt8) : List (Input MfaEnv MfaRequest) :=
  List.replicate count (.advance tid { random := List.replicate 20 byte })

/-- A secret of zero bytes is set up, and its code enables it. -/
def setupAndEnable : List (Input MfaEnv MfaRequest) :=
  .start (.setupSecret 7 "ada") :: steps 0 2 0 ++
    .start (.verifyAndEnable 7 "328482") :: steps 1 13 0

def activeSecret (s : MfaTable) : Option String :=
  (s.lookup 7).bind fun data => if data.enabled then some data.secret else none

theorem exists_of_activeSecret {s : MfaTable} {secret : String} (h : activeSecret s = some secret) :
    ∃ data, s.lookup 7 = some data ∧ data.enabled = true ∧ data.secret = secret := by
  unfold activeSecret at h
  obtain ⟨data, hdata, hactive⟩ := Option.bind_eq_some_iff.mp h
  split at hactive
  · rename_i henabled
    exact ⟨data, hdata, henabled, Option.some.inj hactive⟩
  · cases hactive

/-- The user sets up one secret and enables it. -/
theorem active_secret_confirmed_once :
    activeSecret (executed setupAndEnable).2.shared = some "AAAAAAAAAAAAAAAAAAAAAAAAAAAAAAAA" ∧
      AllConfirmed knownCrypto (executed setupAndEnable).1 (executed setupAndEnable).2.shared := by
  obtain ⟨hguarded, hactive⟩ :
      (mfaService knownCrypto "OAuth2Server").machine.Guarded KeepsConfirmed []
          (Service.start _ freshUser) setupAndEnable ∧
        activeSecret (executed setupAndEnable).2.shared =
          some "AAAAAAAAAAAAAAAAAAAAAAAAAAAAAAAA" := by
    decide +kernel
  refine ⟨hactive, active_secret_confirmed ?_ (.exec_of_guarded .init _ hguarded)⟩
  intro userId data hdata
  by_cases huser : userId = 7
  · subst huser
    rw [freshUser, Option.mem_def, AList.lookup_insert] at hdata
    obtain rfl := Option.some.inj hdata
    rfl
  · rw [freshUser, Option.mem_def, AList.lookup_insert_ne huser] at hdata
    cases hdata

/-- The secret of the user that an event has read. -/
def readBy (userId : Int) : MfaEvent → Option String
  | .called _ _ _ a => readSecret userId a
  | .started _ _ | .idle => none

theorem read_of_confirmed {secret : String} (h : Confirmed crypto history userId secret) :
    ∃ e ∈ history, readBy userId e = some secret := by
  obtain ⟨tid, code, env, -, data, -, hread, -, rfl, -⟩ := h
  exact ⟨_, hread, if_pos rfl⟩

/-- Another setup while the second factor is active: nobody has presented a code for the secret that
logins are checked against now. -/
theorem replaced_secret_unconfirmed :
    let r := executed (setupAndEnable ++ .start (.setupSecret 7 "ada") :: steps 2 2 1)
    (mfaService knownCrypto "OAuth2Server").machine.Run anyStep (Service.start _ freshUser) r.1 r.2 ∧
      activeSecret r.2.shared = some "AEAQCAIBAEAQCAIBAEAQCAIBAEAQCAIB" ∧
      ¬AllConfirmed knownCrypto r.1 r.2.shared := by
  intro r
  obtain ⟨hactive, hunread⟩ : activeSecret r.2.shared = some "AEAQCAIBAEAQCAIBAEAQCAIBAEAQCAIB" ∧
      ∀ e ∈ r.1, readBy 7 e ≠ some "AEAQCAIBAEAQCAIBAEAQCAIBAEAQCAIB" := by
    decide +kernel
  refine ⟨Machine.run_exec _ _ _, hactive, ?_⟩
  intro hall
  obtain ⟨data, hdata, henabled, hsecret⟩ := exists_of_activeSecret hactive
  obtain ⟨e, he, hread⟩ := read_of_confirmed (hall 7 data hdata henabled)
  rw [hsecret] at hread
  exact hunread e he hread

end AuthForge.ConfirmedSecret
