import AuthForge.Admin.UserAdmin
import AuthForge.Http.Flow

/-!
# What a disabled user can still get

Disabling a user locks the row for ever, and the password step and the second factor refuse a locked
row. Nothing else reads the lock: a session, a code, a refresh token or an approved device code that
the user already has is honoured as before. So a flow issues something for a disabled user only
where a step presents such a credential.
-/

namespace AuthForge.DisabledUsers

open Http OAuth2 Identity Admin SessionController AuthorizationEndpoint MfaController DeviceGrant

variable {b : Backend}

/-! ### Who gets what -/

def subjectOf : Action → Option String
  | .codeIssued _ code => some code.userId
  | .pairIssued access => some access.userId
  | _ => none

/-- The subjects of the codes and tokens that a step hands to the repositories. The log names a
device pair by its access token; the refresh token beside it has the same subject. -/
def issuedSubjects (e : FlowEvent) : List String :=
  e.log.filterMap subjectOf ++ e.pairs.flatMap fun pair => [pair.1.userId, pair.2.userId]

/-- The device code that a poll names, once it is approved. -/
def approvedRow (cfg : Config) (w : World b) (req : HttpRequest) : Option DeviceCode :=
  (w.deviceCodes.lookup (hashToken cfg.tokenService.crypto (req.getParameter "device_code"))).filter
    fun row => row.status = .approved

/-- The subjects of the credentials that a request presents, other than a password or a one-time
code. -/
def presentedTo (cfg : Config) (w : World b) (i : Http.Input) : List String :=
  match i.endpoint with
  | .authorize => (w.sessions i.req.session).userId.toList
  | .consent => [(consentFields i.req).userId]
  | .deviceToken => ((approvedRow cfg w i.req).map DeviceCode.userId).toList
  | _ => []

def consumedSubjects (cfg : Config) (x : Option (PendingExchange b)) : List String :=
  ((x.bind fun x => x.consumed cfg.tokenService).map OAuth2AuthCode.userId).toList

def rotatedToken (cfg : Config) (w : World b) (r : RefreshRequest) (env : Nat → Env) :
    Option OAuth2RefreshToken :=
  (b.tokens.atomicRevokeRefreshToken (env 0) (hashToken cfg.tokenService.crypto r.refreshToken)
    w.store.tokens).1

/-- The subjects of what a step presents: a session, a code, a refresh token, a device code. -/
def presented (cfg : Config) (w : World b) (i : FlowInput) : List String :=
  match i with
  | .http i => presentedTo cfg w i ++ consumedSubjects cfg (exchangeOf cfg w (.http i))
  | .exchange request env => consumedSubjects cfg (exchangeOf cfg w (.exchange request env))
  | .refresh r env => ((rotatedToken cfg w r env).map OAuth2RefreshToken.userId).toList

/-- The clocks that a step reads have not reached the sentinel. -/
def beforeSentinel : FlowInput → Bool
  | .http i => i.env.now < kLockedForeverSentinel && i.env.auth.now < kLockedForeverSentinel
  | _ => true

/-- A step that presents nothing of the user's. -/
def Foreign (cfg : Config) (u : Int) : FlowGuard b := fun _ w i =>
  beforeSentinel i = true ∧ ∀ sub ∈ presented cfg w i, w.directory.subjectUser sub ≠ some u

instance {cfg : Config} {u : Int} {past : List FlowEvent} {w : World b} {i : FlowInput} :
    Decidable (Foreign cfg u past w i) :=
  inferInstanceAs (Decidable (_ ∧ _))

/-- Nothing that the history issued is the user's. -/
def NothingFor (d : Directory) (u : Int) (history : List FlowEvent) : Prop :=
  ∀ e ∈ history, ∀ sub ∈ issuedSubjects e, d.subjectUser sub ≠ some u

/-! ### Locked rows -/

def LockedForever (u : Int) (rows : Dict Int UserRow) : Prop :=
  ∃ row, rows.lookup u = some row ∧ row.lockedUntil = kLockedForeverSentinel

/-- A user whom the lock does not stop at the given time. -/
def Unlocked (t : UserTable) (now : Int) (id : Int) : Prop :=
  ∃ row, t.rows.lookup id = some row ∧ row.lockedUntil ≤ now

variable {u id : Int} {t : UserTable} {now : Int}

theorem ne_of_unlocked (hlocked : LockedForever u t.rows) (hnow : now < kLockedForeverSentinel)
    (h : Unlocked t now id) : id ≠ u := by
  obtain ⟨row, hrow, hforever⟩ := hlocked
  obtain ⟨row', hrow', hle⟩ := h
  intro heq
  subst heq
  obtain rfl := Option.some.inj (hrow.symm.trans hrow')
  omega

theorem LockedForever.update {rows : Dict Int UserRow} {f : UserRow → UserRow}
    (hlocked : LockedForever u rows)
    (hkept : id = u → ∀ row, (f row).lockedUntil = row.lockedUntil) :
    LockedForever u (rows.mapValues fun k row => if k = id then f row else row) := by
  obtain ⟨row, hrow, hforever⟩ := hlocked
  refine ⟨if u = id then f row else row, ?_, ?_⟩
  · rw [Dict.lookup_mapValues, hrow]
    rfl
  · split
    · rename_i heq
      rw [hkept heq.symm, hforever]
    · exact hforever

/-! ### The disabling -/

theorem post_isLastActiveAdmin {Q : UserReply → IdentityStore → Prop} {userId : Int}
    {onDone : Bool → UserProg} {onError : UserProg} {s : IdentityStore}
    (hdone : ∀ lastAdmin s', s'.users = s.users → (onDone lastAdmin).Post IdentityStore.exec Q s')
    (herror : ∀ s', s'.users = s.users → onError.Post IdentityStore.exec Q s') :
    (isLastActiveAdmin userId onDone onError).Post IdentityStore.exec Q s := by
  intro e
  dsimp only [IdentityStore.exec, IdentityStore.statement]
  split
  · exact herror _ rfl
  · exact hdone _ _ rfl
  intro e
  dsimp only [IdentityStore.exec, IdentityStore.statement]
  split
  · exact herror _ rfl
  split
  · exact hdone _ _ rfl
  split
  · exact hdone _ _ rfl
  intro e e
  dsimp only [IdentityStore.exec, IdentityStore.statement]
  split
  · exact herror _ rfl
  · exact hdone _ _ rfl

/-- A disable that reports success has locked the row. -/
theorem post_disableUser (s : IdentityStore) :
    (disableUser u).Post IdentityStore.exec
      (fun reply s' => ∀ message, reply = .success message → LockedForever u s'.users) s := by
  intro e
  dsimp only [IdentityStore.exec, IdentityStore.statement]
  split
  · exact fun _ h => by cases h
  rename_i row hfound
  have hrow : s.users.lookup u = some row := by
    split at hfound
    · cases hfound
    · exact (Option.filter_eq_some_iff.mp hfound).1
  refine post_isLastActiveAdmin ?_ ?_
  · intro lastAdmin s' husers
    split
    · exact fun _ h => by cases h
    intro e
    have hlookup : (IdentityStore.exec e (.update u { lockedUntil := some kLockedForeverSentinel })
        s').2.users.lookup u = _ := IdentityStore.lookup_exec u
    rw [husers] at hlookup
    simp only [hrow, IdentityStore.written, Option.map_some] at hlookup
    cases hfails : e.fails with
    | true =>
      simp only [IdentityStore.exec, IdentityStore.statement, hfails, if_true]
      exact fun _ h => by cases h
    | false =>
      simp only [hfails, true_and, if_true] at hlookup
      have hok : (IdentityStore.exec e (.update u { lockedUntil := some kLockedForeverSentinel })
          s').1 = true := by
        simp [IdentityStore.exec, IdentityStore.statement, hfails]
      rw [hok]
      exact fun _ _ => ⟨_, hlookup, rfl⟩
  · exact fun s' _ _ h => by cases h

/-! ### Logins -/

section Password

variable {crypto : IdentityCrypto} {env : AuthEnv} {identifier password : String} {user : UserRow}

theorem locked_afterWrongPassword (hlocked : LockedForever u t.rows) (hne : id ≠ u) :
    LockedForever u (afterWrongPassword env id t).rows := by
  unfold afterWrongPassword
  split
  · exact hlocked
  · exact hlocked.update fun heq => absurd heq hne

theorem locked_afterCorrectPassword (hlocked : LockedForever u t.rows) (hne : id ≠ u) :
    LockedForever u (afterCorrectPassword crypto env password id user t).rows := by
  have hreset : LockedForever u (resetFailures env id user t).rows := by
    unfold resetFailures
    split
    · exact hlocked.update fun heq => absurd heq hne
    · exact hlocked
  unfold afterCorrectPassword upgradeHash
  split
  · split
    · exact hreset
    · exact hreset.update fun heq => absurd heq hne
  · exact hreset

/-- A password step that leaves the locked user locked and accepts only a user who is not. -/
structure Respects (u : Int) (t : UserTable) (now : Int) (step : Validation × UserTable) : Prop where
  locked : LockedForever u step.2.rows
  accepted : ∀ result, step.1 = .accepted result → Unlocked t now result.internalId

variable (hlocked : LockedForever u t.rows) (hnow : env.now < kLockedForeverSentinel)
include hlocked

theorem Respects.unchanged {v : Validation} (hv : ∀ result, v ≠ .accepted result) :
    Respects u t env.now (v, t) :=
  ⟨hlocked, fun result h => absurd h (hv result)⟩

include hnow

theorem Respects.failed (hunlocked : Unlocked t env.now id) :
    Respects u t env.now (.rejected, afterWrongPassword env id t) :=
  ⟨locked_afterWrongPassword hlocked (ne_of_unlocked hlocked hnow hunlocked), nofun⟩

theorem Respects.passed (hunlocked : Unlocked t env.now id) :
    Respects u t env.now (.accepted (authResultOf id user.toProfile),
      afterCorrectPassword crypto env password id user t) := by
  refine ⟨locked_afterCorrectPassword hlocked (ne_of_unlocked hlocked hnow hunlocked), ?_⟩
  intro result heq
  cases heq
  exact hunlocked

theorem respects_validateUser :
    Respects u t env.now (validateUser crypto env identifier password t) := by
  unfold validateUser
  split
  · exact .unchanged hlocked nofun
  · rename_i id user hfound
    split
    · exact .unchanged hlocked nofun
    · rename_i hlock
      have hunlocked : Unlocked t env.now id := ⟨user, findLogin_eq_some hfound, not_lt.mp hlock⟩
      split
      · exact .passed hlocked hnow hunlocked
      · exact .failed hlocked hnow hunlocked

theorem respects_legacyValidateUser :
    Respects u t env.now (legacyValidateUser crypto env identifier password t) := by
  unfold legacyValidateUser
  split
  · exact .unchanged hlocked nofun
  · rename_i id user hfound
    split
    · exact .unchanged hlocked nofun
    · rename_i hlock
      have hunlocked : Unlocked t env.now id := ⟨user, findLogin_eq_some hfound, not_lt.mp hlock⟩
      split
      · exact .unchanged hlocked nofun
      · exact .passed hlocked hnow hunlocked
      · exact .failed hlocked hnow hunlocked

end Password

variable {cfg : Config} {w : World b} {req : HttpRequest} {env : RequestEnv}

theorem respects_passwordStep (cfg : Config) (f : LoginFields) (hlocked : LockedForever u w.users.rows)
    (hnow : env.auth.now < kLockedForeverSentinel) :
    Respects u w.users env.auth.now (passwordStep cfg env f w.users) := by
  unfold passwordStep
  split
  · exact respects_validateUser hlocked hnow
  · exact respects_legacyValidateUser hlocked hnow

theorem locked_proceed {f : LoginFields} {result : AuthResult} {decision : LoginDecision}
    (hlocked : LockedForever u w.users.rows) :
    LockedForever u (proceed cfg w req env f result decision).world.users.rows := by
  cases decision with
  | DenyEmailNotVerified => exact hlocked
  | RequireMfa =>
    rw [proceed, requireMfa]
    split
    · exact hlocked
    · refine LockedForever.update hlocked ?_
      intro _ _
      rfl
  | Proceed =>
    rw [proceed, issueAfterLogin]
    split
    · exact hlocked
    · exact hlocked

theorem locked_login (hlocked : LockedForever u w.users.rows)
    (hnow : env.auth.now < kLockedForeverSentinel) :
    LockedForever u (login cfg w req env).world.users.rows := by
  have hstep := respects_passwordStep cfg (loginFields req) hlocked hnow
  unfold login
  simp only
  split
  · exact hlocked
  · split
    · rename_i result users heq
      rw [heq] at hstep
      exact locked_proceed hstep.locked
    · rename_i users heq
      rw [heq] at hstep
      exact hstep.locked
    · rename_i users heq
      rw [heq] at hstep
      exact hstep.locked

/-! ### The second factor -/

theorem verifyTotp_unlocked {v : TotpVerified} {f : VerifyFields}
    (h : verifyTotp cfg w env f = .ok v) : Unlocked w.users env.now v.userId := by
  unfold verifyTotp at h
  split at h
  · cases h
  rename_i userId _
  split at h
  · unfold serviceTotp at h
    split at h
    · cases h
    rename_i row hfound
    split at h
    · cases h
    rename_i hlock
    split at h
    · cases h
    cases h
    split at hfound
    · cases hfound
    · exact ⟨row, findById_eq_some hfound, not_lt.mp hlock⟩
  · unfold fallbackTotp at h
    split at h
    · cases h
    split at h
    · cases h
    rename_i row hfound
    split at h
    · cases h
    rename_i hlock
    split at h
    · cases h
    cases h
    exact ⟨row, findById_eq_some hfound, not_lt.mp hlock⟩

theorem locked_verifyLogin (hlocked : LockedForever u w.users.rows) :
    LockedForever u (verifyLogin cfg w req env).world.users.rows := by
  generalize ho : verifyLogin cfg w req env = o
  have hcase : VerifyCase cfg w req env o := ho ▸ verifyLogin_cases
  cases hcase with
  | refused => exact hlocked
  | rejected => exact hlocked
  | stopped => exact hlocked
  | issued _ _ _ _ husers =>
    rcases husers with rfl | rfl
    · exact hlocked
    · refine LockedForever.update hlocked ?_
      intro _ _
      rfl

/-! ### One step -/

theorem locked_handle {i : Http.Input} (hlocked : LockedForever u w.users.rows)
    (hnow : i.env.auth.now < kLockedForeverSentinel) :
    LockedForever u (handle cfg w i).world.users.rows := by
  unfold handle
  cases i.endpoint with
  | login => exact locked_login hlocked hnow
  | verifyLogin => exact locked_verifyLogin hlocked
  | authorize =>
    dsimp only
    generalize ho : authorize cfg w i.req i.env = o
    have hcase : AuthorizeCase cfg w i.req i.env o := ho ▸ authorize_cases
    cases hcase <;> exact hlocked
  | consent =>
    dsimp only
    generalize ho : consent cfg w i.req i.env = o
    have hcase : ConsentCase cfg w i.req i.env o := ho ▸ consent_cases
    cases hcase <;> exact hlocked
  | deviceAuthorization =>
    dsimp only
    generalize ho : deviceAuthorization cfg w i.req i.env = o
    have hcase : DeviceAuthorizationCase w i.req i.env o := ho ▸ deviceAuthorization_cases
    cases hcase <;> exact hlocked
  | approveDevice =>
    dsimp only
    generalize ho : approveDevice w i.req i.env = o
    have hcase : ApproveCase w i.req o := ho ▸ approveDevice_cases
    cases hcase <;> exact hlocked
  | deviceToken =>
    dsimp only
    generalize ho : deviceToken cfg w i.req i.env = o
    have hcase : PollCase cfg w i.env o := ho ▸ deviceToken_cases
    cases hcase <;> exact hlocked

/-! ### Where the subjects of a request come from -/

variable {sub : String}

theorem subjects_login (h : sub ∈ (login cfg w req env).log.filterMap subjectOf) :
    ∃ result users, Accepts cfg w req env result users ∧ sub = result.publicSub := by
  generalize ho : login cfg w req env = o at h
  have hcase : LoginCase cfg w req env o := ho ▸ login_cases
  cases hcase with
  | refused => cases h
  | stopped => cases h
  | bound => cases h
  | issued haccepts => exact ⟨_, _, haccepts, List.mem_singleton.mp h⟩

theorem subjects_authorize (h : sub ∈ (authorize cfg w req env).log.filterMap subjectOf) :
    sub ∈ (w.sessions req.session).userId.toList := by
  generalize ho : authorize cfg w req env = o at h
  have hcase : AuthorizeCase cfg w req env o := ho ▸ authorize_cases
  cases hcase with
  | answered => cases h
  | issued huser =>
    obtain rfl := List.mem_singleton.mp h
    rw [huser]
    exact List.mem_singleton_self _

theorem subjects_consent (h : sub ∈ (consent cfg w req env).log.filterMap subjectOf) :
    sub ∈ [(consentFields req).userId] := by
  generalize ho : consent cfg w req env = o at h
  have hcase : ConsentCase cfg w req env o := ho ▸ consent_cases
  cases hcase with
  | denied => cases h
  | failed => cases h
  | issued => exact h

theorem subjects_verifyLogin (h : sub ∈ (verifyLogin cfg w req env).log.filterMap subjectOf) :
    ∃ v, verifyTotp cfg (keyed cfg w req env) env (verifyFields req) = .ok v ∧
      sub = v.publicSub := by
  generalize ho : verifyLogin cfg w req env = o at h
  have hcase : VerifyCase cfg w req env o := ho ▸ verifyLogin_cases
  cases hcase with
  | refused => cases h
  | rejected => cases h
  | stopped => cases h
  | issued htotp _ _ _ _ hreturned =>
    refine ⟨_, htotp, ?_⟩
    rcases hreturned with rfl | rfl
    · exact List.mem_singleton.mp h
    · exact List.mem_singleton.mp h

theorem subjects_redeem {deviceCodeHash : String} {row : DeviceCode}
    (h : sub ∈ (redeem cfg w env deviceCodeHash row).log.filterMap subjectOf) :
    sub = row.userId := by
  unfold redeem at h
  split at h
  · cases h
  simp only at h
  split at h
  · cases h
  · exact List.mem_singleton.mp h

theorem subjects_deviceToken (h : sub ∈ (deviceToken cfg w req env).log.filterMap subjectOf) :
    sub ∈ ((approvedRow cfg w req).map DeviceCode.userId).toList := by
  unfold deviceToken at h
  simp only at h
  split at h
  · cases h
  unfold deviceCodeGrant at h
  simp only at h
  split at h
  · cases h
  split at h
  · cases h
  split at h
  · cases h
  unfold deviceCodeLookup at h
  split at h
  · cases h
  split at h
  · cases h
  rename_i row hrow
  split at h
  · cases h
  split at h
  · cases h
  split at h
  · cases h
  · cases h
  · cases h
  · rename_i happroved
    have hfound : approvedRow cfg w req = some row := by
      simp [approvedRow, hrow, happroved]
    rw [hfound, subjects_redeem h]
    exact List.mem_singleton_self _

theorem subjectUser_of_lookup {row : UserRow} (hrow : w.users.rows.lookup id = some row) :
    w.directory.subjectUser row.publicSub = some id := by
  refine Directory.subjectUser_publicSub (d := w.directory) (p := row.toProfile) ?_
  exact (UserTable.lookup_profiles id).trans (congrArg (Option.map _) hrow)

/-- A request issues for a user whom the lock does not stop, or for a subject it presents. -/
theorem subjects_handle {i : Http.Input} (hlocked : LockedForever u w.users.rows)
    (hauth : i.env.auth.now < kLockedForeverSentinel) (hnow : i.env.now < kLockedForeverSentinel)
    (h : sub ∈ (handle cfg w i).log.filterMap subjectOf) :
    sub ∈ presentedTo cfg w i ∨ w.directory.subjectUser sub ≠ some u := by
  unfold handle at h
  unfold presentedTo
  cases hendpoint : i.endpoint with
  | login =>
    simp only [hendpoint] at h ⊢
    obtain ⟨result, users, haccepts, rfl⟩ := subjects_login h
    obtain ⟨-, id, p, hlookup, rfl⟩ := haccepts.spec
    have hstep := respects_passwordStep cfg (loginFields i.req) hlocked hauth
    rw [haccepts.step] at hstep
    have hne : id ≠ u := ne_of_unlocked hlocked hauth (hstep.accepted _ rfl)
    refine .inr ?_
    rw [authResultOf, Directory.subjectUser_publicSub hlookup]
    exact fun heq => hne (Option.some.inj heq)
  | authorize =>
    simp only [hendpoint] at h ⊢
    exact .inl (subjects_authorize h)
  | consent =>
    simp only [hendpoint] at h ⊢
    exact .inl (subjects_consent h)
  | verifyLogin =>
    simp only [hendpoint] at h ⊢
    obtain ⟨v, htotp, rfl⟩ := subjects_verifyLogin h
    obtain ⟨row, hrow, hsub⟩ := (acceptedTotp_of_keyed htotp).user
    have hunlocked : Unlocked w.users i.env.now v.userId := verifyTotp_unlocked htotp
    have hne : v.userId ≠ u := ne_of_unlocked hlocked hnow hunlocked
    refine .inr ?_
    rw [hsub, subjectUser_of_lookup hrow]
    exact fun heq => hne (Option.some.inj heq)
  | deviceAuthorization =>
    simp only [hendpoint] at h
    rw [log_nil_of_deviceAuthorization deviceAuthorization_cases] at h
    cases h
  | approveDevice =>
    simp only [hendpoint] at h
    rw [log_nil_of_approve approveDevice_cases] at h
    cases h
  | deviceToken =>
    simp only [hendpoint] at h ⊢
    exact .inl (subjects_deviceToken h)

/-! ### Where the subjects of a token pair come from -/

/-- A pair that the call saves belongs to one of the subjects. -/
def savesFor (subjects : List String) : RepoCall → Prop
  | .saveTokenPair access refresh => access.userId ∈ subjects ∧ refresh.userId ∈ subjects
  | _ => True

variable {svc : TokenService} {pair : OAuth2AccessToken × OAuth2RefreshToken}

theorem savesFor_of_mem {subjects : List String} {calls : List RepoCall}
    (hcalls : ∀ op ∈ calls, savesFor subjects op) (h : pair ∈ savedPairs calls) :
    pair.1.userId ∈ subjects ∧ pair.2.userId ∈ subjects := by
  obtain ⟨op, hop, hpair⟩ := List.mem_filterMap.mp h
  cases op with
  | saveTokenPair access refresh =>
    obtain rfl := Option.some.inj hpair
    exact hcalls _ hop
  | _ => cases hpair

theorem savesFor_of_isRolesCall {subjects : List String} (op : RepoCall)
    (hop : TokenService.IsRolesCall op) : savesFor subjects op := by
  cases op with
  | saveTokenPair access refresh => exact hop.elim
  | _ => trivial

theorem exchange_pairs {x : PendingExchange b} (h : pair ∈ savedPairs (x.result svc).2.2) :
    pair.1.userId ∈ ((x.consumed svc).map OAuth2AuthCode.userId).toList ∧
      pair.2.userId ∈ ((x.consumed svc).map OAuth2AuthCode.userId).toList := by
  refine savesFor_of_mem (Prog.Issues.calls ?_) h
  refine ⟨trivial, ?_⟩
  dsimp only
  split
  · trivial
  refine ⟨trivial, ?_⟩
  dsimp only
  split
  · trivial
  rename_i authCode hconsumed
  have hcode : x.consumed svc = some authCode := hconsumed
  rw [hcode]
  split
  · trivial
  split
  · trivial
  refine ⟨trivial, ?_⟩
  dsimp only
  split
  · trivial
  have hself := List.mem_singleton_self authCode.userId
  refine (TokenService.only_resolveRoles savesFor_of_isRolesCall fun roles => ?_).issues
  refine ⟨trivial, fun _ => ⟨trivial, fun _ => ⟨trivial, fun _ => ⟨⟨hself, hself⟩, fun ok => ?_⟩⟩⟩⟩
  cases ok <;> trivial

theorem refresh_pairs {r : RefreshRequest} {env : Nat → Env}
    (h : pair ∈ savedPairs (refreshed cfg.tokenService w r env).2.2) :
    pair.1.userId ∈ ((rotatedToken cfg w r env).map OAuth2RefreshToken.userId).toList ∧
      pair.2.userId ∈ ((rotatedToken cfg w r env).map OAuth2RefreshToken.userId).toList := by
  refine savesFor_of_mem (Prog.Issues.calls ?_) h
  refine ⟨trivial, ?_⟩
  dsimp only
  split
  · refine ⟨trivial, ?_⟩
    dsimp only
    split
    · trivial
    split
    · exact ⟨trivial, trivial⟩
    · trivial
  · rename_i rt hrotated
    have hrt : rotatedToken cfg w r env = some rt := hrotated
    rw [hrt]
    split
    · trivial
    refine ⟨trivial, ?_⟩
    dsimp only
    split
    · trivial
    have hself := List.mem_singleton_self rt.userId
    refine ⟨trivial, trivial, ⟨hself, hself⟩, ?_⟩
    dsimp only
    split <;> trivial

/-! ### One step of the flow -/

variable {i : FlowInput} {past : List FlowEvent}

theorem directory_flowStep : (flowStep cfg w i).1.directory = w.directory := by
  cases i with
  | http i => exact (handle_effect cfg w i).frame.directory
  | exchange r env => rfl
  | refresh r env => rfl

theorem locked_flowStep (hlocked : LockedForever u w.users.rows) (hearly : beforeSentinel i = true) :
    LockedForever u (flowStep cfg w i).1.users.rows := by
  cases i with
  | http i =>
    simp only [beforeSentinel, Bool.and_eq_true, decide_eq_true_eq] at hearly
    exact locked_handle hlocked hearly.2
  | exchange r env => exact hlocked
  | refresh r env => exact hlocked

theorem mem_consumedSubjects {x : Option (PendingExchange b)}
    (h : pair ∈ exchangePairs cfg.tokenService x) :
    pair.1.userId ∈ consumedSubjects cfg x ∧ pair.2.userId ∈ consumedSubjects cfg x := by
  cases x with
  | none => cases h
  | some x => exact exchange_pairs h

/-- The saved pairs of a step belong to subjects that it presents. -/
theorem mem_presented_of_pair (h : pair ∈ (flowStep cfg w i).2.pairs) :
    pair.1.userId ∈ presented cfg w i ∧ pair.2.userId ∈ presented cfg w i := by
  cases i with
  | http i =>
    obtain ⟨haccess, hrefresh⟩ := mem_consumedSubjects h
    exact ⟨List.mem_append_right _ haccess, List.mem_append_right _ hrefresh⟩
  | exchange r env => exact mem_consumedSubjects h
  | refresh r env => exact refresh_pairs h

theorem mem_presented_of_log (hlocked : LockedForever u w.users.rows)
    (hearly : beforeSentinel i = true)
    (h : sub ∈ (flowStep cfg w i).2.log.filterMap subjectOf) :
    sub ∈ presented cfg w i ∨ w.directory.subjectUser sub ≠ some u := by
  cases i with
  | http i =>
    simp only [beforeSentinel, Bool.and_eq_true, decide_eq_true_eq] at hearly
    rcases subjects_handle hlocked hearly.2 hearly.1 h with hpresented | hother
    · exact .inl (List.mem_append_left _ hpresented)
    · exact .inr hother
  | exchange r env => cases h
  | refresh r env => cases h

theorem issued_flowStep (hlocked : LockedForever u w.users.rows) (hok : Foreign cfg u past w i)
    (h : sub ∈ issuedSubjects (flowStep cfg w i).2) : w.directory.subjectUser sub ≠ some u := by
  rcases List.mem_append.mp h with hlog | hpairs
  · rcases mem_presented_of_log hlocked hok.1 hlog with hpresented | hother
    · exact hok.2 sub hpresented
    · exact hother
  · obtain ⟨pair, hpair, hsub⟩ := List.mem_flatMap.mp hpairs
    obtain ⟨haccess, hrefresh⟩ := mem_presented_of_pair hpair
    simp only [List.mem_cons, List.not_mem_nil, or_false] at hsub
    rcases hsub with rfl | rfl
    · exact hok.2 _ haccess
    · exact hok.2 _ hrefresh

/-! ### Every flow -/

theorem nothing_while_locked {w' : World b} {history : List FlowEvent}
    (hlocked : LockedForever u w.users.rows) (hrun : FlowRun cfg (Foreign cfg u) w history w') :
    NothingFor w.directory u history := by
  have hall : (LockedForever u w'.users.rows ∧ w'.directory = w.directory) ∧
      NothingFor w.directory u history := by
    refine Machine.Run.invariant
      (fun h v => (LockedForever u v.users.rows ∧ v.directory = w.directory) ∧
        NothingFor w.directory u h) ⟨⟨hlocked, rfl⟩, nofun⟩ ?_ hrun
    intro h v i _ hinv hok
    obtain ⟨⟨hv, hdirectory⟩, hnothing⟩ := hinv
    refine ⟨⟨locked_flowStep hv hok.1, directory_flowStep.trans hdirectory⟩, ?_⟩
    intro e he
    rcases List.mem_cons.mp he with rfl | hold
    · intro sub hsub
      rw [← hdirectory]
      exact issued_flowStep hv hok hsub
    · exact hnothing e hold
  exact hall.2

def disabled (env : Nat → StatementEnv) (u : Int) (s : IdentityStore) :
    UserReply × IdentityStore × List UserCall :=
  Prog.eval IdentityStore.exec env 0 (disableUser u) s

/-- After a disable that reported success, a flow on the users table it left issues no code and no
token for the user, as long as no step presents a session, code, refresh token or device code of
the user's. -/
theorem nothing_new_for_disabled (cfg : Config) {u : Int} {env : Nat → StatementEnv}
    {s : IdentityStore} {message : String} (hdisabled : (disabled env u s).1 = .success message)
    {w w' : World b} (husers : w.users.rows = (disabled env u s).2.1.users)
    {history : List FlowEvent} (hrun : FlowRun cfg (Foreign cfg u) w history w') :
    NothingFor w.directory u history := by
  refine nothing_while_locked ?_ hrun
  rw [husers]
  exact (post_disableUser s).eval env 0 message hdisabled

/-! ### A user disabled while signed in -/

theorem disabled_of_lookup {rows : Dict Int UserRow} {row : UserRow}
    (hrow : rows.lookup u = some row) (hdeleted : row.deleted = false) :
    (disabled (fun _ => {}) u { users := rows }).1 = .success "User disabled successfully" ∧
      (disabled (fun _ => {}) u { users := rows }).2.1.users = rows.mapValues fun k row =>
        if k = u then Changes.apply { lockedUntil := some kLockedForeverSentinel } row else row := by
  have hfound : (rows.lookup u).filter (fun row => !row.deleted) = some row := by
    simp [hrow, hdeleted]
  unfold disabled disableUser isLastActiveAdmin
  simp only [Prog.eval, IdentityStore.exec, IdentityStore.statement, Bool.false_eq_true, if_false,
    hfound]
  exact ⟨rfl, rfl⟩

/-- The browsers of Alice and Carol have the sessions that their logins left. -/
def signedIn : World knownBackend :=
  (knownWorld.setSession 1 (loggedIn knownConfig {}
    { internalId := 1, publicSub := "11111111-1111-4111-8111-111111111111" } 59)).setSession 2
    (loggedIn knownConfig {}
      { internalId := 3, publicSub := "33333333-3333-4333-8333-333333333333" } 59)

def signedInStore : IdentityStore := { users := signedIn.users.rows }

/-- The same world with the users table that disabling Alice leaves. -/
def afterDisable : World knownBackend :=
  { signedIn with
    users := signedIn.users.update 1
      (Changes.apply { lockedUntil := some kLockedForeverSentinel }) fun _ => rfl }

theorem disabled_signedIn :
    (disabled (fun _ => {}) 1 signedInStore).1 = .success "User disabled successfully" ∧
      afterDisable.users.rows = (disabled (fun _ => {}) 1 signedInStore).2.1.users := by
  have hfound : (signedIn.users.rows.lookup 1).any (fun row => !row.deleted) = true := by
    decide +kernel
  obtain ⟨row, hrow, hdeleted⟩ := (Option.any_eq_true _ _).mp hfound
  obtain ⟨hreply, hrows⟩ := disabled_of_lookup hrow (by simpa using hdeleted)
  exact ⟨hreply, hrows.symm⟩

/-- A browser asks for a code and redeems it. -/
def fromSession (session : Nat) : List FlowInput :=
  [.http (knownAuthorize session (knownEnv 60 10)),
   .exchange (knownExchange 10) (knownEnv 60 11).exchange]

/-- Alice tries her password again, then Carol's browser goes on. -/
def withoutAlice : List FlowInput :=
  .http (knownLogin 1 "alice" "correct-horse" (knownEnv 60 0)) :: fromSession 2

/-- The old session of the disabled user gets a new code and a new pair of tokens. -/
theorem fromSession_issues_for_disabled :
    (disabled (fun _ => {}) 1 signedInStore).1 = .success "User disabled successfully" ∧
    afterDisable.users.rows = (disabled (fun _ => {}) 1 signedInStore).2.1.users ∧
    FlowRun knownConfig anyStep afterDisable
      (flowExecuted knownConfig afterDisable (fromSession 1)).1
      (flowExecuted knownConfig afterDisable (fromSession 1)).2 ∧
    ¬NothingFor afterDisable.directory 1
      (flowExecuted knownConfig afterDisable (fromSession 1)).1 := by
  refine ⟨disabled_signedIn.1, disabled_signedIn.2, flowRun_executed _ _ _, ?_⟩
  unfold NothingFor
  decide +kernel

/-- Alice's password is refused while Carol gets her code and her tokens. -/
theorem nothing_new_for_disabled_withoutAlice :
    (flowExecuted knownConfig afterDisable withoutAlice).1.map issuedSubjects =
      [["3", "3"], ["3"], []] ∧
    NothingFor afterDisable.directory 1
      (flowExecuted knownConfig afterDisable withoutAlice).1 := by
  obtain ⟨hguarded, hissued⟩ :
      (flow knownBackend knownConfig).Guarded (Foreign knownConfig 1) [] afterDisable
          withoutAlice ∧
        (flowExecuted knownConfig afterDisable withoutAlice).1.map issuedSubjects =
          [["3", "3"], ["3"], []] := by
    decide +kernel
  refine ⟨hissued, ?_⟩
  exact nothing_new_for_disabled knownConfig disabled_signedIn.1 disabled_signedIn.2
    (flowRun_of_guarded hguarded)

end AuthForge.DisabledUsers
