import AuthForge.Account.ActingUser

/-!
# Whom self-service acts for

A token of a live user carries the public subject of the user or the internal id in decimal. The
handlers of the social links tell the two apart; all others look for a public subject, and a number
is none.
-/

namespace AuthForge.ActingUser

open Identity Admin Account Storage

/-! ### What a handler goes on with -/

/-- The first statement of the program, wherever it succeeds, leads on to `q`. -/
def Reaches (s : SelfStore) (p q : SelfProg) : Prop :=
  ∃ op k, p = .call op k ∧ ∀ env : SelfEnv, env.fails = false → k (SelfStore.exec env op s).1 = q

section Continuations

variable (crypto : IdentityCrypto) (config : SelfConfig) (userId : String)

/-- The request passes the checks that come before the user is looked up. -/
def Admitted : SelfRequest → Prop
  | .changePassword body => ∃ b, body = some b ∧ b.oldPassword ≠ "" ∧ b.newPassword ≠ "" ∧
      8 ≤ byteLength b.newPassword
  | .deleteAccount | .resendVerification | .listCredentials => True
  | .listSocialLinks => config.socialLinkService.isSome
  | .linkSocialAccount provider code => config.socialLinkService.isSome ∧
      SocialLinkService.isValidProvider provider = true ∧ code ≠ ""
  | .unlinkSocialAccount provider => config.socialLinkService.isSome ∧
      SocialLinkService.isValidProvider provider = true

/-- The rest of `deleteAccount`. -/
def deleteFound (id : Int) : UserProg :=
  isLastActiveAdmin id
    (fun lastAdmin =>
      if lastAdmin then
        .ret (.error "VALIDATION_RESOURCE_CONFLICT" "Cannot delete the last active admin account")
      else proceedWithDelete userId id)
    (guardFailed "deleteAccount: failed to evaluate last-admin guard")

/-- The rest of `resendVerification`. -/
def resendFound (id : Int) (user : UserRow) : MailProg :=
  if user.emailVerified then .ret (.success "Email is already verified")
  else if user.email.getD "" = "" then
    .ret (.error "VALIDATION_INVALID_INPUT" "resend: no email address on file")
  else
    sendVerificationEmail crypto id (user.email.getD "") (.ret (.success "Verification email sent"))

/-- What the request does once its user is found: everything for this user. -/
def actingAs (id : Int) (user : UserRow) : SelfRequest → SelfProg
  | .changePassword body => accountHandler (changeFound crypto userId (body.getD {}) id user)
  | .deleteAccount => userHandler (deleteFound userId id)
  | .resendVerification => mailHandler (resendFound crypto id user)
  | .listCredentials => credentialsOf config.webAuthnInjected id
  | .listSocialLinks =>
    match config.socialLinkService with
    | none => notConfigured
    | some links => listAccounts links id
  | .linkSocialAccount provider code =>
    match config.socialLinkService with
    | none => notConfigured
    | some links => linkFor links provider code id
  | .unlinkSocialAccount provider =>
    match config.socialLinkService with
    | none => notConfigured
    | some links => unlinkFor links provider id

/-- What the request answers where it finds no user. -/
def missing : SelfRequest → SelfReply
  | .changePassword _ =>
    .account (.error "VALIDATION_RESOURCE_NOT_FOUND" "changePassword: user not found")
  | .deleteAccount => .user (.error "VALIDATION_RESOURCE_NOT_FOUND" "deleteAccount: user not found")
  | .resendVerification => .mail (.error "DB_QUERY_ERROR" "Resend verification failed: ")
  | .listCredentials => .credentials []
  | .listSocialLinks | .linkSocialAccount _ _ | .unlinkSocialAccount _ =>
    .error "VALIDATION_RESOURCE_NOT_FOUND" "social links: user not found"

/-- The requests that take a number for an internal id. -/
def IsSocial : SelfRequest → Prop
  | .listSocialLinks | .linkSocialAccount _ _ | .unlinkSocialAccount _ => True
  | _ => False

end Continuations

/-! ### The tables -/

/-- What the database guarantees about the users. -/
structure Keyed (s : SelfStore) : Prop where
  publicSubs_uuid : ∀ e ∈ s.account.identity.users.entries, isUuid e.2.publicSub = true
  publicSubs_nodup : (s.account.identity.users.entries.map fun e => e.2.publicSub).Nodup
  ids_int : ∀ e ∈ s.account.identity.users.entries, -2 ^ 31 ≤ e.1 ∧ e.1 < 2 ^ 31

/-- A user that is not deleted, and the `user_id` of a token that was issued for the user. -/
structure IssuedFor (s : SelfStore) (id : Int) (u : UserRow) (sub : String) : Prop where
  row : s.account.identity.users.lookup id = some u
  live : u.deleted = false
  subject : sub = u.publicSub ∨ sub = toString id

section Lookups

variable {s : SelfStore} (hs : Keyed s) {id : Int} {u : UserRow} {p : UserRow → Bool}
include hs

/-- A public subject is in one row. -/
theorem matching_publicSub (hrow : s.account.identity.users.lookup id = some u) (hp : p u = true)
    (hsub : ∀ v, p v = true → v.publicSub = u.publicSub) : s.matching p = [(id, u)] := by
  have hmem : ⟨id, u⟩ ∈ s.account.identity.users.entries.filter fun e => p e.2 :=
    List.mem_filter.mpr ⟨AList.mem_lookup_iff.mp hrow, hp⟩
  have hnodup : ((s.account.identity.users.entries.filter fun e => p e.2).map
      fun e => e.2.publicSub).Nodup :=
    hs.publicSubs_nodup.sublist (List.filter_sublist.map _)
  have hsame : ∀ e ∈ s.account.identity.users.entries.filter fun e => p e.2,
      e.2.publicSub = u.publicSub := fun e he => hsub e.2 (List.mem_filter.mp he).2
  change (s.account.identity.users.entries.filter fun e => p e.2).map (fun e => (e.1, e.2)) = _
  generalize s.account.identity.users.entries.filter (fun e => p e.2) = found
    at hmem hnodup hsame ⊢
  match found with
  | [] => cases hmem
  | [e] =>
    obtain rfl := List.mem_singleton.mp hmem
    rfl
  | e :: e' :: _ =>
    have hfirst := hsame e List.mem_cons_self
    have hsecond := hsame e' (List.mem_cons_of_mem _ List.mem_cons_self)
    simp [hfirst, hsecond] at hnodup

/-- A number is no public subject. -/
theorem matching_toString (n : Int) (hsub : ∀ v, p v = true → v.publicSub = toString n) :
    s.matching p = [] := by
  change (s.account.identity.users.entries.filter fun e => p e.2).map (fun e => (e.1, e.2)) = _
  rw [List.map_eq_nil_iff, List.filter_eq_nil_iff]
  intro e he hp
  exact ne_toString_of_isUuid (hs.publicSubs_uuid e he) n (hsub e.2 hp).symm

end Lookups

/-! ### What the first statement answers -/

section Answers

variable {s : SelfStore} {id : Int} {u : UserRow} {sub : String} (hs : Keyed s)
  (h : IssuedFor s id u sub)
include hs h

theorem live_rows (hsub : sub = u.publicSub) :
    s.matching (fun v => v.publicSub = sub && !v.deleted) = [(id, u)] := by
  refine matching_publicSub hs h.row (by simp [hsub, h.live]) ?_
  intro v hv
  simp only [Bool.and_eq_true, decide_eq_true_eq] at hv
  rw [hv.1, hsub]

theorem all_rows (hsub : sub = u.publicSub) :
    s.matching (fun v => v.publicSub = sub) = [(id, u)] :=
  matching_publicSub hs h.row (by simp [hsub]) fun _ hv => (of_decide_eq_true hv).trans hsub

omit hs in
theorem eq_toString (hsub : sub ≠ u.publicSub) : sub = toString id := h.subject.resolve_left hsub

theorem live_rows_of_ne (hsub : sub ≠ u.publicSub) :
    s.matching (fun v => v.publicSub = sub && !v.deleted) = [] := by
  refine matching_toString hs id ?_
  intro v hv
  simp only [Bool.and_eq_true, decide_eq_true_eq] at hv
  rw [hv.1, eq_toString h hsub]

theorem all_rows_of_ne (hsub : sub ≠ u.publicSub) : s.matching (fun v => v.publicSub = sub) = [] :=
  matching_toString hs id fun _ hv => (of_decide_eq_true hv).trans (eq_toString h hsub)

theorem stoiWhole_sub :
    stoiWhole sub = if sub = u.publicSub then none else some id := by
  have hmem := AList.mem_lookup_iff.mp h.row
  split
  · rename_i hsub
    have huuid : isUuid u.publicSub = true := hs.publicSubs_uuid ⟨id, u⟩ hmem
    rw [hsub]
    exact stoiWhole_of_isUuid huuid
  · rename_i hsub
    rw [eq_toString h hsub]
    exact stoiWhole_toString (hs.ids_int _ hmem)

/-- Either form of the subject leads the social handlers to the user. -/
theorem reaches_resolveInternalUserId (onUser : Int → SelfProg) :
    Reaches s (resolveInternalUserId sub onUser) (onUser id) := by
  unfold resolveInternalUserId
  rw [stoiWhole_sub hs h]
  split_ifs with hsub
  · refine ⟨_, _, rfl, ?_⟩
    intro env henv
    simp only [SelfStore.exec, henv, live_rows hs h hsub]
    rfl
  · refine ⟨_, _, rfl, ?_⟩
    intro env henv
    have hlive : ((s.account.identity.users.lookup id).filter fun v => !v.deleted) = some u := by
      rw [h.row]
      exact if_pos (by simp [h.live])
    simp only [SelfStore.exec, henv, hlive]
    rfl

omit hs h in
theorem answer_findBySub {env : SelfEnv} (henv : env.fails = false) :
    (SelfStore.exec env (.account (.user (.findBySub sub))) s).1 =
      some (s.matching fun v => v.publicSub = sub && !v.deleted) := by
  change (if env.fails then none else some _) = _
  rw [henv]
  rfl

variable {crypto : IdentityCrypto} {config : SelfConfig}

theorem reaches_changePassword {body : PasswordChange}
    (hadmitted : Admitted config (.changePassword (some body))) :
    Reaches s (accountHandler (changePassword crypto sub (some body)))
      (if sub = u.publicSub then accountHandler (changeFound crypto sub body id u)
        else .ret (missing (.changePassword (some body)))) := by
  obtain ⟨b, hb, hold, hnew, hlength⟩ := hadmitted
  obtain rfl := Option.some.inj hb
  unfold changePassword
  dsimp only
  rewrite [if_neg (not_or.mpr ⟨hold, hnew⟩), if_neg (Nat.not_lt.mpr hlength)]
  refine ⟨_, _, rfl, ?_⟩
  intro env henv
  rw [answer_findBySub henv]
  split_ifs with hsub
  · rw [live_rows hs h hsub]
    rfl
  · rw [live_rows_of_ne hs h hsub]
    rfl

theorem reaches_deleteAccount :
    Reaches s (userHandler (deleteAccount sub))
      (if sub = u.publicSub then userHandler (deleteFound sub id) else .ret (missing .deleteAccount)) := by
  refine ⟨_, _, rfl, ?_⟩
  intro env henv
  rw [answer_findBySub henv]
  split_ifs with hsub
  · rw [live_rows hs h hsub]
    rfl
  · rw [live_rows_of_ne hs h hsub]
    rfl

theorem sub_ne_empty : sub ≠ "" := by
  rintro rfl
  rcases h.subject with hsub | hsub
  · obtain ⟨c, cs, hhead, -⟩ :=
      head_of_isUuid (hs.publicSubs_uuid _ (AList.mem_lookup_iff.mp h.row))
    rw [← hsub] at hhead
    cases hhead
  · have hnumber := leadingInt_toString id
    rw [← hsub] at hnumber
    revert hnumber
    simp [leadingInt]

theorem reaches_resendVerification :
    Reaches s (mailHandler (resendVerification crypto sub))
      (if sub = u.publicSub then mailHandler (resendFound crypto id u)
        else .ret (missing .resendVerification)) := by
  unfold resendVerification
  rw [if_neg (sub_ne_empty hs h)]
  refine ⟨_, _, rfl, ?_⟩
  intro env henv
  have hfound : (SelfStore.exec env (.mail (.findByPublicSub sub)) s).1 =
      s.account.identity.findUnique fun v => v.publicSub = sub :=
    if_neg (by simp [henv])
  dsimp only [Prog.embed]
  rw [hfound]
  unfold IdentityStore.findUnique
  split_ifs with hsub
  · have hrows := all_rows hs h hsub
    unfold SelfStore.matching at hrows
    rw [hrows]
    rfl
  · have hrows := all_rows_of_ne hs h hsub
    unfold SelfStore.matching at hrows
    rw [hrows]
    rfl

theorem reaches_listCredentials (injected : Bool) :
    Reaches s (listCredentials injected sub)
      (if sub = u.publicSub then credentialsOf injected id else .ret (missing .listCredentials)) := by
  cases injected with
  | true =>
    refine ⟨_, _, rfl, ?_⟩
    intro env henv
    have hfound : (SelfStore.exec env (.findByPublicSub sub) s).1 =
        (s.account.identity.findUnique fun v => v.publicSub = sub && !v.deleted).map
          fun e => UserReadCache.userInfo e.1 e.2 :=
      if_neg (by simp [henv])
    rw [hfound]
    unfold IdentityStore.findUnique
    split_ifs with hsub
    · have hrows := live_rows hs h hsub
      unfold SelfStore.matching at hrows
      rw [hrows]
      rfl
    · have hrows := live_rows_of_ne hs h hsub
      unfold SelfStore.matching at hrows
      rw [hrows]
      rfl
  | false =>
    refine ⟨_, _, rfl, ?_⟩
    intro env henv
    have hfound : (SelfStore.exec env (.findAllBySub sub) s).1 =
        some (s.matching fun v => v.publicSub = sub) := if_neg (by simp [henv])
    rw [hfound]
    split_ifs with hsub
    · rw [all_rows hs h hsub]
    · rw [all_rows_of_ne hs h hsub]
      rfl

end Answers

theorem Reaches.of_ite {s : SelfStore} {p q r : SelfProg} {c social : Prop} [Decidable c]
    (hsocial : ¬social) (h : Reaches s p (if c then q else r)) :
    (c ∨ social → Reaches s p q) ∧ (¬(c ∨ social) → Reaches s p r) := by
  refine ⟨fun hc => ?_, fun hc => ?_⟩
  · rwa [if_pos (hc.resolve_right hsocial)] at h
  · rwa [if_neg fun hleft => hc (.inl hleft)] at h

section Requests

variable {crypto : IdentityCrypto} {config : SelfConfig} {s : SelfStore} {id : Int} {u : UserRow}
  {sub : String} (hs : Keyed s) (h : IssuedFor s id u sub)
include hs h

theorem reaches_social {request : SelfRequest} (hsocial : IsSocial request)
    (hadmitted : Admitted config request) :
    Reaches s (selfProgram crypto config sub request) (actingAs crypto config sub id u request) := by
  cases request with
  | listSocialLinks =>
    obtain ⟨links, hlinks⟩ := Option.isSome_iff_exists.mp hadmitted
    simp only [selfProgram, actingAs, listSocialLinks, hlinks]
    exact reaches_resolveInternalUserId hs h _
  | linkSocialAccount provider code =>
    obtain ⟨hsome, hprovider, hcode⟩ := hadmitted
    obtain ⟨links, hlinks⟩ := Option.isSome_iff_exists.mp hsome
    simp only [selfProgram, actingAs, linkSocialAccount, hlinks]
    rw [if_neg (by simp [hprovider]), if_neg hcode]
    exact reaches_resolveInternalUserId hs h _
  | unlinkSocialAccount provider =>
    obtain ⟨hsome, hprovider⟩ := hadmitted
    obtain ⟨links, hlinks⟩ := Option.isSome_iff_exists.mp hsome
    simp only [selfProgram, actingAs, unlinkSocialAccount, hlinks]
    rw [if_neg (by simp [hprovider])]
    exact reaches_resolveInternalUserId hs h _
  | changePassword | deleteAccount | resendVerification | listCredentials => exact hsocial.elim

/-- An admitted request goes on for the user of the token, or it finds no user. -/
theorem reaches_selfProgram (crypto : IdentityCrypto) {request : SelfRequest} (hadmitted : Admitted config request) :
    (sub = u.publicSub ∨ IsSocial request →
      Reaches s (selfProgram crypto config sub request)
        (actingAs crypto config sub id u request)) ∧
    (¬(sub = u.publicSub ∨ IsSocial request) →
      Reaches s (selfProgram crypto config sub request) (.ret (missing request))) := by
  cases request with
  | changePassword body =>
    obtain ⟨b, rfl, -⟩ := hadmitted.imp fun _ hb => hb
    exact Reaches.of_ite not_false (reaches_changePassword hs h hadmitted)
  | deleteAccount => exact Reaches.of_ite not_false (reaches_deleteAccount hs h)
  | resendVerification => exact Reaches.of_ite not_false (reaches_resendVerification hs h)
  | listCredentials => exact Reaches.of_ite not_false (reaches_listCredentials hs h _)
  | listSocialLinks | linkSocialAccount | unlinkSocialAccount =>
    exact ⟨fun _ => reaches_social hs h trivial hadmitted, fun hsub => absurd (.inr trivial) hsub⟩

end Requests

/-- What is reached is determined. -/
theorem Reaches.unique {s : SelfStore} {p q r : SelfProg} (hq : Reaches s p q)
    (hr : Reaches s p r) : q = r := by
  obtain ⟨op, k, rfl, hq⟩ := hq
  obtain ⟨op', k', hcall, hr⟩ := hr
  obtain ⟨rfl, hk⟩ := Prog.call.inj hcall
  obtain rfl := eq_of_heq hk
  exact (hq {} rfl).symm.trans (hr {} rfl)

/-- Going on for a user is never the answer that there is none. -/
theorem actingAs_ne_missing {crypto : IdentityCrypto} {config : SelfConfig} {sub : String}
    {id : Int} {u : UserRow} {request : SelfRequest} (hsocial : ¬IsSocial request) :
    actingAs crypto config sub id u request ≠ .ret (missing request) := by
  intro heq
  cases request with
  | changePassword body =>
    simp only [actingAs, changeFound] at heq
    split at heq
    · cases heq
    · simp [accountHandler, Prog.embed, Prog.bind, missing] at heq
    · cases heq
  | deleteAccount => cases heq
  | resendVerification =>
    simp only [actingAs, resendFound] at heq
    split at heq
    · cases heq
    split at heq
    · simp [mailHandler, Prog.embed, Prog.bind, missing] at heq
    · rename_i hemail
      rw [sendVerificationEmail, if_neg hemail] at heq
      cases heq
  | listCredentials => cases heq
  | listSocialLinks | linkSocialAccount | unlinkSocialAccount => exact hsocial trivial

/-- For a token of a live user a request goes on for this user if and only if the token carries the
public subject or the handler is one of the social links'; otherwise it finds no user. -/
theorem acts_for_user_iff {crypto : IdentityCrypto} {config : SelfConfig} {s : SelfStore}
    {id : Int} {u : UserRow} {sub : String} (hs : Keyed s) (h : IssuedFor s id u sub)
    {request : SelfRequest} (hadmitted : Admitted config request) :
    (Reaches s (selfProgram crypto config sub request) (actingAs crypto config sub id u request) ↔
      sub = u.publicSub ∨ IsSocial request) ∧
    (¬(sub = u.publicSub ∨ IsSocial request) →
      Reaches s (selfProgram crypto config sub request) (.ret (missing request))) := by
  obtain ⟨hacts, hmissing⟩ := reaches_selfProgram hs h crypto hadmitted
  refine ⟨⟨fun hreaches => ?_, hacts⟩, hmissing⟩
  by_contra hsub
  exact actingAs_ne_missing (fun hsocial => hsub (.inr hsocial))
    (hreaches.unique (hmissing hsub))

/-! ### A user with both kinds of tokens -/

def store : SelfStore := { account := knownAccount ⟨∅, ∅⟩ }

def wired : SelfConfig where
  webAuthnInjected := true
  socialLinkService := some ⟨true, true, true, true⟩

def change : SelfRequest :=
  .changePassword (some { oldPassword := "old password", newPassword := "new password" })

theorem keyed_store : Keyed store := ⟨by decide +kernel, by decide +kernel, by decide +kernel⟩

theorem issued_publicSub : IssuedFor store 7 knownUser knownUser.publicSub :=
  ⟨rfl, rfl, .inl rfl⟩

theorem issued_id : IssuedFor store 7 knownUser "7" := ⟨rfl, rfl, .inr rfl⟩

theorem admitted_change : Admitted wired change :=
  ⟨_, rfl, by decide, by decide, by decide +kernel⟩

theorem acts_for_user_publicSub :
    Reaches store (selfProgram knownCrypto wired knownUser.publicSub change)
      (actingAs knownCrypto wired knownUser.publicSub 7 knownUser change) ∧
    Reaches store (selfProgram knownCrypto wired "7" .listSocialLinks)
      (actingAs knownCrypto wired "7" 7 knownUser .listSocialLinks) := by
  have hadmitted : Admitted wired .listSocialLinks := rfl
  exact ⟨(acts_for_user_iff keyed_store issued_publicSub admitted_change).1.mpr (.inl rfl),
    (acts_for_user_iff keyed_store issued_id hadmitted).1.mpr (.inr trivial)⟩

/-- With the internal id as the subject the user's own password change finds no user, and neither
does any other handler that looks for a public subject. -/
theorem id_token_finds_no_user :
    IssuedFor store 7 knownUser "7" ∧
    ∀ request ∈ [change, .deleteAccount, .resendVerification, .listCredentials],
      Admitted wired request ∧
      Reaches store (selfProgram knownCrypto wired "7" request) (.ret (missing request)) ∧
      ¬Reaches store (selfProgram knownCrypto wired "7" request)
        (actingAs knownCrypto wired "7" 7 knownUser request) := by
  refine ⟨issued_id, ?_⟩
  intro request hrequest
  have hsub : ("7" : String) ≠ knownUser.publicSub := by decide
  have hboth : Admitted wired request ∧ ¬IsSocial request := by
    simp only [List.mem_cons, List.not_mem_nil, or_false] at hrequest
    rcases hrequest with rfl | rfl | rfl | rfl
    · exact ⟨admitted_change, not_false⟩
    · exact ⟨trivial, not_false⟩
    · exact ⟨trivial, not_false⟩
    · exact ⟨trivial, not_false⟩
  have hmissing := (reaches_selfProgram keyed_store issued_id knownCrypto hboth.1).2
    (not_or.mpr ⟨hsub, hboth.2⟩)
  exact ⟨hboth.1, hmissing, fun hreaches =>
    actingAs_ne_missing hboth.2 (hreaches.unique hmissing)⟩

end AuthForge.ActingUser
