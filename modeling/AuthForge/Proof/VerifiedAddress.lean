import AuthForge.Account.EmailVerification
import AuthForge.Account.SelfService

/-!
# A verified address is one for which a token was redeemed

`updateUser` leaves `email_verified` as it is when it changes the address, and `verifyToken` sets it
whatever the address is by then. The invariant holds exactly as long as neither happens with an
address that the user has not verified.
-/

namespace AuthForge.VerifiedAddress

open Identity Admin Account
open Service hiding program

variable {crypto : IdentityCrypto} {s₀ s : MailStore} {history : List MailEvent}
  {p : Pool (mailService crypto)} {tid : Nat} {id : Int}
  {ok : Guard (Pool (mailService crypto)) (Input MailEnv MailRequest) MailEvent}

/-! ### Redemptions and the invariant -/

/-- The user and the address of the token that an event has redeemed. -/
def eventRedeemed : MailEvent → Option (Int × String)
  | .called _ _ _ ⟨.consumeToken _ _, redeemed⟩ => redeemed.join
  | _ => none

/-- A token sent to the address was redeemed for the user. -/
def Redeemed (history : List MailEvent) (id : Int) (email : String) : Prop :=
  ∃ e ∈ history, eventRedeemed e = some (id, email)

def RowVerified (history : List MailEvent) (id : Int) (row : UserRow) : Prop :=
  row.emailVerified = true → ∃ email ∈ row.email, Redeemed history id email

def AllVerified (history : List MailEvent) (s : MailStore) : Prop :=
  ∀ id, ∀ row ∈ s.identity.users.lookup id, RowVerified history id row

/-- The update gives a verified user no address that he has not verified, and confirms no other
address of a user. -/
def AddressKept (history : List MailEvent) (row : UserRow) (id : Int) (changes : Changes) : Prop :=
  (∀ email ∈ changes.email, row.emailVerified = true →
    ∃ address ∈ email, Redeemed history id address) ∧
  (changes.emailVerified = some true → ∃ address ∈ row.email, Redeemed history id address)

def UpdateKeeps (history : List MailEvent) (s : MailStore) : Option MailCall → Prop
  | some (.user (.update id changes)) =>
    ∀ row ∈ s.identity.users.lookup id, AddressKept history row id changes
  | _ => True

/-- The requests do not set `email_verified` themselves, and every update that is executed keeps
addresses verified. -/
def KeepsVerified : Guard (Pool (mailService crypto)) (Input MailEnv MailRequest) MailEvent :=
  fun history pool i =>
    match i with
    | .start (.updateUser _ body) => body.emailVerified = none
    | .start _ => True
    | .advance tid env => env.fails = false → UpdateKeeps history pool.shared (pool.next tid)

/-! ### Which updates the requests issue -/

/-- An update sets the address or the flag, not both. -/
def SetsOne : MailCall → Prop
  | .user (.update _ changes) => changes.email = none ∨ changes.emailVerified = none
  | _ => True

theorem guardReads_setsOne : GuardReads fun op => SetsOne (.user op) :=
  ⟨trivial, fun _ => trivial, trivial, fun _ _ => trivial⟩

theorem only_updateUser {userId : Int} {body : UserUpdate} (hbody : body.emailVerified = none) :
    (mailProgram crypto (.updateUser userId body)).Only SetsOne := by
  have hproceed : (proceedWithUpdate userId body).Only fun op => SetsOne (.user op) := by
    refine ⟨.inr hbody, ?_⟩
    intro r
    cases r <;> trivial
  refine Prog.only_bind (Prog.only_embed ?_) fun _ => trivial
  unfold updateUser
  split
  · trivial
  refine ⟨trivial, ?_⟩
  intro row
  rcases row with _ | row
  · trivial
  dsimp only
  split
  · refine only_isLastActiveAdmin guardReads_setsOne ?_ trivial
    intro lastAdmin
    split
    · trivial
    · exact hproceed
  · exact hproceed

theorem only_insertRegistered {username password : String} {email : Option String} :
    (insertRegistered crypto username password email).Only SetsOne := by
  refine ⟨trivial, ?_⟩
  intro salt
  dsimp only
  split
  · trivial
  refine ⟨trivial, ?_⟩
  intro r
  cases r with
  | error conflict => trivial
  | ok userId =>
    refine ⟨trivial, ?_⟩
    intro roles
    dsimp only
    split
    · exact ⟨trivial, fun _ => trivial⟩
    · trivial

theorem only_resendVerification {userId : String} :
    (resendVerification crypto userId).Only SetsOne := by
  unfold resendVerification
  split
  · trivial
  refine ⟨trivial, ?_⟩
  intro r
  rcases r with _ | ⟨id, user⟩
  · trivial
  dsimp only
  split
  · trivial
  split
  · trivial
  unfold sendVerificationEmail
  split
  · trivial
  · exact ⟨trivial, fun _ => ⟨trivial, fun _ => ⟨trivial, fun _ => trivial⟩⟩⟩

theorem only_verifyToken {token : String} : (verifyToken crypto token).Only SetsOne := by
  unfold verifyToken
  split
  · trivial
  refine ⟨trivial, fun now => ⟨trivial, ?_⟩⟩
  intro r
  rcases r with _ | _ | ⟨userId, email⟩
  · trivial
  · trivial
  refine ⟨trivial, ?_⟩
  intro row
  cases row with
  | none => trivial
  | some row =>
    refine ⟨.inl rfl, ?_⟩
    intro r
    cases r <;> trivial

theorem setsOne_of_thread
    (hrun : (mailService crypto).machine.Run KeepsVerified ((mailService crypto).start s₀) history p)
    {t : Thread (mailService crypto)} (ht : p.threads[tid]? = some t) :
    t.rest.Only SetsOne := by
  obtain ⟨past, q, hstart⟩ := guarded_of_thread hrun (List.mem_of_getElem? ht)
  have honly : (mailProgram crypto t.request).Only SetsOne := by
    cases hreq : t.request with
    | registerUser => exact only_insertRegistered
    | legacyRegisterUser => exact only_insertRegistered
    | resendVerification => exact only_resendVerification
    | verifyToken => exact only_verifyToken
    | updateUser userId body =>
      rw [hreq] at hstart
      exact only_updateUser hstart
  exact (honly.of_reached t.reached).1

/-! ### One statement -/

section Statement

variable {changes : Changes} {row : UserRow} {e : MailEvent} {env : MailEnv}

theorem Redeemed.cons {email : String} (h : Redeemed history id email) :
    Redeemed (e :: history) id email := by
  obtain ⟨x, hx, hredeemed⟩ := h
  exact ⟨x, List.mem_cons_of_mem e hx, hredeemed⟩

theorem RowVerified.cons (h : RowVerified history id row) : RowVerified (e :: history) id row := by
  intro hverified
  obtain ⟨email, hemail, hredeemed⟩ := h hverified
  exact ⟨email, hemail, hredeemed.cons⟩

theorem AllVerified.cons (h : AllVerified history s) : AllVerified (e :: history) s :=
  fun id row hrow => (h id row hrow).cons

/-- The row is verified after the update exactly when the update kept its address verified. -/
theorem rowVerified_apply_iff (hone : changes.email = none ∨ changes.emailVerified = none)
    (hrow : RowVerified history id row) :
    RowVerified history id (changes.apply row) ↔ AddressKept history row id changes := by
  unfold RowVerified AddressKept
  simp only [Changes.apply]
  rcases hone with hemail | hverified
  · rw [hemail]
    simp only [Option.getD_none, Option.not_mem_none, false_implies, implies_true, true_and]
    cases hchange : changes.emailVerified with
    | none => simpa [RowVerified] using hrow
    | some verified => simp
  · rw [hverified]
    simp only [Option.getD_none, reduceCtorEq, false_implies, and_true]
    cases hchange : changes.email with
    | none => simpa [RowVerified] using hrow
    | some email => simp

theorem redeemed_cons_iff {email : String} (he : eventRedeemed e = none) :
    Redeemed (e :: history) id email ↔ Redeemed history id email := by
  constructor
  · intro h
    obtain ⟨x, hx, hredeemed⟩ := h
    rcases List.mem_cons.mp hx with rfl | hx
    · rw [he] at hredeemed
      cases hredeemed
    · exact ⟨x, hx, hredeemed⟩
  · exact Redeemed.cons

theorem rowVerified_cons_iff (he : eventRedeemed e = none) :
    RowVerified (e :: history) id row ↔ RowVerified history id row := by
  simp only [RowVerified, redeemed_cons_iff he]

theorem allVerified_update_iff {userId : Int} (hall : AllVerified history s)
    (hone : SetsOne (.user (.update userId changes))) (he : eventRedeemed e = none) :
    AllVerified (e :: history) (MailStore.exec env (.user (.update userId changes)) s).2 ↔
      (env.fails = false → UpdateKeeps history s (some (.user (.update userId changes)))) := by
  have hlookup (k : Int) :
      (MailStore.exec env (.user (.update userId changes)) s).2.identity.users.lookup k =
        (s.identity.users.lookup k).map
          (IdentityStore.written env.toStatementEnv (.update userId changes) k) :=
    IdentityStore.lookup_exec k
  simp only [AllVerified, UpdateKeeps, hlookup, Option.mem_def, Option.map_eq_some_iff,
    rowVerified_cons_iff he, IdentityStore.written]
  constructor
  · intro h hfails row hrow
    have hafter := h userId _ ⟨row, hrow, rfl⟩
    rw [if_pos ⟨hfails, rfl⟩] at hafter
    exact (rowVerified_apply_iff hone (hall userId row hrow)).mp hafter
  · intro h k row' hrow'
    obtain ⟨row, hrow, rfl⟩ := hrow'
    split
    · rename_i hwritten
      obtain ⟨hfails, rfl⟩ := hwritten
      exact (rowVerified_apply_iff hone (hall k row hrow)).mpr (h hfails row hrow)
    · exact hall k row hrow

theorem allVerified_of_same {s' : MailStore}
    (hsame : ∀ k, s'.identity.users.lookup k = s.identity.users.lookup k)
    (hall : AllVerified history s) : AllVerified (e :: history) s' := by
  intro k row hrow
  rw [hsame] at hrow
  exact (hall k row hrow).cons

theorem allVerified_insertUser {new : NewUser} (hall : AllVerified history s) :
    AllVerified (e :: history) (MailStore.exec env (.insertUser new) s).2 := by
  simp only [MailStore.exec]
  split
  · exact hall.cons
  unfold MailStore.insertUser
  dsimp only
  split
  · exact hall.cons
  split
  · exact hall.cons
  intro k row hrow
  by_cases hk : k = s.nextUserId
  · subst hk
    simp only [AList.lookup_insert, Option.mem_def, Option.some.injEq] at hrow
    intro hverified
    rw [← hrow] at hverified
    cases hverified
  · simp only [AList.lookup_insert_ne hk] at hrow
    exact (hall k row hrow).cons

/-- A statement keeps the invariant exactly when it is no update that breaks it. -/
theorem allVerified_exec_iff {op : MailCall} {req : MailRequest} (hall : AllVerified history s)
    (hone : SetsOne op) :
    AllVerified (.called tid req env ⟨op, (MailStore.exec env op s).1⟩ :: history)
        (MailStore.exec env op s).2 ↔
      (env.fails = false → UpdateKeeps history s (some op)) := by
  cases op with
  | user op =>
    by_cases hupdate : ∃ userId changes, op = .update userId changes
    · obtain ⟨userId, changes, rfl⟩ := hupdate
      exact allVerified_update_iff hall hone rfl
    · have hkeeps : UpdateKeeps history s (some (.user op)) := by
        cases op with
        | update userId changes => exact absurd ⟨userId, changes, rfl⟩ hupdate
        | _ => trivial
      refine iff_of_true (allVerified_of_same (fun k => ?_) hall) fun _ => hkeeps
      refine (IdentityStore.lookup_exec k).trans ?_
      have hwritten : IdentityStore.written env.toStatementEnv op k = fun u => u := by
        funext u
        cases op with
        | update userId changes => exact absurd ⟨userId, changes, rfl⟩ hupdate
        | _ => rfl
      rw [hwritten]
      exact Option.map_id'
  | insertUser new => exact iff_of_true (allVerified_insertUser hall) fun _ => trivial
  | insertToken | consumeToken =>
    refine iff_of_true (allVerified_of_same (fun k => ?_) hall) fun _ => trivial
    rw [MailStore.identity_exec (fun _ h => MailCall.noConfusion h) fun _ h => MailCall.noConfusion h]
  | generateSecureToken | findUser | findByPublicSub =>
    exact iff_of_true (allVerified_of_same (fun _ => rfl) hall) fun _ => trivial

end Statement

/-! ### Runs -/

theorem next_eq_none_of_idle {env : MailEnv}
    (hs : (mailService crypto).step p (.advance tid env) = (p, .idle)) : p.next tid = none := by
  unfold Pool.next
  cases ht : p.threads[tid]? with
  | none => rfl
  | some t =>
    cases hrest : t.rest with
    | ret a => simp only [hrest]
    | call op k =>
      rcases step_cases p (.advance tid env) with ⟨_, h, -⟩ | ⟨_, _, _, _, _, _, h, -, hs'⟩ | hs'
      · cases h
      · rw [hs'] at hs
        cases congrArg Prod.snd hs
      · simp only [step, ht] at hs'
        split at hs'
        · rename_i hret
          rw [hret] at hrest
          cases hrest
        · cases congrArg Prod.snd hs'

/-- One step keeps the invariant exactly when it meets the condition. -/
theorem allVerified_step_iff
    (hrun : (mailService crypto).machine.Run KeepsVerified ((mailService crypto).start s₀) history p)
    (hall : AllVerified history p.shared) (tid : Nat) (env : MailEnv) :
    AllVerified (((mailService crypto).machine.step p (.advance tid env)).2 :: history)
        ((mailService crypto).machine.step p (.advance tid env)).1.shared ↔
      KeepsVerified history p (.advance tid env) := by
  have hmachine : (mailService crypto).machine.step p (.advance tid env) =
    (mailService crypto).step p (.advance tid env) := rfl
  rw [hmachine]
  rcases step_cases p (.advance tid env) with ⟨_, h, -⟩ | ⟨i, env', t, op, k, hrest, h, ht, hs⟩ | hs
  · cases h
  · cases h
    have hone : SetsOne op := by
      have honly := setsOne_of_thread hrun ht
      rw [hrest] at honly
      exact honly.1
    rw [hs]
    refine (allVerified_exec_iff hall hone).trans ?_
    simp only [KeepsVerified, Pool.next_eq ht hrest]
  · rw [hs]
    refine iff_of_true hall.cons fun _ => ?_
    rw [next_eq_none_of_idle hs]
    trivial

/-- Every verified user has redeemed a token for the address he has, in every run whose updates keep
addresses verified; and the first update that does not, breaks it. -/
theorem verified_address_redeemed
    (hstart : ∀ id, ∀ row ∈ s₀.identity.users.lookup id, row.emailVerified = false)
    (hrun : (mailService crypto).machine.Run KeepsVerified ((mailService crypto).start s₀)
      history p) :
    AllVerified history p.shared ∧ ∀ tid env,
      AllVerified (((mailService crypto).machine.step p (.advance tid env)).2 :: history)
          ((mailService crypto).machine.step p (.advance tid env)).1.shared ↔
        KeepsVerified history p (.advance tid env) := by
  have hall : AllVerified history p.shared := by
    refine hrun.invariant (fun history p => AllVerified history p.shared) ?_ ?_
    · intro id row hrow hverified
      rw [hstart id row hrow] at hverified
      cases hverified
    · intro history q i hq hq' hok
      cases i with
      | start request => exact hq'.cons
      | advance tid env => exact (allVerified_step_iff hq hq' tid env).mpr hok
  exact ⟨hall, allVerified_step_iff hrun hall⟩

/-! ### Changing the address and redeeming the token -/

instance (history : List MailEvent) (id : Int) (email : String) :
    Decidable (Redeemed history id email) :=
  inferInstanceAs (Decidable (∃ e ∈ history, eventRedeemed e = some (id, email)))

instance (history : List MailEvent) (row : UserRow) (id : Int) (changes : Changes) :
    Decidable (AddressKept history row id changes) :=
  inferInstanceAs (Decidable (_ ∧ _))

instance (history : List MailEvent) (s : MailStore) :
    (call : Option MailCall) → Decidable (UpdateKeeps history s call)
  | some (.user (.update id changes)) =>
    inferInstanceAs (Decidable (∀ row ∈ s.identity.users.lookup id,
      AddressKept history row id changes))
  | some (.user .nowSeconds) | some (.user .randomBytes) | some (.user .choose)
  | some (.user (.findLogin _)) | some (.user (.findOne _)) | some (.user (.findBy _))
  | some (.user (.findBySub _)) | some (.user .findAdminRoles)
  | some (.user (.findRoleHolders _)) | some (.user (.countActive _ _))
  | some (.user (.deleteRoles _)) | some (.user (.findRoles _)) | some (.user (.insertRole _ _))
  | some (.user (.revokeAccessTokens _ _)) | some (.user (.revokeRefreshTokens _ _))
  | some (.insertUser _) | some .generateSecureToken | some (.insertToken _ _)
  | some (.consumeToken _ _) | some (.findUser _) | some (.findByPublicSub _)
  | none => .isTrue trivial

instance (history : List MailEvent) (pool : Pool (mailService crypto))
    (i : Input MailEnv MailRequest) : Decidable (KeepsVerified history pool i) :=
  match i with
  | .start (.updateUser _ body) => inferInstanceAs (Decidable (body.emailVerified = none))
  | .start (.registerUser _ _ _) | .start (.legacyRegisterUser _ _ _)
  | .start (.resendVerification _) | .start (.verifyToken _) => .isTrue trivial
  | .advance tid env =>
    inferInstanceAs (Decidable (env.fails = false → UpdateKeeps history pool.shared (pool.next tid)))

/-- User 7 has not verified his address yet. -/
def knownStore : MailStore where
  identity :=
    { users := AList.insert 7 { knownUser with email := some "old@example.com" } ∅ }
  nextUserId := 8

def executed (inputs : List (Input MailEnv MailRequest)) :
    List MailEvent × Pool (mailService knownCrypto) :=
  (mailService knownCrypto).machine.exec [] ((mailService knownCrypto).start knownStore) inputs

def sent (tid : Nat) : List (Input MailEnv MailRequest) :=
  .start (.resendVerification knownUser.publicSub) ::
    List.replicate 4 (.advance tid { token := "reset token", now := 100 })

def verified (tid : Nat) : List (Input MailEnv MailRequest) :=
  .start (.verifyToken "reset token") :: List.replicate 4 (.advance tid { now := 200 })

def changed (tid : Nat) (email : String) : List (Input MailEnv MailRequest) :=
  .start (.updateUser 7 { email := some email }) :: List.replicate 2 (.advance tid {})

def user7 (inputs : List (Input MailEnv MailRequest)) : Option (Option String × Bool) :=
  ((executed inputs).2.shared.identity.users.lookup 7).map fun row => (row.email, row.emailVerified)

/-- The address is changed before the token for the new one is sent, and once more to itself. -/
def changedFirst : List (Input MailEnv MailRequest) :=
  changed 0 "new@example.com" ++ sent 1 ++ verified 2 ++ changed 3 " NEW@example.com"

theorem verified_address_redeemed_changedFirst :
    AllVerified (executed changedFirst).1 (executed changedFirst).2.shared ∧
      user7 changedFirst = some (some "new@example.com", true) := by
  have hfacts : (mailService knownCrypto).machine.Guarded KeepsVerified []
        ((mailService knownCrypto).start knownStore) changedFirst ∧
      user7 changedFirst = some (some "new@example.com", true) := by
    decide +kernel
  obtain ⟨hguarded, huser⟩ := hfacts
  have hstart : ∀ id, ∀ row ∈ knownStore.identity.users.lookup id, row.emailVerified = false := by
    intro id row hrow
    by_cases hid : id = 7
    · subst hid
      cases hrow
      rfl
    · have hnone : knownStore.identity.users.lookup id = none := AList.lookup_insert_ne hid
      rw [hnone] at hrow
      cases hrow
  refine ⟨?_, huser⟩
  exact (verified_address_redeemed hstart (.exec_of_guarded .init changedFirst hguarded)).1

/-- The verified user gets another address. -/
def changedAfter : List (Input MailEnv MailRequest) :=
  sent 0 ++ verified 1 ++ changed 2 "new@example.com"

/-- The token for the old address is redeemed when the user has another one. -/
def changedBetween : List (Input MailEnv MailRequest) :=
  sent 0 ++ changed 1 "new@example.com" ++ verified 2

theorem not_allVerified_of_user7 {inputs : List (Input MailEnv MailRequest)}
    (hrow : user7 inputs = some (some "new@example.com", true))
    (hredeemed : ¬Redeemed (executed inputs).1 7 "new@example.com") :
    ¬AllVerified (executed inputs).1 (executed inputs).2.shared := by
  intro hall
  obtain ⟨row, hlookup, heq⟩ := Option.map_eq_some_iff.mp hrow
  obtain ⟨hemail, hverified⟩ := Prod.mk.inj heq
  obtain ⟨email, hmem, hsent⟩ := hall 7 row hlookup hverified
  rw [hemail] at hmem
  cases hmem
  exact hredeemed hsent

theorem changed_address_unverified :
    (mailService knownCrypto).machine.Run anyStep ((mailService knownCrypto).start knownStore)
        (executed changedAfter).1 (executed changedAfter).2 ∧
      ¬AllVerified (executed changedAfter).1 (executed changedAfter).2.shared ∧
    (mailService knownCrypto).machine.Run anyStep ((mailService knownCrypto).start knownStore)
        (executed changedBetween).1 (executed changedBetween).2 ∧
      ¬AllVerified (executed changedBetween).1 (executed changedBetween).2.shared := by
  have hfacts : (user7 changedAfter = some (some "new@example.com", true) ∧
        ¬Redeemed (executed changedAfter).1 7 "new@example.com") ∧
      user7 changedBetween = some (some "new@example.com", true) ∧
        ¬Redeemed (executed changedBetween).1 7 "new@example.com" := by
    decide +kernel
  obtain ⟨hafter, hbetween⟩ := hfacts
  exact ⟨Machine.run_exec _ _ _, not_allVerified_of_user7 hafter.1 hafter.2,
    Machine.run_exec _ _ _, not_allVerified_of_user7 hbetween.1 hbetween.2⟩

end AuthForge.VerifiedAddress
