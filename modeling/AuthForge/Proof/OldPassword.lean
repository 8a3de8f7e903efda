import AuthForge.Account.SelfService

/-!
# An old password after a reset

A login that accepts a password against a hash in the legacy format starts a task that stores a
fresh hash of that password. The task reads the row once more but does not look at it, so when a
reset stores its own hash in between, the task overwrites it and the old password works again. The
result is about runs in which no such task is under way when a reset stores its hash.
-/

namespace AuthForge.OldPassword

open Identity Account
open Service hiding program

/-- The statement writes the password of user `id`. -/
def setsPassword (id : Int) : AccountCall → Bool
  | .user (.update userId changes) => userId = id && changes.passwordHash.isSome
  | _ => false

def isLogin : AccountRequest → Bool
  | .validateUser _ _ => true
  | _ => false

def newPassword : AccountRequest → Option String
  | .confirmReset _ newPassword => some newPassword
  | .changePassword _ (some body) => some body.newPassword
  | _ => none

/-- The two passwords have different keys under every salt. -/
def Distinct (crypto : IdentityCrypto) (old new : String) : Prop :=
  ∀ salt, crypto.pbkdf2HmacSha256 old salt kPbkdf2Iterations kPbkdf2KeyLength ≠
    crypto.pbkdf2HmacSha256 new salt kPbkdf2Iterations kPbkdf2KeyLength

variable {crypto : IdentityCrypto} {old : String} {id : Int}

/-! ### Which statements write a password -/

def Keeps (id : Int) (op : UserCall) : Prop := setsPassword id (.user op) = false

theorem only_onFound_other {password : String} {i : Int} {user : UserRow} (hi : i ≠ id) :
    (Statements.onFound crypto password i user).Only (Keeps id) := by
  refine Statements.only_onFound rfl rfl rfl rfl ?_
  intro c
  simp [Keeps, setsPassword, hi]

/-- A hash in the current format is not replaced. -/
theorem only_onFound_fresh {password : String} {user : UserRow}
    (hfresh : isLegacyHash user.passwordHash = false) :
    (Statements.onFound crypto password id user).Only (Keeps id) := by
  have hkeeps : ∀ c : Changes, c.passwordHash = none → Keeps id (.update id c) := by
    intro c hc
    simp [Keeps, setsPassword, hc]
  have hchoose : Keeps id .choose := rfl
  refine ⟨rfl, ?_⟩
  intro now
  dsimp only
  split
  · trivial
  split
  · refine Prog.only_spawn hchoose ?_ trivial
    exact Statements.only_withRow rfl fun _ => ⟨rfl, fun _ => ⟨hkeeps _ rfl, fun _ => trivial⟩⟩
  · rw [hfresh]
    refine Prog.only_spawn hchoose ?_ (Prog.only_spawn hchoose ?_ trivial)
    · split
      · exact Statements.only_withRow rfl fun _ => ⟨hkeeps _ rfl, fun _ => trivial⟩
      · trivial
    · trivial

/-- A request other than a login writes only fresh hashes of its new password. -/
def FromReset (crypto : IdentityCrypto) (request : AccountRequest) (op : AccountCall) : Prop :=
  ∀ id, setsPassword id op = true → ∃ new salt newHash, newPassword request = some new ∧
    hashPassword crypto new salt = some newHash ∧ op = setPassword id newHash

theorem fromReset_of_not_update {request : AccountRequest} {op : AccountCall}
    (h : ∀ id, setsPassword id op = false) : FromReset crypto request op := by
  intro id hset
  rw [h id] at hset
  cases hset

theorem only_revokeTokensOf {request : AccountRequest} (userId message : String) :
    (revokeTokensOf userId message).Only (FromReset crypto request) :=
  ⟨fromReset_of_not_update fun _ => rfl, fun _ => ⟨fromReset_of_not_update fun _ => rfl,
    fun _ => trivial⟩⟩

theorem only_withNewHash {request : AccountRequest} {new : String} {k : String → AccountProg}
    (hk : ∀ salt newHash, hashPassword crypto new salt = some newHash →
      (k newHash).Only (FromReset crypto request)) :
    (withNewHash crypto new k).Only (FromReset crypto request) := by
  refine ⟨fromReset_of_not_update fun _ => rfl, ?_⟩
  intro salt
  dsimp only
  split
  · trivial
  · rename_i newHash hhash
    exact hk salt newHash hhash

theorem only_setPassword {request : AccountRequest} {new newHash : String} {salt : List UInt8}
    {userId : Int} {next : Bool → AccountProg} (hnew : newPassword request = some new)
    (hhash : hashPassword crypto new salt = some newHash)
    (hnext : ∀ ok, (next ok).Only (FromReset crypto request)) :
    (.call (setPassword userId newHash) next : AccountProg).Only (FromReset crypto request) := by
  refine ⟨?_, hnext⟩
  intro id hset
  have hid : userId = id := by
    simp only [setPassword, setsPassword, Bool.and_eq_true, decide_eq_true_eq] at hset
    exact hset.1
  exact ⟨new, salt, newHash, hnew, hhash, by rw [hid]⟩

theorem only_confirmReset (token new : String) :
    (confirmReset crypto token new).Only (FromReset crypto (.confirmReset token new)) := by
  unfold confirmReset
  split
  · trivial
  split
  · trivial
  refine ⟨fromReset_of_not_update fun _ => rfl, fun _ =>
    ⟨fromReset_of_not_update fun _ => rfl, ?_⟩⟩
  intro used
  rcases used with _ | _ | ⟨userId, _⟩
  · trivial
  · trivial
  refine only_withNewHash ?_
  intro salt newHash hhash
  refine ⟨fromReset_of_not_update fun _ => rfl, ?_⟩
  intro found
  cases found with
  | none => trivial
  | some user =>
    refine only_setPassword rfl hhash ?_
    intro ok
    cases ok with
    | false => trivial
    | true => exact only_revokeTokensOf _ _

theorem only_changePassword (userId : String) (body : Option PasswordChange) :
    (changePassword crypto userId body).Only (FromReset crypto (.changePassword userId body)) := by
  unfold changePassword
  split
  · trivial
  split
  · trivial
  split
  · trivial
  refine ⟨fromReset_of_not_update fun _ => rfl, ?_⟩
  intro users
  rcases users with _ | _ | ⟨⟨i, user⟩, _⟩
  · trivial
  · trivial
  dsimp only
  unfold changeFound
  split
  · trivial
  · trivial
  refine only_withNewHash ?_
  intro salt newHash hhash
  refine only_setPassword rfl hhash ?_
  intro ok
  cases ok with
  | false => trivial
  | true => exact only_revokeTokensOf _ _

theorem only_revokeAuthorizedApp (userId clientId : String) :
    (revokeAuthorizedApp userId clientId).Only
      (FromReset crypto (.revokeAuthorizedApp userId clientId)) := by
  unfold revokeAuthorizedApp
  split
  · trivial
  refine ⟨fromReset_of_not_update fun _ => rfl, ?_⟩
  intro users
  rcases users with _ | _ | ⟨⟨i, user⟩, _⟩
  · trivial
  · trivial
  refine ⟨fromReset_of_not_update fun _ => rfl, ?_⟩
  intro ok
  cases ok with
  | false => trivial
  | true => exact ⟨fromReset_of_not_update fun _ => rfl, fun _ => trivial⟩

theorem only_request {request : AccountRequest} (h : isLogin request = false) :
    (program crypto request).Only (FromReset crypto request) := by
  cases request with
  | validateUser identifier password => cases h
  | confirmReset token new => exact only_confirmReset token new
  | changePassword userId body => exact only_changePassword userId body
  | revokeAuthorizedApp userId clientId => exact only_revokeAuthorizedApp userId clientId

/-! ### Runs in which resets meet no rehash -/

/-- The login has read a row and may still write the password of user `id`. -/
def Rehashing (id : Int) (t : Thread (service crypto)) : Prop :=
  isLogin t.request = true ∧ t.answers ≠ [] ∧ ¬t.rest.Only fun op => setsPassword id op = false

/-- New passwords differ from the old one, and when a request other than a login writes the password
of user `id`, no login is rehashing. -/
def MeetsNoRehash (crypto : IdentityCrypto) (old : String) (id : Int) :
    Guard (Pool (service crypto)) (Input StatementEnv AccountRequest) AccountEvent :=
  fun _ p i =>
    match i with
    | .start request => ∀ new, newPassword request = some new → Distinct crypto old new
    | .advance tid _ =>
      ∀ t op, p.threads[tid]? = some t → isLogin t.request = false → p.next tid = some op →
        setsPassword id op = true → ∀ u ∈ p.threads, ¬Rehashing id u

/-- A request other than a login has written the password of user `id`. -/
def resets (id : Int) : AccountEvent → Bool
  | .called _ request _ ⟨.user (.update userId changes), ok⟩ =>
    !isLogin request && userId = id && changes.passwordHash.isSome && ok
  | _ => false

def ResetDone (id : Int) (history : List AccountEvent) : Prop := ∃ e ∈ history, resets id e = true

structure ResetInv (old : String) (id : Int) (history : List AccountEvent)
    (p : Pool (service crypto)) : Prop where
  distinct : ∀ t ∈ p.threads, ∀ new, newPassword t.request = some new → Distinct crypto old new
  hashed : ResetDone id history → ∀ row, p.shared.identity.users.lookup id = some row →
    ∃ new salt, Distinct crypto old new ∧ hashPassword crypto new salt = some row.passwordHash
  quiet : ResetDone id history → ∀ t ∈ p.threads, ¬Rehashing id t

variable {history : List AccountEvent} {p : Pool (service crypto)}

theorem passwordHash_written {env : StatementEnv} {op : UserCall} {u : UserRow} (hop : Keeps id op) :
    (IdentityStore.written env op id u).passwordHash = u.passwordHash := by
  cases op with
  | update userId changes =>
    simp only [IdentityStore.written]
    split
    · rename_i hwrites
      simp only [Keeps, setsPassword, hwrites.2, decide_true, Bool.true_and,
        Option.isSome_eq_false_iff, Option.isNone_iff_eq_none] at hop
      simp [Changes.apply, hop]
    · rfl
  | _ => rfl

theorem passwordHash_exec {env : StatementEnv} {op : AccountCall} {s : AccountStore} {row : UserRow}
    (hop : setsPassword id op = false)
    (hrow : (AccountStore.exec env op s).2.identity.users.lookup id = some row) :
    ∃ row₀, s.identity.users.lookup id = some row₀ ∧ row.passwordHash = row₀.passwordHash := by
  by_cases huser : ∃ userCall, op = .user userCall
  · obtain ⟨userCall, rfl⟩ := huser
    change (IdentityStore.exec env userCall s.identity).2.users.lookup id = _ at hrow
    rw [IdentityStore.lookup_exec] at hrow
    obtain ⟨row₀, hrow₀, rfl⟩ := Option.map_eq_some_iff.mp hrow
    exact ⟨row₀, hrow₀, passwordHash_written hop⟩
  · rw [AccountStore.identity_exec fun userCall h => huser ⟨userCall, h⟩] at hrow
    exact ⟨row, hrow, rfl⟩

/-- After a write of a reset the row holds the hash that was written. -/
theorem passwordHash_set {env : StatementEnv} {newHash : String} {s : AccountStore} {row : UserRow}
    (hdone : (AccountStore.exec env (setPassword id newHash) s).1 = true)
    (hrow : (AccountStore.exec env (setPassword id newHash) s).2.identity.users.lookup id = some row) :
    row.passwordHash = newHash := by
  change (IdentityStore.exec env (.update id _) s.identity).2.users.lookup id = _ at hrow
  rw [IdentityStore.lookup_exec] at hrow
  obtain ⟨row₀, -, rfl⟩ := Option.map_eq_some_iff.mp hrow
  cases hfails : env.fails with
  | true =>
    simp [setPassword, AccountStore.exec, IdentityStore.exec, IdentityStore.statement, hfails] at hdone
  | false => simp [IdentityStore.written, hfails, Changes.apply]

theorem passwordHash_unset {env : StatementEnv} {newHash : String} {s : AccountStore} {row : UserRow}
    (hfailed : ¬(AccountStore.exec env (setPassword id newHash) s).1 = true)
    (hrow : (AccountStore.exec env (setPassword id newHash) s).2.identity.users.lookup id = some row) :
    ∃ row₀, s.identity.users.lookup id = some row₀ ∧ row.passwordHash = row₀.passwordHash := by
  change (IdentityStore.exec env (.update id _) s.identity).2.users.lookup id = _ at hrow
  rw [IdentityStore.lookup_exec] at hrow
  obtain ⟨row₀, hrow₀, rfl⟩ := Option.map_eq_some_iff.mp hrow
  refine ⟨row₀, hrow₀, ?_⟩
  cases hfails : env.fails with
  | true => simp [IdentityStore.written, hfails]
  | false =>
    simp [setPassword, AccountStore.exec, IdentityStore.exec, IdentityStore.statement, hfails]
      at hfailed

/-- The login after its first query. -/
def afterFind (crypto : IdentityCrypto) (password : String) (found : Option (Int × UserRow)) :
    AccountProg :=
  Prog.bind (Prog.embed .user (fun _ r => r)
    (match found with
      | none => .ret (.validated .rejected)
      | some (id, user) => Statements.onFound crypto password id user : UserProg))
    fun reply => .ret (.login reply)

theorem validateUser_eq (identifier password : String) :
    Account.validateUser crypto identifier password =
      .call (.user (.findLogin identifier)) (afterFind crypto password) := by
  unfold Account.validateUser Statements.validateUser
  rw [Prog.embed, Prog.bind]
  congr 1
  funext found
  rcases found with _ | ⟨i, user⟩
  · rfl
  · rfl

theorem only_afterFind {password : String} {found : Option (Int × UserRow)}
    (hfresh : ∀ user, found = some (id, user) → isLegacyHash user.passwordHash = false) :
    (afterFind crypto password found).Only fun op => setsPassword id op = false := by
  refine Prog.only_bind (Prog.only_embed ?_) fun _ => trivial
  rcases found with _ | ⟨i, user⟩
  · trivial
  by_cases hi : i = id
  · subst hi
    exact only_onFound_fresh (hfresh user rfl)
  · exact only_onFound_other hi

theorem resetDone_cons {e : AccountEvent} :
    ResetDone id (e :: history) ↔ resets id e = true ∨ ResetDone id history := by
  simp [ResetDone]

theorem ResetInv.started (h : ResetInv old id history p) {request : AccountRequest}
    (hok : ∀ new, newPassword request = some new → Distinct crypto old new) :
    ResetInv old id (.started p.threads.length request :: history)
      ({ p with threads := p.threads ++ [.fresh _ request] } : Pool (service crypto)) := by
  have hdone : ResetDone id (.started p.threads.length request :: history) → ResetDone id history := by
    intro hdone
    rcases resetDone_cons.mp hdone with h | h
    · cases h
    · exact h
  refine ⟨?_, fun hd => h.hashed (hdone hd), ?_⟩
  · intro t ht
    rcases List.mem_append.mp ht with ht | ht
    · exact h.distinct t ht
    · obtain rfl := List.mem_singleton.mp ht
      exact hok
  · intro hd t ht
    rcases List.mem_append.mp ht with ht | ht
    · exact h.quiet (hdone hd) t ht
    · obtain rfl := List.mem_singleton.mp ht
      intro hrehash
      exact hrehash.2.1 rfl

theorem ResetInv.idle (h : ResetInv old id history p) : ResetInv old id (.idle :: history) p := by
  have hdone : ResetDone id (.idle :: history) → ResetDone id history := by
    intro hdone
    rcases resetDone_cons.mp hdone with h | h
    · cases h
    · exact h
  exact ⟨h.distinct, fun hd => h.hashed (hdone hd), fun hd => h.quiet (hdone hd)⟩

/-- A login that is not rehashing does not write the password next. -/
theorem keeps_of_not_rehashing {t : Thread (service crypto)} {op : AccountCall}
    {k : op.Resp → AccountProg} (hlogin : isLogin t.request = true) (hrest : t.rest = .call op k)
    (hquiet : ¬Rehashing id t) : setsPassword id op = false := by
  by_cases hnil : t.answers = []
  · have hreached := t.reached
    rw [hnil, hrest] at hreached
    cases hreq : t.request with
    | validateUser identifier password =>
      rw [hreq] at hreached
      change Prog.Reached (Account.validateUser crypto identifier password) [] _ at hreached
      rw [validateUser_eq] at hreached
      cases hreached
      rfl
    | _ =>
      rw [hreq] at hlogin
      cases hlogin
  · have honly : t.rest.Only fun op => setsPassword id op = false := by
      by_contra hnot
      exact hquiet ⟨hlogin, hnil, hnot⟩
    rw [hrest] at honly
    exact honly.1

/-- A login stays quiet if what its first query finds of user `id` is in the current format. -/
theorem not_rehashing_advance {t : Thread (service crypto)} {op : AccountCall}
    {k : op.Resp → AccountProg} (hrest : t.rest = .call op k) (hquiet : ¬Rehashing id t)
    {env : StatementEnv} {s : AccountStore}
    (hfresh : ∀ row, s.identity.users.lookup id = some row → isLegacyHash row.passwordHash = false) :
    ¬Rehashing id (t.advance hrest (AccountStore.exec env op s).1) := by
  intro hrehash
  obtain ⟨hlogin, -, hnot⟩ := hrehash
  change isLogin t.request = true at hlogin
  apply hnot
  by_cases hnil : t.answers = []
  · have hreached := t.reached
    rw [hnil, hrest] at hreached
    cases hreq : t.request with
    | validateUser identifier password =>
      rw [hreq] at hreached
      change Prog.Reached (Account.validateUser crypto identifier password) [] _ at hreached
      rw [validateUser_eq] at hreached
      cases hreached
      refine only_afterFind ?_
      intro user hfound
      apply hfresh user
      change (if env.fails then none else _) = _ at hfound
      split at hfound
      · cases hfound
      · exact (IdentityStore.findUnique_eq_some hfound).1
    | _ =>
      rw [hreq] at hlogin
      cases hlogin
  · have honly : t.rest.Only fun op => setsPassword id op = false := by
      by_contra hnot
      exact hquiet ⟨hlogin, hnil, hnot⟩
    rw [hrest] at honly
    exact honly.2 _

theorem resets_called {tid : Nat} {request : AccountRequest} {env : StatementEnv} {op : AccountCall}
    {r : op.Resp} (h : resets id (.called tid request env ⟨op, r⟩) = true) :
    isLogin request = false ∧ setsPassword id op = true := by
  cases op with
  | user userCall =>
    cases userCall with
    | update userId changes =>
      simp only [resets, Bool.and_eq_true, Bool.not_eq_true', decide_eq_true_eq] at h
      refine ⟨h.1.1.1, ?_⟩
      simp [setsPassword, h.1.1.2, h.1.2]
    | _ => cases h
  | _ => cases h

theorem resets_setPassword {tid : Nat} {request : AccountRequest} {env : StatementEnv}
    {newHash : String} {ok : Bool}
    (h : resets id (.called tid request env ⟨setPassword id newHash, ok⟩) = true) : ok = true := by
  simp only [setPassword, resets, Bool.and_eq_true] at h
  exact h.2

theorem isLegacyHash_of_hashed (h : ResetInv old id history p) (hdone : ResetDone id history)
    {row : UserRow} (hrow : p.shared.identity.users.lookup id = some row) :
    isLegacyHash row.passwordHash = false := by
  obtain ⟨new, salt, -, hhash⟩ := h.hashed hdone row hrow
  exact isLegacyHash_of_hashPassword hhash

/-- A statement that leaves the password of user `id` alone. -/
theorem ResetInv.kept (h : ResetInv old id history p) {tid : Nat} {t : Thread (service crypto)}
    {op : AccountCall} {k : op.Resp → AccountProg} (ht : p.threads[tid]? = some t)
    (hrest : t.rest = .call op k) (env : StatementEnv) (hop : setsPassword id op = false) :
    ResetInv old id (.called tid t.request env ⟨op, (AccountStore.exec env op p.shared).1⟩ :: history)
      (p.advanced tid env hrest) := by
  have hmem := List.mem_of_getElem? ht
  have hdone : ResetDone id
      (.called tid t.request env ⟨op, (AccountStore.exec env op p.shared).1⟩ :: history) →
      ResetDone id history := by
    intro hdone
    rcases resetDone_cons.mp hdone with hresets | hdone
    · cases (resets_called hresets).2.symm.trans hop
    · exact hdone
  refine ⟨?_, ?_, ?_⟩
  · intro u hu
    rcases List.mem_or_eq_of_mem_set hu with hu | rfl
    · exact h.distinct u hu
    · exact h.distinct t hmem
  · intro hd row hrow
    obtain ⟨row₀, hrow₀, hsame⟩ := passwordHash_exec hop hrow
    rw [hsame]
    exact h.hashed (hdone hd) row₀ hrow₀
  · intro hd u hu
    rcases List.mem_or_eq_of_mem_set hu with hu | rfl
    · exact h.quiet (hdone hd) u hu
    · refine not_rehashing_advance hrest (h.quiet (hdone hd) t hmem) ?_
      intro row hrow
      exact isLegacyHash_of_hashed h (hdone hd) hrow

/-- A reset stores its hash while no login is rehashing. -/
theorem ResetInv.reset (h : ResetInv old id history p) {tid : Nat} {t : Thread (service crypto)}
    {newHash new : String} {salt : List UInt8}
    {k : (setPassword id newHash).Resp → AccountProg} (ht : p.threads[tid]? = some t)
    (hrest : t.rest = .call (setPassword id newHash) k) (env : StatementEnv)
    (hlogin : isLogin t.request = false) (hnew : newPassword t.request = some new)
    (hhash : hashPassword crypto new salt = some newHash)
    (halone : ∀ u ∈ p.threads, ¬Rehashing id u) :
    ResetInv old id (.called tid t.request env
        ⟨setPassword id newHash, (AccountStore.exec env (setPassword id newHash) p.shared).1⟩ :: history)
      (p.advanced tid env hrest) := by
  have hmem := List.mem_of_getElem? ht
  refine ⟨?_, ?_, ?_⟩
  · intro u hu
    rcases List.mem_or_eq_of_mem_set hu with hu | rfl
    · exact h.distinct u hu
    · exact h.distinct t hmem
  · intro hdone row hrow
    by_cases hok : (AccountStore.exec env (setPassword id newHash) p.shared).1 = true
    · rw [passwordHash_set hok hrow]
      exact ⟨new, salt, h.distinct t hmem new hnew, hhash⟩
    · -- the statement failed, so an earlier reset was done and the row is as it left it
      rcases resetDone_cons.mp hdone with hresets | hdone
      · exact absurd (resets_setPassword hresets) hok
      · obtain ⟨row₀, hrow₀, hsame⟩ := passwordHash_unset hok hrow
        rw [hsame]
        exact h.hashed hdone row₀ hrow₀
  · intro _ u hu
    rcases List.mem_or_eq_of_mem_set hu with hu | rfl
    · exact halone u hu
    · intro hrehash
      cases hrehash.1.symm.trans hlogin

/-- A login stores its fresh hash, which it does only before a reset is done. -/
theorem ResetInv.rehashed (h : ResetInv old id history p) {tid : Nat} {t : Thread (service crypto)}
    {op : AccountCall} {k : op.Resp → AccountProg} (ht : p.threads[tid]? = some t)
    (hrest : t.rest = .call op k) (env : StatementEnv) (hlogin : isLogin t.request = true)
    (hset : setsPassword id op = true) :
    ResetInv old id (.called tid t.request env ⟨op, (AccountStore.exec env op p.shared).1⟩ :: history)
      (p.advanced tid env hrest) := by
  have hmem := List.mem_of_getElem? ht
  have hundone : ¬ResetDone id
      (.called tid t.request env ⟨op, (AccountStore.exec env op p.shared).1⟩ :: history) := by
    intro hdone
    rcases resetDone_cons.mp hdone with hresets | hdone
    · cases hlogin.symm.trans (resets_called hresets).1
    · cases hset.symm.trans (keeps_of_not_rehashing hlogin hrest (h.quiet hdone t hmem))
  refine ⟨?_, fun hdone => absurd hdone hundone, fun hdone => absurd hdone hundone⟩
  intro u hu
  rcases List.mem_or_eq_of_mem_set hu with hu | rfl
  · exact h.distinct u hu
  · exact h.distinct t hmem

theorem resetInv_of_run {s₀ : AccountStore}
    (hrun : (service crypto).machine.Run (MeetsNoRehash crypto old id) (Service.start _ s₀) history p) :
    ResetInv old id history p := by
  refine hrun.invariant (ResetInv old id) ?_ ?_
  · refine ⟨?_, ?_, ?_⟩
    · intro t ht
      cases ht
    · intro hdone
      obtain ⟨e, he, -⟩ := hdone
      cases he
    · intro _ t ht
      cases ht
  · intro past q i _ hinv hok
    change ResetInv old id ((Service.step _ q i).2 :: past) (Service.step _ q i).1
    rcases step_cases q i with ⟨request, rfl, hs⟩ | ⟨tid, env, t, op, k, hrest, rfl, ht, hs⟩ | hs
    · rw [hs]
      exact hinv.started hok
    · rw [hs]
      cases hset : setsPassword id op with
      | false => exact hinv.kept ht hrest env hset
      | true =>
        cases hlogin : isLogin t.request with
        | false =>
          have halone := hok t op ht hlogin (Pool.next_eq ht hrest) hset
          have hprogram : (program crypto t.request).Only (FromReset crypto t.request) :=
            only_request hlogin
          obtain ⟨hnext, -⟩ := hprogram.of_reached (hrest ▸ t.reached)
          obtain ⟨new, salt, newHash, hnew, hhash, rfl⟩ := hnext.1 id hset
          exact hinv.reset ht hrest env hlogin hnew hhash halone
        | true => exact hinv.rehashed ht hrest env hlogin hset
    · rw [hs]
      exact hinv.idle

/-- In every run in which resets meet no rehash, the old password does not verify in any state after
the reset has stored its hash. -/
theorem old_password_gone (crypto : IdentityCrypto) (old : String) (id : Int) (s₀ : AccountStore)
    (history : List AccountEvent) (p : Pool (service crypto)) (row : UserRow)
    (hrun : (service crypto).machine.Run (MeetsNoRehash crypto old id) (Service.start _ s₀) history p)
    (hdone : ResetDone id history) (hrow : p.shared.identity.users.lookup id = some row) :
    verifyPassword crypto old row.passwordHash row.salt = false := by
  obtain ⟨new, salt, hdistinct, hhash⟩ := (resetInv_of_run hrun).hashed hdone row hrow
  by_contra hverify
  exact hdistinct salt (verifyPassword_hashPassword hhash (by simpa using hverify))

/-! ### A login and a reset -/

def login : AccountRequest := .validateUser "alice" "old password"

def reset : AccountRequest := .confirmReset "reset token" "new password"

def steps (tid n : Nat) : List (Input StatementEnv AccountRequest) :=
  List.replicate n (.advance tid { now := 1500, random := knownSalt })

def executed (inputs : List (Input StatementEnv AccountRequest)) :
    List AccountEvent × Pool (service knownCrypto) :=
  (service knownCrypto).machine.exec [] (Service.start _ (knownAccount ⟨∅, ∅⟩)) inputs

def verifiesOld (s : AccountStore) : Option Bool :=
  (s.identity.users.lookup 7).map fun row =>
    verifyPassword knownCrypto "old password" row.passwordHash row.salt

/-- The reset runs between the two statements of the login's rehash. -/
def rehashLast : List (Input StatementEnv AccountRequest) :=
  .start login :: steps 0 4 ++ .start reset :: steps 1 7 ++ steps 0 1

/-- Both requests are finished, the reset has stored its hash, and the old password verifies. -/
theorem rehashLast_verifies_old :
    (service knownCrypto).machine.Run anyStep (Service.start _ (knownAccount ⟨∅, ∅⟩))
      (executed rehashLast).1 (executed rehashLast).2 ∧
    isLegacyHash knownUser.passwordHash = true ∧
    (executed rehashLast).2.threads.map (fun t => t.request) = [login, reset] ∧
    (∀ t ∈ (executed rehashLast).2.threads, t.finished = true) ∧
    (executed rehashLast).1.any (resets 7) = true ∧
    verifiesOld (executed rehashLast).2.shared = some true := by
  refine ⟨Machine.run_exec _ _ _, ?_⟩
  decide +kernel

theorem distinct_known : Distinct knownCrypto "old password" "new password" := by
  intro salt
  by_cases hsalt : salt = knownSalt
  · subst hsalt
    decide
  · have hkey : ∀ password, knownCrypto.pbkdf2HmacSha256 password salt kPbkdf2Iterations
        kPbkdf2KeyLength = bytes password := by
      intro password
      simp [knownCrypto, hsalt]
    rw [hkey, hkey]
    decide

/-- The two requests, and no login is under way when the reset stores its hash. -/
def loginsFirst :
    Guard (Pool (service knownCrypto)) (Input StatementEnv AccountRequest) AccountEvent :=
  fun _ p i =>
    match i with
    | .start request => request = login ∨ request = reset
    | .advance tid _ =>
      (p.threads[tid]?.any fun t => !isLogin t.request) = true →
        (p.next tid).any (setsPassword 7) = true →
        ∀ u ∈ p.threads, isLogin u.request = false ∨ u.finished = true

instance (h : List AccountEvent) (p : Pool (service knownCrypto))
    (i : Input StatementEnv AccountRequest) : Decidable (loginsFirst h p i) :=
  match i with
  | .start request => inferInstanceAs (Decidable (request = login ∨ request = reset))
  | .advance tid _ =>
    inferInstanceAs (Decidable ((p.threads[tid]?.any fun t => !isLogin t.request) = true →
      (p.next tid).any (setsPassword 7) = true →
      ∀ u ∈ p.threads, isLogin u.request = false ∨ u.finished = true))

theorem not_rehashing_of_finished {u : Thread (service crypto)} (h : u.finished = true) :
    ¬Rehashing id u := by
  intro hrehash
  obtain ⟨a, ha⟩ := u.exists_ret h
  apply hrehash.2.2
  rw [ha]
  trivial

theorem meetsNoRehash_of_loginsFirst {h : List AccountEvent} {p : Pool (service knownCrypto)}
    {i : Input StatementEnv AccountRequest} (hok : loginsFirst h p i) :
    MeetsNoRehash knownCrypto "old password" 7 h p i := by
  cases i with
  | start request =>
    intro new hnew
    rcases hok with rfl | rfl
    · cases hnew
    · obtain rfl := Option.some.inj hnew
      exact distinct_known
  | advance tid env =>
    intro t op ht hlogin hnext hset u hu
    have hwriter : (p.threads[tid]?.any fun t => !isLogin t.request) = true := by
      simp [ht, hlogin]
    have hwrites : (p.next tid).any (setsPassword 7) = true := by
      simp [hnext, hset]
    rcases hok hwriter hwrites u hu with h | h
    · intro hrehash
      cases hrehash.1.symm.trans h
    · exact not_rehashing_of_finished h

/-- The login is finished before the reset starts. -/
def rehashFirst : List (Input StatementEnv AccountRequest) :=
  .start login :: steps 0 5 ++ .start reset :: steps 1 7

theorem old_password_gone_rehashFirst :
    ∃ row, (executed rehashFirst).2.shared.identity.users.lookup 7 = some row ∧
      verifyPassword knownCrypto "old password" row.passwordHash row.salt = false := by
  have hfacts : (service knownCrypto).machine.Guarded loginsFirst []
        (Service.start _ (knownAccount ⟨∅, ∅⟩)) rehashFirst ∧
      (executed rehashFirst).1.any (resets 7) = true ∧
      ((executed rehashFirst).2.shared.identity.users.lookup 7).isSome = true := by
    decide +kernel
  obtain ⟨hguarded, hresets, hfound⟩ := hfacts
  obtain ⟨row, hrow⟩ := Option.isSome_iff_exists.mp hfound
  have hrun : (service knownCrypto).machine.Run (MeetsNoRehash knownCrypto "old password" 7)
      (Service.start _ (knownAccount ⟨∅, ∅⟩)) (executed rehashFirst).1 (executed rehashFirst).2 :=
    (Machine.Run.exec_of_guarded .init rehashFirst hguarded).mono
      fun _ _ _ hok => meetsNoRehash_of_loginsFirst hok
  have hdone : ResetDone 7 (executed rehashFirst).1 := List.any_eq_true.mp hresets
  exact ⟨row, hrow, old_password_gone knownCrypto "old password" 7 (knownAccount ⟨∅, ∅⟩) _ _ row hrun
    hdone hrow⟩

end AuthForge.OldPassword
