import AuthForge.Admin.UserAdmin

/-!
# Failed logins are counted

Every wrong password of a user makes the identity service read the user's row and write the counter
back in a second statement. Runs in which these pairs of statements do not overlap, and in which
none of them fails, count every failure and set the lock from the last one.
-/

namespace AuthForge.FailedLogins

open Identity Admin Statements
open Service hiding program

variable {crypto : IdentityCrypto} {u : Int} {row₀ : UserRow}

/-! ### The stages of a login with a wrong password -/

def reads (u : Int) : UserCall → Bool
  | .findBy userId => userId = u
  | _ => false

def writes (u : Int) : UserCall → Bool
  | .update userId _ => userId = u
  | _ => false

def counted (u : Int) (answers : List UserAnswer) : Bool := answers.any fun a => writes u a.op

/-- The counter was read and not yet written back. -/
def counting (u : Int) (answers : List UserAnswer) : Bool :=
  answers.any (fun a => reads u a.op) && !counted u answers

/-- The login found the user, who was not locked: it reached the password check. -/
def reachedCheck (u : Int) : List UserAnswer → Bool
  | ⟨.findLogin _, some (id, user)⟩ :: ⟨.nowSeconds, now⟩ :: _ => id = u && user.lockedUntil ≤ now
  | _ => false

def failure (user : UserRow) (now : Int) : Changes where
  failedLoginCount := some (user.failedLoginCount + 1)
  lockedUntil := some (lockAfter now (user.failedLoginCount + 1))
  lastFailedLogin := some now

def rejected : UserProg := .ret (.validated .rejected)

/-- The login has nothing to do with the user any more. -/
structure Aside (u : Int) (answers : List UserAnswer) (rest : UserProg) : Prop where
  unread : answers.any (fun a => reads u a.op) = false
  unwritten : counted u answers = false
  unchecked : ∀ later, reachedCheck u (answers ++ later) = false
  only : rest.Only fun op => reads u op = false ∧ writes u op = false

inductive Stage (crypto : IdentityCrypto) (u : Int) (password : String) :
    List UserAnswer → UserProg → Prop
  | started {identifier : String} :
      Stage crypto u password [] (validateUser crypto identifier password)
  | aside {answers : List UserAnswer} {rest : UserProg} (h : Aside u answers rest) :
      Stage crypto u password answers rest
  | found {identifier : String} {user : UserRow}
      (hwrong : verifyPassword crypto password user.passwordHash user.salt = false) :
      Stage crypto u password [⟨.findLogin identifier, some (u, user)⟩]
        (onFound crypto password u user)
  | checked {identifier : String} {user : UserRow} {t : Int} (hopen : user.lockedUntil ≤ t) :
      Stage crypto u password [⟨.findLogin identifier, some (u, user)⟩, ⟨.nowSeconds, t⟩]
        (spawn (incrementFailedLogins u) rejected)
  | read {identifier : String} {user row : UserRow} {t : Int} (hopen : user.lockedUntil ≤ t) :
      Stage crypto u password
        [⟨.findLogin identifier, some (u, user)⟩, ⟨.nowSeconds, t⟩, ⟨.findBy u, some (some row)⟩]
        (.call .nowSeconds fun now => .call (.update u (failure row now)) fun _ => rejected)
  | timed {identifier : String} {user row : UserRow} {t now : Int} (hopen : user.lockedUntil ≤ t) :
      Stage crypto u password
        [⟨.findLogin identifier, some (u, user)⟩, ⟨.nowSeconds, t⟩, ⟨.findBy u, some (some row)⟩,
         ⟨.nowSeconds, now⟩]
        (.call (.update u (failure row now)) fun _ => rejected)
  | written {identifier : String} {user row : UserRow} {t now : Int}
      (hopen : user.lockedUntil ≤ t) :
      Stage crypto u password
        [⟨.findLogin identifier, some (u, user)⟩, ⟨.nowSeconds, t⟩, ⟨.findBy u, some (some row)⟩,
         ⟨.nowSeconds, now⟩, ⟨.update u (failure row now), true⟩]
        rejected

/-- What the answers of a step are, as far as the user is concerned. -/
def Answered (crypto : IdentityCrypto) (u : Int) (password : String) : (op : UserCall) → op.Resp → Prop
  | .findLogin _, r => ∀ user, r = some (u, user) →
      verifyPassword crypto password user.passwordHash user.salt = false
  | .findBy userId, r => userId = u → ∃ row, r = some (some row)
  | .update userId _, r => userId = u → r = true
  | _, _ => True

theorem reachedCheck_of_ne {id : Int} {identifier : String} {user : UserRow}
    {answers : List UserAnswer} (hne : id ≠ u) :
    reachedCheck u (⟨.findLogin identifier, some (id, user)⟩ :: answers) = false := by
  unfold reachedCheck
  split
  · rename_i heq
    cases heq
    simp [hne]
  · rfl

theorem Aside.next {answers : List UserAnswer} {op : UserCall} {k : op.Resp → UserProg}
    (h : Aside u answers (.call op k)) (r : op.Resp) : Aside u (answers ++ [⟨op, r⟩]) (k r) := by
  obtain ⟨hread, hwrite⟩ := h.only.1
  refine ⟨?_, ?_, ?_, h.only.2 r⟩
  · rw [List.any_append, h.unread]
    simp [hread]
  · have := h.unwritten
    unfold counted at this ⊢
    rw [List.any_append, this]
    simp [hwrite]
  · intro later
    rw [List.append_assoc]
    exact h.unchecked _

theorem Stage.next {password : String} {answers : List UserAnswer} {op : UserCall}
    {k : op.Resp → UserProg} (h : Stage crypto u password answers (.call op k)) {r : op.Resp}
    (hr : Answered crypto u password op r) :
    Stage crypto u password (answers ++ [⟨op, r⟩]) (k r) := by
  generalize hrest : Prog.call op k = rest at h
  cases h with
  | @started identifier =>
    obtain ⟨rfl, hk⟩ := Prog.call.inj hrest
    obtain rfl := eq_of_heq hk
    rcases r with _ | ⟨id, user⟩
    · exact .aside ⟨rfl, rfl, fun _ => rfl, trivial⟩
    by_cases hid : id = u
    · subst hid
      exact .found (hr user rfl)
    · refine .aside ⟨rfl, rfl, fun _ => reachedCheck_of_ne hid, ?_⟩
      refine only_onFound ⟨rfl, rfl⟩ ⟨rfl, rfl⟩ ⟨rfl, rfl⟩ ?_ ?_
      · simp [reads, writes, hid]
      · simp [reads, writes, hid]
  | aside h =>
    subst hrest
    exact .aside (h.next r)
  | @found identifier user hwrong =>
    obtain ⟨rfl, hk⟩ := Prog.call.inj hrest
    obtain rfl := eq_of_heq hk
    by_cases hlocked : user.lockedUntil > r
    · simp only [hlocked, if_true]
      refine .aside ⟨rfl, rfl, ?_, trivial⟩
      intro later
      simpa [reachedCheck] using hlocked
    · simp only [hlocked, hwrong, if_false, if_true]
      exact .checked (not_lt.mp hlocked)
  | @checked identifier user t hopen =>
    change Prog.call op k = Prog.call (.findBy u) _ at hrest
    obtain ⟨rfl, hk⟩ := Prog.call.inj hrest
    obtain rfl := eq_of_heq hk
    obtain ⟨row, rfl⟩ := hr rfl
    exact .read hopen
  | read hopen =>
    obtain ⟨rfl, hk⟩ := Prog.call.inj hrest
    obtain rfl := eq_of_heq hk
    exact .timed hopen
  | timed hopen =>
    obtain ⟨rfl, hk⟩ := Prog.call.inj hrest
    obtain rfl := eq_of_heq hk
    obtain rfl := hr rfl
    exact .written hopen
  | written hopen => cases hrest

/-- A write of the user's row comes at the end of a counted failure. -/
theorem Stage.update {password : String} {answers : List UserAnswer} {c : Changes}
    {k : (UserCall.update u c).Resp → UserProg}
    (h : Stage crypto u password answers (.call (.update u c) k)) :
    ∃ row now, c = failure row now ∧ ⟨.findBy u, some (some row)⟩ ∈ answers ∧
      counting u answers = true := by
  generalize hrest : Prog.call (UserCall.update u c) k = rest at h
  cases h with
  | aside h =>
    subst hrest
    have := h.only.1.2
    simp [writes] at this
  | @timed identifier user row t now hopen =>
    cases hrest
    exact ⟨row, now, rfl, by simp, by simp [counting, counted, reads, writes]⟩
  | checked hopen =>
    change _ = Prog.call (UserCall.findBy u) _ at hrest
    cases hrest
  | _ => cases hrest

/-- A finished login was counted exactly when it reached the password check. -/
theorem Stage.finished {password : String} {answers : List UserAnswer} {reply : UserReply}
    (h : Stage crypto u password answers (.ret reply)) :
    counted u answers = reachedCheck u answers := by
  generalize hrest : Prog.ret reply = rest at h
  cases h with
  | aside h =>
    have hunchecked := h.unchecked []
    rw [List.append_nil] at hunchecked
    rw [h.unwritten, hunchecked]
  | written hopen => simp [counted, reachedCheck, writes, hopen]
  | checked hopen =>
    change _ = Prog.call (UserCall.findBy u) _ at hrest
    cases hrest
  | _ => cases hrest

/-! ### Runs -/

def failureAt (u : Int) : UserEvent → Option Int
  | .called _ _ _ ⟨.update userId c, true⟩ => if userId = u then c.lastFailedLogin else none
  | _ => none

/-- The time of the last failure that was written. -/
def lastFailure (u : Int) (history : List UserEvent) : Option Int :=
  history.findSome? (failureAt u)

/-- Only logins are started, with passwords that are wrong for the user. -/
def startsWrong (crypto : IdentityCrypto) (row₀ : UserRow) : Input StatementEnv UserRequest → Bool
  | .start (.validateUser _ password) =>
    !verifyPassword crypto password row₀.passwordHash row₀.salt
  | .start _ => false
  | .advance _ _ => true

/-- The step does not read the user's counter while another login has it read and not written back,
and it does not fail on the counter. -/
def countsAlone (u : Int) (p : Pool (service crypto)) : Input StatementEnv UserRequest → Bool
  | .start _ => true
  | .advance tid env =>
    match p.next tid with
    | some (.findBy userId) =>
      userId ≠ u || (!env.fails && p.threads.all fun t => !counting u t.answers)
    | some (.update userId _) => userId ≠ u || !env.fails
    | _ => true

def CountedAlone (crypto : IdentityCrypto) (u : Int) (row₀ : UserRow) :
    Guard (Pool (service crypto)) (Input StatementEnv UserRequest) UserEvent :=
  fun _ p i => startsWrong crypto row₀ i = true ∧ countsAlone u p i = true

instance (history : List UserEvent) (p : Pool (service crypto))
    (i : Input StatementEnv UserRequest) : Decidable (CountedAlone crypto u row₀ history p i) :=
  inferInstanceAs (Decidable (_ ∧ _))

/-- The row of the user as the history describes it. -/
structure RowInv (u : Int) (row₀ : UserRow) (history : List UserEvent) (p : Pool (service crypto))
    (row : UserRow) : Prop where
  lookup : p.shared.users.lookup u = some row
  passwordHash : row.passwordHash = row₀.passwordHash
  salt : row.salt = row₀.salt
  count : row.failedLoginCount =
    row₀.failedLoginCount + p.threads.countP fun t => counted u t.answers
  locked : ∀ now, lastFailure u history = some now →
    row.lockedUntil = lockAfter now row.failedLoginCount

structure CountInv (u : Int) (row₀ : UserRow) (history : List UserEvent)
    (p : Pool (service crypto)) : Prop where
  stages : ∀ t ∈ p.threads, ∃ password, Stage crypto u password t.answers t.rest ∧
    verifyPassword crypto password row₀.passwordHash row₀.salt = false
  row : ∃ row, RowInv u row₀ history p row
  current : ∀ t ∈ p.threads, counting u t.answers = true → ∀ user row,
    ⟨.findBy u, some (some user)⟩ ∈ t.answers → p.shared.users.lookup u = some row →
      user.failedLoginCount = row.failedLoginCount
  alone : ∀ {i j : Nat} {t t' : Thread (service crypto)}, p.threads[i]? = some t →
    p.threads[j]? = some t' → counting u t.answers = true → counting u t'.answers = true → i = j

variable {history : List UserEvent} {p : Pool (service crypto)}

theorem counted_append {answers : List UserAnswer} {a : UserAnswer} :
    counted u (answers ++ [a]) = (counted u answers || writes u a.op) := by
  simp [counted]

/-- A counter that is held after an answer was held before, unless the answer read it. -/
theorem counting_of_append {answers : List UserAnswer} {a : UserAnswer}
    (h : counting u (answers ++ [a]) = true) (hread : reads u a.op = false) :
    counting u answers = true := by
  simp only [counting, counted_append, List.any_append, List.any_cons, List.any_nil, hread,
    Bool.or_false, Bool.and_eq_true, Bool.not_eq_true', Bool.or_eq_false_iff] at h ⊢
  exact ⟨h.1, h.2.1⟩

/-- The answers a guarded step gets are those the stages expect. -/
theorem answered_of_guard (hinv : CountInv u row₀ history p) {tid : Nat} {env : StatementEnv}
    (hguard : countsAlone u p (.advance tid env) = true) {t : Thread (service crypto)}
    (ht : p.threads[tid]? = some t) {op : UserCall} {k : op.Resp → UserProg}
    (hrest : t.rest = .call op k) {password : String}
    (hwrong : verifyPassword crypto password row₀.passwordHash row₀.salt = false) :
    Answered crypto u password op (IdentityStore.exec env op p.shared).1 := by
  obtain ⟨row, hrow⟩ := hinv.row
  simp only [countsAlone, Pool.next_eq ht hrest] at hguard
  cases op with
  | findLogin identifier =>
    intro user hfound
    change (if env.fails then none else _) = _ at hfound
    split at hfound
    · cases hfound
    obtain ⟨hlookup, -⟩ := IdentityStore.findUnique_eq_some hfound
    obtain rfl := Option.some.inj (hlookup.symm.trans hrow.lookup)
    rw [hrow.passwordHash, hrow.salt]
    exact hwrong
  | findBy userId =>
    intro hid
    subst hid
    simp only [ne_eq, not_true_eq_false, decide_false, Bool.false_or, Bool.and_eq_true,
      Bool.not_eq_true'] at hguard
    refine ⟨row, ?_⟩
    change (if env.fails then none else some (p.shared.users.lookup userId)) = _
    rw [hguard.1, hrow.lookup]
    rfl
  | update userId c =>
    intro hid
    subst hid
    have hfails : env.fails = false := by simpa using hguard
    simp [IdentityStore.exec, IdentityStore.statement, hfails]
  | _ => trivial

theorem CountInv.started (h : CountInv u row₀ history p) {identifier password : String}
    (hwrong : verifyPassword crypto password row₀.passwordHash row₀.salt = false) :
    CountInv u row₀ (.started p.threads.length (.validateUser identifier password) :: history)
      ({ p with threads := p.threads ++ [.fresh _ (.validateUser identifier password)] } :
        Pool (service crypto)) where
  stages := by
    intro t ht
    rcases List.mem_append.mp ht with ht | ht
    · exact h.stages t ht
    · obtain rfl := List.mem_singleton.mp ht
      exact ⟨password, .started, hwrong⟩
  row := by
    obtain ⟨row, hrow⟩ := h.row
    refine ⟨row, hrow.lookup, hrow.passwordHash, hrow.salt, ?_, hrow.locked⟩
    rw [hrow.count, List.countP_append]
    simp [Thread.fresh, counted]
  current := by
    intro t ht hcounting user row hread hlookup
    rcases List.mem_append.mp ht with ht | ht
    · exact h.current t ht hcounting user row hread hlookup
    · obtain rfl := List.mem_singleton.mp ht
      cases hcounting
  alone := by
    intro i j t t' ht ht' hcounting hcounting'
    rcases getElem?_snoc ht with ht | ⟨-, rfl⟩
    · rcases getElem?_snoc ht' with ht' | ⟨-, rfl⟩
      · exact h.alone ht ht' hcounting hcounting'
      · cases hcounting'
    · cases hcounting

/-- A statement that writes nothing of the user leaves the counter as it is. -/
theorem RowInv.kept {row : UserRow} (h : RowInv u row₀ history p row) {tid : Nat}
    {t : Thread (service crypto)} (ht : p.threads[tid]? = some t) {op : UserCall}
    {k : op.Resp → UserProg} (hrest : t.rest = .call op k) (hwrites : writes u op = false)
    (env : StatementEnv) (r : op.Resp) :
    RowInv u row₀ (.called tid t.request env ⟨op, r⟩ :: history)
      (⟨(IdentityStore.exec env op p.shared).2, p.threads.set tid (t.advance hrest r)⟩ :
        Pool (service crypto)) row where
  lookup := by
    change (IdentityStore.exec env op p.shared).2.users.lookup u = some row
    rw [IdentityStore.lookup_exec, h.lookup]
    refine congrArg some ?_
    unfold IdentityStore.written
    split
    · rename_i userId c
      rw [if_neg]
      intro hboth
      simp [writes, hboth.2] at hwrites
    · rfl
  passwordHash := h.passwordHash
  salt := h.salt
  count := by
    obtain ⟨hlt, hget⟩ := List.getElem?_eq_some_iff.mp ht
    rw [h.count, List.countP_set hlt, hget]
    have hsame : counted u (t.advance hrest r).answers = counted u t.answers := by
      change counted u (t.answers ++ [⟨op, r⟩]) = _
      rw [counted_append, hwrites, Bool.or_false]
    rw [hsame]
    split
    · have hpos : 0 < p.threads.countP fun t => counted u t.answers := by
        rw [List.countP_pos_iff]
        exact ⟨t, List.mem_of_getElem? ht, by assumption⟩
      omega
    · simp
  locked := by
    intro now hlast
    refine h.locked now ?_
    have hno : failureAt u (.called tid t.request env ⟨op, r⟩) = none := by
      unfold failureAt
      split
      · rename_i heq
        cases heq
        exact if_neg (by simpa [writes] using hwrites)
      · rfl
    rwa [lastFailure, List.findSome?_cons, hno] at hlast

/-- Writing back a counter that is still current counts one failure. -/
theorem RowInv.counted {row user : UserRow} (h : RowInv u row₀ history p row) {tid : Nat}
    {env : StatementEnv} (hfails : env.fails = false) {t : Thread (service crypto)}
    (ht : p.threads[tid]? = some t) {now : Int}
    {k : (UserCall.update u (failure user now)).Resp → UserProg}
    (hrest : t.rest = .call (.update u (failure user now)) k)
    (hcurrent : user.failedLoginCount = row.failedLoginCount)
    (hcounted : counted u t.answers = false) :
    RowInv u row₀ (.called tid t.request env ⟨.update u (failure user now), true⟩ :: history)
      (⟨(IdentityStore.exec env (.update u (failure user now)) p.shared).2,
        p.threads.set tid (t.advance hrest true)⟩ : Pool (service crypto))
      ((failure user now).apply row) where
  lookup := by
    change (IdentityStore.exec env _ p.shared).2.users.lookup u = _
    rw [IdentityStore.lookup_exec, h.lookup]
    simp [IdentityStore.written, hfails]
  passwordHash := h.passwordHash
  salt := h.salt
  count := by
    obtain ⟨hlt, hget⟩ := List.getElem?_eq_some_iff.mp ht
    have hnew : FailedLogins.counted u (t.advance hrest true).answers = true := by
      change FailedLogins.counted u (t.answers ++ [⟨.update u (failure user now), true⟩]) = true
      rw [counted_append]
      simp [writes]
    change user.failedLoginCount + 1 = _
    rw [List.countP_set hlt, hget, hcounted, hnew, hcurrent, h.count]
    simp
    omega
  locked := by
    intro now' hlast
    have hnow : failureAt u (.called tid t.request env ⟨.update u (failure user now), true⟩) =
        some now := by
      simp [failureAt, failure]
    rw [lastFailure, List.findSome?_cons, hnow] at hlast
    obtain rfl := Option.some.inj hlast
    rfl

theorem counting_of_read {answers : List UserAnswer} {user : UserRow}
    (hread : ⟨.findBy u, some (some user)⟩ ∈ answers) (hcounted : counted u answers = false) :
    counting u answers = true := by
  simp only [counting, hcounted, Bool.not_false, Bool.and_true, List.any_eq_true]
  exact ⟨_, hread, by simp [reads]⟩

section Advanced

variable {tid : Nat} {env : StatementEnv} {t : Thread (service crypto)} {op : UserCall}
  {k : op.Resp → UserProg}

theorem stages_advanced (h : CountInv u row₀ history p)
    (hguard : countsAlone u p (.advance tid env) = true) (ht : p.threads[tid]? = some t)
    (hrest : t.rest = .call op k) :
    ∀ t' ∈ (p.advanced tid env hrest).threads, ∃ password,
      Stage crypto u password t'.answers t'.rest ∧
        verifyPassword crypto password row₀.passwordHash row₀.salt = false := by
  obtain ⟨password, hstage, hwrong⟩ := h.stages t (List.mem_of_getElem? ht)
  intro t' ht'
  rcases List.mem_or_eq_of_mem_set ht' with ht' | rfl
  · exact h.stages t' ht'
  · rw [hrest] at hstage
    exact ⟨password, hstage.next (answered_of_guard h hguard ht hrest hwrong), hwrong⟩

theorem unheld_of_read (hguard : countsAlone u p (.advance tid env) = true)
    (ht : p.threads[tid]? = some t) (hrest : t.rest = .call op k) (hreads : reads u op = true) :
    ∀ t' ∈ p.threads, counting u t'.answers = false := by
  simp only [countsAlone, Pool.next_eq ht hrest] at hguard
  cases op with
  | findBy userId =>
    have hid : userId = u := by simpa [reads] using hreads
    subst hid
    simp only [ne_eq, not_true_eq_false, decide_false, Bool.false_or, Bool.and_eq_true,
      List.all_eq_true, Bool.not_eq_true'] at hguard
    exact hguard.2
  | _ => cases hreads

/-- The steps that write nothing of the user. -/
theorem CountInv.kept (h : CountInv u row₀ history p)
    (hguard : countsAlone u p (.advance tid env) = true) (ht : p.threads[tid]? = some t)
    (hrest : t.rest = .call op k) (hwrites : writes u op = false) :
    CountInv u row₀
      (.called tid t.request env ⟨op, (IdentityStore.exec env op p.shared).1⟩ :: history)
      (p.advanced tid env hrest) := by
  obtain ⟨row, hrow⟩ := h.row
  have hrow' := hrow.kept ht hrest hwrites env (IdentityStore.exec env op p.shared).1
  refine ⟨stages_advanced h hguard ht hrest, ⟨row, hrow'⟩, ?_, ?_⟩
  · intro t' ht' hcounting user row' hread hlookup
    obtain rfl := Option.some.inj (hrow'.lookup.symm.trans hlookup)
    rcases List.mem_or_eq_of_mem_set ht' with ht' | rfl
    · exact h.current t' ht' hcounting user row hread hrow.lookup
    rcases List.mem_append.mp hread with hread | hread
    · refine h.current t (List.mem_of_getElem? ht) (counting_of_read hread ?_) user row hread
        hrow.lookup
      simp only [counting, Bool.and_eq_true, Bool.not_eq_true'] at hcounting
      have := hcounting.2
      change counted u (t.answers ++ [_]) = false at this
      rw [counted_append, Bool.or_eq_false_iff] at this
      exact this.1
    · obtain heq := List.mem_singleton.mp hread
      obtain rfl : op = .findBy u := (congrArg Answer.op heq).symm
      injection heq with _ hresp
      change some (some user) = (if env.fails then none else some (p.shared.users.lookup u)) at hresp
      rw [hrow.lookup] at hresp
      split at hresp
      · cases hresp
      · obtain rfl := Option.some.inj (Option.some.inj hresp)
        rfl
  · intro i j t₁ t₂ ht₁ ht₂ hcounting₁ hcounting₂
    by_cases hreads : reads u op = true
    · have hnone := unheld_of_read hguard ht hrest hreads
      rcases getElem?_set_cases ht₁ with ⟨rfl, -⟩ | ⟨-, hold₁⟩
      · rcases getElem?_set_cases ht₂ with ⟨rfl, -⟩ | ⟨-, hold₂⟩
        · rfl
        · rw [hnone t₂ (List.mem_of_getElem? hold₂)] at hcounting₂
          cases hcounting₂
      · rw [hnone t₁ (List.mem_of_getElem? hold₁)] at hcounting₁
        cases hcounting₁
    · have hbefore : ∀ {i : Nat} {t' : Thread (service crypto)},
          (p.advanced tid env hrest).threads[i]? = some t' → counting u t'.answers = true →
          ∃ t'', p.threads[i]? = some t'' ∧ counting u t''.answers = true := by
        intro i t' ht' hcounting
        rcases getElem?_set_cases ht' with ⟨rfl, rfl⟩ | ⟨-, hold⟩
        · exact ⟨t, ht, counting_of_append hcounting (by simpa using hreads)⟩
        · exact ⟨t', hold, hcounting⟩
      obtain ⟨t₁', hold₁, hheld₁⟩ := hbefore ht₁ hcounting₁
      obtain ⟨t₂', hold₂, hheld₂⟩ := hbefore ht₂ hcounting₂
      exact h.alone hold₁ hold₂ hheld₁ hheld₂

/-- The step that writes the counter back. -/
theorem CountInv.written (h : CountInv u row₀ history p)
    (hguard : countsAlone u p (.advance tid env) = true) (ht : p.threads[tid]? = some t)
    {c : Changes} {k : (UserCall.update u c).Resp → UserProg}
    (hrest : t.rest = .call (.update u c) k) :
    CountInv u row₀
      (.called tid t.request env ⟨.update u c, (IdentityStore.exec env (.update u c) p.shared).1⟩ ::
        history)
      (p.advanced tid env hrest) := by
  have hstages := stages_advanced h hguard ht hrest
  obtain ⟨password, hstage, hwrong⟩ := h.stages t (List.mem_of_getElem? ht)
  rw [hrest] at hstage
  obtain ⟨user, now, rfl, hread, hcounting⟩ := hstage.update
  obtain ⟨row, hrow⟩ := h.row
  have hcurrent := h.current t (List.mem_of_getElem? ht) hcounting user row hread hrow.lookup
  have hcounted : counted u t.answers = false := by
    simp only [counting, Bool.and_eq_true, Bool.not_eq_true'] at hcounting
    exact hcounting.2
  have hfails : env.fails = false := by
    simp only [countsAlone, Pool.next_eq ht hrest] at hguard
    simpa using hguard
  have hresp : (IdentityStore.exec env (.update u (failure user now)) p.shared).1 = true := by
    simp [IdentityStore.exec, IdentityStore.statement, hfails]
  have hother : ∀ {i : Nat} {t' : Thread (service crypto)},
      (p.advanced tid env hrest).threads[i]? = some t' → counting u t'.answers = false := by
    intro i t' ht'
    rcases getElem?_set_cases ht' with ⟨rfl, rfl⟩ | ⟨hne, hold⟩
    · change (_ && !counted u (t.answers ++ [_])) = false
      rw [counted_append]
      simp [writes]
    · by_contra hheld
      exact hne (h.alone hold ht (by simpa using hheld) hcounting)
  have hrow' := hrow.counted hfails ht hrest hcurrent hcounted
  refine ⟨hstages, ⟨(failure user now).apply row, ?_⟩, ?_, ?_⟩
  · have hpool : p.advanced tid env hrest = ⟨_, p.threads.set tid (t.advance hrest true)⟩ :=
      congrArg (fun r => (⟨(IdentityStore.exec env _ p.shared).2,
        p.threads.set tid (t.advance hrest r)⟩ : Pool (service crypto))) hresp
    rw [hpool, hresp]
    exact hrow'
  · intro t' ht' hheld
    obtain ⟨i, hi⟩ := List.mem_iff_getElem?.mp ht'
    rw [hother hi] at hheld
    cases hheld
  · intro i j t₁ t₂ ht₁ _ hheld
    rw [hother ht₁] at hheld
    cases hheld

end Advanced

variable {s₀ : IdentityStore}

theorem countInv_of_run (hrow₀ : s₀.users.lookup u = some row₀)
    (hrun : (service crypto).machine.Run (CountedAlone crypto u row₀) (start _ s₀) history p) :
    CountInv u row₀ history p := by
  refine Machine.Run.invariant (CountInv u row₀) ?_ ?_ hrun
  · refine ⟨?_, ⟨row₀, hrow₀, rfl, rfl, by simp [start], nofun⟩, ?_, ?_⟩
    · intro t ht
      cases ht
    · intro t ht
      cases ht
    · intro i j t t' ht
      cases ht
  · intro h q i _ hinv hguard
    change CountInv u row₀ ((Service.step _ q i).2 :: h) (Service.step _ q i).1
    rcases step_cases q i with ⟨request, rfl, hs⟩ | ⟨tid, env, t, op, k, hrest, rfl, ht, hs⟩ | hs
    · rw [hs]
      have hstarts := hguard.1
      unfold startsWrong at hstarts
      split at hstarts
      · rename_i heq
        cases heq
        exact hinv.started (by simpa using hstarts)
      · cases hstarts
      · rename_i heq
        cases heq
    · rw [hs]
      cases hwrites : writes u op with
      | false => exact hinv.kept hguard.2 ht hrest hwrites
      | true =>
        cases op with
        | update userId c =>
          have hid : userId = u := by simpa [writes] using hwrites
          subst hid
          exact hinv.written hguard.2 ht hrest
        | _ => cases hwrites
    · rw [hs]
      obtain ⟨row, hrow⟩ := hinv.row
      exact ⟨hinv.stages, ⟨row, hrow.lookup, hrow.passwordHash, hrow.salt, hrow.count, hrow.locked⟩,
        hinv.current, hinv.alone⟩

theorem lt_lockAfter {now count : Int} (h : 5 ≤ count) : now < lockAfter now count := by
  unfold lockAfter
  split_ifs <;> omega

/-- When every login of the run is finished, the counter has grown by the number of logins that
reached the password check, and from five on the user is locked beyond the last failure: in every
interleaving of logins with wrong passwords in which no two of them hold the counter at once and no
statement on the counter fails. -/
theorem failures_counted (crypto : IdentityCrypto) (u : Int) (s₀ : IdentityStore) (row₀ : UserRow)
    (hrow₀ : s₀.users.lookup u = some row₀) (history : List UserEvent) (p : Pool (service crypto))
    (hrun : (service crypto).machine.Run (CountedAlone crypto u row₀) (start _ s₀) history p)
    (hfinished : ∀ t ∈ p.threads, t.finished = true) :
    ∃ row, p.shared.users.lookup u = some row ∧
      row.failedLoginCount =
        row₀.failedLoginCount + p.threads.countP (fun t => reachedCheck u t.answers) ∧
      (5 ≤ row.failedLoginCount → ∀ now, lastFailure u history = some now →
        now < row.lockedUntil) := by
  have hinv := countInv_of_run hrow₀ hrun
  obtain ⟨row, hrow⟩ := hinv.row
  refine ⟨row, hrow.lookup, ?_, ?_⟩
  · rw [hrow.count]
    congr 2
    refine List.countP_congr ?_
    intro t ht
    obtain ⟨reply, hreply⟩ := Thread.exists_ret (hfinished t ht)
    obtain ⟨password, hstage, -⟩ := hinv.stages t ht
    rw [hreply] at hstage
    rw [hstage.finished]
  · intro hfive now hlast
    rw [hrow.locked now hlast]
    exact lt_lockAfter hfive

/-! ### Two runs -/

/-- Agrees with SHA-256 on the salted password used here. -/
def knownCrypto : IdentityCrypto where
  sha256Hex s :=
    if s = "guess1f0e" then "03f8616f88397ab89fb35773811354f1d1effc03f76595b71ba3265a1050696b"
    else ""
  pbkdf2HmacSha256 _ _ _ _ := []
  hmacSha1 _ _ := []

/-- A user who signed up through a provider: the stored hash is a random token. -/
def knownRow : UserRow where
  publicSub := "11111111-1111-4111-8111-111111111111"
  username := some "alice"
  passwordHash := "AQEBAQEBAQEBAQEBAQEBAQEBAQEBAQEBAQEBAQEBAQE"
  salt := "1f0e"
  failedLoginCount := 3

def knownStore : IdentityStore where
  users := AList.insert 1 knownRow ∅

def guess : UserRequest := .validateUser "alice" "guess"

def steps (tid n : Nat) : List (Input StatementEnv UserRequest) :=
  List.replicate n (.advance tid { now := 100 })

def executed (inputs : List (Input StatementEnv UserRequest)) :
    List UserEvent × Pool (service knownCrypto) :=
  (service knownCrypto).machine.exec [] (start _ knownStore) inputs

/-- Two guesses, one after the other, after three earlier failures. -/
def guessedInTurn : List (Input StatementEnv UserRequest) :=
  .start guess :: steps 0 5 ++ .start guess :: steps 1 5

theorem failures_counted_guessedInTurn :
    ∃ row, (executed guessedInTurn).2.shared.users.lookup 1 = some row ∧
      row.failedLoginCount = 5 ∧ 100 < row.lockedUntil := by
  obtain ⟨hmet, hfinished, hreached, hlast⟩ :
      (service knownCrypto).machine.Guarded (CountedAlone knownCrypto 1 knownRow) []
          (start _ knownStore) guessedInTurn ∧
        (∀ t ∈ (executed guessedInTurn).2.threads, t.finished = true) ∧
        (executed guessedInTurn).2.threads.countP (fun t => reachedCheck 1 t.answers) = 2 ∧
        lastFailure 1 (executed guessedInTurn).1 = some 100 := by
    decide +kernel
  obtain ⟨row, hlookup, hcount, hlocked⟩ := failures_counted knownCrypto 1 knownStore knownRow rfl
    (executed guessedInTurn).1 (executed guessedInTurn).2
    (Machine.Run.exec_of_guarded .init guessedInTurn hmet) hfinished
  rw [hreached] at hcount
  refine ⟨row, hlookup, hcount, hlocked ?_ 100 hlast⟩
  rw [hcount]
  decide

/-- Two guesses that read the counter before either has written it back. -/
def guessedAtOnce : List (Input StatementEnv UserRequest) :=
  .start guess :: .start guess :: steps 0 3 ++ steps 1 3 ++ steps 0 2 ++ steps 1 2

theorem guessedAtOnce_counted_once :
    knownStore.users.lookup 1 = some knownRow ∧
    (service knownCrypto).machine.Run anyStep (start _ knownStore) (executed guessedAtOnce).1
      (executed guessedAtOnce).2 ∧
    (∀ t ∈ (executed guessedAtOnce).2.threads, t.request = guess ∧ t.finished = true) ∧
    verifyPassword knownCrypto "guess" knownRow.passwordHash knownRow.salt = false ∧
    (executed guessedAtOnce).2.threads.countP (fun t => reachedCheck 1 t.answers) = 2 ∧
    ((executed guessedAtOnce).2.shared.users.lookup 1).map UserRow.failedLoginCount = some 4 := by
  refine ⟨rfl, Machine.run_exec _ _ _, ?_⟩
  decide +kernel

end AuthForge.FailedLogins
