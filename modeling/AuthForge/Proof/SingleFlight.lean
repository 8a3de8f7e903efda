import AuthForge.Base.Prog
import AuthForge.Spa.Admin

/-!
# The admin console refreshes in single flight

Pages in which nobody logs in or out and every refresh exchange is answered with fresh tokens. All
that waits for a refresh waits for the one in flight or for one that succeeded, and the exchange in
flight has sent the refresh token that memory and storage hold.
-/

namespace AuthForge.SingleFlight

open Spa Spa.Admin

/-! ### The pages -/

def IsExchange : Task → Prop
  | .request (.exchange _) _ _ => True
  | _ => False

def isLogoutCall : Note → Bool
  | .logoutCalled _ _ => true
  | _ => false

/-- A refresh exchange is answered with tokens, of which the refresh token has not been sent. -/
def answersFresh (s : Page) : Input → Bool
  | .answer id a =>
    match s.tasks[id]?, a with
    | some (.request (.exchange _) _ _), .tokens _ refresh => refresh ∉ sentValues s.log
    | some (.request (.exchange _) _ _), _ => false
    | _, _ => true
  | _ => true

/-- Nobody logs in or out, and every refresh exchange is answered with fresh tokens. -/
def freshAnswers : Guard Page Input Input := fun _ s i =>
  i ≠ .login ∧ (∀ n ∈ (s.step i).log, isLogoutCall n = false) ∧ answersFresh s i = true

instance (history : List Input) (s : Page) (i : Input) : Decidable (freshAnswers history s i) :=
  inferInstanceAs (Decidable (_ ∧ _ ∧ _))

def retriedIds (log : List Note) : List Nat :=
  log.filterMap fun
    | .retried id _ _ => some id
    | _ => none

/-- A retry carries the newest access token, and the refresh it waited for is among those that have
returned one. -/
def Bearers (log : List Note) : Prop :=
  ∀ later earlier id p bearer, log = later ++ .retried id p bearer :: earlier →
    (∃ access refresh, .received p access refresh ∈ earlier) ∧
      bearer = (received earlier).head?.map Prod.fst

/-- Memory and storage hold what was received last; before that, what the page was loaded with, and
memory may not have read it yet. -/
def Current (r₀ : Option Token) (s : Page) : Prop :=
  match (received s.log).head? with
  | some (access, refresh) =>
    s.accessToken = some access ∧ s.refreshToken = some refresh ∧ s.persisted = some refresh
  | none => s.accessToken = none ∧ s.persisted = r₀ ∧ (s.refreshToken = none ∨ s.refreshToken = r₀)

/-! ### The invariant -/

/-- The refresh is in flight, or it has succeeded. -/
def Awaited (s : Page) (p : Nat) : Prop :=
  s.refreshInFlight = some p ∨ s.settled.lookup p = some true

/-- What a task of the page may be. -/
def Fits (s : Page) (id : Nat) : Task → Prop
  | .request (.exchange value) retry _ =>
    s.refreshInFlight = some id ∧ retry = false ∧ s.refreshToken = some value ∧
      s.persisted = some value ∧ value ∈ sentValues s.log
  | .request .view retry _ | .request (.userInfo false) retry _ =>
    retry = false → id ∉ retriedIds s.log
  | .awaiting .view p | .awaiting (.userInfo false) p => Awaited s p ∧ id ∉ retriedIds s.log
  | .restoring p => Awaited s p
  | .done => True
  | _ => False

structure Flight (r₀ : Option Token) (s : Page) : Prop where
  tasks : ∀ id t, s.tasks[id]? = some t → Fits s id t
  inFlight : ∀ p, s.refreshInFlight = some p →
    ∃ value bearer, s.tasks[p]? = some (.request (.exchange value) false bearer)
  once : (sentValues s.log).Nodup
  unsent : s.refreshInFlight = none → ∀ v, s.persisted = some v → v ∉ sentValues s.log
  current : Current r₀ s
  settled : ∀ p ok, s.settled.lookup p = some ok →
    ok = true ∧ ∃ access refresh, .received p access refresh ∈ s.log
  placed : ∀ id ∈ retriedIds s.log, id < s.tasks.length
  retried : (retriedIds s.log).Nodup
  bearers : Bearers s.log

variable {r₀ : Option Token} {s s' : Page} {id : Nat} {t : Task}

theorem Fits.of_not_exchange (h : Fits s id t) (ht : ¬IsExchange t)
    (hawaited : ∀ p, Awaited s p → Awaited s' p)
    (hretried : id ∈ retriedIds s'.log → id ∈ retriedIds s.log) : Fits s' id t := by
  cases t with
  | request owner retry bearer =>
    cases owner with
    | exchange value => exact absurd trivial ht
    | view => exact fun hretry hid => h hretry (hretried hid)
    | userInfo login =>
      cases login with
      | true => exact h
      | false => exact fun hretry hid => h hretry (hretried hid)
    | loginCode | loginTokens => exact h
  | awaiting owner p =>
    cases owner with
    | view => exact ⟨hawaited p h.1, fun hid => h.2 (hretried hid)⟩
    | userInfo login =>
      cases login with
      | true => exact h
      | false => exact ⟨hawaited p h.1, fun hid => h.2 (hretried hid)⟩
    | exchange | loginCode | loginTokens => exact h
  | restoring p => exact hawaited p h
  | logout | done => exact h

/-- The variables that the invariant reads, besides the tasks. -/
theorem Fits.congr (h : Fits s id t) (hflight : s'.refreshInFlight = s.refreshInFlight)
    (hrefresh : s'.refreshToken = s.refreshToken) (hpersisted : s'.persisted = s.persisted)
    (hsettled : s'.settled = s.settled) (hlog : s'.log = s.log) : Fits s' id t := by
  cases t with
  | request owner retry bearer =>
    cases owner with
    | exchange value =>
      change s'.refreshInFlight = some id ∧ retry = false ∧ s'.refreshToken = some value ∧
        s'.persisted = some value ∧ value ∈ sentValues s'.log
      rw [hflight, hrefresh, hpersisted, hlog]
      exact h
    | view | userInfo | loginCode | loginTokens =>
      refine h.of_not_exchange not_false ?_ ?_
      · intro p
        unfold Awaited
        rw [hflight, hsettled]
        exact fun hp => hp
      · rw [hlog]
        exact fun hid => hid
  | awaiting | restoring | logout | done =>
    refine h.of_not_exchange not_false ?_ ?_
    · intro p
      unfold Awaited
      rw [hflight, hsettled]
      exact fun hp => hp
    · rw [hlog]
      exact fun hid => hid

/-! ### A task is added or replaced -/

theorem Flight.add (h : Flight r₀ s) (ht : ¬IsExchange t) (hfits : Fits s s.tasks.length t) :
    Flight r₀ (s.add t) where
  tasks id u hu := by
    rcases Service.getElem?_snoc hu with hu | ⟨rfl, rfl⟩
    · exact (h.tasks id u hu).congr rfl rfl rfl rfl rfl
    · exact hfits.congr rfl rfl rfl rfl rfl
  inFlight p hp := by
    obtain ⟨value, bearer, hu⟩ := h.inFlight p hp
    obtain ⟨hlt, -⟩ := List.getElem?_eq_some_iff.mp hu
    exact ⟨value, bearer, (List.getElem?_append_left hlt).trans hu⟩
  once := h.once
  unsent := h.unsent
  current := h.current
  settled := h.settled
  placed id hid := by
    have hlt := h.placed id hid
    change id < (s.tasks ++ [t]).length
    rw [List.length_append]
    exact Nat.lt_add_right _ hlt
  retried := h.retried
  bearers := h.bearers

theorem Flight.setTask (h : Flight r₀ s) {old : Task} (hold : s.tasks[id]? = some old)
    (hne : ¬IsExchange old) (hfits : Fits s id t) : Flight r₀ (s.setTask id t) where
  tasks j u hu := by
    rcases Service.getElem?_set_cases hu with ⟨rfl, rfl⟩ | ⟨-, hu⟩
    · exact hfits.congr rfl rfl rfl rfl rfl
    · exact (h.tasks j u hu).congr rfl rfl rfl rfl rfl
  inFlight p hp := by
    obtain ⟨value, bearer, hu⟩ := h.inFlight p hp
    refine ⟨value, bearer, ?_⟩
    change (s.tasks.set id t)[p]? = _
    rw [List.getElem?_set_ne]
    · exact hu
    · rintro rfl
      rw [hold] at hu
      obtain rfl := Option.some.inj hu
      exact hne trivial
  once := h.once
  unsent := h.unsent
  current := h.current
  settled := h.settled
  placed j hj := by
    change j < (s.tasks.set id t).length
    rw [List.length_set]
    exact h.placed j hj
  retried := h.retried
  bearers := h.bearers

/-! ### A refresh begins, succeeds, and lets a request go on -/

theorem Bearers.cons (h : Bearers s.log) {n : Note} (hn : ∀ id p bearer, n ≠ .retried id p bearer) :
    Bearers (n :: s.log) := by
  intro later earlier id p bearer heq
  cases later with
  | nil => exact absurd (List.cons.inj heq).1 (hn id p bearer)
  | cons m later => exact h later earlier id p bearer (List.cons.inj heq).2

/-- Without an exchange in flight no task is one. -/
theorem Flight.not_exchange (h : Flight r₀ s) (hidle : s.refreshInFlight = none)
    (ht : s.tasks[id]? = some t) : ¬IsExchange t := by
  have hfits := h.tasks id t ht
  intro hexchange
  cases t with
  | request owner retry bearer =>
    cases owner with
    | exchange value =>
      have hflight := hfits.1
      rw [hidle] at hflight
      cases hflight
    | view | userInfo | loginCode | loginTokens => exact hexchange
  | awaiting | restoring | logout | done => exact hexchange

/-- Memory reads the persisted token. -/
theorem Flight.remember (h : Flight r₀ s) {value : Token} (hvalue : s.persisted = some value) :
    Flight r₀ { s with refreshToken := some value } where
  tasks id t ht := by
    have hfits := h.tasks id t ht
    by_cases hexchange : IsExchange t
    · cases t with
      | request owner retry bearer =>
        cases owner with
        | exchange sent =>
          obtain ⟨hflight, hretry, hrefresh, hpersisted, hsent⟩ := hfits
          obtain rfl := Option.some.inj (hvalue.symm.trans hpersisted)
          exact ⟨hflight, hretry, rfl, hpersisted, hsent⟩
        | view | userInfo | loginCode | loginTokens => exact hexchange.elim
      | awaiting | restoring | logout | done => exact hexchange.elim
    · exact hfits.of_not_exchange hexchange (fun _ hp => hp) fun hid => hid
  inFlight := h.inFlight
  once := h.once
  unsent := h.unsent
  current := by
    have hcurrent := h.current
    unfold Current at hcurrent ⊢
    dsimp only
    split at hcurrent
    · exact ⟨hcurrent.1, hvalue.symm.trans hcurrent.2.2, hcurrent.2.2⟩
    · exact ⟨hcurrent.1, hcurrent.2.1, .inr (hvalue.symm.trans hcurrent.2.1)⟩
  settled := h.settled
  placed := h.placed
  retried := h.retried
  bearers := h.bearers

/-- A new refresh sends the token that memory and storage hold. -/
theorem Flight.start (h : Flight r₀ s) {value : Token} (hidle : s.refreshInFlight = none)
    (hrefresh : s.refreshToken = some value) (hpersisted : s.persisted = some value) :
    Flight r₀ (s.refresh value).2 := by
  have hshape : (s.refresh value).2 =
      { s with
        tasks := s.tasks ++ [.request (.exchange value) false s.accessToken]
        refreshInFlight := some s.tasks.length
        log := .sent s.tasks.length value :: s.log } := by
    unfold Page.refresh
    rw [hidle]
    rfl
  rw [hshape]
  refine ⟨?_, ?_, ?_, nofun, h.current, ?_, ?_, h.retried, h.bearers.cons nofun⟩
  · intro id t ht
    rcases Service.getElem?_snoc ht with ht | ⟨rfl, rfl⟩
    · refine (h.tasks id t ht).of_not_exchange (h.not_exchange hidle ht) ?_ fun hid => hid
      intro p hp
      refine .inr (hp.resolve_left ?_)
      rw [hidle]
      exact nofun
    · exact ⟨rfl, rfl, hrefresh, hpersisted, List.mem_cons_self⟩
  · intro p hp
    obtain rfl := Option.some.inj hp
    exact ⟨value, s.accessToken, List.getElem?_concat_length⟩
  · exact List.nodup_cons.mpr ⟨h.unsent hidle value hpersisted, h.once⟩
  · intro p ok hp
    obtain ⟨hok, access, refresh, hmem⟩ := h.settled p ok hp
    exact ⟨hok, access, refresh, List.mem_cons_of_mem _ hmem⟩
  · intro id hid
    change id < (s.tasks ++ [_]).length
    rw [List.length_append]
    exact Nat.lt_add_right _ (h.placed id hid)

theorem inFlight_refresh (value : Token) :
    (s.refresh value).2.refreshInFlight = some (s.refresh value).1 := by
  unfold Page.refresh
  split
  · rename_i p hp
    exact hp
  · rfl

/-- A refresh that is joined is the one in flight. -/
theorem Flight.refresh (h : Flight r₀ s) {value : Token} (hrefresh : s.refreshToken = some value)
    (hpersisted : s.persisted = some value) : Flight r₀ (s.refresh value).2 := by
  cases hidle : s.refreshInFlight with
  | none => exact h.start hidle hrefresh hpersisted
  | some p =>
    have hshape : (s.refresh value).2 = s := by
      unfold Page.refresh
      rw [hidle]
    rwa [hshape]

/-- The exchange in flight returns tokens that have not been sent. -/
theorem Flight.receive (h : Flight r₀ s) {value : Token} {retry : Bool} {bearer : Option Token}
    (ht : s.tasks[id]? = some (.request (.exchange value) retry bearer)) {access refresh : Token}
    (hfresh : refresh ∉ sentValues s.log) :
    Flight r₀ (((s.setTokens access refresh).note (.received id access refresh)).settle id true) := by
  have hflight := (h.tasks id _ ht).1
  refine ⟨?_, nofun, h.once, ?_, ⟨rfl, rfl, rfl⟩, ?_, ?_, h.retried, h.bearers.cons nofun⟩
  · intro j t hj
    rcases Service.getElem?_set_cases hj with ⟨rfl, rfl⟩ | ⟨hne, hj⟩
    · trivial
    · refine (h.tasks j t hj).of_not_exchange ?_ ?_ fun hid => hid
      · intro hexchange
        cases t with
        | request owner retry bearer =>
          cases owner with
          | exchange value =>
            have hother := (h.tasks j _ hj).1
            rw [hflight] at hother
            exact hne (Option.some.inj hother).symm
          | view | userInfo | loginCode | loginTokens => exact hexchange
        | awaiting | restoring | logout | done => exact hexchange
      · intro p hp
        right
        change ((id, true) :: s.settled).lookup p = some true
        rcases hp with hp | hp
        · rw [hflight] at hp
          obtain rfl := Option.some.inj hp
          exact List.lookup_cons_self
        · rw [List.lookup_cons]
          split
          · rfl
          · exact hp
  · rintro - v hv
    obtain rfl := Option.some.inj hv
    exact hfresh
  · intro p ok hp
    change ((id, true) :: s.settled).lookup p = some ok at hp
    rw [List.lookup_cons] at hp
    split at hp
    · rename_i heq
      obtain rfl := Option.some.inj hp
      obtain rfl := eq_of_beq heq
      exact ⟨rfl, access, refresh, List.mem_cons_self⟩
    · obtain ⟨hok, a, r, hmem⟩ := h.settled p ok hp
      exact ⟨hok, a, r, List.mem_cons_of_mem _ hmem⟩
  · intro j hj
    change j < (s.tasks.set id .done).length
    rw [List.length_set]
    exact h.placed j hj

theorem Current.accessToken_eq (h : Current r₀ s) :
    s.accessToken = (received s.log).head?.map Prod.fst := by
  unfold Current at h
  split at h
  · rename_i access refresh hhead
    rw [hhead]
    exact h.1
  · rename_i hhead
    rw [hhead]
    exact h.1

/-- A request goes on after its refresh has succeeded. -/
theorem Flight.retry (h : Flight r₀ s) {owner : Owner} {p : Nat}
    (ht : s.tasks[id]? = some (.awaiting owner p)) (hsettled : s.settled.lookup p = some true) :
    Flight r₀ ((s.setTask id (.request owner true s.accessToken)).note
      (.retried id p s.accessToken)) := by
  have hfits := h.tasks id _ ht
  have hnew : id ∉ retriedIds s.log := by
    cases owner with
    | view => exact hfits.2
    | userInfo login =>
      cases login with
      | true => exact hfits.elim
      | false => exact hfits.2
    | exchange | loginCode | loginTokens => exact hfits.elim
  have hset : Flight r₀ (s.setTask id (.request owner true s.accessToken)) := by
    refine h.setTask ht not_false ?_
    cases owner with
    | view => exact nofun
    | userInfo login =>
      cases login with
      | true => exact hfits.elim
      | false => exact nofun
    | exchange | loginCode | loginTokens => exact hfits.elim
  have hlt : id < s.tasks.length := (List.getElem?_eq_some_iff.mp ht).1
  refine ⟨?_, hset.inFlight, h.once, h.unsent, h.current, ?_, ?_, ?_, ?_⟩
  · intro j t hj
    have hold := hset.tasks j t hj
    by_cases hexchange : IsExchange t
    · cases t with
      | request owner retry bearer =>
        cases owner with
        | exchange value => exact hold
        | view | userInfo | loginCode | loginTokens => exact hexchange.elim
      | awaiting | restoring | logout | done => exact hexchange.elim
    · rcases Service.getElem?_set_cases hj with ⟨rfl, rfl⟩ | ⟨hne, -⟩
      · cases owner with
        | view => exact nofun
        | userInfo login =>
          cases login with
          | true => exact hfits.elim
          | false => exact nofun
        | exchange | loginCode | loginTokens => exact hfits.elim
      · refine hold.of_not_exchange hexchange (fun _ hp => hp) ?_
        intro hid
        exact (List.mem_cons.mp hid).resolve_left hne
  · intro q ok hq
    obtain ⟨hok, access, refresh, hmem⟩ := h.settled q ok hq
    exact ⟨hok, access, refresh, List.mem_cons_of_mem _ hmem⟩
  · intro j hj
    change j < (s.tasks.set id _).length
    rw [List.length_set]
    rcases List.mem_cons.mp hj with rfl | hj
    · exact hlt
    · exact h.placed j hj
  · exact List.nodup_cons.mpr ⟨hnew, h.retried⟩
  · intro later earlier id' p' bearer heq
    cases later with
    | nil =>
      obtain ⟨hnote, rfl⟩ := List.cons.inj heq
      obtain ⟨rfl, rfl, rfl⟩ := Note.retried.inj hnote
      exact ⟨(h.settled _ _ hsettled).2, h.current.accessToken_eq⟩
    | cons m later => exact h.bearers later earlier id' p' bearer (List.cons.inj heq).2

/-! ### The steps -/

theorem Flight.flags (h : Flight r₀ s) (admin restored : Bool) :
    Flight r₀ { s with admin := admin, sessionRestorePromise := restored } where
  tasks id t ht := (h.tasks id t ht).congr rfl rfl rfl rfl rfl
  inFlight := h.inFlight
  once := h.once
  unsent := h.unsent
  current := h.current
  settled := h.settled
  placed := h.placed
  retried := h.retried
  bearers := h.bearers

theorem Flight.not_retried_length (h : Flight r₀ s) : s.tasks.length ∉ retriedIds s.log :=
  fun hid => absurd (h.placed _ hid) (Nat.lt_irrefl _)

theorem Flight.fetchUserInfo (h : Flight r₀ s) : Flight r₀ s.fetchUserInfo := by
  unfold Page.fetchUserInfo
  split
  · exact h
  · exact h.add not_false fun _ => h.not_retried_length

theorem Flight.restoreSession (h : Flight r₀ s) : Flight r₀ s.restoreSession := by
  unfold Page.restoreSession
  split
  · exact h
  · rename_i value hvalue
    have hrefreshed := (h.remember hvalue).refresh rfl hvalue
    exact hrefreshed.add not_false (.inl (inFlight_refresh value))

theorem Flight.persisted_eq (h : Flight r₀ s) {value : Token} (hvalue : s.refreshToken = some value) :
    s.persisted = some value := by
  have hcurrent := h.current
  unfold Current at hcurrent
  split at hcurrent
  · exact hcurrent.2.2.trans (hcurrent.2.1.symm.trans hvalue)
  · obtain ⟨-, hpersisted, hnone | hsome⟩ := hcurrent
    · rw [hvalue] at hnone
      cases hnone
    · exact hpersisted.trans (hsome.symm.trans hvalue)

theorem retriedIds_refresh (value : Token) :
    retriedIds (s.refresh value).2.log = retriedIds s.log := by
  unfold Page.refresh
  split <;> rfl

/-- The owners of requests that are no exchange, where nobody logs in. -/
theorem Flight.owner_cases (h : Flight r₀ s) {owner : Owner} {retry : Bool} {bearer : Option Token}
    (ht : s.tasks[id]? = some (.request owner retry bearer)) :
    (∃ value, owner = .exchange value) ∨
      (owner = .view ∨ owner = .userInfo false) ∧ (retry = false → id ∉ retriedIds s.log) := by
  have hfits := h.tasks id _ ht
  cases owner with
  | exchange value => exact .inl ⟨value, rfl⟩
  | view => exact .inr ⟨.inl rfl, hfits⟩
  | userInfo login =>
    cases login with
    | true => exact hfits.elim
    | false => exact .inr ⟨.inr rfl, hfits⟩
  | loginCode | loginTokens => exact hfits.elim

def Quiet (s : Page) : Prop := ∀ n ∈ s.log, isLogoutCall n = false

theorem not_quiet_logout (s : Page) : ¬Quiet s.logout := by
  intro h
  refine Bool.noConfusion (h (.logoutCalled s.tasks.length s.held) ?_)
  unfold Page.logout
  dsimp only
  split
  · exact List.mem_cons_of_mem _ List.mem_cons_self
  · exact List.mem_cons_self

theorem Flight.fail (h : Flight r₀ s) {owner : Owner} {retry : Bool} {bearer : Option Token}
    (ht : s.tasks[id]? = some (.request owner retry bearer))
    (howner : owner = .view ∨ owner = .userInfo false)
    (hquiet : Quiet (s.fail id owner)) : Flight r₀ (s.fail id owner) := by
  rcases howner with rfl | rfl
  · exact h.setTask ht not_false trivial
  · exact absurd hquiet (not_quiet_logout (s.setTask id .done))

theorem Flight.unauthorized (h : Flight r₀ s) {owner : Owner} {retry : Bool} {bearer : Option Token}
    (ht : s.tasks[id]? = some (.request owner retry bearer))
    (howner : owner = .view ∨ owner = .userInfo false)
    (hnew : retry = false → id ∉ retriedIds s.log)
    (hquiet : Quiet (s.unauthorized id retry owner)) :
    Flight r₀ (s.unauthorized id retry owner) := by
  unfold Page.unauthorized at hquiet ⊢
  cases hvalue : s.refreshToken with
  | none =>
    rw [hvalue] at hquiet
    exact h.fail ht howner hquiet
  | some value =>
    rw [hvalue] at hquiet
    dsimp only at hquiet ⊢
    split at hquiet
    · rename_i hretry
      rw [if_pos hretry]
      exact h.fail ht howner hquiet
    · rename_i hretry
      rw [if_neg hretry]
      have hrefreshed := h.refresh hvalue (h.persisted_eq hvalue)
      have hid : id ∉ retriedIds (s.refresh value).2.log := by
        rw [retriedIds_refresh]
        exact hnew (by simpa using hretry)
      rcases howner with rfl | rfl
      · exact hrefreshed.setTask (Page.getElem?_refresh ht value) not_false
          ⟨.inl (inFlight_refresh value), hid⟩
      · exact hrefreshed.setTask (Page.getElem?_refresh ht value) not_false
          ⟨.inl (inFlight_refresh value), hid⟩

theorem Flight.succeed (h : Flight r₀ s) {owner : Owner} {retry : Bool} {bearer : Option Token}
    (ht : s.tasks[id]? = some (.request owner retry bearer))
    (howner : owner = .view ∨ owner = .userInfo false) (a : Spa.Answer) :
    Flight r₀ (s.succeed id owner a) := by
  rcases howner with rfl | rfl
  · exact h.setTask ht not_false trivial
  · cases a with
    | info admin => exact (h.flags admin s.sessionRestorePromise).setTask ht not_false trivial
    | tokens | code | mfaRequired | ok | unauthorized | failed => exact h

theorem Flight.answer (h : Flight r₀ s) {a : Spa.Answer} (hok : freshAnswers [] s (.answer id a)) :
    Flight r₀ (s.answer id a) := by
  obtain ⟨-, hquiet, hanswers⟩ := hok
  change Quiet (s.answer id a) at hquiet
  unfold Page.answer at hquiet ⊢
  cases ht : s.tasks[id]? with
  | none => exact h
  | some t =>
    rw [ht] at hquiet
    cases t with
    | request owner retry bearer =>
      rcases h.owner_cases ht with ⟨value, rfl⟩ | ⟨howner, hnew⟩
      · unfold answersFresh at hanswers
        dsimp only at hanswers
        rw [ht] at hanswers
        cases a with
        | tokens access refresh => exact h.receive ht (of_decide_eq_true hanswers)
        | code | mfaRequired | info | ok | unauthorized | failed => cases hanswers
      · cases a with
        | unauthorized => exact h.unauthorized ht howner hnew hquiet
        | failed => exact h.fail ht howner hquiet
        | tokens | code | mfaRequired | info | ok => exact h.succeed ht howner _
    | logout left => exact (h.tasks id _ ht).elim
    | awaiting | restoring | done => exact h

theorem Flight.resume (h : Flight r₀ s) : Flight r₀ (s.resume id) := by
  unfold Page.resume
  split
  · rename_i owner p ht
    split
    · rename_i hsettled
      exact h.retry ht hsettled
    · rename_i hsettled
      cases (h.settled p false hsettled).1
    · exact h
  · rename_i p ht
    split
    · exact (h.setTask (t := .done) ht not_false trivial).fetchUserInfo
    · exact h.setTask (t := .done) ht not_false trivial
    · exact h
  · exact h

theorem Flight.step (h : Flight r₀ s) {i : Input} (hok : freshAnswers [] s i) :
    Flight r₀ (s.step i) := by
  cases i with
  | request => exact h.add not_false fun _ => h.not_retried_length
  | fetchUserInfo => exact h.fetchUserInfo
  | restoreSession => exact h.restoreSession
  | ensureSessionRestored =>
    change Flight r₀ s.ensureSessionRestored
    unfold Page.ensureSessionRestored
    split
    · exact h
    · exact h.restoreSession.flags _ true
  | login => exact absurd rfl hok.1
  | logout => exact absurd hok.2.1 (not_quiet_logout s)
  | answer id a => exact h.answer hok
  | resume id => exact h.resume

theorem flight_load (r₀ : Option Token) : Flight r₀ (load r₀) where
  tasks := nofun
  inFlight := nofun
  once := List.nodup_nil
  unsent _ _ _ := List.not_mem_nil
  current := ⟨rfl, rfl, .inl rfl⟩
  settled := nofun
  placed := nofun
  retried := List.nodup_nil
  bearers later earlier id p bearer h := by simp [load] at h

theorem flight_of_run {history : List Input}
    (hrun : machine.Run freshAnswers (load r₀) history s) : Flight r₀ s := by
  induction hrun with
  | init => exact flight_load r₀
  | next i _ hok ih => exact ih.step hok

/-! ### Single flight -/

structure RefreshesOnce (r₀ : Option Token) (s : Page) : Prop where
  one : ∀ (p q : Nat) (t u : Task), s.tasks[p]? = some t → s.tasks[q]? = some u →
    IsExchange t → IsExchange u → p = q
  once : (sentValues s.log).Nodup
  waiting : ∀ (id : Nat) (owner : Owner) (p : Nat), s.tasks[id]? = some (.awaiting owner p) →
    (∃ t, s.tasks[p]? = some t ∧ IsExchange t) ∨
      (s.step (.resume id)).log = .retried id p s.accessToken :: s.log
  retried : (retriedIds s.log).Nodup
  bearers : Bearers s.log
  current : (∀ (p : Nat) (t : Task), s.tasks[p]? = some t → ¬IsExchange t) → Current r₀ s

theorem Flight.inFlight_of_exchange (h : Flight r₀ s) (ht : s.tasks[id]? = some t)
    (hexchange : IsExchange t) : s.refreshInFlight = some id := by
  cases t with
  | request owner retry bearer =>
    cases owner with
    | exchange value => exact (h.tasks id _ ht).1
    | view | userInfo | loginCode | loginTokens => exact hexchange.elim
  | awaiting | restoring | logout | done => exact hexchange.elim

theorem Flight.waiting (h : Flight r₀ s) {owner : Owner} {p : Nat}
    (ht : s.tasks[id]? = some (.awaiting owner p)) :
    (∃ t, s.tasks[p]? = some t ∧ IsExchange t) ∨
      (s.step (.resume id)).log = .retried id p s.accessToken :: s.log := by
  have hawaited : Awaited s p := by
    have hfits := h.tasks id _ ht
    cases owner with
    | view => exact hfits.1
    | userInfo login =>
      cases login with
      | true => exact hfits.elim
      | false => exact hfits.1
    | exchange | loginCode | loginTokens => exact hfits.elim
  rcases hawaited with hflight | hsettled
  · obtain ⟨value, bearer, hp⟩ := h.inFlight p hflight
    exact .inl ⟨_, hp, trivial⟩
  · right
    change (s.resume id).log = _
    unfold Page.resume
    rw [ht]
    dsimp only
    rw [hsettled]
    rfl

/-- From page load on, with fresh tokens in every answer and nobody logging in or out, at most one
refresh is in flight, no token is sent twice, whoever waits is retried once with a token at least as
new as the one that was waited for, and memory and storage hold the newest refresh token. -/
theorem refreshes_once {history : List Input}
    (hrun : machine.Run freshAnswers (load r₀) history s) : RefreshesOnce r₀ s := by
  have h := flight_of_run hrun
  refine ⟨?_, h.once, fun id owner p ht => h.waiting ht, h.retried, h.bearers, fun _ => h.current⟩
  intro p q t u hp hq ht hu
  have hflight := h.inFlight_of_exchange hp ht
  rw [h.inFlight_of_exchange hq hu] at hflight
  exact (Option.some.inj hflight).symm

/-- Two requests are refused while the restored session is refreshed; they wait for its refresh. -/
def reloaded : List Input :=
  [.ensureSessionRestored, .request, .request, .answer 2 .unauthorized,
    .answer 0 (.tokens "access 1" "refresh 1"), .resume 1, .resume 2, .answer 3 .unauthorized,
    .answer 5 (.tokens "access 2" "refresh 2"), .resume 3, .answer 4 (.info true)]

theorem refreshes_once_reloaded :
    let s := (machine.exec [] (load (some "refresh 0")) reloaded).2
    sentValues s.log = ["refresh 1", "refresh 0"] ∧ retriedIds s.log = [3, 2] ∧
      RefreshesOnce (some "refresh 0") s := by
  intro s
  have hguarded : machine.Guarded freshAnswers [] (load (some "refresh 0")) reloaded := by
    decide
  exact ⟨by decide, by decide, refreshes_once (.exec_of_guarded .init reloaded hguarded)⟩

end AuthForge.SingleFlight
