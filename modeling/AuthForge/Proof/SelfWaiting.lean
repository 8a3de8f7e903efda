import AuthForge.Base.Prog
import AuthForge.Spa.Admin

/-!
# When the admin console waits for itself

The refresh exchange goes through the axios instance whose interceptor starts or joins a refresh. An
exchange that is answered 401 while a refresh token is held joins the refresh in flight, which is its
own. This is the only way into a page whose refresh waits for itself, and there is none out of it.
-/

namespace AuthForge.SelfWaiting

open Spa Spa.Admin

/-- The activity `p`, which settles the refresh `p` if it is one, waits for the refresh `q`. -/
def WaitsFor (s : Page) (p q : Nat) : Prop :=
  (∃ owner, s.tasks[p]? = some (.awaiting owner q)) ∨ s.tasks[p]? = some (.restoring q)

/-- `refreshInFlight` waits, directly or through others, for its own settlement. -/
def WaitsForItself (s : Page) : Prop :=
  ∃ p, s.refreshInFlight = some p ∧ Relation.TransGen (WaitsFor s) p p

/-- The activity is a refresh exchange that is on the network. -/
def Exchanging (s : Page) (p : Nat) : Prop :=
  ∃ value retry bearer, s.tasks[p]? = some (.request (.exchange value) retry bearer)

/-- A 401 answer to a refresh exchange arrives while a refresh token is held. -/
def Refuses (s : Page) : Input → Prop
  | .answer p a => a = .unauthorized ∧ Exchanging s p ∧ s.refreshToken ≠ none
  | _ => False

/-! ### The invariant -/

def Refreshing : Task → Prop
  | .request (.exchange _) _ _ | .awaiting (.exchange _) _ => True
  | _ => False

/-- The refresh is in flight, or it is over. -/
def Awaited (s : Page) (p : Nat) : Prop :=
  s.refreshInFlight = some p ∨ (s.settled.lookup p).isSome

def Fits (s : Page) (id : Nat) : Task → Prop
  | .request (.exchange _) retry _ => s.refreshInFlight = some id ∧ retry = false
  | .awaiting (.exchange _) p => p = id ∧ s.refreshInFlight = some id ∧ .refused id ∈ s.log
  | .awaiting _ p | .restoring p => Awaited s p
  | _ => True

structure Waits (s : Page) : Prop where
  tasks : ∀ id t, s.tasks[id]? = some t → Fits s id t
  inFlight : ∀ p, s.refreshInFlight = some p → ∃ t, s.tasks[p]? = some t ∧ Refreshing t
  ended : ∀ p, (s.settled.lookup p).isSome → p < s.tasks.length ∧ s.refreshInFlight ≠ some p
  stuck : ∀ p, .refused p ∈ s.log → ∃ value, s.tasks[p]? = some (.awaiting (.exchange value) p)

variable {s s' : Page} {id : Nat} {t : Task}

theorem Fits.of_not_refreshing (h : Fits s id t) (ht : ¬Refreshing t)
    (hawaited : ∀ p, Awaited s p → Awaited s' p) : Fits s' id t := by
  cases t with
  | request owner retry bearer =>
    cases owner with
    | exchange value => exact absurd trivial ht
    | view | userInfo | loginCode | loginTokens => trivial
  | awaiting owner p =>
    cases owner with
    | exchange value => exact absurd trivial ht
    | view | userInfo | loginCode | loginTokens => exact hawaited p h
  | restoring p => exact hawaited p h
  | logout | done => trivial

/-- The invariant reads the tasks, the refreshes, and the refusals of the log. -/
theorem Waits.congr (h : Waits s) (htasks : s'.tasks = s.tasks)
    (hflight : s'.refreshInFlight = s.refreshInFlight) (hsettled : s'.settled = s.settled)
    (hrefused : ∀ p, .refused p ∈ s'.log ↔ .refused p ∈ s.log) : Waits s' where
  tasks id t ht := by
    rw [htasks] at ht
    have hfits := h.tasks id t ht
    cases t with
    | request owner retry bearer =>
      cases owner with
      | exchange value => exact hfits.imp_left hflight.trans
      | view | userInfo | loginCode | loginTokens => trivial
    | awaiting owner p =>
      cases owner with
      | exchange value =>
        exact ⟨hfits.1, hflight.trans hfits.2.1, (hrefused id).mpr hfits.2.2⟩
      | view | userInfo | loginCode | loginTokens =>
        exact hfits.imp hflight.trans fun hp => hsettled ▸ hp
    | restoring p => exact Or.imp hflight.trans (fun hp => hsettled ▸ hp) hfits
    | logout | done => trivial
  inFlight p hp := by
    rw [htasks]
    exact h.inFlight p (hflight.symm.trans hp)
  ended p hp := by
    rw [htasks, hflight]
    exact h.ended p (hsettled ▸ hp)
  stuck p hp := by
    rw [htasks]
    exact h.stuck p ((hrefused p).mp hp)

theorem Waits.note (h : Waits s) {n : Note} (hn : ∀ p, n ≠ .refused p) : Waits (s.note n) := by
  refine h.congr rfl rfl rfl ?_
  intro p
  constructor
  · intro hp
    exact (List.mem_cons.mp hp).resolve_left (hn p).symm
  · exact List.mem_cons_of_mem _

theorem Waits.add (h : Waits s) (ht : ¬Refreshing t) (hfits : Fits s s.tasks.length t) :
    Waits (s.add t) where
  tasks id u hu := by
    rcases Service.getElem?_snoc hu with hu | ⟨rfl, rfl⟩
    · exact h.tasks id u hu
    · exact hfits
  inFlight p hp := by
    obtain ⟨u, hu, hrefreshing⟩ := h.inFlight p hp
    exact ⟨u, (List.getElem?_append_left (List.getElem?_eq_some_iff.mp hu).1).trans hu, hrefreshing⟩
  ended p hp := by
    obtain ⟨hlt, hne⟩ := h.ended p hp
    refine ⟨?_, hne⟩
    change p < (s.tasks ++ [t]).length
    rw [List.length_append]
    exact Nat.lt_add_right _ hlt
  stuck p hp := by
    obtain ⟨value, hu⟩ := h.stuck p hp
    exact ⟨value, (List.getElem?_append_left (List.getElem?_eq_some_iff.mp hu).1).trans hu⟩

theorem getElem?_setTask_of_ne {p : Nat} {u : Task} (hne : p ≠ id) (hu : s.tasks[p]? = some u) :
    (s.setTask id t).tasks[p]? = some u := by
  change (s.tasks.set id t)[p]? = _
  rw [List.getElem?_set_ne hne.symm, hu]

theorem Waits.setTask (h : Waits s) {old : Task} (hold : s.tasks[id]? = some old)
    (hne : ¬Refreshing old) (hfits : Fits s id t) : Waits (s.setTask id t) where
  tasks j u hu := by
    rcases Service.getElem?_set_cases hu with ⟨rfl, rfl⟩ | ⟨-, hu⟩
    · exact hfits
    · exact h.tasks j u hu
  inFlight p hp := by
    obtain ⟨u, hu, hrefreshing⟩ := h.inFlight p hp
    refine ⟨u, getElem?_setTask_of_ne ?_ hu, hrefreshing⟩
    rintro rfl
    rw [hold] at hu
    obtain rfl := Option.some.inj hu
    exact hne hrefreshing
  ended p hp := by
    obtain ⟨hlt, hflight⟩ := h.ended p hp
    refine ⟨?_, hflight⟩
    change p < (s.tasks.set id t).length
    rwa [List.length_set]
  stuck p hp := by
    obtain ⟨value, hu⟩ := h.stuck p hp
    refine ⟨value, getElem?_setTask_of_ne ?_ hu⟩
    rintro rfl
    rw [hold] at hu
    obtain rfl := Option.some.inj hu
    exact hne trivial

/-! ### A refresh begins and ends -/

theorem Fits.inFlight (h : Fits s id t) (ht : Refreshing t) : s.refreshInFlight = some id := by
  cases t with
  | request owner retry bearer =>
    cases owner with
    | exchange value => exact h.1
    | view | userInfo | loginCode | loginTokens => exact ht.elim
  | awaiting owner p =>
    cases owner with
    | exchange value => exact h.2.1
    | view | userInfo | loginCode | loginTokens => exact ht.elim
  | restoring | logout | done => exact ht.elim

theorem Waits.refresh (h : Waits s) (value : Token) :
    Waits (s.refresh value).2 ∧ (s.refresh value).2.refreshInFlight = some (s.refresh value).1 := by
  unfold Page.refresh
  split
  · rename_i p hflight
    exact ⟨h, hflight⟩
  · rename_i hidle
    have hquiet : ∀ (id : Nat) (t : Task), s.tasks[id]? = some t → ¬Refreshing t := by
      intro id t ht hrefreshing
      have hflight := (h.tasks id t ht).inFlight hrefreshing
      rw [hidle] at hflight
      cases hflight
    refine ⟨⟨?_, ?_, ?_, ?_⟩, rfl⟩
    · intro id t ht
      rcases Service.getElem?_snoc ht with ht | ⟨rfl, rfl⟩
      · refine (h.tasks id t ht).of_not_refreshing (hquiet id t ht) ?_
        rintro p (hp | hp)
        · rw [hidle] at hp
          cases hp
        · exact .inr hp
      · exact ⟨rfl, rfl⟩
    · intro p hp
      obtain rfl := Option.some.inj hp
      exact ⟨_, List.getElem?_concat_length, trivial⟩
    · intro p hp
      obtain ⟨hlt, -⟩ := h.ended p hp
      constructor
      · change p < (s.tasks ++ [_]).length
        rw [List.length_append]
        exact Nat.lt_add_right _ hlt
      · intro heq
        exact absurd (Option.some.inj heq) (Nat.ne_of_gt hlt)
    · intro p hp
      obtain ⟨v, hu⟩ := h.stuck p ((List.mem_cons.mp hp).resolve_left nofun)
      exact absurd trivial (hquiet p _ hu)

theorem Waits.settle (h : Waits s) {value : Token} {retry : Bool} {bearer : Option Token}
    (ht : s.tasks[id]? = some (.request (.exchange value) retry bearer)) (ok : Bool) :
    Waits (s.settle id ok) := by
  have hflight := (h.tasks id _ ht).1
  refine ⟨?_, nofun, ?_, ?_⟩
  · intro j u hu
    rcases Service.getElem?_set_cases hu with ⟨rfl, rfl⟩ | ⟨hne, hu⟩
    · trivial
    · refine (h.tasks j u hu).of_not_refreshing ?_ ?_
      · intro hrefreshing
        have hj := (h.tasks j u hu).inFlight hrefreshing
        rw [hflight] at hj
        exact hne (Option.some.inj hj).symm
      · rintro p (hp | hp)
        · rw [hflight] at hp
          obtain rfl := Option.some.inj hp
          right
          change (((id, ok) :: s.settled).lookup id).isSome
          rw [List.lookup_cons_self]
          rfl
        · right
          change (((id, ok) :: s.settled).lookup p).isSome
          rw [List.lookup_cons]
          split
          · rfl
          · exact hp
  · intro p hp
    refine ⟨?_, nofun⟩
    change p < (s.tasks.set id .done).length
    rw [List.length_set]
    change (((id, ok) :: s.settled).lookup p).isSome at hp
    rw [List.lookup_cons] at hp
    split at hp
    · rename_i heq
      obtain rfl := eq_of_beq heq
      exact (List.getElem?_eq_some_iff.mp ht).1
    · exact (h.ended p hp).1
  · intro p hp
    obtain ⟨v, hu⟩ := h.stuck p hp
    refine ⟨v, getElem?_setTask_of_ne (s := { s with refreshInFlight := none }) ?_ hu⟩
    rintro rfl
    rw [ht] at hu
    cases hu

/-! ### The steps -/

theorem Waits.clear (h : Waits s) (id : Nat) : Waits (s.clear id) := by
  have hcleared : Waits { s with
      accessToken := none, refreshToken := none, persisted := none, admin := false } :=
    h.congr rfl rfl rfl fun _ => .rfl
  exact hcleared.note (n := .cleared id s.held) nofun

theorem Waits.logout (h : Waits s) : Waits s.logout := by
  have hcalled : Waits (s.note (.logoutCalled s.tasks.length s.held)) := h.note nofun
  unfold Page.logout
  dsimp only
  split
  · exact (hcalled.add (t := .done) not_false trivial).clear _
  · exact hcalled.add (t := .logout _) not_false trivial

theorem Waits.send (h : Waits s) {owner : Owner} (howner : ∀ value, owner ≠ .exchange value) :
    Waits (s.send owner) := by
  cases owner with
  | exchange value => exact absurd rfl (howner value)
  | view | userInfo | loginCode | loginTokens => exact h.add not_false trivial

theorem Waits.restoreSession (h : Waits s) : Waits s.restoreSession := by
  unfold Page.restoreSession
  split
  · exact h
  · rename_i value _
    have hremembered : Waits { s with refreshToken := some value } :=
      h.congr rfl rfl rfl fun _ => .rfl
    obtain ⟨hrefreshed, hflight⟩ := hremembered.refresh value
    exact hrefreshed.add not_false (.inl hflight)

theorem Waits.fetchUserInfo (h : Waits s) : Waits s.fetchUserInfo := by
  unfold Page.fetchUserInfo
  split
  · exact h
  · exact h.send nofun

theorem Waits.checkRole (h : Waits s) (login : Bool) : Waits (s.checkRole login) := by
  unfold Page.checkRole
  split
  · exact h.logout
  · exact h

/-- A task that is no exchange is over. -/
theorem Waits.finish (h : Waits s) {old : Task} (hold : s.tasks[id]? = some old)
    (hne : ¬Refreshing old) : Waits (s.setTask id .done) :=
  h.setTask hold hne trivial

theorem Waits.failOther (h : Waits s) {old : Task} (hold : s.tasks[id]? = some old)
    (hne : ¬Refreshing old) {owner : Owner} (howner : ∀ value, owner ≠ .exchange value) :
    Waits (s.fail id owner) := by
  cases owner with
  | exchange value => exact absurd rfl (howner value)
  | userInfo login => exact ((h.finish hold hne).logout).checkRole login
  | view | loginCode | loginTokens => exact h.finish hold hne

theorem Waits.fail (h : Waits s) {owner : Owner} {retry : Bool} {bearer : Option Token}
    (ht : s.tasks[id]? = some (.request owner retry bearer)) : Waits (s.fail id owner) := by
  cases owner with
  | exchange value => exact (h.settle ht false).logout
  | view | userInfo | loginCode | loginTokens => exact h.failOther ht not_false nofun

theorem Waits.succeed (h : Waits s) {owner : Owner} {retry : Bool} {bearer : Option Token}
    (ht : s.tasks[id]? = some (.request owner retry bearer)) (a : Spa.Answer) :
    Waits (s.succeed id owner a) := by
  cases owner with
  | view => exact h.finish ht not_false
  | exchange value =>
    cases a with
    | tokens access refresh =>
      have hset : Waits (s.setTokens access refresh) := h.congr rfl rfl rfl fun _ => .rfl
      exact (hset.note (n := .received id access refresh) nofun).settle ht true
    | code | mfaRequired | info | ok | unauthorized | failed => exact h
  | userInfo login =>
    cases a with
    | info admin =>
      have hset : Waits { s with admin := admin } := h.congr rfl rfl rfl fun _ => .rfl
      exact (hset.finish ht not_false).checkRole login
    | tokens | code | mfaRequired | ok | unauthorized | failed => exact h
  | loginCode =>
    cases a with
    | code => exact h.setTask ht not_false trivial
    | mfaRequired => exact h.finish ht not_false
    | tokens | info | ok | unauthorized | failed => exact h
  | loginTokens =>
    cases a with
    | tokens access refresh =>
      have hset : Waits (s.setTokens access refresh) := h.congr rfl rfl rfl fun _ => .rfl
      exact (hset.note (n := .loggedIn id) nofun).setTask ht not_false trivial
    | code | mfaRequired | info | ok | unauthorized | failed => exact h

/-- A refused exchange joins the refresh in flight, which is its own. -/
theorem Waits.refuse (h : Waits s) {value : Token} {bearer : Option Token}
    (ht : s.tasks[id]? = some (.request (.exchange value) false bearer)) :
    Waits ((s.setTask id (.awaiting (.exchange value) id)).note (.refused id)) := by
  have hflight := (h.tasks id _ ht).1
  have hlt := (List.getElem?_eq_some_iff.mp ht).1
  refine ⟨?_, ?_, ?_, ?_⟩
  · intro j u hu
    rcases Service.getElem?_set_cases hu with ⟨rfl, rfl⟩ | ⟨hne, hu⟩
    · exact ⟨rfl, hflight, List.mem_cons_self⟩
    · refine (h.tasks j u hu).of_not_refreshing ?_ fun _ hp => hp
      intro hrefreshing
      have hj := (h.tasks j u hu).inFlight hrefreshing
      rw [hflight] at hj
      exact hne (Option.some.inj hj).symm
  · intro p hp
    have hid : p = id := Option.some.inj (hp.symm.trans hflight)
    subst hid
    refine ⟨.awaiting (.exchange value) p, ?_, trivial⟩
    change (s.tasks.set p _)[p]? = _
    exact List.getElem?_set_self hlt
  · intro p hp
    obtain ⟨hplt, hne⟩ := h.ended p hp
    refine ⟨?_, hne⟩
    change p < (s.tasks.set id _).length
    rwa [List.length_set]
  · intro p hp
    rcases List.mem_cons.mp hp with heq | hp
    · obtain rfl := Note.refused.inj heq
      exact ⟨value, List.getElem?_set_self hlt⟩
    · obtain ⟨v, hu⟩ := h.stuck p hp
      refine ⟨v, getElem?_setTask_of_ne ?_ hu⟩
      rintro rfl
      rw [ht] at hu
      cases hu

theorem Waits.unauthorized (h : Waits s) {owner : Owner} {retry : Bool} {bearer : Option Token}
    (ht : s.tasks[id]? = some (.request owner retry bearer)) :
    Waits (s.unauthorized id retry owner) := by
  unfold Page.unauthorized
  split
  · exact h.fail ht
  · rename_i value _
    split
    · exact h.fail ht
    · rename_i hretry
      obtain rfl : retry = false := by simpa using hretry
      obtain ⟨hrefreshed, hflight⟩ := h.refresh value
      have hkept := Page.getElem?_refresh ht value
      cases owner with
      | exchange v =>
        have hid := (hrefreshed.tasks id _ hkept).1
        obtain heq : (s.refresh value).1 = id := Option.some.inj (hflight.symm.trans hid)
        dsimp only
        rw [heq]
        exact hrefreshed.refuse hkept
      | view | userInfo | loginCode | loginTokens =>
        exact hrefreshed.setTask hkept not_false (.inl hflight)

theorem Waits.answer (h : Waits s) (id : Nat) (a : Spa.Answer) : Waits (s.answer id a) := by
  unfold Page.answer
  split
  · rename_i owner retry bearer ht
    split
    · exact h.unauthorized ht
    · exact h.fail ht
    · exact h.succeed ht _
  · rename_i left ht
    split
    · exact (h.finish ht not_false).clear id
    · exact h.setTask ht not_false trivial
  · exact h

/-- An exchange that waits for itself never hears of its refresh. -/
theorem Waits.not_exchange_of_over (h : Waits s) {owner : Owner} {p : Nat}
    (ht : s.tasks[id]? = some (.awaiting owner p)) (hover : (s.settled.lookup p).isSome) :
    ∀ value, owner ≠ .exchange value := by
  rintro value rfl
  obtain ⟨rfl, hflight, -⟩ := h.tasks id _ ht
  exact (h.ended _ hover).2 hflight

theorem Waits.resume (h : Waits s) (id : Nat) : Waits (s.resume id) := by
  unfold Page.resume
  split
  · rename_i owner p ht
    have howner : (s.settled.lookup p).isSome → ∀ value, owner ≠ .exchange value :=
      h.not_exchange_of_over ht
    split
    · rename_i hsettled
      rw [hsettled] at howner
      cases owner with
      | exchange value => exact absurd rfl (howner rfl value)
      | view | userInfo | loginCode | loginTokens =>
        refine Waits.note ?_ nofun
        exact h.setTask ht not_false trivial
    · rename_i hsettled
      rw [hsettled] at howner
      refine h.logout.failOther (Page.getElem?_logout ht) ?_ (howner rfl)
      cases owner with
      | exchange value => exact absurd rfl (howner rfl value)
      | view | userInfo | loginCode | loginTokens => exact not_false
    · exact h
  · rename_i p ht
    split
    · exact (h.finish ht not_false).fetchUserInfo
    · exact h.finish ht not_false
    · exact h
  · exact h

theorem Waits.step (h : Waits s) (i : Input) : Waits (s.step i) := by
  cases i with
  | request => exact h.send nofun
  | fetchUserInfo => exact h.fetchUserInfo
  | restoreSession => exact h.restoreSession
  | ensureSessionRestored =>
    change Waits s.ensureSessionRestored
    unfold Page.ensureSessionRestored
    split
    · exact h
    · exact h.restoreSession.congr rfl rfl rfl fun _ => .rfl
  | login => exact (h.note (n := .loginCalled s.tasks.length) nofun).send nofun
  | logout => exact h.logout
  | answer id a => exact h.answer id a
  | resume id => exact h.resume id

theorem waits_load (r₀ : Option Token) : Waits (load r₀) where
  tasks := nofun
  inFlight := nofun
  ended := nofun
  stuck _ hp := absurd hp List.not_mem_nil

/-! ### The refusals of a run -/

def refusals (log : List Note) : List Nat :=
  log.filterMap fun
    | .refused p => some p
    | _ => none

theorem mem_refusals {log : List Note} {p : Nat} : p ∈ refusals log ↔ .refused p ∈ log := by
  constructor
  · intro hp
    obtain ⟨n, hn, heq⟩ := List.mem_filterMap.mp hp
    cases n with
    | refused q =>
      obtain rfl := Option.some.inj heq
      exact hn
    | sent | received | loginCalled | loggedIn | logoutCalled | cleared | retried => cases heq
  · exact fun hp => List.mem_filterMap.mpr ⟨_, hp, rfl⟩

@[simp]
theorem refusals_logout : refusals s.logout.log = refusals s.log := by
  unfold Page.logout
  dsimp only
  split <;> rfl

@[simp]
theorem refusals_refresh (value : Token) :
    refusals (s.refresh value).2.log = refusals s.log := by
  unfold Page.refresh
  split <;> rfl

@[simp]
theorem refusals_restoreSession : refusals s.restoreSession.log = refusals s.log := by
  unfold Page.restoreSession
  split
  · rfl
  · exact refusals_refresh _

@[simp]
theorem refusals_fetchUserInfo : refusals s.fetchUserInfo.log = refusals s.log := by
  unfold Page.fetchUserInfo
  split <;> rfl

@[simp]
theorem refusals_checkRole (login : Bool) :
    refusals (s.checkRole login).log = refusals s.log := by
  unfold Page.checkRole
  split
  · exact refusals_logout
  · rfl

@[simp]
theorem refusals_fail (owner : Owner) : refusals (s.fail id owner).log = refusals s.log := by
  cases owner with
  | exchange value => exact refusals_logout
  | userInfo login => exact (refusals_checkRole login).trans refusals_logout
  | view | loginCode | loginTokens => rfl

@[simp]
theorem refusals_succeed (owner : Owner) (a : Spa.Answer) :
    refusals (s.succeed id owner a).log = refusals s.log := by
  unfold Page.succeed
  split
  case h_2 => exact refusals_checkRole _
  all_goals rfl

@[simp]
theorem refusals_resume : refusals (s.resume id).log = refusals s.log := by
  unfold Page.resume
  split
  · split
    · rfl
    · rw [refusals_fail, refusals_logout]
    · rfl
  · split
    · exact refusals_fetchUserInfo
    · rfl
    · rfl
  · rfl

theorem refusals_unauthorized {owner : Owner} (retry : Bool)
    (howner : ∀ value, owner ≠ .exchange value) :
    refusals (s.unauthorized id retry owner).log = refusals s.log := by
  unfold Page.unauthorized
  split
  · exact refusals_fail owner
  · rename_i value _
    split
    · exact refusals_fail owner
    · cases owner with
      | exchange v => exact absurd rfl (howner v)
      | view | userInfo | loginCode | loginTokens => exact refusals_refresh value

theorem Waits.refusals_of_refuses (h : Waits s) {i : Input} (hrefuses : Refuses s i) :
    refusals (s.step i).log ≠ [] := by
  cases i with
  | answer id a =>
    obtain ⟨rfl, ⟨value, retry, bearer, ht⟩, hheld⟩ := hrefuses
    obtain ⟨held, hheld⟩ := Option.ne_none_iff_exists'.mp hheld
    obtain ⟨-, rfl⟩ := h.tasks id _ ht
    have hanswer : s.answer id .unauthorized = s.unauthorized id false (.exchange value) := by
      unfold Page.answer
      rw [ht]
    change refusals (s.answer id .unauthorized).log ≠ []
    rw [hanswer]
    unfold Page.unauthorized
    rw [hheld]
    exact List.cons_ne_nil _ _
  | request | fetchUserInfo | restoreSession | ensureSessionRestored | login | logout | resume =>
    exact hrefuses.elim

theorem refusals_of_not_refuses {i : Input} (hrefuses : ¬Refuses s i) :
    refusals (s.step i).log = refusals s.log := by
  cases i with
  | answer id a =>
    change refusals (s.answer id a).log = _
    unfold Page.answer
    split
    · rename_i owner retry bearer ht
      split
      · cases owner with
        | exchange value =>
          have hnone : s.refreshToken = none := by
            by_contra hheld
            exact hrefuses ⟨rfl, ⟨value, retry, bearer, ht⟩, hheld⟩
          unfold Page.unauthorized
          rw [hnone]
          exact refusals_fail _
        | view | userInfo | loginCode | loginTokens => exact refusals_unauthorized retry nofun
      · exact refusals_fail owner
      · exact refusals_succeed owner _
    · split <;> rfl
    · rfl
  | request | login => rfl
  | fetchUserInfo => exact refusals_fetchUserInfo
  | restoreSession => exact refusals_restoreSession
  | ensureSessionRestored =>
    change refusals s.ensureSessionRestored.log = _
    unfold Page.ensureSessionRestored
    split
    · rfl
    · exact refusals_restoreSession
  | logout => exact refusals_logout
  | resume id => exact refusals_resume

/-- A 401 answer to a refresh exchange arrived in the run while a refresh token was held. -/
def RefusedIn (r₀ : Option Token) (history : List Input) : Prop :=
  ∃ later earlier i q, history = later ++ i :: earlier ∧
    machine.Run anyStep (load r₀) earlier q ∧ Refuses q i

theorem RefusedIn.cons {r₀ : Option Token} {history : List Input} (h : RefusedIn r₀ history)
    (i : Input) : RefusedIn r₀ (i :: history) := by
  obtain ⟨later, earlier, j, q, rfl, hq, hrefuses⟩ := h
  exact ⟨i :: later, earlier, j, q, rfl, hq, hrefuses⟩

theorem waits_of_run {r₀ : Option Token} {history : List Input}
    (hrun : machine.Run anyStep (load r₀) history s) :
    Waits s ∧ (refusals s.log ≠ [] ↔ RefusedIn r₀ history) := by
  induction hrun with
  | init =>
    refine ⟨waits_load r₀, fun hne => absurd rfl hne, ?_⟩
    rintro ⟨later, earlier, i, q, heq, -, -⟩
    simp at heq
  | @next history s i hrun _ ih =>
    obtain ⟨h, hrefused⟩ := ih
    refine ⟨h.step i, ?_⟩
    change refusals (s.step i).log ≠ [] ↔ RefusedIn r₀ (i :: history)
    by_cases hrefuses : Refuses s i
    · constructor
      · exact fun _ => ⟨[], history, i, s, rfl, hrun, hrefuses⟩
      · exact fun _ => h.refusals_of_refuses hrefuses
    · rw [refusals_of_not_refuses hrefuses, hrefused]
      constructor
      · exact fun hpast => hpast.cons i
      · rintro ⟨later, earlier, j, q, heq, hq, hrefuses'⟩
        cases later with
        | nil =>
          obtain ⟨rfl, rfl⟩ := List.cons.inj heq
          obtain rfl := state_eq_of_run (fun _ _ => rfl) hrun hq
          exact absurd hrefuses' hrefuses
        | cons j' later => exact ⟨later, earlier, j, q, (List.cons.inj heq).2, hq, hrefuses'⟩

/-! ### Waiting for itself -/

theorem Waits.itself_iff_refusals (h : Waits s) : WaitsForItself s ↔ refusals s.log ≠ [] := by
  constructor
  · rintro ⟨p, hflight, hcycle⟩
    obtain ⟨q, hq⟩ : ∃ q, WaitsFor s p q := by
      rcases Relation.TransGen.head'_iff.mp hcycle with ⟨q, hq, -⟩
      exact ⟨q, hq⟩
    obtain ⟨t, ht, hrefreshing⟩ := h.inFlight p hflight
    rcases hq with ⟨owner, hq⟩ | hq
    · rw [ht] at hq
      obtain rfl := Option.some.inj hq
      cases owner with
      | exchange value =>
        have hmem := mem_refusals.mpr (h.tasks p _ ht).2.2
        exact List.ne_nil_of_mem hmem
      | view | userInfo | loginCode | loginTokens => exact hrefreshing.elim
    · rw [ht] at hq
      obtain rfl := Option.some.inj hq
      exact hrefreshing.elim
  · intro hne
    obtain ⟨p, hp⟩ := List.exists_mem_of_ne_nil _ hne
    obtain ⟨value, ht⟩ := h.stuck p (mem_refusals.mp hp)
    exact ⟨p, (h.tasks p _ ht).2.1, .single (.inl ⟨_, ht⟩)⟩

/-- The answer settles a refresh: it is one that the token endpoint gives to an exchange. -/
def Settles : Spa.Answer → Prop
  | .tokens _ _ | .unauthorized | .failed => True
  | _ => False

/-- Once the answers have arrived, every request goes on. -/
structure Progresses (s : Page) : Prop where
  exchanging : ∀ p, s.refreshInFlight = some p → Exchanging s p
  settles : ∀ p a, s.refreshInFlight = some p → Settles a → ¬Refuses s (.answer p a) →
    (s.step (.answer p a)).refreshInFlight = none
  waiting : ∀ id p, WaitsFor s id p → s.refreshInFlight = some p ∨
    ∀ q, ¬WaitsFor (s.step (.resume id)) id q

theorem refreshInFlight_logout : s.logout.refreshInFlight = s.refreshInFlight := by
  unfold Page.logout
  dsimp only
  split <;> rfl

theorem Waits.exchanging (h : Waits s) (hnever : refusals s.log = []) {p : Nat}
    (hflight : s.refreshInFlight = some p) : Exchanging s p := by
  obtain ⟨t, ht, hrefreshing⟩ := h.inFlight p hflight
  cases t with
  | request owner retry bearer =>
    cases owner with
    | exchange value => exact ⟨value, retry, bearer, ht⟩
    | view | userInfo | loginCode | loginTokens => exact hrefreshing.elim
  | awaiting owner q =>
    cases owner with
    | exchange value =>
      have hmem := mem_refusals.mpr (h.tasks p _ ht).2.2
      rw [hnever] at hmem
      exact absurd hmem List.not_mem_nil
    | view | userInfo | loginCode | loginTokens => exact hrefreshing.elim
  | restoring | logout | done => exact hrefreshing.elim

theorem settles_of_exchanging {p : Nat} (hexchanging : Exchanging s p) {a : Spa.Answer}
    (ha : Settles a) (hrefuses : ¬Refuses s (.answer p a)) :
    (s.answer p a).refreshInFlight = none := by
  obtain ⟨value, retry, bearer, ht⟩ := id hexchanging
  unfold Page.answer
  rw [ht]
  cases a with
  | tokens access refresh => rfl
  | failed => exact refreshInFlight_logout
  | unauthorized =>
    have hnone : s.refreshToken = none := by
      by_contra hheld
      exact hrefuses ⟨rfl, hexchanging, hheld⟩
    dsimp only
    unfold Page.unauthorized
    rw [hnone]
    exact refreshInFlight_logout
  | code | mfaRequired | info | ok => exact ha.elim

theorem getElem?_setTask_self (ht : s.tasks[id]? = some t) (u : Task) :
    (s.setTask id u).tasks[id]? = some u :=
  List.getElem?_set_self (List.getElem?_eq_some_iff.mp ht).1

theorem getElem?_fail {owner : Owner} (ht : s.tasks[id]? = some t)
    (howner : ∀ value, owner ≠ .exchange value) : (s.fail id owner).tasks[id]? = some .done := by
  have hset := getElem?_setTask_self ht .done
  cases owner with
  | exchange value => exact absurd rfl (howner value)
  | userInfo login =>
    change (((s.setTask id .done).logout).checkRole login).tasks[id]? = some .done
    have hlogout := Page.getElem?_logout hset
    unfold Page.checkRole
    split
    · exact Page.getElem?_logout hlogout
    · exact hlogout
  | view | loginCode | loginTokens => exact hset

theorem not_waitsFor_of_done (hdone : s.tasks[id]? = some .done) (q : Nat) : ¬WaitsFor s id q := by
  rintro (⟨owner, hq⟩ | hq)
  · rw [hdone] at hq
    cases hq
  · rw [hdone] at hq
    cases hq

/-- Whoever waits for a refresh that is over goes on. -/
theorem Waits.goesOn (h : Waits s) {p : Nat} (hwaits : WaitsFor s id p)
    (hover : (s.settled.lookup p).isSome) (q : Nat) : ¬WaitsFor (s.resume id) id q := by
  obtain ⟨ok, hsettled⟩ := Option.isSome_iff_exists.mp hover
  rcases hwaits with ⟨owner, ht⟩ | ht
  · have howner := h.not_exchange_of_over ht hover
    cases ok with
    | true =>
      have hresume : s.resume id =
          (s.setTask id (.request owner true s.accessToken)).note
            (.retried id p s.accessToken) := by
        unfold Page.resume
        rw [ht]
        dsimp only
        rw [hsettled]
      have hset := getElem?_setTask_self ht (.request owner true s.accessToken)
      rw [hresume]
      rintro (⟨owner', hq⟩ | hq)
      · cases hset.symm.trans hq
      · cases hset.symm.trans hq
    | false =>
      have hresume : s.resume id = s.logout.fail id owner := by
        unfold Page.resume
        rw [ht]
        dsimp only
        rw [hsettled]
      rw [hresume]
      exact not_waitsFor_of_done (getElem?_fail (Page.getElem?_logout ht) howner) q
  · refine not_waitsFor_of_done ?_ q
    have hset := getElem?_setTask_self ht .done
    cases ok with
    | true =>
      have hresume : s.resume id = (s.setTask id .done).fetchUserInfo := by
        unfold Page.resume
        rw [ht]
        dsimp only
        rw [hsettled]
      rw [hresume]
      unfold Page.fetchUserInfo
      split
      · exact hset
      · exact (List.getElem?_append_left (List.getElem?_eq_some_iff.mp hset).1).trans hset
    | false =>
      have hresume : s.resume id = s.setTask id .done := by
        unfold Page.resume
        rw [ht]
        dsimp only
        rw [hsettled]
      rw [hresume]
      exact hset

theorem Waits.awaited (h : Waits s) {p : Nat} (hwaits : WaitsFor s id p) : Awaited s p := by
  rcases hwaits with ⟨owner, ht⟩ | ht
  · have hfits := h.tasks id _ ht
    cases owner with
    | exchange value =>
      obtain ⟨rfl, hflight, -⟩ := hfits
      exact .inl hflight
    | view | userInfo | loginCode | loginTokens => exact hfits
  · exact h.tasks id _ ht

theorem Waits.progresses (h : Waits s) (hnever : refusals s.log = []) : Progresses s where
  exchanging _ hflight := h.exchanging hnever hflight
  settles _ _ hflight ha hrefuses := settles_of_exchanging (h.exchanging hnever hflight) ha hrefuses
  waiting _ _ hwaits := (h.awaited hwaits).imp_right fun hover => h.goesOn hwaits hover

/-- In every run, the page waits for itself exactly from a 401 answer on that met a refresh exchange
while a refresh token was held; otherwise every answer lets what waits for it go on. -/
theorem waitsForItself_iff {r₀ : Option Token} {history : List Input}
    (hrun : machine.Run anyStep (load r₀) history s) :
    (WaitsForItself s ↔ RefusedIn r₀ history) ∧ (¬WaitsForItself s → Progresses s) := by
  obtain ⟨h, hrefused⟩ := waits_of_run hrun
  refine ⟨h.itself_iff_refusals.trans hrefused, ?_⟩
  intro hnot
  refine h.progresses ?_
  by_contra hne
  exact hnot (h.itself_iff_refusals.mpr hne)

/-- A logout comes between a refresh exchange and its 401 answer, which then ends the refresh. -/
def leaving : List Input :=
  [.restoreSession, .logout, .answer 2 .failed, .answer 0 .unauthorized, .resume 1]

theorem waitsForItself_iff_leaving :
    let run := machine.exec [] (load (some "refresh 0")) leaving
    run.2.tasks = [.done, .done, .done, .done] ∧
      (WaitsForItself run.2 ↔ RefusedIn (some "refresh 0") run.1) ∧
      (¬WaitsForItself run.2 → Progresses run.2) := by
  intro run
  exact ⟨by decide, waitsForItself_iff (machine.run_exec _ leaving)⟩

/-- The token endpoint refuses the exchange of a restored session with 401, as it does for a client
that it does not know. -/
theorem refused_exchange_waits_for_itself :
    ¬∀ (r₀ : Option Token) (history : List Input) (s : Page),
      machine.Run anyStep (load r₀) history s → ¬WaitsForItself s := by
  intro hclaim
  refine hclaim (some "refresh 0") _ _
    (machine.run_exec _ [.restoreSession, .answer 0 .unauthorized]) ?_
  exact ⟨0, by decide, .single (.inl ⟨.exchange "refresh 0", by decide⟩)⟩

end AuthForge.SelfWaiting
