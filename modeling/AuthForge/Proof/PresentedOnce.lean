import AuthForge.Base.Prog
import AuthForge.Spa.User
import Mathlib.Data.List.Nodup

/-!
# When the user frontend presents a refresh token twice

Pages in which nobody logs in or out, against a server that answers the first use of every refresh
token with a fresh one. Every caller starts its own exchange with the token that is held, so a token
is sent twice exactly where an exchange starts while another is in flight.
-/

namespace AuthForge.PresentedOnce

open Spa Spa.User

def IsExchange : Task → Prop
  | .exchange _ _ => True
  | _ => False

/-- Requests, the restoration of the session, and answers. -/
def isBrowsing : Input → Bool
  | .request _ | .restoreSession | .link | .answer _ _ => true
  | .login | .verifyMfa | .exchangeCode | .githubLogin | .logout => false

/-- The exchange of a value that has been sent once is answered with tokens, of which the refresh
token has not been sent. -/
def rotates (s : Page) : Input → Bool
  | .answer id a =>
    match s.tasks[id]? with
    | some (.exchange value _) =>
      if (sentValues s.log).count value = 1 then
        match a with
        | .tokens _ refresh => refresh ∉ sentValues s.log
        | _ => false
      else true
    | _ => true
  | _ => true

def browsing : Guard Page Input Input := fun _ s i => isBrowsing i = true ∧ rotates s i = true

instance (history : List Input) (s : Page) (i : Input) : Decidable (browsing history s i) :=
  inferInstanceAs (Decidable (_ ∧ _))

/-- The input starts a refresh exchange. -/
def Starts (s : Page) : Input → Prop
  | .restoreSession => s.sessionRestored = false ∧ s.accessToken = none ∧ s.refreshToken ≠ none
  | .link => s.accessToken = none ∧ s.refreshToken ≠ none
  | .answer id a =>
    a = .unauthorized ∧ (∃ bearer, s.tasks[id]? = some (.request false false bearer)) ∧
      s.refreshToken ≠ none
  | _ => False

/-- A refresh exchange starts while another is in flight. -/
def Overlaps (s : Page) (i : Input) : Prop :=
  Starts s i ∧ ∃ (p : Nat) (t : Task), s.tasks[p]? = some t ∧ IsExchange t

def OverlappedIn (r₀ : Option Token) (history : List Input) : Prop :=
  ∃ later earlier i q, history = later ++ i :: earlier ∧
    machine.Run browsing (load r₀) earlier q ∧ Overlaps q i

/-! ### The invariant -/

/-- What a task of the page may be. -/
def Fits (s : Page) : Task → Prop
  | .exchange value _ => s.refreshToken = some value ∧ value ∈ sentValues s.log
  | .request _ _ _ | .done => True
  | _ => False

/-- No exchange has overlapped another. -/
structure Single (s : Page) : Prop where
  tasks : ∀ (id : Nat) (t : Task), s.tasks[id]? = some t → Fits s t
  one : ∀ (p q : Nat) (t u : Task), s.tasks[p]? = some t → s.tasks[q]? = some u →
    IsExchange t → IsExchange u → p = q
  once : (sentValues s.log).Nodup
  unsent : (∀ (p : Nat) (t : Task), s.tasks[p]? = some t → ¬IsExchange t) →
    ∀ v, s.refreshToken = some v → v ∉ sentValues s.log

variable {s s' : Page} {id : Nat} {t old : Task}

theorem Fits.of_not_exchange (h : Fits s t) (ht : ¬IsExchange t) : Fits s' t := by
  cases t with
  | exchange value refresher => exact absurd trivial ht
  | request | done => trivial
  | loginCode | login | revoking | endingSession => exact h

theorem Fits.congr (h : Fits s t) (hrefresh : s'.refreshToken = s.refreshToken)
    (hsent : sentValues s'.log = sentValues s.log) : Fits s' t := by
  cases t with
  | exchange value refresher =>
    change s'.refreshToken = some value ∧ value ∈ sentValues s'.log
    rw [hrefresh, hsent]
    exact h
  | request | done => trivial
  | loginCode | login | revoking | endingSession => exact h

theorem Single.congr (h : Single s) (htasks : s'.tasks = s.tasks)
    (hrefresh : s'.refreshToken = s.refreshToken)
    (hsent : sentValues s'.log = sentValues s.log) : Single s' where
  tasks id u hu := by
    rw [htasks] at hu
    exact (h.tasks id u hu).congr hrefresh hsent
  one p q u v hp hq := by
    rw [htasks] at hp hq
    exact h.one p q u v hp hq
  once := by
    rw [hsent]
    exact h.once
  unsent hidle v hv := by
    rw [hsent]
    rw [htasks] at hidle
    exact h.unsent hidle v (hrefresh.symm.trans hv)

theorem Single.add (h : Single s) (ht : ¬IsExchange t) (hfits : Fits s t) : Single (s.add t) where
  tasks id u hu := by
    rcases Service.getElem?_snoc hu with hu | ⟨-, rfl⟩
    · exact (h.tasks id u hu).congr rfl rfl
    · exact hfits.congr rfl rfl
  one p q u v hp hq hu hv := by
    rcases Service.getElem?_snoc hp with hp | ⟨-, rfl⟩
    · rcases Service.getElem?_snoc hq with hq | ⟨-, rfl⟩
      · exact h.one p q u v hp hq hu hv
      · exact absurd hv ht
    · exact absurd hu ht
  once := h.once
  unsent hidle := by
    refine h.unsent ?_
    intro p u hu
    exact hidle p u ((List.getElem?_append_left (List.getElem?_eq_some_iff.mp hu).1).trans hu)

theorem Single.setTask (h : Single s) (hold : s.tasks[id]? = some old) (hne : ¬IsExchange old)
    (ht : ¬IsExchange t) (hfits : Fits s t) : Single (s.setTask id t) where
  tasks j u hu := by
    rcases Service.getElem?_set_cases hu with ⟨-, rfl⟩ | ⟨-, hu⟩
    · exact hfits.congr rfl rfl
    · exact (h.tasks j u hu).congr rfl rfl
  one p q u v hp hq hu hv := by
    rcases Service.getElem?_set_cases hp with ⟨-, rfl⟩ | ⟨-, hp⟩
    · exact absurd hu ht
    · rcases Service.getElem?_set_cases hq with ⟨-, rfl⟩ | ⟨-, hq⟩
      · exact absurd hv ht
      · exact h.one p q u v hp hq hu hv
  once := h.once
  unsent hidle := by
    refine h.unsent ?_
    intro p u hu
    by_cases hp : p = id
    · subst hp
      rw [hold] at hu
      obtain rfl := Option.some.inj hu
      exact hne
    · refine hidle p u ?_
      change (s.tasks.set id t)[p]? = some u
      rw [List.getElem?_set_ne (Ne.symm hp), hu]

/-! ### An exchange starts and is answered -/

/-- Tasks and log after an exchange of the token that is held has started at `p`. -/
theorem Single.start (h : Single s) (p : Nat) {value : Token} (refresher : Refresher)
    {tasks : List Task} (hvalue : s.refreshToken = some value)
    (hidle : ∀ (q : Nat) (u : Task), s.tasks[q]? = some u → ¬IsExchange u)
    (htasks : ∀ (q : Nat) (u : Task), tasks[q]? = some u →
      (q = p ∧ u = .exchange value refresher) ∨ s.tasks[q]? = some u)
    (hlt : ∃ u, tasks[p]? = some u ∧ IsExchange u) (restored : Bool) :
    Single { s with
      tasks := tasks, log := .sent p value :: s.log, sessionRestored := restored } := by
  have hnew : value ∉ sentValues s.log := h.unsent hidle value hvalue
  refine ⟨?_, ?_, ?_, ?_⟩
  · intro q u hu
    rcases htasks q u hu with ⟨-, rfl⟩ | hu
    · exact ⟨hvalue, List.mem_cons_self⟩
    · exact (h.tasks q u hu).of_not_exchange (hidle q u hu)
  · intro q r u v hq hr hu hv
    rcases htasks q u hq with ⟨rfl, -⟩ | hq
    · rcases htasks r v hr with ⟨rfl, -⟩ | hr
      · rfl
      · exact absurd hv (hidle r v hr)
    · exact absurd hu (hidle q u hq)
  · exact List.nodup_cons.mpr ⟨hnew, h.once⟩
  · intro hnone
    obtain ⟨u, hu, hexchange⟩ := hlt
    exact absurd hexchange (hnone p u hu)

/-- The exchange in flight is over, and fresh tokens are held. -/
theorem Single.receive (h : Single s) {value : Token} {refresher : Refresher}
    (hold : s.tasks[id]? = some (.exchange value refresher)) (ht : ¬IsExchange t)
    (hfits : ∀ s', Fits s' t) (access : Token) {refresh : Token}
    (hfresh : refresh ∉ sentValues s.log) :
    Single (((s.setTokens access refresh).note (.received id access refresh)).setTask id t) := by
  have hidle : ∀ (q : Nat) (u : Task), (s.tasks.set id t)[q]? = some u → ¬IsExchange u := by
    intro q u hu hexchange
    rcases Service.getElem?_set_cases hu with ⟨-, rfl⟩ | ⟨hne, hu⟩
    · exact ht hexchange
    · exact hne (h.one q id u _ hu hold hexchange trivial)
  refine ⟨?_, ?_, h.once, ?_⟩
  · intro q u hu
    rcases Service.getElem?_set_cases hu with ⟨-, rfl⟩ | ⟨-, hq⟩
    · exact hfits _
    · exact (h.tasks q u hq).of_not_exchange (hidle q u hu)
  · intro p q u v hp _ hu
    exact absurd hu (hidle p u hp)
  · rintro - v hv
    obtain rfl := Option.some.inj hv
    exact hfresh

theorem Single.refreshed (h : Single s) {value : Token} {refresher : Refresher}
    (hold : s.tasks[id]? = some (.exchange value refresher)) (access : Token) {refresh : Token}
    (hfresh : refresh ∉ sentValues s.log) :
    Single (s.exchanged id refresher (.tokens access refresh)) := by
  cases refresher with
  | store =>
    have hdone := h.receive (t := .done) hold not_false (fun _ => trivial) access hfresh
    exact hdone.add not_false trivial
  | link =>
    exact h.receive (t := .request false false (some access)) hold not_false (fun _ => trivial)
      access hfresh
  | interceptor =>
    have hretried := h.receive (t := .request false true (some access)) hold not_false
      (fun _ => trivial) access hfresh
    exact hretried.congr rfl rfl rfl

/-! ### The steps -/

/-- Every start sends the refresh token that is held. -/
theorem sentValues_of_starts {i : Input} (hstarts : Starts s i) :
    ∃ value, s.refreshToken = some value ∧
      sentValues (s.step i).log = value :: sentValues s.log := by
  cases i with
  | restoreSession =>
    obtain ⟨hrestored, haccess, hheld⟩ := hstarts
    obtain ⟨value, hvalue⟩ := Option.ne_none_iff_exists'.mp hheld
    refine ⟨value, hvalue, ?_⟩
    change sentValues s.restoreSession.log = _
    unfold Page.restoreSession
    rw [hrestored, haccess]
    dsimp only
    unfold Page.tryRestoreSession
    dsimp only
    rw [hvalue]
    rfl
  | link =>
    obtain ⟨haccess, hheld⟩ := hstarts
    obtain ⟨value, hvalue⟩ := Option.ne_none_iff_exists'.mp hheld
    refine ⟨value, hvalue, ?_⟩
    change sentValues s.link.log = _
    unfold Page.link Page.tryRestoreSession
    rw [haccess, hvalue]
    rfl
  | answer id a =>
    obtain ⟨rfl, ⟨bearer, ht⟩, hheld⟩ := hstarts
    obtain ⟨value, hvalue⟩ := Option.ne_none_iff_exists'.mp hheld
    refine ⟨value, hvalue, ?_⟩
    change sentValues (s.answer id .unauthorized).log = _
    unfold Page.answer
    rw [ht]
    dsimp only
    unfold Page.unauthorized
    rw [hvalue]
    rfl
  | request | login | verifyMfa | exchangeCode | githubLogin | logout => exact hstarts.elim

theorem sentValues_tryRestoreSession {refresher : Refresher} (h : s.refreshToken = none) :
    sentValues (s.tryRestoreSession refresher).log = sentValues s.log := by
  unfold Page.tryRestoreSession
  rw [h]

theorem sentValues_of_not_starts {i : Input} (hstarts : ¬Starts s i) :
    sentValues (s.step i).log = sentValues s.log := by
  cases i with
  | restoreSession =>
    change sentValues s.restoreSession.log = _
    unfold Page.restoreSession
    split
    · rfl
    · rename_i hrestored
      dsimp only
      split
      · rfl
      · rename_i haccess
        refine sentValues_tryRestoreSession (s := { s with sessionRestored := true }) ?_
        by_contra hheld
        exact hstarts ⟨by simpa using hrestored, by simpa using haccess, hheld⟩
  | link =>
    change sentValues s.link.log = _
    unfold Page.link
    split
    · rfl
    · rename_i haccess
      refine sentValues_tryRestoreSession ?_
      by_contra hheld
      exact hstarts ⟨by simpa using haccess, hheld⟩
  | answer id a =>
    change sentValues (s.answer id a).log = _
    unfold Page.answer
    split
    · rename_i oauthRoute retry bearer ht
      split
      · unfold Page.unauthorized
        split
        · rfl
        · rename_i value hvalue
          split
          · rfl
          · rename_i hfirst
            rw [not_or, Bool.not_eq_true, Bool.not_eq_true] at hfirst
            obtain ⟨rfl, rfl⟩ := hfirst
            refine absurd ⟨rfl, ⟨bearer, ht⟩, ?_⟩ hstarts
            rw [hvalue]
            exact Option.some_ne_none value
      · rfl
    · rename_i refresher _
      cases a with
      | tokens access refresh => cases refresher <;> rfl
      | code | mfaRequired | info | ok | unauthorized | failed => rfl
    · split <;> rfl
    · rename_i l _
      cases a <;> cases l <;> rfl
    · split
      · rfl
      · split <;> rfl
    · rfl
    · rfl
  | logout =>
    change sentValues s.logout.log = _
    unfold Page.logout
    dsimp only
    split <;> rfl
  | request | login | verifyMfa | exchangeCode | githubLogin => rfl

theorem not_exchange_of_not_overlaps {i : Input} (hstarts : Starts s i) (hone : ¬Overlaps s i)
    (p : Nat) (t : Task) (ht : s.tasks[p]? = some t) : ¬IsExchange t :=
  fun hexchange => hone ⟨hstarts, p, t, ht, hexchange⟩

/-- An exchange starts as a new task. -/
theorem Single.tryRestoreSession (h : Single s) (refresher : Refresher) (restored : Bool)
    (hidle : s.refreshToken ≠ none → ∀ (p : Nat) (t : Task), s.tasks[p]? = some t → ¬IsExchange t) :
    Single ({ s with sessionRestored := restored }.tryRestoreSession refresher) := by
  unfold Page.tryRestoreSession
  split
  · exact h.congr rfl rfl rfl
  · rename_i value hvalue
    have hheld : s.refreshToken ≠ none := by
      intro hnone
      cases hnone.symm.trans hvalue
    refine h.start s.tasks.length refresher hvalue (hidle hheld) ?_
      ⟨.exchange value refresher, List.getElem?_concat_length, trivial⟩ restored
    intro q u hu
    rcases Service.getElem?_snoc hu with hu | ⟨rfl, rfl⟩
    · exact .inr hu
    · exact .inl ⟨rfl, rfl⟩

theorem Single.restoreSession (h : Single s) (hone : ¬Overlaps s .restoreSession) :
    Single s.restoreSession := by
  unfold Page.restoreSession
  split
  · exact h
  · rename_i hrestored
    dsimp only
    split
    · exact h.congr rfl rfl rfl
    · rename_i haccess
      refine h.tryRestoreSession .store true ?_
      intro hheld
      refine not_exchange_of_not_overlaps (i := .restoreSession) ?_ hone
      exact ⟨by simpa using hrestored, by simpa using haccess, hheld⟩

theorem Single.link (h : Single s) (hone : ¬Overlaps s .link) : Single s.link := by
  unfold Page.link
  split
  · exact h.add not_false trivial
  · rename_i haccess
    refine h.tryRestoreSession .link s.sessionRestored ?_
    intro hheld
    refine not_exchange_of_not_overlaps (i := .link) ?_ hone
    exact ⟨by simpa using haccess, hheld⟩

theorem Single.unauthorized (h : Single s) {oauthRoute retry : Bool} {bearer : Option Token}
    (ht : s.tasks[id]? = some (.request oauthRoute retry bearer))
    (hone : ¬Overlaps s (.answer id .unauthorized)) :
    Single (s.unauthorized id oauthRoute retry) := by
  have hdone : Single (s.setTask id .done) := h.setTask ht not_false not_false trivial
  unfold Page.unauthorized
  split
  · exact hdone
  · rename_i value hvalue
    split
    · exact hdone
    · rename_i hfirst
      rw [not_or, Bool.not_eq_true, Bool.not_eq_true] at hfirst
      obtain ⟨rfl, rfl⟩ := hfirst
      have hheld : s.refreshToken ≠ none := by
        rw [hvalue]
        exact Option.some_ne_none value
      have hidle := not_exchange_of_not_overlaps (i := .answer id .unauthorized)
        ⟨rfl, ⟨bearer, ht⟩, hheld⟩ hone
      have hlt := (List.getElem?_eq_some_iff.mp ht).1
      refine h.start id .interceptor hvalue hidle ?_
        ⟨.exchange value .interceptor, List.getElem?_set_self hlt, trivial⟩ s.sessionRestored
      intro q u hu
      rcases Service.getElem?_set_cases hu with ⟨rfl, rfl⟩ | ⟨-, hu⟩
      · exact .inl ⟨rfl, rfl⟩
      · exact .inr hu

/-- The exchange in flight is the first use of its value, which the server answers. -/
theorem Single.exchanged (h : Single s) {value : Token} {refresher : Refresher} {a : Spa.Answer}
    (ht : s.tasks[id]? = some (.exchange value refresher)) (hok : browsing [] s (.answer id a)) :
    Single (s.exchanged id refresher a) := by
  obtain ⟨-, hsent⟩ := h.tasks id _ ht
  have hcount : (sentValues s.log).count value = 1 := List.count_eq_one_of_mem h.once hsent
  have hrotates := hok.2
  unfold rotates at hrotates
  dsimp only at hrotates
  rw [ht] at hrotates
  dsimp only at hrotates
  rw [if_pos hcount] at hrotates
  cases a with
  | tokens access refresh => exact h.refreshed ht access (of_decide_eq_true hrotates)
  | code | mfaRequired | info | ok | unauthorized | failed => cases hrotates

theorem Single.answer (h : Single s) {a : Spa.Answer} (hok : browsing [] s (.answer id a))
    (hone : ¬Overlaps s (.answer id a)) : Single (s.answer id a) := by
  unfold Page.answer
  split
  · rename_i oauthRoute retry bearer ht
    split
    · exact h.unauthorized ht hone
    · exact h.setTask ht not_false not_false trivial
  · rename_i ht
    exact h.exchanged ht hok
  · rename_i ht
    exact (h.tasks id _ ht).elim
  · rename_i ht
    exact (h.tasks id _ ht).elim
  · rename_i ht
    exact (h.tasks id _ ht).elim
  · rename_i ht
    exact (h.tasks id _ ht).elim
  · exact h

theorem Single.step (h : Single s) {i : Input} (hok : browsing [] s i) (hone : ¬Overlaps s i) :
    Single (s.step i) := by
  cases i with
  | request oauthRoute => exact h.add not_false trivial
  | restoreSession => exact h.restoreSession hone
  | link => exact h.link hone
  | answer id a => exact h.answer hok hone
  | login | verifyMfa | exchangeCode | githubLogin | logout => cases hok.1

theorem single_load (r₀ : Option Token) : Single (load r₀) where
  tasks := nofun
  one := nofun
  once := List.nodup_nil
  unsent _ _ _ := List.not_mem_nil

/-! ### Runs -/

theorem OverlappedIn.cons {r₀ : Option Token} {history : List Input} (h : OverlappedIn r₀ history)
    (i : Input) : OverlappedIn r₀ (i :: history) := by
  obtain ⟨later, earlier, j, q, rfl, hq, hoverlaps⟩ := h
  exact ⟨i :: later, earlier, j, q, rfl, hq, hoverlaps⟩

theorem not_overlappedIn_nil (r₀ : Option Token) : ¬OverlappedIn r₀ [] := by
  rintro ⟨later, earlier, i, q, heq, -, -⟩
  simp at heq

/-- An exchange that starts beside another sends the same value. -/
theorem Single.not_nodup_of_overlaps (h : Single s) {i : Input} (hoverlaps : Overlaps s i) :
    ¬(sentValues (s.step i).log).Nodup := by
  obtain ⟨hstarts, p, t, ht, hexchange⟩ := hoverlaps
  obtain ⟨value, hvalue, hsent⟩ := sentValues_of_starts hstarts
  rw [hsent, List.nodup_cons]
  rintro ⟨hnew, -⟩
  cases t with
  | exchange value' refresher =>
    obtain ⟨hheld, hmem⟩ := h.tasks p _ ht
    obtain rfl := Option.some.inj (hvalue.symm.trans hheld)
    exact hnew hmem
  | request | loginCode | login | revoking | endingSession | done => exact hexchange

theorem nodup_of_step {i : Input} (h : (sentValues (s.step i).log).Nodup) :
    (sentValues s.log).Nodup := by
  by_cases hstarts : Starts s i
  · obtain ⟨value, -, hsent⟩ := sentValues_of_starts hstarts
    rw [hsent] at h
    exact (List.nodup_cons.mp h).2
  · rwa [sentValues_of_not_starts hstarts] at h

theorem single_or_overlapped {r₀ : Option Token} {history : List Input}
    (hrun : machine.Run browsing (load r₀) history s) :
    (Single s ∧ ¬OverlappedIn r₀ history) ∨
      (¬(sentValues s.log).Nodup ∧ OverlappedIn r₀ history) := by
  induction hrun with
  | init => exact .inl ⟨single_load r₀, not_overlappedIn_nil r₀⟩
  | @next history s i hrun hok ih =>
    rcases ih with ⟨h, hnever⟩ | ⟨htwice, hpast⟩
    · by_cases hoverlaps : Overlaps s i
      · right
        exact ⟨h.not_nodup_of_overlaps hoverlaps, [], history, i, s, rfl, hrun, hoverlaps⟩
      · left
        refine ⟨h.step hok hoverlaps, ?_⟩
        rintro ⟨later, earlier, j, q, heq, hq, hoverlaps'⟩
        cases later with
        | nil =>
          obtain ⟨hinput, rfl⟩ := List.cons.inj heq
          change i = j at hinput
          subst hinput
          obtain rfl := state_eq_of_run (fun _ _ => rfl) hrun hq
          exact hoverlaps hoverlaps'
        | cons j' later =>
          exact hnever ⟨later, earlier, j, q, (List.cons.inj heq).2, hq, hoverlaps'⟩
    · right
      exact ⟨fun h => htwice (nodup_of_step h), hpast.cons i⟩

/-- In every run of a page in which nobody logs in or out, no refresh token is sent twice exactly if
no refresh exchange started while another was in flight. -/
theorem presents_once_iff {r₀ : Option Token} {history : List Input}
    (hrun : machine.Run browsing (load r₀) history s) :
    (sentValues s.log).Nodup ↔ ¬OverlappedIn r₀ history := by
  rcases single_or_overlapped hrun with ⟨h, hnever⟩ | ⟨htwice, hpast⟩
  · exact iff_of_true h.once hnever
  · exact iff_of_false htwice (not_not_intro hpast)

/-- The session is restored, and a later request is refused once. -/
def calm : List Input :=
  [.restoreSession, .answer 0 (.tokens "access 1" "refresh 1"), .request false,
    .answer 2 .unauthorized, .answer 1 (.info false), .answer 2 (.tokens "access 2" "refresh 2"),
    .answer 2 .ok]

theorem presents_once_iff_calm :
    let run := machine.exec [] (load (some "refresh 0")) calm
    sentValues run.2.log = ["refresh 1", "refresh 0"] ∧
      ((sentValues run.2.log).Nodup ↔ ¬OverlappedIn (some "refresh 0") run.1) := by
  intro run
  have hguarded : machine.Guarded browsing [] (load (some "refresh 0")) calm := by decide
  exact ⟨by decide, presents_once_iff (.exec_of_guarded .init calm hguarded)⟩

/-- A request of a page that has just been loaded is refused while the session is restored. -/
def hasty : List Input := [.restoreSession, .request false, .answer 1 .unauthorized]

theorem refresh_token_presented_twice :
    ¬∀ (r₀ : Token) (history : List Input) (s : Page),
      machine.Run browsing (load (some r₀)) history s → (sentValues s.log).Nodup := by
  intro hclaim
  have hguarded : machine.Guarded browsing [] (load (some "refresh 0")) hasty := by decide
  have honce := hclaim "refresh 0" _ _ (.exec_of_guarded .init hasty hguarded)
  revert honce
  decide

end AuthForge.PresentedOnce
