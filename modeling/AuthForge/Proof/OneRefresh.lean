import AuthForge.Sdk.ClientCredentialsAuth

/-!
# One token request for each rejected attempt

The lock keeps two refreshes apart, but a forced refresh never looks at the cache again: whoever
waited for the lock while another thread refreshed asks for a token once more. Rejections of a
token, token requests made because of them and threads still waiting for the lock are counted against each
other; the refresh is shared exactly when at most one attempt with the token was rejected.
-/

namespace AuthForge.Sdk

/-! ### What the history says about a token -/

variable (t : Token)

/-- A first attempt with the token was answered 401. -/
def isRejection : Event → Bool
  | .rejected _ token => token = t
  | _ => false

/-- A token request because of such an answer. -/
def isRefresh : Event → Bool
  | .requested _ (some token) => token = t
  | _ => false

/-- The token that such a request returned. -/
def refreshed : Event → Option Token
  | .returned _ (some token) fresh => if token = t then some fresh else none
  | _ => none

def rejections (history : List Event) : Nat := history.countP (isRejection t)

def refreshes (history : List Event) : Nat := history.countP (isRefresh t)

def returnedTokens (history : List Event) : List Token := history.filterMap (refreshed t)

def waiting (s : ClientCredentialsAuth) : Nat := s.flows.countP (· = .locking (some t))

def pending (s : ClientCredentialsAuth) : Nat := s.flows.countP (· = .requesting (some t))

/-- The flow is not on its way from a rejection of the token to the retry. -/
def Quiet (f : Flow) : Prop :=
  f ≠ .locking (some t) ∧ f ≠ .requesting (some t) ∧ ∀ token, f ≠ .sending (some t) token

def Settled (s : ClientCredentialsAuth) : Prop := ∀ f ∈ s.flows, Quiet t f

/-- At most one token request is sent because of the rejections, every retry carries the token that
it returned, and in the end every rejected request was retried. -/
structure SharedRefresh (history : List Event) (s : ClientCredentialsAuth) : Prop where
  once : refreshes t history ≤ 1
  carried : ∀ id token, .attempted id (some t) token ∈ history → returnedTokens t history = [token]
  retried : Settled t s → ∀ id, .rejected id t ∈ history →
    ∃ token, .attempted id (some t) token ∈ history

/-- Token requests succeed, with lifetimes above the clock skew. -/
def succeeds (clockSkew : Int) : Guard ClientCredentialsAuth Input Event
  | _, _, .answer _ result _ =>
    match result with
    | some (_, lifetime) => clockSkew < lifetime
    | none => False
  | _, _, _ => True

/-! ### The ledger -/

/-- A rejected request waits for the lock or for its token, is about to be sent again, or was. -/
def Underway (history : List Event) (id : Nat) (f : Option Flow) : Prop :=
  f = some (.locking (some t)) ∨ f = some (.requesting (some t)) ∨
    (∃ token, f = some (.sending (some t) token)) ∨
    ∃ token, .attempted id (some t) token ∈ history

structure Ledger (history : List Event) (s : ClientCredentialsAuth) : Prop where
  /-- A rejection has led to a token request, or its thread waits for the lock. -/
  counted : refreshes t history + waiting t s = rejections t history
  returned : (returnedTokens t history).length + pending t s ≤ refreshes t history
  fresh : ∀ f ∈ s.flows, ∀ token, f = .sending (some t) token → token ∈ returnedTokens t history
  carried : ∀ id token, .attempted id (some t) token ∈ history → token ∈ returnedTokens t history
  followed : ∀ id, .rejected id t ∈ history → Underway t history id s.flows[id]?

variable {t} {s s' : ClientCredentialsAuth} {history : List Event} {id : Nat} {f g : Flow}
  {e : Event}

theorem countP_set_add {p : Flow → Bool} {flows : List Flow} (h : flows[id]? = some f) :
    (flows.set id g).countP p + (if p f then 1 else 0) =
      flows.countP p + (if p g then 1 else 0) := by
  obtain ⟨hid, rfl⟩ := List.getElem?_eq_some_iff.mp h
  have hpos : p flows[id] = true → 0 < flows.countP p := fun hp =>
    List.countP_pos_iff.mpr ⟨_, List.getElem_mem hid, hp⟩
  rw [List.countP_set hid]
  by_cases hp : p flows[id] = true
  · have := hpos hp
    rw [if_pos hp]
    omega
  · rw [if_neg hp]
    omega

theorem ledger_init : Ledger t [] {} where
  counted := rfl
  returned := Nat.le_refl 0
  fresh := by simp
  carried := by simp
  followed := by simp

theorem not_failed {clockSkew : Int} {i : Input} (hok : succeeds clockSkew history s i) (id : Nat) :
    (s.step clockSkew i).2 ≠ .failed id := by
  cases i with
  | start => nofun
  | enter j now =>
    change (s.enter clockSkew j now).2 ≠ _
    unfold ClientCredentialsAuth.enter
    split
    · split <;> nofun
    · nofun
  | answer j result now =>
    cases result with
    | none => exact hok.elim
    | some result =>
      change (s.answer j (some result) now).2 ≠ _
      unfold ClientCredentialsAuth.answer
      split
      · nofun
      · rename_i hresult
        cases hresult
      · nofun
  | send j =>
    change (s.send j).2 ≠ _
    unfold ClientCredentialsAuth.send
    split <;> nofun
  | respond j statusCode =>
    change (s.respond j statusCode).2 ≠ _
    unfold ClientCredentialsAuth.respond
    split
    · split <;> nofun
    · nofun
    · nofun

/-! What the events add. -/

@[simp] theorem rejections_cons (e : Event) (history : List Event) :
    rejections t (e :: history) = rejections t history + if isRejection t e then 1 else 0 :=
  List.countP_cons

@[simp] theorem refreshes_cons (e : Event) (history : List Event) :
    refreshes t (e :: history) = refreshes t history + if isRefresh t e then 1 else 0 :=
  List.countP_cons

theorem returnedTokens_cons_of_none (h : refreshed t e = none) :
    returnedTokens t (e :: history) = returnedTokens t history := List.filterMap_cons_none h

theorem mem_returnedTokens_cons {token : Token} (h : token ∈ returnedTokens t history) :
    token ∈ returnedTokens t (e :: history) := by
  unfold returnedTokens at h ⊢
  rw [List.filterMap_cons]
  split
  · exact h
  · exact List.mem_cons_of_mem _ h

theorem Underway.mono {f : Option Flow} (h : Underway t history id f) :
    Underway t (e :: history) id f := by
  rcases h with h | h | h | ⟨token, h⟩
  · exact .inl h
  · exact .inr (.inl h)
  · exact .inr (.inr (.inl h))
  · exact .inr (.inr (.inr ⟨token, List.mem_cons_of_mem _ h⟩))

/-- Where only one flow moves, the others are followed as before. -/
theorem Ledger.followed_of_moved (h : Ledger t history s) (hmoved : s'.flows = s.flows.set id g)
    (hflow : s.flows[id]? = some f)
    (hself : Underway t history id (some f) ∨ e = .rejected id t →
      Underway t (e :: history) id (some g))
    (hother : ∀ j ≠ id, e ≠ .rejected j t) :
    ∀ j, .rejected j t ∈ e :: history → Underway t (e :: history) j s'.flows[j]? := by
  intro j hmem
  rw [hmoved]
  by_cases hj : j = id
  · subst hj
    have hlt : j < s.flows.length := (List.getElem?_eq_some_iff.mp hflow).1
    rw [List.getElem?_set_self hlt]
    apply hself
    rcases List.mem_cons.mp hmem with heq | hmem
    · exact .inr heq.symm
    · exact .inl (hflow ▸ h.followed j hmem)
  · rw [List.getElem?_set_ne (Ne.symm hj)]
    rcases List.mem_cons.mp hmem with heq | hmem
    · exact absurd heq.symm (hother j hj)
    · exact (h.followed j hmem).mono

/-- Flows that are sent again after the step were to be sent again before it, or it moved them. -/
theorem Ledger.fresh_of_moved (h : Ledger t history s) (hmoved : s'.flows = s.flows.set id g)
    (hg : ∀ token, g = .sending (some t) token → token ∈ returnedTokens t (e :: history)) :
    ∀ f ∈ s'.flows, ∀ token, f = .sending (some t) token →
      token ∈ returnedTokens t (e :: history) := by
  rintro f' hf' token rfl
  rw [hmoved] at hf'
  rcases List.mem_or_eq_of_mem_set hf' with hmem | heq
  · exact mem_returnedTokens_cons (h.fresh _ hmem token rfl)
  · exact hg token heq.symm

theorem Ledger.carried_cons (h : Ledger t history s)
    (he : ∀ j token, e = .attempted j (some t) token → token ∈ returnedTokens t history) :
    ∀ j token, .attempted j (some t) token ∈ e :: history →
      token ∈ returnedTokens t (e :: history) := by
  intro j token hmem
  apply mem_returnedTokens_cons
  rcases List.mem_cons.mp hmem with heq | hmem
  · exact he j token heq.symm
  · exact h.carried j token hmem

/-- A step that has nothing to do with the token. -/
theorem Ledger.of_quiet (h : Ledger t history s) (hflow : s.flows[id]? = some f)
    (hmoved : s'.flows = s.flows.set id g) (hf : Quiet t f) (hg : Quiet t g)
    (hrejection : ∀ j, e ≠ .rejected j t) (hrefresh : isRefresh t e = false)
    (hrefreshed : refreshed t e = none) (hattempted : ∀ j token, e ≠ .attempted j (some t) token) :
    Ledger t (e :: history) s' := by
  have hwaiting : waiting t s' = waiting t s := by
    have hcount := countP_set_add (p := (· = .locking (some t))) (g := g) hflow
    simpa [waiting, hmoved, hf.1, hg.1] using hcount
  have hpending : pending t s' = pending t s := by
    have hcount := countP_set_add (p := (· = .requesting (some t))) (g := g) hflow
    simpa [pending, hmoved, hf.2.1, hg.2.1] using hcount
  have hreturned : returnedTokens t (e :: history) = returnedTokens t history :=
    returnedTokens_cons_of_none hrefreshed
  have hrejected : isRejection t e = false := by
    cases e with
    | rejected j token =>
      refine decide_eq_false ?_
      rintro rfl
      exact hrejection j rfl
    | _ => rfl
  constructor
  · simpa [hrejected, hrefresh, hwaiting] using h.counted
  · simpa [hreturned, hrefresh, hpending] using h.returned
  · exact h.fresh_of_moved hmoved fun token heq => absurd heq (hg.2.2 token)
  · exact h.carried_cons fun j token heq => absurd heq (hattempted j token)
  · refine h.followed_of_moved hmoved hflow ?_ fun j _ => hrejection j
    rintro (hunderway | heq)
    · rcases hunderway with heq | heq | ⟨token, heq⟩ | ⟨token, hmem⟩
      · exact absurd (Option.some.inj heq) hf.1
      · exact absurd (Option.some.inj heq) hf.2.1
      · exact absurd (Option.some.inj heq) (hf.2.2 token)
      · exact .inr (.inr (.inr ⟨token, List.mem_cons_of_mem _ hmem⟩))
    · exact absurd heq (hrejection id)

/-- A thread takes the lock to refresh. -/
theorem Ledger.requested (h : Ledger t history s) (hflow : s.flows[id]? = some (.locking (some t)))
    (hmoved : s'.flows = s.flows.set id (.requesting (some t))) :
    Ledger t (.requested id (some t) :: history) s' := by
  have hwaiting : waiting t s' + 1 = waiting t s := by
    have hcount := countP_set_add (p := (· = .locking (some t))) (g := .requesting (some t)) hflow
    simpa [waiting, hmoved] using hcount
  have hpending : pending t s' = pending t s + 1 := by
    have hcount := countP_set_add (p := (· = .requesting (some t))) (g := .requesting (some t)) hflow
    simpa [pending, hmoved] using hcount
  have hcounted := h.counted
  have hreturned := h.returned
  constructor
  · simp only [refreshes_cons, rejections_cons, isRefresh, isRejection]
    simp
    omega
  · rw [returnedTokens_cons_of_none rfl]
    simp only [refreshes_cons, isRefresh]
    simp
    omega
  · exact h.fresh_of_moved hmoved nofun
  · exact h.carried_cons nofun
  · exact h.followed_of_moved hmoved hflow (fun _ => .inr (.inl rfl)) nofun

/-- The token endpoint answers a thread that refreshes. -/
theorem Ledger.answered (h : Ledger t history s) {token : Token}
    (hflow : s.flows[id]? = some (.requesting (some t)))
    (hmoved : s'.flows = s.flows.set id (.sending (some t) token)) :
    Ledger t (.returned id (some t) token :: history) s' := by
  have hwaiting : waiting t s' = waiting t s := by
    have hcount := countP_set_add (p := (· = .locking (some t))) (g := .sending (some t) token) hflow
    simpa [waiting, hmoved] using hcount
  have hpending : pending t s' + 1 = pending t s := by
    have hcount :=
      countP_set_add (p := (· = .requesting (some t))) (g := .sending (some t) token) hflow
    simpa [pending, hmoved] using hcount
  have hadded : returnedTokens t (.returned id (some t) token :: history) =
      token :: returnedTokens t history := by
    have hfresh : refreshed t (.returned id (some t) token) = some token := if_pos rfl
    exact List.filterMap_cons_some hfresh
  have hcounted := h.counted
  have hreturned := h.returned
  constructor
  · simpa [isRefresh, isRejection, hwaiting] using hcounted
  · rw [hadded, List.length_cons]
    simp only [refreshes_cons, isRefresh]
    simp
    omega
  · refine h.fresh_of_moved hmoved ?_
    rintro fresh heq
    cases heq
    rw [hadded]
    exact List.mem_cons_self
  · exact h.carried_cons nofun
  · exact h.followed_of_moved hmoved hflow (fun _ => .inr (.inr (.inl ⟨token, rfl⟩))) nofun

/-- A request is sent again with the token that was returned for it. -/
theorem Ledger.attempted (h : Ledger t history s) {token : Token}
    (hflow : s.flows[id]? = some (.sending (some t) token))
    (hmoved : s'.flows = s.flows.set id (.sent (some t) token)) :
    Ledger t (.attempted id (some t) token :: history) s' := by
  have hwaiting : waiting t s' = waiting t s := by
    have hcount := countP_set_add (p := (· = .locking (some t))) (g := .sent (some t) token) hflow
    simpa [waiting, hmoved] using hcount
  have hpending : pending t s' = pending t s := by
    have hcount := countP_set_add (p := (· = .requesting (some t))) (g := .sent (some t) token) hflow
    simpa [pending, hmoved] using hcount
  constructor
  · simpa [isRefresh, isRejection, hwaiting] using h.counted
  · rw [returnedTokens_cons_of_none rfl]
    simpa [isRefresh, hpending] using h.returned
  · exact h.fresh_of_moved hmoved nofun
  · refine h.carried_cons ?_
    rintro j fresh heq
    cases heq
    exact h.fresh _ (List.mem_of_getElem? hflow) token rfl
  · exact h.followed_of_moved hmoved hflow
      (fun _ => .inr (.inr (.inr ⟨token, List.mem_cons_self⟩))) nofun

/-- A first attempt with the token is answered 401. -/
theorem Ledger.rejected (h : Ledger t history s) (hflow : s.flows[id]? = some (.sent none t))
    (hmoved : s'.flows = s.flows.set id (.locking (some t))) :
    Ledger t (.rejected id t :: history) s' := by
  have hwaiting : waiting t s' = waiting t s + 1 := by
    have hcount := countP_set_add (p := (· = .locking (some t))) (g := .locking (some t)) hflow
    simpa [waiting, hmoved] using hcount
  have hpending : pending t s' = pending t s := by
    have hcount := countP_set_add (p := (· = .requesting (some t))) (g := .locking (some t)) hflow
    simpa [pending, hmoved] using hcount
  have hcounted := h.counted
  constructor
  · simp only [refreshes_cons, rejections_cons, isRefresh, isRejection]
    simp
    omega
  · rw [returnedTokens_cons_of_none rfl]
    simpa [isRefresh, hpending] using h.returned
  · exact h.fresh_of_moved hmoved nofun
  · exact h.carried_cons nofun
  · refine h.followed_of_moved hmoved hflow (fun _ => .inl rfl) ?_
    rintro j hj heq
    cases heq
    exact hj rfl

theorem Ledger.moved (h : Ledger t history s) (hflow : s.flows[id]? = some f)
    (hmoved : s'.flows = s.flows.set id g) (hgoes : Goes id f g e) (hfail : e ≠ .failed id) :
    Ledger t (e :: history) s' := by
  cases hgoes with
  | cached token =>
    exact h.of_quiet hflow hmoved ⟨nofun, nofun, nofun⟩ ⟨nofun, nofun, nofun⟩ nofun rfl rfl nofun
  | requested refused =>
    by_cases ht : refused = some t
    · subst ht
      exact h.requested hflow hmoved
    · refine h.of_quiet hflow hmoved ⟨?_, nofun, nofun⟩ ⟨nofun, ?_, nofun⟩ nofun ?_ rfl nofun
      · rintro heq
        exact ht (Flow.locking.inj heq)
      · rintro heq
        exact ht (Flow.requesting.inj heq)
      · cases refused with
        | none => rfl
        | some token => exact decide_eq_false fun heq => ht (congrArg some heq)
  | returned refused token =>
    by_cases ht : refused = some t
    · subst ht
      exact h.answered hflow hmoved
    · refine h.of_quiet hflow hmoved ⟨nofun, ?_, nofun⟩ ⟨nofun, nofun, ?_⟩ nofun rfl ?_ nofun
      · rintro heq
        exact ht (Flow.requesting.inj heq)
      · rintro fresh heq
        exact ht (Flow.sending.inj heq).1
      · cases refused with
        | none => rfl
        | some other => exact if_neg fun heq => ht (congrArg some heq)
  | failed refused => exact absurd rfl hfail
  | attempted refused token =>
    by_cases ht : refused = some t
    · subst ht
      exact h.attempted hflow hmoved
    · refine h.of_quiet hflow hmoved ⟨nofun, nofun, ?_⟩ ⟨nofun, nofun, nofun⟩ nofun rfl rfl ?_
      · rintro fresh heq
        exact ht (Flow.sending.inj heq).1
      · rintro j fresh heq
        exact ht (Event.attempted.inj heq).2.1
  | rejected token =>
    by_cases ht : token = t
    · subst ht
      exact h.rejected hflow hmoved
    · refine h.of_quiet hflow hmoved ⟨nofun, nofun, nofun⟩ ⟨?_, nofun, nofun⟩ ?_ rfl rfl nofun
      · rintro heq
        exact ht (Option.some.inj (Flow.locking.inj heq))
      · rintro j heq
        exact ht (Event.rejected.inj heq).2
  | answered refused token =>
    exact h.of_quiet hflow hmoved ⟨nofun, nofun, nofun⟩ ⟨nofun, nofun, nofun⟩ nofun rfl rfl nofun

theorem Ledger.started (h : Ledger t history s) (hflows : s'.flows = s.flows ++ [.locking none]) :
    Ledger t (.started s.flows.length :: history) s' := by
  have hwaiting : waiting t s' = waiting t s := by simp [waiting, hflows]
  have hpending : pending t s' = pending t s := by simp [pending, hflows]
  constructor
  · simpa [isRefresh, isRejection, hwaiting] using h.counted
  · rw [returnedTokens_cons_of_none rfl]
    simpa [isRefresh, hpending] using h.returned
  · rintro f hf token rfl
    rw [hflows] at hf
    exact mem_returnedTokens_cons (h.fresh _ (by simpa using hf) token rfl)
  · exact h.carried_cons nofun
  · intro id hmem
    have hkeep : ∀ f, s.flows[id]? = some f → s'.flows[id]? = some f := by
      intro f hf
      have hlt : id < s.flows.length := (List.getElem?_eq_some_iff.mp hf).1
      rw [hflows, List.getElem?_append_left hlt, hf]
    rcases h.followed id (by simpa using hmem) with hf | hf | ⟨token, hf⟩ | ⟨token, hmem⟩
    · exact .inl (hkeep _ hf)
    · exact .inr (.inl (hkeep _ hf))
    · exact .inr (.inr (.inl ⟨token, hkeep _ hf⟩))
    · exact .inr (.inr (.inr ⟨token, List.mem_cons_of_mem _ hmem⟩))

theorem Ledger.idle (h : Ledger t history s) : Ledger t (.idle :: history) s := by
  constructor
  · simpa [isRefresh, isRejection] using h.counted
  · rw [returnedTokens_cons_of_none rfl]
    simpa [isRefresh] using h.returned
  · intro f hf token heq
    exact mem_returnedTokens_cons (h.fresh f hf token heq)
  · exact h.carried_cons nofun
  · intro id hmem
    exact (h.followed id (by simpa using hmem)).mono

theorem ledger_of_run {clockSkew : Int}
    (hrun : (authMachine clockSkew).Run (succeeds clockSkew) {} history s) (t : Token) :
    Ledger t history s := by
  refine hrun.invariant (fun h s => Ledger t h s) ledger_init ?_
  intro h s i _ hledger hok
  have hout := outcome_step clockSkew s i
  have hfail := not_failed (s := s) (i := i) hok
  change Ledger t ((s.step clockSkew i).2 :: h) (s.step clockSkew i).1
  generalize s.step clockSkew i = r at hout hfail ⊢
  cases hout with
  | started hflows => exact hledger.started hflows
  | moved hflow hmoved hgoes => exact hledger.moved hflow hmoved hgoes (hfail _)
  | idle => exact hledger.idle

/-! ### The refresh is shared exactly where one attempt was rejected -/

theorem sharedRefresh_of_le (h : Ledger t history s) (hle : rejections t history ≤ 1) :
    SharedRefresh t history s := by
  have honce : refreshes t history ≤ 1 := by
    have hcounted := h.counted
    omega
  refine ⟨honce, ?_, ?_⟩
  · intro id token hmem
    have htoken := h.carried id token hmem
    have hpos := List.length_pos_of_mem htoken
    have hreturned := h.returned
    obtain ⟨only, honly⟩ := List.length_eq_one_iff.mp
      (show (returnedTokens t history).length = 1 by omega)
    rw [honly, List.mem_singleton] at htoken
    rw [honly, htoken]
  · intro hsettled id hmem
    rcases h.followed id hmem with hf | hf | ⟨token, hf⟩ | hretried
    · exact absurd rfl (hsettled _ (List.mem_of_getElem? hf)).1
    · exact absurd rfl (hsettled _ (List.mem_of_getElem? hf)).2.1
    · exact absurd rfl ((hsettled _ (List.mem_of_getElem? hf)).2.2 token)
    · exact hretried

theorem refreshes_eq_of_settled (h : Ledger t history s) (hsettled : Settled t s) :
    refreshes t history = rejections t history := by
  have hwaiting : waiting t s = 0 := by
    rw [waiting, List.countP_eq_zero]
    intro f hf
    simpa using (hsettled f hf).1
  have hcounted := h.counted
  omega

/-- In every run, in every state: as long as at most one first attempt with a token was rejected, the
refresh is shared; and once all that were rejected are through, it was shared only if at most one
was. -/
theorem sharedRefresh_iff (clockSkew : Int) (history : List Event) (s : ClientCredentialsAuth)
    (hrun : (authMachine clockSkew).Run (succeeds clockSkew) {} history s) (t : Token) :
    (rejections t history ≤ 1 → SharedRefresh t history s) ∧
      (Settled t s → (SharedRefresh t history s ↔ rejections t history ≤ 1)) := by
  have hledger := ledger_of_run hrun t
  refine ⟨sharedRefresh_of_le hledger, fun hsettled => ⟨?_, sharedRefresh_of_le hledger⟩⟩
  intro hshared
  rw [← refreshes_eq_of_settled hledger hsettled]
  exact hshared.once

instance (clockSkew : Int) (history : List Event) (s : ClientCredentialsAuth) (i : Input) :
    Decidable (succeeds clockSkew history s i) :=
  match i with
  | .answer _ (some (_, lifetime)) _ => inferInstanceAs (Decidable (clockSkew < lifetime))
  | .answer _ none _ => .isFalse fun h => h
  | .start | .enter _ _ | .send _ | .respond _ _ => .isTrue trivial

/-- Two requests send the token `a`, both are answered 401, and both refresh. -/
def twoRejected : List Input :=
  [.start, .enter 0 0, .answer 0 (some ("a", 3600)) 1, .send 0, .start, .enter 1 2, .send 1,
    .respond 0 401, .respond 1 401, .enter 0 3, .answer 0 (some ("b", 3600)) 4, .send 0,
    .enter 1 5, .answer 1 (some ("c", 3600)) 6, .send 1, .respond 0 200, .respond 1 200]

def afterTwo : List Event × ClientCredentialsAuth := (authMachine 30).exec [] {} twoRejected

theorem run_afterTwo : (authMachine 30).Run (succeeds 30) {} afterTwo.1 afterTwo.2 :=
  Machine.Run.init.exec_of_guarded twoRejected (by decide)

/-- Two token requests are sent because of the two answers, and the retries carry different
tokens. -/
theorem refreshes_afterTwo :
    (authMachine 30).Run (succeeds 30) {} afterTwo.1 afterTwo.2 ∧
      rejections "a" afterTwo.1 = 2 ∧ refreshes "a" afterTwo.1 = 2 ∧
      .attempted 0 (some "a") "b" ∈ afterTwo.1 ∧ .attempted 1 (some "a") "c" ∈ afterTwo.1 ∧
      ¬ SharedRefresh "a" afterTwo.1 afterTwo.2 := by
  refine ⟨run_afterTwo, by decide, by decide, by decide, by decide, ?_⟩
  intro h
  exact absurd h.once (by decide)

/-- The equivalence after the run, where both sides fail. -/
theorem sharedRefresh_iff_afterTwo :
    (rejections "a" afterTwo.1 ≤ 1 → SharedRefresh "a" afterTwo.1 afterTwo.2) ∧
      (Settled "a" afterTwo.2 →
        (SharedRefresh "a" afterTwo.1 afterTwo.2 ↔ rejections "a" afterTwo.1 ≤ 1)) :=
  sharedRefresh_iff 30 afterTwo.1 afterTwo.2 run_afterTwo "a"

end AuthForge.Sdk
