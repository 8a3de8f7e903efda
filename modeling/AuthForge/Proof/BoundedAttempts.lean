import AuthForge.Base.History
import AuthForge.Http.Runs
import AuthForge.Http.TokenStatus
import AuthForge.Proof.RateLimitIsolation

/-!
# How many attempts get through

A request is checked before its endpoint runs, and counted only when the endpoint has answered, so
requests in flight together are checked against the same failures. In a window a key gets through as
many failures as are configured, and one more for every further request in flight.
-/

namespace AuthForge.BoundedAttempts

open Http Http.TokenStatus Service
open Common (RateLimiter RateLimiterConfig TimePoint cutoff retryAfter)
open RetryAfter (failures closedWindow Free)
open RateLimitIsolation (keyOf Among)

variable {cfg : Config} {limits : RateLimiterConfig} {keys : List String} {key : String} {c : Nat}
  {s₀ s : StatusStore} {history : List StatusEvent} {p : Pool (service cfg)}

/-! ### The calls on the limiter -/

/-- The call that an operation makes on the limiter. -/
def limiterCall : StatusCall → Option RateLimiter.Call
  | .checkThrottled key => some (.checkThrottled key)
  | .recordSuccess key => some (.recordSuccess key)
  | .recordFailure key => some (.recordFailure key)
  | _ => none

def limiterEvent : StatusEvent → Option RateLimiter.Event
  | .called _ _ env ⟨.checkThrottled key, retry⟩ =>
    some ⟨env.steady, .checkThrottled key, some retry⟩
  | .called _ _ env ⟨.recordSuccess key, _⟩ => some ⟨env.steady, .recordSuccess key, none⟩
  | .called _ _ env ⟨.recordFailure key, _⟩ => some ⟨env.steady, .recordFailure key, none⟩
  | _ => none

def limiterEvents (history : List StatusEvent) : List RateLimiter.Event :=
  history.filterMap limiterEvent

/-! ### Requests in flight -/

def passes (key : String) : StatusAnswer → Bool
  | ⟨.checkThrottled key', retry⟩ => key' = key ∧ retry ≤ 0
  | _ => false

def records (key : String) : StatusAnswer → Bool
  | ⟨.recordSuccess key', _⟩ => key' = key
  | ⟨.recordFailure key', _⟩ => key' = key
  | _ => false

/-- A request with these answers has got through and is not counted yet. -/
def waiting (key : String) (answers : List StatusAnswer) : Bool :=
  answers.any (passes key) && !answers.any (records key)

def inFlight (key : String) (p : Pool (service cfg)) : Nat :=
  p.threads.countP fun t => waiting key t.answers

/-- The steady clock does not go back, there is room for the keys, fewer than `c` requests of the key
are in flight when one more is checked, and no check comes at the very nanosecond at which a failure
of the key leaves the window. -/
def Paced (limits : RateLimiterConfig) (keys : List String) (key : String) (c : Nat) :
    Guard (Pool (service cfg)) (Input StatusEnv StatusRequest) StatusEvent :=
  fun history p i =>
    match i with
    | .start _ => True
    | .advance tid env => ∀ call ∈ (p.next tid).bind limiterCall,
      (∀ e ∈ limiterEvents history, e.now ≤ env.steady) ∧ (∀ k ∈ keyOf call, k ∈ keys) ∧
        (call = .checkThrottled key → inFlight key p < c ∧
          cutoff limits env.steady ∉ failures key (limiterEvents history))

instance (history : List StatusEvent) (p : Pool (service cfg)) (i : Input StatusEnv StatusRequest) :
    Decidable (Paced limits keys key c history p i) :=
  match i with
  | .start _ => .isTrue trivial
  | .advance tid env => inferInstanceAs (Decidable (∀ call ∈ (p.next tid).bind limiterCall,
      (∀ e ∈ limiterEvents history, e.now ≤ env.steady) ∧ (∀ k ∈ keyOf call, k ∈ keys) ∧
        (call = .checkThrottled key → inFlight key p < c ∧
          cutoff limits env.steady ∉ failures key (limiterEvents history))))

/-! ### The order of the calls of a request -/

/-- The check comes first, and only a request that has got through is counted. -/
def Ordered (answers : List StatusAnswer) : StatusCall → Prop
  | .checkThrottled _ => answers = []
  | .recordSuccess key => waiting key answers = true
  | .recordFailure key => waiting key answers = true
  | _ => True

theorem waiting_snoc_of_none {answers : List StatusAnswer} {a : StatusAnswer}
    (ha : limiterCall a.op = none) : waiting key (answers ++ [a]) = waiting key answers := by
  obtain ⟨op, r⟩ := a
  cases op with
  | checkThrottled | recordSuccess | recordFailure => cases ha
  | _ => simp [waiting, passes, records]

theorem course_of_only {endpoint : StatusProg} {answers : List StatusAnswer}
    (honly : endpoint.Only fun op => limiterCall op = none) (h : waiting key answers = true) :
    endpoint.Course Ordered (fun answers _ => waiting key answers = true) answers := by
  induction endpoint generalizing answers with
  | ret reply => exact h
  | call op k ih =>
    refine ⟨?_, ?_⟩
    · have hop := honly.1
      cases op with
      | checkThrottled | recordSuccess | recordFailure => cases hop
      | _ => trivial
    · intro r
      apply ih r (honly.2 r)
      rwa [waiting_snoc_of_none honly.1]

theorem course_rateLimited {endpoint : StatusProg}
    (honly : endpoint.Only fun op => limiterCall op = none) :
    (rateLimited key endpoint).Course Ordered (fun _ _ => True) [] := by
  refine ⟨rfl, ?_⟩
  intro retry
  dsimp only
  split
  · rename_i hpassed
    have hwaiting : waiting key [⟨.checkThrottled key, retry⟩] = true := by
      simp [waiting, passes, records, hpassed]
    apply (course_of_only honly hwaiting).bind
    intro answers reply h
    unfold rateAware
    split
    · exact ⟨h, fun _ => trivial⟩
    · exact ⟨h, fun _ => trivial⟩
  · trivial

theorem only_authenticated {req : HttpRequest} {clientId clientSecret : String}
    {endpoint : StatusProg} (h : endpoint.Only fun op => limiterCall op = none) :
    (authenticated req clientId clientSecret endpoint).Only fun op => limiterCall op = none := by
  refine ⟨rfl, ?_⟩
  intro client
  dsimp only
  split
  · trivial
  · refine ⟨rfl, ?_⟩
    intro valid
    cases valid with
    | false => trivial
    | true => exact h

theorem only_revokeOwn (clientId hashedToken : String) :
    (revokeOwn clientId hashedToken).Only fun op => limiterCall op = none := by
  refine ⟨rfl, ?_⟩
  intro introspection
  cases introspection with
  | none => trivial
  | some introspection =>
    dsimp only
    split
    · trivial
    · split
      · trivial
      · exact ⟨rfl, fun _ => ⟨rfl, fun _ => trivial⟩⟩

theorem course_program (request : StatusRequest) :
    (TokenStatus.program cfg request).Course Ordered (fun _ _ => True) [] := by
  cases request with
  | introspect req =>
    unfold TokenStatus.program introspect
    dsimp only
    split
    · trivial
    · apply course_rateLimited
      cases tokenParameter req.toHttpRequest with
      | error response => trivial
      | ok token => exact only_authenticated ⟨rfl, fun _ => trivial⟩
  | revoke req =>
    unfold TokenStatus.program revoke
    dsimp only
    split
    · trivial
    · apply course_rateLimited
      cases tokenParameter req.toHttpRequest with
      | error response => trivial
      | ok token => exact only_authenticated (only_revokeOwn _ _)
  | repository op => exact ⟨trivial, fun _ => trivial⟩

/-! ### What one operation does -/

section Operations

variable {op : StatusCall} {call : RateLimiter.Call} {env : StatusEnv} {tid : Nat}
  {req : StatusRequest}

theorem limiter_exec (hc : limiterCall op = some call) :
    (TokenStatus.exec env op s).2.limiter =
      (s.limiter.step ⟨env.steady, call, env.order⟩).1 := by
  cases op with
  | checkThrottled | recordSuccess | recordFailure =>
    cases hc
    rfl
  | _ => cases hc

theorem limiter_exec_of_none (hc : limiterCall op = none) :
    (TokenStatus.exec env op s).2.limiter = s.limiter := by
  cases op with
  | checkThrottled | recordSuccess | recordFailure => cases hc
  | _ => rfl

theorem limiterEvent_of_none {a : StatusAnswer} (hc : limiterCall a.op = none) :
    limiterEvent (.called tid req env a) = none := by
  obtain ⟨op, r⟩ := a
  cases op with
  | checkThrottled | recordSuccess | recordFailure => cases hc
  | _ => rfl

/-- A check that does not sweep answers what it shows. -/
theorem limiterEvent_exec (tid : Nat) (req : StatusRequest) (hc : limiterCall op = some call)
    (hsweeps : ¬s.limiter.Sweeps ⟨env.steady, call, env.order⟩) :
    limiterEvent (.called tid req env ⟨op, (TokenStatus.exec env op s).1⟩) =
      some (s.limiter.step ⟨env.steady, call, env.order⟩).2 := by
  cases op with
  | checkThrottled key =>
    cases hc
    have hevent := (RetryAfter.check_of_not_sweeps hsweeps rfl).1
    rw [RateLimiter.step_checkThrottled rfl] at hevent ⊢
    have hanswer := congrArg RateLimiter.Event.returned hevent
    dsimp only at hanswer
    simp only [limiterEvent, TokenStatus.exec, hanswer, Option.getD_some]
  | recordSuccess | recordFailure =>
    cases hc
    rfl
  | _ => cases hc

/-- Only the request that is answered comes into flight or leaves it. -/
theorem inFlight_set (key : String) {t : Thread (service cfg)} (ht : p.threads[tid]? = some t)
    (s : StatusStore) (t' : Thread (service cfg)) :
    inFlight key (⟨s, p.threads.set tid t'⟩ : Pool (service cfg)) +
        (waiting key t.answers).toNat =
      inFlight key p + (waiting key t'.answers).toNat := by
  obtain ⟨hlt, rfl⟩ := List.getElem?_eq_some_iff.mp ht
  unfold inFlight
  rw [List.countP_set hlt]
  cases hbefore : waiting key p.threads[tid].answers with
  | false =>
    cases waiting key t'.answers <;> simp
  | true =>
    have hpos : 0 < p.threads.countP fun t => waiting key t.answers :=
      List.countP_pos_iff.mpr ⟨_, List.getElem_mem hlt, hbefore⟩
    cases waiting key t'.answers <;> simp <;> omega

theorem waiting_check {key' : String} {retry : Int} :
    waiting key [⟨.checkThrottled key', retry⟩] = decide (key' = key ∧ retry ≤ 0) := by
  simp [waiting, passes, records]

theorem waiting_record {answers : List StatusAnswer} {a : StatusAnswer} (ha : records key a = true) :
    waiting key (answers ++ [a]) = false := by
  simp [waiting, ha]

theorem waiting_other {answers : List StatusAnswer} {a : StatusAnswer} (hpass : passes key a = false)
    (hrecord : records key a = false) : waiting key (answers ++ [a]) = waiting key answers := by
  simp [waiting, hpass, hrecord]

end Operations

/-! ### The window -/

section Window

variable {times : List TimePoint} {now now' : TimePoint} {e : RateLimiter.Event}
  {past : List RateLimiter.Event} {l : RateLimiter}

theorem length_closedWindow_mono (h : now ≤ now') :
    (closedWindow limits times now').length ≤ (closedWindow limits times now).length := by
  rw [← RetryAfter.closedWindow_closedWindow h]
  exact List.length_filter_le _ _

/-- A check that lets through has found fewer failures than the maximum. -/
theorem length_of_passed (hmax : 1 ≤ limits.maxFailures)
    (hanswered : RetryAfter.Answered limits key past e l)
    (hpassed : retryAfter limits (closedWindow limits (failures key past) e.now) e.now ≤ 0)
    (hedge : cutoff limits e.now ∉ failures key past) :
    (closedWindow limits (failures key past) e.now).length + 1 ≤ limits.maxFailures := by
  rcases RetryAfter.free_or_waits hanswered.sorted hanswered.range with hfree | ⟨oldest, rest, hwaits⟩
  · rcases hfree with hnil | hhead | hfew
    · rw [hnil]
      simpa using hmax
    · have hmem := List.mem_of_head? hhead
      exact absurd (List.mem_of_mem_filter hmem) hedge
    · omega
  · obtain ⟨hanswer, hpos⟩ := RetryAfter.retryAfter_cons hwaits.length hwaits.young hwaits.past
    rw [hwaits.window, hanswer] at hpassed
    omega

theorem length_failures_snoc (limits : RateLimiterConfig) (times : List TimePoint)
    (now t : TimePoint) :
    (closedWindow limits (times ++ [t]) now).length ≤ (closedWindow limits times now).length + 1 := by
  unfold closedWindow
  rw [List.filter_append, List.length_append]
  have := List.length_filter_le (fun u => decide (cutoff limits now ≤ u)) [t]
  simp only [List.length_singleton] at this
  omega

end Window

/-! ### The invariant -/

structure Bounded (limits : RateLimiterConfig) (keys : List String) (key : String) (c : Nat)
    (history : List StatusEvent) (p : Pool (service cfg)) : Prop where
  run : RateLimiter.machine.Run RateLimiter.Timely { config := limits } (limiterEvents history)
    p.shared.limiter
  among : Among keys (limiterEvents history)
  bounded : ∀ now, (∀ e ∈ limiterEvents history, e.now ≤ now) →
    (closedWindow limits (failures key (limiterEvents history)) now).length + inFlight key p + 1 ≤
      limits.maxFailures + c

section Step

variable {tid : Nat} {t : Thread (service cfg)} {op : StatusCall} {call : RateLimiter.Call}
  {k : op.Resp → StatusProg} {env : StatusEnv}

theorem limiterEvents_of_none {e : StatusEvent} (he : limiterEvent e = none) :
    limiterEvents (e :: history) = limiterEvents history := by
  simp only [limiterEvents, List.filterMap_cons, he]

/-- What does not touch the limiter. -/
theorem Bounded.other (h : Bounded limits keys key c history p) (ht : p.threads[tid]? = some t)
    (hrest : t.rest = .call op k) (hc : limiterCall op = none) :
    Bounded limits keys key c
      (.called tid t.request env ⟨op, (TokenStatus.exec env op p.shared).1⟩ :: history)
      (⟨(TokenStatus.exec env op p.shared).2,
        p.threads.set tid (t.advance hrest (TokenStatus.exec env op p.shared).1)⟩ :
        Pool (service cfg)) := by
  have hsame := inFlight_set key ht (TokenStatus.exec env op p.shared).2
    (t.advance hrest (TokenStatus.exec env op p.shared).1)
  rw [show waiting key (t.advance hrest _).answers = waiting key t.answers from
    waiting_snoc_of_none hc] at hsame
  have hevents : limiterEvents (.called tid t.request env
      ⟨op, (TokenStatus.exec env op p.shared).1⟩ :: history) = limiterEvents history :=
    limiterEvents_of_none (limiterEvent_of_none hc)
  refine ⟨?_, ?_, ?_⟩
  · rw [hevents, limiter_exec_of_none hc]
    exact h.run
  · rw [hevents]
    exact h.among
  · intro now hnow
    rw [hevents] at hnow ⊢
    have := h.bounded now hnow
    omega

/-- The event of a call on the limiter, and the run that it extends. -/
theorem Bounded.extended (h : Bounded limits keys key c history p)
    (hroom : keys.length ≤ limits.maxBuckets) (hc : limiterCall op = some call)
    (htimes : ∀ e ∈ limiterEvents history, e.now ≤ env.steady) (hkeys : ∀ k ∈ keyOf call, k ∈ keys)
    (tid : Nat) (req : StatusRequest) :
    ∃ e, limiterEvents (.called tid req env ⟨op, (TokenStatus.exec env op p.shared).1⟩ :: history) =
        e :: limiterEvents history ∧
      limiterEvent (.called tid req env ⟨op, (TokenStatus.exec env op p.shared).1⟩) = some e ∧
      e.call = call ∧ e.now = env.steady ∧
      RateLimiter.machine.Run RateLimiter.Timely { config := limits }
        (e :: limiterEvents history) (TokenStatus.exec env op p.shared).2.limiter ∧
      Among keys (e :: limiterEvents history) := by
  have hconfig := (BoundedBuckets.bounded_of_run h.run).config
  have hmem := (RateLimitIsolation.steady_of_run key hroom h.run h.among).2
  have hsweeps := (RateLimitIsolation.not_sweeps_of_room (i := ⟨env.steady, call, env.order⟩)
    (hconfig ▸ hroom) hmem hkeys).1
  have hevent := limiterEvent_exec tid req hc hsweeps
  refine ⟨_, ?_, hevent, RateLimiter.call_step _ _, RateLimiter.now_step _ _, ?_, ?_⟩
  · simp only [limiterEvents, List.filterMap_cons, hevent]
  · rw [limiter_exec hc]
    refine .next _ h.run ⟨htimes, ?_⟩
    intro config hcall
    dsimp only at hcall
    subst hcall
    cases op <;> cases hc
  · intro e he k hk
    rcases List.mem_cons.mp he with rfl | he
    · rw [RateLimiter.call_step] at hk
      exact hkeys k hk
    · exact h.among e he k hk

theorem Bounded.limited (h : Bounded limits keys key c history p)
    (hroom : keys.length ≤ limits.maxBuckets) (hmax : 1 ≤ limits.maxFailures)
    (ht : p.threads[tid]? = some t) (hrest : t.rest = .call op k) (hordered : Ordered t.answers op)
    (hc : limiterCall op = some call) (htimes : ∀ e ∈ limiterEvents history, e.now ≤ env.steady)
    (hkeys : ∀ k ∈ keyOf call, k ∈ keys)
    (hpaced : call = .checkThrottled key → inFlight key p < c ∧
      cutoff limits env.steady ∉ failures key (limiterEvents history)) :
    Bounded limits keys key c
      (.called tid t.request env ⟨op, (TokenStatus.exec env op p.shared).1⟩ :: history)
      (⟨(TokenStatus.exec env op p.shared).2,
        p.threads.set tid (t.advance hrest (TokenStatus.exec env op p.shared).1)⟩ :
        Pool (service cfg)) := by
  obtain ⟨e, hevents, hevent, hcall, hnow', hrun, hamong⟩ :=
    h.extended hroom hc htimes hkeys tid t.request
  have hbalance := inFlight_set key ht (TokenStatus.exec env op p.shared).2
    (t.advance hrest (TokenStatus.exec env op p.shared).1)
  have hanswers : (t.advance hrest (TokenStatus.exec env op p.shared).1).answers =
      t.answers ++ [⟨op, (TokenStatus.exec env op p.shared).1⟩] := rfl
  rw [hanswers] at hbalance
  refine ⟨hevents ▸ hrun, hevents ▸ hamong, ?_⟩
  intro now hnow
  rw [hevents] at hnow ⊢
  have hold := h.bounded now fun e he => hnow e (List.mem_cons_of_mem _ he)
  have hlater : env.steady ≤ now := hnow' ▸ hnow e List.mem_cons_self
  cases op with
  | checkThrottled key' =>
    cases hc
    generalize hretry : (TokenStatus.exec env (.checkThrottled key') p.shared).1 = retry at *
    obtain rfl : e = ⟨env.steady, .checkThrottled key', some retry⟩ := (Option.some.inj hevent).symm
    rw [show t.answers = [] from hordered, List.nil_append, waiting_check] at hbalance
    change inFlight key _ + 0 = _ at hbalance
    change (closedWindow limits (failures key (limiterEvents history)) now).length + _ + 1 ≤ _
    by_cases hpassed : key' = key ∧ retry ≤ 0
    · obtain ⟨rfl, hpassed'⟩ := hpassed
      obtain ⟨hfew, hedge⟩ := hpaced rfl
      have hanswered := RetryAfter.answered_of_run
        (RateLimitIsolation.steady_of_run _ hroom hrun hamong).1 rfl
      have hvalue := Option.some.inj (congrArg RateLimiter.Event.returned hanswered.eq)
      have hlength : (closedWindow limits (failures key' (limiterEvents history)) env.steady).length +
          1 ≤ limits.maxFailures :=
        length_of_passed hmax hanswered (hvalue ▸ hpassed') hedge
      have hmono : (closedWindow limits (failures key' (limiterEvents history)) now).length ≤
          (closedWindow limits (failures key' (limiterEvents history)) env.steady).length :=
        length_closedWindow_mono hlater
      simp only [hpassed', and_self, decide_true, Bool.toNat_true] at hbalance
      omega
    · simp only [hpassed, decide_false, Bool.toNat_false] at hbalance
      omega
  | recordSuccess key' =>
    cases hc
    obtain rfl := (Option.some.inj hevent).symm
    by_cases hkey : key' = key
    · subst hkey
      rw [show waiting key' t.answers = true from hordered, waiting_record (by simp [records])]
        at hbalance
      simp only [Bool.toNat_true, Bool.toNat_false, Nat.add_zero] at hbalance
      simp only [failures, if_true, closedWindow, List.filter_nil, List.length_nil]
      omega
    · rw [waiting_other rfl (by simp [records, hkey])] at hbalance
      simp only [failures, if_neg hkey]
      omega
  | recordFailure key' =>
    cases hc
    obtain rfl := (Option.some.inj hevent).symm
    by_cases hkey : key' = key
    · subst hkey
      rw [show waiting key' t.answers = true from hordered, waiting_record (by simp [records])]
        at hbalance
      simp only [Bool.toNat_true, Bool.toNat_false, Nat.add_zero] at hbalance
      have hsnoc :=
        length_failures_snoc limits (failures key' (limiterEvents history)) now env.steady
      simp only [failures, if_true]
      omega
    · rw [waiting_other rfl (by simp [records, hkey])] at hbalance
      simp only [failures, if_neg hkey]
      omega
  | _ => cases hc

end Step

theorem bounded_of_run (hroom : keys.length ≤ limits.maxBuckets) (hmax : 1 ≤ limits.maxFailures)
    (hstart : s₀.limiter = { config := limits })
    (hrun : (service cfg).machine.Run (Paced limits keys key c) ((service cfg).start s₀) history p) :
    Bounded limits keys key c history p := by
  induction hrun with
  | init =>
    refine ⟨?_, ?_, ?_⟩
    · change RateLimiter.machine.Run _ _ [] s₀.limiter
      rw [hstart]
      exact .init
    · intro e he
      cases he
    · intro now _
      change 0 + 0 + 1 ≤ _
      omega
  | @next history p i hrun hpaced ih =>
    change Bounded limits keys key c (((service cfg).step p i).2 :: history) ((service cfg).step p i).1
    rcases step_cases p i with ⟨request, -, hs⟩ | ⟨tid, env, t, op, k, hrest, rfl, ht, hs⟩ | hs
    · rw [hs]
      refine ⟨ih.run, ih.among, ?_⟩
      intro now hnow
      have hfresh : inFlight key ({ p with threads := p.threads ++ [.fresh (service cfg) request] } :
          Pool (service cfg)) = inFlight key p := by
        simp [inFlight, Thread.fresh, waiting]
      rw [hfresh]
      exact ih.bounded now hnow
    · rw [hs]
      cases hc : limiterCall op with
      | none => exact ih.other ht hrest hc
      | some call =>
        have hordered : Ordered t.answers op := by
          have hcourse := course_of_thread (S := service cfg) course_program t
          rw [hrest] at hcourse
          exact hcourse.1
        obtain ⟨htimes, hkeys, hedge⟩ := hpaced call (by
          rw [Pool.next_eq ht hrest]
          exact hc)
        exact ih.limited hroom hmax ht hrest hordered hc htimes hkeys hedge
    · rw [hs]
      exact ⟨ih.run, ih.among, ih.bounded⟩

/-- Whatever the endpoints answer and however the requests overlap: if there is room for all keys and
fewer than `c` requests of a key are in flight whenever one more of them is checked, then at no time
do the failures of the key in the window, with the requests of the key that are in flight, exceed the
configured maximum by more than `c - 1`. -/
theorem attempts_bounded (hroom : keys.length ≤ limits.maxBuckets) (hmax : 1 ≤ limits.maxFailures)
    (hstart : s₀.limiter = { config := limits })
    (hrun : (service cfg).machine.Run (Paced limits keys key c) ((service cfg).start s₀) history p)
    {now : TimePoint} (hnow : ∀ e ∈ limiterEvents history, e.now ≤ now) :
    (closedWindow limits (failures key (limiterEvents history)) now).length + inFlight key p + 1 ≤
      limits.maxFailures + c :=
  (bounded_of_run hroom hmax hstart hrun).bounded now hnow

/-! ### Two attempts at once where one is allowed -/

def strict : RateLimiterConfig := { maxFailures := 1, maxBuckets := 1 }

/-- A revocation request without a token. -/
def attempt : AddressedRequest where
  session := 0
  params := AList.insert "client_id" "spa" ∅
  peerIp := "192.0.2.1"

def emptyStore : StatusStore where
  limiter := { config := strict }
  clients := ∅
  tokens := .empty

def clockAt (seconds : Int) : StatusEnv := { now := seconds, steady := seconds * Common.nanosPerSecond }

def threeAttempts : List (Input StatusEnv StatusRequest) :=
  [.start (.revoke attempt), .start (.revoke attempt), .start (.revoke attempt),
   .advance 0 (clockAt 1), .advance 1 (clockAt 2), .advance 0 (clockAt 3), .advance 1 (clockAt 4),
   .advance 2 (clockAt 5)]

def executed : List StatusEvent × Pool (service knownConfig) :=
  (service knownConfig).machine.exec [] ((service knownConfig).start emptyStore) threeAttempts

theorem attempts_bounded_threeAttempts :
    (executed.2.threads[2]?).bind Thread.result = some (.tooManyRequests 58) ∧
      failures "192.0.2.1|spa" (limiterEvents executed.1) = [3000000000, 4000000000] ∧
      (closedWindow strict (failures "192.0.2.1|spa" (limiterEvents executed.1)) 5000000000).length +
        inFlight "192.0.2.1|spa" executed.2 + 1 ≤ strict.maxFailures + 2 := by
  have hfacts : (service knownConfig).machine.Guarded
        (Paced strict ["192.0.2.1|spa"] "192.0.2.1|spa" 2) []
        ((service knownConfig).start emptyStore) threeAttempts ∧
      (executed.2.threads[2]?).bind Thread.result = some (.tooManyRequests 58) ∧
      failures "192.0.2.1|spa" (limiterEvents executed.1) = [3000000000, 4000000000] ∧
      ∀ e ∈ limiterEvents executed.1, e.now ≤ 5000000000 := by
    decide +kernel
  refine ⟨hfacts.2.1, hfacts.2.2.1, ?_⟩
  exact attempts_bounded (by decide) (by decide) rfl
    (Machine.Run.exec_of_guarded .init _ hfacts.1) hfacts.2.2.2

end AuthForge.BoundedAttempts
