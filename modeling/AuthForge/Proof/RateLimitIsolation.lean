import AuthForge.Proof.RetryAfter

/-!
# A key pays for its own failures only

All clients share one map of failures, and a full map is swept. Sweeping and evicting take failures
away, so whatever the other keys do, a key is only ever throttled for failures of its own; and with
room for every key there is no sweep at all, so each key is answered as if it were alone.
-/

namespace AuthForge.RateLimitIsolation

open Common Dict RateLimiter RetryAfter

variable {cfg : RateLimiterConfig} {key : String} {history : List Event} {l : RateLimiter}
  {i : Input} {e : Event}

/-! ### The calls of one key -/

def keyOf : Call → Option String
  | .checkThrottled key => some key
  | .recordFailure key => some key
  | .recordSuccess key => some key
  | _ => none

/-- The calls on the key, and those on no key. -/
def own (key : String) (history : List Event) : List Event :=
  history.filter fun e => keyOf e.call = some key ∨ keyOf e.call = none

theorem failures_own (key : String) (history : List Event) :
    failures key (own key history) = failures key history := by
  induction history with
  | nil => rfl
  | cons e history ih =>
    rw [own, List.filter_cons]
    split
    · rw [failures, failures]
      simp only [show history.filter _ = own key history from rfl, ih]
    · rename_i hother
      rw [show history.filter _ = own key history from rfl, ih, failures]
      simp only [decide_eq_true_eq, not_or] at hother
      cases hcall : e.call with
      | recordFailure key' =>
        have hne : key' ≠ key := by simpa [hcall, keyOf] using hother.1
        simp [hne]
      | recordSuccess key' =>
        have hne : key' ≠ key := by simpa [hcall, keyOf] using hother.1
        simp [hne]
      | checkThrottled key' => rfl
      | configure config => simp [hcall, keyOf] at hother
      | reset => simp [hcall, keyOf] at hother

/-! ### Nothing is added from outside -/

theorem purgeOldLocked_suffix (cfg : RateLimiterConfig) (bucket : Bucket) (now : TimePoint) :
    purgeOldLocked cfg bucket now <:+ bucket :=
  List.dropWhile_suffix _

theorem bucketOf_touched_suffix (h : l.bucketOf key <:+ failures key history) :
    ((l.touched i).lookup key).getD [] <:+ failures key ((l.step i).2 :: history) := by
  have hpurged : purgeOldLocked l.config (l.bucketOf key) i.now <:+ failures key history :=
    (purgeOldLocked_suffix _ _ _).trans h
  unfold failures touched
  rw [call_step, now_step]
  cases hcall : i.call with
  | configure config => exact h
  | checkThrottled key' =>
    by_cases hkey : key = key'
    · subst hkey
      simpa [checked] using hpurged
    · simp only [checked, AList.lookup_insert_ne hkey]
      exact h
  | recordFailure key' =>
    by_cases hkey : key = key'
    · subst hkey
      obtain ⟨before, hbefore⟩ := hpurged
      simp only [failed, AList.lookup_insert, Option.getD_some, if_true]
      exact ⟨before, by rw [← List.append_assoc, hbefore]⟩
    · have hne : key' ≠ key := Ne.symm hkey
      simp only [failed, AList.lookup_insert_ne hkey, if_neg hne]
      exact h
  | recordSuccess key' =>
    by_cases hkey : key = key'
    · subst hkey
      simp [AList.lookup_erase]
    · have hne : key' ≠ key := Ne.symm hkey
      simp only [AList.lookup_erase_ne hkey, if_neg hne]
      exact h
  | reset => exact List.suffix_refl _

/-- A sweep purges the bucket, or takes it. -/
theorem bucketOf_step_suffix (h : l.bucketOf key <:+ failures key history) :
    (l.step i).1.bucketOf key <:+ failures key ((l.step i).2 :: history) := by
  have htouched := bucketOf_touched_suffix (i := i) h
  by_cases hsweeps : l.Sweeps i
  · rw [bucketOf, buckets_step_of_sweeps hsweeps]
    cases hlookup : (sweepLocked l.config i.order i.now (l.touched i)).lookup key with
    | none => exact List.nil_suffix
    | some bucket =>
      obtain ⟨-, before, hbefore, rfl⟩ := lookup_sweepLocked hlookup
      rw [hbefore] at htouched
      exact (purgeOldLocked_suffix _ _ _).trans htouched
  · rw [bucketOf, buckets_step_of_not_sweeps hsweeps]
    exact htouched

/-- Whatever the other keys do, a bucket ends like the failures of its key since the last success. -/
theorem bucketOf_suffix {ok : Guard RateLimiter Input Event}
    (hrun : machine.Run ok { config := cfg } history l) :
    l.bucketOf key <:+ failures key history := by
  induction hrun with
  | init => exact List.nil_suffix
  | next i _ _ ih => exact bucketOf_step_suffix ih

theorem retryAfter_pos {bucket : Bucket} {now : TimePoint} (h : 0 < retryAfter cfg bucket now) :
    bucket ≠ [] ∧ cfg.maxFailures ≤ bucket.length := by
  cases bucket with
  | nil => exact absurd h (lt_irrefl 0)
  | cons oldest rest =>
    refine ⟨List.cons_ne_nil _ _, ?_⟩
    by_contra hfew
    simp only [retryAfter, if_neg hfew] at h
    exact absurd h (lt_irrefl 0)

/-- What a check answers, it answers from failures of its own key that are in the window. -/
theorem returned_of_run (hrun : machine.Run Timely { config := cfg } (e :: history) l)
    (hcall : e.call = .checkThrottled key) {n : Int} (hreturned : e.returned = some n) :
    ∃ bucket, n = retryAfter cfg bucket e.now ∧
      bucket.Sublist (closedWindow cfg (failures key history) e.now) := by
  obtain ⟨q, i, hq, htimely, hstep⟩ := hrun.last
  change q.step i = (l, e) at hstep
  have he : (q.step i).2 = e := congrArg Prod.snd hstep
  have hcheck : i.call = .checkThrottled key := by rw [← hcall, ← he, call_step]
  have hnow : i.now = e.now := by rw [← he, now_step]
  have hbounded := BoundedBuckets.bounded_of_run hq
  by_cases hsweeps : q.Sweeps i
  · -- A check that sweeps has lost its new bucket.
    exfalso
    have hnew : key ∉ q.buckets := by
      unfold Sweeps at hsweeps
      rw [hcheck] at hsweeps
      exact hsweeps.1
    rw [← he, step_checkThrottled hcheck] at hreturned
    have hsome : (q.checkThrottled key i.now i.order).2.isSome = true := by
      simp only at hreturned
      rw [hreturned]
      rfl
    rcases (LiveBuckets.live_iff q key i.now i.order).mp hsome with hmem | hroom
    · exact hnew hmem
    · unfold Sweeps at hsweeps
      rw [hcheck] at hsweeps
      have hsize : size (q.checked key i.now) = size q.buckets + 1 := size_insert_of_notMem hnew _
      omega
  · obtain ⟨hevent, -⟩ := check_of_not_sweeps hsweeps hcheck
    rw [he] at hevent
    obtain ⟨hsorted, -⟩ := hbounded.bucketOf key
    rw [hevent] at hreturned
    refine ⟨purgeOldLocked q.config (q.bucketOf key) i.now, ?_, ?_⟩
    · rw [← Option.some.inj hreturned, hbounded.config, hnow]
    · rw [purgeOldLocked_eq_filter hsorted, hbounded.config, hnow]
      exact (bucketOf_suffix hq).sublist.filter _

/-! ### Room for every key -/

/-- Every call is about one of these keys, or about none. -/
def Among (keys : List String) (history : List Event) : Prop :=
  ∀ e ∈ history, ∀ k ∈ keyOf e.call, k ∈ keys

theorem size_le_of_subset {keys : List String} {buckets : Buckets}
    (h : ∀ k ∈ buckets, k ∈ keys) : size buckets ≤ keys.length := by
  have hsubset : buckets.keys ⊆ keys := fun k hk => h k (AList.mem_keys.mpr hk)
  exact (List.subperm_of_subset buckets.keys_nodup hsubset).length_le

theorem mem_touched {k : String} (h : k ∈ l.touched i) : k ∈ l.buckets ∨ keyOf i.call = some k := by
  unfold touched at h
  cases hcall : i.call with
  | configure config =>
    rw [hcall] at h
    exact .inl h
  | checkThrottled key' =>
    rw [hcall] at h
    rcases (AList.mem_insert _).mp h with rfl | h
    · exact .inr rfl
    · exact .inl h
  | recordFailure key' =>
    rw [hcall] at h
    rcases (AList.mem_insert _).mp h with rfl | h
    · exact .inr rfl
    · exact .inl h
  | recordSuccess key' =>
    rw [hcall] at h
    exact .inl ((AList.mem_erase).mp h).2
  | reset =>
    rw [hcall] at h
    exact absurd h (AList.notMem_empty k)

theorem not_sweeps_of_size (h : size (l.touched i) ≤ l.config.maxBuckets) : ¬l.Sweeps i := by
  unfold touched at h
  unfold Sweeps
  cases hcall : i.call with
  | checkThrottled key' =>
    rw [hcall] at h
    intro hsweeps
    exact absurd hsweeps.2 (by simpa using h)
  | recordFailure key' =>
    rw [hcall] at h
    simpa using h
  | configure | recordSuccess | reset => exact id

/-- A call on a key that there is room for does not sweep. -/
theorem not_sweeps_of_room {keys : List String} (hroom : keys.length ≤ l.config.maxBuckets)
    (hmem : ∀ k ∈ l.buckets, k ∈ keys) (hcall : ∀ k ∈ keyOf i.call, k ∈ keys) :
    ¬l.Sweeps i ∧ ∀ k ∈ (l.step i).1.buckets, k ∈ keys := by
  have htouched : ∀ k ∈ l.touched i, k ∈ keys := by
    intro k hk
    rcases mem_touched hk with hold | hkey
    · exact hmem k hold
    · exact hcall k hkey
  have hsweeps : ¬l.Sweeps i := by
    apply not_sweeps_of_size
    exact (size_le_of_subset htouched).trans hroom
  refine ⟨hsweeps, ?_⟩
  rw [buckets_step_of_not_sweeps hsweeps]
  exact htouched

/-- With room for every key the map is never swept. -/
theorem steady_of_run (key : String) {keys : List String} (hroom : keys.length ≤ cfg.maxBuckets)
    (hrun : machine.Run Timely { config := cfg } history l) (hkeys : Among keys history) :
    machine.Run (Steady key) { config := cfg } history l ∧ ∀ k ∈ l.buckets, k ∈ keys := by
  induction hrun with
  | init => exact ⟨.init, fun k hk => absurd hk (AList.notMem_empty k)⟩
  | @next history l i hrun htimely ih =>
    obtain ⟨hsteady, hmem⟩ := ih fun e he => hkeys e (List.mem_cons_of_mem _ he)
    have hcall : ∀ k ∈ keyOf i.call, k ∈ keys := by
      intro k hk
      refine hkeys (l.step i).2 List.mem_cons_self k ?_
      rwa [call_step]
    rw [← (BoundedBuckets.bounded_of_run hrun).config] at hroom
    obtain ⟨hsweeps, hnext⟩ := not_sweeps_of_room hroom hmem hcall
    exact ⟨.next i hsteady ⟨htimely, fun hevicts => hsweeps hevicts.1⟩, hnext⟩

/-! ### Every run -/

/-- In every run at times that do not go back, a check that throttles its key has found the maximum of
failures of this very key in the window, whatever other keys were used and evicted; and if the map
has room for all of them, every answer is the one that the key's own calls alone determine. -/
theorem own_failures_decide
    (hrun : machine.Run Timely { config := cfg } (e :: history) l)
    (hcall : e.call = .checkThrottled key) :
    (∀ n, e.returned = some n → 0 < n →
      closedWindow cfg (failures key (own key history)) e.now ≠ [] ∧
        cfg.maxFailures ≤ (closedWindow cfg (failures key (own key history)) e.now).length) ∧
      ∀ keys : List String, keys.length ≤ cfg.maxBuckets → Among keys (e :: history) →
        e.returned = some
          (retryAfter cfg (closedWindow cfg (failures key (own key history)) e.now) e.now) := by
  rw [failures_own]
  constructor
  · intro n hreturned hpos
    obtain ⟨bucket, rfl, hsublist⟩ := returned_of_run hrun hcall hreturned
    obtain ⟨hne, hlength⟩ := retryAfter_pos hpos
    refine ⟨?_, hlength.trans hsublist.length_le⟩
    intro hnil
    rw [hnil, List.sublist_nil] at hsublist
    exact hne hsublist
  · intro keys hroom hkeys
    have hanswered := answered_of_run (steady_of_run key hroom hrun hkeys).1 hcall
    rw [hanswered.eq]

/-- Another key fills the map, and the key is throttled after its own two failures. -/
def crowded : List Input :=
  [⟨0, .recordFailure "192.0.2.1|spa", []⟩, ⟨1, .recordFailure "192.0.2.2|spa", []⟩,
   ⟨2, .recordFailure "192.0.2.1|spa", []⟩, ⟨3, .checkThrottled "192.0.2.1|spa", []⟩]

theorem own_failures_decide_crowded :
    ∃ e history,
      (machine.exec [] { config := { maxFailures := 2, maxBuckets := 2 } } crowded).1 =
        e :: history ∧
      e.returned = some 60 ∧
      2 ≤ (closedWindow { maxFailures := 2, maxBuckets := 2 }
        (failures "192.0.2.1|spa" (own "192.0.2.1|spa" history)) e.now).length := by
  have hrun : machine.Run Timely { config := { maxFailures := 2, maxBuckets := 2 } } _ _ :=
    Machine.Run.exec_of_guarded .init crowded
      ⟨⟨nofun, nofun⟩, ⟨by decide, nofun⟩, ⟨by decide, nofun⟩, ⟨by decide, nofun⟩, trivial⟩
  refine ⟨_, _, rfl, by decide, ?_⟩
  exact ((own_failures_decide hrun rfl).1 60 (by decide) (by decide)).2

end AuthForge.RateLimitIsolation
