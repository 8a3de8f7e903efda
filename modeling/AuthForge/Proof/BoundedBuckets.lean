import AuthForge.Common.RateLimiter

/-!
# The memory of the rate limiter

Whatever keys the callers come with, the map stays within its cap, the times of a bucket are in
order, and a sweep ends having removed only buckets whose last failure is no later than the last one
of any bucket that it keeps.
-/

namespace AuthForge.BoundedBuckets

open Common Dict

/-- What every call keeps: the configuration, the cap, and in each bucket times of past calls in
order. -/
structure Bounded (cfg : RateLimiterConfig) (history : List RateLimiter.Event) (l : RateLimiter) :
    Prop where
  config : l.config = cfg
  size_le : size l.buckets ≤ cfg.maxBuckets
  sorted : ∀ key bucket, l.buckets.lookup key = some bucket → bucket.Pairwise (· ≤ ·)
  past : ∀ key bucket, l.buckets.lookup key = some bucket → ∀ t ∈ bucket, ∃ e ∈ history, e.now = t

/-- A sweep that ends, and has removed only buckets without a failure in the window or whose last
failure is not later than that of any bucket it has left. -/
structure Sound (cfg : RateLimiterConfig) (order : List String) (now : TimePoint)
    (before after : Buckets) : Prop where
  ends : ∀ fuel, size (purgedBuckets cfg now before) ≤ fuel →
    evictOldest List.getLast? order cfg.maxBuckets fuel (purgedBuckets cfg now before) = after
  size_le : size after ≤ cfg.maxBuckets
  left : ∀ key bucket, after.lookup key = some bucket →
    ∃ b, before.lookup key = some b ∧ purgeOldLocked cfg b now = bucket
  removed : ∀ key bucket, before.lookup key = some bucket → key ∉ after →
    (∀ t ∈ bucket, t < cutoff cfg now) ∨
      ∃ last, bucket.getLast? = some last ∧ ∀ key' bucket', after.lookup key' = some bucket' →
        ∃ last', bucket'.getLast? = some last' ∧ last ≤ last'

variable {cfg : RateLimiterConfig} {history : List RateLimiter.Event} {l : RateLimiter}
  {i : RateLimiter.Input}

theorem sound_sweepLocked (cfg : RateLimiterConfig) (order : List String) (now : TimePoint)
    (buckets : Buckets) : Sound cfg order now buckets (sweepLocked cfg order now buckets) where
  ends := fun _ hfuel => evictOldest_of_le hfuel
  size_le := size_sweepLocked_le
  left := fun _ _ h => (lookup_sweepLocked h).2
  removed := fun _ _ => removed_sweepLocked

/-! ### One call -/

/-- A call that does not sweep has not passed the cap. -/
theorem size_touched_le (hsize : size l.buckets ≤ l.config.maxBuckets) (h : ¬l.Sweeps i) :
    size (l.touched i) ≤ l.config.maxBuckets := by
  unfold RateLimiter.Sweeps at h
  unfold RateLimiter.touched
  cases hcall : i.call with
  | configure config => exact hsize
  | checkThrottled key =>
    rw [hcall] at h
    by_cases hkey : key ∈ l.buckets
    · exact (size_insert_of_mem hkey _).trans_le hsize
    · by_contra hlarge
      exact h ⟨hkey, not_le.mp hlarge⟩
  | recordFailure key =>
    rw [hcall] at h
    exact not_lt.mp h
  | recordSuccess key => exact (size_erase_le key l.buckets).trans hsize
  | reset => exact Nat.zero_le _

theorem size_step_le (hsize : size l.buckets ≤ l.config.maxBuckets) :
    size (l.step i).1.buckets ≤ l.config.maxBuckets := by
  by_cases hsweeps : l.Sweeps i
  · rw [RateLimiter.buckets_step_of_sweeps hsweeps]
    exact size_sweepLocked_le
  · rw [RateLimiter.buckets_step_of_not_sweeps hsweeps]
    exact size_touched_le hsize hsweeps

theorem Bounded.bucketOf (h : Bounded cfg history l) (key : String) :
    (l.bucketOf key).Pairwise (· ≤ ·) ∧ ∀ t ∈ l.bucketOf key, ∃ e ∈ history, e.now = t := by
  unfold RateLimiter.bucketOf
  cases hlookup : l.buckets.lookup key with
  | none => exact ⟨List.Pairwise.nil, nofun⟩
  | some bucket => exact ⟨h.sorted key bucket hlookup, h.past key bucket hlookup⟩

theorem Bounded.step (h : Bounded cfg history l) (htimely : RateLimiter.Timely history l i) :
    Bounded cfg ((l.step i).2 :: history) (l.step i).1 := by
  obtain ⟨hclock, hconfig⟩ := htimely
  have hcfg : (l.step i).1.config = cfg := (RateLimiter.config_step hconfig).trans h.config
  have hsize : size l.buckets ≤ l.config.maxBuckets := h.config.symm ▸ h.size_le
  refine ⟨hcfg, ?_, ?_, ?_⟩
  · exact h.config ▸ size_step_le hsize
  · intro key bucket hlookup
    obtain ⟨hsorted, hpast⟩ := h.bucketOf key
    refine List.Pairwise.sublist (sublist_of_lookup_step hlookup) ?_
    refine List.pairwise_append.mpr ⟨hsorted, List.pairwise_singleton _ _, ?_⟩
    intro t ht now hnow
    obtain rfl := List.mem_singleton.mp hnow
    obtain ⟨e, he, rfl⟩ := hpast t ht
    exact hclock e he
  · intro key bucket hlookup t ht
    rcases List.mem_append.mp ((sublist_of_lookup_step hlookup).subset ht) with hold | hnew
    · obtain ⟨e, he, heq⟩ := (h.bucketOf key).2 t hold
      exact ⟨e, List.mem_cons_of_mem _ he, heq⟩
    · obtain rfl := List.mem_singleton.mp hnew
      exact ⟨(l.step i).2, List.mem_cons_self, l.now_step i⟩

theorem bounded_init (cfg : RateLimiterConfig) : Bounded cfg [] { config := cfg } := by
  refine ⟨rfl, Nat.zero_le _, ?_, ?_⟩
  · intro key bucket hlookup
    cases hlookup
  · intro key bucket hlookup
    cases hlookup

theorem bounded_of_run
    (hrun : RateLimiter.machine.Run RateLimiter.Timely { config := cfg } history l) :
    Bounded cfg history l :=
  hrun.invariant (Bounded cfg) (bounded_init cfg) fun _ _ _ _ hbounded htimely =>
    hbounded.step htimely

/-! ### Every run -/

/-- After every call of a run at times that do not go back, with one configuration, the map is
within its cap and the times of every bucket are in order, and whatever the next call sweeps, it
sweeps soundly. -/
theorem at_most_maxBuckets (cfg : RateLimiterConfig) (history : List RateLimiter.Event)
    (l : RateLimiter)
    (hrun : RateLimiter.machine.Run RateLimiter.Timely { config := cfg } history l) :
    size l.buckets ≤ cfg.maxBuckets ∧
      (∀ key bucket, l.buckets.lookup key = some bucket → bucket.Pairwise (· ≤ ·)) ∧
      ∀ i, RateLimiter.Timely history l i → l.Sweeps i →
        Sound cfg i.order i.now (l.touched i) (l.step i).1.buckets := by
  have hbounded := bounded_of_run hrun
  refine ⟨hbounded.size_le, hbounded.sorted, ?_⟩
  intro i _ hsweeps
  rw [RateLimiter.buckets_step_of_sweeps hsweeps, hbounded.config]
  exact sound_sweepLocked cfg i.order i.now (l.touched i)

/-- Three keys fail with room for two, so the first one goes. -/
def threeKeys : List RateLimiter.Input :=
  [⟨0, .recordFailure "192.0.2.1|spa", []⟩, ⟨1, .recordFailure "192.0.2.2|spa", []⟩,
   ⟨2, .recordFailure "192.0.2.3|spa", []⟩]

theorem at_most_maxBuckets_threeKeys :
    size (RateLimiter.machine.exec [] { config := { maxBuckets := 2 } } threeKeys).2.buckets = 2 ∧
      size (RateLimiter.machine.exec [] { config := { maxBuckets := 2 } } threeKeys).2.buckets ≤
        2 := by
  refine ⟨by decide, ?_⟩
  refine (at_most_maxBuckets { maxBuckets := 2 } _ _ (Machine.Run.exec_of_guarded .init _ ?_)).1
  refine ⟨⟨nofun, nofun⟩, ⟨?_, nofun⟩, ⟨?_, nofun⟩, trivial⟩
  · decide
  · decide

end AuthForge.BoundedBuckets
