import AuthForge.Base.EvictOldest
import AuthForge.Base.Run
import Mathlib.Data.Int.Order.Basic
import Mathlib.Data.List.TakeWhile

/-!
# The rate limiter

`RateLimiter`: for each key the times of its failures in a rolling window, in a map of bounded size.
Checks and failures create buckets, and when there are too many of them a sweep drops those without
failures in the window and then evicts the ones whose last failure is oldest. A check looks at its
bucket through a reference that it took before the sweep.
-/

namespace AuthForge.Common

open Dict

/-- A reading of the steady clock, in nanoseconds. -/
abbrev TimePoint := Int

def nanosPerSecond : Int := 1000000000

structure RateLimiterConfig where
  maxFailures : Nat := 30
  windowSeconds : Int := 60
  maxBuckets : Nat := 10000
  deriving DecidableEq

/-- The times of the failures, oldest first. -/
abbrev Bucket := List TimePoint

abbrev Buckets := Dict String Bucket

structure RateLimiter where
  config : RateLimiterConfig := {}
  buckets : Buckets := ∅

/-! ### The window -/

def cutoff (cfg : RateLimiterConfig) (now : TimePoint) : TimePoint :=
  now - cfg.windowSeconds * nanosPerSecond

def purgeOldLocked (cfg : RateLimiterConfig) (bucket : Bucket) (now : TimePoint) : Bucket :=
  bucket.dropWhile (· < cutoff cfg now)

/-- The first loop of a sweep: buckets are purged and dropped when nothing is left. -/
def purgedBuckets (cfg : RateLimiterConfig) (now : TimePoint) (buckets : Buckets) : Buckets :=
  (buckets.mapValues fun _ bucket => purgeOldLocked cfg bucket now).keepValues (· ≠ [])

/-- The iteration order of the map is not specified, so it is a parameter. The search for a victim
starts from `TimePoint::max()`, which no reading of the clock reaches. -/
def sweepLocked (cfg : RateLimiterConfig) (order : List String) (now : TimePoint)
    (buckets : Buckets) : Buckets :=
  let purged := purgedBuckets cfg now buckets
  evictOldest List.getLast? order cfg.maxBuckets (size purged) purged

/-- What a check answers from its bucket. -/
def retryAfter (cfg : RateLimiterConfig) (bucket : Bucket) (now : TimePoint) : Int :=
  match bucket with
  | [] => 0
  | oldest :: _ =>
    if cfg.maxFailures ≤ bucket.length then
      let remaining := cfg.windowSeconds - (now - oldest).tdiv nanosPerSecond
      if remaining ≤ 0 then 0 else remaining
    else 0

namespace RateLimiter

def bucketOf (l : RateLimiter) (key : String) : Bucket := (l.buckets.lookup key).getD []

def configure (l : RateLimiter) (config : RateLimiterConfig) : RateLimiter := { l with config }

/-- The map after a check has inserted or purged its bucket. -/
def checked (l : RateLimiter) (key : String) (now : TimePoint) : Buckets :=
  l.buckets.insert key (purgeOldLocked l.config (l.bucketOf key) now)

/-- The answer is missing where the sweep has erased the bucket that the check refers to. -/
def checkThrottled (l : RateLimiter) (key : String) (now : TimePoint) (order : List String) :
    RateLimiter × Option Int :=
  let inserted := key ∉ l.buckets
  let buckets :=
    if inserted ∧ size (l.checked key now) > l.config.maxBuckets then
      sweepLocked l.config order now (l.checked key now)
    else l.checked key now
  ({ l with buckets }, (buckets.lookup key).map (retryAfter l.config · now))

/-- The map after a failure has been recorded. -/
def failed (l : RateLimiter) (key : String) (now : TimePoint) : Buckets :=
  l.buckets.insert key (purgeOldLocked l.config (l.bucketOf key) now ++ [now])

def recordFailure (l : RateLimiter) (key : String) (now : TimePoint) (order : List String) :
    RateLimiter :=
  { l with
    buckets :=
      if size (l.failed key now) > l.config.maxBuckets then
        sweepLocked l.config order now (l.failed key now)
      else l.failed key now }

def recordSuccess (l : RateLimiter) (key : String) : RateLimiter :=
  { l with buckets := l.buckets.erase key }

def reset (l : RateLimiter) : RateLimiter := { l with buckets := ∅ }

/-! ### The machine -/

inductive Call
  | configure (config : RateLimiterConfig)
  | checkThrottled (key : String)
  | recordFailure (key : String)
  | recordSuccess (key : String)
  | reset
  deriving DecidableEq

structure Input where
  now : TimePoint
  call : Call
  order : List String := []

/-- A call with its answer, which only checks give. -/
structure Event where
  now : TimePoint
  call : Call
  returned : Option Int := none
  deriving DecidableEq

def step (l : RateLimiter) (i : Input) : RateLimiter × Event :=
  match i.call with
  | .configure config => (l.configure config, ⟨i.now, i.call, none⟩)
  | .checkThrottled key =>
    let r := l.checkThrottled key i.now i.order
    (r.1, ⟨i.now, i.call, r.2⟩)
  | .recordFailure key => (l.recordFailure key i.now i.order, ⟨i.now, i.call, none⟩)
  | .recordSuccess key => (l.recordSuccess key, ⟨i.now, i.call, none⟩)
  | .reset => (l.reset, ⟨i.now, i.call, none⟩)

@[simp] theorem now_step (l : RateLimiter) (i : Input) : (l.step i).2.now = i.now := by
  unfold step
  split <;> rfl

@[simp] theorem call_step (l : RateLimiter) (i : Input) : (l.step i).2.call = i.call := by
  unfold step
  split <;> rfl

theorem step_checkThrottled {l : RateLimiter} {i : Input} {key : String}
    (h : i.call = .checkThrottled key) :
    l.step i = ((l.checkThrottled key i.now i.order).1,
      ⟨i.now, i.call, (l.checkThrottled key i.now i.order).2⟩) := by
  unfold step
  rw [h]

def machine : Machine RateLimiter Input Event where
  step := step

/-- The map that a call leaves before it sweeps. -/
def touched (l : RateLimiter) (i : Input) : Buckets :=
  match i.call with
  | .configure _ => l.buckets
  | .checkThrottled key => l.checked key i.now
  | .recordFailure key => l.failed key i.now
  | .recordSuccess key => l.buckets.erase key
  | .reset => ∅

/-- The call sweeps: it has inserted a bucket, or recorded a failure, over the cap. -/
def Sweeps (l : RateLimiter) (i : Input) : Prop :=
  match i.call with
  | .checkThrottled key => key ∉ l.buckets ∧ size (l.checked key i.now) > l.config.maxBuckets
  | .recordFailure key => size (l.failed key i.now) > l.config.maxBuckets
  | _ => False

/-- The clock does not go back, and the configuration stays. -/
def Timely : Guard RateLimiter Input Event := fun history _ i =>
  (∀ e ∈ history, e.now ≤ i.now) ∧ ∀ config, i.call ≠ .configure config

/-! ### What a call leaves -/

variable {l : RateLimiter} {i : Input} {key : String} {bucket : Bucket}

theorem buckets_step_of_sweeps (h : l.Sweeps i) :
    (l.step i).1.buckets = sweepLocked l.config i.order i.now (l.touched i) := by
  unfold Sweeps at h
  unfold step touched
  split at h
  · rename_i key hcall
    rw [hcall]
    exact if_pos h
  · rename_i key hcall
    rw [hcall]
    exact if_pos h
  · exact h.elim

theorem buckets_step_of_not_sweeps (h : ¬l.Sweeps i) : (l.step i).1.buckets = l.touched i := by
  unfold Sweeps at h
  unfold step touched
  cases hcall : i.call with
  | configure config => rfl
  | checkThrottled key =>
    rw [hcall] at h
    exact if_neg h
  | recordFailure key =>
    rw [hcall] at h
    exact if_neg h
  | recordSuccess key => rfl
  | reset => rfl

theorem config_step (h : ∀ config, i.call ≠ .configure config) :
    (l.step i).1.config = l.config := by
  unfold step
  cases hcall : i.call with
  | configure config => exact absurd hcall (h config)
  | checkThrottled key => rfl
  | recordFailure key => rfl
  | recordSuccess key => rfl
  | reset => rfl

end RateLimiter

/-! ### What purging and sweeping leave -/

section Sweep

variable {cfg : RateLimiterConfig} {bucket : Bucket} {now : TimePoint} {order : List String}
  {buckets : Buckets} {key : String}

theorem dropWhile_eq_filter {l : List Int} (hsorted : l.Pairwise (· ≤ ·)) (c : Int) :
    l.dropWhile (· < c) = l.filter (c ≤ ·) := by
  induction l with
  | nil => rfl
  | cons t l ih =>
    obtain ⟨hle, hrest⟩ := List.pairwise_cons.mp hsorted
    by_cases ht : t < c
    · rw [List.dropWhile_cons_of_pos (by simpa using ht),
        List.filter_cons_of_neg (by simpa using ht), ih hrest]
    · rw [List.dropWhile_cons_of_neg (by simpa using ht), List.filter_eq_self.mpr]
      intro u hu
      rcases List.mem_cons.mp hu with rfl | hu
      · simpa using ht
      · have htu := hle u hu
        simp only [decide_eq_true_eq]
        omega

theorem purgeOldLocked_eq_filter (hsorted : bucket.Pairwise (· ≤ ·)) :
    purgeOldLocked cfg bucket now = bucket.filter (cutoff cfg now ≤ ·) :=
  dropWhile_eq_filter hsorted _

theorem purgeOldLocked_eq_nil_iff :
    purgeOldLocked cfg bucket now = [] ↔ ∀ t ∈ bucket, t < cutoff cfg now := by
  unfold purgeOldLocked
  rw [List.dropWhile_eq_nil_iff]
  simp only [decide_eq_true_eq]

theorem purgeOldLocked_sublist : (purgeOldLocked cfg bucket now).Sublist bucket :=
  List.dropWhile_sublist _

theorem getLast?_purgeOldLocked (h : purgeOldLocked cfg bucket now ≠ []) :
    (purgeOldLocked cfg bucket now).getLast? = bucket.getLast? := by
  have hsplit : bucket.takeWhile (· < cutoff cfg now) ++ purgeOldLocked cfg bucket now = bucket :=
    List.takeWhile_append_dropWhile
  conv_rhs => rw [← hsplit]
  rw [List.getLast?_append_of_ne_nil _ h]

theorem lookup_purgedBuckets_iff :
    (purgedBuckets cfg now buckets).lookup key = some bucket ↔
      bucket ≠ [] ∧ ∃ before, buckets.lookup key = some before ∧
        purgeOldLocked cfg before now = bucket := by
  unfold purgedBuckets
  rw [lookup_keepValues, lookup_mapValues, Option.filter_eq_some_iff, Option.map_eq_some_iff,
    decide_eq_true_eq]
  exact and_comm

/-- Whatever a sweep leaves is a purged bucket that is not empty. -/
theorem lookup_sweepLocked (h : (sweepLocked cfg order now buckets).lookup key = some bucket) :
    bucket ≠ [] ∧ ∃ before, buckets.lookup key = some before ∧
      purgeOldLocked cfg before now = bucket :=
  lookup_purgedBuckets_iff.mp (lookup_of_lookup_evictOldest h)

theorem isSome_getLast?_purgedBuckets (key : String) (bucket : Bucket)
    (h : (purgedBuckets cfg now buckets).lookup key = some bucket) :
    bucket.getLast?.isSome = true := by
  have hne : bucket ≠ [] := (lookup_purgedBuckets_iff.mp h).1
  rw [List.getLast?_eq_getLast_of_ne_nil hne]
  rfl

theorem size_sweepLocked_le : size (sweepLocked cfg order now buckets) ≤ cfg.maxBuckets :=
  (evictOldest_spec isSome_getLast?_purgedBuckets (Nat.le_refl _)).1

/-- What a sweep removes has no failure in the window, or none later than the last one of any bucket
that is left. -/
theorem removed_sweepLocked (hbefore : buckets.lookup key = some bucket)
    (hgone : key ∉ sweepLocked cfg order now buckets) :
    (∀ t ∈ bucket, t < cutoff cfg now) ∨
      ∃ last, bucket.getLast? = some last ∧ ∀ key' bucket',
        (sweepLocked cfg order now buckets).lookup key' = some bucket' →
        ∃ last', bucket'.getLast? = some last' ∧ last ≤ last' := by
  by_cases hempty : purgeOldLocked cfg bucket now = []
  · exact .inl (purgeOldLocked_eq_nil_iff.mp hempty)
  right
  have hpurged : (purgedBuckets cfg now buckets).lookup key = some (purgeOldLocked cfg bucket now) :=
    lookup_purgedBuckets_iff.mpr ⟨hempty, bucket, hbefore, rfl⟩
  obtain ⟨last, hlast⟩ := Option.isSome_iff_exists.mp
    (isSome_getLast?_purgedBuckets key _ hpurged)
  refine ⟨last, (getLast?_purgeOldLocked hempty).symm.trans hlast, ?_⟩
  intro key' bucket' hleft
  obtain ⟨last', hlast'⟩ := Option.isSome_iff_exists.mp
    (isSome_getLast?_purgedBuckets key' bucket' (lookup_of_lookup_evictOldest hleft))
  refine ⟨last', hlast', ?_⟩
  exact (evictOldest_spec isSome_getLast?_purgedBuckets (Nat.le_refl _)).2 key _ last hpurged hlast
    hgone key' bucket' last' hleft hlast'

/-- A call adds to a bucket at most its own time. -/
theorem sublist_of_lookup_touched {l : RateLimiter} {i : RateLimiter.Input}
    (h : (l.touched i).lookup key = some bucket) :
    bucket.Sublist (l.bucketOf key ++ [i.now]) := by
  have hkept : ∀ d : Buckets, d = l.buckets → d.lookup key = some bucket →
      bucket.Sublist (l.bucketOf key ++ [i.now]) := by
    rintro d rfl hlookup
    unfold RateLimiter.bucketOf
    rw [hlookup]
    exact List.sublist_append_left _ _
  unfold RateLimiter.touched at h
  cases hcall : i.call with
  | configure config =>
    rw [hcall] at h
    exact hkept _ rfl h
  | checkThrottled key' =>
    rw [hcall] at h
    dsimp only [RateLimiter.checked] at h
    by_cases hkey : key = key'
    · subst hkey
      rw [AList.lookup_insert] at h
      obtain rfl := Option.some.inj h
      exact purgeOldLocked_sublist.trans (List.sublist_append_left _ _)
    · rw [AList.lookup_insert_ne hkey] at h
      exact hkept _ rfl h
  | recordFailure key' =>
    rw [hcall] at h
    dsimp only [RateLimiter.failed] at h
    by_cases hkey : key = key'
    · subst hkey
      rw [AList.lookup_insert] at h
      obtain rfl := Option.some.inj h
      exact purgeOldLocked_sublist.append_right _
    · rw [AList.lookup_insert_ne hkey] at h
      exact hkept _ rfl h
  | recordSuccess key' =>
    rw [hcall] at h
    by_cases hkey : key = key'
    · subst hkey
      rw [AList.lookup_erase] at h
      cases h
    · rw [AList.lookup_erase_ne hkey] at h
      exact hkept _ rfl h
  | reset =>
    rw [hcall] at h
    cases h

theorem sublist_of_lookup_step {l : RateLimiter} {i : RateLimiter.Input}
    (h : (l.step i).1.buckets.lookup key = some bucket) :
    bucket.Sublist (l.bucketOf key ++ [i.now]) := by
  by_cases hsweeps : l.Sweeps i
  · rw [RateLimiter.buckets_step_of_sweeps hsweeps] at h
    obtain ⟨-, before, hbefore, rfl⟩ := lookup_sweepLocked h
    exact purgeOldLocked_sublist.trans (sublist_of_lookup_touched hbefore)
  · rw [RateLimiter.buckets_step_of_not_sweeps hsweeps] at h
    exact sublist_of_lookup_touched h

end Sweep

end AuthForge.Common
