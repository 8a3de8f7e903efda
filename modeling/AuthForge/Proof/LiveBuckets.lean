import AuthForge.Common.RateLimiter

/-!
# The bucket that a check looks at

A check of a new key over the cap sweeps before it looks at its bucket. The new bucket is empty, so
the sweep erases it, always.
-/

namespace AuthForge.LiveBuckets

open Common Dict

/-- A check that does not have to sweep: its key is known, or there is room for it. -/
def HasRoom (l : RateLimiter) (key : String) : Prop :=
  key ∈ l.buckets ∨ size l.buckets < l.config.maxBuckets

/-- The bucket that the check refers to is still in the map when it is read. -/
def Live (e : RateLimiter.Event) : Prop :=
  ∀ key, e.call = .checkThrottled key → e.returned.isSome = true

/-- Every check finds room. -/
def Roomy : Guard RateLimiter RateLimiter.Input RateLimiter.Event := fun _ l i =>
  ∀ key, i.call = .checkThrottled key → HasRoom l key

variable {l : RateLimiter} {key : String} {now : TimePoint} {order : List String}

/-- The bucket of a new key is empty, so a sweep does not leave it. -/
theorem notMem_swept (hnew : key ∉ l.buckets) :
    (sweepLocked l.config order now (l.checked key now)).lookup key = none := by
  cases hlookup : (sweepLocked l.config order now (l.checked key now)).lookup key with
  | none => rfl
  | some bucket =>
    obtain ⟨hne, before, hbefore, hpurged⟩ := lookup_sweepLocked hlookup
    have hempty : l.bucketOf key = [] := by
      unfold RateLimiter.bucketOf
      rw [AList.lookup_eq_none.mpr hnew]
      rfl
    unfold RateLimiter.checked at hbefore
    rw [AList.lookup_insert, hempty] at hbefore
    obtain rfl := Option.some.inj hbefore
    exact absurd hpurged.symm hne

theorem live_iff (l : RateLimiter) (key : String) (now : TimePoint) (order : List String) :
    (l.checkThrottled key now order).2.isSome = true ↔ HasRoom l key := by
  unfold RateLimiter.checkThrottled HasRoom
  dsimp only
  rw [Option.isSome_map]
  by_cases hkey : key ∈ l.buckets
  · rw [if_neg (fun h => h.1 hkey)]
    unfold RateLimiter.checked
    rw [AList.lookup_insert]
    exact iff_of_true rfl (.inl hkey)
  · have hsize : size (l.checked key now) = size l.buckets + 1 := size_insert_of_notMem hkey _
    rw [hsize]
    by_cases hfull : size l.buckets + 1 > l.config.maxBuckets
    · rw [if_pos ⟨hkey, hfull⟩, notMem_swept hkey]
      refine iff_of_false (by decide) ?_
      rintro (hmem | hroom)
      · exact hkey hmem
      · omega
    · rw [if_neg (fun h => hfull h.2)]
      unfold RateLimiter.checked
      rw [AList.lookup_insert]
      exact iff_of_true rfl (.inr (by omega))

/-- A check reads a bucket of the map exactly where it finds room, so it does in every run in which
every check does. -/
theorem reads_live_bucket_iff (l₀ : RateLimiter) (key : String) (now : TimePoint)
    (order : List String) :
    ((l₀.checkThrottled key now order).2.isSome = true ↔ HasRoom l₀ key) ∧
    ∀ (l : RateLimiter) (history : List RateLimiter.Event),
      RateLimiter.machine.Run Roomy l₀ history l → ∀ e ∈ history, Live e := by
  refine ⟨live_iff l₀ key now order, ?_⟩
  intro l history hrun
  induction hrun with
  | init => exact nofun
  | @next history l i hrun hroom ih =>
    intro e he
    rcases List.mem_cons.mp he with rfl | he
    · intro key hcall
      have hcheck : i.call = .checkThrottled key := (l.call_step i).symm.trans hcall
      change (l.step i).2.returned.isSome = true
      rw [RateLimiter.step_checkThrottled hcheck]
      exact (live_iff l key i.now i.order).mpr (hroom key hcheck)
    · exact ih e he

/-! ### One key too many -/

def oneKey : RateLimiter where
  config := { maxBuckets := 1 }

def retries : List RateLimiter.Input :=
  [⟨0, .checkThrottled "192.0.2.1|spa", []⟩, ⟨1, .recordFailure "192.0.2.1|spa", []⟩,
   ⟨2, .checkThrottled "192.0.2.1|spa", []⟩]

theorem reads_live_bucket_iff_retries :
    (RateLimiter.machine.exec [] oneKey retries).1.map RateLimiter.Event.returned =
        [some 0, none, some 0] ∧
      ∀ e ∈ (RateLimiter.machine.exec [] oneKey retries).1, Live e := by
  have hroomy : RateLimiter.machine.Guarded Roomy [] oneKey retries := by
    refine ⟨?_, nofun, ?_, trivial⟩
    · intro key hcall
      cases hcall
      exact .inr (by decide)
    · intro key hcall
      cases hcall
      exact .inl (by decide)
  exact ⟨by decide, (reads_live_bucket_iff oneKey "192.0.2.1|spa" 0 []).2 _ _
    (Machine.Run.exec_of_guarded .init _ hroomy)⟩

/-- A limiter for one key, which has failed. -/
def full : RateLimiter :=
  (RateLimiter.machine.exec [] {} [⟨0, .configure { maxBuckets := 1 }, []⟩,
    ⟨0, .recordFailure "192.0.2.1|spa", []⟩]).2

theorem second_key_reads_erased_bucket :
    ¬∀ (history : List RateLimiter.Event) (l : RateLimiter) (key : String) (now : TimePoint)
        (order : List String),
      RateLimiter.machine.Run anyStep {} history l →
      (l.checkThrottled key now order).2.isSome = true := by
  intro hclaim
  have hlive := hclaim _ full "192.0.2.2|spa" 1 [] (Machine.run_exec _ _ _)
  revert hlive
  decide

end AuthForge.LiveBuckets
