import AuthForge.Proof.BoundedBuckets
import AuthForge.Proof.LiveBuckets

/-!
# The wait that a check answers

A throttled check answers the seconds until the oldest failure of its bucket leaves the window. That
is when the key is free only if fewer than the maximum of failures came after the oldest one.
-/

namespace AuthForge.RetryAfter

open Common Dict RateLimiter

/-- The failures of a key since its last success, oldest first. -/
def failures (key : String) : List Event → List TimePoint
  | [] => []
  | e :: past =>
    match e.call with
    | .recordFailure key' => if key' = key then failures key past ++ [e.now] else failures key past
    | .recordSuccess key' => if key' = key then [] else failures key past
    | .reset => []
    | _ => failures key past

/-- A sweep takes the bucket of the key while it holds a failure in the window, or while a check
looks at it. -/
def Evicts (key : String) (l : RateLimiter) (i : Input) : Prop :=
  l.Sweeps i ∧ key ∉ (l.step i).1.buckets ∧
    ∃ bucket, (l.touched i).lookup key = some bucket ∧
      (purgeOldLocked l.config bucket i.now ≠ [] ∨ i.call = .checkThrottled key)

/-- Calls at times that do not go back and under one configuration, which evict no bucket of the
key. -/
def Steady (key : String) : Guard RateLimiter Input Event := fun history l i =>
  Timely history l i ∧ ¬Evicts key l i

/-! ### The window -/

/-- A failure as old as the window still counts, as it does for the purge. -/
def closedWindow (cfg : RateLimiterConfig) (times : List TimePoint) (now : TimePoint) :
    List TimePoint :=
  times.filter (cutoff cfg now ≤ ·)

/-- A failure as old as the window no longer counts. -/
def openWindow (cfg : RateLimiterConfig) (times : List TimePoint) (now : TimePoint) :
    List TimePoint :=
  times.filter (cutoff cfg now < ·)

/-- The wait of a check is exact, for the failures that `window` counts: while no failure follows,
later checks are throttled as long as the maximum is counted, and are free a second after the wait;
and the check is free when fewer are counted. -/
structure Exact (cfg : RateLimiterConfig)
    (window : RateLimiterConfig → List TimePoint → TimePoint → List TimePoint) (key : String)
    (history : List Event) (e : Event) : Prop where
  stays : ∀ n, e.returned = some n → 0 < n →
    ∀ (later : List Event) (check : Event) (l : RateLimiter),
    machine.Run (Steady key) { config := cfg } (check :: (later ++ e :: history)) l →
    (∀ x ∈ later, x.call ≠ .recordFailure key) → check.call = .checkThrottled key →
    cfg.maxFailures ≤
      (window cfg (failures key (check :: (later ++ e :: history))) check.now).length →
    ∃ m, check.returned = some m ∧ 0 < m
  ends : ∀ n, e.returned = some n → 0 < n →
    ∀ (later : List Event) (check : Event) (l : RateLimiter),
    machine.Run (Steady key) { config := cfg } (check :: (later ++ e :: history)) l →
    (∀ x ∈ later, x.call ≠ .recordFailure key) → check.call = .checkThrottled key →
    check.now = e.now + (n + 1) * nanosPerSecond → check.returned = some 0
  free : (window cfg (failures key (e :: history)) e.now).length < cfg.maxFailures →
    e.returned = some 0

/-- The check is free: nothing counts, the oldest failure is as old as the window, or fewer than the
maximum are counted. -/
def Free (cfg : RateLimiterConfig) (times : List TimePoint) (now : TimePoint) : Prop :=
  closedWindow cfg times now = [] ∨ (closedWindow cfg times now).head? = some (cutoff cfg now) ∨
    (closedWindow cfg times now).length < cfg.maxFailures

/-- The oldest failure is as old as the window, or fewer than the maximum are later than the oldest
one that counts. -/
def FewLater (cfg : RateLimiterConfig) (times : List TimePoint) (now : TimePoint) : Prop :=
  (closedWindow cfg times now).head? = some (cutoff cfg now) ∨
    ∀ oldest, (closedWindow cfg times now).head? = some oldest →
      (times.filter (oldest < ·)).length < cfg.maxFailures

section Window

variable {cfg : RateLimiterConfig} {times rest : List TimePoint} {oldest now now' : TimePoint}

theorem cutoff_mono (h : now ≤ now') : cutoff cfg now ≤ cutoff cfg now' :=
  Int.sub_le_sub_right h _

/-- A failure younger than the window has whole seconds to wait. -/
theorem wait_pos {window age : Int} (h : age < window * nanosPerSecond) :
    0 < window - age / nanosPerSecond := by
  unfold nanosPerSecond at h ⊢
  omega

theorem closedWindow_closedWindow (h : now ≤ now') :
    closedWindow cfg (closedWindow cfg times now) now' = closedWindow cfg times now' := by
  unfold closedWindow
  rw [List.filter_filter]
  refine List.filter_congr fun t _ => ?_
  simp only [Bool.and_eq_left_iff_imp, decide_eq_true_eq]
  exact (cutoff_mono h).trans

theorem closedWindow_purgeOldLocked (h : now ≤ now') :
    closedWindow cfg (purgeOldLocked cfg times now) now' = closedWindow cfg times now' := by
  have hsplit : times.takeWhile (· < cutoff cfg now) ++ purgeOldLocked cfg times now = times :=
    List.takeWhile_append_dropWhile
  have hold : closedWindow cfg (times.takeWhile (· < cutoff cfg now)) now' = [] := by
    refine List.filter_eq_nil_iff.mpr fun t ht => ?_
    have ht : t < cutoff cfg now := by simpa using List.mem_takeWhile_imp ht
    simp only [decide_eq_true_eq]
    exact not_le.mpr (ht.trans_le (cutoff_mono h))
  calc closedWindow cfg (purgeOldLocked cfg times now) now'
      = closedWindow cfg (times.takeWhile (· < cutoff cfg now)) now' ++
          closedWindow cfg (purgeOldLocked cfg times now) now' := by rw [hold, List.nil_append]
    _ = closedWindow cfg times now' := by
      unfold closedWindow
      rw [← List.filter_append, hsplit]

/-- A second after the wait the oldest failure has left the window. -/
theorem wait_ends : oldest < cutoff cfg
    (now + (cfg.windowSeconds - (now - oldest) / nanosPerSecond + 1) * nanosPerSecond) := by
  have hwait (window oldest now : Int) : oldest <
      now + (window - (now - oldest) / nanosPerSecond + 1) * nanosPerSecond -
        window * nanosPerSecond := by
    unfold nanosPerSecond
    omega
  exact hwait cfg.windowSeconds oldest now

/-- The failures of the window once it has lost those before its oldest one. -/
theorem closedWindow_of_head (hwindow : closedWindow cfg times now = oldest :: rest)
    (hle : now ≤ now') (hcutoff : cutoff cfg now' ≤ oldest) :
    closedWindow cfg times now' = oldest :: closedWindow cfg rest now' := by
  rw [← closedWindow_closedWindow hle, hwindow]
  unfold closedWindow
  rw [List.filter_cons_of_pos (by simpa using hcutoff)]

theorem retryAfter_eq_zero_of_length (h : times.length < cfg.maxFailures) :
    retryAfter cfg times now = 0 := by
  unfold retryAfter
  split
  · rfl
  · exact if_neg (by omega)

theorem retryAfter_eq_zero_of_head (h : times.head? = some (cutoff cfg now)) :
    retryAfter cfg times now = 0 := by
  unfold retryAfter
  split
  · rfl
  · rename_i oldest rest
    obtain rfl := Option.some.inj h
    have hage : now - cutoff cfg now = cfg.windowSeconds * nanosPerSecond := Int.sub_sub_self _ _
    rw [hage, Int.mul_tdiv_cancel _ (by decide), Int.sub_self]
    split
    · rfl
    · rfl

/-- While the oldest failure of a throttled key is younger than the window, the wait is its own. -/
theorem retryAfter_cons (hlength : cfg.maxFailures ≤ (oldest :: rest).length)
    (hcutoff : cutoff cfg now < oldest) (hnow : oldest ≤ now) :
    retryAfter cfg (oldest :: rest) now =
        cfg.windowSeconds - (now - oldest) / nanosPerSecond ∧
      0 < cfg.windowSeconds - (now - oldest) / nanosPerSecond := by
  have hdiv : (now - oldest).tdiv nanosPerSecond = (now - oldest) / nanosPerSecond :=
    Int.tdiv_eq_ediv_of_nonneg (Int.sub_nonneg_of_le hnow)
  have hage : now - oldest < cfg.windowSeconds * nanosPerSecond := Int.sub_lt_of_sub_lt hcutoff
  have hpos := wait_pos hage
  refine ⟨?_, hpos⟩
  dsimp only [retryAfter]
  rw [if_pos hlength, hdiv, if_neg (not_le.mpr hpos)]

end Window

/-! ### The bucket holds the failures of the window -/

section Runs

variable {cfg : RateLimiterConfig} {key : String} {history : List Event} {l : RateLimiter}
  {i : Input}

/-- Whatever is asked later, the bucket counts the failures that are due. -/
def Tracks (cfg : RateLimiterConfig) (key : String) (times : List TimePoint) (buckets : Buckets)
    (now : TimePoint) : Prop :=
  ∀ now', now ≤ now' →
    closedWindow cfg ((buckets.lookup key).getD []) now' = closedWindow cfg times now'

theorem tracks_touched (hcfg : l.config = cfg)
    (hconfig : ∀ config, i.call ≠ .configure config)
    (h : Tracks cfg key (failures key history) l.buckets i.now) :
    Tracks cfg key (failures key ((l.step i).2 :: history)) (l.touched i) i.now := by
  intro now' hle
  have hsame : closedWindow cfg (l.bucketOf key) now' =
      closedWindow cfg (failures key history) now' := h now' hle
  unfold failures touched
  rw [call_step, now_step]
  cases hcall : i.call with
  | configure config => exact absurd hcall (hconfig config)
  | checkThrottled key' =>
    dsimp only [checked]
    by_cases hkey : key = key'
    · subst hkey
      rw [AList.lookup_insert, Option.getD_some, hcfg, closedWindow_purgeOldLocked hle, hsame]
    · rw [AList.lookup_insert_ne hkey]
      exact hsame
  | recordFailure key' =>
    dsimp only [failed]
    by_cases hkey : key = key'
    · subst hkey
      rw [AList.lookup_insert, Option.getD_some, if_pos rfl, hcfg]
      have hpurge : closedWindow cfg (purgeOldLocked cfg (l.bucketOf key) i.now) now' =
          closedWindow cfg (l.bucketOf key) now' := closedWindow_purgeOldLocked hle
      unfold closedWindow at hsame hpurge ⊢
      rw [List.filter_append, List.filter_append, ← hsame]
      exact congrArg (· ++ _) hpurge
    · rw [AList.lookup_insert_ne hkey, if_neg (Ne.symm hkey)]
      exact hsame
  | recordSuccess key' =>
    dsimp only
    by_cases hkey : key = key'
    · subst hkey
      rw [AList.lookup_erase, if_pos rfl]
      rfl
    · rw [AList.lookup_erase_ne hkey, if_neg (Ne.symm hkey)]
      exact hsame
  | reset => rfl

/-- A sweep that does not evict the bucket takes it only when nothing in it counts any more. -/
theorem tracks_step (hcfg : l.config = cfg) (hsteady : Steady key history l i)
    (h : Tracks cfg key (failures key history) l.buckets i.now) :
    Tracks cfg key (failures key ((l.step i).2 :: history)) (l.step i).1.buckets i.now := by
  obtain ⟨⟨-, hconfig⟩, hkept⟩ := hsteady
  have htouched := tracks_touched hcfg hconfig h
  by_cases hsweeps : l.Sweeps i
  · intro now' hle
    rw [← htouched now' hle]
    have hafter := buckets_step_of_sweeps hsweeps
    cases hlookup : (l.step i).1.buckets.lookup key with
    | some bucket =>
      rw [hafter] at hlookup
      obtain ⟨-, before, hbefore, rfl⟩ := lookup_sweepLocked hlookup
      rw [hbefore, Option.getD_some, Option.getD_some, hcfg, closedWindow_purgeOldLocked hle]
    | none =>
      cases hbefore : (l.touched i).lookup key with
      | none => rfl
      | some bucket =>
        have hpurged : purgeOldLocked l.config bucket i.now = [] := by
          by_contra hne
          exact hkept ⟨hsweeps, AList.lookup_eq_none.mp hlookup, bucket, hbefore, .inl hne⟩
        have hgone : closedWindow l.config bucket now' = [] := by
          rw [← closedWindow_purgeOldLocked hle, hpurged]
          rfl
        rw [Option.getD_some, ← hcfg, hgone]
        rfl
  · rw [buckets_step_of_not_sweeps hsweeps]
    exact htouched

/-- What holds of the limiter after a run without eviction. -/
structure Kept (cfg : RateLimiterConfig) (key : String) (history : List Event) (l : RateLimiter) :
    Prop where
  bounded : BoundedBuckets.Bounded cfg history l
  tracks : ∀ now, (∀ e ∈ history, e.now ≤ now) →
    Tracks cfg key (failures key history) l.buckets now

theorem kept_of_run (hrun : machine.Run (Steady key) { config := cfg } history l) :
    Kept cfg key history l := by
  refine hrun.invariant (Kept cfg key) ?_ ?_
  · exact ⟨BoundedBuckets.bounded_init cfg, fun _ _ _ _ => rfl⟩
  · intro past l i _ hkept hsteady
    refine ⟨hkept.bounded.step hsteady.1, ?_⟩
    intro now hnow now' hle
    have hlast : i.now ≤ now' := by
      rw [← l.now_step i]
      exact (hnow _ List.mem_cons_self).trans hle
    have htracks := hkept.tracks i.now hsteady.1.1
    exact tracks_step hkept.bounded.config hsteady htracks now' hlast

/-! ### A check -/

/-- A check whose bucket is not evicted does not sweep. -/
theorem not_sweeps_of_steady (hsteady : Steady key history l i)
    (hcall : i.call = .checkThrottled key) : ¬l.Sweeps i := by
  intro hsweeps
  have hnew : key ∉ l.buckets := by
    unfold Sweeps at hsweeps
    rw [hcall] at hsweeps
    exact hsweeps.1
  have htouched : l.touched i = l.checked key i.now := by
    unfold touched
    rw [hcall]
  refine hsteady.2 ⟨hsweeps, ?_, purgeOldLocked l.config (l.bucketOf key) i.now, ?_, .inr hcall⟩
  · rw [buckets_step_of_sweeps hsweeps, htouched]
    exact AList.lookup_eq_none.mp (LiveBuckets.notMem_swept hnew)
  · rw [htouched]
    exact AList.lookup_insert _

theorem check_of_not_sweeps (h : ¬l.Sweeps i) (hcall : i.call = .checkThrottled key) :
    (l.step i).2 = ⟨i.now, .checkThrottled key,
      some (retryAfter l.config (purgeOldLocked l.config (l.bucketOf key) i.now) i.now)⟩ ∧
    key ∈ (l.step i).1.buckets := by
  have hbuckets := buckets_step_of_not_sweeps h
  rw [show l.touched i = l.checked key i.now by unfold touched; rw [hcall]] at hbuckets
  constructor
  · rw [step_checkThrottled hcall] at hbuckets ⊢
    unfold Sweeps at h
    rw [hcall] at h
    unfold checkThrottled
    dsimp only
    rw [if_neg h]
    unfold checked
    rw [AList.lookup_insert, hcall]
    rfl
  · rw [hbuckets]
    exact (AList.mem_insert _).mpr (.inl rfl)

/-- The check answers from the failures of the window, which are in order and not in the future. -/
theorem check_of_run (hrun : machine.Run (Steady key) { config := cfg } history l)
    (hsteady : Steady key history l i) (hcall : i.call = .checkThrottled key) :
    (l.step i).2 = ⟨i.now, .checkThrottled key,
        some (retryAfter cfg (closedWindow cfg (failures key history) i.now) i.now)⟩ ∧
      key ∈ (l.step i).1.buckets ∧
      (closedWindow cfg (failures key history) i.now).Pairwise (· ≤ ·) ∧
      ∀ t ∈ closedWindow cfg (failures key history) i.now, cutoff cfg i.now ≤ t ∧ t ≤ i.now := by
  have hkept := kept_of_run hrun
  have htracks : closedWindow cfg (l.bucketOf key) i.now =
      closedWindow cfg (failures key history) i.now :=
    hkept.tracks i.now hsteady.1.1 i.now (le_refl _)
  obtain ⟨hsorted, hpast⟩ := hkept.bounded.bucketOf key
  obtain ⟨hevent, hmem⟩ := check_of_not_sweeps (not_sweeps_of_steady hsteady hcall) hcall
  rw [hkept.bounded.config, purgeOldLocked_eq_filter hsorted] at hevent
  rw [← htracks]
  refine ⟨hevent, hmem, hsorted.sublist List.filter_sublist, ?_⟩
  intro t ht
  obtain ⟨hold, hcutoff⟩ := List.mem_filter.mp ht
  obtain ⟨e, he, rfl⟩ := hpast t hold
  exact ⟨by simpa using hcutoff, hsteady.1.1 e he⟩

/-- What is known of a check that a run has made, from the failures before it. -/
structure Answered (cfg : RateLimiterConfig) (key : String) (history : List Event) (e : Event)
    (l : RateLimiter) : Prop where
  eq : e = ⟨e.now, .checkThrottled key,
    some (retryAfter cfg (closedWindow cfg (failures key history) e.now) e.now)⟩
  mem : key ∈ l.buckets
  sorted : (closedWindow cfg (failures key history) e.now).Pairwise (· ≤ ·)
  range : ∀ t ∈ closedWindow cfg (failures key history) e.now, cutoff cfg e.now ≤ t ∧ t ≤ e.now
  latest : ∀ x ∈ history, x.now ≤ e.now

variable {e : Event}

theorem answered_of_run (hrun : machine.Run (Steady key) { config := cfg } (e :: history) l)
    (hcall : e.call = .checkThrottled key) : Answered cfg key history e l := by
  obtain ⟨q, i, hrun', hsteady, hstep⟩ := hrun.last
  change q.step i = (l, e) at hstep
  have hl : (q.step i).1 = l := congrArg Prod.fst hstep
  have he : (q.step i).2 = e := congrArg Prod.snd hstep
  have hnow : i.now = e.now := by rw [← he, now_step]
  have hcheck : i.call = .checkThrottled key := by rw [← hcall, ← he, call_step]
  obtain ⟨hevent, hmem, hsorted, hrange⟩ := check_of_run hrun' hsteady hcheck
  rw [hnow] at hevent hsorted hrange
  exact ⟨he.symm.trans hevent, hl ▸ hmem, hsorted, hrange, hnow ▸ hsteady.1.1⟩

/-- Whenever the key has been checked, it can be checked again at any later time. -/
theorem next_check (hrun : machine.Run (Steady key) { config := cfg } (e :: history) l)
    (hcall : e.call = .checkThrottled key) {now : TimePoint} (hle : e.now ≤ now) :
    ∃ l', machine.Run (Steady key) { config := cfg }
      (⟨now, .checkThrottled key,
        some (retryAfter cfg (closedWindow cfg (failures key history) now) now)⟩ ::
          e :: history) l' := by
  have hanswered := answered_of_run hrun hcall
  let i : Input := ⟨now, .checkThrottled key, []⟩
  have hsweeps : ¬l.Sweeps i := fun h => h.1 hanswered.mem
  have hsteady : Steady key (e :: history) l i := by
    refine ⟨⟨?_, nofun⟩, fun h => hsweeps h.1⟩
    intro x hx
    rcases List.mem_cons.mp hx with rfl | hx
    · exact hle
    · exact (hanswered.latest x hx).trans hle
  obtain ⟨hevent, -⟩ := check_of_run hrun hsteady rfl
  have hsame : failures key (e :: history) = failures key history := by
    rw [failures, hcall]
  refine ⟨(l.step i).1, ?_⟩
  have hnext := Machine.Run.next i hrun hsteady
  change machine.Run (Steady key) _ ((l.step i).2 :: e :: history) (l.step i).1 at hnext
  rwa [hevent, hsame] at hnext

/-- Without further failures those of the key stay, or a success has cleared them. -/
theorem failures_append {later : List Event} (h : ∀ x ∈ later, x.call ≠ .recordFailure key) :
    failures key (later ++ history) = failures key history ∨
      failures key (later ++ history) = [] := by
  induction later with
  | nil => exact .inl rfl
  | cons x later ih =>
    have hrest := ih fun y hy => h y (List.mem_cons_of_mem _ hy)
    have hx := h x List.mem_cons_self
    rw [List.cons_append, failures]
    split
    · rename_i key' hcall
      rw [if_neg (fun heq : key' = key => hx (hcall.trans (congrArg _ heq)))]
      exact hrest
    · split
      · exact .inr rfl
      · exact hrest
    · exact .inr rfl
    · exact hrest

/-! ### Free checks and throttled ones -/

/-- The check waits for its oldest failure, which is younger than the window. -/
structure Waits (cfg : RateLimiterConfig) (times : List TimePoint) (now oldest : TimePoint)
    (rest : List TimePoint) : Prop where
  window : closedWindow cfg times now = oldest :: rest
  young : cutoff cfg now < oldest
  past : oldest ≤ now
  length : cfg.maxFailures ≤ (oldest :: rest).length
  later : ∀ t ∈ rest, oldest ≤ t

variable {times rest : List TimePoint} {oldest now : TimePoint}

theorem waits_of_head (hsorted : (closedWindow cfg times now).Pairwise (· ≤ ·))
    (hrange : ∀ t ∈ closedWindow cfg times now, cutoff cfg now ≤ t ∧ t ≤ now)
    (hhead : (closedWindow cfg times now).head? = some oldest) (hne : oldest ≠ cutoff cfg now)
    (hlength : cfg.maxFailures ≤ (closedWindow cfg times now).length) :
    ∃ rest, Waits cfg times now oldest rest := by
  obtain ⟨rest, hwindow⟩ := List.head?_eq_some_iff.mp hhead
  rw [hwindow] at hsorted hrange hlength
  obtain ⟨hcutoff, hpast⟩ := hrange oldest List.mem_cons_self
  exact ⟨rest, hwindow, lt_of_le_of_ne hcutoff hne.symm, hpast, hlength,
    (List.pairwise_cons.mp hsorted).1⟩

theorem free_or_waits (hsorted : (closedWindow cfg times now).Pairwise (· ≤ ·))
    (hrange : ∀ t ∈ closedWindow cfg times now, cutoff cfg now ≤ t ∧ t ≤ now) :
    Free cfg times now ∨ ∃ oldest rest, Waits cfg times now oldest rest := by
  by_cases hlength : (closedWindow cfg times now).length < cfg.maxFailures
  · exact .inl (.inr (.inr hlength))
  cases hhead : (closedWindow cfg times now).head? with
  | none => exact .inl (.inl (List.head?_eq_none_iff.mp hhead))
  | some oldest =>
    by_cases heq : oldest = cutoff cfg now
    · exact .inl (.inr (.inl (heq ▸ hhead)))
    · exact .inr ⟨oldest, waits_of_head hsorted hrange hhead heq (not_lt.mp hlength)⟩

theorem retryAfter_of_free (h : Free cfg times now) :
    retryAfter cfg (closedWindow cfg times now) now = 0 := by
  rcases h with hnil | hhead | hlength
  · rw [hnil]
    rfl
  · exact retryAfter_eq_zero_of_head hhead
  · exact retryAfter_eq_zero_of_length hlength

theorem Waits.not_free (h : Waits cfg times now oldest rest) : ¬Free cfg times now := by
  intro hfree
  have hzero := retryAfter_of_free hfree
  obtain ⟨hanswer, hpos⟩ := retryAfter_cons h.length h.young h.past
  rw [h.window, hanswer] at hzero
  exact hpos.ne' hzero

/-- Everything that is later than the oldest failure of the window is in the window. -/
theorem filter_later (hcutoff : cutoff cfg now ≤ oldest) :
    times.filter (oldest < ·) = (closedWindow cfg times now).filter (oldest < ·) := by
  unfold closedWindow
  rw [List.filter_filter]
  refine List.filter_congr fun t _ => ?_
  rw [Bool.eq_iff_iff]
  simp only [Bool.and_eq_true, decide_eq_true_eq]
  exact ⟨fun h => ⟨h, hcutoff.trans h.le⟩, And.left⟩

theorem length_filter_le {p q : TimePoint → Bool} (h : ∀ t, p t = true → q t = true) :
    (times.filter p).length ≤ (times.filter q).length :=
  (List.monotone_filter_right times h).length_le

theorem length_closedWindow_le (h : oldest < cutoff cfg now) :
    (closedWindow cfg times now).length ≤ (times.filter (oldest < ·)).length := by
  refine length_filter_le fun t ht => ?_
  rw [decide_eq_true_eq] at ht ⊢
  exact h.trans_le ht

theorem length_openWindow_le (h : oldest ≤ cutoff cfg now) :
    (openWindow cfg times now).length ≤ (times.filter (oldest < ·)).length := by
  refine length_filter_le fun t ht => ?_
  rw [decide_eq_true_eq] at ht ⊢
  exact h.trans_lt ht

theorem length_openWindow_le_closedWindow :
    (openWindow cfg times now).length ≤ (closedWindow cfg times now).length := by
  refine length_filter_le fun t ht => ?_
  rw [decide_eq_true_eq] at ht ⊢
  exact ht.le

theorem Waits.openWindow_eq (h : Waits cfg times now oldest rest) :
    openWindow cfg times now = closedWindow cfg times now := by
  have hopen : (closedWindow cfg times now).filter (cutoff cfg now < ·) =
      openWindow cfg times now := (filter_later (le_refl _)).symm
  rw [← hopen, List.filter_eq_self]
  intro t ht
  rw [h.window] at ht
  rw [decide_eq_true_eq]
  rcases List.mem_cons.mp ht with rfl | ht
  · exact h.young
  · exact h.young.trans_le (h.later t ht)

/-! ### When the wait is exact -/

variable {window : RateLimiterConfig → List TimePoint → TimePoint → List TimePoint}

theorem failures_check (hcall : e.call = .checkThrottled key) :
    failures key (e :: history) = failures key history := by
  rw [failures, hcall]

theorem exact_of_free (h : e.returned = some 0) : Exact cfg window key history e where
  stays := by
    intro n hn hpos
    obtain rfl := Option.some.inj (h.symm.trans hn)
    exact absurd hpos (by decide)
  ends := by
    intro n hn hpos
    obtain rfl := Option.some.inj (h.symm.trans hn)
    exact absurd hpos (by decide)
  free := fun _ => h

/-- A check at the instant at which the oldest failure leaves the window is free, whatever else is
counted. -/
theorem not_exact_of_waits (hrun : machine.Run (Steady key) { config := cfg } (e :: history) l)
    (hcall : e.call = .checkThrottled key)
    (hwaits : Waits cfg (failures key history) e.now oldest rest)
    (hcounted : cfg.maxFailures ≤ (window cfg (failures key history)
      (oldest + cfg.windowSeconds * nanosPerSecond)).length) :
    ¬Exact cfg window key history e := by
  intro hexact
  have hanswered := answered_of_run hrun hcall
  have hcutoff : cutoff cfg (oldest + cfg.windowSeconds * nanosPerSecond) = oldest :=
    Int.add_sub_cancel _ _
  have hle : e.now ≤ oldest + cfg.windowSeconds * nanosPerSecond :=
    Int.le_add_of_sub_right_le hwaits.young.le
  obtain ⟨hanswer, hpos⟩ := retryAfter_cons hwaits.length hwaits.young hwaits.past
  have hreturned : e.returned =
      some (cfg.windowSeconds - (e.now - oldest) / nanosPerSecond) := by
    rw [hanswered.eq, hwaits.window, hanswer]
  obtain ⟨l', hlater⟩ := next_check hrun hcall hle
  obtain ⟨m, hm, hmpos⟩ := hexact.stays _ hreturned hpos [] _ l' hlater nofun rfl
    (by rwa [failures_check rfl, List.nil_append, failures_check hcall])
  have hzero : retryAfter cfg (closedWindow cfg (failures key history)
      (oldest + cfg.windowSeconds * nanosPerSecond))
      (oldest + cfg.windowSeconds * nanosPerSecond) = 0 := by
    refine retryAfter_eq_zero_of_head ?_
    rw [closedWindow_of_head hwaits.window hle hcutoff.le, List.head?_cons, hcutoff]
  obtain rfl := Option.some.inj (hm.symm.trans (congrArg some hzero))
  exact absurd hmpos (by decide)

theorem exact_closedWindow_iff
    (hrun : machine.Run (Steady key) { config := cfg } (e :: history) l)
    (hcall : e.call = .checkThrottled key) :
    Exact cfg closedWindow key history e ↔ Free cfg (failures key history) e.now := by
  have hanswered := answered_of_run hrun hcall
  rcases free_or_waits hanswered.sorted hanswered.range with hfree | ⟨oldest, rest, hwaits⟩
  · refine iff_of_true (exact_of_free ?_) hfree
    rw [hanswered.eq, retryAfter_of_free hfree]
  · refine iff_of_false (not_exact_of_waits hrun hcall hwaits ?_) hwaits.not_free
    have hcutoff : cutoff cfg (oldest + cfg.windowSeconds * nanosPerSecond) = oldest :=
      Int.add_sub_cancel _ _
    have hall : closedWindow cfg rest (oldest + cfg.windowSeconds * nanosPerSecond) = rest := by
      refine List.filter_eq_self.mpr fun t ht => ?_
      rw [hcutoff, decide_eq_true_eq]
      exact hwaits.later t ht
    rw [closedWindow_of_head hwaits.window (Int.le_add_of_sub_right_le hwaits.young.le)
      hcutoff.le, hall]
    exact hwaits.length

/-- A later check, while no failure has followed, answers from the same failures or from none. -/
theorem later_check {later : List Event} {check : Event}
    (hcall : e.call = .checkThrottled key)
    (hrun : machine.Run (Steady key) { config := cfg } (check :: (later ++ e :: history)) l)
    (hnone : ∀ x ∈ later, x.call ≠ .recordFailure key) (hcheck : check.call = .checkThrottled key) :
    e.now ≤ check.now ∧ ∃ times, (times = failures key history ∨ times = []) ∧
      failures key (check :: (later ++ e :: history)) = times ∧
      check.returned = some (retryAfter cfg (closedWindow cfg times check.now) check.now) := by
  have hanswered := answered_of_run hrun hcheck
  refine ⟨hanswered.latest e (by simp), failures key (later ++ e :: history), ?_,
    failures_check hcheck, ?_⟩
  · have hsame : failures key (e :: history) = failures key history := failures_check hcall
    rw [← hsame]
    exact failures_append hnone
  · rw [hanswered.eq]

theorem exact_openWindow_of_fewLater
    (hrun : machine.Run (Steady key) { config := cfg } (e :: history) l)
    (hcall : e.call = .checkThrottled key)
    (hwaits : Waits cfg (failures key history) e.now oldest rest)
    (hfew : ((failures key history).filter (oldest < ·)).length < cfg.maxFailures) :
    Exact cfg openWindow key history e := by
  obtain ⟨hanswer, hpos⟩ := retryAfter_cons hwaits.length hwaits.young hwaits.past
  have hreturned : e.returned =
      some (cfg.windowSeconds - (e.now - oldest) / nanosPerSecond) := by
    rw [(answered_of_run hrun hcall).eq, hwaits.window, hanswer]
  refine ⟨?_, ?_, ?_⟩
  · intro n _ _ later check l' hrun' hnone hcheck hcounted
    obtain ⟨hle, times, htimes, hsame, hlater⟩ := later_check hcall hrun' hnone hcheck
    rw [hsame] at hcounted
    rcases htimes with rfl | rfl
    · -- The oldest failure still counts, since the later ones are too few.
      have hyoung : cutoff cfg check.now < oldest := by
        by_contra hold
        have hlength : (openWindow cfg (failures key history) check.now).length ≤
          ((failures key history).filter (oldest < ·)).length :=
            length_openWindow_le (not_lt.mp hold)
        omega
      have hwindow := closedWindow_of_head hwaits.window hle hyoung.le
      have hlength := hcounted.trans length_openWindow_le_closedWindow
      rw [hwindow] at hlength hlater
      obtain ⟨hanswer', hpos'⟩ := retryAfter_cons hlength hyoung (hwaits.past.trans hle)
      exact ⟨_, hlater.trans (congrArg some hanswer'), hpos'⟩
    · have hzero : (openWindow cfg [] check.now).length = 0 := rfl
      omega
  · intro n hn _ later check l' hrun' hnone hcheck hnow
    obtain ⟨-, times, htimes, -, hlater⟩ := later_check hcall hrun' hnone hcheck
    rw [hlater]
    refine congrArg some ?_
    rcases htimes with rfl | rfl
    · obtain rfl := Option.some.inj (hreturned.symm.trans hn)
      have hgone : oldest < cutoff cfg check.now := by
        rw [hnow]
        exact wait_ends
      exact retryAfter_eq_zero_of_length ((length_closedWindow_le hgone).trans_lt hfew)
    · rfl
  · intro hcounted
    rw [failures_check hcall, hwaits.openWindow_eq, hwaits.window] at hcounted
    exact absurd hwaits.length (not_le.mpr hcounted)

theorem exact_openWindow_iff
    (hrun : machine.Run (Steady key) { config := cfg } (e :: history) l)
    (hcall : e.call = .checkThrottled key) :
    Exact cfg openWindow key history e ↔ FewLater cfg (failures key history) e.now := by
  have hanswered := answered_of_run hrun hcall
  constructor
  · intro hexact
    by_contra hmany
    obtain ⟨hhead, hlater⟩ := not_or.mp hmany
    push Not at hlater
    obtain ⟨oldest, holdest, hcount⟩ := hlater
    have hne : oldest ≠ cutoff cfg e.now := fun heq => hhead (heq ▸ holdest)
    obtain ⟨hcutoff, -⟩ := hanswered.range oldest (List.mem_of_head? holdest)
    have hlength : cfg.maxFailures ≤ (closedWindow cfg (failures key history) e.now).length := by
      rw [filter_later hcutoff] at hcount
      exact hcount.trans (List.length_filter_le _ _)
    obtain ⟨rest, hwaits⟩ := waits_of_head hanswered.sorted hanswered.range holdest hne hlength
    refine not_exact_of_waits hrun hcall hwaits ?_ hexact
    unfold openWindow
    rwa [show cutoff cfg (oldest + cfg.windowSeconds * nanosPerSecond) = oldest from
      Int.add_sub_cancel _ _]
  · intro hfew
    rcases free_or_waits hanswered.sorted hanswered.range with hfree | ⟨oldest, rest, hwaits⟩
    · refine exact_of_free ?_
      rw [hanswered.eq, retryAfter_of_free hfree]
    · refine exact_openWindow_of_fewLater hrun hcall hwaits ?_
      rcases hfew with hhead | hfew
      · rw [hwaits.window, List.head?_cons] at hhead
        exact absurd (Option.some.inj hhead) hwaits.young.ne'
      · exact hfew oldest (by rw [hwaits.window, List.head?_cons])

end Runs

/-- In every run without eviction, a check of the key is exact where fewer than the maximum of
failures came after its oldest one, if a failure as old as the window no longer counts; if it still
counts, only a check that is free is exact. -/
theorem retryAfter_exact_iff (cfg : RateLimiterConfig) (key : String) (history : List Event)
    (l : RateLimiter) (hrun : machine.Run (Steady key) { config := cfg } history l) :
    ∀ post e past, history = post ++ e :: past → e.call = .checkThrottled key →
      (Exact cfg openWindow key past e ↔ FewLater cfg (failures key past) e.now) ∧
      (Exact cfg closedWindow key past e ↔ Free cfg (failures key past) e.now) := by
  rintro post e past rfl hcall
  obtain ⟨l', hrun'⟩ := hrun.shorter
  exact ⟨exact_openWindow_iff hrun' hcall, exact_closedWindow_iff hrun' hcall⟩

/-! ### Two failures in the window -/

/-- The key fails at the start and at thirty seconds, and is checked a second later. -/
def twoFailures : List Input :=
  [⟨0, .recordFailure "192.0.2.1|spa", []⟩,
   ⟨30 * nanosPerSecond, .recordFailure "192.0.2.1|spa", []⟩,
   ⟨31 * nanosPerSecond, .checkThrottled "192.0.2.1|spa", []⟩]

def checkAt (seconds returned : Int) : Event :=
  ⟨seconds * nanosPerSecond, .checkThrottled "192.0.2.1|spa", some returned⟩

def pastFailures : List Event :=
  [⟨30 * nanosPerSecond, .recordFailure "192.0.2.1|spa", none⟩,
   ⟨0, .recordFailure "192.0.2.1|spa", none⟩]

def allowing (maxFailures : Nat) : RateLimiter where
  config := { maxFailures }

theorem run_twoFailures {n : Nat} (h : n = 1 ∨ n = 2) :
    machine.Run (Steady "192.0.2.1|spa") (allowing n)
      (machine.exec [] (allowing n) twoFailures).1 (machine.exec [] (allowing n) twoFailures).2 := by
  refine .exec_of_guarded .init _ ⟨⟨⟨nofun, nofun⟩, ?_⟩, ⟨⟨?_, nofun⟩, ?_⟩, ⟨⟨?_, nofun⟩, ?_⟩, trivial⟩
  · rintro ⟨hsweeps, -⟩
    revert hsweeps
    unfold Sweeps
    rcases h with rfl | rfl <;> decide
  · rcases h with rfl | rfl <;> decide
  · rintro ⟨hsweeps, -⟩
    revert hsweeps
    unfold Sweeps
    rcases h with rfl | rfl <;> decide
  · rcases h with rfl | rfl <;> decide
  · rintro ⟨hsweeps, -⟩
    revert hsweeps
    unfold Sweeps
    rcases h with rfl | rfl <;> decide

theorem retryAfter_exact_iff_twoFailures :
    Exact { maxFailures := 2 } openWindow "192.0.2.1|spa" pastFailures (checkAt 31 29) :=
  ((retryAfter_exact_iff { maxFailures := 2 } _ _ _ (run_twoFailures (.inr rfl)) []
    (checkAt 31 29) pastFailures (by decide) rfl).1).mpr (.inr fun _ h => by cases h; decide)

/-- With one failure allowed, the wait ends when the first failure has left the window, but the second
one throttles the key still. -/
theorem waits_for_second_failure :
    ¬∀ (cfg : RateLimiterConfig) (key : String) (history : List Event) (e : Event)
        (l : RateLimiter),
      machine.Run (Steady key) { config := cfg } (e :: history) l →
      e.call = .checkThrottled key →
      Exact cfg openWindow key history e ∨ Exact cfg closedWindow key history e := by
  intro hclaim
  have hrun := run_twoFailures (.inl rfl)
  rw [show (machine.exec [] (allowing 1) twoFailures).1 = checkAt 31 29 :: pastFailures
    by decide] at hrun
  have hle : (checkAt 31 29).now ≤ 61 * nanosPerSecond := by decide
  obtain ⟨l', hlater⟩ := next_check hrun rfl hle
  have hends : ∀ window, Exact { maxFailures := 1 } window "192.0.2.1|spa" pastFailures
      (checkAt 31 29) → False := by
    intro window hexact
    have hfree := hexact.ends 29 rfl (by decide) [] _ l' hlater nofun rfl (by decide)
    revert hfree
    decide
  rcases hclaim _ _ _ _ _ hrun rfl with hexact | hexact
  · exact hends _ hexact
  · exact hends _ hexact

end AuthForge.RetryAfter
