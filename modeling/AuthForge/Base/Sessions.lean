import AuthForge.Base.Prog
import Mathlib.Logic.Relation

/-!
# Sessions that begin and end asynchronously

A client holds some credentials. Writers, which are logins or renewals of what is held, begin at one
time and write at a later one; a logout is called at one time and clears at a later one. The log of
these marks, newest first, says when a logout is final and when it is confined to what was held at
its call. Both hold if every write comes when no logout is pending and no finished logout is older
than the writer.
-/

namespace AuthForge.Sessions

inductive Mark (ι τ : Type)
  | began (writer : ι) (login : Bool)
  | wrote (writer : ι)
  | called (logout : ι) (held : List τ)
  | cleared (logout : ι) (held : List τ)
  deriving DecidableEq

variable {ι τ : Type}

/-- A login that began after the call of the logout has written since the logout cleared. -/
def Since (log : List (Mark ι τ)) (l : ι) : Prop :=
  ∃ w later mid before H H', log = later ++ .cleared l H :: (mid ++ .called l H' :: before) ∧
    .wrote w ∈ later ∧ .began w true ∈ later ++ mid

def Pending (log : List (Mark ι τ)) (l : ι) : Prop :=
  (∃ H, .called l H ∈ log) ∧ ∀ H, .cleared l H ∉ log

/-- Nothing is held after a logout, until a login from after its call has written. -/
def Final (log : List (Mark ι τ)) (held : List τ) : Prop :=
  ∀ l H, .cleared l H ∈ log → held ≠ [] → Since log l

/-- A logout clears only what was held when it was called. -/
def Confined (log : List (Mark ι τ)) : Prop :=
  ∀ later earlier l H, log = later ++ .cleared l H :: earlier →
    ∃ H₀ : List τ, .called l H₀ ∈ earlier ∧ H ⊆ H₀

/-- The writer does not reach back before the logout: it is a renewal from after the clearing, or a
login from after the call. -/
def Younger (later earlier : List (Mark ι τ)) (l w : ι) : Prop :=
  .began w false ∈ later ∨
    ∃ mid before H, earlier = mid ++ .called l H :: before ∧ .began w true ∈ later ++ mid

/-- The writer may write: no logout is pending, and it is younger than every finished one, unless
another login has come after that. -/
structure Allowed (log : List (Mark ι τ)) (w : ι) : Prop where
  pending : ∀ l, ¬Pending log l
  younger : ∀ later earlier l H, log = later ++ .cleared l H :: earlier →
    Since log l ∨ Younger later earlier l w

/-- The steps of a client. A renewal begins only while something is held. -/
inductive Step : List (Mark ι τ) × List τ → List (Mark ι τ) × List τ → Prop
  | shrink {log : List (Mark ι τ)} {held held' : List τ} (h : held' ⊆ held) :
      Step (log, held) (log, held')
  | begin {log : List (Mark ι τ)} {held : List τ} (w : ι) (login : Bool)
      (h : login = false → held ≠ []) : Step (log, held) (.began w login :: log, held)
  | call {log : List (Mark ι τ)} {held : List τ} (l : ι) :
      Step (log, held) (.called l held :: log, held)
  | clear {log : List (Mark ι τ)} {held : List τ} (l : ι) (h : Pending log l) :
      Step (log, held) (.cleared l held :: log, [])
  | write {log : List (Mark ι τ)} {held held' : List τ} (w : ι) (h : Allowed log w) :
      Step (log, held) (.wrote w :: log, held')

variable {log log' : List (Mark ι τ)} {l w : ι} {held held' : List τ}

theorem Pending.cons (h : Pending log l) {m : Mark ι τ} (hm : ∀ H, m ≠ .cleared l H) :
    Pending (m :: log) l := by
  obtain ⟨⟨H, hcalled⟩, hopen⟩ := h
  refine ⟨⟨H, List.mem_cons_of_mem _ hcalled⟩, ?_⟩
  intro H' hmem
  rcases List.mem_cons.mp hmem with heq | hmem
  · exact hm H' heq.symm
  · exact hopen H' hmem

theorem Since.cons (h : Since log l) (m : Mark ι τ) : Since (m :: log) l := by
  obtain ⟨w, later, mid, before, H, H', rfl, hwrote, hbegan⟩ := h
  exact ⟨w, m :: later, mid, before, H, H', rfl, List.mem_cons_of_mem _ hwrote,
    List.mem_cons_of_mem _ hbegan⟩

theorem Since.append (h : Since log l) (later : List (Mark ι τ)) : Since (later ++ log) l := by
  induction later with
  | nil => exact h
  | cons m later ih => exact ih.cons m

theorem Since.exists_login (h : Since log l) : ∃ w, .began w true ∈ log := by
  obtain ⟨w, later, mid, before, H, H', rfl, -, hbegan⟩ := h
  refine ⟨w, ?_⟩
  rcases List.mem_append.mp hbegan with hlater | hmid
  · exact List.mem_append_left _ hlater
  · exact List.mem_append_right _ (List.mem_cons_of_mem _ (List.mem_append_left _ hmid))

/-- What holds of every run: a pending logout was called with all that is held, and a renewal that
began after a logout had a login before it. -/
structure Sound (log : List (Mark ι τ)) (held : List τ) : Prop where
  final : Final log held
  confined : Confined log
  pending : ∀ l, (∀ H, .cleared l H ∉ log) → ∀ H, .called l H ∈ log → held ⊆ H
  renewal : ∀ later earlier w, log = later ++ .began w false :: earlier →
    ∀ l H, .cleared l H ∈ earlier → Since earlier l

theorem sound_nil (held : List τ) : Sound ([] : List (Mark ι τ)) held where
  final := nofun
  confined later earlier l H h := by simp at h
  pending := nofun
  renewal later earlier w h := by simp at h

theorem Confined.cons (h : Confined log) {m : Mark ι τ} (hm : ∀ l H, m ≠ .cleared l H) :
    Confined (m :: log) := by
  intro later earlier l H heq
  cases later with
  | nil => exact absurd (List.cons.inj heq).1 (hm l H)
  | cons m' later => exact h later earlier l H (List.cons.inj heq).2

theorem Final.cons (h : Final log held) {m : Mark ι τ} (hm : ∀ l H, m ≠ .cleared l H) :
    Final (m :: log) held := by
  intro l H hmem hne
  rcases List.mem_cons.mp hmem with heq | hmem
  · exact absurd heq.symm (hm l H)
  · exact (h l H hmem hne).cons m

theorem renewal_cons {m : Mark ι τ} (hm : ∀ w, m ≠ .began w false)
    (h : ∀ later earlier w, log = later ++ .began w false :: earlier →
      ∀ l H, .cleared l H ∈ earlier → Since earlier l) :
    ∀ later earlier w, m :: log = later ++ .began w false :: earlier →
      ∀ l H, .cleared l H ∈ earlier → Since earlier l := by
  intro later earlier w heq
  cases later with
  | nil => exact absurd (List.cons.inj heq).1 (hm w)
  | cons m' later => exact h later earlier w (List.cons.inj heq).2

theorem not_mem_of_cons {m n : Mark ι τ} (h : n ∉ m :: log) : n ∉ log :=
  fun hmem => h (List.mem_cons_of_mem _ hmem)

/-- An allowed writer has a login from after every finished logout behind it, or is one. -/
theorem Sound.since_of_write (h : Sound log held) (hw : Allowed log w) (hcleared : .cleared l held' ∈ log) :
    Since (.wrote w :: log) l := by
  obtain ⟨later, earlier, rfl⟩ := List.append_of_mem hcleared
  rcases hw.younger later earlier l held' rfl with hsince | hrenewal | hlogin
  · exact hsince.cons _
  · obtain ⟨later', mid, rfl⟩ := List.append_of_mem hrenewal
    have hsplit : later' ++ .began w false :: mid ++ .cleared l held' :: earlier =
        later' ++ .began w false :: (mid ++ .cleared l held' :: earlier) := by simp
    have hsince := h.renewal later' _ w hsplit l held'
      (List.mem_append_right _ List.mem_cons_self)
    rw [hsplit]
    exact ((hsince.cons _).append later').cons _
  · obtain ⟨mid, before, H, rfl, hbegan⟩ := hlogin
    exact ⟨w, .wrote w :: later, mid, before, held', H, rfl, List.mem_cons_self,
      List.mem_cons_of_mem _ hbegan⟩

theorem Sound.step (h : Sound log held) (hstep : Step (log, held) (log', held')) :
    Sound log' held' := by
  cases hstep with
  | shrink hsub =>
    refine ⟨?_, h.confined, ?_, h.renewal⟩
    · intro l H hmem hne
      refine h.final l H hmem ?_
      rintro rfl
      exact hne (List.eq_nil_of_subset_nil hsub)
    · intro l hopen H hcalled
      exact List.Subset.trans hsub (h.pending l hopen H hcalled)
  | begin w login hlogin =>
    refine ⟨h.final.cons nofun, h.confined.cons nofun, ?_, ?_⟩
    · intro l hopen H hcalled
      refine h.pending l (fun H' => not_mem_of_cons (hopen H')) H ?_
      simpa using hcalled
    · intro later earlier w' heq
      cases later with
      | nil =>
        obtain ⟨hbegan, rfl⟩ := List.cons.inj heq
        obtain ⟨rfl, rfl⟩ := Mark.began.inj hbegan
        exact fun l H hmem => h.final l H hmem (hlogin rfl)
      | cons m later => exact h.renewal later earlier w' (List.cons.inj heq).2
  | call l =>
    refine ⟨h.final.cons nofun, h.confined.cons nofun, ?_, renewal_cons nofun h.renewal⟩
    intro l' hopen H hcalled
    rcases List.mem_cons.mp hcalled with heq | hcalled
    · obtain ⟨rfl, rfl⟩ := Mark.called.inj heq
      exact List.Subset.refl _
    · exact h.pending l' (fun H' => not_mem_of_cons (hopen H')) H hcalled
  | clear l hpending =>
    refine ⟨fun _ _ _ hne => absurd rfl hne, ?_, fun _ _ _ _ => List.nil_subset _,
      renewal_cons nofun h.renewal⟩
    intro later earlier l' H heq
    cases later with
    | nil =>
      obtain ⟨hmark, rfl⟩ := List.cons.inj heq
      obtain ⟨rfl, rfl⟩ := Mark.cleared.inj hmark
      obtain ⟨⟨H₀, hcalled⟩, hopen⟩ := hpending
      exact ⟨H₀, hcalled, h.pending _ hopen H₀ hcalled⟩
    | cons m later => exact h.confined later earlier l' H (List.cons.inj heq).2
  | write w hw =>
    refine ⟨?_, h.confined.cons nofun, ?_, renewal_cons nofun h.renewal⟩
    · intro l H hmem _
      have hcleared : .cleared l H ∈ log := by simpa using hmem
      exact h.since_of_write hw hcleared
    · intro l hopen H hcalled
      refine absurd ⟨⟨H, ?_⟩, fun H' => not_mem_of_cons (hopen H')⟩ (hw.pending l)
      simpa using hcalled

/-! ### Clients with activities -/

/-- A client whose activities have the positions of a list as names. -/
structure Client (α τ : Type) where
  activities : List α
  log : List (Mark Nat τ)
  held : List τ

namespace Client

variable {α : Type} {isLogout : α → Prop} {c c' : Client α τ}

/-- The moves of a client, where `isLogout` tells which activities are logouts that wait. -/
inductive Move (isLogout : α → Prop) : Client α τ → Client α τ → Prop
  | add {c : Client α τ} (a : α) (h : ¬isLogout a) :
      Move isLogout c { c with activities := c.activities ++ [a] }
  | set {c : Client α τ} {id : Nat} {old : α} (a : α) (hold : c.activities[id]? = some old)
      (h : isLogout a → isLogout old) :
      Move isLogout c { c with activities := c.activities.set id a }
  | shrink {c : Client α τ} {held : List τ} (h : held ⊆ c.held) :
      Move isLogout c { c with held := held }
  | begin {c : Client α τ} (w : Nat) (login : Bool) (h : login = false → c.held ≠ []) :
      Move isLogout c { c with log := .began w login :: c.log }
  | call {c : Client α τ} (a : α) :
      Move isLogout c { c with
        activities := c.activities ++ [a], log := .called c.activities.length c.held :: c.log }
  | clear {c : Client α τ} {id : Nat} {old : α} (a : α) (hold : c.activities[id]? = some old)
      (hlogout : isLogout old) (h : ¬isLogout a) :
      Move isLogout c ⟨c.activities.set id a, .cleared id c.held :: c.log, []⟩
  | write {c : Client α τ} {held : List τ} (w : Nat) (h : Allowed c.log w) :
      Move isLogout c ⟨c.activities, .wrote w :: c.log, held⟩

abbrev Moves (isLogout : α → Prop) : Client α τ → Client α τ → Prop :=
  Relation.ReflTransGen (Move isLogout)

/-- A logout that has nothing to wait for. -/
theorem moves_logout {b : α} (hb : isLogout b) {a : α} (ha : ¬isLogout a) :
    Moves isLogout c ⟨c.activities ++ [a], .cleared c.activities.length c.held ::
      .called c.activities.length c.held :: c.log, []⟩ := by
  have hclear : Move isLogout _ _ :=
    .clear (c := ⟨c.activities ++ [b], .called c.activities.length c.held :: c.log, c.held⟩)
      a List.getElem?_concat_length hb ha
  have hset : (c.activities ++ [b]).set c.activities.length a = c.activities ++ [a] := by simp
  dsimp only at hclear
  rw [hset] at hclear
  exact .tail (.single (.call b)) hclear

/-- The logouts that wait are pending, and every logout is named by an activity. -/
structure Sound (isLogout : α → Prop) (c : Client α τ) : Prop where
  sessions : Sessions.Sound c.log c.held
  pending : ∀ id a, c.activities[id]? = some a → isLogout a → Pending c.log id
  placed : ∀ id H, .called id H ∈ c.log ∨ .cleared id H ∈ c.log → id < c.activities.length

theorem sound_start (activities : List α) (held : List τ) (h : ∀ a ∈ activities, ¬isLogout a) :
    Sound isLogout ⟨activities, [], held⟩ where
  sessions := sound_nil held
  pending _ a ha hlogout := absurd hlogout (h a (List.mem_of_getElem? ha))
  placed _ _ hmem := by simp at hmem

theorem Sound.move (h : Sound isLogout c) (hmove : Move isLogout c c') : Sound isLogout c' := by
  cases hmove with
  | add a ha =>
    refine ⟨h.sessions, ?_, ?_⟩
    · intro id b hb hlogout
      rcases Service.getElem?_snoc hb with hb | ⟨rfl, rfl⟩
      · exact h.pending id b hb hlogout
      · exact absurd hlogout ha
    · intro id H hmem
      change id < (c.activities ++ [a]).length
      rw [List.length_append]
      exact Nat.lt_add_right _ (h.placed id H hmem)
  | @set id old a hold ha =>
    refine ⟨h.sessions, ?_, ?_⟩
    · intro id' b hb hlogout
      rcases Service.getElem?_set_cases hb with ⟨rfl, rfl⟩ | ⟨-, hb⟩
      · exact h.pending _ old hold (ha hlogout)
      · exact h.pending id' b hb hlogout
    · intro id' H hmem
      change id' < (c.activities.set id a).length
      rw [List.length_set]
      exact h.placed id' H hmem
  | shrink hsub => exact ⟨h.sessions.step (.shrink hsub), h.pending, h.placed⟩
  | begin w login hlogin =>
    refine ⟨h.sessions.step (.begin w login hlogin), ?_, ?_⟩
    · intro id a ha hlogout
      exact (h.pending id a ha hlogout).cons nofun
    · intro id H hmem
      exact h.placed id H (by simpa using hmem)
  | call a =>
    refine ⟨h.sessions.step (.call _), ?_, ?_⟩
    · intro id b hb hlogout
      rcases Service.getElem?_snoc hb with hb | ⟨rfl, rfl⟩
      · exact (h.pending id b hb hlogout).cons nofun
      · refine ⟨⟨c.held, List.mem_cons_self⟩, ?_⟩
        intro H hmem
        have hlt := h.placed _ H (.inr ((List.mem_cons.mp hmem).resolve_left nofun))
        exact Nat.lt_irrefl _ hlt
    · intro id H hmem
      change id < (c.activities ++ [a]).length
      rw [List.length_append]
      rcases hmem with hmem | hmem
      · rcases List.mem_cons.mp hmem with heq | hmem
        · obtain ⟨rfl, -⟩ := Mark.called.inj heq
          exact Nat.lt_succ_self _
        · exact Nat.lt_add_right _ (h.placed id H (.inl hmem))
      · exact Nat.lt_add_right _ (h.placed id H (.inr ((List.mem_cons.mp hmem).resolve_left nofun)))
  | @clear id old a hold hlogout ha =>
    refine ⟨h.sessions.step (.clear id (h.pending id old hold hlogout)), ?_, ?_⟩
    · intro id' b hb hlogout'
      rcases Service.getElem?_set_cases hb with ⟨rfl, rfl⟩ | ⟨hne, hb⟩
      · exact absurd hlogout' ha
      · refine (h.pending id' b hb hlogout').cons ?_
        intro H heq
        exact hne (Mark.cleared.inj heq).1.symm
    · intro id' H hmem
      change id' < (c.activities.set id a).length
      rw [List.length_set]
      rcases hmem with hmem | hmem
      · exact h.placed id' H (.inl ((List.mem_cons.mp hmem).resolve_left nofun))
      · rcases List.mem_cons.mp hmem with heq | hmem
        · obtain ⟨rfl, -⟩ := Mark.cleared.inj heq
          exact (List.getElem?_eq_some_iff.mp hold).1
        · exact h.placed id' H (.inr hmem)
  | write w hw =>
    refine ⟨h.sessions.step (.write w hw), ?_, ?_⟩
    · intro id a ha hlogout
      exact (h.pending id a ha hlogout).cons nofun
    · intro id H hmem
      exact h.placed id H (by simpa using hmem)

theorem Sound.moves (h : Sound isLogout c) (hmoves : Moves isLogout c c') : Sound isLogout c' := by
  induction hmoves with
  | refl => exact h
  | tail _ hmove ih => exact ih.move hmove

end Client

end AuthForge.Sessions
