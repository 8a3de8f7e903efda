import AuthForge.Storage.MemoryCalls

/-!
# Revoked in memory, revoked for good

The repository keeps no trace of a value that it does not hold, so a revocation reaches the records
that are stored when it is made. Those it reaches stay revoked under every later call.
-/

namespace AuthForge.PermanentRevocation

open OAuth2 Storage.Memory

variable {s : Tokens} {v : String} {now : Int} {c : TokenCall} {e : TokenEvent}
  {history later past : List TokenEvent}

/-! ### Calls that save and calls that hand out -/

/-- The value that a call saves a token under. -/
def savedBy : TokenCall → Option String
  | .saveAccessToken token => some token.token
  | .saveRefreshToken token => some token.token
  | _ => none

/-- No value is saved twice. -/
def FreshValues : Guard Tokens TimedCall TokenEvent := fun history _ i =>
  ∀ v ∈ savedBy i.call, ∀ e ∈ history, savedBy e.call ≠ some v

/-- The call returned the token of this value, or reported it active. -/
def handsOut (v : String) : TokenEvent → Bool
  | ⟨⟨_, .getAccessToken token⟩, .access (some _)⟩ => token = v
  | ⟨⟨_, .getRefreshToken token⟩, .refresh (some _)⟩ => token = v
  | ⟨⟨_, .atomicRevokeRefreshToken token⟩, .refresh (some _)⟩ => token = v
  | ⟨⟨_, .introspectToken token⟩, .introspection result⟩ => token = v && result.active
  | _ => false

def SavedAccess (v : String) (history : List TokenEvent) : Prop :=
  ∃ e ∈ history, ∃ token, e.call = .saveAccessToken token ∧ token.token = v

def SavedRefresh (v : String) (history : List TokenEvent) : Prop :=
  ∃ e ∈ history, ∃ token, e.call = .saveRefreshToken token ∧ token.token = v

/-! ### Dead records -/

def AccessDead (v : String) (s : Tokens) : Prop :=
  ∀ it, s.accessTokens.lookup v = some it → it.revoked = true

def RefreshDead (v : String) (s : Tokens) : Prop :=
  ∀ rt, s.refreshTokens.lookup v = some rt → rt.revoked = true

theorem AccessDead.call (h : AccessDead v s)
    (hc : ∀ token, c = .saveAccessToken token → token.token ≠ v) :
    AccessDead v (call now s c).2 := by
  intro it hlookup
  rcases accessTokens_call hlookup with ⟨token, rfl, heq⟩ | ⟨it₀, hbefore, hkeeps⟩
  · exact absurd heq (hc token rfl)
  · exact hkeeps (h it₀ hbefore)

theorem RefreshDead.call (h : RefreshDead v s)
    (hc : ∀ token, c = .saveRefreshToken token → token.token ≠ v) :
    RefreshDead v (call now s c).2 := by
  intro rt hlookup
  rcases refreshTokens_call hlookup with ⟨rfl, heq⟩ | ⟨rt₀, hbefore, hkeeps, -⟩
  · exact absurd heq (hc rt rfl)
  · exact hkeeps (h rt₀ hbefore)

/-- Nothing hands out a value whose records are revoked or gone. -/
theorem handsOut_eq_false (ha : AccessDead v s) (hr : RefreshDead v s) (now : Int) (c : TokenCall) :
    handsOut v ⟨⟨now, c⟩, (call now s c).1⟩ = false := by
  by_contra hout
  rw [Bool.not_eq_false] at hout
  cases c with
  | getAccessToken token =>
    simp only [call, getAccessToken] at hout
    split at hout
    · cases hout
    · rename_i it hlookup
      split at hout
      · rename_i hlive
        simp only [handsOut, decide_eq_true_eq] at hout
        subst hout
        rw [ha it hlookup] at hlive
        cases hlive.2
      · cases hout
  | getRefreshToken token =>
    simp only [call, getRefreshToken] at hout
    split at hout
    · cases hout
    · rename_i rt hlookup
      split at hout
      · rename_i hlive
        simp only [handsOut, decide_eq_true_eq] at hout
        subst hout
        rw [hr rt hlookup] at hlive
        cases hlive.2
      · cases hout
  | atomicRevokeRefreshToken token =>
    simp only [call, atomicRevokeRefreshToken] at hout
    split at hout
    · cases hout
    · rename_i rt hlookup
      split at hout
      · cases hout
      · rename_i hlive
        simp only [handsOut, decide_eq_true_eq] at hout
        subst hout
        exact hlive (hr rt hlookup)
  | introspectToken token =>
    simp only [call, handsOut, Bool.and_eq_true, decide_eq_true_eq] at hout
    obtain ⟨rfl, hactive⟩ := hout
    unfold introspectToken at hactive
    split at hactive
    · rename_i it hlookup
      rw [if_pos (.inl (ha it hlookup))] at hactive
      cases hactive
    · split at hactive
      · rename_i rt hlookup
        rw [if_pos (.inl (hr rt hlookup))] at hactive
        cases hactive
      · cases hactive
  | _ => cases hout

/-! ### Runs that never save a value twice -/

theorem savedBy_ne_of_fresh
    (hrun : tokenCalls.Run FreshValues .empty (later ++ past) s) {e : TokenEvent} (he : e ∈ past)
    (hsaved : savedBy e.call = some v) : ∀ x ∈ later, savedBy x.call ≠ some v := by
  induction later generalizing s with
  | nil =>
    intro x hx
    cases hx
  | cons x later ih =>
    obtain ⟨t, i, ht, hok, hstep⟩ := hrun.last
    intro y hy
    rcases List.mem_cons.mp hy with rfl | hy
    · have hcall : y.call = i.call := (congrArg (fun r => r.2.call) hstep).symm
      rw [hcall]
      intro hsame
      exact hok v hsame e (List.mem_append_right _ he) hsaved
    · exact ih ht y hy

theorem saved_once
    (hrun : tokenCalls.Run FreshValues .empty history s) {e e' : TokenEvent} (he : e ∈ history)
    (he' : e' ∈ history) (h : savedBy e.call = some v) (h' : savedBy e'.call = some v) :
    e = e' := by
  by_contra hne
  obtain ⟨later, earlier, rfl⟩ := List.append_of_mem he
  rcases List.mem_append.mp he' with hlater | hrest
  · exact savedBy_ne_of_fresh hrun List.mem_cons_self h e' hlater h'
  · rcases List.mem_cons.mp hrest with heq | hearlier
    · exact hne heq.symm
    · obtain ⟨t, ht⟩ := hrun.shorter
      have hrun' : tokenCalls.Run FreshValues .empty ([e] ++ earlier) t := ht
      exact savedBy_ne_of_fresh hrun' hearlier h' e (List.mem_singleton_self e) h

/-- A value that was saved as one kind of token is not saved as the other. -/
theorem not_savedAccess_of_savedRefresh
    (hrun : tokenCalls.Run FreshValues .empty history s) (hrefresh : SavedRefresh v history) :
    ¬SavedAccess v history := by
  intro haccess
  obtain ⟨e, he, rt, hcall, hrt⟩ := hrefresh
  obtain ⟨e', he', it, hcall', hit⟩ := haccess
  have hsaved : savedBy e.call = some v := by rw [hcall, savedBy, hrt]
  have hsaved' : savedBy e'.call = some v := by rw [hcall', savedBy, hit]
  rw [saved_once hrun he he' hsaved hsaved', hcall'] at hcall
  cases hcall

/-- The records are those that were saved, under their values and in their families. -/
structure Recorded (history : List TokenEvent) (s : Tokens) : Prop where
  access : ∀ k it, s.accessTokens.lookup k = some it → SavedAccess k history
  refresh : ∀ k rt, s.refreshTokens.lookup k = some rt → ∃ e ∈ history, ∃ token,
    e.call = .saveRefreshToken token ∧ token.token = k ∧ token.familyId = rt.familyId

theorem recorded_of_run {ok : Guard Tokens TimedCall TokenEvent}
    (hrun : tokenCalls.Run ok .empty history s) : Recorded history s := by
  refine hrun.invariant (fun history s => Recorded history s) ?_ ?_
  · refine ⟨?_, ?_⟩
    · intro k it hlookup
      cases hlookup
    · intro k rt hlookup
      cases hlookup
  · intro history s i _ hrecorded _
    refine ⟨?_, ?_⟩
    · intro k it hlookup
      rcases accessTokens_call hlookup with ⟨token, hcall, hk⟩ | ⟨it₀, hbefore, -⟩
      · exact ⟨_, List.mem_cons_self, token, hcall, hk⟩
      · obtain ⟨e, he, hsaved⟩ := hrecorded.access k it₀ hbefore
        exact ⟨e, List.mem_cons_of_mem _ he, hsaved⟩
    · intro k rt hlookup
      rcases refreshTokens_call hlookup with ⟨hcall, hk⟩ | ⟨rt₀, hbefore, -, hfamily, -⟩
      · exact ⟨_, List.mem_cons_self, rt, hcall, hk, rfl⟩
      · obtain ⟨e, he, token, hcall, hk, hsame⟩ := hrecorded.refresh k rt₀ hbefore
        exact ⟨e, List.mem_cons_of_mem _ he, token, hcall, hk, hsame.trans hfamily.symm⟩

/-! ### Revocations -/

/-- The chain of the revocation endpoint ends with this call: its first half was called before, for
a value that had been saved before that, or is a refresh token saved before this call. -/
def ChainRevoked (v : String) (past : List TokenEvent) (c : TokenCall) : Prop :=
  c = .revokeRefreshToken v ∧ ∃ mid e before, past = mid ++ e :: before ∧
    (∃ revokedBy, e.call = .revokeAccessToken v revokedBy) ∧
    (SavedAccess v before ∨ SavedRefresh v past)

/-- The call revokes a family to which the value belongs: as a refresh token that was saved with it,
or as a saved access token to which a stored refresh token of the family refers, unless it is revoked
or gone as it is. -/
def FamilyRevoked (v : String) (past : List TokenEvent) (c : TokenCall) : Prop :=
  ∃ familyId, c = .revokeTokenFamily familyId ∧
    ((∃ e ∈ past, ∃ token, e.call = .saveRefreshToken token ∧ token.token = v ∧
        token.familyId = familyId) ∨
      SavedAccess v past ∧ (AccessDead v (after past) ∨
        ∃ k rt, (after past).refreshTokens.lookup k = some rt ∧ rt.familyId = familyId ∧
          rt.accessToken = v))

theorem accessDead_of_since {before : List TokenEvent} {ok : Guard Tokens TimedCall TokenEvent}
    (hrun : tokenCalls.Run ok .empty (later ++ before) s) (h : AccessDead v (after before))
    (hlater : ¬SavedAccess v later) : AccessDead v s := by
  induction later generalizing s with
  | nil => exact (eq_after hrun) ▸ h
  | cons x later ih =>
    obtain ⟨t, i, ht, -, hstep⟩ := hrun.last
    have hdead := ih ht fun hsaved => hlater ?_
    · obtain ⟨rfl, rfl⟩ := Prod.mk.inj hstep
      refine hdead.call fun token hcall heq => hlater ?_
      exact ⟨_, List.mem_cons_self, token, hcall, heq⟩
    · obtain ⟨e, he, hsave⟩ := hsaved
      exact ⟨e, List.mem_cons_of_mem x he, hsave⟩

theorem refreshDead_of_since {before : List TokenEvent} {ok : Guard Tokens TimedCall TokenEvent}
    (hrun : tokenCalls.Run ok .empty (later ++ before) s) (h : RefreshDead v (after before))
    (hlater : ¬SavedRefresh v later) : RefreshDead v s := by
  induction later generalizing s with
  | nil => exact (eq_after hrun) ▸ h
  | cons x later ih =>
    obtain ⟨t, i, ht, -, hstep⟩ := hrun.last
    have hdead := ih ht fun hsaved => hlater ?_
    · obtain ⟨rfl, rfl⟩ := Prod.mk.inj hstep
      refine hdead.call fun token hcall heq => hlater ?_
      exact ⟨_, List.mem_cons_self, token, hcall, heq⟩
    · obtain ⟨e, he, hsave⟩ := hsaved
      exact ⟨e, List.mem_cons_of_mem x he, hsave⟩

theorem savedBy_of_savedAccess (h : SavedAccess v history) :
    ∃ e ∈ history, savedBy e.call = some v := by
  obtain ⟨e, he, token, hcall, hv⟩ := h
  exact ⟨e, he, by rw [hcall, savedBy, hv]⟩

theorem savedBy_of_savedRefresh (h : SavedRefresh v history) :
    ∃ e ∈ history, savedBy e.call = some v := by
  obtain ⟨e, he, token, hcall, hv⟩ := h
  exact ⟨e, he, by rw [hcall, savedBy, hv]⟩

theorem accessDead_revokeAccessToken (s : Tokens) (now : Int) (v revokedBy : String) :
    AccessDead v (revokeAccessToken now v revokedBy s) := by
  intro it hlookup
  simp only [revokeAccessToken, Dict.lookup_mapValues, if_true, Option.map_eq_some_iff] at hlookup
  obtain ⟨it₀, -, rfl⟩ := hlookup
  rfl

theorem refreshDead_revokeRefreshToken (s : Tokens) (v : String) :
    RefreshDead v (revokeRefreshToken v s) := by
  intro rt hlookup
  simp only [revokeRefreshToken, Dict.lookup_mapValues, if_true, Option.map_eq_some_iff] at hlookup
  obtain ⟨rt₀, -, rfl⟩ := hlookup
  rfl

/-- After the chain both records of the value are revoked or gone. -/
theorem dead_of_chain
    (hrun : tokenCalls.Run FreshValues .empty (e :: past) s) (h : ChainRevoked v past e.call) :
    AccessDead v s ∧ RefreshDead v s := by
  obtain ⟨hcall, mid, e', before, rfl, ⟨revokedBy, hcall'⟩, hsaved⟩ := h
  have hs := eq_after hrun
  rw [after, hcall] at hs
  obtain ⟨t, i, ht, -, -⟩ := hrun.last
  have hmid : ¬SavedAccess v mid := by
    rcases hsaved with hbefore | hrefresh
    · obtain ⟨x, hx, hv⟩ := savedBy_of_savedAccess hbefore
      intro hmid
      obtain ⟨y, hy, hv'⟩ := savedBy_of_savedAccess hmid
      exact savedBy_ne_of_fresh ht (List.mem_cons_of_mem e' hx) hv y hy hv'
    · intro hmid
      refine not_savedAccess_of_savedRefresh ht hrefresh ?_
      obtain ⟨y, hy, hsave⟩ := hmid
      exact ⟨y, List.mem_append_left _ hy, hsave⟩
  have hdead : AccessDead v (after (e' :: before)) := by
    rw [after, hcall']
    exact accessDead_revokeAccessToken _ _ _ _
  have hpast : AccessDead v (after (mid ++ e' :: before)) :=
    eq_after ht ▸ accessDead_of_since ht hdead hmid
  rw [hs]
  exact ⟨hpast, refreshDead_revokeRefreshToken _ _⟩

theorem lookup_none_of_not_saved
    (hrun : tokenCalls.Run FreshValues .empty history s) (h : ¬SavedAccess v history) :
    s.accessTokens.lookup v = none := by
  cases hlookup : s.accessTokens.lookup v with
  | none => rfl
  | some it => exact absurd ((recorded_of_run hrun).access v it hlookup) h

/-- After the revocation of a family, so are those of a value of the family. -/
theorem dead_of_family
    (hrun : tokenCalls.Run FreshValues .empty (e :: past) s) (h : FamilyRevoked v past e.call) :
    AccessDead v s ∧ RefreshDead v s := by
  obtain ⟨familyId, hcall, hmember⟩ := h
  obtain ⟨t, i, ht, -, -⟩ := hrun.last
  have hs := eq_after hrun
  rw [after, hcall, ← eq_after ht] at hs
  have hrecorded := recorded_of_run ht
  change s = revokeTokenFamily familyId t at hs
  rw [hs]
  rcases hmember with ⟨x, hx, token, hsave, hv, hfamily⟩ | ⟨haccess, hreached⟩
  · -- The value is that of a refresh token, and of nothing else.
    have hnone : t.accessTokens.lookup v = none := by
      refine lookup_none_of_not_saved ht ?_
      exact not_savedAccess_of_savedRefresh ht ⟨x, hx, token, hsave, hv⟩
    refine ⟨?_, ?_⟩
    · intro it hit
      rw [revokeTokenFamily, Dict.lookup_mapValues, hnone] at hit
      cases hit
    · intro rt hrt
      simp only [revokeTokenFamily, Dict.lookup_mapValues, Option.map_eq_some_iff] at hrt
      obtain ⟨rt₀, hbefore, rfl⟩ := hrt
      obtain ⟨y, hy, token', hsave', hv', hsame⟩ := hrecorded.refresh v rt₀ hbefore
      have hsaved : savedBy x.call = some v := by rw [hsave, savedBy, hv]
      have hsaved' : savedBy y.call = some v := by rw [hsave', savedBy, hv']
      have heq : y = x := saved_once ht hy hx hsaved' hsaved
      rw [heq, hsave] at hsave'
      cases hsave'
      rw [if_pos (hsame.symm.trans hfamily)]
  · refine ⟨?_, ?_⟩
    · rcases hreached with hdead | ⟨k, rt, hlookup, hfamily, href⟩
      · rw [← eq_after ht] at hdead
        have hkept : AccessDead v (call e.now t (.revokeTokenFamily familyId)).2 :=
          hdead.call fun token hsave => by cases hsave
        exact hkept
      · intro it hit
        simp only [revokeTokenFamily, Dict.lookup_mapValues, Option.map_eq_some_iff] at hit
        obtain ⟨it₀, -, rfl⟩ := hit
        have hany : (t.refreshTokens.anyValue fun rt =>
            decide (rt.familyId = familyId ∧ rt.accessToken = v)) = true := by
          rw [← eq_after ht] at hlookup
          refine List.any_eq_true.mpr ⟨⟨k, rt⟩, AList.mem_lookup_iff.mp hlookup, ?_⟩
          exact decide_eq_true ⟨hfamily, href⟩
        rw [if_pos hany]
    · intro rt' hrt
      simp only [revokeTokenFamily, Dict.lookup_mapValues, Option.map_eq_some_iff] at hrt
      obtain ⟨rt₀, hbefore, -⟩ := hrt
      obtain ⟨y, hy, token', hsave', hv', -⟩ := hrecorded.refresh v rt₀ hbefore
      exact absurd haccess (not_savedAccess_of_savedRefresh ht ⟨y, hy, token', hsave', hv'⟩)

theorem savedBy_of_chain (h : ChainRevoked v past c) : ∃ e ∈ past, savedBy e.call = some v := by
  obtain ⟨-, mid, e, before, rfl, -, hsaved⟩ := h
  rcases hsaved with hbefore | hrefresh
  · obtain ⟨x, hx, hv⟩ := savedBy_of_savedAccess hbefore
    exact ⟨x, List.mem_append_right _ (List.mem_cons_of_mem e hx), hv⟩
  · exact savedBy_of_savedRefresh hrefresh

theorem savedBy_of_family (h : FamilyRevoked v past c) : ∃ e ∈ past, savedBy e.call = some v := by
  obtain ⟨familyId, -, ⟨x, hx, token, hsave, hv, -⟩ | ⟨haccess, -⟩⟩ := h
  · exact savedBy_of_savedRefresh ⟨x, hx, token, hsave, hv⟩
  · exact savedBy_of_savedAccess haccess

/-- The records of a revoked value are revoked or gone from then on. -/
theorem dead_of_revoked
    (hrun : tokenCalls.Run FreshValues .empty (later ++ e :: past) s)
    (h : ChainRevoked v past e.call ∨ FamilyRevoked v past e.call) :
    AccessDead v s ∧ RefreshDead v s := by
  obtain ⟨first, hfirst, hv⟩ := h.elim savedBy_of_chain savedBy_of_family
  have hlater := savedBy_ne_of_fresh hrun (List.mem_cons_of_mem e hfirst) hv
  obtain ⟨t, ht⟩ := hrun.shorter
  have hdead : AccessDead v t ∧ RefreshDead v t :=
    h.elim (dead_of_chain ht) (dead_of_family ht)
  rw [eq_after ht] at hdead
  refine ⟨accessDead_of_since hrun hdead.1 ?_, refreshDead_of_since hrun hdead.2 ?_⟩
  · intro hsaved
    obtain ⟨x, hx, hsame⟩ := savedBy_of_savedAccess hsaved
    exact hlater x hx hsame
  · intro hsaved
    obtain ⟨x, hx, hsame⟩ := savedBy_of_savedRefresh hsaved
    exact hlater x hx hsame

/-- Whatever is called later, at whatever times, a revoked value is not handed out again. -/
theorem revoked_for_good
    (hrun : tokenCalls.Run FreshValues .empty (later ++ e :: past) s)
    (h : ChainRevoked v past e.call ∨ FamilyRevoked v past e.call) :
    ∀ x ∈ later, handsOut v x = false := by
  induction later generalizing s with
  | nil =>
    intro x hx
    cases hx
  | cons x later ih =>
    obtain ⟨t, i, ht, -, hstep⟩ := hrun.last
    intro y hy
    rcases List.mem_cons.mp hy with rfl | hy
    · have hdead : AccessDead v t ∧ RefreshDead v t := dead_of_revoked ht h
      obtain ⟨rfl, rfl⟩ := Prod.mk.inj hstep
      exact handsOut_eq_false hdead.1 hdead.2 i.now i.call
    · exact ih ht y hy

instance (history : List TokenEvent) (s : Tokens) (i : TimedCall) :
    Decidable (FreshValues history s i) :=
  inferInstanceAs (Decidable (∀ v ∈ savedBy i.call, ∀ e ∈ history, savedBy e.call ≠ some v))

theorem run_of (inputs : List TimedCall) (h : tokenCalls.Guarded FreshValues [] .empty inputs) :
    tokenCalls.Run FreshValues .empty (tokenCalls.exec [] .empty inputs).1
      (tokenCalls.exec [] .empty inputs).2 :=
  Machine.Run.exec_of_guarded .init inputs h

def sampleAccess : OAuth2AccessToken :=
  { token := "at", clientId := "app", userId := "7", scope := "openid", expiresAt := 86400
    issuedAt := 1, notBefore := 1 }

def sampleRefresh : OAuth2RefreshToken :=
  { token := "rt", accessToken := "at", clientId := "app", userId := "7", scope := "openid"
    expiresAt := 3600, familyId := "family" }

def issuedPair : List TimedCall :=
  [⟨0, .saveAccessToken sampleAccess⟩, ⟨0, .saveRefreshToken sampleRefresh⟩]

def called (inputs : List TimedCall) : List TokenEvent :=
  (tokenCalls.exec [] .empty inputs).1

/-- The refresh token of a pair through the endpoint's chain, its access token through the family. -/
theorem revoked_for_good_pair :
    (∀ x ∈ [(⟨⟨2, .introspectToken "rt"⟩, .introspection { active := false }⟩ : TokenEvent)],
        handsOut "rt" x = false) ∧
      ∀ x ∈ [(⟨⟨2, .getAccessToken "at"⟩, .access none⟩ : TokenEvent)],
        handsOut "at" x = false := by
  refine ⟨?_, ?_⟩
  · have hcalls := run_of (issuedPair ++ [⟨1, .revokeAccessToken "rt" "app"⟩,
      ⟨1, .revokeRefreshToken "rt"⟩, ⟨2, .introspectToken "rt"⟩]) (by decide +kernel)
    have hrun : tokenCalls.Run FreshValues .empty
        ([⟨⟨2, .introspectToken "rt"⟩, .introspection { active := false }⟩] ++
          ⟨⟨1, .revokeRefreshToken "rt"⟩, .done⟩ ::
            ⟨⟨1, .revokeAccessToken "rt" "app"⟩, .done⟩ :: called issuedPair) _ := hcalls
    refine revoked_for_good hrun (.inl ⟨rfl, [], _, called issuedPair, rfl, ⟨"app", rfl⟩, .inr ?_⟩)
    exact ⟨_, List.mem_cons_of_mem _ List.mem_cons_self, sampleRefresh, rfl, rfl⟩
  · have hcalls := run_of (issuedPair ++ [⟨1, .revokeTokenFamily "family"⟩,
      ⟨2, .getAccessToken "at"⟩]) (by decide +kernel)
    have hrun : tokenCalls.Run FreshValues .empty
        ([⟨⟨2, .getAccessToken "at"⟩, .access none⟩] ++
          ⟨⟨1, .revokeTokenFamily "family"⟩, .done⟩ :: called issuedPair) _ := hcalls
    refine revoked_for_good hrun
      (.inr ⟨"family", rfl, .inr ⟨?_, .inr ⟨"rt", sampleRefresh, by decide +kernel, rfl, rfl⟩⟩⟩)
    exact ⟨_, List.mem_cons_of_mem _ List.mem_cons_self, sampleAccess, rfl, rfl⟩

/-! ### Revocations that do not reach their value -/

/-- The value was sent through the two calls of the endpoint's chain. -/
def ChainCalled (v : String) (past : List TokenEvent) (c : TokenCall) : Prop :=
  c = .revokeRefreshToken v ∧ ∃ e ∈ past, ∃ revokedBy, e.call = .revokeAccessToken v revokedBy

/-- A refresh token was saved in the family, with this value or for this access token. -/
def InFamily (v familyId : String) (history : List TokenEvent) : Prop :=
  ∃ e ∈ history, ∃ token, e.call = .saveRefreshToken token ∧ token.familyId = familyId ∧
    (token.token = v ∨ token.accessToken = v)

/-- Handed out all the same: a token saved after its value went through the chain, a token saved in
a family that had been revoked, and the access token of a family whose expired refresh token had been
purged. -/
theorem handed_out_after_revocation :
    (∃ later e past s, tokenCalls.Run FreshValues .empty (later ++ e :: past) s ∧
      ChainCalled "at" past e.call ∧ ∃ x ∈ later, handsOut "at" x = true) ∧
    (∃ later e past s, tokenCalls.Run FreshValues .empty (later ++ e :: past) s ∧
      e.call = .revokeTokenFamily "family" ∧ InFamily "rt" "family" (later ++ e :: past) ∧
      ∃ x ∈ later, handsOut "rt" x = true) ∧
    ∃ later e past s, tokenCalls.Run FreshValues .empty (later ++ e :: past) s ∧
      e.call = .revokeTokenFamily "family" ∧ InFamily "at" "family" past ∧
      ∃ x ∈ later, handsOut "at" x = true := by
  refine ⟨?_, ?_, ?_⟩
  · have hrun := run_of [⟨0, .revokeAccessToken "at" "app"⟩, ⟨0, .revokeRefreshToken "at"⟩,
      ⟨1, .saveAccessToken sampleAccess⟩, ⟨2, .getAccessToken "at"⟩] (by decide +kernel)
    refine ⟨[⟨⟨2, .getAccessToken "at"⟩, .access (some sampleAccess)⟩,
        ⟨⟨1, .saveAccessToken sampleAccess⟩, .done⟩], ⟨⟨0, .revokeRefreshToken "at"⟩, .done⟩,
      [⟨⟨0, .revokeAccessToken "at" "app"⟩, .done⟩], _, hrun, ?_, by decide +kernel⟩
    exact ⟨rfl, _, List.mem_cons_self, "app", rfl⟩
  · have hrun := run_of [⟨0, .revokeTokenFamily "family"⟩, ⟨1, .saveRefreshToken sampleRefresh⟩,
      ⟨2, .getRefreshToken "rt"⟩] (by decide +kernel)
    refine ⟨[⟨⟨2, .getRefreshToken "rt"⟩, .refresh (some sampleRefresh)⟩,
        ⟨⟨1, .saveRefreshToken sampleRefresh⟩, .done⟩],
      ⟨⟨0, .revokeTokenFamily "family"⟩, .done⟩, [], _, hrun, rfl, ?_, by decide +kernel⟩
    exact ⟨_, List.mem_cons_of_mem _ List.mem_cons_self, sampleRefresh, rfl, rfl, .inl rfl⟩
  · have hrun := run_of (issuedPair ++ [⟨4000, .purgeExpired⟩,
      ⟨4001, .revokeTokenFamily "family"⟩, ⟨4002, .getAccessToken "at"⟩]) (by decide +kernel)
    refine ⟨[⟨⟨4002, .getAccessToken "at"⟩, .access (some sampleAccess)⟩],
      ⟨⟨4001, .revokeTokenFamily "family"⟩, .done⟩,
      ⟨⟨4000, .purgeExpired⟩, .done⟩ :: called issuedPair, _, hrun, rfl, ?_, by decide +kernel⟩
    exact ⟨_, List.mem_cons_of_mem _ List.mem_cons_self, sampleRefresh, rfl, rfl, .inr rfl⟩

end AuthForge.PermanentRevocation
