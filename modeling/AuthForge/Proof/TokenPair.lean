import AuthForge.Storage.TokenPair

/-!
# A token pair is saved as a whole

The sessions of one call go through a fixed row of stages: the transaction, the two inserts, the
commit. Each outcome leads to the next stage or to the end with the answer `false`; the answer `true`
comes from the commit alone.
-/

namespace AuthForge.TokenPair

open OAuth2 Storage.Postgres Storage.Postgres.TokenPair

variable {now : Int} {access : OAuth2AccessToken} {refresh : OAuth2RefreshToken}
  {before after : TokenTables}

/-- The row of an access token carries what the pair says. -/
structure AccessCarried (access row : OAuth2AccessToken) : Prop where
  token : row.token = access.token
  clientId : row.clientId = access.clientId
  userId : row.userId = access.userId
  scope : row.scope = access.scope
  expiresAt : row.expiresAt = access.expiresAt
  revoked : row.revoked = access.revoked
  issuer : row.issuer = access.issuer

structure RefreshCarried (refresh row : OAuth2RefreshToken) : Prop where
  token : row.token = refresh.token
  accessToken : row.accessToken = refresh.accessToken
  clientId : row.clientId = refresh.clientId
  userId : row.userId = refresh.userId
  scope : row.scope = refresh.scope
  expiresAt : row.expiresAt = refresh.expiresAt
  revoked : row.revoked = refresh.revoked
  familyId : row.familyId = refresh.familyId

/-- Both rows are new, and nothing else is. -/
def BothCommitted (access : OAuth2AccessToken) (refresh : OAuth2RefreshToken)
    (before after : TokenTables) : Prop :=
  (access.token ∉ before.oauth2AccessTokens ∧
    ∃ row, AccessCarried access row ∧
      after.oauth2AccessTokens = before.oauth2AccessTokens.insert access.token row) ∧
  refresh.token ∉ before.oauth2RefreshTokens ∧
    ∃ row, RefreshCarried refresh row ∧
      after.oauth2RefreshTokens = before.oauth2RefreshTokens.insert refresh.token row

theorem BothCommitted.changed (h : BothCommitted access refresh before after) : after ≠ before := by
  intro heq
  obtain ⟨⟨hnew, row, -, hrow⟩, -⟩ := h
  rw [heq] at hrow
  refine hnew ?_
  rw [hrow]
  exact (AList.mem_insert _).mpr (.inl rfl)

/-! ### The statements -/

theorem insertAccessToken_eq (h : insertAccessToken now access before = some after) :
    access.token ∉ before.oauth2AccessTokens ∧
      after = { before with oauth2AccessTokens :=
        before.oauth2AccessTokens.insert access.token (accessTokenRow now access) } := by
  unfold insertAccessToken at h
  split at h
  · cases h
  · rename_i hnew
    exact ⟨hnew, (Option.some.inj h).symm⟩

theorem insertRefreshToken_eq {familyId : Option String}
    (hfamily : familyId.getD "" = refresh.familyId)
    (h : insertRefreshToken refresh familyId before = some after) :
    refresh.token ∉ before.oauth2RefreshTokens ∧
      after = { before with oauth2RefreshTokens :=
        before.oauth2RefreshTokens.insert refresh.token (refreshTokenRow refresh) } := by
  unfold insertRefreshToken at h
  split at h
  · cases h
  · rename_i hnew
    rw [hfamily] at h
    exact ⟨hnew, (Option.some.inj h).symm⟩

/-- The statement that stores the refresh token; either form stores the family. -/
def refreshStatement (refresh : OAuth2RefreshToken) (s : TokenTables) : Option TokenTables :=
  insertRefreshToken refresh (if refresh.familyId = "" then none else some refresh.familyId) s

theorem onAccessTokenSaved_eq (refresh : OAuth2RefreshToken) :
    onAccessTokenSaved refresh =
      .execSqlAsync (refreshStatement refresh) .done (invokeOnce false) .done := by
  unfold onAccessTokenSaved refreshStatement
  split <;> rfl

theorem familyId_eq (refresh : OAuth2RefreshToken) :
    (if refresh.familyId = "" then none else some refresh.familyId).getD "" = refresh.familyId := by
  split
  · rename_i hempty
    exact hempty.symm
  · rfl

/-- Both inserts one after the other are the atomic call on the tables. -/
theorem inserts_eq {view : TokenTables} (haccess : insertAccessToken now access before = some view)
    (hrefresh : refreshStatement refresh view = some after) :
    BothCommitted access refresh before after ∧
      Storage.Postgres.saveTokenPair { now } access refresh before = (true, after) := by
  obtain ⟨hnew, rfl⟩ := insertAccessToken_eq haccess
  obtain ⟨hfresh, rfl⟩ := insertRefreshToken_eq (familyId_eq refresh) hrefresh
  have hfresh : refresh.token ∉ before.oauth2RefreshTokens := hfresh
  refine ⟨⟨⟨hnew, _, ?_, rfl⟩, hfresh, _, ?_, rfl⟩, ?_⟩
  · exact ⟨rfl, rfl, rfl, rfl, rfl, rfl, rfl⟩
  · exact ⟨rfl, rfl, rfl, rfl, rfl, rfl, rfl, rfl⟩
  · simp [Storage.Postgres.saveTokenPair, hnew, hfresh]

/-! ### The stages of a session -/

/-- The sessions of one call, and how many answers of the database they wait for at most. -/
inductive Stage (now : Int) (access : OAuth2AccessToken) (refresh : OAuth2RefreshToken)
    (before : TokenTables) : PairSession → Nat → Prop
  | acquiring (n : Nat) (hdue : 4 ≤ n) :
    Stage now access refresh before
      ⟨false, [], before, .acquiring (onTransaction now access refresh)⟩ n
  | savingAccess (n : Nat) (hdue : 3 ≤ n) :
    Stage now access refresh before
      ⟨false, [], before, .active before
        [⟨insertAccessToken now access, onAccessTokenSaved refresh, invokeOnce false⟩] invokeOnce⟩ n
  | savingRefresh (n : Nat) (hdue : 2 ≤ n) {view : TokenTables}
      (haccess : insertAccessToken now access before = some view) :
    Stage now access refresh before
      ⟨false, [], before,
        .active view [⟨refreshStatement refresh, .done, invokeOnce false⟩] invokeOnce⟩ n
  | committing (n : Nat) (hdue : 1 ≤ n) {view after : TokenTables}
      (haccess : insertAccessToken now access before = some view)
      (hrefresh : refreshStatement refresh view = some after) :
    Stage now access refresh before ⟨false, [], before, .active after [] invokeOnce⟩ n
  | failed (n : Nat) (invoked : Bool) :
    Stage now access refresh before ⟨invoked, [false], before, .over []⟩ n
  | saved (n : Nat) {view after : TokenTables}
      (haccess : insertAccessToken now access before = some view)
      (hrefresh : refreshStatement refresh view = some after) :
    Stage now access refresh before ⟨true, [true], after, .over []⟩ n

theorem stage_start (hasClient : Bool) (now : Int) (access : OAuth2AccessToken)
    (refresh : OAuth2RefreshToken) (before : TokenTables) :
    Stage now access refresh before
      (TokenPair.saveTokenPair hasClient now access refresh before) 4 := by
  cases hasClient with
  | false => exact .failed 4 false
  | true => exact .acquiring 4 (Nat.le_refl 4)

theorem stage_step (s : PairSession) (n : Nat) (ok : Bool)
    (h : Stage now access refresh before s n) :
    Stage now access refresh before (s.step ok) (n - 1) := by
  cases h with
  | acquiring _ hdue =>
    cases ok with
    | false => exact .failed _ true
    | true => exact .savingAccess _ (by omega)
  | savingAccess _ hdue =>
    cases ok with
    | false => exact .failed _ true
    | true =>
      cases haccess : insertAccessToken now access before with
      | none =>
        rw [TransactionSession.step_of_refused (.inr haccess)]
        exact .failed _ true
      | some view =>
        rw [TransactionSession.step_of_executed haccess, onAccessTokenSaved_eq]
        exact .savingRefresh _ (by omega) haccess
  | @savingRefresh _ hdue view haccess =>
    cases ok with
    | false => exact .failed _ true
    | true =>
      cases hrefresh : refreshStatement refresh view with
      | none =>
        rw [TransactionSession.step_of_refused (.inr hrefresh)]
        exact .failed _ true
      | some after =>
        rw [TransactionSession.step_of_executed hrefresh]
        exact .committing _ (by omega) haccess hrefresh
  | committing _ hdue haccess hrefresh =>
    cases ok with
    | false => exact .failed _ true
    | true => exact .saved _ haccess hrefresh
  | failed _ invoked => exact .failed _ invoked
  | saved _ haccess hrefresh => exact .saved _ haccess hrefresh

/-- Where a session can be after some outcomes, and it is over after four. -/
theorem stage_run (hasClient : Bool) (now : Int) (access : OAuth2AccessToken)
    (refresh : OAuth2RefreshToken) (before : TokenTables) (outcomes : List Bool) :
    Stage now access refresh before
      ((TokenPair.saveTokenPair hasClient now access refresh before).run outcomes)
      (4 - outcomes.length) :=
  TransactionSession.run_invariant stage_step (stage_start hasClient now access refresh before)
    outcomes

/-! ### The answer -/

theorem answers_of_stage {s : PairSession} {n : Nat} (h : Stage now access refresh before s n) :
    s.answers.length ≤ 1 ∧ (n = 0 → s.finished = true) ∧
      (s.finished = false → s.answers = []) ∧
      (s.finished = true →
        ∃ ok, s.answers = [ok] ∧ (ok = true → BothCommitted access refresh before s.database) ∧
          (ok = false → s.database = before)) := by
  cases h with
  | acquiring _ hdue | savingAccess _ hdue | savingRefresh _ hdue | committing _ hdue =>
    exact ⟨Nat.zero_le 1, fun h => absurd h (by omega), fun _ => rfl, fun h => Bool.noConfusion h⟩
  | failed _ invoked =>
    exact ⟨Nat.le_refl 1, fun _ => rfl, fun h => Bool.noConfusion h, fun _ =>
      ⟨false, rfl, fun h => Bool.noConfusion h, fun _ => rfl⟩⟩
  | saved _ haccess hrefresh =>
    exact ⟨Nat.le_refl 1, fun _ => rfl, fun h => Bool.noConfusion h, fun _ =>
      ⟨true, rfl, fun _ => (inserts_eq haccess hrefresh).1, fun h => Bool.noConfusion h⟩⟩

/-- The caller is answered at most once at any moment and exactly once in the end, which comes after
four outcomes at most: `true` exactly if both rows are committed, `false` exactly if neither is. -/
theorem token_pair_answer_truthful (hasClient : Bool) (now : Int) (access : OAuth2AccessToken)
    (refresh : OAuth2RefreshToken) (before : TokenTables) (outcomes : List Bool) :
    let s := (TokenPair.saveTokenPair hasClient now access refresh before).run outcomes
    s.answers.length ≤ 1 ∧ (4 ≤ outcomes.length → s.finished = true) ∧
      (s.finished = true →
        ∃ ok, s.answers = [ok] ∧ (ok = true ↔ BothCommitted access refresh before s.database) ∧
          (ok = false ↔ s.database = before)) := by
  intro s
  obtain ⟨hone, hend, -, hanswer⟩ :=
    answers_of_stage (stage_run hasClient now access refresh before outcomes)
  refine ⟨hone, fun h => hend (by omega), ?_⟩
  intro hfinished
  obtain ⟨ok, hok, htrue, hfalse⟩ := hanswer hfinished
  refine ⟨ok, hok, ⟨htrue, ?_⟩, hfalse, ?_⟩
  · intro hboth
    cases ok with
    | true => rfl
    | false => exact absurd (hfalse rfl) hboth.changed
  · intro hsame
    cases ok with
    | false => rfl
    | true => exact absurd hsame (htrue rfl).changed

/-- The refresh token cannot be inserted. -/
theorem token_pair_answer_truthful_rolledBack :
    let access : OAuth2AccessToken := ⟨"at", "app", "42", "openid", 3600, false, 0, "", "", 0, 0, 0, ""⟩
    let refresh : OAuth2RefreshToken := ⟨"rt", "at", "app", "42", "openid", 86400, false, "f", 0, ""⟩
    let s := (TokenPair.saveTokenPair true 0 access refresh ⟨∅, ∅⟩).run [true, true, false, true]
    ∃ ok, s.answers = [ok] ∧ (ok = true ↔ BothCommitted access refresh ⟨∅, ∅⟩ s.database) ∧
      (ok = false ↔ s.database = ⟨∅, ∅⟩) := by
  intro access refresh
  obtain ⟨-, hend, hanswer⟩ :=
    token_pair_answer_truthful true 0 access refresh ⟨∅, ∅⟩ [true, true, false, true]
  exact hanswer (hend (by decide))

/-- The call at the granularity of the token repository: what a finished session answers and leaves
behind, the atomic call does under some environment. -/
theorem session_refines_call {hasClient : Bool} {outcomes : List Bool}
    (hfinished :
      ((TokenPair.saveTokenPair hasClient now access refresh before).run outcomes).finished) :
    ∃ env : Env,
      ((TokenPair.saveTokenPair hasClient now access refresh before).run outcomes).answers =
          [(Storage.Postgres.saveTokenPair env access refresh before).1] ∧
        ((TokenPair.saveTokenPair hasClient now access refresh before).run outcomes).database =
          (Storage.Postgres.saveTokenPair env access refresh before).2 := by
  have hstage := stage_run hasClient now access refresh before outcomes
  revert hstage hfinished
  generalize (TokenPair.saveTokenPair hasClient now access refresh before).run outcomes = s
  intro hfinished hstage
  cases hstage with
  | acquiring | savingAccess | savingRefresh | committing => cases hfinished
  | failed _ invoked => exact ⟨{ fails := true }, by simp [Storage.Postgres.saveTokenPair]⟩
  | saved _ haccess hrefresh =>
    refine ⟨{ now }, ?_⟩
    rw [(inserts_eq haccess hrefresh).2]
    exact ⟨rfl, rfl⟩

end AuthForge.TokenPair
