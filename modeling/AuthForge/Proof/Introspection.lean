import AuthForge.Storage.MemoryCalls
import AuthForge.Storage.Postgres

/-!
# Introspection and validation

A resource server asks `introspectToken`, the userinfo endpoint asks `validateAccessToken`, and both
compare an expiry with the clock. The in-memory repository compares strictly when it hands a token out
and not strictly when it introspects it, so the two differ at the instant of expiry. An access token
string is one whose hash names an access token, or no refresh token.
-/

namespace AuthForge.Introspection

open OAuth2 Storage

variable (svc : TokenService)

/-- `TokenService::introspectToken`. -/
def introspectToken (repository : String → TokenIntrospection) (token : String) :
    TokenIntrospection :=
  repository (hashToken svc.crypto token)

/-- A token is introspected as active at a time exactly if it is accepted at that time. -/
def Agree (introspect : String → TokenIntrospection)
    (getAccessToken : String → Option OAuth2AccessToken) (now : Int) (token : String) : Prop :=
  (introspectToken svc introspect token).active = true ↔
    (svc.validateAccessToken getAccessToken now token).isSome = true

def MemoryAgrees (s : Memory.Tokens) (now : Int) (token : String) : Prop :=
  Agree svc (Memory.introspectToken now · s) (Memory.getAccessToken now · s) now token

def PostgresAgrees (faults : Postgres.CallFaults) (T : Postgres.TokenTables) (now : Int)
    (token : String) : Prop :=
  Agree svc (Postgres.introspectToken now faults · T) (Postgres.getAccessToken faults · T) now token

instance (s : Memory.Tokens) (now : Int) (token : String) : Decidable (MemoryAgrees svc s now token) :=
  inferInstanceAs (Decidable (_ ↔ _))

/-! ### When each operation takes a token -/

variable {svc} {now : Int} {token key : String}

theorem validateAccessToken_isSome_iff {get : String → Option OAuth2AccessToken} :
    (svc.validateAccessToken get now token).isSome = true ↔
      ∃ t, get (hashToken svc.crypto token) = some t ∧ t.revoked = false ∧ now ≤ t.expiresAt := by
  rw [Option.isSome_iff_exists]
  exact exists_congr fun t => TokenService.checkAccessToken_eq_some_iff

section Memory

variable {s : Memory.Tokens}

theorem memory_accepts_iff :
    (svc.validateAccessToken (Memory.getAccessToken now · s) now token).isSome = true ↔
      ∃ it, s.accessTokens.lookup (hashToken svc.crypto token) = some it ∧ it.revoked = false ∧
        now < it.expiresAt := by
  rw [validateAccessToken_isSome_iff]
  constructor
  · intro h
    obtain ⟨t, hget, -, -⟩ := h
    unfold Memory.getAccessToken at hget
    split at hget
    · cases hget
    · rename_i it hlookup
      split at hget
      · rename_i hlive
        exact ⟨it, hlookup, hlive.2, hlive.1⟩
      · cases hget
  · intro h
    obtain ⟨it, hlookup, hrevoked, hlive⟩ := h
    refine ⟨it, ?_, hrevoked, by omega⟩
    simp only [Memory.getAccessToken, hlookup]
    exact if_pos ⟨hlive, hrevoked⟩

/-- What is not a refresh token is active as a live access token, through its last second. -/
theorem memory_active_iff (now : Int) (h : key ∈ s.accessTokens ∨ key ∉ s.refreshTokens) :
    (Memory.introspectToken now key s).active = true ↔
      ∃ it, s.accessTokens.lookup key = some it ∧ it.revoked = false ∧ now ≤ it.expiresAt := by
  unfold Memory.introspectToken
  cases haccess : s.accessTokens.lookup key with
  | none =>
    have hrefresh : s.refreshTokens.lookup key = none := by
      rw [AList.lookup_eq_none] at haccess ⊢
      exact h.resolve_left haccess
    simp [hrefresh]
  | some it =>
    by_cases hdead : it.revoked = true ∨ it.expiresAt < now
    · simp only [if_pos hdead, Bool.false_eq_true, false_iff]
      intro hlive
      obtain ⟨_, hit, hrevoked, hlive⟩ := hlive
      obtain rfl := Option.some.inj hit
      rcases hdead with hdead | hdead
      · rw [hrevoked] at hdead
        cases hdead
      · omega
    · simp only [if_neg hdead, true_iff]
      simp only [not_or, Bool.not_eq_true, not_lt] at hdead
      exact ⟨it, rfl, hdead⟩

end Memory

section Postgres

variable {faults : Postgres.CallFaults} {T : Postgres.TokenTables}

theorem postgres_accepts_iff :
    (svc.validateAccessToken (Postgres.getAccessToken faults · T) now token).isSome = true ↔
      ∃ row, Postgres.findAccessToken faults (hashToken svc.crypto token) T = some row ∧
        row.revoked = false ∧ now ≤ row.expiresAt := by
  rw [validateAccessToken_isSome_iff]
  constructor
  · intro h
    obtain ⟨t, hget, hrevoked, hlive⟩ := h
    obtain ⟨row, hrow, rfl⟩ := Option.map_eq_some_iff.mp hget
    exact ⟨row, hrow, hrevoked, hlive⟩
  · intro h
    obtain ⟨row, hrow, hrevoked, hlive⟩ := h
    refine ⟨_, congrArg (Option.map _) hrow, hrevoked, hlive⟩

theorem postgres_active_iff (now : Int)
    (h : (faults.access = false ∧ key ∈ T.oauth2AccessTokens) ∨ key ∉ T.oauth2RefreshTokens) :
    (Postgres.introspectToken now faults key T).active = true ↔
      ∃ row, Postgres.findAccessToken faults key T = some row ∧ row.revoked = false ∧
        now ≤ row.expiresAt := by
  unfold Postgres.introspectToken
  cases haccess : Postgres.findAccessToken faults key T with
  | none =>
    have hrefresh : Postgres.findRefreshToken faults key T = none := by
      rcases h with ⟨hfaults, hmem⟩ | h
      · rw [Postgres.findAccessToken, hfaults] at haccess
        exact absurd hmem (AList.lookup_eq_none.mp haccess)
      · rw [Postgres.findRefreshToken, AList.lookup_eq_none.mpr h, ite_self]
    simp [hrefresh]
  | some row =>
    by_cases hdead : row.revoked = true ∨ row.expiresAt < now
    · simp only [if_pos hdead, Bool.false_eq_true, false_iff]
      intro hlive
      obtain ⟨_, hrow, hrevoked, hlive⟩ := hlive
      obtain rfl := Option.some.inj hrow
      rcases hdead with hdead | hdead
      · rw [hrevoked] at hdead
        cases hdead
      · omega
    · simp only [if_neg hdead, true_iff]
      simp only [not_or, Bool.not_eq_true, not_lt] at hdead
      exact ⟨row, rfl, hdead⟩

end Postgres

/-! ### The two operations side by side -/

variable {s : Memory.Tokens} {T : Postgres.TokenTables} {faults : Postgres.CallFaults}

/-- A token that is not revoked and whose lifetime ends at this very second. -/
def EndsNow (s : Memory.Tokens) (now : Int) (key : String) : Prop :=
  ∃ it, s.accessTokens.lookup key = some it ∧ it.revoked = false ∧ it.expiresAt = now

theorem memoryAgrees_iff
    (h : hashToken svc.crypto token ∈ s.accessTokens ∨
      hashToken svc.crypto token ∉ s.refreshTokens) :
    MemoryAgrees svc s now token ↔ ¬EndsNow s now (hashToken svc.crypto token) := by
  have hactive := memory_active_iff now h
  rw [MemoryAgrees, Agree, memory_accepts_iff, introspectToken, hactive]
  constructor
  · intro hagree hends
    obtain ⟨it, hlookup, hrevoked, hnow⟩ := hends
    obtain ⟨it', hlookup', -, hlive⟩ := hagree.mp ⟨it, hlookup, hrevoked, by omega⟩
    rw [hlookup] at hlookup'
    obtain rfl := Option.some.inj hlookup'
    omega
  · intro hends
    constructor
    · intro hlive
      obtain ⟨it, hlookup, hrevoked, hle⟩ := hlive
      have hne : it.expiresAt ≠ now := fun heq => hends ⟨it, hlookup, hrevoked, heq⟩
      exact ⟨it, hlookup, hrevoked, by omega⟩
    · intro hlive
      obtain ⟨it, hlookup, hrevoked, hlt⟩ := hlive
      exact ⟨it, hlookup, hrevoked, by omega⟩

variable (svc now token s T faults) in
/-- Over the in-memory repository introspection and validation agree on an access token unless it
ends now; over the tables they always do. -/
theorem introspection_agrees_iff
    (hmemory : hashToken svc.crypto token ∈ s.accessTokens ∨
      hashToken svc.crypto token ∉ s.refreshTokens)
    (htables : (faults.access = false ∧ hashToken svc.crypto token ∈ T.oauth2AccessTokens) ∨
      hashToken svc.crypto token ∉ T.oauth2RefreshTokens) :
    (MemoryAgrees svc s now token ↔ ¬EndsNow s now (hashToken svc.crypto token)) ∧
      PostgresAgrees svc faults T now token := by
  refine ⟨memoryAgrees_iff hmemory, ?_⟩
  have hactive := postgres_active_iff now htables
  exact hactive.trans postgres_accepts_iff.symm

/-! ### A token in its last second -/

def lastSecond : OAuth2AccessToken where
  token := hashToken knownCrypto (knownToken 0)
  clientId := "spa"
  userId := "7"
  scope := "openid"
  expiresAt := 1000

def memoryOfOne : Memory.Tokens := ⟨AList.singleton lastSecond.token lastSecond, ∅⟩

def tablesOfOne : Postgres.TokenTables := ⟨AList.singleton lastSecond.token lastSecond, ∅⟩

/-- At its expiry the token is introspected as active and not accepted. -/
theorem lastSecond_disagrees : ¬MemoryAgrees knownService memoryOfOne 1000 (knownToken 0) := by
  decide +kernel

theorem introspection_agrees_before_expiry :
    MemoryAgrees knownService memoryOfOne 999 (knownToken 0) ∧
      PostgresAgrees knownService {} tablesOfOne 999 (knownToken 0) := by
  have hmem : hashToken knownService.crypto (knownToken 0) ∈ memoryOfOne.accessTokens := by
    decide +kernel
  obtain ⟨hiff, htables⟩ := introspection_agrees_iff knownService 999 (knownToken 0)
    memoryOfOne tablesOfOne {} (.inl hmem) (.inl ⟨rfl, hmem⟩)
  refine ⟨hiff.mpr ?_, htables⟩
  intro hends
  obtain ⟨it, hit, -, hnow⟩ := hends
  have hlast : memoryOfOne.accessTokens.lookup (hashToken knownService.crypto (knownToken 0)) =
      some lastSecond := by
    decide +kernel
  rw [hlast] at hit
  obtain rfl := Option.some.inj hit
  cases hnow

end AuthForge.Introspection
