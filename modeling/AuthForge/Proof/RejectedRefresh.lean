import AuthForge.Storage.Postgres
import AuthForge.Proof.RefreshFamily

/-!
# Refresh requests that are turned down

`refreshAccessToken` takes the presented token out of use by a compare-and-set before it looks at
anything else. Only when that fails does it read the token again and, if it finds it revoked, treats
the request as reuse and revokes the family. Two questions are settled here for the in-memory and
the PostgreSQL token repository: what a request that ends in an error leaves behind, and whether a
token that was rotated away is recognised.
-/

namespace AuthForge.RejectedRefresh

open OAuth2 Storage

/-- A view of a token repository by key, with what the calls of a refresh do to it. -/
structure TokenLedger (t : TokenRepository) where
  access : t.State → String → Option OAuth2AccessToken
  refresh : t.State → String → Option OAuth2RefreshToken
  lost : ∀ {env k s}, (t.atomicRevokeRefreshToken env k s).1 = none →
    (t.atomicRevokeRefreshToken env k s).2 = s
  won : ∀ {env k s rt}, (t.atomicRevokeRefreshToken env k s).1 = some rt →
    ∃ it, refresh s k = some it ∧ it.revoked = false ∧
      access (t.atomicRevokeRefreshToken env k s).2 = access s ∧
      refresh (t.atomicRevokeRefreshToken env k s).2 =
        Function.update (refresh s) k (some { it with revoked := true })
  rolledBack : ∀ {env a r s}, (t.saveTokenPair env a r s).1 = false →
    (t.saveTokenPair env a r s).2 = s

theorem lookup_insert_eq_update {β : Type} (d : Dict String β) (k : String) (v : β) :
    (fun k' => (d.insert k v).lookup k') = Function.update (fun k' => d.lookup k') k (some v) := by
  funext k'
  by_cases hk : k' = k
  · subst hk
    rw [AList.lookup_insert, Function.update_self]
  · rw [AList.lookup_insert_ne hk, Function.update_of_ne hk]

def memoryLedger : TokenLedger Memory.tokenRepository where
  access s k := s.accessTokens.lookup k
  refresh s k := s.refreshTokens.lookup k
  lost h := Memory.atomicRevokeRefreshToken_eq_none h
  won {env k s rt} h := by
    obtain ⟨it, hlookup, hlive, rfl, hs⟩ := Memory.atomicRevokeRefreshToken_eq_some h
    refine ⟨it, hlookup, hlive, ?_, ?_⟩
    · change (fun k' => (Memory.atomicRevokeRefreshToken k s).2.accessTokens.lookup k') = _
      rw [hs]
    · change (fun k' => (Memory.atomicRevokeRefreshToken k s).2.refreshTokens.lookup k') = _
      rw [hs]
      exact lookup_insert_eq_update _ _ _
  rolledBack h := by cases h

def postgresLedger : TokenLedger Postgres.tokenRepository where
  access s k := s.oauth2AccessTokens.lookup k
  refresh s k := s.oauth2RefreshTokens.lookup k
  lost h := Postgres.atomicRevokeRefreshToken_lost h
  won {env k s rt} h := by
    obtain ⟨it, hlookup, hlive, -, hs⟩ := Postgres.atomicRevokeRefreshToken_won h
    refine ⟨it, hlookup, hlive, ?_, ?_⟩
    · change (fun k' =>
        (Postgres.atomicRevokeRefreshToken env k s).2.oauth2AccessTokens.lookup k') = _
      rw [hs]
    · change (fun k' =>
        (Postgres.atomicRevokeRefreshToken env k s).2.oauth2RefreshTokens.lookup k') = _
      rw [hs]
      exact lookup_insert_eq_update _ _ _
  rolledBack {env a r s} h := by
    change (Postgres.saveTokenPair env a r s).1 = false at h
    change (Postgres.saveTokenPair env a r s).2 = s
    unfold Postgres.saveTokenPair at h ⊢
    split at h
    · rename_i hfails
      rw [if_pos hfails]
    · cases h

inductive Backend
  | memory
  | postgres
  deriving DecidableEq

def Backend.repository : Backend → TokenRepository
  | .memory => Memory.tokenRepository
  | .postgres => Postgres.tokenRepository

def Backend.ledger : (b : Backend) → TokenLedger b.repository
  | .memory => memoryLedger
  | .postgres => postgresLedger

abbrev Backend.repos (b : Backend) (clients : ClientRepository) (grants : GrantRepository) :
    Repositories :=
  ⟨clients, grants, b.repository⟩

variable {svc : TokenService} {clients : ClientRepository} {grants : GrantRepository}

/-- The answer to a refresh request that runs alone from the given store, and the store after it. -/
def refreshed (svc : TokenService) {repos : Repositories} (env : Nat → Env)
    (refreshToken clientId : String) (s : Store repos) : Reply × Store repos :=
  let r := Prog.eval Store.exec env 0 (svc.refreshAccessToken refreshToken clientId) s
  (r.1, r.2.1)

def reuseDetected : Reply := TokenService.makeError "invalid_grant" "Token reuse detected"

/-! ### What an error leaves behind -/

/-- The two views agree in every access and refresh token. -/
def Intact {t : TokenRepository} (ledger : TokenLedger t) (before after : t.State) : Prop :=
  ledger.access after = ledger.access before ∧ ledger.refresh after = ledger.refresh before

/-- The two views agree but for the refresh token `k`, which was un-revoked and is revoked now. -/
def TakenOut {t : TokenRepository} (ledger : TokenLedger t) (k : String) (before after : t.State) :
    Prop :=
  ledger.access after = ledger.access before ∧
  ∃ it, ledger.refresh before k = some it ∧ it.revoked = false ∧
    ledger.refresh after = Function.update (ledger.refresh before) k (some { it with revoked := true })

theorem refresh_post {b : Backend} (s : Store (b.repos clients grants))
    (refreshToken clientId : String) :
    (svc.refreshAccessToken refreshToken clientId).Post Store.exec
      (fun reply after => (∃ response, reply = .tokens response) ∨ reply = reuseDetected ∨
        Intact b.ledger s.tokens after.tokens ∨
        TakenOut b.ledger (hashToken svc.crypto refreshToken) s.tokens after.tokens) s := by
  intro env
  rw [Store.exec]
  dsimp only
  split
  · rename_i hlost
    have hs := b.ledger.lost hlost
    intro env'
    rw [Store.exec]
    dsimp only
    split
    · refine .inr (.inr (.inl ?_))
      rw [hs]
      exact ⟨rfl, rfl⟩
    split
    · intro _
      exact .inr (.inl rfl)
    · refine .inr (.inr (.inl ?_))
      rw [hs]
      exact ⟨rfl, rfl⟩
  · rename_i rt hwon
    obtain ⟨it, hstored, hlive, haccess, hrefresh⟩ := b.ledger.won hwon
    have htaken : TakenOut b.ledger (hashToken svc.crypto refreshToken) s.tokens
        (b.repository.atomicRevokeRefreshToken env (hashToken svc.crypto refreshToken)
          s.tokens).2 := ⟨haccess, it, hstored, hlive, hrefresh⟩
    split
    · exact .inr (.inr (.inr htaken))
    intro _
    rw [Store.exec]
    dsimp only
    split
    · exact .inr (.inr (.inr htaken))
    intro _ _ envSave
    rw [Store.exec]
    dsimp only
    split
    · rename_i hrolled
      have hs := b.ledger.rolledBack hrolled
      refine .inr (.inr (.inr ?_))
      rw [hs]
      exact htaken
    · exact .inl ⟨_, rfl⟩

/-- An error other than reuse detection leaves every access token and every other refresh token as
it was, and the presented one too unless it was stored un-revoked. -/
theorem rejected_takes_out_at_most_presented {b : Backend} (s : Store (b.repos clients grants))
    (env : Nat → Env) (refreshToken clientId error description : String)
    (herror : (refreshed svc env refreshToken clientId s).1 = .error error description)
    (hreuse : (refreshed svc env refreshToken clientId s).1 ≠ reuseDetected) :
    Intact b.ledger s.tokens (refreshed svc env refreshToken clientId s).2.tokens ∨
    TakenOut b.ledger (hashToken svc.crypto refreshToken) s.tokens
      (refreshed svc env refreshToken clientId s).2.tokens := by
  rcases (refresh_post s refreshToken clientId).eval env 0 with ⟨response, htokens⟩ | hreply | h
  · rw [show (refreshed svc env refreshToken clientId s).1 = .tokens response from htokens] at herror
    cases herror
  · exact absurd hreply hreuse
  · exact h

/-! ### Whether reuse is recognised -/

def FamilyRevoked (stored : String → Option OAuth2RefreshToken) (familyId : String) : Prop :=
  ∀ k rt, stored k = some rt → rt.familyId = familyId → rt.revoked = true

variable {refreshToken clientId : String} {rt : OAuth2RefreshToken} {env : Nat → Env}

theorem atomicRevoke_of_revoked {b : Backend} {k : String} {e : Env} {s : b.repository.State}
    (hstored : b.ledger.refresh s k = some rt) (hrevoked : rt.revoked = true) :
    (b.repository.atomicRevokeRefreshToken e k s).1 = none := by
  cases h : (b.repository.atomicRevokeRefreshToken e k s).1 with
  | none => rfl
  | some rt' =>
    obtain ⟨it, hit, hlive, -⟩ := b.ledger.won h
    rw [hstored] at hit
    obtain rfl := Option.some.inj hit
    rw [hrevoked] at hlive
    cases hlive

theorem refreshed_of_lost {repos : Repositories} {s : Store repos} (clientId : String)
    (hlost : (repos.tokens.atomicRevokeRefreshToken (env 0) (hashToken svc.crypto refreshToken)
      s.tokens).1 = none)
    (hkept : (repos.tokens.atomicRevokeRefreshToken (env 0) (hashToken svc.crypto refreshToken)
      s.tokens).2 = s.tokens) :
    refreshed svc env refreshToken clientId s =
      match repos.tokens.getRefreshToken (env 1) (hashToken svc.crypto refreshToken) s.tokens with
      | none => (TokenService.makeError "invalid_grant" "Invalid or revoked refresh token", s)
      | some rt =>
        if rt.revoked = true ∧ rt.familyId ≠ "" then
          (reuseDetected,
            { s with tokens := repos.tokens.revokeTokenFamily (env 2) rt.familyId s.tokens })
        else (TokenService.makeError "invalid_grant" "Invalid or revoked refresh token", s) := by
  rw [refreshed, TokenService.refreshAccessToken, Prog.eval]
  simp only [Store.exec, hlost, hkept, Prog.eval, Nat.zero_add]
  cases repos.tokens.getRefreshToken (env 1) (hashToken svc.crypto refreshToken) s.tokens with
  | none => rfl
  | some rt =>
    dsimp only
    by_cases hreuse : rt.revoked = true ∧ rt.familyId ≠ ""
    · rw [if_pos hreuse, if_pos hreuse]
      rfl
    · rw [if_neg hreuse, if_neg hreuse]
      rfl

/-- The in-memory lookup hides revoked tokens. -/
theorem memory_getRefreshToken_of_revoked {now : Int} {k : String} {tokens : Memory.Tokens}
    (hstored : tokens.refreshTokens.lookup k = some rt) (hrevoked : rt.revoked = true) :
    Memory.getRefreshToken now k tokens = none := by
  simp [Memory.getRefreshToken, hstored, hrevoked]

theorem postgres_getRefreshToken {e : Env} {k : String} {tokens : Postgres.TokenTables}
    (hfails : e.fails = false) (hstored : tokens.oauth2RefreshTokens.lookup k = some rt) :
    Postgres.getRefreshToken e k tokens = some (Postgres.refreshTokenRow rt) := by
  simp [Postgres.getRefreshToken, hfails, hstored]

theorem postgres_revokeTokenFamily_all {e : Env} {tokens : Postgres.TokenTables} {familyId : String}
    (hfamily : familyId ≠ "") (hfails : e.fails = false) :
    FamilyRevoked (postgresLedger.refresh (Postgres.revokeTokenFamily e familyId tokens))
      familyId := by
  intro k row hrow hmember
  obtain ⟨-, -, -, -, hall⟩ := Postgres.revokeTokenFamily_refreshTokens hrow
  exact hall hfamily hfails hmember

/-- A revoked token of a family is presented and no statement fails. Every refresh token of the
family is revoked afterwards exactly when the repository is the PostgreSQL one, which recognises
the reuse, or all of them were revoked already. -/
theorem reuse_ends_family_iff {b : Backend} (s : Store (b.repos clients grants)) (env : Nat → Env)
    (refreshToken clientId : String) (rt : OAuth2RefreshToken)
    (hstored : b.ledger.refresh s.tokens (hashToken svc.crypto refreshToken) = some rt)
    (hrevoked : rt.revoked = true) (hfamily : rt.familyId ≠ "")
    (hok : b = .postgres → ∀ n, (env n).fails = false) :
    FamilyRevoked (b.ledger.refresh (refreshed svc env refreshToken clientId s).2.tokens)
        rt.familyId ↔
      b = .postgres ∨ FamilyRevoked (b.ledger.refresh s.tokens) rt.familyId := by
  have hlost := atomicRevoke_of_revoked (e := env 0) hstored hrevoked
  rw [refreshed_of_lost clientId hlost (b.ledger.lost hlost)]
  cases b with
  | memory =>
    have hhidden : Backend.memory.repository.getRefreshToken (env 1)
        (hashToken svc.crypto refreshToken) s.tokens = none :=
      memory_getRefreshToken_of_revoked hstored hrevoked
    simp only [hhidden, reduceCtorEq, false_or]
  | postgres =>
    have hfound : Backend.postgres.repository.getRefreshToken (env 1)
        (hashToken svc.crypto refreshToken) s.tokens = some (Postgres.refreshTokenRow rt) :=
      postgres_getRefreshToken (hok rfl 1) hstored
    have hreuse : (Postgres.refreshTokenRow rt).revoked = true ∧
        (Postgres.refreshTokenRow rt).familyId ≠ "" := ⟨hrevoked, hfamily⟩
    simp only [hfound, if_pos hreuse, true_or, iff_true]
    exact postgres_revokeTokenFamily_all hfamily (hok rfl 2)

/-! ### A rotated token over the in-memory repository -/

/-- The store after an exchange and one rotation: the first refresh token is revoked and the second
is not. -/
def rotated : Store (Backend.memory.repos Memory.clientRepository Memory.grantRepository) :=
  RefreshFamily.sampleRotation.2.shared

def storedFlags (tokens : Memory.Tokens) (k : String) : Option (String × Bool) :=
  (tokens.refreshTokens.lookup k).map fun rt => (rt.familyId, rt.revoked)

theorem exists_of_storedFlags {tokens : Memory.Tokens} {k familyId : String} {revoked : Bool}
    (h : storedFlags tokens k = some (familyId, revoked)) :
    ∃ rt, memoryLedger.refresh tokens k = some rt ∧ rt.familyId = familyId ∧
      rt.revoked = revoked := by
  obtain ⟨rt, hrt, hflags⟩ := Option.map_eq_some_iff.mp h
  exact ⟨rt, hrt, (Prod.mk.inj hflags).1, (Prod.mk.inj hflags).2⟩

theorem not_familyRevoked_of_storedFlags {tokens : Memory.Tokens} {k familyId : String}
    (h : storedFlags tokens k = some (familyId, false)) :
    ¬FamilyRevoked (memoryLedger.refresh tokens) familyId := by
  intro hall
  obtain ⟨rt, hrt, hfamily, hlive⟩ := exists_of_storedFlags h
  have := hall k rt hrt hfamily
  rw [hlive] at this
  cases this

/-- The first token again, by its owner. -/
def reused : Reply × Store (Backend.memory.repos Memory.clientRepository Memory.grantRepository) :=
  refreshed knownService (fun _ => { now := 1030 }) (knownToken 2) "spa" rotated

/-- The live token, by another client. -/
def misused : Reply × Store (Backend.memory.repos Memory.clientRepository Memory.grantRepository) :=
  refreshed knownService (fun _ => { now := 1030 }) (knownToken 4) "other" rotated

theorem rotated_flags :
    storedFlags rotated.tokens (hashToken knownService.crypto (knownToken 2)) =
      some (knownFamily, true) ∧
    storedFlags rotated.tokens (hashToken knownService.crypto (knownToken 4)) =
      some (knownFamily, false) ∧
    reused.1 = TokenService.makeError "invalid_grant" "Invalid or revoked refresh token" ∧
    storedFlags reused.2.tokens (hashToken knownService.crypto (knownToken 4)) =
      some (knownFamily, false) ∧
    misused.1 = TokenService.makeError "invalid_grant" "Client mismatch" ∧
    storedFlags misused.2.tokens (hashToken knownService.crypto (knownToken 4)) =
      some (knownFamily, true) := by
  decide +kernel

/-- The rotated token is presented again, and its successor survives. -/
theorem rotated_reuse_unnoticed :
    storedFlags rotated.tokens (hashToken knownService.crypto (knownToken 2)) =
      some (knownFamily, true) ∧
    knownFamily ≠ "" ∧
    ¬FamilyRevoked (memoryLedger.refresh reused.2.tokens) knownFamily := by
  obtain ⟨hfirst, -, -, hsecond, -, -⟩ := rotated_flags
  exact ⟨hfirst, by decide, not_familyRevoked_of_storedFlags hsecond⟩

theorem reuse_ends_family_iff_rotated :
    ∃ rt, memoryLedger.refresh rotated.tokens (hashToken knownService.crypto (knownToken 2)) =
        some rt ∧ rt.revoked = true ∧ rt.familyId = knownFamily ∧
      (FamilyRevoked (memoryLedger.refresh reused.2.tokens) rt.familyId ↔
        Backend.memory = .postgres ∨
          FamilyRevoked (memoryLedger.refresh rotated.tokens) rt.familyId) := by
  obtain ⟨rt, hrt, hfamily, hrevoked⟩ := exists_of_storedFlags rotated_flags.1
  have hne : rt.familyId ≠ "" := by
    rw [hfamily]
    decide
  exact ⟨rt, hrt, hrevoked, hfamily,
    reuse_ends_family_iff (b := .memory) rotated (fun _ => { now := 1030 }) (knownToken 2) "spa" rt
      hrt hrevoked hne (fun h => by cases h)⟩

/-- Another client presents the live token: the request is turned down and the token is gone. -/
theorem client_mismatch_not_intact :
    misused.1 = TokenService.makeError "invalid_grant" "Client mismatch" ∧
    misused.1 ≠ reuseDetected ∧ ¬Intact memoryLedger rotated.tokens misused.2.tokens := by
  obtain ⟨-, hbefore, -, -, hreply, hafter⟩ := rotated_flags
  refine ⟨hreply, ?_, ?_⟩
  · rw [hreply]
    decide
  intro hintact
  obtain ⟨rt, hrt, -, hlive⟩ := exists_of_storedFlags hbefore
  obtain ⟨rt', hrt', -, hrevoked⟩ := exists_of_storedFlags hafter
  rw [hintact.2, hrt] at hrt'
  obtain rfl := Option.some.inj hrt'
  rw [hlive] at hrevoked
  cases hrevoked

theorem rejected_takes_out_mismatched :
    Intact memoryLedger rotated.tokens misused.2.tokens ∨
    TakenOut memoryLedger (hashToken knownService.crypto (knownToken 4)) rotated.tokens
      misused.2.tokens := by
  obtain ⟨-, -, -, -, hreply, -⟩ := rotated_flags
  refine rejected_takes_out_at_most_presented (b := .memory) rotated _ _ _ "invalid_grant"
    "Client mismatch" hreply ?_
  rw [show (refreshed knownService (fun _ => { now := 1030 }) (knownToken 4) "other" rotated).1 = _
    from hreply]
  decide

end AuthForge.RejectedRefresh
