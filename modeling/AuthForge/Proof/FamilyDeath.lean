import AuthForge.OAuth2.Trace
import AuthForge.Storage.Memory
import AuthForge.Storage.Postgres

/-!
# Death of a refresh token family

When a revoked refresh token is presented again, `refreshAccessToken` revokes the whole family.
Over the PostgreSQL token repository this is one bulk update, which sees the rows saved so far. A
rotation is two calls, so a refresh that has revoked its old token and not yet saved the new one
is invisible to the update and puts an un-revoked token of the dead family into the store. The
family is dead for good exactly when no such request is in flight at the revocation.
-/

namespace AuthForge.FamilyDeath

open OAuth2 Service Storage

variable {svc : TokenService} {clients : ClientRepository} {grants : GrantRepository}

abbrev postgresTokens (clients : ClientRepository) (grants : GrantRepository) : Repositories :=
  ⟨clients, grants, Postgres.tokenRepository⟩

def familyRevoked : RepoEvent → Option String
  | .called _ _ _ ⟨.revokeTokenFamily familyId, _⟩ => some familyId
  | _ => none

/-- Every refresh token of a family whose revocation completed is revoked. -/
def FamilyDead (history : List RepoEvent) (tokens : Postgres.TokenTables) : Prop :=
  ∀ familyId ∈ history.filterMap familyRevoked, ∀ k row,
    tokens.oauth2RefreshTokens.lookup k = some row → row.familyId = familyId → row.revoked = true

/-! ### Requests in flight -/

def wonFamily (familyId : String) : RepoAnswer → Bool
  | ⟨.atomicRevokeRefreshToken _, some rt⟩ => rt.familyId = familyId
  | _ => false

/-- The request won the compare-and-set of a token of the family and is not answered yet. -/
def inFlight (familyId : String) (t : Thread (svc.over (postgresTokens clients grants))) : Bool :=
  match t.rest with
  | .ret _ => false
  | .call _ _ => t.answers.any (wonFamily familyId)

def nextFamily (t : Thread (svc.over (postgresTokens clients grants))) : Option String :=
  match t.rest with
  | .call (.revokeTokenFamily familyId) _ => some familyId
  | _ => none

def refreshOnly : Guard (Pool (svc.over (postgresTokens clients grants))) RepoInput RepoEvent :=
  fun _ _ i =>
    match i with
    | .start (.refresh _) => True
    | .start _ => False
    | .advance _ _ => True

instance (h : List RepoEvent) (p : Pool (svc.over (postgresTokens clients grants)))
    (i : RepoInput) : Decidable (refreshOnly h p i) :=
  match i with
  | .start (.refresh _) => .isTrue trivial
  | .start (.generate _) => .isFalse id
  | .start (.exchange _) => .isFalse id
  | .start .purgeExpired => .isFalse id
  | .advance _ _ => .isTrue trivial

/-- Only refresh requests are started, and a family is revoked only by a statement that succeeds
while no request is in flight with a token of that family. -/
def revokedAlone : Guard (Pool (svc.over (postgresTokens clients grants))) RepoInput RepoEvent :=
  fun _ p i =>
    match i with
    | .start (.refresh _) => True
    | .start _ => False
    | .advance tid env =>
      ∀ familyId ∈ (p.threads[tid]?).bind nextFamily,
        env.fails = false ∧ ∀ t ∈ p.threads, inFlight familyId t = false

instance (h : List RepoEvent) (p : Pool (svc.over (postgresTokens clients grants)))
    (i : RepoInput) : Decidable (revokedAlone h p i) :=
  match i with
  | .start (.refresh _) => .isTrue trivial
  | .start (.generate _) => .isFalse id
  | .start (.exchange _) => .isFalse id
  | .start .purgeExpired => .isFalse id
  | .advance tid env =>
    inferInstanceAs (Decidable (∀ familyId ∈ (p.threads[tid]?).bind nextFamily,
      env.fails = false ∧ ∀ t ∈ p.threads, inFlight familyId t = false))

/-! ### The invariant -/

/-- For every family that died: all its rows are revoked and no request in flight can save one. -/
structure DeathInv (history : List RepoEvent)
    (p : Pool (svc.over (postgresTokens clients grants))) : Prop where
  dead : FamilyDead history p.shared.tokens
  quiet : ∀ familyId ∈ history.filterMap familyRevoked, ∀ t ∈ p.threads,
    inFlight familyId t = false
  refreshing : ∀ t ∈ p.threads, ∃ r, t.request = .refresh r

variable {history : List RepoEvent} {p : Pool (svc.over (postgresTokens clients grants))}
  {t : Thread (svc.over (postgresTokens clients grants))} {familyId : String}

theorem inFlight_advance {op : RepoCall} {k : op.Resp → RepoProg} (hrest : t.rest = .call op k)
    {r : op.Resp} (hquiet : inFlight familyId t = false) (hwon : wonFamily familyId ⟨op, r⟩ = false) :
    inFlight familyId (t.advance hrest r) = false := by
  have hanswers : t.answers.any (wonFamily familyId) = false := by
    simpa [inFlight, hrest] using hquiet
  have hall : (t.advance hrest r).answers.any (wonFamily familyId) = false := by
    simp [Thread.advance, List.any_append, hanswers, hwon]
  unfold inFlight
  split
  · rfl
  · exact hall

/-- A request about to save a rotated token is in flight with a token of that family. -/
theorem inFlight_of_saving {r : RefreshRequest} {a : OAuth2AccessToken} {rt : OAuth2RefreshToken}
    {k : Bool → RepoProg} (hreq : t.request = .refresh r)
    (hrest : t.rest = .call (.saveTokenPair a rt) k) : inFlight rt.familyId t = true := by
  have hreached := TokenService.reached_of_thread t hrest
  rw [hreq] at hreached
  obtain ⟨old, now, tokenStr, refreshTokenStr, hchecked⟩ :=
    TokenService.refresh_saving hreached
  unfold inFlight
  rw [hrest, hchecked.answers_eq, hchecked.refresh_eq]
  simp [wonFamily, TokenService.newRefreshToken]

theorem mem_of_getElem? {tid : Nat} (ht : p.threads[tid]? = some t) : t ∈ p.threads :=
  List.mem_of_getElem? ht

theorem familyRevoked_of_ne {tid : Nat} {req : Request} {env : Env} {op : RepoCall} {r : op.Resp}
    (hop : ∀ f, op ≠ .revokeTokenFamily f) :
    familyRevoked (.called tid req env ⟨op, r⟩) = none := by
  cases op with
  | revokeTokenFamily f => exact absurd rfl (hop f)
  | _ => rfl

theorem DeathInv.call (h : DeathInv history p) {tid : Nat} (ht : p.threads[tid]? = some t)
    {env : Env} {op : RepoCall} {k : op.Resp → RepoProg} (hrest : t.rest = .call op k)
    {r : op.Resp} {s : Store (postgresTokens clients grants)}
    (hop : ∀ f, op ≠ .revokeTokenFamily f) (hdead : FamilyDead history s.tokens)
    (hwon : ∀ f ∈ history.filterMap familyRevoked, wonFamily f ⟨op, r⟩ = false) :
    DeathInv (.called tid t.request env ⟨op, r⟩ :: history)
      (⟨s, p.threads.set tid (t.advance hrest r)⟩ : Pool (svc.over (postgresTokens clients grants)))
    where
  dead := by
    unfold FamilyDead
    rw [List.filterMap_cons_none (familyRevoked_of_ne hop)]
    exact hdead
  quiet := by
    rw [List.filterMap_cons_none (familyRevoked_of_ne hop)]
    intro f hf u hu
    rcases List.mem_or_eq_of_mem_set hu with hu | rfl
    · exact h.quiet f hf u hu
    · exact inFlight_advance hrest (h.quiet f hf t (mem_of_getElem? ht)) (hwon f hf)
  refreshing := by
    intro u hu
    rcases List.mem_or_eq_of_mem_set hu with hu | rfl
    · exact h.refreshing u hu
    · exact h.refreshing t (mem_of_getElem? ht)

theorem DeathInv.revoke (h : DeathInv history p) {tid : Nat} (ht : p.threads[tid]? = some t)
    {env : Env} {k : Unit → RepoProg} (hrest : t.rest = .call (.revokeTokenFamily familyId) k)
    (hfails : env.fails = false) (halone : ∀ t ∈ p.threads, inFlight familyId t = false) :
    DeathInv (.called tid t.request env ⟨.revokeTokenFamily familyId, ()⟩ :: history)
      (⟨(Store.exec env (.revokeTokenFamily familyId) p.shared).2,
        p.threads.set tid (t.advance hrest ())⟩ : Pool (svc.over (postgresTokens clients grants)))
    := by
  obtain ⟨x, hreq⟩ := h.refreshing t (mem_of_getElem? ht)
  have hreached := TokenService.reached_of_thread t hrest
  rw [hreq] at hreached
  obtain ⟨rt, -, -, -, hne⟩ := TokenService.refresh_revoking hreached
  have hquiet : ∀ f ∈ familyId :: history.filterMap familyRevoked, ∀ u ∈ p.threads,
      inFlight f u = false := by
    intro f hf u hu
    rcases List.mem_cons.mp hf with rfl | hf
    · exact halone u hu
    · exact h.quiet f hf u hu
  refine ⟨?_, ?_, ?_⟩
  · intro f hf k row hlookup hfamily
    obtain ⟨row₀, hlookup₀, hfamily₀, hkeep, hall⟩ :=
      Postgres.revokeTokenFamily_refreshTokens hlookup
    rcases List.mem_cons.mp hf with rfl | hf
    · exact hall hne hfails hfamily
    · exact hkeep (h.dead f hf k row₀ hlookup₀ (hfamily₀ ▸ hfamily))
  · intro f hf u hu
    rcases List.mem_or_eq_of_mem_set hu with hu | rfl
    · exact hquiet f hf u hu
    · exact inFlight_advance hrest (hquiet f hf t (mem_of_getElem? ht)) rfl
  · intro u hu
    rcases List.mem_or_eq_of_mem_set hu with hu | rfl
    · exact h.refreshing u hu
    · exact h.refreshing t (mem_of_getElem? ht)

/-! ### Guarded runs -/

theorem deathInv_of_run {s₀ : Store (postgresTokens clients grants)}
    (hrun : (svc.over (postgresTokens clients grants)).machine.Run revokedAlone
      (Service.start _ s₀) history p) : DeathInv history p := by
  refine Machine.Run.invariant DeathInv ?_ ?_ hrun
  · exact ⟨fun f hf => by simp at hf, fun f hf => by simp at hf, fun u hu => by
      simp [Service.start] at hu⟩
  · intro h q i hq hinv hok
    change DeathInv ((Service.step _ q i).2 :: h) (Service.step _ q i).1
    rcases step_cases q i with ⟨request, rfl, hs⟩ | ⟨tid, env, t, op, k, hrest, rfl, ht, hs⟩ | hs
    · rw [hs]
      refine ⟨hinv.dead, ?_, ?_⟩
      · intro f hf u hu
        rcases List.mem_append.mp hu with hu | hu
        · exact hinv.quiet f hf u hu
        · obtain rfl := List.mem_singleton.mp hu
          unfold inFlight
          split <;> rfl
      · intro u hu
        rcases List.mem_append.mp hu with hu | hu
        · exact hinv.refreshing u hu
        · obtain rfl := List.mem_singleton.mp hu
          cases request with
          | refresh r => exact ⟨r, rfl⟩
          | _ => exact hok.elim
    · rw [hs]
      obtain ⟨x, hreq⟩ := hinv.refreshing t (mem_of_getElem? ht)
      cases op with
      | revokeTokenFamily f =>
        have hnext : f ∈ (q.threads[tid]?).bind nextFamily := by
          simp [ht, nextFamily, hrest]
        obtain ⟨hfails, halone⟩ := hok f hnext
        exact hinv.revoke ht hrest hfails halone
      | saveTokenPair a rt =>
        refine hinv.call ht hrest (by intro f hop; cases hop) ?_ (fun f hf => rfl)
        intro f hf key row hlookup hfamily
        rcases Postgres.saveTokenPair_refreshTokens hlookup with rfl | hold
        · have hflight := inFlight_of_saving hreq hrest
          rw [show rt.familyId = f from hfamily,
            hinv.quiet f hf t (mem_of_getElem? ht)] at hflight
          cases hflight
        · exact hinv.dead f hf key row hold hfamily
      | atomicRevokeRefreshToken token =>
        refine hinv.call ht hrest (by intro f hop; cases hop) ?_ ?_
        · intro f hf key row hlookup hfamily
          obtain ⟨row₀, hlookup₀, hfamily₀, hkeep⟩ :=
            Postgres.atomicRevokeRefreshToken_refreshTokens hlookup
          exact hkeep (hinv.dead f hf key row₀ hlookup₀ (hfamily₀ ▸ hfamily))
        · intro f hf
          change wonFamily f ⟨.atomicRevokeRefreshToken token,
            (Postgres.atomicRevokeRefreshToken env token q.shared.tokens).1⟩ = false
          cases hres : (Postgres.atomicRevokeRefreshToken env token q.shared.tokens).1 with
          | none => rfl
          | some rt =>
            obtain ⟨row, hlookup, hlive, hfamily⟩ :=
              Postgres.atomicRevokeRefreshToken_eq_some hres
            simp only [wonFamily, decide_eq_false_iff_not]
            intro heq
            obtain rfl := heq
            have := hinv.dead _ hf token row hlookup hfamily.symm
            rw [hlive] at this
            cases this
      | _ => exact hinv.call ht hrest (by intro f hop; cases hop) hinv.dead (fun f hf => rfl)
    · rw [hs]
      exact ⟨hinv.dead, hinv.quiet, hinv.refreshing⟩

/-- If every family revocation succeeds and meets no request in flight with a token of the family,
a family whose revocation completed has no un-revoked refresh token in any later state. -/
theorem familyDead_of_revokedAlone {s₀ : Store (postgresTokens clients grants)}
    (hrun : (svc.over (postgresTokens clients grants)).machine.Run revokedAlone
      (Service.start _ s₀) history p) : FamilyDead history p.shared.tokens :=
  (deathInv_of_run hrun).dead

/-! ### A rotation and a reuse of one token -/

def storedToken : Store (postgresTokens Memory.clientRepository Memory.grantRepository) :=
  let token := knownService.newRefreshToken (knownToken 0) (knownToken 1) "spa" "1" "openid"
    knownFamily 1000
  ⟨(∅ : Memory.Clients), (∅ : Memory.AuthCodes), ⟨∅, AList.insert token.token token ∅⟩⟩

def refreshStored : Request := .refresh { refreshToken := knownToken 0, clientId := "spa" }

/-- The second refresh completes its reuse branch between the two calls of the first. -/
def race : List RepoInput :=
  [.start refreshStored, .start refreshStored,
   .advance 0 {}, .advance 1 {}, .advance 1 {}, .advance 1 {},
   .advance 0 { now := 1010 }, .advance 0 { random := knownToken 2 },
   .advance 0 { random := knownToken 3 }, .advance 0 { now := 1010 }]

def reuse : List RepoInput :=
  [.start refreshStored, .advance 0 {}, .advance 0 { now := 1010 },
   .advance 0 { random := knownToken 2 }, .advance 0 { random := knownToken 3 },
   .advance 0 { now := 1010 },
   .start refreshStored, .advance 1 {}, .advance 1 {}, .advance 1 {}]

def after (is : List RepoInput) : List RepoEvent ×
    Pool (knownService.over (postgresTokens Memory.clientRepository Memory.grantRepository)) :=
  Machine.exec (Service.machine _) [] (Service.start _ storedToken) is

/-- In the race the family ends with an un-revoked refresh token after its revocation. -/
theorem race_not_familyDead :
    Machine.Run (Service.machine _) refreshOnly (Service.start _ storedToken) (after race).1
      (after race).2 ∧
    ¬FamilyDead (after race).1 (after race).2.shared.tokens := by
  obtain ⟨hguarded, hrevoked, hrow⟩ :
      Machine.Guarded (Service.machine (knownService.over
          (postgresTokens Memory.clientRepository Memory.grantRepository))) refreshOnly []
          (Service.start _ storedToken) race ∧
        knownFamily ∈ (after race).1.filterMap familyRevoked ∧
        ((after race).2.shared.tokens.oauth2RefreshTokens.lookup
          (hashToken knownService.crypto (knownToken 3))).map
            (fun row => (row.familyId, row.revoked)) = some (knownFamily, false) := by
    decide +kernel
  refine ⟨Machine.Run.exec_of_guarded .init _ hguarded, ?_⟩
  intro hdead
  obtain ⟨row, hlookup, hcols⟩ := Option.map_eq_some_iff.mp hrow
  obtain ⟨hfamily, hlive⟩ := Prod.mk.inj hcols
  have := hdead knownFamily hrevoked _ row hlookup hfamily
  rw [hlive] at this
  cases this

theorem familyDead_of_revokedAlone_reuse :
    Machine.Run (Service.machine _) revokedAlone (Service.start _ storedToken) (after reuse).1
      (after reuse).2 ∧
    knownFamily ∈ (after reuse).1.filterMap familyRevoked ∧
    FamilyDead (after reuse).1 (after reuse).2.shared.tokens := by
  have hguarded : Machine.Guarded (Service.machine (knownService.over
        (postgresTokens Memory.clientRepository Memory.grantRepository))) revokedAlone []
        (Service.start _ storedToken) reuse ∧
      knownFamily ∈ (after reuse).1.filterMap familyRevoked := by
    decide +kernel
  have hrun := Machine.Run.exec_of_guarded .init _ hguarded.1
  exact ⟨hrun, hguarded.2, familyDead_of_revokedAlone hrun⟩

end AuthForge.FamilyDeath
