import AuthForge.OAuth2.TokenService

/-!
# Repositories and the token service over them

The repository interfaces of the OAuth2 domain, as far as the token service and the handlers use
them. A repository is its state type with one function per atomic call. Every call also sees an
environment: the clock, the bytes a random source delivers, the roles a role provider reports, the
user a subject resolver names, and whether the statements a call issues fail.
-/

namespace AuthForge.OAuth2

/-- What one call reads from outside the store. -/
structure Env where
  now : Int := 0
  random : String := ""
  roles : List String := []
  internalUserId : Option Int := none
  fails : Bool := false
  /-- The second statement of this call fails, where it issues two. -/
  cascadeFails : Bool := false

structure ClientRepository where
  State : Type
  getClient : Env → String → State → Option OAuth2Client
  validateClient : Env → String → String → State → Bool

structure GrantRepository where
  State : Type
  saveAuthCode : Env → OAuth2AuthCode → State → State
  consumeAuthCode : Env → String → String → State → Option OAuth2AuthCode × State
  purgeExpired : Env → State → State

structure TokenRepository where
  State : Type
  saveTokenPair : Env → OAuth2AccessToken → OAuth2RefreshToken → State → Bool × State
  atomicRevokeRefreshToken : Env → String → State → Option OAuth2RefreshToken × State
  getRefreshToken : Env → String → State → Option OAuth2RefreshToken
  revokeTokenFamily : Env → String → State → State

structure Repositories where
  clients : ClientRepository
  grants : GrantRepository
  tokens : TokenRepository

structure Store (repos : Repositories) where
  clients : repos.clients.State
  grants : repos.grants.State
  tokens : repos.tokens.State

variable {repos : Repositories}

def Store.exec (env : Env) : (op : RepoCall) → Store repos → op.Resp × Store repos
  | .validateClient clientId clientSecret, s =>
    (repos.clients.validateClient env clientId clientSecret s.clients, s)
  | .saveAuthCode code, s => ((), { s with grants := repos.grants.saveAuthCode env code s.grants })
  | .consumeAuthCode code redirectUri, s =>
    let r := repos.grants.consumeAuthCode env code redirectUri s.grants
    (r.1, { s with grants := r.2 })
  | .purgeExpired, s => ((), { s with grants := repos.grants.purgeExpired env s.grants })
  | .getRoles _, s => (env.roles, s)
  | .resolve _, s => (env.internalUserId, s)
  | .getRolesOf _, s => (env.roles, s)
  | .saveTokenPair access refresh, s =>
    let r := repos.tokens.saveTokenPair env access refresh s.tokens
    (r.1, { s with tokens := r.2 })
  | .atomicRevokeRefreshToken token, s =>
    let r := repos.tokens.atomicRevokeRefreshToken env token s.tokens
    (r.1, { s with tokens := r.2 })
  | .getRefreshToken token, s => (repos.tokens.getRefreshToken env token s.tokens, s)
  | .revokeTokenFamily familyId, s =>
    ((), { s with tokens := repos.tokens.revokeTokenFamily env familyId s.tokens })
  | .generateSecureToken _, s => (env.random, s)
  | .nowSeconds, s => (env.now, s)

def Store.execAll (s : Store repos) (calls : List (Env × RepoCall)) : Store repos :=
  calls.foldl (fun s c => (Store.exec c.1 c.2 s).2) s

theorem Store.execAll_invariant {P : Store repos → Prop} {calls : List (Env × RepoCall)}
    (hstep : ∀ c ∈ calls, ∀ s, P s → P (Store.exec c.1 c.2 s).2) {s : Store repos} (h : P s) :
    P (s.execAll calls) := by
  induction calls generalizing s with
  | nil => exact h
  | cons c calls ih =>
    refine ih (fun c' hc' => hstep c' (List.mem_cons_of_mem c hc')) ?_
    exact hstep c List.mem_cons_self s h

/-- The token service over given repositories, at the granularity of repository calls. -/
def TokenService.over (svc : TokenService) (repos : Repositories) :
    Service (Store repos) Env RepoCall RepoCall.Resp Request Reply where
  exec := Store.exec
  program := svc.program

abbrev RepoEvent := Service.Event Env RepoCall RepoCall.Resp Request

abbrev RepoInput := Service.Input Env Request

/-- Unconditional interleavings of requests from the given store. -/
abbrev TokenService.Interleaving (svc : TokenService) {repos : Repositories} (s₀ : Store repos)
    (history : List RepoEvent) (p : Service.Pool (svc.over repos)) : Prop :=
  (svc.over repos).machine.Run anyStep ((svc.over repos).start s₀) history p

/-! ### Which part of the store a call touches -/

variable {env : Env} {op : RepoCall} {s : Store repos}

theorem Store.exec_clients : (Store.exec env op s).2.clients = s.clients := by
  cases op <;> rfl

/-! ### What a grant repository has on record -/

/-- A property of the stored grants that only a save can bring about. -/
structure SavedOnly (g : GrantRepository) (R : g.State → Prop) : Prop where
  consume : ∀ {env key uri s}, R (g.consumeAuthCode env key uri s).2 → R s
  purge : ∀ {env s}, R (g.purgeExpired env s) → R s

section SavedOnly

variable {R : repos.grants.State → Prop} (hR : SavedOnly repos.grants R)
include hR

theorem SavedOnly.exec (hop : ∀ c, op ≠ .saveAuthCode c) (h : R (Store.exec env op s).2.grants) :
    R s.grants := by
  cases op with
  | saveAuthCode c => exact absurd rfl (hop c)
  | consumeAuthCode code uri => exact hR.consume h
  | purgeExpired => exact hR.purge h
  | _ => exact h

theorem SavedOnly.eval {p : RepoProg} (honly : p.Only fun op => ∀ c, op ≠ .saveAuthCode c)
    {env : Nat → Env} (h : R (Prog.eval Store.exec env 0 p s).2.1.grants) : R s.grants := by
  have hstep : ∀ (e : Env) (op : RepoCall) (t : Store repos), (∀ c, op ≠ .saveAuthCode c) →
      (R t.grants → R s.grants) → R (Store.exec e op t).2.grants → R s.grants :=
    fun _ _ _ hop himp h => himp (hR.exec hop h)
  exact Prog.eval_invariant_of_only hstep honly (fun h => h) h

end SavedOnly

/-- A view of a grant repository: for each key the subject and the authentication methods that are
on record, which only a save can add. A record that is handed out is on record or has no methods. -/
structure CodeLedger (g : GrantRepository) where
  stored : g.State → String → Option (String × String)
  save : ∀ {env c s k v}, stored (g.saveAuthCode env c s) k = some v →
    stored s k = some v ∨ (k = c.code ∧ v = (c.userId, c.amr))
  consumed : ∀ {env k uri s c}, (g.consumeAuthCode env k uri s).1 = some c →
    c.amr = "" ∨ stored s k = some (c.userId, c.amr)
  consume : ∀ {env key uri s k v}, stored (g.consumeAuthCode env key uri s).2 k = some v →
    stored s k = some v
  purge : ∀ {env s k v}, stored (g.purgeExpired env s) k = some v → stored s k = some v

theorem CodeLedger.savedOnly {g : GrantRepository} (ledger : CodeLedger g) (k : String)
    (v : String × String) : SavedOnly g fun s => ledger.stored s k = some v :=
  ⟨ledger.consume, ledger.purge⟩

end AuthForge.OAuth2
