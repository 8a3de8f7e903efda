import AuthForge.Base.History
import AuthForge.Http.Filters

/-!
# Who is let through

Whatever happens to the tables meanwhile, a filter lets a request through exactly on what the tables
said while the request was under way: a live token with the scopes, and in front of the
administration, at a later moment, a role that the deciding rule allows.
-/

namespace AuthForge.LetThrough

open OAuth2 Authz Http.Filters Service

variable {σ ε : Type} {cfg : Config} {b : Backend σ ε} {s₀ : σ} {req : GuardedRequest}

/-! ### The deciding rule -/

/-- Of the rules whose pattern matches the path, the one with the least pattern. -/
structure Decides (regexMatch : String → String → Bool) (rbac : RbacConfig) (path : String)
    (rule : String × List String) : Prop where
  mem : rule ∈ rbac.rbacRules
  matched : regexMatch rule.1 path = true
  least : ∀ other ∈ rbac.rbacRules, regexMatch other.1 path = true → rule.1 ≤ other.1

/-- The path is public, or one of the roles is allowed by the rule that decides. -/
def MayAccess (regexMatch : String → String → Bool) (rbac : RbacConfig) (roles : List String)
    (path : String) : Prop :=
  (∃ publicPath ∈ rbac.publicPaths, regexMatch publicPath path = true) ∨
    ∃ rule, Decides regexMatch rbac path rule ∧ ∃ role ∈ roles, role ∈ rule.2

section Rules

variable {regexMatch : String → String → Bool} {rbac : RbacConfig} {roles : List String}
  {path : String}

theorem mem_rules {rule : RbacRule} :
    rule ∈ rbac.rules ↔ (rule.pathPattern, rule.allowedRoles) ∈ rbac.rbacRules := by
  unfold RbacConfig.rules
  rw [List.mem_map]
  constructor
  · intro h
    obtain ⟨entry, hentry, rfl⟩ := h
    exact (List.mem_insertionSort _).mp hentry
  · intro h
    exact ⟨_, (List.mem_insertionSort _).mpr h, rfl⟩

theorem rules_sorted :
    rbac.rules.Pairwise fun rule other => rule.pathPattern ≤ other.pathPattern := by
  unfold RbacConfig.rules
  rw [List.pairwise_map]
  have htotal : Std.Total fun r s : String × List String => r.1 ≤ s.1 :=
    ⟨fun r s => le_total r.1 s.1⟩
  have htrans : IsTrans (String × List String) fun r s => r.1 ≤ s.1 :=
    ⟨fun _ _ _ hrs hst => le_trans hrs hst⟩
  exact List.pairwise_insertionSort _ _

/-- The first rule that matches is the one that decides. -/
theorem decides_of_find {rule : RbacRule}
    (h : rbac.rules.find? (fun rule => regexMatch rule.pathPattern path) = some rule) :
    Decides regexMatch rbac path (rule.pathPattern, rule.allowedRoles) := by
  obtain ⟨hmatched, before, after, hrules, hbefore⟩ := List.find?_eq_some_iff_append.mp h
  have hmem : rule ∈ rbac.rules := by
    rw [hrules]
    exact List.mem_append_right _ List.mem_cons_self
  refine ⟨mem_rules.mp hmem, hmatched, ?_⟩
  intro other hother hmatch
  have hin : (⟨other.1, other.2⟩ : RbacRule) ∈ rbac.rules := mem_rules.mpr hother
  have hsorted : rbac.rules.Pairwise _ := rules_sorted
  rw [hrules] at hin hsorted
  rcases List.mem_append.mp hin with hin | hin
  · have hnot := hbefore _ hin
    simp [hmatch] at hnot
  rcases List.mem_cons.mp hin with heq | hin
  · rw [← heq]
  · have hpairwise := (List.pairwise_append.mp hsorted).2.1
    exact (List.pairwise_cons.mp hpairwise).1 _ hin

/-- The order of the configuration does not matter, and what no rule matches is refused. -/
theorem checkAccess_iff (hnames : (rbac.rbacRules.map Prod.fst).Nodup) :
    checkAccess regexMatch rbac roles path = true ↔ MayAccess regexMatch rbac roles path := by
  unfold checkAccess MayAccess
  by_cases hpublic : (rbac.publicPaths.any fun publicPath => regexMatch publicPath path) = true
  · rw [if_pos hpublic]
    exact iff_of_true rfl (.inl (List.any_eq_true.mp hpublic))
  rw [if_neg hpublic]
  have hnone : ¬∃ publicPath ∈ rbac.publicPaths, regexMatch publicPath path = true :=
    mt List.any_eq_true.mpr hpublic
  rw [or_iff_right hnone]
  cases hfind : rbac.rules.find? fun rule => regexMatch rule.pathPattern path with
  | none =>
    refine iff_of_false Bool.false_ne_true ?_
    rintro ⟨rule, hdecides, -⟩
    have hin : (⟨rule.1, rule.2⟩ : RbacRule) ∈ rbac.rules := mem_rules.mpr hdecides.mem
    exact List.find?_eq_none.mp hfind _ hin hdecides.matched
  | some rule =>
    have hfirst := decides_of_find hfind
    have hallowed : (rule.allowedRoles.any fun allowed => roles.any fun role => role = allowed) =
        true ↔ ∃ role ∈ roles, role ∈ rule.allowedRoles := by
      simp only [List.any_eq_true, decide_eq_true_eq]
      constructor
      · rintro ⟨allowed, hallowed, role, hrole, rfl⟩
        exact ⟨role, hrole, hallowed⟩
      · rintro ⟨role, hrole, hallowed⟩
        exact ⟨role, hallowed, role, hrole, rfl⟩
    change (rule.allowedRoles.any _) = true ↔ _
    rw [hallowed]
    constructor
    · intro h
      exact ⟨_, hfirst, h⟩
    · rintro ⟨other, hother, h⟩
      have hname : other.1 = rule.pathPattern :=
        le_antisymm (hother.least _ hfirst.mem hfirst.matched)
          (hfirst.least _ hother.mem hother.matched)
      have hsame : other = (rule.pathPattern, rule.allowedRoles) :=
        List.inj_on_of_nodup_map hnames hother.mem hfirst.mem hname
      rwa [hsame] at h

end Rules

/-! ### The courses of the filters -/

abbrev FilterAnswer (σ : Type) := Answer (FilterCall σ) FilterCall.Resp

def asked (token : String) (found : Option OAuth2AccessToken) : FilterAnswer σ :=
  ⟨.validateAccessToken token, found⟩

def roled (userId : String) (roles : List String) : FilterAnswer σ := ⟨.getUserRoles userId, roles⟩

/-- The registry requires no scope for the request that is not there. -/
def ScopesSuffice (cfg : Config) (req : GuardedRequest) (scope : String) : Prop :=
  ∀ reqmt, cfg.registry.lookup req.path req.method = some reqmt → satisfies scope reqmt = true

theorem scopeGate_eq_passed_iff {scope : String} {next : FilterReply}
    {principal : Option Principal} :
    scopeGate cfg req scope next = .passed principal ↔
      ScopesSuffice cfg req scope ∧ next = .passed principal := by
  unfold scopeGate ScopesSuffice
  cases cfg.registry.lookup req.path req.method with
  | none => simp
  | some reqmt =>
    cases hsatisfied : satisfies scope reqmt <;> simp [hsatisfied]

/-- What a filter got before it let a request through. -/
def PassedWith (cfg : Config) : Arrival σ → List (FilterAnswer σ) → Option Principal → Prop
  | .resource req, answers, passed =>
    (req.method = .Options ∧ passed = none) ∨
      (req.method ≠ .Options ∧ bearerPrefix.toList <+: req.authorization.toList ∧
        ∃ t, asked (String.ofList (req.authorization.toList.drop 7)) (some t) ∈ answers ∧
          ScopesSuffice cfg req t.scope ∧ passed = some (principal t))
  | .admin req, answers, passed =>
    ∃ t roles, asked (presentedToken req) (some t) ∈ answers ∧ roled t.userId roles ∈ answers ∧
      ScopesSuffice cfg req t.scope ∧
      checkAccess cfg.regexMatch cfg.rbac roles req.path = true ∧ passed = some (principal t)
  | .other _, _, _ => False

/-- A filter lets through exactly on such answers. -/
def Concluded (cfg : Config) (request : Arrival σ) (answers : List (FilterAnswer σ))
    (reply : FilterReply) : Prop :=
  ∀ principal, reply = .passed principal ↔ PassedWith cfg request answers principal

theorem asked_inj {token : String} {found found' : Option OAuth2AccessToken}
    (h : (asked token found : FilterAnswer σ) = asked token found') : found = found' := by
  cases h
  rfl

theorem course_resource (req : GuardedRequest) :
    (resourceFilter cfg req : FilterProg σ).Course (fun _ _ => True)
      (Concluded cfg (.resource req)) [] := by
  unfold resourceFilter
  split
  · rename_i hoptions
    intro principal
    simp [PassedWith, hoptions, eq_comm]
  rename_i hmethod
  split
  · rename_i hbearer
    intro principal
    rw [List.isPrefixOf_iff_prefix] at hbearer
    simp [PassedWith, hmethod, hbearer]
  rename_i hbearer
  rw [not_not, List.isPrefixOf_iff_prefix] at hbearer
  refine ⟨trivial, ?_⟩
  intro found
  cases found with
  | none =>
    intro principal
    refine iff_of_false nofun ?_
    rintro (⟨hoptions, -⟩ | ⟨-, -, t, hmem, -⟩)
    · exact hmethod hoptions
    · cases asked_inj (List.mem_singleton.mp hmem)
  | some t =>
    intro passed
    rw [scopeGate_eq_passed_iff]
    constructor
    · rintro ⟨hscopes, hpassed⟩
      cases hpassed
      exact .inr ⟨hmethod, hbearer, t, List.mem_singleton_self _, hscopes, rfl⟩
    · rintro (⟨hoptions, -⟩ | ⟨-, -, t', hmem, hscopes, rfl⟩)
      · exact absurd hoptions hmethod
      · cases asked_inj (List.mem_singleton.mp hmem)
        exact ⟨hscopes, rfl⟩

theorem course_admin (req : GuardedRequest) :
    (authorizationFilter cfg req : FilterProg σ).Course (fun _ _ => True)
      (Concluded cfg (.admin req)) [] := by
  unfold authorizationFilter
  dsimp only
  split
  · intro principal
    refine iff_of_false nofun ?_
    rintro ⟨t, roles, hmem, -⟩
    cases hmem
  refine ⟨trivial, ?_⟩
  intro found
  cases found with
  | none =>
    intro principal
    refine iff_of_false nofun ?_
    rintro ⟨t, roles, hmem, -⟩
    cases asked_inj (List.mem_singleton.mp hmem)
  | some t =>
    refine ⟨trivial, ?_⟩
    intro roles passed
    rw [scopeGate_eq_passed_iff]
    have hanswers : ([] : List (FilterAnswer σ)) ++ [asked (presentedToken req) (some t)] ++
        [roled t.userId roles] = [asked (presentedToken req) (some t), roled t.userId roles] := rfl
    change _ ↔ PassedWith cfg (.admin req) ([] ++ [asked _ _] ++ [roled _ _]) passed
    rw [hanswers]
    constructor
    · rintro ⟨hscopes, hpassed⟩
      split at hpassed
      · rename_i haccess
        cases hpassed
        exact ⟨t, roles, by simp, by simp, hscopes, haccess, rfl⟩
      · cases hpassed
    · rintro ⟨t', roles', htoken, hroles, hscopes, haccess, rfl⟩
      have ht : t' = t := by
        rcases List.mem_cons.mp htoken with heq | hmem
        · exact Option.some.inj (asked_inj heq)
        · cases List.mem_singleton.mp hmem
      subst ht
      have hr : roles' = roles := by
        rcases List.mem_cons.mp hroles with heq | hmem
        · cases heq
        · cases List.mem_singleton.mp hmem
          rfl
      subst hr
      exact ⟨hscopes, if_pos haccess⟩

theorem course_program (request : Arrival σ) :
    ((service cfg b).program request).Course (fun _ _ => True) (Concluded cfg request) [] := by
  cases request with
  | resource req => exact course_resource req
  | admin req => exact course_admin req
  | other change =>
    refine ⟨trivial, ?_⟩
    intro _ principal
    exact iff_of_false nofun id

/-! ### Moments of a request -/

abbrev FilterEvent (σ ε : Type) := Event ε (FilterCall σ) FilterCall.Resp (Arrival σ)

variable {ok : Guard (Pool (service cfg b)) (Input ε (Arrival σ)) (FilterEvent σ ε)}
  {past later : List (FilterEvent σ ε)} {p : Pool (service cfg b)} {tid : Nat}
  {request : Arrival σ}

/-- After the start of the request and before the end of the run it called the operation, in a state
and an environment with the property. -/
def Meanwhile (ok : Guard (Pool (service cfg b)) (Input ε (Arrival σ)) (FilterEvent σ ε))
    (s₀ : σ) (past later : List (FilterEvent σ ε)) (tid : Nat) (request : Arrival σ)
    (op : FilterCall σ) (P : ε → σ → Prop) : Prop :=
  ∃ post env mid q,
    later = post ++ .called tid request env ⟨op, (exec b env op q.shared).1⟩ :: mid ∧
      (service cfg b).machine.Run ok ((service cfg b).start s₀)
        (mid ++ .started tid request :: past) q ∧
      P env q.shared

/-- What a request was answered is what the tables said meanwhile. -/
theorem mem_answers_iff (hrun : (service cfg b).machine.Run ok ((service cfg b).start s₀)
      (later ++ .started tid request :: past) p) {op : FilterCall σ} {r : op.Resp} :
    ⟨op, r⟩ ∈ answersOf tid (later ++ .started tid request :: past) ↔
      Meanwhile ok s₀ past later tid request op fun env s => (exec b env op s).1 = r := by
  constructor
  · intro hmem
    obtain ⟨post, req', env, mid, q, rfl, hq, hresp⟩ := answered_later hrun hmem
    change r = (exec b env op q.shared).1 at hresp
    obtain ⟨th, hth, hrequest⟩ := request_of_started hrun
    have hsame : req' = request := by
      rw [← hrequest]
      apply (described_of_run hrun).request hth
      exact List.mem_append_left _ (List.mem_append_right _ List.mem_cons_self)
    subst hsame
    exact ⟨post, env, mid, q, by rw [← hresp], hq, hresp.symm⟩
  · rintro ⟨post, env, mid, q, rfl, -, rfl⟩
    rw [mem_answersOf]
    exact ⟨request, env, by simp⟩

/-- A live token was found under the value. -/
def FindsLive (b : Backend σ ε) (token : String) (t : OAuth2AccessToken) (env : ε) (s : σ) : Prop :=
  b.getAccessToken env (hashToken b.tokenService.crypto token) s = some t ∧ t.revoked = false ∧
    b.now env ≤ t.expiresAt

theorem validates_iff {token : String} {t : OAuth2AccessToken} :
    Meanwhile ok s₀ past later tid request (.validateAccessToken token)
        (fun env s => (exec b env (.validateAccessToken token) s).1 = some t) ↔
      Meanwhile ok s₀ past later tid request (.validateAccessToken token)
        (FindsLive b token t) := by
  have hsame : (fun env s => (exec b env (.validateAccessToken token) s).1 = some t) =
      FindsLive b token t := by
    funext env s
    exact propext TokenService.checkAccessToken_eq_some_iff
  rw [hsame]

/-! ### The two filters -/

/-- In every run, whatever else happens to the tables, a request that a filter has answered was let
through exactly if, while it was under way, the tables held a live token under the presented value
whose scopes suffice, and, in front of the administration, gave the owner of the token a role that
the deciding rule allows (or the path is public). -/
theorem let_through_iff (hnames : (cfg.rbac.rbacRules.map Prod.fst).Nodup)
    (hrun : (service cfg b).machine.Run ok ((service cfg b).start s₀)
      (later ++ .started tid request :: past) p) {reply : FilterReply}
    (hdone : (p.threads[tid]?).bind Thread.result = some reply) (passed : Option Principal) :
    (∀ req, request = .admin req →
      (reply = .passed passed ↔ ∃ t, passed = some (principal t) ∧ ScopesSuffice cfg req t.scope ∧
        Meanwhile ok s₀ past later tid request (.validateAccessToken (presentedToken req))
          (FindsLive b (presentedToken req) t) ∧
        Meanwhile ok s₀ past later tid request (.getUserRoles t.userId)
          fun env s => MayAccess cfg.regexMatch cfg.rbac (b.getRoles env t.userId s) req.path)) ∧
    ∀ req, request = .resource req →
      (reply = .passed passed ↔ (req.method = .Options ∧ passed = none) ∨
        (req.method ≠ .Options ∧ bearerPrefix.toList <+: req.authorization.toList ∧
          ∃ t, passed = some (principal t) ∧ ScopesSuffice cfg req t.scope ∧
            Meanwhile ok s₀ past later tid request
              (.validateAccessToken (String.ofList (req.authorization.toList.drop 7)))
              (FindsLive b (String.ofList (req.authorization.toList.drop 7)) t))) := by
  obtain ⟨th, hth, hrequest⟩ := request_of_started hrun
  rw [hth] at hdone
  have hconcluded : reply = .passed passed ↔ PassedWith cfg request
      (answersOf tid (later ++ .started tid request :: past)) passed := by
    have hcourse := course_of_thread (S := service cfg b) course_program th
    rw [Thread.rest_of_result hdone, hrequest, (described_of_run hrun).answers hth] at hcourse
    exact hcourse passed
  constructor
  · rintro req rfl
    rw [hconcluded]
    constructor
    · rintro ⟨t, roles, htoken, hroles, hscopes, haccess, rfl⟩
      refine ⟨t, rfl, hscopes, validates_iff.mp ((mem_answers_iff hrun).mp htoken), ?_⟩
      obtain ⟨post, env, mid, q, hlater, hq, hsaid⟩ := (mem_answers_iff hrun).mp hroles
      refine ⟨post, env, mid, q, hlater, hq, (checkAccess_iff hnames).mp ?_⟩
      change b.getRoles env t.userId q.shared = roles at hsaid
      rwa [hsaid]
    · rintro ⟨t, rfl, hscopes, htoken, post, env, mid, q, hlater, hq, haccess⟩
      refine ⟨t, b.getRoles env t.userId q.shared,
        (mem_answers_iff hrun).mpr (validates_iff.mpr htoken), ?_, hscopes,
        (checkAccess_iff hnames).mpr haccess, rfl⟩
      exact (mem_answers_iff hrun).mpr ⟨post, env, mid, q, hlater, hq, rfl⟩
  · rintro req rfl
    rw [hconcluded]
    apply or_congr Iff.rfl
    apply and_congr Iff.rfl
    apply and_congr Iff.rfl
    apply exists_congr
    intro t
    constructor
    · rintro ⟨htoken, hscopes, rfl⟩
      exact ⟨rfl, hscopes, validates_iff.mp ((mem_answers_iff hrun).mp htoken)⟩
    · rintro ⟨rfl, hscopes, htoken⟩
      exact ⟨(mem_answers_iff hrun).mpr (validates_iff.mpr htoken), hscopes, rfl⟩

/-! ### A change of mind in between -/

/-- Whether the one token is revoked, and the roles of its owner. -/
abbrev KnownTables := Bool × List String

def knownToken : OAuth2AccessToken where
  token := hashToken knownCrypto "secret"
  clientId := "spa"
  userId := "7"
  scope := "openid admin"
  expiresAt := 4600

def knownBackend : Backend KnownTables Int where
  tokenService := knownService
  now := id
  getAccessToken _ hash s :=
    if hash = knownToken.token then some { knownToken with revoked := s.1 } else none
  getRoles _ userId s := if userId = "7" then s.2 else []

def knownFilters : Config where
  registry := Registry.registerPrefix { entries := [] } "/api/admin" { scopes := ["admin"] }
  rbac :=
    { rbacRules := [("/api/user/.*", ["user"]), ("/api/admin/.*", ["admin"])], publicPaths := [] }
  regexMatch pattern path := (pattern.toList.takeWhile (· ≠ '.')).isPrefixOf path.toList

def adminRequest : GuardedRequest where
  path := "/api/admin/users"
  method := .Get
  authorization := "Bearer secret"

/-- Between the two questions of the filter the token is revoked and its owner becomes an
administrator. -/
def changedBetween : List (Input Int (Arrival KnownTables)) :=
  [.advance 0 1000, .start (.other fun _ => (true, ["admin"])), .advance 1 1001, .advance 0 1002]

def run (inputs : List (Input Int (Arrival KnownTables))) :
    List (FilterEvent KnownTables Int) × Pool (service knownFilters knownBackend) :=
  (service knownFilters knownBackend).machine.exec []
    ((service knownFilters knownBackend).start (false, [])) inputs

def executed : List (FilterEvent KnownTables Int) × Pool (service knownFilters knownBackend) :=
  run ([.start (.admin adminRequest)] ++ changedBetween)

theorem run_executed : (service knownFilters knownBackend).machine.Run anyStep
    ((service knownFilters knownBackend).start (false, [])) executed.1 executed.2 :=
  Machine.run_exec _ _ _

/-- The request got through on roles its owner was given after the token was revoked. -/
theorem let_through_iff_changed :
    ∃ later, later ++ [.started 0 (.admin adminRequest)] = executed.1 ∧
      ∃ t : OAuth2AccessToken, principal knownToken = principal t ∧
        Meanwhile (b := knownBackend)
          (anyStep : Guard (Pool (service knownFilters knownBackend)) _
            (FilterEvent KnownTables Int))
          (false, []) [] later 0 (.admin adminRequest) (.getUserRoles t.userId) fun env s =>
            MayAccess knownFilters.regexMatch knownFilters.rbac
              (knownBackend.getRoles env t.userId s) adminRequest.path := by
  have hdone : (executed.2.threads[0]?).bind Thread.result =
      some (.passed (some (principal knownToken))) := by decide +kernel
  have hsuffix : (run [.start (.admin adminRequest)]).1 <:+ executed.1 :=
    Machine.suffix_exec_append _ changedBetween
  obtain ⟨later, hlater⟩ : (.started 0 (.admin adminRequest) : FilterEvent KnownTables Int) :: []
      <:+ executed.1 := hsuffix
  have hrun := run_executed
  rw [← hlater] at hrun
  obtain ⟨t, ht, -, -, hroles⟩ :=
    ((let_through_iff (by decide) hrun hdone _).1 adminRequest rfl).mp rfl
  exact ⟨later, hlater, t, Option.some.inj ht, hroles⟩

end AuthForge.LetThrough
