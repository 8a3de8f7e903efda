import AuthForge.OAuth2.Authorization
import AuthForge.Base.Dict

/-!
# Scope evaluation over asynchronous ports

`AuthorizationService::evaluateScopes` as it runs: it asks the client repository, the subject
resolver and the role provider one after another, then starts one consent lookup for each
requested scope. A callback that waits for its answer is an entry of `pending` with what it has
captured; one step completes one of them, so the runs are the completion orders. What the resolver
is asked about is a `Subject`, whose constructor throws inside the client repository's callback.
-/

namespace AuthForge.OAuth2

/-- The service's ports, as far as they are configured, and its admin scopes. -/
structure AuthorizationService where
  hasClients : Bool
  hasConsents : Bool
  hasSubjectResolver : Bool
  hasRoleProvider : Bool
  adminScopes : List String
  deriving DecidableEq, Repr

inductive ScopeCallback
  | onClient
  | onResolved (client : OAuth2Client)
  | onRoles (client : OAuth2Client) (internalUserId : Int)
  | onConsent (client : OAuth2Client) (internalUserId : Int) (hasAdminRole : Bool) (scope : String)
  deriving DecidableEq, Repr

/-- One evaluation under way: the waiting callbacks, the shared map and countdown of the consent
lookups, what the caller's callback has been given, newest first, and the exception that has left a
callback. -/
structure Evaluation where
  pending : List ScopeCallback
  consentMap : Dict String Bool := ∅
  remaining : Nat := 0
  calls : List ScopeValidationSummary := []
  escaped : Option String := none

namespace AuthorizationService

variable (service : AuthorizationService) (ports : ScopePorts) (subject : String)
  (requested : List String)

def requiresAdmin (scope : String) : Bool := scope ∈ service.adminScopes

def anyRequiresAdminRole : Bool := requested.any service.requiresAdmin

def consentOf (consentMap : Dict String Bool) (scope : String) : Bool :=
  match consentMap.lookup scope with
  | none => false
  | some granted => granted

def callback (summary : ScopeValidationSummary) (s : Evaluation) : Evaluation :=
  { s with calls := summary :: s.calls }

def begin : Evaluation :=
  if service.hasClients = false then
    callback (allInvalid requested "server_error") { pending := [] }
  else { pending := [.onClient] }

def proceedWithAdminFlag (client : OAuth2Client) (internalUserId : Option Int)
    (hasAdminRole : Bool) (s : Evaluation) : Evaluation :=
  match internalUserId with
  | none =>
    callback (OAuth2.evaluateScopes requested client hasAdminRole (fun _ => false)
      service.requiresAdmin) s
  | some userId =>
    if service.hasConsents = false ∨ requested = [] then
      callback (OAuth2.evaluateScopes requested client hasAdminRole (fun _ => false)
        service.requiresAdmin) s
    else
      { s with
        pending := s.pending ++ requested.map (.onConsent client userId hasAdminRole)
        consentMap := ∅
        remaining := requested.length }

def onResolved (client : OAuth2Client) (internalUserId : Option Int) (s : Evaluation) :
    Evaluation :=
  match internalUserId with
  | none => service.proceedWithAdminFlag requested client none false s
  | some userId =>
    if service.anyRequiresAdminRole requested = false ∨ service.hasRoleProvider = false then
      service.proceedWithAdminFlag requested client (some userId) false s
    else { s with pending := s.pending ++ [.onRoles client userId] }

def onClient (clientOpt : Option OAuth2Client) (s : Evaluation) : Evaluation :=
  match clientOpt with
  | none => callback (allInvalid requested "client_not_found") s
  | some client =>
    -- Without a resolver the answer comes at once.
    if service.hasSubjectResolver = false then service.onResolved requested client none s
    else
      match Subject.make subject with
      | .error what => { s with escaped := some what }
      | .ok _ => { s with pending := s.pending ++ [.onResolved client] }

def onConsent (client : OAuth2Client) (hasAdminRole : Bool) (scope : String) (hasConsent : Bool)
    (s : Evaluation) : Evaluation :=
  let s := { s with
    consentMap := s.consentMap.insert scope hasConsent, remaining := s.remaining - 1 }
  if s.remaining = 0 then
    callback (OAuth2.evaluateScopes requested client hasAdminRole (consentOf s.consentMap)
      service.requiresAdmin) s
  else s

/-- A callback gets the answer of its port. -/
def complete (s : Evaluation) : ScopeCallback → Evaluation
  | .onClient => service.onClient subject requested ports.client s
  | .onResolved client => service.onResolved requested client ports.internalUserId s
  | .onRoles client userId =>
    service.proceedWithAdminFlag requested client (some userId)
      (decide ("admin" ∈ ports.roles userId)) s
  | .onConsent client userId hasAdminRole scope =>
    service.onConsent requested client hasAdminRole scope (ports.hasUserConsent userId scope) s

/-- The input says which of the waiting callbacks is served next. -/
def machine : Machine Evaluation Nat Nat where
  step s i :=
    match s.pending[i]? with
    | none => (s, i)
    | some waiting =>
      (service.complete ports subject requested { s with pending := s.pending.eraseIdx i } waiting, i)

def waitingCallback : Guard Evaluation Nat Nat := fun _ s i => i < s.pending.length

instance (history : List Nat) (s : Evaluation) (i : Nat) :
    Decidable (waitingCallback history s i) :=
  inferInstanceAs (Decidable (i < s.pending.length))

/-! ### What the caller is to get -/

/-- The user that the resolver names, if there is a resolver. -/
def resolvedUser : Option Int :=
  if service.hasSubjectResolver = false then none else ports.internalUserId

def userIsAdmin : Bool :=
  match service.resolvedUser ports with
  | none => false
  | some userId => service.hasRoleProvider && decide ("admin" ∈ ports.roles userId)

def consented (scope : String) : Bool :=
  match service.resolvedUser ports with
  | none => false
  | some userId => service.hasConsents && ports.hasUserConsent userId scope

/-- The client that decides, if there is one. -/
def decidingClient : Option OAuth2Client :=
  if service.hasClients = false then none else ports.client

def summary : ScopeValidationSummary :=
  if service.hasClients = false then allInvalid requested "server_error"
  else
    match ports.client with
    | none => allInvalid requested "client_not_found"
    | some client =>
      OAuth2.evaluateScopes requested client (service.userIsAdmin ports)
        (service.consented ports) service.requiresAdmin

/-- Allowed for the client, and not reserved for admins or the user is one. -/
def permitted (scope : String) : Bool :=
  match service.decidingClient ports with
  | none => false
  | some client =>
    client.allowsScope scope && (!service.requiresAdmin scope || service.userIsAdmin ports)

/-- In every order of the answers the evaluation comes to its end, and the caller is called there
and only there, with the engine's summary. -/
def CalledOnce : Prop :=
  ∀ (history : List Nat) (s : Evaluation),
    (service.machine ports subject requested).Run waitingCallback (service.begin requested)
      history s →
    history.length ≤ requested.length + 3 ∧
      s.calls = if s.pending = [] then [service.summary ports requested] else []

/-- The evaluation does not get to the resolver with an empty subject. -/
def SubjectFits : Prop :=
  service.hasClients = false ∨ ports.client = none ∨ service.hasSubjectResolver = false ∨
    subject ≠ ""

end AuthorizationService

/-! ### The engine's three lists -/

section Engine

variable {client : OAuth2Client} {hasAdminRole hasAdminRole' : Bool} {scopes : List String}
  {hasConsentForScope hasConsentForScope' scopeRequiresAdmin : String → Bool} {scope : String}

/-- The first two tiers as one test. -/
def passesAllowlistAndRole (client : OAuth2Client) (hasAdminRole : Bool)
    (scopeRequiresAdmin : String → Bool) (scope : String) : Bool :=
  client.allowsScope scope && (!scopeRequiresAdmin scope || hasAdminRole)

theorem checkScope_decision :
    (checkScope client hasAdminRole hasConsentForScope scopeRequiresAdmin scope).decision =
      if passesAllowlistAndRole client hasAdminRole scopeRequiresAdmin scope = false then .Invalid
      else if hasConsentForScope scope = false then .ConsentRequired else .Valid := by
  unfold checkScope evaluateScope passesAllowlistAndRole
  cases client.allowsScope scope <;> cases scopeRequiresAdmin scope <;> cases hasAdminRole <;>
    cases hasConsentForScope scope <;> rfl

theorem checkScope_scope :
    (checkScope client hasAdminRole hasConsentForScope scopeRequiresAdmin scope).scope = scope := by
  unfold checkScope evaluateScope
  cases client.allowsScope scope <;> cases scopeRequiresAdmin scope <;> cases hasAdminRole <;>
    cases hasConsentForScope scope <;> rfl

theorem checkScope_congr (hrole : scopeRequiresAdmin scope = true → hasAdminRole = hasAdminRole')
    (hconsent : hasConsentForScope scope = hasConsentForScope' scope) :
    checkScope client hasAdminRole hasConsentForScope scopeRequiresAdmin scope =
      checkScope client hasAdminRole' hasConsentForScope' scopeRequiresAdmin scope := by
  unfold checkScope evaluateScope
  rw [hconsent]
  cases hgated : scopeRequiresAdmin scope with
  | false => simp
  | true => rw [hrole hgated]

/-- The engine reads the admin flag only for gated scopes, and the consents only of the scopes
asked for. -/
theorem evaluateScopes_congr
    (hrole : ∀ scope ∈ scopes, scopeRequiresAdmin scope = true → hasAdminRole = hasAdminRole')
    (hconsent : ∀ scope ∈ scopes, hasConsentForScope scope = hasConsentForScope' scope) :
    evaluateScopes scopes client hasAdminRole hasConsentForScope scopeRequiresAdmin =
      evaluateScopes scopes client hasAdminRole' hasConsentForScope' scopeRequiresAdmin := by
  unfold evaluateScopes
  refine List.foldl_ext _ _ _ ?_
  intro summary scope hscope
  rw [checkScope_congr (hrole scope hscope) (hconsent scope hscope)]

/-- The three lists of a summary are `before` followed by the scopes of each kind. -/
def Sorts (passes consents : String → Bool) (before : ScopeValidationSummary)
    (scopes : List String) (summary : ScopeValidationSummary) : Prop :=
  summary.valid = before.valid ++ scopes.filter (fun s => passes s && consents s) ∧
    summary.invalid = before.invalid ++ scopes.filter (fun s => !passes s) ∧
    summary.consentRequired =
      before.consentRequired ++ scopes.filter (fun s => passes s && !consents s)

theorem sorts_add (before : ScopeValidationSummary) :
    Sorts (passesAllowlistAndRole client hasAdminRole scopeRequiresAdmin) hasConsentForScope before
      [scope]
      (before.add (checkScope client hasAdminRole hasConsentForScope scopeRequiresAdmin scope)) := by
  unfold Sorts ScopeValidationSummary.add
  simp only [checkScope_decision, checkScope_scope]
  cases hpasses : passesAllowlistAndRole client hasAdminRole scopeRequiresAdmin scope with
  | false => simp [hpasses]
  | true =>
    cases hconsent : hasConsentForScope scope with
    | false => simp [hpasses, hconsent]
    | true => simp [hpasses, hconsent]

theorem sorts_evaluateScopes :
    Sorts (passesAllowlistAndRole client hasAdminRole scopeRequiresAdmin) hasConsentForScope {}
      scopes (evaluateScopes scopes client hasAdminRole hasConsentForScope scopeRequiresAdmin) := by
  unfold evaluateScopes
  generalize ({} : ScopeValidationSummary) = before
  induction scopes generalizing before with
  | nil => simp [Sorts]
  | cons scope scopes ih =>
    have hadd : Sorts (passesAllowlistAndRole client hasAdminRole scopeRequiresAdmin)
        hasConsentForScope before [scope] _ := sorts_add before
    obtain ⟨hvalid, hinvalid, hconsent⟩ := hadd
    obtain ⟨hvalid', hinvalid', hconsent'⟩ := ih (before.add _)
    rw [hvalid, List.append_assoc, ← List.filter_append] at hvalid'
    rw [hinvalid, List.append_assoc, ← List.filter_append] at hinvalid'
    rw [hconsent, List.append_assoc, ← List.filter_append] at hconsent'
    exact ⟨hvalid', hinvalid', hconsent'⟩

end Engine

/-! ### The course of an evaluation -/

namespace AuthorizationService

variable {service : AuthorizationService} {ports : ScopePorts} {subject : String}
  {requested : List String} {client : OAuth2Client} {userId : Int}
  {hasAdminRole hasConsent : Bool} {scope : String} {s : Evaluation}

theorem summary_eq (hclients : service.hasClients = true) (hclient : ports.client = some client) :
    service.summary ports requested = OAuth2.evaluateScopes requested client
      (service.userIsAdmin ports) (service.consented ports) service.requiresAdmin := by
  rw [summary, if_neg (by rw [hclients]; decide)]
  simp only [hclient]

theorem summary_sorts :
    (service.summary ports requested).valid =
        requested.filter (fun x => service.permitted ports x && service.consented ports x) ∧
      (service.summary ports requested).invalid =
        requested.filter (fun x => !service.permitted ports x) ∧
      (service.summary ports requested).consentRequired =
        requested.filter (fun x => service.permitted ports x && !service.consented ports x) := by
  cases hdeciding : service.decidingClient ports with
  | none =>
    have hsummary : ∃ reason, service.summary ports requested = allInvalid requested reason := by
      unfold summary
      unfold decidingClient at hdeciding
      split at hdeciding
      · exact ⟨_, if_pos ‹_›⟩
      · rw [if_neg ‹_›, hdeciding]
        exact ⟨_, rfl⟩
    obtain ⟨reason, hsummary⟩ := hsummary
    simp [hsummary, allInvalid, permitted, hdeciding]
  | some client =>
    unfold decidingClient at hdeciding
    split at hdeciding
    · cases hdeciding
    rename_i hclients
    have hsorts : Sorts (passesAllowlistAndRole client (service.userIsAdmin ports)
        service.requiresAdmin) (service.consented ports) {} requested _ := sorts_evaluateScopes
    have hpermitted : service.permitted ports = passesAllowlistAndRole client
        (service.userIsAdmin ports) service.requiresAdmin := by
      funext x
      simp only [permitted, decidingClient, if_neg hclients, hdeciding, passesAllowlistAndRole]
    rw [summary_eq (by simpa using hclients) hdeciding, hpermitted]
    exact hsorts

/-- One of the lookups that evaluate this request. -/
def IsLookup (requested : List String) (client : OAuth2Client) (userId : Int)
    (hasAdminRole : Bool) (waiting : ScopeCallback) : Prop :=
  ∃ scope ∈ requested, waiting = .onConsent client userId hasAdminRole scope

/-- The consent answers are complete once the waiting lookups are answered. -/
structure Collecting (ports : ScopePorts) (requested : List String) (client : OAuth2Client)
    (userId : Int) (hasAdminRole : Bool) (s : Evaluation) : Prop where
  lookups : ∀ waiting ∈ s.pending, IsLookup requested client userId hasAdminRole waiting
  countdown : s.remaining = s.pending.length
  outstanding : s.pending ≠ []
  answers : ∀ scope ∈ requested,
    .onConsent client userId hasAdminRole scope ∈ s.pending ∨
      s.consentMap.lookup scope = some (ports.hasUserConsent userId scope)

/-- The admin flag is right for every gated scope among those requested. -/
def FlagFits (service : AuthorizationService) (ports : ScopePorts) (requested : List String)
    (hasAdminRole : Bool) : Prop :=
  ∀ scope ∈ requested, service.requiresAdmin scope = true →
    hasAdminRole = service.userIsAdmin ports

/-- Where an evaluation stands, with the number of answers it waits for at most. -/
inductive Stage (service : AuthorizationService) (ports : ScopePorts) (requested : List String) :
    Evaluation → Nat → Prop
  | client {s : Evaluation} (hpending : s.pending = [.onClient]) (hcalls : s.calls = [])
      (hclients : service.hasClients = true) :
      Stage service ports requested s (requested.length + 3)
  | resolving {s : Evaluation} {client : OAuth2Client} (hpending : s.pending = [.onResolved client])
      (hcalls : s.calls = []) (hclients : service.hasClients = true)
      (hclient : ports.client = some client) (hresolver : service.hasSubjectResolver = true) :
      Stage service ports requested s (requested.length + 2)
  | roles {s : Evaluation} {client : OAuth2Client} {userId : Int}
      (hpending : s.pending = [.onRoles client userId]) (hcalls : s.calls = [])
      (hclients : service.hasClients = true) (hclient : ports.client = some client)
      (hresolved : service.resolvedUser ports = some userId)
      (hprovider : service.hasRoleProvider = true) :
      Stage service ports requested s (requested.length + 1)
  | collecting {s : Evaluation} {client : OAuth2Client} {userId : Int} {hasAdminRole : Bool}
      (hcollecting : Collecting ports requested client userId hasAdminRole s) (hcalls : s.calls = [])
      (hclients : service.hasClients = true) (hclient : ports.client = some client)
      (hresolved : service.resolvedUser ports = some userId)
      (hconsents : service.hasConsents = true)
      (hflag : FlagFits service ports requested hasAdminRole) :
      Stage service ports requested s s.pending.length
  | ended {s : Evaluation} (hpending : s.pending = [])
      (hcalls : s.calls = [service.summary ports requested]) :
      Stage service ports requested s 0

theorem stage_proceedWithAdminFlag (hpending : s.pending = []) (hcalls : s.calls = [])
    (hclients : service.hasClients = true) (hclient : ports.client = some client)
    (hflag : FlagFits service ports requested hasAdminRole) :
    ∃ budget ≤ requested.length, Stage service ports requested
      (service.proceedWithAdminFlag requested client (service.resolvedUser ports) hasAdminRole s)
      budget := by
  have hsummary : service.summary ports requested = _ := summary_eq hclients hclient
  have hnone (h : ∀ scope ∈ requested, service.consented ports scope = false) :
      Stage service ports requested (callback (OAuth2.evaluateScopes requested client hasAdminRole
        (fun _ => false) service.requiresAdmin) s) 0 := by
    refine .ended hpending ?_
    rw [callback, hcalls, hsummary]
    rw [evaluateScopes_congr hflag fun scope hscope => (h scope hscope).symm]
  unfold proceedWithAdminFlag
  cases hresolved : service.resolvedUser ports with
  | none =>
    refine ⟨0, Nat.zero_le _, hnone ?_⟩
    intro scope _
    simp only [consented, hresolved]
  | some userId =>
    dsimp only
    split
    · rename_i hearly
      refine ⟨0, Nat.zero_le _, hnone ?_⟩
      intro scope hscope
      rcases hearly with hconsents | rfl
      · simp only [consented, hresolved, hconsents, Bool.false_and]
      · cases hscope
    · rename_i hearly
      obtain ⟨hconsents, hne⟩ := not_or.mp hearly
      rw [hpending, List.nil_append]
      have hlength : (requested.map (ScopeCallback.onConsent client userId hasAdminRole)).length =
          requested.length := List.length_map _
      refine ⟨requested.length, Nat.le_refl _, ?_⟩
      have hcollecting : Collecting ports requested client userId hasAdminRole
          { s with
            pending := requested.map (.onConsent client userId hasAdminRole)
            consentMap := ∅
            remaining := requested.length } := by
        refine ⟨?_, hlength.symm, ?_, ?_⟩
        · intro waiting hwaiting
          obtain ⟨scope, hscope, rfl⟩ := List.mem_map.mp hwaiting
          exact ⟨scope, hscope, rfl⟩
        · simpa using hne
        · intro scope hscope
          exact .inl (List.mem_map_of_mem hscope)
      have hstage := Stage.collecting hcollecting hcalls hclients hclient hresolved
        (by simpa using hconsents) hflag
      rwa [hlength] at hstage

theorem stage_onResolved (hpending : s.pending = []) (hcalls : s.calls = [])
    (hclients : service.hasClients = true) (hclient : ports.client = some client) :
    ∃ budget ≤ requested.length + 1, Stage service ports requested
      (service.onResolved requested client (service.resolvedUser ports) s) budget := by
  unfold onResolved
  cases hresolved : service.resolvedUser ports with
  | none =>
    have hflag : FlagFits service ports requested false := by
      intro scope _ _
      simp only [userIsAdmin, hresolved]
    obtain ⟨budget, hle, hstage⟩ :=
      stage_proceedWithAdminFlag hpending hcalls hclients hclient hflag
    rw [hresolved] at hstage
    exact ⟨budget, by omega, hstage⟩
  | some userId =>
    dsimp only
    split
    · rename_i hskip
      have hflag : FlagFits service ports requested false := by
        intro scope hscope hgated
        rcases hskip with hskip | hskip
        · rw [anyRequiresAdminRole, List.any_eq_false] at hskip
          exact absurd hgated (hskip scope hscope)
        · simp only [userIsAdmin, hresolved, hskip, Bool.false_and]
      obtain ⟨budget, hle, hstage⟩ :=
        stage_proceedWithAdminFlag hpending hcalls hclients hclient hflag
      rw [hresolved] at hstage
      exact ⟨budget, by omega, hstage⟩
    · rename_i hask
      have hprovider : service.hasRoleProvider = true := by
        simpa using (not_or.mp hask).2
      refine ⟨_, Nat.le_refl _, .roles ?_ hcalls hclients hclient hresolved hprovider⟩
      rw [hpending, List.nil_append]

theorem stage_onClient (hfits : service.SubjectFits ports subject) (hpending : s.pending = [])
    (hcalls : s.calls = []) (hclients : service.hasClients = true) :
    ∃ budget ≤ requested.length + 2, Stage service ports requested
      (service.onClient subject requested ports.client s) budget := by
  unfold onClient
  cases hclient : ports.client with
  | none =>
    refine ⟨0, Nat.zero_le _, .ended hpending ?_⟩
    have hsummary : service.summary ports requested = allInvalid requested "client_not_found" := by
      rw [summary, if_neg (by rw [hclients]; decide), hclient]
    rw [hsummary, callback, hcalls]
  | some client =>
    dsimp only
    split
    · rename_i hresolver
      obtain ⟨budget, hle, hstage⟩ := stage_onResolved hpending hcalls hclients hclient
      rw [resolvedUser, if_pos hresolver] at hstage
      exact ⟨budget, by omega, hstage⟩
    · rename_i hresolver
      have hsubject : subject ≠ "" := by
        rcases hfits with h | h | h | h
        · rw [hclients] at h
          cases h
        · rw [hclient] at h
          cases h
        · exact absurd h hresolver
        · exact h
      rw [Subject.make_of_ne hsubject]
      refine ⟨_, Nat.le_refl _, .resolving ?_ hcalls hclients hclient (by simpa using hresolver)⟩
      rw [hpending, List.nil_append]

theorem mem_or_eq_of_mem_eraseIdx {α : Type} {xs : List α} {x y : α} {i : Nat} (hx : x ∈ xs)
    (hy : xs[i]? = some y) : x = y ∨ x ∈ xs.eraseIdx i := by
  obtain ⟨hlt, rfl⟩ := List.getElem?_eq_some_iff.mp hy
  obtain ⟨j, hj, rfl⟩ := List.getElem_of_mem hx
  by_cases hij : j = i
  · subst hij
    exact .inl rfl
  · exact .inr (List.mem_eraseIdx_iff_getElem.mpr ⟨j, hj, hij, rfl⟩)

/-- One lookup less; the last one hands the engine's summary to the caller. -/
theorem stage_onConsent (hcollecting : Collecting ports requested client userId hasAdminRole s)
    (hcalls : s.calls = []) (hclients : service.hasClients = true)
    (hclient : ports.client = some client) (hresolved : service.resolvedUser ports = some userId)
    (hconsents : service.hasConsents = true)
    (hflag : FlagFits service ports requested hasAdminRole) {i : Nat}
    (hi : s.pending[i]? = some (.onConsent client userId hasAdminRole scope)) :
    Stage service ports requested (service.onConsent requested client hasAdminRole scope
      (ports.hasUserConsent userId scope) { s with pending := s.pending.eraseIdx i })
      (s.pending.length - 1) := by
  obtain ⟨hlt, -⟩ := List.getElem?_eq_some_iff.mp hi
  have hlength : (s.pending.eraseIdx i).length = s.pending.length - 1 :=
    List.length_eraseIdx_of_lt hlt
  -- Every answer of the map is right, whatever lookups of the same scope came before.
  have hanswers : ∀ x ∈ requested,
      .onConsent client userId hasAdminRole x ∈ s.pending.eraseIdx i ∨
        (s.consentMap.insert scope (ports.hasUserConsent userId scope)).lookup x =
          some (ports.hasUserConsent userId x) := by
    intro x hx
    by_cases heq : x = scope
    · subst heq
      exact .inr (AList.lookup_insert _)
    · rw [AList.lookup_insert_ne heq]
      rcases hcollecting.answers x hx with hmem | hanswer
      · rcases mem_or_eq_of_mem_eraseIdx hmem hi with hsame | hmem
        · cases hsame
          exact absurd rfl heq
        · exact .inl hmem
      · exact .inr hanswer
  unfold onConsent
  simp only [hcollecting.countdown]
  split
  · rename_i hzero
    have hnil : s.pending.eraseIdx i = [] := List.length_eq_zero_iff.mp (by omega)
    rw [hzero]
    refine .ended hnil ?_
    rw [callback, hcalls, summary_eq hclients hclient]
    refine congrArg (· :: []) (evaluateScopes_congr hflag ?_)
    intro x hx
    have hanswer := (hanswers x hx).resolve_left (by rw [hnil]; exact List.not_mem_nil)
    simp only [consentOf, hanswer, consented, hresolved, hconsents, Bool.true_and]
  · rename_i hmore
    have hrest : Collecting ports requested client userId hasAdminRole
        { s with
          pending := s.pending.eraseIdx i
          consentMap := s.consentMap.insert scope (ports.hasUserConsent userId scope)
          remaining := s.pending.length - 1 } := by
      refine ⟨?_, hlength.symm, ?_, hanswers⟩
      · intro waiting hwaiting
        exact hcollecting.lookups waiting (List.mem_of_mem_eraseIdx hwaiting)
      · intro hnil
        have hnil : s.pending.eraseIdx i = [] := hnil
        rw [hnil] at hlength
        exact hmore hlength.symm
    have hstage := Stage.collecting hrest hcalls hclients hclient hresolved hconsents hflag
    rwa [hlength] at hstage

theorem stage_begin :
    ∃ budget ≤ requested.length + 3,
      Stage service ports requested (service.begin requested) budget := by
  unfold begin
  split
  · rename_i hclients
    refine ⟨0, Nat.zero_le _, .ended rfl ?_⟩
    rw [summary, if_pos hclients]
    rfl
  · rename_i hclients
    exact ⟨_, Nat.le_refl _, .client rfl rfl (by simpa using hclients)⟩

theorem getElem?_singleton_of_lt {α : Type} {xs : List α} {x : α} {i : Nat} (hxs : xs = [x])
    (hlt : i < xs.length) : xs[i]? = some x ∧ xs.eraseIdx i = [] := by
  subst hxs
  obtain rfl : i = 0 := by simpa using hlt
  exact ⟨rfl, rfl⟩

/-- Every answer brings the evaluation closer to its end. -/
theorem stage_step {budget i : Nat} (hfits : service.SubjectFits ports subject)
    (hstage : Stage service ports requested s budget) (hi : i < s.pending.length) :
    ∃ budget' < budget, Stage service ports requested
      ((service.machine ports subject requested).step s i).1 budget' := by
  cases hstage with
  | client hpending hcalls hclients =>
    obtain ⟨hwaiting, hnil⟩ := getElem?_singleton_of_lt hpending hi
    simp only [machine, hwaiting, hnil, complete]
    obtain ⟨budget', hle, hstage'⟩ := stage_onClient (s := { s with pending := [] }) hfits rfl
      hcalls hclients
    exact ⟨budget', by omega, hstage'⟩
  | @resolving client hpending hcalls hclients hclient hresolver =>
    obtain ⟨hwaiting, hnil⟩ := getElem?_singleton_of_lt hpending hi
    simp only [machine, hwaiting, hnil, complete]
    have hresolved : service.resolvedUser ports = ports.internalUserId := by
      rw [resolvedUser, if_neg (by rw [hresolver]; decide)]
    obtain ⟨budget', hle, hstage'⟩ := stage_onResolved (s := { s with pending := [] }) rfl hcalls
      hclients hclient
    rw [hresolved] at hstage'
    exact ⟨budget', by omega, hstage'⟩
  | @roles client userId hpending hcalls hclients hclient hresolved hprovider =>
    obtain ⟨hwaiting, hnil⟩ := getElem?_singleton_of_lt hpending hi
    simp only [machine, hwaiting, hnil, complete]
    have hflag : FlagFits service ports requested (decide ("admin" ∈ ports.roles userId)) := by
      intro scope _ _
      simp only [userIsAdmin, hresolved, hprovider, Bool.true_and]
    obtain ⟨budget', hle, hstage'⟩ := stage_proceedWithAdminFlag (s := { s with pending := [] })
      rfl hcalls hclients hclient hflag
    rw [hresolved] at hstage'
    exact ⟨budget', by omega, hstage'⟩
  | @collecting client userId hasAdminRole hcollecting hcalls hclients hclient hresolved
      hconsents hflag =>
    have hwaiting := List.getElem?_eq_getElem hi
    obtain ⟨scope, -, hlookup⟩ := hcollecting.lookups _ (List.getElem_mem hi)
    rw [hlookup] at hwaiting
    simp only [machine, hwaiting, complete]
    exact ⟨_, by omega, stage_onConsent hcollecting hcalls hclients hclient hresolved hconsents
      hflag hwaiting⟩
  | ended hpending hcalls =>
    rw [hpending] at hi
    cases hi

theorem stage_of_run {history : List Nat} (hfits : service.SubjectFits ports subject)
    (hrun : (service.machine ports subject requested).Run waitingCallback
      (service.begin requested) history s) :
    ∃ budget, history.length + budget ≤ requested.length + 3 ∧
      Stage service ports requested s budget := by
  refine hrun.invariant (fun history s => ∃ budget, history.length + budget ≤
    requested.length + 3 ∧ Stage service ports requested s budget) ?_ ?_
  · obtain ⟨budget, hle, hstage⟩ : ∃ budget ≤ requested.length + 3,
        Stage service ports requested (service.begin requested) budget := stage_begin
    exact ⟨budget, by simpa using hle, hstage⟩
  · intro history s i _ hinv hi
    obtain ⟨budget, hle, hstage⟩ := hinv
    obtain ⟨budget', hlt, hstage'⟩ := stage_step hfits hstage hi
    refine ⟨budget', ?_, hstage'⟩
    rw [List.length_cons]
    omega

theorem Stage.calls_eq {budget : Nat} (hstage : Stage service ports requested s budget) :
    s.calls = if s.pending = [] then [service.summary ports requested] else [] := by
  cases hstage with
  | client hpending hcalls => rw [hcalls, if_neg (by rw [hpending]; exact List.cons_ne_nil _ _)]
  | resolving hpending hcalls => rw [hcalls, if_neg (by rw [hpending]; exact List.cons_ne_nil _ _)]
  | roles hpending hcalls => rw [hcalls, if_neg (by rw [hpending]; exact List.cons_ne_nil _ _)]
  | collecting hcollecting hcalls => rw [hcalls, if_neg hcollecting.outstanding]
  | ended hpending hcalls => rw [hcalls, if_pos hpending]

/-- With every port configured, what the caller gets is the pure evaluation. -/
theorem summary_eq_evaluateScopes (hservice : service.hasClients = true ∧
    service.hasConsents = true ∧ service.hasSubjectResolver = true ∧
    service.hasRoleProvider = true) :
    service.summary ports requested =
      AuthorizationService.evaluateScopes service.adminScopes ports requested := by
  obtain ⟨hclients, hconsents, hresolver, hprovider⟩ := hservice
  have hresolved : service.resolvedUser ports = ports.internalUserId := by
    rw [resolvedUser, if_neg (by rw [hresolver]; decide)]
  cases hclient : ports.client with
  | none =>
    simp only [summary, if_neg (show ¬service.hasClients = false by rw [hclients]; decide), hclient,
      AuthorizationService.evaluateScopes]
  | some client =>
    rw [summary_eq hclients hclient]
    simp only [AuthorizationService.evaluateScopes, hclient]
    cases huser : ports.internalUserId with
    | none =>
      refine evaluateScopes_congr ?_ ?_
      · intro scope _ _
        simp only [userIsAdmin, hresolved, huser]
      · intro scope _
        simp only [consented, hresolved, huser]
    | some userId =>
      refine evaluateScopes_congr ?_ ?_
      · intro scope hscope hgated
        have hneeds : (requested.any fun x => decide (x ∈ service.adminScopes)) = true :=
          List.any_eq_true.mpr ⟨scope, hscope, hgated⟩
        simp only [userIsAdmin, hresolved, huser, hprovider, hneeds, Bool.true_and]
      · intro scope _
        simp only [consented, hresolved, huser, hconsents, Bool.true_and]

theorem calledOnce_of_fits (hfits : service.SubjectFits ports subject) :
    service.CalledOnce ports subject requested := by
  intro history s hrun
  obtain ⟨budget, hle, hstage⟩ := stage_of_run hfits hrun
  exact ⟨by omega, hstage.calls_eq⟩

/-- The answer of the client repository ends the evaluation with an exception. -/
theorem step_emptySubject (hclients : service.hasClients = true)
    (hclient : ports.client = some client) (hresolver : service.hasSubjectResolver = true) :
    ((service.machine ports "" requested).step (service.begin requested) 0).1 =
      { pending := [], escaped := some "Subject: value must not be empty" } := by
  rw [begin, if_neg (by rw [hclients]; decide)]
  simp only [machine, List.getElem?_cons_zero, complete, onClient, hclient]
  rw [if_neg (by rw [hresolver]; decide)]
  rfl

theorem not_calledOnce_of_emptySubject (hclients : service.hasClients = true)
    (hclient : ports.client = some client) (hresolver : service.hasSubjectResolver = true) :
    ¬service.CalledOnce ports "" requested := by
  intro honce
  have hwaiting : waitingCallback [] (service.begin requested) 0 := by
    rw [waitingCallback, begin, if_neg (by rw [hclients]; decide)]
    exact Nat.one_pos
  have hrun : (service.machine ports "" requested).Run waitingCallback (service.begin requested) _
      _ := .next 0 .init hwaiting
  have hcalls := (honce _ _ hrun).2
  rw [step_emptySubject hclients hclient hresolver, if_pos rfl] at hcalls
  cases hcalls

/-- In whatever order the answers come, the caller is called once, at the end, with the engine's
summary, unless the subject is empty where a resolver is asked about it; and the summary sorts the
requested scopes in their order. -/
theorem evaluateScopes_called_once_iff :
    (service.CalledOnce ports subject requested ↔ service.SubjectFits ports subject) ∧
      (service.summary ports requested).valid =
        requested.filter (fun x => service.permitted ports x && service.consented ports x) ∧
      (service.summary ports requested).invalid =
        requested.filter (fun x => !service.permitted ports x) ∧
      (service.summary ports requested).consentRequired =
        requested.filter (fun x => service.permitted ports x && !service.consented ports x) := by
  refine ⟨⟨?_, calledOnce_of_fits⟩, summary_sorts⟩
  intro honce
  by_contra hfits
  simp only [SubjectFits, not_or, not_not] at hfits
  obtain ⟨hclients, hfound, hresolver, rfl⟩ := hfits
  obtain ⟨client, hclient⟩ := Option.ne_none_iff_exists'.mp hfound
  exact not_calledOnce_of_emptySubject (by simpa using hclients) hclient (by simpa using hresolver)
    honce

def knownScopeService : AuthorizationService := ⟨true, true, true, true, ["admin"]⟩

def knownScopePorts : ScopePorts where
  client := some
    { clientId := "app", clientType := .PUBLIC, clientSecretHash := "", salt := "",
      redirectUris := [], allowedScopes := ["openid", "admin"] }
  internalUserId := some 7
  roles _ := ["user"]
  hasUserConsent _ scope := scope == "openid"

/-- Three lookups, two of them for one scope, answered from the last to the first. -/
example :
    let requested := ["openid", "admin", "openid"]
    ((knownScopeService.machine knownScopePorts "local:alice" requested).exec []
        (knownScopeService.begin requested) [0, 0, 0, 2, 1, 0]).2.calls =
      [knownScopeService.summary knownScopePorts requested] := by
  decide +kernel

/-- The client repository answers, the exception leaves its callback, and the caller waits for an
answer that no callback will bring. -/
theorem emptySubject_not_called :
    let reached := (knownScopeService.machine knownScopePorts "" ["openid"]).exec []
      (knownScopeService.begin ["openid"]) [0]
    reached.2.pending = [] ∧ reached.2.calls = [] ∧
      reached.2.escaped = some "Subject: value must not be empty" ∧
      ¬knownScopeService.CalledOnce knownScopePorts "" ["openid"] := by
  refine ⟨by decide +kernel, by decide +kernel, by decide +kernel, ?_⟩
  exact not_calledOnce_of_emptySubject rfl rfl rfl

end AuthorizationService

end AuthForge.OAuth2
