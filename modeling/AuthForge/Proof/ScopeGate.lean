import AuthForge.Authz.ScopeRegistry

/-!
# Whether a dispatched request meets its scope gate

The router compares literal segments without regard to letter case, the registry compares them as
spelled, and the startup check looks every handler up under its own spelling only. So a request is
sure to be gated when it spells its handler's literal segments as they were registered, and all
dispatched requests are gated exactly when the declarations cover every spelling.
-/

namespace AuthForge.ScopeGate

open Authz

structure Deployment where
  handlers : List Handler
  endpoints : List EndpointInfo
  families : List (String × ResourceScopeRequirement) := []

namespace Deployment

variable (d : Deployment)

def registry : Registry :=
  d.families.foldl (fun reg p => reg.registerPrefix p.1 p.2) (buildFromEndpoints d.endpoints)

def Gated (h : Handler) : Prop := h ∈ d.handlers ∧ isAuthGatedPath h.path = true

/-- The registered prefixes are without parameters. -/
def LiteralFamilies : Prop := ∀ p ∈ d.families, ∀ seg ∈ splitPath p.1, isParam seg = false

end Deployment

/-! ### The router -/

def sameLetters (t c : Segment) : Bool := t.map Char.toLower = c.map Char.toLower

/-- A parameter matches any one part, an empty one where the router allows that; a literal part is
compared without regard to the case of ASCII letters. -/
def partRouted (emptyParams : Bool) (t c : Segment) : Bool :=
  if isParam t then emptyParams || c ≠ [] else sameLetters t c

def Routed (emptyParams : Bool) (template path : String) : Prop :=
  List.Forall₂ (fun t c => partRouted emptyParams t c = true) (pathParts template) (pathParts path)

/-- Every request that is dispatched to a gated handler has a requirement. -/
def GateComplete (d : Deployment) (emptyParams : Bool) : Prop :=
  ∀ h, d.Gated h → ∀ path, Routed emptyParams h.path path →
    (d.registry.lookup path h.method).isSome = true

/-- The filter passes no such request without a scope check. -/
def FilterChecks (d : Deployment) (emptyParams : Bool) : Prop :=
  ∀ h, d.Gated h → ∀ validateAccessToken req, Routed emptyParams h.path req.path →
    req.method = h.method → ∀ checked,
      doFilter d.registry validateAccessToken req = .passed checked → checked.isSome = true

/-! ### The condition on deployments -/

/-- A path that differs from the template in the case of literal letters only, with some parameters
left empty where the router allows that. -/
def partSpelled (emptyParams : Bool) (t c : Segment) : Bool :=
  if isParam t then c = t || emptyParams && c = [] else sameLetters t c

def Spelled (emptyParams : Bool) (template path : String) : Prop :=
  List.Forall₂ (fun t c => partSpelled emptyParams t c = true) (pathParts template) (pathParts path)

/-- A template of the method or a prefix matches the path as it is spelled. -/
def Declared (d : Deployment) (path : String) (method : HttpMethod) : Prop :=
  (∃ ep ∈ d.endpoints, ep.requiredScopes ≠ [] ∧ methodFromString ep.method = method ∧
    method ≠ .Invalid ∧ templateMatches (splitPath ep.path) (splitPath path) = true) ∨
  ∃ p ∈ d.families, splitPath p.1 ≠ [] ∧ splitPath p.1 <+: splitPath path

def SpellingsDeclared (d : Deployment) (emptyParams : Bool) : Prop :=
  ∀ h, d.Gated h → ∀ path, Spelled emptyParams h.path path → Declared d path h.method

/-- A request that spells the literal parts as registered and leaves no parameter empty. -/
def partExact (t c : Segment) : Bool := if isParam t then c ≠ [] else c = t

def SpelledExactly (template path : String) : Prop :=
  List.Forall₂ (fun t c => partExact t c = true) (pathParts template) (pathParts path)

/-! ### Lookups in the registry of a deployment -/

variable {d : Deployment} {emptyParams : Bool} {template path : String} {method : HttpMethod}
  {h : Handler}

theorem registerAll_entries {families : List (String × ResourceScopeRequirement)} {reg : Registry} :
    (families.foldl (fun reg p => reg.registerPrefix p.1 p.2) reg).entries = reg.entries := by
  induction families generalizing reg with
  | nil => rfl
  | cons p families ih => exact ih

theorem registerAll_prefixEntries {families : List (String × ResourceScopeRequirement)}
    {reg : Registry} :
    (families.foldl (fun reg p => reg.registerPrefix p.1 p.2) reg).prefixEntries =
      reg.prefixEntries ++ families.map fun p => ⟨p.1, splitPath p.1, p.2⟩ := by
  induction families generalizing reg with
  | nil => simp
  | cons p families ih =>
    rw [List.foldl_cons, ih]
    simp [Registry.registerPrefix]

theorem storedEntry_eq_some {ep : EndpointInfo} {e : StoredEntry} (h : storedEntry ep = some e) :
    ep.requiredScopes ≠ [] ∧ methodFromString ep.method ≠ .Invalid ∧
      e.method = methodFromString ep.method ∧ e.templateSegs = splitPath ep.path := by
  unfold storedEntry at h
  split at h
  · cases h
  · rename_i hscopes
    split at h
    · cases h
    · rename_i hmethod
      obtain rfl := Option.some.inj h
      exact ⟨hscopes, hmethod, rfl, rfl⟩

theorem storedEntry_isSome {ep : EndpointInfo} (hscopes : ep.requiredScopes ≠ [])
    (hmethod : methodFromString ep.method ≠ .Invalid) : ∃ e, storedEntry ep = some e := by
  rw [storedEntry, if_neg hscopes, if_neg hmethod]
  exact ⟨_, rfl⟩

/-- A lookup succeeds exactly on what is declared. -/
theorem lookup_iff_declared :
    (d.registry.lookup path method).isSome = true ↔ Declared d path method := by
  rw [lookup_isSome_iff, Declared, Deployment.registry, registerAll_entries,
    registerAll_prefixEntries]
  refine or_congr ?_ ?_
  · constructor
    · intro h
      obtain ⟨e, hmem, hmethod, hmatches⟩ := h
      obtain ⟨ep, hep, hstored⟩ := List.mem_filterMap.mp hmem
      obtain ⟨hscopes, hvalid, hsame, hsegs⟩ := storedEntry_eq_some hstored
      rw [hsegs] at hmatches
      rw [← hsame, hmethod] at hvalid
      exact ⟨ep, hep, hscopes, hsame.symm.trans hmethod, hvalid, hmatches⟩
    · intro h
      obtain ⟨ep, hep, hscopes, hmethod, hvalid, hmatches⟩ := h
      obtain ⟨e, hstored⟩ := storedEntry_isSome hscopes (hmethod ▸ hvalid)
      obtain ⟨-, -, hsame, hsegs⟩ := storedEntry_eq_some hstored
      refine ⟨e, List.mem_filterMap.mpr ⟨ep, hep, hstored⟩, hsame.trans hmethod, ?_⟩
      rw [hsegs]
      exact hmatches
  · simp [buildFromEndpoints, List.length_pos_iff]

/-! ### Filling the parameters of a path -/

/-- The second path is the first one with other parts in place of parameters. -/
def Fills (a c : Segment) : Prop := a = c ∨ isParam a = true ∧ c ≠ []

theorem ne_nil_of_isParam {t : Segment} (h : isParam t = true) : t ≠ [] := by
  intro heq
  subst heq
  simp [isParam] at h

theorem fills_filter {as cs : List Segment} (h : List.Forall₂ Fills as cs) :
    List.Forall₂ Fills (as.filter (· ≠ [])) (cs.filter (· ≠ [])) := by
  induction h with
  | nil => exact .nil
  | @cons a c as cs hfills _ ih =>
    rcases hfills with rfl | ⟨hparam, hne⟩
    · by_cases hempty : a = []
      · rw [List.filter_cons_of_neg (by simp [hempty]), List.filter_cons_of_neg (by simp [hempty])]
        exact ih
      · rw [List.filter_cons_of_pos (by simp [hempty]), List.filter_cons_of_pos (by simp [hempty])]
        exact .cons (.inl rfl) ih
    · have hne' := ne_nil_of_isParam hparam
      rw [List.filter_cons_of_pos (by simp [hne']), List.filter_cons_of_pos (by simp [hne])]
      exact .cons (.inr ⟨hparam, hne⟩) ih

theorem templateMatches_of_fills {ts as cs : List Segment} (hmatches : templateMatches ts as = true)
    (hfills : List.Forall₂ Fills as cs) : templateMatches ts cs = true := by
  rw [templateMatches_iff] at hmatches ⊢
  induction hmatches generalizing cs with
  | nil =>
    cases hfills
    exact .nil
  | @cons t a ts as hta _ ih =>
    cases hfills with
    | cons hac hrest =>
      refine .cons ?_ (ih hrest)
      rcases hta with hparam | rfl
      · exact .inl hparam
      · rcases hac with rfl | ⟨hparam, -⟩
        · exact .inr rfl
        · exact .inl hparam

theorem isPrefix_of_fills {ps as cs : List Segment} (hliteral : ∀ p ∈ ps, isParam p = false)
    (hbelow : ps <+: as) (hfills : List.Forall₂ Fills as cs) : ps <+: cs := by
  induction ps generalizing as cs with
  | nil => exact List.nil_prefix
  | cons p ps ih =>
    obtain ⟨rest, rfl⟩ := hbelow
    cases hfills with
    | @cons _ c _ cs hpc hrest =>
      rcases hpc with rfl | ⟨hparam, -⟩
      · rw [List.prefix_cons_inj]
        refine ih (fun q hq => hliteral q (List.mem_cons_of_mem p hq)) ?_ hrest
        exact List.prefix_append ps rest
      · rw [hliteral p List.mem_cons_self] at hparam
        cases hparam

/-- What is declared for a path with parameters is declared for every path that fills them. -/
theorem Declared.fill (hfamilies : d.LiteralFamilies) (hdeclared : Declared d template method)
    (hfills : List.Forall₂ Fills (pathParts template) (pathParts path)) :
    Declared d path method := by
  have hsegs : List.Forall₂ Fills (splitPath template) (splitPath path) := fills_filter hfills
  rcases hdeclared with ⟨ep, hep, hscopes, hmethod, hvalid, hmatches⟩ | ⟨p, hp, hne, hbelow⟩
  · exact .inl ⟨ep, hep, hscopes, hmethod, hvalid, templateMatches_of_fills hmatches hsegs⟩
  · exact .inr ⟨p, hp, hne, isPrefix_of_fills (hfamilies p hp) hbelow hsegs⟩

/-! ### Putting the parameters back -/

def putBack (t c : Segment) : Segment := if isParam t && c ≠ [] then t else c

/-- The spelling of the template that a dispatched request follows. -/
def respelled (template path : String) : String :=
  String.ofList (['/'].intercalate (List.zipWith putBack (pathParts template) (pathParts path)))

theorem pathParts_ne_nil : pathParts path ≠ [] := List.splitOn_ne_nil _ _

theorem pathParts_respelled :
    pathParts (respelled template path) =
      List.zipWith putBack (pathParts template) (pathParts path) := by
  rw [respelled, pathParts, String.toList_ofList]
  refine List.splitOn_intercalate '/' ?_ ?_
  · intro part hpart
    rw [← List.map_uncurry_zip_eq_zipWith] at hpart
    obtain ⟨⟨t, c⟩, hmem, rfl⟩ := List.mem_map.mp hpart
    obtain ⟨ht, hc⟩ := List.of_mem_zip hmem
    rw [Function.uncurry_apply_pair, putBack]
    split
    · exact notMem_of_mem_splitOn ht
    · exact notMem_of_mem_splitOn hc
  · rw [ne_eq, List.zipWith_eq_nil_iff, not_or]
    exact ⟨pathParts_ne_nil, pathParts_ne_nil⟩

theorem spelled_respelled (h : Routed emptyParams template path) :
    Spelled emptyParams template (respelled template path) := by
  rw [Spelled, pathParts_respelled]
  unfold Routed at h
  generalize pathParts template = ts at h ⊢
  generalize pathParts path = cs at h ⊢
  induction h with
  | nil => exact .nil
  | @cons t c ts cs hrouted _ ih =>
    refine .cons ?_ ih
    unfold partRouted at hrouted
    unfold partSpelled putBack
    cases hparam : isParam t with
    | false => simpa [hparam] using hrouted
    | true =>
      rw [hparam] at hrouted
      by_cases hempty : c = []
      · have hallowed : emptyParams = true := by simpa [hempty] using hrouted
        simp [hempty, hallowed]
      · simp [hempty]

theorem fills_respelled (h : Routed emptyParams template path) :
    List.Forall₂ Fills (pathParts (respelled template path)) (pathParts path) := by
  rw [pathParts_respelled]
  unfold Routed at h
  generalize pathParts template = ts at h ⊢
  generalize pathParts path = cs at h ⊢
  induction h with
  | nil => exact .nil
  | @cons t c ts cs _ _ ih =>
    refine .cons ?_ ih
    unfold putBack
    split
    · rename_i hfilled
      simp only [Bool.and_eq_true, decide_eq_true_eq] at hfilled
      exact .inr hfilled
    · exact .inl rfl

theorem routed_of_spelled (h : Spelled emptyParams template path) :
    Routed emptyParams template path := by
  refine List.Forall₂.imp ?_ h
  intro t c hspelled
  unfold partSpelled at hspelled
  unfold partRouted
  cases hparam : isParam t with
  | false => simpa [hparam] using hspelled
  | true =>
    rw [hparam, if_pos rfl] at hspelled
    rw [if_pos rfl]
    simp only [Bool.or_eq_true, Bool.and_eq_true, decide_eq_true_eq] at hspelled ⊢
    rcases hspelled with rfl | ⟨hallowed, -⟩
    · exact .inr (ne_nil_of_isParam hparam)
    · exact .inl hallowed

theorem routed_self : Routed emptyParams template template := by
  refine routed_of_spelled ?_
  rw [Spelled, List.forall₂_same]
  intro t _
  unfold partSpelled
  split
  · simp
  · simp [sameLetters]

/-! ### The gate -/

theorem gateComplete_iff (hfamilies : d.LiteralFamilies) :
    GateComplete d emptyParams ↔ SpellingsDeclared d emptyParams := by
  constructor
  · intro hcomplete h hgated path hspelled
    rw [← lookup_iff_declared]
    exact hcomplete h hgated path (routed_of_spelled hspelled)
  · intro hspellings h hgated path hrouted
    rw [lookup_iff_declared]
    have hdeclared := hspellings h hgated _ (spelled_respelled hrouted)
    exact hdeclared.fill hfamilies (fills_respelled hrouted)

theorem doFilter_checked {reg : Registry} {validateAccessToken : String → Option String}
    {req : FilterRequest} {checked : Option ResourceScopeRequirement}
    (hmethod : req.method ≠ .Options) (hfound : (reg.lookup req.path req.method).isSome = true)
    (h : doFilter reg validateAccessToken req = .passed checked) : checked.isSome = true := by
  unfold doFilter at h
  rw [if_neg hmethod] at h
  split at h
  · cases h
  split at h
  · cases h
  split at h
  · rename_i hnone
    rw [hnone] at hfound
    cases hfound
  · split at h
    · cases h
      rfl
    · cases h

theorem filterChecks_iff (hcomplete : GateComplete d emptyParams) :
    FilterChecks d emptyParams ↔ ∀ h, d.Gated h → h.method ≠ .Options := by
  constructor
  · intro hchecks h hgated hoptions
    have := hchecks h hgated (fun _ => none) { path := h.path, method := h.method } routed_self rfl
      none (by rw [doFilter, if_pos hoptions])
    cases this
  · intro hmethods h hgated validateAccessToken req hrouted hmethod checked hpassed
    refine doFilter_checked ?_ ?_ hpassed
    · rw [hmethod]
      exact hmethods h hgated
    · rw [hmethod]
      exact hcomplete h hgated req.path hrouted

theorem lookup_of_spelledExactly (hfamilies : d.LiteralFamilies)
    (hcheck : runConsistencyCheck d.registry d.handlers = .passed) (hgated : d.Gated h)
    (hexact : SpelledExactly h.path path) : (d.registry.lookup path h.method).isSome = true := by
  rw [lookup_iff_declared]
  have hdeclared := lookup_iff_declared.mp (lookup_of_passed hcheck hgated.1 hgated.2)
  refine hdeclared.fill hfamilies (List.Forall₂.imp ?_ hexact)
  intro t c hpart
  unfold partExact at hpart
  cases hparam : isParam t with
  | false =>
    rw [hparam] at hpart
    exact .inl (of_decide_eq_true hpart).symm
  | true =>
    rw [hparam] at hpart
    exact .inr ⟨hparam, of_decide_eq_true hpart⟩

/-- In a deployment that passes its startup check, every dispatched gated request finds its
requirement and is checked by the filter exactly when the declarations cover every spelling of the
gated handlers and none of these is for `OPTIONS`. A request that spells the literal segments as
they are registered finds its requirement in any case. -/
theorem scope_gate_iff (d : Deployment) (emptyParams : Bool) (hfamilies : d.LiteralFamilies)
    (hcheck : runConsistencyCheck d.registry d.handlers = .passed) :
    (GateComplete d emptyParams ∧ FilterChecks d emptyParams ↔
      SpellingsDeclared d emptyParams ∧ ∀ h, d.Gated h → h.method ≠ .Options) ∧
    ∀ h, d.Gated h → ∀ path, SpelledExactly h.path path →
      (d.registry.lookup path h.method).isSome = true := by
  refine ⟨?_, ?_⟩
  · constructor
    · intro hboth
      exact ⟨(gateComplete_iff hfamilies).mp hboth.1, (filterChecks_iff hboth.1).mp hboth.2⟩
    · intro hcondition
      have hcomplete := (gateComplete_iff hfamilies).mpr hcondition.1
      exact ⟨hcomplete, (filterChecks_iff hcomplete).mpr hcondition.2⟩
  · intro h hgated path hexact
    exact lookup_of_spelledExactly hfamilies hcheck hgated hexact

/-! ### A deployment -/

def knownDeployment : Deployment where
  handlers := [⟨"/api/admin/users/{userId}", .Get⟩, ⟨"/api/me", .Get⟩, ⟨"/health", .Get⟩]
  endpoints :=
    [{ path := "/api/admin/users/{userId}", method := "GET", requiredScopes := ["users:read"]
       impliedBy := ["admin"] }]
  families := [("/api/me", { scopes := ["profile"] })]

theorem known_passes :
    knownDeployment.LiteralFamilies ∧
      runConsistencyCheck knownDeployment.registry knownDeployment.handlers = .passed ∧
      knownDeployment.Gated ⟨"/api/admin/users/{userId}", .Get⟩ ∧
      SpelledExactly "/api/admin/users/{userId}" "/api/admin/users/7" := by
  unfold Deployment.LiteralFamilies Deployment.Gated SpelledExactly
  decide +kernel

theorem scope_gate_iff_known :
    knownDeployment.LiteralFamilies ∧
    runConsistencyCheck knownDeployment.registry knownDeployment.handlers = .passed ∧
    (knownDeployment.registry.lookup "/api/admin/users/7" .Get).isSome = true := by
  obtain ⟨hfamilies, hpasses, hgated, hspelled⟩ := known_passes
  exact ⟨hfamilies, hpasses,
    (scope_gate_iff knownDeployment false hfamilies hpasses).2 _ hgated _ hspelled⟩

def otherSpelling : FilterRequest where
  path := "/API/admin/users/7"
  method := .Get
  authorization := "Bearer t"

/-- The handler is reached under another spelling, and the filter lets any valid token through,
whether or not parameters may be empty. -/
theorem known_not_complete :
    knownDeployment.LiteralFamilies ∧
    runConsistencyCheck knownDeployment.registry knownDeployment.handlers = .passed ∧
    ¬GateComplete knownDeployment false ∧ ¬FilterChecks knownDeployment false ∧
    ¬GateComplete knownDeployment true ∧ ¬FilterChecks knownDeployment true := by
  obtain ⟨hlookup, hpassed, hrouted⟩ :
      knownDeployment.registry.lookup otherSpelling.path .Get = none ∧
        doFilter knownDeployment.registry (fun _ => some "openid") otherSpelling = .passed none ∧
        ∀ emptyParams, Routed emptyParams "/api/admin/users/{userId}" "/API/admin/users/7" := by
    unfold Routed
    decide +kernel
  obtain ⟨hfamilies, hpasses, hgated, -⟩ := known_passes
  have hgate : ∀ emptyParams, ¬GateComplete knownDeployment emptyParams := by
    intro emptyParams hcomplete
    have hfound := hcomplete _ hgated otherSpelling.path (hrouted emptyParams)
    rw [hlookup] at hfound
    cases hfound
  have hfilter : ∀ emptyParams, ¬FilterChecks knownDeployment emptyParams := by
    intro emptyParams hchecks
    have hchecked := hchecks _ hgated _ otherSpelling (hrouted emptyParams) rfl none hpassed
    cases hchecked
  exact ⟨hfamilies, hpasses, hgate false, hfilter false, hgate true, hfilter true⟩

end AuthForge.ScopeGate
