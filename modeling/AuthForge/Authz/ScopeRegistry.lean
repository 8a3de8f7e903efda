import Mathlib.Data.List.Forall2
import Mathlib.Data.List.Sort
import AuthForge.Base.Text
import AuthForge.OAuth2.TokenService

/-!
# The resource-scope registry

`ResourceScopeRegistry` maps a request path and method to the scopes it requires, from the endpoint
declarations of the controllers and from catch-all prefixes. `OAuth2AuthFilter` asks it for every
request with a valid token. A path is looked up by its non-empty segments, which are compared as
they are spelled.
-/

namespace AuthForge.Authz

open OAuth2

/-! ### Paths -/

abbrev Segment := List Char

/-- All parts of a path between slashes, the empty ones included. -/
def pathParts (path : String) : List Segment := path.toList.splitOn '/'

def splitPath (path : String) : List Segment := (pathParts path).filter (· ≠ [])

/-- A template segment in braces. -/
def isParam (t : Segment) : Bool := t.head? = some '{' && t.getLast? = some '}'

def templateMatches (templateSegs concreteSegs : List Segment) : Bool :=
  templateSegs.length = concreteSegs.length &&
    (templateSegs.zip concreteSegs).all fun (t, c) => isParam t || t = c

inductive HttpMethod
  | Get
  | Post
  | Head
  | Put
  | Delete
  | Options
  | Patch
  | Invalid
  deriving DecidableEq, Repr

def methodFromString (s : String) : HttpMethod :=
  if s = "GET" then .Get
  else if s = "POST" then .Post
  else if s = "PUT" then .Put
  else if s = "DELETE" then .Delete
  else if s = "PATCH" then .Patch
  else if s = "OPTIONS" then .Options
  else if s = "HEAD" then .Head
  else .Invalid

def methodToString : HttpMethod → String
  | .Get => "GET"
  | .Post => "POST"
  | .Put => "PUT"
  | .Delete => "DELETE"
  | .Patch => "PATCH"
  | .Options => "OPTIONS"
  | .Head => "HEAD"
  | .Invalid => "UNKNOWN"

/-! ### Requirements -/

inductive ScopeMatch
  | All
  | Any
  deriving DecidableEq, Repr

structure ResourceScopeRequirement where
  scopes : List String
  scopeMatch : ScopeMatch := .All
  impliedBy : List String := []
  deriving DecidableEq, Repr

def hasScope (tokenScopes requiredScope : String) : Bool :=
  TokenService.scopeContains tokenScopes requiredScope

def scopeSatisfied (tokenScopes required : String) (impliedBy : List String) : Bool :=
  hasScope tokenScopes required || impliedBy.any (hasScope tokenScopes)

def satisfies (tokenScopes : String) (req : ResourceScopeRequirement) : Bool :=
  if req.scopes = [] then true
  else
    match req.scopeMatch with
    | .All => req.scopes.all fun s => scopeSatisfied tokenScopes s req.impliedBy
    | .Any => req.scopes.any fun s => scopeSatisfied tokenScopes s req.impliedBy

/-! ### The registry -/

structure EndpointInfo where
  path : String
  method : String
  requiredScopes : List String := []
  impliedBy : List String := []
  deriving DecidableEq, Repr

structure StoredEntry where
  templatePath : String
  templateSegs : List Segment
  method : HttpMethod
  requirement : ResourceScopeRequirement

/-- A prefix that gates a whole family of paths. -/
structure PrefixEntry where
  path : String
  segs : List Segment
  requirement : ResourceScopeRequirement

structure Registry where
  entries : List StoredEntry
  prefixEntries : List PrefixEntry := []

def storedEntry (ep : EndpointInfo) : Option StoredEntry :=
  if ep.requiredScopes = [] then none
  else if methodFromString ep.method = .Invalid then none
  else
    some
      { templatePath := ep.path
        templateSegs := splitPath ep.path
        method := methodFromString ep.method
        requirement := { scopes := ep.requiredScopes, impliedBy := ep.impliedBy } }

def buildFromEndpoints (endpoints : List EndpointInfo) : Registry :=
  { entries := endpoints.filterMap storedEntry }

namespace Registry

variable (reg : Registry)

def registerPrefix (path : String) (req : ResourceScopeRequirement) : Registry :=
  { reg with
    prefixEntries := reg.prefixEntries ++
      [{ path, segs := splitPath path, requirement := req }] }

def findTemplate (concreteSegs : List Segment) (method : HttpMethod) : Option StoredEntry :=
  reg.entries.find? fun e => e.method = method && templateMatches e.templateSegs concreteSegs

/-- The longest prefix wins, the first one among equals; one without segments never does. -/
def longestPrefix (concreteSegs : List Segment) :
    List PrefixEntry → Option PrefixEntry × Nat → Option PrefixEntry × Nat
  | [], best => best
  | pe :: rest, best =>
    longestPrefix concreteSegs rest
      (if pe.segs.isPrefixOf concreteSegs && pe.segs.length > best.2 then
        (some pe, pe.segs.length)
      else best)

def lookup (path : String) (method : HttpMethod) : Option ResourceScopeRequirement :=
  match reg.findTemplate (splitPath path) method with
  | some entry => some entry.requirement
  | none =>
    (longestPrefix (splitPath path) reg.prefixEntries (none, 0)).1.map PrefixEntry.requirement

structure Entry where
  path : String
  method : String
  requirement : ResourceScopeRequirement

def Entry.before (a b : Entry) : Prop :=
  if a.method = b.method then a.path ≤ b.path else a.method < b.method

instance : DecidableRel Entry.before := fun a b => by
  unfold Entry.before
  infer_instance

def templateEntry (e : StoredEntry) : Entry :=
  ⟨e.templatePath, methodToString e.method, e.requirement⟩

def familyEntry (pe : PrefixEntry) : Entry := ⟨pe.path ++ "/*", "ANY", pe.requirement⟩

def snapshot : List Entry :=
  List.insertionSort Entry.before
    (reg.entries.map templateEntry ++ reg.prefixEntries.map familyEntry)

end Registry

/-! ### The startup check -/

structure Handler where
  path : String
  method : HttpMethod
  deriving DecidableEq, Repr

def startsWithBoundary (path family : String) : Bool :=
  path = family || (family.toList ++ ['/']).isPrefixOf path.toList

def isAuthGatedPath (path : String) : Bool :=
  startsWithBoundary path "/api/admin" || startsWithBoundary path "/api/me"

inductive CheckResult
  | passed
  | missing (entries : List String)
  | orphan (entries : List String)
  deriving DecidableEq, Repr

def missingEntries (reg : Registry) (handlers : List Handler) : List String :=
  (handlers.filter fun h => isAuthGatedPath h.path && (reg.lookup h.path h.method).isNone).map
    fun h => methodToString h.method ++ " " ++ h.path

def orphanEntries (reg : Registry) (handlers : List Handler) : List String :=
  (reg.snapshot.filter fun e => e.method ≠ "ANY" && !handlers.any fun h =>
    methodFromString e.method = h.method && h.path = e.path).map fun e => e.method ++ " " ++ e.path

/-- The lists are what the process reports before it aborts. -/
def runConsistencyCheck (reg : Registry) (handlers : List Handler) : CheckResult :=
  if missingEntries reg handlers ≠ [] then .missing (missingEntries reg handlers)
  else if orphanEntries reg handlers ≠ [] then .orphan (orphanEntries reg handlers)
  else .passed

/-! ### The filter -/

inductive FilterResult
  /-- The request goes on to its handler, behind the requirement that was checked, if any. -/
  | passed (checked : Option ResourceScopeRequirement)
  | rejected (code message : String)
  | insufficientScope (requirement : ResourceScopeRequirement)
  deriving DecidableEq, Repr

structure FilterRequest where
  path : String
  method : HttpMethod
  authorization : String := ""

/-- `OAuth2AuthFilter::doFilter`; `validateAccessToken` gives the scope of a valid token. -/
def doFilter (reg : Registry) (validateAccessToken : String → Option String)
    (req : FilterRequest) : FilterResult :=
  if req.method = .Options then .passed none
  else if ¬"Bearer ".toList.isPrefixOf req.authorization.toList then
    .rejected "AUTH_TOKEN_INVALID" "Missing or invalid Authorization header"
  else
    match validateAccessToken (String.ofList (req.authorization.toList.drop 7)) with
    | none => .rejected "AUTH_TOKEN_INVALID" "Invalid or expired token"
    | some scope =>
      match reg.lookup req.path req.method with
      | none => .passed none
      | some reqmt => if satisfies scope reqmt then .passed (some reqmt) else .insufficientScope reqmt

/-! ### What a lookup finds -/

theorem templateMatches_iff {templateSegs concreteSegs : List Segment} :
    templateMatches templateSegs concreteSegs = true ↔
      List.Forall₂ (fun t c => isParam t = true ∨ t = c) templateSegs concreteSegs := by
  rw [List.forall₂_iff_zip, templateMatches, Bool.and_eq_true, decide_eq_true_eq,
    List.all_eq_true]
  constructor
  · intro h
    refine ⟨h.1, ?_⟩
    intro t c hmem
    simpa using h.2 (t, c) hmem
  · intro h
    refine ⟨h.1, ?_⟩
    intro tc hmem
    simpa using h.2 hmem

theorem longestPrefix_isSome {concreteSegs : List Segment} {entries : List PrefixEntry}
    {best : Option PrefixEntry × Nat} :
    (Registry.longestPrefix concreteSegs entries best).1.isSome = true ↔
      best.1.isSome = true ∨
        ∃ pe ∈ entries, best.2 < pe.segs.length ∧ pe.segs <+: concreteSegs := by
  induction entries generalizing best with
  | nil => simp [Registry.longestPrefix]
  | cons pe rest ih =>
    rw [Registry.longestPrefix, ih]
    by_cases hwins : (pe.segs.isPrefixOf concreteSegs && pe.segs.length > best.2) = true
    · rw [if_pos hwins]
      simp only [Bool.and_eq_true, List.isPrefixOf_iff_prefix, decide_eq_true_eq, gt_iff_lt] at hwins
      simp [hwins.1, hwins.2]
    · rw [if_neg hwins]
      simp only [Bool.and_eq_true, List.isPrefixOf_iff_prefix, decide_eq_true_eq, gt_iff_lt,
        not_and, not_lt] at hwins
      constructor
      · intro h
        rcases h with h | ⟨pe', hmem, hfound⟩
        · exact .inl h
        · exact .inr ⟨pe', List.mem_cons_of_mem pe hmem, hfound⟩
      · intro h
        rcases h with h | ⟨pe', hmem, hlonger, hbelow⟩
        · exact .inl h
        · rcases List.mem_cons.mp hmem with rfl | hmem
          · exact absurd hlonger (not_lt.mpr (hwins hbelow))
          · exact .inr ⟨pe', hmem, hlonger, hbelow⟩

variable {reg : Registry} {path : String} {method : HttpMethod}

/-- A path is found by a template of its method or by a prefix with at least one segment. -/
theorem lookup_isSome_iff :
    (reg.lookup path method).isSome = true ↔
      (∃ e ∈ reg.entries, e.method = method ∧
        templateMatches e.templateSegs (splitPath path) = true) ∨
      ∃ pe ∈ reg.prefixEntries, 0 < pe.segs.length ∧ pe.segs <+: splitPath path := by
  unfold Registry.lookup
  cases hfound : reg.findTemplate (splitPath path) method with
  | some entry =>
    have hmem := List.mem_of_find?_eq_some hfound
    have hmatches := List.find?_some hfound
    simp only [Bool.and_eq_true, decide_eq_true_eq] at hmatches
    exact iff_of_true rfl (.inl ⟨entry, hmem, hmatches⟩)
  | none =>
    have hnone : ¬∃ e ∈ reg.entries, e.method = method ∧
        templateMatches e.templateSegs (splitPath path) = true := by
      intro h
      obtain ⟨e, hmem, hmethod, hmatches⟩ := h
      have := List.find?_eq_none.mp hfound e hmem
      simp [hmethod, hmatches] at this
    simp only [Option.isSome_map, longestPrefix_isSome, Option.isSome_none, Bool.false_eq_true,
      false_or, hnone]

theorem lookup_of_passed {handlers : List Handler} {h : Handler}
    (hcheck : runConsistencyCheck reg handlers = .passed) (hmem : h ∈ handlers)
    (hgated : isAuthGatedPath h.path = true) : (reg.lookup h.path h.method).isSome = true := by
  unfold runConsistencyCheck at hcheck
  split at hcheck
  · cases hcheck
  · rename_i hmissing
    rw [not_not] at hmissing
    by_contra hnone
    have hlisted : h ∈ handlers.filter fun h =>
        isAuthGatedPath h.path && (reg.lookup h.path h.method).isNone := by
      rw [List.mem_filter]
      refine ⟨hmem, ?_⟩
      simpa [hgated] using hnone
    rw [missingEntries, List.map_eq_nil_iff] at hmissing
    rw [hmissing] at hlisted
    cases hlisted

end AuthForge.Authz
