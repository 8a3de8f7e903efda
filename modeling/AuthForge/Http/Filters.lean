import AuthForge.Authz.ScopeRegistry
import AuthForge.Base.Prog
import Mathlib.Data.String.Basic

/-!
# The filters in front of the handlers

`OAuth2AuthFilter` and `AuthorizationFilter`. A request with a valid token passes if the token has
the scopes that the registry requires, and in front of the administration also one of the roles that
the configuration allows. The token is read first and the roles later; in between, and at any other
time, anything may change the tables behind them.
-/

namespace AuthForge.Http.Filters

open OAuth2 Authz

structure GuardedRequest where
  path : String
  method : HttpMethod
  /-- The header `Authorization`. -/
  authorization : String := ""
  /-- The parameter `access_token`. -/
  accessToken : String := ""

/-- The attributes of a request that are set from its token. -/
structure Principal where
  userId : String
  scope : String
  clientId : String
  deriving DecidableEq, Repr

inductive FilterReply
  /-- The request goes on to its handler. -/
  | passed (principal : Option Principal)
  /-- An error, and whether the challenge `invalid_token` goes with it. -/
  | denied (code message : String) (challenge : Bool)
  | insufficientScope (requirement : ResourceScopeRequirement)
  /-- What is no request for a filter. -/
  | done
  deriving DecidableEq, Repr

/-! ### The roles of a path -/

structure RbacRule where
  pathPattern : String
  allowedRoles : List String

/-- The members of `rbac_rules`, as the configuration has them; what is not an array allows no role.
Their names are all different. -/
structure RbacConfig where
  rbacRules : List (String × List String)
  publicPaths : List String

/-- A JSON object is gone through in the order of its names. -/
def RbacConfig.rules (cfg : RbacConfig) : List RbacRule :=
  (cfg.rbacRules.insertionSort fun r s => r.1 ≤ s.1).map fun r => ⟨r.1, r.2⟩

/-- `checkAccess`; `std::regex_match` is a parameter. -/
def checkAccess (regexMatch : String → String → Bool) (cfg : RbacConfig) (userRoles : List String)
    (path : String) : Bool :=
  if cfg.publicPaths.any fun publicPath => regexMatch publicPath path then true
  else
    match cfg.rules.find? fun rule => regexMatch rule.pathPattern path with
    | some rule => rule.allowedRoles.any fun allowed => userRoles.any fun role => role = allowed
    | none => false

/-! ### The filters -/

/-- What a filter asks, and what else happens to the tables. -/
inductive FilterCall (σ : Type)
  | validateAccessToken (token : String)
  | getUserRoles (userId : String)
  | other (change : σ → σ)

def FilterCall.Resp {σ : Type} : FilterCall σ → Type
  | validateAccessToken _ => Option OAuth2AccessToken
  | getUserRoles _ => List String
  | other _ => Unit

structure Config where
  registry : Registry
  rbac : RbacConfig
  regexMatch : String → String → Bool

variable {σ : Type}

abbrev FilterProg (σ : Type) := Prog (FilterCall σ) FilterCall.Resp FilterReply

def bearerPrefix : String := "Bearer "

def principal (t : OAuth2AccessToken) : Principal := ⟨t.userId, t.scope, t.clientId⟩

def invalidToken : FilterReply := .denied "AUTH_TOKEN_INVALID" "Invalid or expired token" true

/-- The scope gate, which both filters have. -/
def scopeGate (cfg : Config) (req : GuardedRequest) (scope : String) (next : FilterReply) :
    FilterReply :=
  match cfg.registry.lookup req.path req.method with
  | some reqmt => if satisfies scope reqmt then next else .insufficientScope reqmt
  | none => next

/-- `OAuth2AuthFilter::doFilter`. -/
def resourceFilter (cfg : Config) (req : GuardedRequest) : FilterProg σ :=
  if req.method = .Options then .ret (.passed none)
  else if ¬bearerPrefix.toList.isPrefixOf req.authorization.toList then
    .ret (.denied "AUTH_TOKEN_INVALID" "Missing or invalid Authorization header" false)
  else
    .call (.validateAccessToken (String.ofList (req.authorization.toList.drop 7))) fun tokenInfo =>
      match tokenInfo with
      | none => .ret invalidToken
      | some t => .ret (scopeGate cfg req t.scope (.passed (some (principal t))))

/-- The token of the header, or else of the parameter. -/
def presentedToken (req : GuardedRequest) : String :=
  if bearerPrefix.toList.isPrefixOf req.authorization.toList then
    String.ofList (req.authorization.toList.drop 7)
  else req.accessToken

/-- `AuthorizationFilter::doFilter`. -/
def authorizationFilter (cfg : Config) (req : GuardedRequest) : FilterProg σ :=
  let token := presentedToken req
  if token = "" then .ret (.denied "AUTH_TOKEN_INVALID" "Authentication required" false)
  else
    .call (.validateAccessToken token) fun tokenInfo =>
      match tokenInfo with
      | none => .ret invalidToken
      | some t =>
        .call (.getUserRoles t.userId) fun roles =>
          .ret (scopeGate cfg req t.scope
            (if checkAccess cfg.regexMatch cfg.rbac roles req.path then .passed (some (principal t))
            else .denied "AUTHZ_INSUFFICIENT_PERMISSIONS" "Insufficient permissions" false))

/-! ### The system -/

/-- The tables, as the two questions of the filters see them. -/
structure Backend (σ ε : Type) where
  tokenService : TokenService
  now : ε → Int
  getAccessToken : ε → String → σ → Option OAuth2AccessToken
  getRoles : ε → String → σ → List String

inductive Arrival (σ : Type)
  | resource (req : GuardedRequest)
  | admin (req : GuardedRequest)
  | other (change : σ → σ)

def program (cfg : Config) : Arrival σ → FilterProg σ
  | .resource req => resourceFilter cfg req
  | .admin req => authorizationFilter cfg req
  | .other change => .call (.other change) fun _ => .ret .done

def exec {ε : Type} (b : Backend σ ε) (env : ε) : (op : FilterCall σ) → σ → op.Resp × σ
  | .validateAccessToken token, s =>
    (b.tokenService.validateAccessToken (fun hash => b.getAccessToken env hash s) (b.now env) token,
      s)
  | .getUserRoles userId, s => (b.getRoles env userId s, s)
  | .other change, s => ((), change s)

def service {ε : Type} (cfg : Config) (b : Backend σ ε) :
    Service σ ε (FilterCall σ) FilterCall.Resp (Arrival σ) FilterReply where
  exec := exec b
  program := program cfg

end AuthForge.Http.Filters
