import Mathlib.Data.String.Basic

/-!
# Data transfer objects of the OAuth2 domain

The plain records that the protocol services hand to the repositories, with the source's fields
and defaults. Times are Unix seconds.
-/

namespace AuthForge.OAuth2

inductive ClientType
  | CONFIDENTIAL
  | PUBLIC
  deriving DecidableEq, Repr

structure OAuth2Client where
  clientId : String
  clientType : ClientType
  clientSecretHash : String
  salt : String
  redirectUris : List String
  allowedScopes : List String
  tokenEndpointAuthMethod : String := ""
  deriving DecidableEq, Repr

/-- An authorization code; `code` holds the hash of the code handed to the client. -/
structure OAuth2AuthCode where
  code : String
  clientId : String
  userId : String
  scope : String
  redirectUri : String
  codeChallenge : String
  codeChallengeMethod : String
  nonce : String
  expiresAt : Int
  used : Bool := false
  authTime : Int := 0
  amr : String := ""
  deriving DecidableEq, Repr

structure OAuth2AccessToken where
  token : String
  clientId : String
  userId : String
  scope : String
  expiresAt : Int
  revoked : Bool := false
  issuedAt : Int := 0
  issuer : String := ""
  audience : String := ""
  notBefore : Int := 0
  introspectCount : Int := 0
  revokedAt : Int := 0
  revokedBy : String := ""
  deriving DecidableEq, Repr

/-- A refresh token; `familyId` is shared by all tokens rotated from one another. -/
structure OAuth2RefreshToken where
  token : String
  accessToken : String
  clientId : String
  userId : String
  scope : String
  expiresAt : Int
  revoked : Bool := false
  familyId : String := ""
  revokedAt : Int := 0
  revokedBy : String := ""
  deriving DecidableEq, Repr

structure TokenIntrospection where
  active : Bool := false
  clientId : String := ""
  tokenType : String := "Bearer"
  exp : Int := 0
  iat : Int := 0
  nbf : Int := 0
  sub : String := ""
  aud : String := ""
  iss : String := ""
  scope : String := ""
  deriving DecidableEq, Repr

structure IdTokenClaims where
  iss : String
  sub : String
  aud : String
  iat : Int
  exp : Int
  nonce : Option String := none
  authTime : Option Int := none
  amr : Option (List String) := none
  acr : Option String := none
  deriving DecidableEq, Repr

/-- An identity reference. The constructor of the source throws on the empty text, so such a value
does not exist. -/
structure Subject where
  value : String
  nonempty : value ≠ ""

def Subject.make (value : String) : Except String Subject :=
  if h : value = "" then .error "Subject: value must not be empty" else .ok ⟨value, h⟩

theorem Subject.make_of_ne {value : String} (h : value ≠ "") :
    Subject.make value = .ok ⟨value, h⟩ := dif_neg h

end AuthForge.OAuth2
