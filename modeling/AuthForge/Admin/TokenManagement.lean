import AuthForge.Base.Like
import AuthForge.Storage.Postgres

/-!
# Token management

`TokenManagementService::revokeToken`: every access token that a `LIKE` pattern selects is deleted.
-/

namespace AuthForge.Admin

open Storage.Postgres

/-- What the request meets at the database. -/
structure TokenAdminEnv where
  connected : Bool := true
  fails : Bool := false
  what : String := ""

inductive TokenAdminReply
  | success (message : String)
  | error (code detail : String)
  deriving DecidableEq

/-- `DELETE FROM oauth2_access_tokens WHERE token LIKE $1`. -/
def deleteLike (pattern : String) (s : TokenTables) : Nat × TokenTables :=
  let selected := fun token : String => Like.like pattern.toList token.toList
  (s.oauth2AccessTokens.keys.countP selected,
    { s with oauth2AccessTokens := s.oauth2AccessTokens.keepKeys fun token => !selected token })

def revokeToken (env : TokenAdminEnv) (tokenPrefix : String) (s : TokenTables) :
    TokenAdminReply × TokenTables :=
  if tokenPrefix = "" then
    (.error "VALIDATION_MISSING_REQUIRED_FIELD" "tokenPrefix is required", s)
  else if env.connected = false then (.error "DB_CONNECTION_ERROR" "Database unavailable", s)
  else if env.fails = true then
    (.error "DB_QUERY_ERROR" ("Failed to revoke token: " ++ env.what), s)
  else
    let r := deleteLike (tokenPrefix ++ "%") s
    if r.1 = 0 then (.error "VALIDATION_RESOURCE_NOT_FOUND" "Token not found", r.2)
    else (.success "Token revoked", r.2)

theorem revokeToken_tables {env : TokenAdminEnv} (hconnected : env.connected = true)
    (hfails : env.fails = false) {tokenPrefix : String} (hstart : tokenPrefix ≠ "")
    (s : TokenTables) :
    (revokeToken env tokenPrefix s).2 = (deleteLike (tokenPrefix ++ "%") s).2 := by
  rw [revokeToken, if_neg hstart, hconnected, hfails, if_neg (by decide), if_neg (by decide)]
  dsimp only
  split <;> rfl

theorem lookup_deleteLike (pattern token : String) (s : TokenTables) :
    (deleteLike pattern s).2.oauth2AccessTokens.lookup token =
      if Like.like pattern.toList token.toList then none else s.oauth2AccessTokens.lookup token := by
  rw [deleteLike, Dict.lookup_keepKeys]
  by_cases hlike : Like.like pattern.toList token.toList = true
  · simp [hlike]
  · simp [hlike]

end AuthForge.Admin
