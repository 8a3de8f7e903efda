import AuthForge.Base.Callbacks
import AuthForge.Storage.Postgres

/-!
# Saving a token pair

`PostgresTokenRepository::saveTokenPair` with its transaction: both inserts, the commit callback and
the flag that keeps the caller's callback from running twice.
-/

namespace AuthForge.Storage.Postgres.TokenPair

open OAuth2

/-- The callbacks share the flag `invoked`. -/
abbrev PairScript := Script Bool TokenTables Bool

abbrev PairSession := TransactionSession Bool TokenTables Bool

def invokeOnce (ok : Bool) : PairScript :=
  .act (fun invoked => if invoked = false then (true, some ok) else (invoked, none)) .done

/-- The columns of an insert into `oauth2_access_tokens`; `now` is the time of the transaction. -/
def insertAccessToken (now : Int) (access : OAuth2AccessToken) (s : TokenTables) :
    Option TokenTables :=
  if access.token ∈ s.oauth2AccessTokens then none
  else
    some { s with
      oauth2AccessTokens :=
        s.oauth2AccessTokens.insert access.token
          { token := access.token
            clientId := access.clientId
            userId := access.userId
            scope := access.scope
            expiresAt := access.expiresAt
            revoked := access.revoked
            issuer := access.issuer
            issuedAt := now
            notBefore := now } }

/-- With the `family_id` in the statement or not. -/
def insertRefreshToken (refresh : OAuth2RefreshToken) (familyId : Option String)
    (s : TokenTables) : Option TokenTables :=
  if refresh.token ∈ s.oauth2RefreshTokens then none
  else
    some { s with
      oauth2RefreshTokens :=
        s.oauth2RefreshTokens.insert refresh.token
          { token := refresh.token
            accessToken := refresh.accessToken
            clientId := refresh.clientId
            userId := refresh.userId
            scope := refresh.scope
            expiresAt := refresh.expiresAt
            revoked := refresh.revoked
            familyId := familyId.getD "" } }

def onAccessTokenSaved (refresh : OAuth2RefreshToken) : PairScript :=
  if refresh.familyId = "" then
    .execSqlAsync (insertRefreshToken refresh none) .done (invokeOnce false) .done
  else
    .execSqlAsync (insertRefreshToken refresh (some refresh.familyId)) .done (invokeOnce false) .done

/-- What is done with the transaction, or without one. -/
def onTransaction (now : Int) (access : OAuth2AccessToken) (refresh : OAuth2RefreshToken) :
    Bool → PairScript
  | false => invokeOnce false
  | true =>
    .setCommitCallback invokeOnce
      (.execSqlAsync (insertAccessToken now access) (onAccessTokenSaved refresh) (invokeOnce false)
        .done)

/-- The session right after the call; without a client the callback has run already. -/
def saveTokenPair (hasClient : Bool) (now : Int) (access : OAuth2AccessToken)
    (refresh : OAuth2RefreshToken) (s : TokenTables) : PairSession :=
  if hasClient = false then { shared := false, answers := [false], database := s, phase := .over [] }
  else { shared := false, database := s, phase := .acquiring (onTransaction now access refresh) }

end AuthForge.Storage.Postgres.TokenPair
