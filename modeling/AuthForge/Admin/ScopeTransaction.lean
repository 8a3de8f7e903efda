import AuthForge.Admin.ClientRegistration
import AuthForge.Base.Callbacks

/-!
# Replacing the scopes of a client

`ClientManagementService::updateClientScopes` with its transaction: the delete, one insert for each
scope, and the countdown by which the last insert answers for all of them. Elsewhere the whole is
one call, `ClientTables.replaceScopes`.
-/

namespace AuthForge.Admin.ScopeTransaction

open Storage ClientRegistration

/-- What the callbacks share, and whether the cached client has been invalidated. -/
structure Shared where
  remaining : Int := 0
  insertedScopes : List String := []
  invalidated : Bool := false

abbrev ScopeScript := Script Shared ClientTables ClientReply

abbrev ScopeSession := TransactionSession Shared ClientTables ClientReply

def respondError (code detail : String) : ScopeScript :=
  .act (fun shared => (shared, some (.error code detail))) .done

/-! ### The statements -/

/-- `DELETE FROM oauth2_client_scopes WHERE client_id = …`. -/
def deleteBy (clientId : String) (T : ClientTables) : Option ClientTables :=
  some { T with clientScopes := T.clientScopes.filter fun e => e.1 ≠ clientId }

/-- An insert refers to a client and to one of the scopes of `oauth2_scopes`, and the pair is
unique. -/
def insert (scopeNames : List String) (clientId scopeName : String) (T : ClientTables) :
    Option ClientTables :=
  if clientId ∉ T.clients ∨ scopeName ∉ scopeNames ∨ (clientId, scopeName) ∈ T.clientScopes then
    none
  else some { T with clientScopes := T.clientScopes ++ [(clientId, scopeName)] }

/-! ### The callbacks -/

section Callbacks

variable (scopeNames : List String) (what clientId : String)

/-- `remaining->fetch_sub(1) == 1` decides who answers. -/
def onInserted (scopeName : String) : ScopeScript :=
  .act (fun shared =>
    let insertedScopes := shared.insertedScopes ++ [scopeName]
    ({ shared with remaining := shared.remaining - 1, insertedScopes },
      if shared.remaining = 1 then some (.scopesUpdated insertedScopes) else none)) .done

def onInsertFailed : ScopeScript :=
  .act (fun shared =>
    ({ shared with remaining := shared.remaining - 1 },
      if shared.remaining = 1 then
        some (.error "DB_QUERY_ERROR" ("Failed to assign some scopes: " ++ what))
      else none)) .done

def insertAll (scopes : List String) : ScopeScript :=
  scopes.foldr (fun scopeName next =>
    .execSqlAsync (insert scopeNames clientId scopeName) (onInserted scopeName)
      (onInsertFailed what) next) .done

def onCleared (scopes : List String) : ScopeScript :=
  if scopes = [] then .act (fun shared => (shared, some (.scopesUpdated []))) .done
  else
    .act (fun shared =>
      ({ shared with remaining := scopes.length, insertedScopes := [] }, none))
      (insertAll scopeNames what clientId scopes)

def onCommit (committed : Bool) : ScopeScript :=
  .act (fun shared => ({ shared with invalidated := shared.invalidated || committed }, none)) .done

/-- What is done with the new transaction. -/
def onTransaction (scopes : List String) : ScopeScript :=
  .setCommitCallback onCommit
    (.execSqlAsync (deleteBy clientId) (onCleared scopeNames what clientId scopes)
      (respondError "DB_QUERY_ERROR" ("Failed to clear existing scopes: " ++ what)) .done)

end Callbacks

/-- A request that is refused before there is a transaction. -/
def refused (code detail : String) (T : ClientTables) : ScopeSession :=
  { shared := {}, answers := [.error code detail], database := T, phase := .over [] }

/-- The session right after the call; `scopes` is `none` where the body has no such array. -/
def updateClientScopes (scopeNames : List String) (what : String) (hasClient : Bool)
    (clientId : String) (scopes : Option (List String)) (T : ClientTables) : ScopeSession :=
  if clientId = "" then refused "VALIDATION_MISSING_REQUIRED_FIELD" "clientId is required" T
  else
    match scopes with
    | none =>
      refused "VALIDATION_MISSING_REQUIRED_FIELD" "Request body must contain a 'scopes' array" T
    | some scopes =>
      if hasClient = false then refused "DB_CONNECTION_ERROR" "Database unavailable" T
      else
        (onTransaction scopeNames what clientId scopes).run
          { shared := {}, database := T, phase := .active T [] fun _ => .done }

/-! ### The queue of the inserts -/

/-- An insert as it waits in the transaction. -/
def queued (scopeNames : List String) (what clientId scopeName : String) :
    Queued Shared ClientTables ClientReply :=
  ⟨insert scopeNames clientId scopeName, onInserted scopeName, onInsertFailed what⟩

variable {scopeNames : List String} {what clientId scopeName : String} {T T' : ClientTables}

theorem run_insertAll (scopes : List String) (shared : Shared) (answers : List ClientReply)
    (database view : ClientTables) (queue : List (Queued Shared ClientTables ClientReply))
    (onCommit : Bool → ScopeScript) :
    (insertAll scopeNames what clientId scopes).run
        ⟨shared, answers, database, .active view queue onCommit⟩ =
      ⟨shared, answers, database,
        .active view (queue ++ scopes.map (queued scopeNames what clientId)) onCommit⟩ := by
  induction scopes generalizing queue with
  | nil => rw [List.map_nil, List.append_nil]; rfl
  | cons scopeName scopes ih =>
    change (insertAll scopeNames what clientId scopes).run
      ⟨shared, answers, database,
        .active view (queue ++ [queued scopeNames what clientId scopeName]) onCommit⟩ = _
    rw [ih, List.append_assoc]
    rfl

theorem insert_eq_some (h : insert scopeNames clientId scopeName T = some T') :
    clientId ∈ T.clients ∧ (clientId, scopeName) ∉ T.clientScopes ∧
      T' = { T with clientScopes := T.clientScopes ++ [(clientId, scopeName)] } := by
  unfold insert at h
  split at h
  · cases h
  · rename_i hfits
    simp only [not_or, not_not] at hfits
    exact ⟨hfits.1, hfits.2.2, (Option.some.inj h).symm⟩

end AuthForge.Admin.ScopeTransaction
