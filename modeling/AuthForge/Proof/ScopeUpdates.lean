import AuthForge.Admin.ScopeTransaction

/-!
# The scopes of a client are replaced as a whole

The sessions of one call go through the delete, the inserts and the commit. The countdown reaches
the last insert whether the inserts succeed or fail, so somebody answers; and because a failed
statement fails the ones behind it, the last insert succeeds only if all of them did.
-/

namespace AuthForge.ScopeUpdates

open Storage Admin.ScopeTransaction
open Admin.ClientRegistration (ClientReply)

variable {scopeNames scopes : List String} {what clientId : String} {T : ClientTables}

/-- The tables with the scopes of the client replaced. -/
def replaced (clientId : String) (scopes : List String) (T : ClientTables) : ClientTables :=
  { T with
    clientScopes :=
      (T.clientScopes.filter fun e => e.1 ≠ clientId) ++ scopes.map fun s => (clientId, s) }

def notAssigned (what : String) : ClientReply :=
  .error "DB_QUERY_ERROR" ("Failed to assign some scopes: " ++ what)

/-- Where a session is, with how many outcomes are still due at most. -/
inductive Stage (scopeNames : List String) (what clientId : String) (scopes : List String)
    (T : ClientTables) : ScopeSession → Nat → Prop
  | clearing (shared : Shared) :
    Stage scopeNames what clientId scopes T
      ⟨shared, [], T, .active T
        [⟨deleteBy clientId, onCleared scopeNames what clientId scopes,
          respondError "DB_QUERY_ERROR" ("Failed to clear existing scopes: " ++ what)⟩] onCommit⟩
      (scopes.length + 2)
  | inserting {done left : List String} (hsplit : done ++ left = scopes) (hleft : left ≠ [])
      (hnodup : done.Nodup) (hclient : done ≠ [] → clientId ∈ T.clients) (invalidated : Bool) :
    Stage scopeNames what clientId scopes T
      ⟨⟨left.length, done, invalidated⟩, [], T, .active (replaced clientId done T)
        (left.map (queued scopeNames what clientId)) onCommit⟩
      (left.length + 1)
  | committing (shared : Shared) (hnodup : scopes.Nodup)
      (hclient : scopes ≠ [] → clientId ∈ T.clients) :
    Stage scopeNames what clientId scopes T
      ⟨shared, [.scopesUpdated scopes], T, .active (replaced clientId scopes T) [] onCommit⟩ 1
  | failing {left : List String} {n : Nat} (hleft : left ≠ []) (hdue : left.length ≤ n)
      (hscopes : scopes ≠ []) (inserted : List String) (invalidated : Bool) :
    Stage scopeNames what clientId scopes T
      ⟨⟨left.length, inserted, invalidated⟩, [], T,
        .over (left.map (queued scopeNames what clientId))⟩ n
  | failed (n : Nat) (shared : Shared) (code detail : String) :
    Stage scopeNames what clientId scopes T ⟨shared, [.error code detail], T, .over []⟩ n
  | saved (n : Nat) (shared : Shared) (hnodup : scopes.Nodup)
      (hclient : scopes ≠ [] → clientId ∈ T.clients) :
    Stage scopeNames what clientId scopes T
      ⟨shared, [.scopesUpdated scopes], replaced clientId scopes T, .over []⟩ n

theorem replaced_nil :
    deleteBy clientId T = some (replaced clientId [] T) := by
  simp [deleteBy, replaced]

/-- After the delete the first insert is due, or the answer has been given. -/
theorem stage_cleared (shared : Shared) :
    Stage scopeNames what clientId scopes T
      ((onCleared scopeNames what clientId scopes).run
        ⟨shared, [], T, .active (replaced clientId [] T) [] onCommit⟩) (scopes.length + 1) := by
  unfold onCleared
  split
  · rename_i hnil
    subst hnil
    exact .committing _ List.nodup_nil fun h => absurd rfl h
  · rename_i hne
    change Stage scopeNames what clientId scopes T
      ((insertAll scopeNames what clientId scopes).run
        ⟨⟨scopes.length, [], shared.invalidated⟩, [], T,
          .active (replaced clientId [] T) [] onCommit⟩) _
    rw [run_insertAll, List.nil_append]
    exact .inserting (List.nil_append _) hne List.nodup_nil (fun h => absurd rfl h) _

theorem replaced_snoc {done : List String} {scopeName : String} {view : ClientTables}
    (h : insert scopeNames clientId scopeName (replaced clientId done T) = some view) :
    view = replaced clientId (done ++ [scopeName]) T ∧ scopeName ∉ done ∧ clientId ∈ T.clients := by
  obtain ⟨hclient, hnew, rfl⟩ := insert_eq_some h
  refine ⟨?_, fun hmem => hnew ?_, hclient⟩
  · simp [replaced]
  · exact List.mem_append_right _ (List.mem_map_of_mem hmem)

/-- An insert that succeeds counts down, and the last one answers. -/
theorem stage_inserted {done left : List String} {scopeName : String}
    (hsplit : done ++ scopeName :: left = scopes) (hnodup : (done ++ [scopeName]).Nodup)
    (hclient : clientId ∈ T.clients) (invalidated : Bool) :
    Stage scopeNames what clientId scopes T
      ((onInserted scopeName).run
        ⟨⟨(scopeName :: left).length, done, invalidated⟩, [], T,
          .active (replaced clientId (done ++ [scopeName]) T)
            (left.map (queued scopeNames what clientId)) onCommit⟩) (left.length + 1) := by
  by_cases hlast : left = []
  · subst hlast
    subst hsplit
    exact .committing _ hnodup fun _ => hclient
  · have hcount : ((scopeName :: left).length : Int) ≠ 1 := by
      have := List.length_pos_iff.mpr hlast
      rw [List.length_cons]
      omega
    have hnext : ((scopeName :: left).length : Int) - 1 = left.length := by
      rw [List.length_cons]
      omega
    simp only [onInserted, Script.run, if_neg hcount, hnext, Option.toList_none, List.append_nil]
    exact .inserting (by rw [← hsplit, List.append_assoc, List.singleton_append]) hlast hnodup
      (fun _ => hclient) invalidated

/-- An insert that fails counts down as well. -/
theorem stage_insertFailed {left : List String} {scopeName : String} {n : Nat}
    (hdue : left.length ≤ n) (hscopes : scopes ≠ []) (inserted : List String)
    (invalidated : Bool) :
    Stage scopeNames what clientId scopes T
      ((onInsertFailed what).run
        ⟨⟨(scopeName :: left).length, inserted, invalidated⟩, [], T,
          .over (left.map (queued scopeNames what clientId))⟩) n := by
  by_cases hlast : left = []
  · subst hlast
    exact .failed ..
  · have hcount : ((scopeName :: left).length : Int) ≠ 1 := by
      have := List.length_pos_iff.mpr hlast
      rw [List.length_cons]
      omega
    have hnext : ((scopeName :: left).length : Int) - 1 = left.length := by
      rw [List.length_cons]
      omega
    simp only [onInsertFailed, Script.run, if_neg hcount, hnext, Option.toList_none,
      List.append_nil]
    exact .failing hlast hdue hscopes inserted invalidated

/-- One outcome; the commit, which is due last, succeeds. -/
theorem stage_step {s : ScopeSession} {n : Nat} {ok : Bool}
    (h : Stage scopeNames what clientId scopes T s (n + 1)) (hcommit : n = 0 → ok = true) :
    Stage scopeNames what clientId scopes T (s.step ok) n := by
  generalize hdue : n + 1 = due at h
  cases h with
  | clearing shared =>
    obtain rfl : n = scopes.length + 1 := by omega
    cases ok with
    | false => exact .failed ..
    | true =>
      rw [TransactionSession.step_of_executed replaced_nil]
      exact stage_cleared shared
  | @inserting done left hsplit hleft hnodup hclient invalidated =>
    obtain ⟨scopeName, left, rfl⟩ := List.exists_cons_of_ne_nil hleft
    obtain rfl : n = left.length + 1 := by
      rw [List.length_cons] at hdue
      omega
    have hscopes : scopes ≠ [] := by
      rw [← hsplit]
      exact List.append_ne_nil_of_right_ne_nil _ (List.cons_ne_nil _ _)
    by_cases hfails : ok = false ∨ insert scopeNames clientId scopeName
        (replaced clientId done T) = none
    · rw [List.map_cons, TransactionSession.step_of_refused hfails]
      exact stage_insertFailed (Nat.le_succ _) hscopes _ _
    · obtain ⟨hok, hsome⟩ := not_or.mp hfails
      obtain rfl := Bool.eq_true_of_not_eq_false hok
      obtain ⟨view, hview⟩ := Option.ne_none_iff_exists'.mp hsome
      obtain ⟨rfl, hnew, hknown⟩ := replaced_snoc hview
      rw [List.map_cons, TransactionSession.step_of_executed hview]
      refine stage_inserted hsplit ?_ hknown invalidated
      refine List.nodup_append.mpr ⟨hnodup, List.nodup_singleton _, fun a ha b hb heq => ?_⟩
      exact hnew (List.mem_singleton.mp hb ▸ heq ▸ ha)
  | committing shared hnodup hclient =>
    obtain rfl := hcommit (by omega)
    exact .saved _ _ hnodup hclient
  | @failing left _ hleft hle hscopes inserted invalidated =>
    obtain ⟨scopeName, left, rfl⟩ := List.exists_cons_of_ne_nil hleft
    rw [List.length_cons] at hle
    exact stage_insertFailed (by omega) hscopes inserted invalidated
  | failed _ shared code detail => exact .failed ..
  | saved _ shared hnodup hclient => exact .saved _ shared hnodup hclient

/-- The statements under any pattern of failures, and then the commit. -/
theorem stage_run {s : ScopeSession} (outcomes : List Bool)
    (h : Stage scopeNames what clientId scopes T s (outcomes.length + 1)) :
    Stage scopeNames what clientId scopes T (s.run (outcomes ++ [true])) 0 := by
  induction outcomes generalizing s with
  | nil => exact stage_step h fun _ => rfl
  | cons ok outcomes ih => exact ih (stage_step h fun h => absurd h (Nat.succ_ne_zero _))

/-! ### The answer -/

/-- The delete and the inserts succeed or fail as the pattern says; the commit succeeds. -/
def outcomesOf (pattern : Nat → Bool) (scopes : Option (List String)) : List Bool :=
  (List.range ((scopes.getD []).length + 1)).map pattern ++ [true]

/-- The only row of these that the client has are the requested ones, in this order. -/
theorem scopesOf_replaced : (replaced clientId scopes T).scopesOf clientId = scopes := by
  have hothers : (T.clientScopes.filter fun e => e.1 ≠ clientId).filterMap
      (fun e => if e.1 = clientId then some e.2 else none) = [] := by
    rw [List.filterMap_eq_nil_iff]
    intro e he
    exact if_neg (by simpa using (List.mem_filter.mp he).2)
  rw [ClientTables.scopesOf, replaced, List.filterMap_append, hothers, List.nil_append,
    List.filterMap_map]
  simp

/-- The call is refused at once, or the delete is queued. -/
theorem updateClientScopes_cases (hasClient : Bool) (requested : Option (List String)) :
    (∃ code detail, updateClientScopes scopeNames what hasClient clientId requested T =
      refused code detail T) ∨
    ∃ scopes, requested = some scopes ∧
      Stage scopeNames what clientId scopes T
        (updateClientScopes scopeNames what hasClient clientId requested T)
        (scopes.length + 2) := by
  unfold updateClientScopes
  by_cases hempty : clientId = ""
  · rw [if_pos hempty]
    exact .inl ⟨_, _, rfl⟩
  rw [if_neg hempty]
  cases requested with
  | none => exact .inl ⟨_, _, rfl⟩
  | some scopes =>
    cases hasClient with
    | false => exact .inl ⟨_, _, rfl⟩
    | true => exact .inr ⟨scopes, rfl, .clearing {}⟩

theorem run_refused (code detail : String) (outcomes : List Bool) :
    (refused code detail T).run outcomes = refused code detail T := by
  induction outcomes with
  | nil => rfl
  | cons ok outcomes ih => exact ih

/-- How a session ends under a pattern of failures. -/
theorem run_ended (scopeNames : List String) (what : String) (hasClient : Bool)
    (clientId : String) (requested : Option (List String)) (T : ClientTables)
    (pattern : Nat → Bool) :
    let s := (updateClientScopes scopeNames what hasClient clientId requested T).run
      (outcomesOf pattern requested)
    s.finished = true ∧
      ((∃ code detail, s.answers = [.error code detail] ∧ s.database = T) ∨
        ∃ scopes, requested = some scopes ∧ s.answers = [.scopesUpdated scopes] ∧
          s.database = replaced clientId scopes T ∧ scopes.Nodup ∧
          (scopes ≠ [] → clientId ∈ T.clients)) := by
  intro s
  rcases updateClientScopes_cases hasClient requested with
    ⟨code, detail, hrefused⟩ | ⟨scopes, rfl, hstage⟩
  · have hs : s = refused code detail T :=
      (congrArg (TransactionSession.run · _) hrefused).trans (run_refused code detail _)
    rw [hs]
    exact ⟨rfl, .inl ⟨code, detail, rfl, rfl⟩⟩
  · have hlength : ((List.range (((some scopes).getD []).length + 1)).map pattern).length =
        scopes.length + 1 := by
      rw [List.length_map, List.length_range]
      rfl
    have hs : Stage scopeNames what clientId scopes T s 0 := by
      refine stage_run _ ?_
      rw [hlength]
      exact hstage
    generalize s = s' at hs
    generalize hdue : 0 = due at hs
    cases hs with
    | clearing | inserting | committing => cases hdue
    | failing hleft hle =>
      subst hdue
      exact absurd (List.length_eq_zero_iff.mp (Nat.le_zero.mp hle)) hleft
    | failed _ shared code detail => exact ⟨rfl, .inl ⟨code, detail, rfl, rfl⟩⟩
    | saved _ shared hnodup hclient =>
      exact ⟨rfl, .inr ⟨scopes, rfl, rfl, rfl, hnodup, hclient⟩⟩

/-- The call answers exactly once. It answers success only if the client has exactly the requested
scopes in the committed tables, which are otherwise as before, and after an error they are as they
were. -/
theorem scopes_update_atomic (scopeNames : List String) (what : String) (hasClient : Bool)
    (clientId : String) (requested : Option (List String)) (T : ClientTables)
    (pattern : Nat → Bool) :
    let s := (updateClientScopes scopeNames what hasClient clientId requested T).run
      (outcomesOf pattern requested)
    s.finished = true ∧ ∃ reply, s.answers = [reply] ∧
      ((∃ code detail, reply = .error code detail ∧ s.database = T) ∨
        ∃ scopes, reply = .scopesUpdated scopes ∧ requested = some scopes ∧
          s.database.scopesOf clientId = scopes ∧ s.database = replaced clientId scopes T) := by
  intro s
  obtain ⟨hfinished, hended⟩ := run_ended scopeNames what hasClient clientId requested T pattern
  refine ⟨hfinished, ?_⟩
  rcases hended with ⟨code, detail, hanswers, hsame⟩ | ⟨scopes, hscopes, hanswers, hdatabase, -⟩
  · exact ⟨_, hanswers, .inl ⟨code, detail, rfl, hsame⟩⟩
  · refine ⟨_, hanswers, .inr ⟨scopes, rfl, hscopes, ?_, hdatabase⟩⟩
    exact (congrArg (ClientTables.scopesOf · clientId) hdatabase).trans scopesOf_replaced

/-- What the call answers and leaves behind, the atomic call on the tables does under some
environment. -/
theorem session_refines_call (hasClient : Bool) (pattern : Nat → Bool) :
    let s := (updateClientScopes scopeNames what hasClient clientId (some scopes) T).run
      (outcomesOf pattern (some scopes))
    ∃ env, (T.replaceScopes env clientId scopes).2 = s.database ∧
      ((T.replaceScopes env clientId scopes).1 = .replaced ↔
        s.answers = [.scopesUpdated scopes]) := by
  intro s
  obtain ⟨-, hended⟩ := run_ended scopeNames what hasClient clientId (some scopes) T pattern
  rcases hended with ⟨code, detail, hanswers, hsame⟩ |
    ⟨_, heq, hanswers, hdatabase, hnodup, hclient⟩
  · refine ⟨{ fails := true }, hsame.symm, ?_⟩
    rw [show s.answers = [.error code detail] from hanswers]
    exact iff_of_false (fun h => by cases h) fun h => by cases h
  · cases heq
    have hcall : T.replaceScopes {} clientId scopes = (.replaced, replaced clientId scopes T) := by
      rw [ClientTables.replaceScopes, if_neg Bool.false_ne_true, if_neg]
      · rfl
      · rintro ⟨hne, hfails | hrepeated | hunknown⟩
        · cases hfails
        · exact hrepeated hnodup
        · exact hunknown (hclient hne)
    refine ⟨{}, ?_, ?_⟩
    · rw [hcall]
      exact hdatabase.symm
    · rw [hcall]
      exact iff_of_true rfl hanswers

end AuthForge.ScopeUpdates
