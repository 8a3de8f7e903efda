import AuthForge.Account.SelfService
import AuthForge.OAuth2.Trace
import AuthForge.Storage.Memory

/-!
# Which tokens a self-service request ends

Token rows name their owner by one of two strings: the public subject, which the code flow of a
login stores, or the internal id in decimal, which the silent authorization and the social login
store. A password reset revokes the rows under the internal id, a password change those under the
public subject, and neither touches the other kind. Revoking an app touches the access tokens under
the public subject and no refresh token.
-/

namespace AuthForge.OwnerRevocation

open Identity OAuth2 Storage Account
open Service hiding program

/-- The two strings under which the rows of a user are stored. -/
def OwnedBy (id : Int) (user : UserRow) (userId : String) : Prop :=
  userId = user.publicSub ∨ userId = toString id

/-- Every row of the user that the first tables have is revoked in the second ones. -/
structure AllRevoked (id : Int) (user : UserRow) (before after : Postgres.TokenTables) : Prop where
  access : ∀ k row, before.oauth2AccessTokens.lookup k = some row → OwnedBy id user row.userId →
    ∃ row', after.oauth2AccessTokens.lookup k = some row' ∧ row'.revoked = true
  refresh : ∀ k rt, before.oauth2RefreshTokens.lookup k = some rt → OwnedBy id user rt.userId →
    ∃ rt', after.oauth2RefreshTokens.lookup k = some rt' ∧ rt'.revoked = true

/-- Every row of the user under another string than `key` is revoked. -/
structure RevokedElsewhere (id : Int) (user : UserRow) (key : String)
    (tokens : Postgres.TokenTables) : Prop where
  access : ∀ k row, tokens.oauth2AccessTokens.lookup k = some row → OwnedBy id user row.userId →
    row.userId ≠ key → row.revoked = true
  refresh : ∀ k rt, tokens.oauth2RefreshTokens.lookup k = some rt → OwnedBy id user rt.userId →
    rt.userId ≠ key → rt.revoked = true

/-- The two updates by owner. -/
def revokedBy (key : String) (tokens : Postgres.TokenTables) : Postgres.TokenTables :=
  Postgres.revokeRefreshWhere (fun rt => rt.userId = key)
    (Postgres.revokeAccessWhere (fun row => row.userId = key) tokens)

theorem lookup_access_revokedBy (key k : String) (tokens : Postgres.TokenTables) :
    (revokedBy key tokens).oauth2AccessTokens.lookup k =
      (tokens.oauth2AccessTokens.lookup k).map fun row =>
        if row.userId = key then { row with revoked := true } else row := by
  simp [revokedBy, Postgres.revokeRefreshWhere, Postgres.revokeAccessWhere]

theorem lookup_refresh_revokedBy (key k : String) (tokens : Postgres.TokenTables) :
    (revokedBy key tokens).oauth2RefreshTokens.lookup k =
      (tokens.oauth2RefreshTokens.lookup k).map fun rt =>
        if rt.userId = key then { rt with revoked := true } else rt := by
  simp [revokedBy, Postgres.revokeRefreshWhere, Postgres.revokeAccessWhere]

theorem allRevoked_revokedBy_iff {id : Int} {user : UserRow} {key : String}
    {tokens : Postgres.TokenTables} :
    AllRevoked id user tokens (revokedBy key tokens) ↔ RevokedElsewhere id user key tokens := by
  constructor
  · intro h
    refine ⟨?_, ?_⟩
    · intro k row hrow howned hkey
      obtain ⟨row', hrow', hrevoked⟩ := h.access k row hrow howned
      rw [lookup_access_revokedBy, hrow, Option.map_some, if_neg hkey] at hrow'
      rwa [← Option.some.inj hrow'] at hrevoked
    · intro k rt hrt howned hkey
      obtain ⟨rt', hrt', hrevoked⟩ := h.refresh k rt hrt howned
      rw [lookup_refresh_revokedBy, hrt, Option.map_some, if_neg hkey] at hrt'
      rwa [← Option.some.inj hrt'] at hrevoked
  · intro h
    refine ⟨?_, ?_⟩
    · intro k row hrow howned
      refine ⟨_, by rw [lookup_access_revokedBy, hrow, Option.map_some], ?_⟩
      split
      · rfl
      · rename_i hkey
        exact h.access k row hrow howned hkey
    · intro k rt hrt howned
      refine ⟨_, by rw [lookup_refresh_revokedBy, hrt, Option.map_some], ?_⟩
      split
      · rfl
      · rename_i hkey
        exact h.refresh k rt hrt howned hkey

/-! ### What the two password requests do to the tokens -/

def succeeds (env : StatementEnv) : Prop := env.fails = false

variable {crypto : IdentityCrypto} {svc : TokenService} {s : AccountStore}

theorem write_of_succeeds {env : StatementEnv} (h : succeeds env)
    (f : AccountStore → AccountStore) : AccountStore.write env f s = (true, f s) := by
  rw [AccountStore.write, if_neg (by simp [show env.fails = false from h])]

/-- If the request reports success, the tokens after it are the given ones. -/
def leaves (tokens : Postgres.TokenTables) (reply : AccountReply) (after : AccountStore) : Prop :=
  ∀ message note, reply = .success message note → after.tokens = tokens

theorem leaves_error {tokens : Postgres.TokenTables} {code detail : String} {after : AccountStore} :
    leaves tokens (.error code detail) after := by
  intro _ _ h
  cases h

theorem postOn_revokeTokensOf (userId message : String) :
    (revokeTokensOf userId message).PostOn AccountStore.exec succeeds
      (leaves (revokedBy userId s.tokens)) s := by
  intro e he e' he' _ _ _
  rw [AccountStore.exec, write_of_succeeds he, AccountStore.exec, write_of_succeeds he']
  rfl

theorem postOn_setPassword {userId : Int} {newHash detail : String} {key message : String} :
    (Prog.call (setPassword userId newHash) fun
      | false => .ret (.error "DB_QUERY_ERROR" detail)
      | true => revokeTokensOf key message : AccountProg).PostOn AccountStore.exec succeeds
      (leaves (revokedBy key s.tokens)) s := by
  intro e he
  have hexec : (AccountStore.exec e (setPassword userId newHash) s).1 = true := by
    simp [setPassword, AccountStore.exec, IdentityStore.exec, IdentityStore.statement,
      show e.fails = false from he]
  rw [hexec]
  exact postOn_revokeTokensOf (s := (AccountStore.exec e (setPassword userId newHash) s).2) key
    message

theorem postOn_withNewHash {newPassword : String} {tokens : Postgres.TokenTables}
    {k : String → AccountProg}
    (hk : ∀ newHash s', s'.tokens = s.tokens →
      (k newHash).PostOn AccountStore.exec succeeds (leaves tokens) s') :
    (withNewHash crypto newPassword k).PostOn AccountStore.exec succeeds (leaves tokens) s := by
  intro e he
  dsimp only
  split
  · exact leaves_error
  · exact hk _ _ rfl

theorem exec_useResetToken {e : StatementEnv} {tokenHash : String} {row : ResetToken} (now : Int)
    (he : succeeds e) (hrow : s.resetTokens.lookup tokenHash = some row) :
    ((AccountStore.exec e (.useResetToken tokenHash now) s).1 = some [] ∨
      (AccountStore.exec e (.useResetToken tokenHash now) s).1 = some [row.userId]) ∧
    (AccountStore.exec e (.useResetToken tokenHash now) s).2.tokens = s.tokens := by
  rw [AccountStore.exec, if_neg (by simp [show e.fails = false from he])]
  simp only [AccountStore.useResetToken, hrow]
  by_cases hlive : row.used = false ∧ row.expiresAt > now
  · rw [if_pos hlive]
    exact ⟨.inr rfl, rfl⟩
  · rw [if_neg hlive]
    exact ⟨.inl rfl, rfl⟩

theorem postOn_confirmReset {token newPassword : String} {row : ResetToken}
    (hrow : s.resetTokens.lookup (resetTokenHash crypto token) = some row) :
    (confirmReset crypto token newPassword).PostOn AccountStore.exec succeeds
      (leaves (revokedBy (toString row.userId) s.tokens)) s := by
  unfold confirmReset
  split
  · exact leaves_error
  split
  · exact leaves_error
  intro e he e' he'
  obtain ⟨hanswer, htokens⟩ := exec_useResetToken (AccountStore.exec e (.user .nowSeconds) s).1
    (s := (AccountStore.exec e (.user .nowSeconds) s).2) he' hrow
  rcases hanswer with hanswer | hanswer
  · rw [hanswer]
    exact leaves_error
  rw [hanswer]
  refine postOn_withNewHash ?_
  intro newHash s' hs' e he
  rw [AccountStore.exec]
  dsimp only
  split
  · exact leaves_error
  have hkept : s'.tokens = s.tokens := hs'.trans htokens
  rw [← hkept]
  exact postOn_setPassword

theorem exec_findBySub {e : StatementEnv} (he : succeeds e) (publicSub : String) :
    (AccountStore.exec e (.user (.findBySub publicSub)) s).1 =
      some (s.identity.matching fun u => u.publicSub = publicSub && !u.deleted) := by
  simp [AccountStore.exec, IdentityStore.exec, IdentityStore.statement, IdentityStore.matching,
    show e.fails = false from he]

theorem postOn_changePassword (userId : String) (body : Option PasswordChange) :
    (changePassword crypto userId body).PostOn AccountStore.exec succeeds
      (leaves (revokedBy userId s.tokens)) s := by
  unfold changePassword
  split
  · exact leaves_error
  split
  · exact leaves_error
  split
  · exact leaves_error
  intro e he
  rw [exec_findBySub he]
  dsimp only
  split
  · exact leaves_error
  · exact leaves_error
  unfold changeFound
  split
  · intro _ _ h
    cases h
  · exact leaves_error
  refine postOn_withNewHash ?_
  intro newHash s' hs'
  have hkept : s'.tokens = s.tokens := hs'
  rw [← hkept]
  exact postOn_setPassword

/-! ### Password changes -/

/-- The user whose public subject a self-service request carries. -/
def appOwner (userId : String) (s : AccountStore) : Option (Int × UserRow) :=
  (s.identity.matching fun u => u.publicSub = userId && !u.deleted).head?

theorem publicSub_of_appOwner {userId : String} {id : Int} {user : UserRow}
    (h : appOwner userId s = some (id, user)) : user.publicSub = userId := by
  obtain ⟨e, he, heq⟩ := List.mem_map.mp (List.mem_of_head? h)
  obtain ⟨rfl, rfl⟩ := Prod.mk.inj heq
  have := (List.mem_filter.mp he).2
  simp only [Bool.and_eq_true, decide_eq_true_eq] at this
  exact this.1

/-- The user whose password the request changes, if it changes one. -/
def passwordTarget (crypto : IdentityCrypto) : AccountRequest → AccountStore → Option (Int × UserRow)
  | .confirmReset token _, s =>
    (s.resetTokens.lookup (resetTokenHash crypto token)).bind fun row =>
      (s.identity.users.lookup row.userId).map fun user => (row.userId, user)
  | .changePassword userId _, s => appOwner userId s
  | _, _ => none

/-- The owner string whose rows the request revokes. -/
def revokedKey : AccountRequest → Int → UserRow → String
  | .confirmReset _ _, id, _ => toString id
  | _, _, user => user.publicSub

theorem tokens_after_passwordChange {request : AccountRequest} {env : Nat → StatementEnv} {id : Int}
    {user : UserRow} {message : String} {note : Option String}
    (hok : ∀ n, succeeds (env n)) (htarget : passwordTarget crypto request s = some (id, user))
    (hreply : (handled crypto env request s).1 = .success message note) :
    (handled crypto env request s).2.tokens = revokedBy (revokedKey request id user) s.tokens := by
  cases request with
  | validateUser identifier password => cases htarget
  | revokeAuthorizedApp userId clientId => cases htarget
  | confirmReset token newPassword =>
    obtain ⟨row, hrow, hmap⟩ := Option.bind_eq_some_iff.mp htarget
    obtain ⟨u, -, heq⟩ := Option.map_eq_some_iff.mp hmap
    obtain ⟨rfl, rfl⟩ := Prod.mk.inj heq
    exact (postOn_confirmReset hrow).eval hok 0 _ _ hreply
  | changePassword userId body =>
    change _ = revokedBy user.publicSub s.tokens
    rw [publicSub_of_appOwner htarget]
    exact (postOn_changePassword userId body).eval hok 0 _ _ hreply

/-- A password change that reports success, none of its statements failing, ends every token that
the user had before exactly when the user had no live token under the owner string that the
request leaves alone. -/
theorem old_tokens_revoked_iff (crypto : IdentityCrypto) (request : AccountRequest)
    (s : AccountStore) (env : Nat → StatementEnv) (id : Int) (user : UserRow) (message : String)
    (note : Option String) (hok : ∀ n, (env n).fails = false)
    (htarget : passwordTarget crypto request s = some (id, user))
    (hreply : (handled crypto env request s).1 = .success message note) :
    AllRevoked id user s.tokens (handled crypto env request s).2.tokens ↔
      RevokedElsewhere id user (revokedKey request id user) s.tokens := by
  rw [tokens_after_passwordChange hok htarget hreply]
  exact allRevoked_revokedBy_iff

/-- A pair as the code exchange saves it, for the given owner string. -/
def pairOf (userId : String) : Postgres.TokenTables :=
  (Postgres.saveTokenPair { now := 1000 }
    (knownService.newAccessToken (knownToken 1) "spa" userId "openid" 1000)
    (knownService.newRefreshToken (knownToken 2) (knownToken 1) "spa" userId "openid" knownFamily
      1000) ⟨∅, ∅⟩).2

def resetRequest : AccountRequest := .confirmReset "reset token" "new password"

def changeRequest : AccountRequest :=
  .changePassword knownUser.publicSub
    (some { oldPassword := "old password", newPassword := "new password" })

def handledAlone (request : AccountRequest) (userId : String) : AccountReply × AccountStore :=
  handled knownCrypto (fun _ => { now := 1500, random := knownSalt }) request
    (knownAccount (pairOf userId))

def accessRevoked (tokens : Postgres.TokenTables) : Option Bool :=
  (tokens.oauth2AccessTokens.lookup (hashToken knownService.crypto (knownToken 1))).map (·.revoked)

theorem not_allRevoked {before after : Postgres.TokenTables} {id : Int} {user : UserRow}
    {row : OAuth2AccessToken}
    (hrow : before.oauth2AccessTokens.lookup (hashToken knownService.crypto (knownToken 1)) = some row)
    (howned : OwnedBy id user row.userId) (hlive : accessRevoked after = some false) :
    ¬AllRevoked id user before after := by
  intro hall
  obtain ⟨row', hrow', hrevoked⟩ := hall.access _ row hrow howned
  rw [accessRevoked, hrow', Option.map_some, hrevoked] at hlive
  cases hlive

/-- A token of the code flow survives a reset, one of the silent flow survives a change. -/
theorem old_tokens_survive :
    (∃ message note, (handledAlone resetRequest knownUser.publicSub).1 = .success message note) ∧
    ¬AllRevoked 7 knownUser (pairOf knownUser.publicSub)
      (handledAlone resetRequest knownUser.publicSub).2.tokens ∧
    (∃ message note, (handledAlone changeRequest "7").1 = .success message note) ∧
    ¬AllRevoked 7 knownUser (pairOf "7") (handledAlone changeRequest "7").2.tokens := by
  obtain ⟨hreset, hchange⟩ :
      ((handledAlone resetRequest knownUser.publicSub).1 =
          .success "Password reset successful" (some "All existing sessions have been revoked") ∧
        accessRevoked (handledAlone resetRequest knownUser.publicSub).2.tokens = some false) ∧
      (handledAlone changeRequest "7").1 =
          .success "Password changed successfully" (some "All existing sessions have been revoked") ∧
        accessRevoked (handledAlone changeRequest "7").2.tokens = some false := by
    decide +kernel
  exact ⟨⟨_, _, hreset.1⟩, not_allRevoked rfl (.inl rfl) hreset.2, ⟨_, _, hchange.1⟩,
    not_allRevoked rfl (.inr (by decide)) hchange.2⟩

theorem old_tokens_revoked_iff_reset :
    AllRevoked 7 knownUser (pairOf "7") (handledAlone resetRequest "7").2.tokens ↔
      RevokedElsewhere 7 knownUser (toString (7 : Int)) (pairOf "7") := by
  have hfacts : passwordTarget knownCrypto resetRequest (knownAccount (pairOf "7")) =
        some (7, knownUser) ∧
      (handledAlone resetRequest "7").1 =
        .success "Password reset successful" (some "All existing sessions have been revoked") := by
    decide +kernel
  obtain ⟨htarget, hreply⟩ := hfacts
  exact old_tokens_revoked_iff knownCrypto resetRequest (knownAccount (pairOf "7"))
    (fun _ => { now := 1500, random := knownSalt }) 7 knownUser _ _ (fun _ => rfl) htarget hreply

/-! ### Revoking an app -/

/-- The tables after the update of `revokeAuthorizedApp`. -/
def revokedFor (userId clientId : String) (tokens : Postgres.TokenTables) : Postgres.TokenTables :=
  Postgres.revokeAccessWhere (fun row => row.userId = userId && row.clientId = clientId) tokens

/-- The last statement of the request, the only one that touches tokens. -/
theorem eval_revokeClientTokens {env : Nat → StatementEnv} {n : Nat} {userId clientId : String} :
    (Prog.eval AccountStore.exec env n (.call (.revokeClientTokens userId clientId) fun _ =>
      .ret (.success "Authorization revoked successfully") : AccountProg) s).2.1.tokens =
      if (env n).fails then s.tokens else revokedFor userId clientId s.tokens := by
  simp only [Prog.eval, AccountStore.exec, AccountStore.write]
  split <;> rfl

/-- Should the update fail, the request reports success all the same. -/
theorem tokens_after_revokeAuthorizedApp {env : Nat → StatementEnv} {userId clientId message : String}
    {note : Option String}
    (hreply : (handled crypto env (.revokeAuthorizedApp userId clientId) s).1 =
      .success message note) :
    (handled crypto env (.revokeAuthorizedApp userId clientId) s).2.tokens =
      if (env 2).fails then s.tokens else revokedFor userId clientId s.tokens := by
  change (Prog.eval AccountStore.exec env 0 (revokeAuthorizedApp userId clientId) s).1 = _ at hreply
  change (Prog.eval AccountStore.exec env 0 (revokeAuthorizedApp userId clientId) s).2.1.tokens = _
  unfold revokeAuthorizedApp at hreply ⊢
  by_cases hclient : clientId = ""
  · rw [if_pos hclient] at hreply
    cases hreply
  rw [if_neg hclient] at hreply ⊢
  rw [Prog.eval] at hreply ⊢
  dsimp only at hreply ⊢
  generalize (AccountStore.exec (env 0) (.user (.findBySub userId)) s).1 = found at hreply ⊢
  rcases found with _ | _ | ⟨found, _⟩
  · cases hreply
  · cases hreply
  dsimp only at hreply ⊢
  rw [Prog.eval] at hreply ⊢
  dsimp only [AccountStore.exec, AccountStore.write] at hreply ⊢
  by_cases hfails : (env 1).fails = true
  · rw [if_pos hfails] at hreply
    cases hreply
  · rw [if_neg hfails]
    exact eval_revokeClientTokens

/-- Rows stay, keep client and expiry, and are never un-revoked. -/
structure Aged (before after : Postgres.TokenTables) : Prop where
  access : ∀ k row, before.oauth2AccessTokens.lookup k = some row →
    ∃ row', after.oauth2AccessTokens.lookup k = some row' ∧ row'.expiresAt = row.expiresAt ∧
      (row.revoked = true → row'.revoked = true)
  refresh : ∀ k rt, before.oauth2RefreshTokens.lookup k = some rt →
    ∃ rt', after.oauth2RefreshTokens.lookup k = some rt' ∧ rt'.clientId = rt.clientId ∧
      rt'.expiresAt = rt.expiresAt ∧ (rt.revoked = true → rt'.revoked = true)

theorem Aged.refl (tokens : Postgres.TokenTables) : Aged tokens tokens where
  access _ row hrow := ⟨row, hrow, rfl, id⟩
  refresh _ rt hrt := ⟨rt, hrt, rfl, rfl, id⟩

theorem Aged.trans {a b c : Postgres.TokenTables} (h : Aged a b) (h' : Aged b c) : Aged a c where
  access k row hrow := by
    obtain ⟨row', hrow', hexp, hrevoked⟩ := h.access k row hrow
    obtain ⟨row'', hrow'', hexp', hrevoked'⟩ := h'.access k row' hrow'
    exact ⟨row'', hrow'', hexp'.trans hexp, fun hr => hrevoked' (hrevoked hr)⟩
  refresh k rt hrt := by
    obtain ⟨rt', hrt', hclient, hexp, hrevoked⟩ := h.refresh k rt hrt
    obtain ⟨rt'', hrt'', hclient', hexp', hrevoked'⟩ := h'.refresh k rt' hrt'
    exact ⟨rt'', hrt'', hclient'.trans hclient, hexp'.trans hexp, fun hr => hrevoked' (hrevoked hr)⟩

theorem aged_saveTokenPair {env : Env} {a : OAuth2AccessToken} {r : OAuth2RefreshToken}
    (tokens : Postgres.TokenTables) : Aged tokens (Postgres.saveTokenPair env a r tokens).2 := by
  unfold Postgres.saveTokenPair
  split
  · exact .refl tokens
  rename_i hfresh
  simp only [not_or] at hfresh
  refine ⟨?_, ?_⟩
  · intro k row hrow
    have hk : k ≠ a.token := by
      intro heq
      exact hfresh.2.1 (heq ▸ AList.lookup_isSome.mp (by rw [hrow]; rfl))
    exact ⟨row, (AList.lookup_insert_ne hk).trans hrow, rfl, id⟩
  · intro k rt hrt
    have hk : k ≠ r.token := by
      intro heq
      exact hfresh.2.2 (heq ▸ AList.lookup_isSome.mp (by rw [hrt]; rfl))
    exact ⟨rt, (AList.lookup_insert_ne hk).trans hrt, rfl, rfl, id⟩

theorem aged_atomicRevokeRefreshToken {env : Env} {token : String} (tokens : Postgres.TokenTables) :
    Aged tokens (Postgres.atomicRevokeRefreshToken env token tokens).2 := by
  unfold Postgres.atomicRevokeRefreshToken
  split
  · exact .refl tokens
  split
  · exact .refl tokens
  · rename_i row hrow
    split
    · exact .refl tokens
    refine ⟨fun _ row hrow => ⟨row, hrow, rfl, id⟩, ?_⟩
    intro k rt hrt
    by_cases hk : k = token
    · subst hk
      rw [hrow] at hrt
      obtain rfl := Option.some.inj hrt
      exact ⟨_, AList.lookup_insert _, rfl, rfl, fun _ => rfl⟩
    · exact ⟨rt, (AList.lookup_insert_ne hk).trans hrt, rfl, rfl, id⟩

theorem aged_revokeTokenFamily {env : Env} {familyId : String} (tokens : Postgres.TokenTables) :
    Aged tokens (Postgres.revokeTokenFamily env familyId tokens) := by
  unfold Postgres.revokeTokenFamily
  split
  · exact .refl tokens
  refine ⟨?_, ?_⟩
  · intro k row hrow
    dsimp only
    split
    · exact ⟨row, hrow, rfl, id⟩
    · refine ⟨_, by rw [Dict.lookup_mapValues, hrow, Option.map_some], ?_, ?_⟩
      · split <;> rfl
      · intro hrevoked
        split
        · rfl
        · exact hrevoked
  · intro k rt hrt
    refine ⟨_, by rw [Dict.lookup_mapValues, hrt, Option.map_some], ?_, ?_, ?_⟩
    · split <;> rfl
    · split <;> rfl
    · intro hrevoked
      split
      · rfl
      · exact hrevoked

theorem aged_exec {clients : ClientRepository} {grants : GrantRepository}
    {store : Store ⟨clients, grants, Postgres.tokenRepository⟩} {env : Env} {op : RepoCall} :
    Aged store.tokens (Store.exec env op store).2.tokens := by
  cases op with
  | saveTokenPair a r => exact aged_saveTokenPair store.tokens
  | atomicRevokeRefreshToken token => exact aged_atomicRevokeRefreshToken store.tokens
  | revokeTokenFamily familyId => exact aged_revokeTokenFamily store.tokens
  | _ => exact .refl store.tokens

theorem aged_of_run {clients : ClientRepository} {grants : GrantRepository}
    {ok : Guard (Pool (svc.over ⟨clients, grants, Postgres.tokenRepository⟩)) RepoInput RepoEvent}
    {s₀ : Store ⟨clients, grants, Postgres.tokenRepository⟩} {history : List RepoEvent}
    {p : Pool (svc.over ⟨clients, grants, Postgres.tokenRepository⟩)}
    (hrun : (svc.over _).machine.Run ok (Service.start _ s₀) history p) :
    Aged s₀.tokens p.shared.tokens := by
  refine hrun.invariant (fun _ q => Aged s₀.tokens q.shared.tokens) (.refl _) ?_
  intro h q i _ hq _
  change Aged s₀.tokens (Service.step _ q i).1.shared.tokens
  rcases step_cases q i with ⟨request, -, hs⟩ | ⟨tid, env, t, op, k, hrest, -, ht, hs⟩ | hs
  · rw [hs]
    exact hq
  · rw [hs]
    exact hq.trans aged_exec
  · rw [hs]
    exact hq

/-- Requests to the token service from time `now` on. -/
def clockFrom (now : Int) {repos : Repositories} :
    Guard (Pool (svc.over repos)) RepoInput RepoEvent :=
  fun _ _ i =>
    match i with
    | .start _ => True
    | .advance _ env => now ≤ env.now

/-- From time `now` on, `after` being the tables at that time: no access token that the user had for
the client in the tables `before` is accepted, and no refresh by the client with a refresh token of
the user yields a pair. -/
structure CutOff (svc : TokenService) (clients : ClientRepository) (grants : GrantRepository)
    (id : Int) (user : UserRow) (clientId : String) (now : Int) (before after : Postgres.TokenTables) :
    Prop where
  access : ∀ token row, before.oauth2AccessTokens.lookup (hashToken svc.crypto token) = some row →
    OwnedBy id user row.userId → row.clientId = clientId →
    ∀ (cs : clients.State) (gs : grants.State) history p,
      (svc.over ⟨clients, grants, Postgres.tokenRepository⟩).machine.Run (clockFrom now)
        (Service.start _ ⟨cs, gs, after⟩) history p →
    ∀ faults now', now ≤ now' → svc.validateAccessToken
      (fun k => Postgres.getAccessToken faults k p.shared.tokens) now' token = none
  refresh : ∀ token rt, before.oauth2RefreshTokens.lookup (hashToken svc.crypto token) = some rt →
    OwnedBy id user rt.userId →
    ∀ (cs : clients.State) (gs : grants.State) history p,
      (svc.over ⟨clients, grants, Postgres.tokenRepository⟩).machine.Run (clockFrom now)
        (Service.start _ ⟨cs, gs, after⟩) history p →
    ∀ t ∈ p.threads, t.request = .refresh ⟨token, clientId⟩ →
    ∀ response, t.rest ≠ .ret (.tokens response)

/-- What the user has for the client is revoked, expired, or an access token that the update of the
request reaches. -/
structure NothingLeft (svc : TokenService) (id : Int) (user : UserRow) (clientId : String)
    (now : Int) (updated : Bool) (tokens : Postgres.TokenTables) : Prop where
  access : ∀ token row, tokens.oauth2AccessTokens.lookup (hashToken svc.crypto token) = some row →
    OwnedBy id user row.userId → row.clientId = clientId →
    row.revoked = true ∨ row.expiresAt < now ∨ updated = true ∧ row.userId = user.publicSub
  refresh : ∀ token rt, tokens.oauth2RefreshTokens.lookup (hashToken svc.crypto token) = some rt →
    OwnedBy id user rt.userId → rt.clientId = clientId → rt.revoked = true ∨ rt.expiresAt < now

section CutOff

variable {clients : ClientRepository} {grants : GrantRepository} {id : Int} {user : UserRow}
  {clientId : String} {now : Int} {updated : Bool} {tokens : Postgres.TokenTables}

/-- The tables after the request. -/
def appRevoked (updated : Bool) (user : UserRow) (clientId : String)
    (tokens : Postgres.TokenTables) : Postgres.TokenTables :=
  if updated then revokedFor user.publicSub clientId tokens else tokens

def hit (updated : Bool) (user : UserRow) (clientId : String) (row : OAuth2AccessToken) : Bool :=
  updated && (row.userId = user.publicSub && row.clientId = clientId)

theorem lookup_access_appRevoked (updated : Bool) (user : UserRow) (clientId : String)
    (tokens : Postgres.TokenTables) (k : String) :
    (appRevoked updated user clientId tokens).oauth2AccessTokens.lookup k =
      (tokens.oauth2AccessTokens.lookup k).map fun row =>
        if hit updated user clientId row then { row with revoked := true } else row := by
  cases updated with
  | false => simp [appRevoked, hit]
  | true => simp [appRevoked, hit, revokedFor, Postgres.revokeAccessWhere]

@[simp] theorem refreshTokens_appRevoked :
    (appRevoked updated user clientId tokens).oauth2RefreshTokens = tokens.oauth2RefreshTokens := by
  cases updated <;> rfl

theorem validate_eq_none_iff {faults : Postgres.CallFaults} {now' : Int} {token : String}
    {row : OAuth2AccessToken} (hfaults : faults.access = false)
    (hrow : tokens.oauth2AccessTokens.lookup (hashToken svc.crypto token) = some row) :
    svc.validateAccessToken (fun k => Postgres.getAccessToken faults k tokens) now' token = none ↔
      row.revoked = true ∨ row.expiresAt < now' := by
  simp only [TokenService.validateAccessToken, Postgres.getAccessToken, Postgres.findAccessToken,
    hfaults, hrow, TokenService.checkAccessToken]
  by_cases hrevoked : row.revoked = true
  · simp [hrevoked]
  · simp [hrevoked]

theorem validate_of_fault {faults : Postgres.CallFaults} {now' : Int} {token : String}
    (hfaults : faults.access = true) :
    svc.validateAccessToken (fun k => Postgres.getAccessToken faults k tokens) now' token = none := by
  simp [TokenService.validateAccessToken, Postgres.getAccessToken, Postgres.findAccessToken, hfaults,
    TokenService.checkAccessToken]

theorem access_cutOff (hleft : NothingLeft svc id user clientId now updated tokens) {token : String}
    {row : OAuth2AccessToken}
    (hrow : tokens.oauth2AccessTokens.lookup (hashToken svc.crypto token) = some row)
    (howned : OwnedBy id user row.userId) (hclient : row.clientId = clientId)
    {later : Postgres.TokenTables} (haged : Aged (appRevoked updated user clientId tokens) later)
    (faults : Postgres.CallFaults) {now' : Int} (hnow : now ≤ now') :
    svc.validateAccessToken (fun k => Postgres.getAccessToken faults k later) now' token = none := by
  cases hfaults : faults.access with
  | true => exact validate_of_fault hfaults
  | false =>
    have hafter := lookup_access_appRevoked updated user clientId tokens
      (hashToken svc.crypto token)
    rw [hrow, Option.map_some] at hafter
    obtain ⟨row', hrow', hexpires, hrevoked⟩ := haged.access _ _ hafter
    rw [validate_eq_none_iff hfaults hrow']
    rcases hleft.access token row hrow howned hclient with h | h | ⟨hupdated, hsub⟩
    · left
      apply hrevoked
      split
      · rfl
      · exact h
    · right
      rw [hexpires]
      split
      · exact lt_of_lt_of_le h hnow
      · exact lt_of_lt_of_le h hnow
    · left
      apply hrevoked
      rw [if_pos (by simp [hit, hupdated, hsub, hclient])]

/-- A refresh that yields a pair won the compare-and-set on a token of its client and read the clock
before the token expired. -/
theorem refresh_yielding {token : String} {answers : List RepoAnswer} {response : TokenResponse}
    (h : Prog.Reached (svc.program (.refresh ⟨token, clientId⟩)) answers (.ret (.tokens response))) :
    ∃ (rt : OAuth2RefreshToken) (n : Int),
      (⟨.atomicRevokeRefreshToken (hashToken svc.crypto token), some rt⟩ : RepoAnswer) ∈ answers ∧
      (⟨.nowSeconds, n⟩ : RepoAnswer) ∈ answers ∧ rt.clientId = clientId ∧ n ≤ rt.expiresAt := by
  rcases Prog.reached_call_iff.mp h with ⟨-, h₁⟩ | ⟨storedRt, rest, rfl, h₁⟩
  · cases h₁
  cases storedRt with
  | none =>
    dsimp only at h₁
    rcases Prog.reached_call_iff.mp h₁ with ⟨-, h₂⟩ | ⟨maybeRevoked, rest, rfl, h₂⟩
    · cases h₂
    cases maybeRevoked with
    | none => cases (Prog.reached_ret_iff.mp h₂).2
    | some rt =>
      dsimp only at h₂
      split at h₂
      · rcases Prog.reached_call_iff.mp h₂ with ⟨-, h₃⟩ | ⟨-, rest, rfl, h₃⟩
        · cases h₃
        · cases (Prog.reached_ret_iff.mp h₃).2
      · cases (Prog.reached_ret_iff.mp h₂).2
  | some rt =>
    dsimp only at h₁
    split at h₁
    · cases (Prog.reached_ret_iff.mp h₁).2
    rename_i hclient
    rcases Prog.reached_call_iff.mp h₁ with ⟨-, h₂⟩ | ⟨n, rest, rfl, h₂⟩
    · cases h₂
    split at h₂
    · cases (Prog.reached_ret_iff.mp h₂).2
    rename_i hlive
    exact ⟨rt, n, by simp, by simp, not_not.mp hclient, not_lt.mp hlive⟩

theorem refresh_cutOff (hleft : NothingLeft svc id user clientId now updated tokens) {token : String}
    {rt₀ : OAuth2RefreshToken}
    (hrt : tokens.oauth2RefreshTokens.lookup (hashToken svc.crypto token) = some rt₀)
    (howned : OwnedBy id user rt₀.userId)
    {s₀ : Store ⟨clients, grants, Postgres.tokenRepository⟩}
    (hs₀ : s₀.tokens = appRevoked updated user clientId tokens) {history : List RepoEvent}
    {p : Pool (svc.over ⟨clients, grants, Postgres.tokenRepository⟩)}
    (hrun : (svc.over _).machine.Run (clockFrom now) (Service.start _ s₀) history p)
    {t : Thread (svc.over ⟨clients, grants, Postgres.tokenRepository⟩)} (ht : t ∈ p.threads)
    (hreq : t.request = .refresh ⟨token, clientId⟩) (response : TokenResponse) :
    t.rest ≠ .ret (.tokens response) := by
  intro hrest
  have hreached := t.reached
  rw [hrest, hreq] at hreached
  obtain ⟨rt, n, hcas, hclock, hclient, hlive⟩ := refresh_yielding hreached
  obtain ⟨tid, htid⟩ := List.mem_iff_getElem?.mp ht
  rw [(described_of_run hrun).answers htid] at hcas hclock
  obtain ⟨req, env, hcas⟩ := mem_answersOf.mp hcas
  obtain ⟨req', env', hclock⟩ := mem_answersOf.mp hclock
  obtain ⟨past, q, hq, -, hresp⟩ := exec_of_called hrun hcas
  obtain ⟨_, _, _, hnow, hn⟩ := exec_of_called hrun hclock
  -- the token the compare-and-set won is the one that was there before
  have hold : (appRevoked updated user clientId tokens).oauth2RefreshTokens.lookup
      (hashToken svc.crypto token) = some rt₀ := by
    rw [refreshTokens_appRevoked]
    exact hrt
  have haged := aged_of_run hq
  rw [hs₀] at haged
  obtain ⟨row, hrow, hsame, hexpires, hrevoked⟩ := haged.refresh _ _ hold
  obtain ⟨row', hrow', hunrevoked, rfl, -⟩ := Postgres.atomicRevokeRefreshToken_won hresp.symm
  rw [hrow] at hrow'
  obtain rfl := Option.some.inj hrow'
  rcases hleft.refresh token rt₀ hrt howned (hsame.symm.trans hclient) with h | h
  · rw [hrevoked h] at hunrevoked
    cases hunrevoked
  · have hread : n = env'.now := hn
    have hlate : now ≤ env'.now := hnow
    change n ≤ row.expiresAt at hlive
    omega

/-- A live refresh token of the client can be rotated, if there is a string whose hash is not in the
tables yet. -/
theorem refresh_of_live {token v : String} {rt₀ : OAuth2RefreshToken}
    {store : Store ⟨clients, grants, Postgres.tokenRepository⟩}
    (hrt : store.tokens.oauth2RefreshTokens.lookup (hashToken svc.crypto token) = some rt₀)
    (hunrevoked : rt₀.revoked = false) (hclient : rt₀.clientId = clientId)
    (hlive : now ≤ rt₀.expiresAt)
    (haccess : hashToken svc.crypto v ∉ store.tokens.oauth2AccessTokens)
    (hrefresh : hashToken svc.crypto v ∉ store.tokens.oauth2RefreshTokens) :
    ∃ response, (Prog.eval Store.exec (fun _ => { now := now, random := v }) 0
      (svc.refreshAccessToken token clientId) store).1 = .tokens response := by
  let won : OAuth2RefreshToken := { rt₀ with revoked := true }
  let after : Postgres.TokenTables :=
    ⟨store.tokens.oauth2AccessTokens,
      store.tokens.oauth2RefreshTokens.insert (hashToken svc.crypto token) won⟩
  have hcas : Postgres.tokenRepository.atomicRevokeRefreshToken { now := now, random := v }
      (hashToken svc.crypto token) store.tokens = (some (Postgres.refreshTokenRow won), after) := by
    simp [Postgres.tokenRepository, Postgres.atomicRevokeRefreshToken, hrt, hunrevoked, won, after]
  have hne : hashToken svc.crypto v ≠ hashToken svc.crypto token := by
    intro heq
    exact hrefresh (heq ▸ AList.lookup_isSome.mp (by rw [hrt]; rfl))
  have hsaved : ∀ a r, a.token = hashToken svc.crypto v → r.token = hashToken svc.crypto v →
      (Postgres.tokenRepository.saveTokenPair { now := now, random := v } a r after).1 = true := by
    intro a r ha hr
    simp [Postgres.tokenRepository, Postgres.saveTokenPair, ha, hr, after, AList.mem_insert, haccess,
      hrefresh, hne]
  have hnot : ¬now > (Postgres.refreshTokenRow won).expiresAt := not_lt.mpr hlive
  refine ⟨{ accessToken := v, expiresIn := svc.accessTokenTtl, refreshToken := v,
            idToken := svc.idToken rt₀.scope
              (svc.refreshIdTokenClaims (Postgres.refreshTokenRow won) now) }, ?_⟩
  rw [TokenService.refreshAccessToken, Prog.eval]
  simp only [Store.exec, hcas]
  rw [if_neg (by simp [Postgres.refreshTokenRow, won, hclient])]
  dsimp only [Prog.eval, Store.exec]
  rw [if_neg hnot]
  dsimp only [Prog.eval, Store.exec]
  rw [hsaved _ _ rfl rfl]
  rfl

theorem alone_from_now (svc : TokenService) (store : Store ⟨clients, grants, Postgres.tokenRepository⟩) (now : Int)
    (v : String) (request : Request) :
    ∃ history p t, (svc.over ⟨clients, grants, Postgres.tokenRepository⟩).machine.Run (clockFrom now)
        (Service.start _ store) history p ∧ p.threads = [t] ∧ t.request = request ∧
      t.rest = .ret (Prog.eval Store.exec (fun _ => { now := now, random := v }) 0
        (svc.program request) store).1 := by
  apply run_alone
  · intro _ _ _
    trivial
  · intro _ _ _
    exact le_refl now

theorem nothingLeft_of_cutOff (cs : clients.State) (gs : grants.State) {v : String}
    (haccess : hashToken svc.crypto v ∉ tokens.oauth2AccessTokens)
    (hrefresh : hashToken svc.crypto v ∉ tokens.oauth2RefreshTokens)
    (hcut : CutOff svc clients grants id user clientId now tokens
      (appRevoked updated user clientId tokens)) :
    NothingLeft svc id user clientId now updated tokens := by
  refine ⟨?_, ?_⟩
  · intro token row hrow howned hclient
    have hafter := lookup_access_appRevoked updated user clientId tokens (hashToken svc.crypto token)
    rw [hrow, Option.map_some] at hafter
    have hrejected := (validate_eq_none_iff rfl hafter).mp
      (hcut.access token row hrow howned hclient cs gs [] _ .init {} now (le_refl now))
    by_cases hhit : hit updated user clientId row = true
    · simp only [hit, Bool.and_eq_true, decide_eq_true_eq] at hhit
      exact .inr (.inr ⟨hhit.1, hhit.2.1⟩)
    · rw [if_neg hhit] at hrejected
      rcases hrejected with h | h
      · exact .inl h
      · exact .inr (.inl h)
  · intro token rt hrt howned hclient
    by_contra hlive
    simp only [not_or, Bool.not_eq_true, not_lt] at hlive
    let store : Store ⟨clients, grants, Postgres.tokenRepository⟩ :=
      ⟨cs, gs, appRevoked updated user clientId tokens⟩
    have hstored : store.tokens.oauth2RefreshTokens.lookup (hashToken svc.crypto token) = some rt := by
      rw [refreshTokens_appRevoked]
      exact hrt
    have haccess' : hashToken svc.crypto v ∉ store.tokens.oauth2AccessTokens := by
      rw [← AList.lookup_eq_none] at haccess ⊢
      rw [lookup_access_appRevoked, haccess]
      rfl
    have hrefresh' : hashToken svc.crypto v ∉ store.tokens.oauth2RefreshTokens := by
      rw [refreshTokens_appRevoked]
      exact hrefresh
    obtain ⟨response, hresponse⟩ := refresh_of_live hstored hlive.1 hclient hlive.2
      haccess' hrefresh'
    obtain ⟨history, p, t, hrun, hthreads, hreq, hrest⟩ :=
      alone_from_now svc store now v (.refresh ⟨token, clientId⟩)
    have hyield : t.rest = .ret (.tokens response) := hrest.trans (congrArg Prog.ret hresponse)
    exact hcut.refresh token rt hrt howned cs gs history p hrun t (by simp [hthreads]) hreq response
      hyield

end CutOff

/-- When revoking an app reports success, the app is cut off if nothing of the user is left for it
but access tokens under the public subject and the update was executed; and unless every possible
hash is in the tables already, it is cut off only then. -/
theorem app_cut_off_iff (svc : TokenService) (crypto : IdentityCrypto) (clients : ClientRepository)
    (grants : GrantRepository) (cs : clients.State) (gs : grants.State) (s : AccountStore)
    (env : Nat → StatementEnv) (userId clientId message : String) (note : Option String) (id : Int)
    (user : UserRow) (now : Int) (howner : appOwner userId s = some (id, user))
    (hreply : (handled crypto env (.revokeAuthorizedApp userId clientId) s).1 =
      .success message note) :
    (NothingLeft svc id user clientId now (!(env 2).fails) s.tokens →
      CutOff svc clients grants id user clientId now s.tokens
        (handled crypto env (.revokeAuthorizedApp userId clientId) s).2.tokens) ∧
    ((∃ v, hashToken svc.crypto v ∉ s.tokens.oauth2AccessTokens ∧
        hashToken svc.crypto v ∉ s.tokens.oauth2RefreshTokens) →
      CutOff svc clients grants id user clientId now s.tokens
        (handled crypto env (.revokeAuthorizedApp userId clientId) s).2.tokens →
      NothingLeft svc id user clientId now (!(env 2).fails) s.tokens) := by
  have hafter : (handled crypto env (.revokeAuthorizedApp userId clientId) s).2.tokens =
      appRevoked (!(env 2).fails) user clientId s.tokens := by
    rw [tokens_after_revokeAuthorizedApp hreply, appRevoked, publicSub_of_appOwner howner]
    cases (env 2).fails <;> rfl
  rw [hafter]
  refine ⟨?_, ?_⟩
  · intro hleft
    refine ⟨?_, ?_⟩
    · intro token row hrow howned hclient cs gs history p hrun faults now' hnow
      exact access_cutOff hleft hrow howned hclient (aged_of_run hrun) faults hnow
    · intro token rt hrt howned cs gs history p hrun t ht hreq response
      exact refresh_cutOff hleft hrt howned rfl hrun ht hreq response
  · intro hfresh hcut
    obtain ⟨v, haccess, hrefresh⟩ := hfresh
    exact nothingLeft_of_cutOff cs gs haccess hrefresh hcut

def appRequest : AccountRequest := .revokeAuthorizedApp knownUser.publicSub "spa"

/-- The refresh token of a pair of the code flow outlives the revocation of the app. -/
theorem app_refreshes_on :
    (∃ message note, (handledAlone appRequest knownUser.publicSub).1 = .success message note) ∧
    ¬CutOff knownService Memory.clientRepository Memory.grantRepository 7 knownUser "spa" 1500
      (pairOf knownUser.publicSub) (handledAlone appRequest knownUser.publicSub).2.tokens := by
  obtain ⟨hreply, hfresh⟩ :
      (handledAlone appRequest knownUser.publicSub).1 =
        .success "Authorization revoked successfully" ∧
      hashToken knownService.crypto (knownToken 3) ∉
          (pairOf knownUser.publicSub).oauth2AccessTokens ∧
        hashToken knownService.crypto (knownToken 3) ∉
          (pairOf knownUser.publicSub).oauth2RefreshTokens := by
    decide +kernel
  refine ⟨⟨_, _, hreply⟩, ?_⟩
  have hafter : (handledAlone appRequest knownUser.publicSub).2.tokens =
      appRevoked true knownUser "spa" (pairOf knownUser.publicSub) :=
    tokens_after_revokeAuthorizedApp hreply
  rw [hafter]
  intro hcut
  have hleft := nothingLeft_of_cutOff (∅ : Memory.Clients) (∅ : Memory.AuthCodes) hfresh.1 hfresh.2 hcut
  have hdead := hleft.refresh (knownToken 2) _ rfl (.inl rfl) rfl
  revert hdead
  decide +kernel

/-- An access token of the app under the public subject, without a refresh token. -/
def accessOnly : Postgres.TokenTables :=
  let row := Postgres.accessTokenRow 1000
    (knownService.newAccessToken (knownToken 1) "spa" knownUser.publicSub "openid" 1000)
  ⟨AList.insert row.token row ∅, ∅⟩

theorem nothingLeft_accessOnly : NothingLeft knownService 7 knownUser "spa" 1500 true accessOnly where
  access token row hrow _ _ := by
    right
    right
    refine ⟨rfl, ?_⟩
    rw [accessOnly] at hrow
    by_cases hkey : hashToken knownService.crypto token =
        (Postgres.accessTokenRow 1000 (knownService.newAccessToken (knownToken 1) "spa"
          knownUser.publicSub "openid" 1000)).token
    · rw [hkey, AList.lookup_insert] at hrow
      rw [← Option.some.inj hrow]
      rfl
    · rw [AList.lookup_insert_ne hkey, AList.lookup_empty] at hrow
      cases hrow
  refresh token rt hrt := by cases hrt

theorem app_cut_off_accessOnly :
    CutOff knownService Memory.clientRepository Memory.grantRepository 7 knownUser "spa" 1500
      accessOnly (handled knownCrypto (fun _ => { now := 1500 }) appRequest
        (knownAccount accessOnly)).2.tokens :=
  (app_cut_off_iff knownService knownCrypto Memory.clientRepository Memory.grantRepository
    (∅ : Memory.Clients) (∅ : Memory.AuthCodes) (knownAccount accessOnly) _ _ "spa"
    "Authorization revoked successfully" none 7 knownUser 1500 (by decide +kernel)
    (by decide +kernel)).1 nothingLeft_accessOnly

end AuthForge.OwnerRevocation
