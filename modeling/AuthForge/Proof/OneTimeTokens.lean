import AuthForge.Account.OneTimeTokens
import AuthForge.Base.History

/-!
# One-time tokens work once and for their user

Every write of a user row comes from a request that redeemed a token before, in a single statement
that no second redemption survives. The user of the row is the one the token was created for, and
the columns are those of the service.
-/

namespace AuthForge.OneTimeTokens

open Identity Account
open Service hiding program

/-! ### What the events say -/

/-- A token by its hash. -/
inductive OneTimeToken
  | reset (tokenHash : String)
  | verification (tokenHash : String)
  deriving DecidableEq

/-- The token that a request presents. -/
def presented (crypto : IdentityCrypto) : TokenRequest → Option OneTimeToken
  | .confirmReset token _ => some (.reset (resetTokenHash crypto token))
  | .verifyToken token => some (.verification (hashToken crypto token))
  | .requestReset _ | .sendVerificationEmail _ _ => none

inductive UserWrite
  | insert (row : NewUser)
  | update (userId : Int) (changes : Changes)

/-- The write of a user row that a statement is. -/
def userWrite : TokenCall → Option UserWrite
  | .account (.user (.update userId changes)) => some (.update userId changes)
  | .mail (.user (.update userId changes)) => some (.update userId changes)
  | .mail (.insertUser row) => some (.insert row)
  | _ => none

def executedWrite : Answer TokenCall TokenCall.Resp → Bool
  | ⟨.account (.user (.update _ _)), ok⟩ => ok
  | ⟨.mail (.user (.update _ _)), ok⟩ => ok
  | ⟨.mail (.insertUser _), inserted⟩ => inserted.isOk
  | _ => false

/-- The token that led to a write of a user row. -/
def writtenFor (crypto : IdentityCrypto) : TokenEvent → Option OneTimeToken
  | .called _ request _ a => if executedWrite a then presented crypto request else none
  | .started _ _ | .idle => none

/-- A token with its user and its expiry. -/
abbrev TokenRow := OneTimeToken × Int × Int

def created : Answer TokenCall TokenCall.Resp → Option TokenRow
  | ⟨.insertResetToken tokenHash row, ok⟩ =>
    if ok then some (.reset tokenHash, row.userId, row.expiresAt) else none
  | ⟨.mail (.insertToken tokenHash row), ok⟩ =>
    if ok then some (.verification tokenHash, row.userId, row.expiresAt) else none
  | _ => none

def redeemed : Answer TokenCall TokenCall.Resp → Option OneTimeToken
  | ⟨.account (.useResetToken tokenHash _), some (_ :: _)⟩ => some (.reset tokenHash)
  | ⟨.mail (.consumeToken tokenHash _), some (some _)⟩ => some (.verification tokenHash)
  | _ => none

/-- What the statement of an event was answered. -/
def onAnswer {β : Type} (f : Answer TokenCall TokenCall.Resp → Option β) : TokenEvent → Option β
  | .called _ _ _ a => f a
  | .started _ _ | .idle => none

/-- The token as the tables have it. -/
def rowOf (s : TokenStore) : OneTimeToken → Option TokenRow
  | .reset tokenHash =>
    (s.resetTokens.lookup tokenHash).map fun row => (.reset tokenHash, row.userId, row.expiresAt)
  | .verification tokenHash =>
    (s.verificationTokens.lookup tokenHash).map fun row =>
      (.verification tokenHash, row.userId, row.expiresAt)

/-- Whom a request asks a token for: the user with the address, or the user it names. -/
def RequestedFor (history : List TokenEvent) (tid : Nat) : TokenRequest → Int → Prop
  | .requestReset email, userId => ∃ env user, .called tid (.requestReset email) env
      ⟨.findByEmail (normalizeEmail email), some (userId, user)⟩ ∈ history
  | .sendVerificationEmail internalUserId _, userId => internalUserId = userId
  | .confirmReset _ _, _ | .verifyToken _, _ => False

/-- The token was created for the user, at the request of the run or before it. -/
def CreatedFor (s₀ : TokenStore) (history : List TokenEvent) (row : TokenRow) : Prop :=
  rowOf s₀ row.1 = some row ∨
    ∃ tid request env a, .called tid request env a ∈ history ∧ created a = some row ∧
      RequestedFor history tid request row.2.1

/-- The time that a request has read. -/
def timeOf : Answer TokenCall TokenCall.Resp → Option Int
  | ⟨.account (.user .nowSeconds), now⟩ => some now
  | ⟨.mail (.user .nowSeconds), now⟩ => some now
  | _ => none

/-- The columns that each kind of token may change. -/
inductive Allowed : OneTimeToken → (UserRow → UserRow) → Prop
  | reset (tokenHash newHash : String) :
    Allowed (.reset tokenHash) fun u => { u with passwordHash := newHash, salt := "" }
  | verification (tokenHash : String) :
    Allowed (.verification tokenHash) fun u => { u with emailVerified := true }

/-- What an event may do to the users: nothing, or the write that a token allows for its user. -/
inductive UsersStep (crypto : IdentityCrypto) (s₀ : TokenStore) (history : List TokenEvent)
    (e : TokenEvent) (s s' : TokenStore) : Prop
  | same (hnone : writtenFor crypto e = none)
      (hsame : ∀ k, s'.identity.users.lookup k = s.identity.users.lookup k)
  | written {tid : Nat} {request : TokenRequest} {env : MailEnv}
      {a : Answer TokenCall TokenCall.Resp} {token : OneTimeToken} {userId expiresAt now : Int}
      {write : UserRow → UserRow} (he : e = .called tid request env a)
      (hwritten : writtenFor crypto e = some token)
      (hcreated : CreatedFor s₀ history (token, userId, expiresAt))
      (htime : (answersOf tid history).filterMap timeOf = [now]) (hvalid : now < expiresAt)
      (hallowed : Allowed token write)
      (hrows : ∀ k, s'.identity.users.lookup k =
        (s.identity.users.lookup k).map fun u => if k = userId then write u else u)

variable {crypto : IdentityCrypto} {s₀ s : TokenStore} {history : List TokenEvent}
  {p : Pool (tokenService crypto)} {tid : Nat} {request : TokenRequest} {env : MailEnv}
  {token : OneTimeToken} {row : TokenRow}

/-- A new verification token has a hash that no earlier one had. -/
def CollisionFree (s₀ : TokenStore) :
    Guard (Pool (tokenService crypto)) (Input MailEnv TokenRequest) TokenEvent :=
  fun history p i =>
    match i with
    | .start _ => True
    | .advance tid _ =>
      ∀ tokenHash token, p.next tid = some (.mail (.insertToken tokenHash token)) →
        ∀ row, CreatedFor s₀ history row → row.1 ≠ .verification tokenHash

/-! ### What a request has been answered before it writes -/

/-- The answers before a write, oldest first, and the columns of the write. -/
inductive WriteReady (crypto : IdentityCrypto) :
    TokenRequest → List (Answer TokenCall TokenCall.Resp) → Int → Changes → Prop
  | confirmReset {token newPassword newHash : String} {now userId : Int} {others : List Int}
      {salt : List UInt8} {user : Option UserRow} :
    WriteReady crypto (.confirmReset token newPassword)
      [⟨.account (.user .nowSeconds), now⟩,
        ⟨.account (.useResetToken (resetTokenHash crypto token) now), some (userId :: others)⟩,
        ⟨.account (.user .randomBytes), salt⟩, ⟨.account (.findUser userId), user⟩]
      userId { passwordHash := some newHash, salt := some "" }
  | verifyToken {token email : String} {now userId : Int} {user : Option UserRow} :
    WriteReady crypto (.verifyToken token)
      [⟨.mail (.user .nowSeconds), now⟩,
        ⟨.mail (.consumeToken (hashToken crypto token) now), some (some (userId, email))⟩,
        ⟨.mail (.findUser userId), user⟩]
      userId { emailVerified := some true }

/-- What is known of the next statement of a request from its answers so far. -/
def Justified (crypto : IdentityCrypto) (request : TokenRequest)
    (answers : List (Answer TokenCall TokenCall.Resp)) : TokenCall → Prop
  | .account (.user (.update userId changes)) => WriteReady crypto request answers userId changes
  | .mail (.user (.update userId changes)) => WriteReady crypto request answers userId changes
  | .mail (.insertUser _) => False
  | .insertResetToken _ token => ∃ email user, request = .requestReset email ∧
      ⟨.findByEmail (normalizeEmail email), some (token.userId, user)⟩ ∈ answers
  | .mail (.insertToken _ token) => request = .sendVerificationEmail token.userId token.email
  | _ => True

theorem traced_requestReset (email : String) :
    (tokenProgram crypto (.requestReset email)).Traced
      (Justified crypto (.requestReset email)) [] := by
  change (Account.requestReset crypto email).Traced _ _
  unfold Account.requestReset
  split
  · trivial
  refine ⟨trivial, ?_⟩
  intro found
  rcases found with _ | ⟨userId, user⟩
  · trivial
  refine ⟨trivial, fun _ => ⟨trivial, fun _ => ⟨?_, fun _ => trivial⟩⟩⟩
  exact ⟨email, user, rfl, List.mem_cons_self⟩

theorem traced_revokeTokensOf {answers : List (Answer TokenCall TokenCall.Resp)}
    (userId message : String) :
    (ofAccount (revokeTokensOf userId message)).Traced (Justified crypto request) answers :=
  ⟨trivial, fun _ => ⟨trivial, fun _ => trivial⟩⟩

theorem traced_confirmReset (token newPassword : String) :
    (tokenProgram crypto (.confirmReset token newPassword)).Traced
      (Justified crypto (.confirmReset token newPassword)) [] := by
  change (ofAccount (Account.confirmReset crypto token newPassword)).Traced _ _
  unfold Account.confirmReset
  split
  · trivial
  split
  · trivial
  refine ⟨trivial, fun now => ⟨trivial, ?_⟩⟩
  intro used
  rcases used with _ | _ | ⟨userId, others⟩
  · trivial
  · trivial
  refine ⟨trivial, ?_⟩
  intro salt
  dsimp only
  split
  · trivial
  refine ⟨trivial, ?_⟩
  intro found
  rcases found with _ | user
  · trivial
  refine ⟨?_, ?_⟩
  · exact .confirmReset
  · intro ok
    cases ok with
    | false => trivial
    | true => exact traced_revokeTokensOf _ _

theorem traced_sendVerificationEmail (internalUserId : Int) (email : String) :
    (tokenProgram crypto (.sendVerificationEmail internalUserId email)).Traced
      (Justified crypto (.sendVerificationEmail internalUserId email)) [] := by
  change (ofMail (Account.sendVerificationEmail crypto internalUserId email _)).Traced _ _
  unfold Account.sendVerificationEmail
  split
  · trivial
  exact ⟨trivial, fun _ => ⟨trivial, fun _ => ⟨rfl, fun _ => trivial⟩⟩⟩

theorem traced_verifyToken (token : String) :
    (tokenProgram crypto (.verifyToken token)).Traced
      (Justified crypto (.verifyToken token)) [] := by
  change (ofMail (Account.verifyToken crypto token)).Traced _ _
  unfold Account.verifyToken
  split
  · trivial
  refine ⟨trivial, fun now => ⟨trivial, ?_⟩⟩
  intro consumed
  rcases consumed with _ | _ | ⟨userId, email⟩
  · trivial
  · trivial
  refine ⟨trivial, ?_⟩
  intro found
  rcases found with _ | user
  · trivial
  refine ⟨?_, ?_⟩
  · exact .verifyToken
  · intro ok
    cases ok <;> trivial

theorem traced_program (request : TokenRequest) :
    ((tokenService crypto).program request).Traced (Justified crypto request) [] := by
  cases request with
  | requestReset email => exact traced_requestReset email
  | confirmReset token newPassword => exact traced_confirmReset token newPassword
  | sendVerificationEmail internalUserId email =>
    exact traced_sendVerificationEmail internalUserId email
  | verifyToken token => exact traced_verifyToken token

/-! ### One statement -/

section Statement

variable {op : TokenCall}

/-- The row of each user after a statement. -/
def updated (ok : Bool) (userId : Int) (changes : Changes) (k : Int) (u : UserRow) : UserRow :=
  if ok = true ∧ k = userId then changes.apply u else u

theorem lookup_identity_exec {e : StatementEnv} {t : IdentityStore} {userId : Int}
    {changes : Changes} (k : Int) :
    (IdentityStore.exec e (.update userId changes) t).2.users.lookup k =
      (t.users.lookup k).map
        (updated (IdentityStore.exec e (.update userId changes) t).1 userId changes k) := by
  rw [IdentityStore.lookup_exec]
  congr 1
  funext u
  cases hup : e.fails with
  | true => simp [IdentityStore.written, updated, IdentityStore.exec, IdentityStore.statement, hup]
  | false => simp [IdentityStore.written, updated, IdentityStore.exec, IdentityStore.statement, hup]

theorem lookup_identity_exec_of_read {e : StatementEnv} {t : IdentityStore} {op : UserCall}
    (hop : ∀ userId changes, op ≠ .update userId changes) (k : Int) :
    (IdentityStore.exec e op t).2.users.lookup k = t.users.lookup k := by
  rw [IdentityStore.lookup_exec]
  have hsame : IdentityStore.written e op k = fun u => u := by
    funext u
    cases op with
    | update userId changes => exact absurd rfl (hop userId changes)
    | _ => rfl
  rw [hsame]
  exact Option.map_id'

theorem users_exec_of_none (h : userWrite op = none) (k : Int) :
    (TokenStore.exec env op s).2.identity.users.lookup k = s.identity.users.lookup k := by
  cases op with
  | account op =>
    cases op with
    | user op =>
      refine lookup_identity_exec_of_read ?_ k
      intro userId changes hop
      rw [hop] at h
      cases h
    | useResetToken | findUser | deleteConsents | revokeAccessTokens | revokeRefreshTokens
    | revokeClientTokens =>
      exact congrArg (fun t : IdentityStore => t.users.lookup k)
        (AccountStore.identity_exec fun _ h => AccountCall.noConfusion h)
  | mail op =>
    cases op with
    | user op =>
      refine lookup_identity_exec_of_read ?_ k
      intro userId changes hop
      rw [hop] at h
      cases h
    | insertUser => cases h
    | generateSecureToken | insertToken | consumeToken | findUser | findByPublicSub =>
      exact congrArg (fun t : IdentityStore => t.users.lookup k)
        (MailStore.identity_exec (fun _ h => MailCall.noConfusion h)
          fun _ h => MailCall.noConfusion h)
  | findByEmail => rfl
  | insertResetToken =>
    simp only [TokenStore.exec]
    split <;> rfl

theorem users_exec_of_update {userId : Int} {changes : Changes}
    (h : userWrite op = some (.update userId changes)) (k : Int) :
    (TokenStore.exec env op s).2.identity.users.lookup k =
      (s.identity.users.lookup k).map
        (updated (executedWrite ⟨op, (TokenStore.exec env op s).1⟩) userId changes k) := by
  unfold userWrite at h
  split at h
  · cases h
    exact lookup_identity_exec k
  · cases h
    exact lookup_identity_exec k
  · cases h
  · cases h

end Statement

/-! ### What a statement does to the tokens -/

/-- The tables of tokens before and after a statement, by its answer. -/
inductive TokenStep (s s' : TokenStore) : Answer TokenCall TokenCall.Resp → Prop
  | kept (a : Answer TokenCall TokenCall.Resp) (hreset : s'.resetTokens = s.resetTokens)
      (hverification : s'.verificationTokens = s.verificationTokens) (hredeemed : redeemed a = none)
      (hcreated : created a = none) : TokenStep s s' a
  | resetUsed (tokenHash : String) (now : Int) (row : ResetToken)
      (hrow : s.resetTokens.lookup tokenHash = some row) (hunused : row.used = false)
      (hvalid : now < row.expiresAt)
      (hreset : s'.resetTokens = s.resetTokens.insert tokenHash { row with used := true })
      (hverification : s'.verificationTokens = s.verificationTokens) :
    TokenStep s s' ⟨.account (.useResetToken tokenHash now), some [row.userId]⟩
  | resetCreated (tokenHash : String) (row : ResetToken)
      (hfresh : s.resetTokens.lookup tokenHash = none)
      (hreset : s'.resetTokens = s.resetTokens.insert tokenHash row)
      (hverification : s'.verificationTokens = s.verificationTokens) :
    TokenStep s s' ⟨.insertResetToken tokenHash row, true⟩
  | verificationUsed (tokenHash : String) (now : Int) (row : VerificationToken)
      (hrow : s.verificationTokens.lookup tokenHash = some row) (hvalid : now < row.expiresAt)
      (hreset : s'.resetTokens = s.resetTokens)
      (hverification : s'.verificationTokens = s.verificationTokens.erase tokenHash) :
    TokenStep s s' ⟨.mail (.consumeToken tokenHash now), some (some (row.userId, row.email))⟩
  | verificationCreated (tokenHash : String) (row : VerificationToken)
      (hreset : s'.resetTokens = s.resetTokens)
      (hverification : s'.verificationTokens = s.verificationTokens.insert tokenHash row) :
    TokenStep s s' ⟨.mail (.insertToken tokenHash row), true⟩

theorem tokenStep_useResetToken (tokenHash : String) (now : Int) :
    TokenStep s (TokenStore.exec env (.account (.useResetToken tokenHash now)) s).2
      ⟨.account (.useResetToken tokenHash now),
        (TokenStore.exec env (.account (.useResetToken tokenHash now)) s).1⟩ := by
  simp only [TokenStore.exec, AccountStore.exec, AccountStore.useResetToken]
  split
  · exact .kept _ rfl rfl rfl rfl
  split
  · exact .kept _ rfl rfl rfl rfl
  rename_i row hrow
  split
  · rename_i hvalid
    exact .resetUsed tokenHash now row hrow hvalid.1 hvalid.2 rfl rfl
  · exact .kept _ rfl rfl rfl rfl

theorem tokenStep_consumeToken (tokenHash : String) (now : Int) :
    TokenStep s (TokenStore.exec env (.mail (.consumeToken tokenHash now)) s).2
      ⟨.mail (.consumeToken tokenHash now),
        (TokenStore.exec env (.mail (.consumeToken tokenHash now)) s).1⟩ := by
  simp only [TokenStore.exec, MailStore.exec, MailStore.consumeToken]
  split
  · exact .kept _ rfl rfl rfl rfl
  split
  · exact .kept _ rfl rfl rfl rfl
  rename_i row hrow
  split
  · rename_i hvalid
    exact .verificationUsed tokenHash now row hrow hvalid rfl rfl
  · exact .kept _ rfl rfl rfl rfl

theorem tokenStep_exec (op : TokenCall) :
    TokenStep s (TokenStore.exec env op s).2 ⟨op, (TokenStore.exec env op s).1⟩ := by
  cases op with
  | account op =>
    cases op with
    | useResetToken tokenHash now => exact tokenStep_useResetToken tokenHash now
    | user | findUser | deleteConsents | revokeAccessTokens | revokeRefreshTokens
    | revokeClientTokens =>
      exact .kept _ (AccountStore.resetTokens_exec fun _ _ h => AccountCall.noConfusion h) rfl rfl
        rfl
  | mail op =>
    cases op with
    | consumeToken tokenHash now => exact tokenStep_consumeToken tokenHash now
    | insertToken tokenHash row =>
      simp only [TokenStore.exec, MailStore.exec]
      split
      · exact .kept _ rfl rfl rfl rfl
      · exact .verificationCreated tokenHash row rfl rfl
    | user | insertUser | generateSecureToken | findUser | findByPublicSub =>
      exact .kept _ rfl (MailStore.tokens_exec (fun _ _ h => MailCall.noConfusion h)
        fun _ _ h => MailCall.noConfusion h) rfl rfl
  | findByEmail email => exact .kept _ rfl rfl rfl rfl
  | insertResetToken tokenHash row =>
    simp only [TokenStore.exec]
    split
    · exact .kept _ rfl rfl rfl rfl
    · rename_i hnew
      refine .resetCreated tokenHash row ?_ rfl rfl
      exact AList.lookup_eq_none.mpr fun h => hnew (.inr h)

/-- Redeeming the token again changes nothing. -/
def Spent (s : TokenStore) : OneTimeToken → Prop
  | .reset tokenHash => ∃ row, s.resetTokens.lookup tokenHash = some row ∧ row.used = true
  | .verification tokenHash => s.verificationTokens.lookup tokenHash = none

variable {s' : TokenStore} {a : Answer TokenCall TokenCall.Resp}

theorem rowOf_of_same (hreset : s'.resetTokens = s.resetTokens)
    (hverification : s'.verificationTokens = s.verificationTokens) (token : OneTimeToken) :
    rowOf s' token = rowOf s token := by
  cases token with
  | reset tokenHash => simp only [rowOf, hreset]
  | verification tokenHash => simp only [rowOf, hverification]

theorem spent_of_same (hreset : s'.resetTokens = s.resetTokens)
    (hverification : s'.verificationTokens = s.verificationTokens) (hspent : Spent s token) :
    Spent s' token := by
  cases token with
  | reset tokenHash => simpa only [Spent, hreset] using hspent
  | verification tokenHash => simpa only [Spent, hverification] using hspent

/-- A row keeps its user and its expiry, and is new only where a statement has created it. -/
theorem TokenStep.rowOf (hstep : TokenStep s s' a) (hrow : OneTimeTokens.rowOf s' token = some row) :
    OneTimeTokens.rowOf s token = some row ∨ created a = some row := by
  cases hstep with
  | kept _ hreset hverification =>
    rw [rowOf_of_same hreset hverification] at hrow
    exact .inl hrow
  | resetUsed tokenHash now used hused _ _ hreset hverification =>
    left
    cases token with
    | verification k => simpa only [OneTimeTokens.rowOf, hverification] using hrow
    | reset k =>
      by_cases hk : k = tokenHash
      · subst hk
        simpa [OneTimeTokens.rowOf, hreset, hused] using hrow
      · simpa [OneTimeTokens.rowOf, hreset, hk] using hrow
  | resetCreated tokenHash new _ hreset hverification =>
    cases token with
    | verification k =>
      left
      simpa only [OneTimeTokens.rowOf, hverification] using hrow
    | reset k =>
      by_cases hk : k = tokenHash
      · subst hk
        right
        simpa [OneTimeTokens.rowOf, hreset, created] using hrow
      · left
        simpa [OneTimeTokens.rowOf, hreset, hk] using hrow
  | verificationUsed tokenHash now used _ _ hreset hverification =>
    left
    cases token with
    | reset k => simpa only [OneTimeTokens.rowOf, hreset] using hrow
    | verification k =>
      by_cases hk : k = tokenHash
      · subst hk
        simp [OneTimeTokens.rowOf, hverification] at hrow
      · simpa [OneTimeTokens.rowOf, hverification, hk] using hrow
  | verificationCreated tokenHash new hreset hverification =>
    cases token with
    | reset k =>
      left
      simpa only [OneTimeTokens.rowOf, hreset] using hrow
    | verification k =>
      by_cases hk : k = tokenHash
      · subst hk
        right
        simpa [OneTimeTokens.rowOf, hverification, created] using hrow
      · left
        simpa [OneTimeTokens.rowOf, hverification, hk] using hrow

theorem TokenStep.spent_of_redeemed (hstep : TokenStep s s' a) (hredeemed : redeemed a = some token) :
    ¬Spent s token ∧ Spent s' token := by
  cases hstep with
  | kept _ _ _ hnone =>
    rw [hnone] at hredeemed
    cases hredeemed
  | resetUsed tokenHash now used hused hunused _ hreset =>
    obtain rfl := Option.some.inj hredeemed
    refine ⟨?_, { used with used := true }, by simp [hreset], rfl⟩
    intro hspent
    obtain ⟨row, hrow, hspent⟩ := hspent
    rw [hused] at hrow
    rw [← Option.some.inj hrow, hunused] at hspent
    cases hspent
  | resetCreated => cases hredeemed
  | verificationUsed tokenHash now used hused _ _ hverification =>
    obtain rfl := Option.some.inj hredeemed
    refine ⟨?_, by simp [Spent, hverification]⟩
    intro hspent
    rw [Spent, hused] at hspent
    cases hspent
  | verificationCreated => cases hredeemed

/-- A spent token stays spent as long as no verification token is created under its hash. -/
theorem TokenStep.spent (hstep : TokenStep s s' a) (hspent : Spent s token)
    (hnew : ∀ tokenHash, token = .verification tokenHash →
      ∀ row, created a = some row → row.1 ≠ token) : Spent s' token := by
  cases hstep with
  | kept _ hreset hverification => exact spent_of_same hreset hverification hspent
  | resetUsed tokenHash now used _ _ _ hreset hverification =>
    cases token with
    | verification k => simpa only [Spent, hverification] using hspent
    | reset k =>
      by_cases hk : k = tokenHash
      · subst hk
        exact ⟨{ used with used := true }, by simp [hreset], rfl⟩
      · simpa [Spent, hreset, hk] using hspent
  | resetCreated tokenHash new hfresh hreset hverification =>
    cases token with
    | verification k => simpa only [Spent, hverification] using hspent
    | reset k =>
      by_cases hk : k = tokenHash
      · subst hk
        obtain ⟨row, hrow, -⟩ := hspent
        rw [hfresh] at hrow
        cases hrow
      · simpa [Spent, hreset, hk] using hspent
  | verificationUsed tokenHash now used _ _ hreset hverification =>
    cases token with
    | reset k => simpa only [Spent, hreset] using hspent
    | verification k =>
      by_cases hk : k = tokenHash
      · subst hk
        simp [Spent, hverification]
      · simpa [Spent, hverification, hk] using hspent
  | verificationCreated tokenHash new hreset hverification =>
    cases token with
    | reset k => simpa only [Spent, hreset] using hspent
    | verification k =>
      have hk : k ≠ tokenHash := by
        intro hk
        subst hk
        exact hnew k rfl _ rfl rfl
      simpa [Spent, hverification, hk] using hspent

/-! ### Runs -/

theorem rowOf_token (h : rowOf s token = some row) : row.1 = token := by
  cases token with
  | reset tokenHash =>
    obtain ⟨_, -, rfl⟩ := Option.map_eq_some_iff.mp h
    rfl
  | verification tokenHash =>
    obtain ⟨_, -, rfl⟩ := Option.map_eq_some_iff.mp h
    rfl

theorem RequestedFor.mono {later : List TokenEvent} {userId : Int}
    (h : RequestedFor history tid request userId) (hsub : history ⊆ later) :
    RequestedFor later tid request userId := by
  cases request with
  | requestReset email =>
    obtain ⟨env, user, hfound⟩ := h
    exact ⟨env, user, hsub hfound⟩
  | sendVerificationEmail | confirmReset | verifyToken => exact h

theorem CreatedFor.mono {later : List TokenEvent} (h : CreatedFor s₀ history row)
    (hsub : history ⊆ later) : CreatedFor s₀ later row := by
  rcases h with h | ⟨tid, request, env, a, hmem, hcreated, hfor⟩
  · exact .inl h
  · exact .inr ⟨tid, request, env, a, hsub hmem, hcreated, hfor.mono hsub⟩

theorem CreatedFor.cons {e : TokenEvent} (h : CreatedFor s₀ history row) :
    CreatedFor s₀ (e :: history) row :=
  h.mono (List.subset_cons_self e history)

theorem created_cases (h : created a = some row) :
    (∃ tokenHash token, a.op = .insertResetToken tokenHash token ∧
      row = (.reset tokenHash, token.userId, token.expiresAt)) ∨
    ∃ tokenHash token, a.op = .mail (.insertToken tokenHash token) ∧
      row = (.verification tokenHash, token.userId, token.expiresAt) := by
  unfold created at h
  split at h
  · rename_i tokenHash token ok
    cases ok with
    | false => cases h
    | true => exact .inl ⟨tokenHash, token, rfl, (Option.some.inj h).symm⟩
  · rename_i tokenHash token ok
    cases ok with
    | false => cases h
    | true => exact .inr ⟨tokenHash, token, rfl, (Option.some.inj h).symm⟩
  · cases h

section Run

variable {ok : Guard (Pool (tokenService crypto)) (Input MailEnv TokenRequest) TokenEvent}

/-- The statement that creates a token is one of a request for its user. -/
theorem requestedFor_of_created
    (hrun : (tokenService crypto).machine.Run ok ((tokenService crypto).start s₀)
      (.called tid request env a :: history) p) (hcreated : created a = some row) :
    RequestedFor history tid request row.2.1 := by
  have hjustified := traced_of_called traced_program hrun
  rcases created_cases hcreated with ⟨tokenHash, token, hop, rfl⟩ | ⟨tokenHash, token, hop, rfl⟩
  · rw [hop] at hjustified
    obtain ⟨email, user, rfl, hfound⟩ := hjustified
    obtain ⟨request', env', hcalled⟩ := mem_answersOf.mp hfound
    obtain rfl := request_unique hrun List.mem_cons_self (List.mem_cons_of_mem _ hcalled)
    exact ⟨env', user, hcalled⟩
  · rw [hop] at hjustified
    obtain rfl := hjustified
    rfl

/-- Every token in the tables was created for the user it belongs to. -/
theorem createdFor_of_run
    (hrun : (tokenService crypto).machine.Run ok ((tokenService crypto).start s₀) history p) :
    ∀ token row, rowOf p.shared token = some row → CreatedFor s₀ history row := by
  refine shared_invariant (P := fun h s => ∀ token row, rowOf s token = some row →
    CreatedFor s₀ h row) ?_ ?_ ?_ ?_ hrun
  · intro token row hrow
    rw [← rowOf_token hrow] at hrow
    exact .inl hrow
  · exact fun _ _ _ _ ih token row hrow => (ih token row hrow).cons
  · exact fun _ _ ih token row hrow => (ih token row hrow).cons
  · intro h q tid request env op hexec ih token row hrow
    rcases (tokenStep_exec op).rowOf hrow with hrow | hcreated
    · exact (ih token row hrow).cons
    · obtain ⟨p', hrun⟩ := hexec.after
      have hfor := requestedFor_of_created hrun hcreated
      exact .inr ⟨tid, request, env, _, List.mem_cons_self, hcreated,
        hfor.mono (List.subset_cons_self _ _)⟩

end Run

/-! ### One redemption for each token -/

theorem TokenStep.rowOf_redeemed (hstep : TokenStep s s' a) (hredeemed : redeemed a = some token) :
    ∃ row, OneTimeTokens.rowOf s token = some row := by
  cases hstep with
  | kept _ _ _ hnone =>
    rw [hnone] at hredeemed
    cases hredeemed
  | resetUsed tokenHash now used hused =>
    obtain rfl := Option.some.inj hredeemed
    exact ⟨_, by rw [OneTimeTokens.rowOf, hused]; rfl⟩
  | resetCreated => cases hredeemed
  | verificationUsed tokenHash now used hused =>
    obtain rfl := Option.some.inj hredeemed
    exact ⟨_, by rw [OneTimeTokens.rowOf, hused]; rfl⟩
  | verificationCreated => cases hredeemed

/-- The tokens that were redeemed are spent, and each of them was redeemed once. -/
structure RedeemedOnce (s₀ : TokenStore) (history : List TokenEvent) (s : TokenStore) : Prop where
  nodup : (history.filterMap (onAnswer redeemed)).Nodup
  spent : ∀ token ∈ history.filterMap (onAnswer redeemed), Spent s token
  created : ∀ token ∈ history.filterMap (onAnswer redeemed), ∃ row, CreatedFor s₀ history row ∧
    row.1 = token

theorem RedeemedOnce.cons_of_none {e : TokenEvent} (h : RedeemedOnce s₀ history s)
    (he : onAnswer redeemed e = none) (hspent : ∀ token ∈ history.filterMap (onAnswer redeemed),
      Spent s' token) : RedeemedOnce s₀ (e :: history) s' := by
  have hsame : (e :: history).filterMap (onAnswer redeemed) =
      history.filterMap (onAnswer redeemed) := List.filterMap_cons_none he
  refine ⟨?_, ?_, ?_⟩
  · rw [hsame]
    exact h.nodup
  · rw [hsame]
    exact hspent
  · rw [hsame]
    intro token htoken
    obtain ⟨row, hrow, hof⟩ := h.created token htoken
    exact ⟨row, hrow.cons, hof⟩

theorem redeemedOnce_of_run
    (hrun : (tokenService crypto).machine.Run (CollisionFree s₀) ((tokenService crypto).start s₀)
      history p) : RedeemedOnce s₀ history p.shared := by
  refine shared_invariant (P := RedeemedOnce s₀) ?_ ?_ ?_ ?_ hrun
  · exact ⟨List.nodup_nil, fun _ h => absurd h List.not_mem_nil,
      fun _ h => absurd h List.not_mem_nil⟩
  · exact fun _ _ _ _ ih => ih.cons_of_none rfl ih.spent
  · exact fun _ _ ih => ih.cons_of_none rfl ih.spent
  · intro h q tid request env op hexec ih
    have hstep : TokenStep q.shared (TokenStore.exec env op q.shared).2 _ := tokenStep_exec op
    have hspent : ∀ token ∈ h.filterMap (onAnswer redeemed),
        Spent (TokenStore.exec env op q.shared).2 token := by
      intro token htoken
      refine hstep.spent (ih.spent token htoken) ?_
      intro tokenHash hverification row hcreated hrow
      obtain ⟨old, hold, hof⟩ := ih.created token htoken
      rcases created_cases hcreated with ⟨newHash, new, -, rfl⟩ | ⟨newHash, new, hop, rfl⟩
      · rw [hverification] at hrow
        cases hrow
      · obtain rfl : op = .mail (.insertToken newHash new) := hop
        exact hexec.guarded newHash new hexec.next old hold (hof.trans hrow.symm)
    cases hredeemed : redeemed ⟨op, (TokenStore.exec env op q.shared).1⟩ with
    | none => exact ih.cons_of_none hredeemed hspent
    | some token =>
      obtain ⟨hunspent, hnow⟩ := hstep.spent_of_redeemed hredeemed
      obtain ⟨row, hrow⟩ := hstep.rowOf_redeemed hredeemed
      have hcons : (.called tid request env ⟨op, (TokenStore.exec env op q.shared).1⟩ :: h).filterMap
          (onAnswer redeemed) = token :: h.filterMap (onAnswer redeemed) :=
        List.filterMap_cons_some hredeemed
      refine ⟨?_, ?_, ?_⟩
      · refine hcons ▸ List.nodup_cons.mpr ⟨?_, ih.nodup⟩
        exact fun hmem => hunspent (ih.spent token hmem)
      · intro token' htoken'
        rcases List.mem_cons.mp (hcons ▸ htoken') with rfl | hmem
        · exact hnow
        · exact hspent token' hmem
      · intro token' htoken'
        rcases List.mem_cons.mp (hcons ▸ htoken') with rfl | hmem
        · exact ⟨row, (createdFor_of_run hexec.run token' row hrow).cons, rowOf_token hrow⟩
        · obtain ⟨old, hold, hof⟩ := ih.created token' hmem
          exact ⟨old, hold.cons, hof⟩

/-! ### The write behind a redemption -/

theorem WriteReady.not_executed {answers : List (Answer TokenCall TokenCall.Resp)} {userId : Int}
    {changes : Changes} (h : WriteReady crypto request answers userId changes) :
    ∀ a ∈ answers, executedWrite a = false := by
  cases h with
  | confirmReset => simp [executedWrite]
  | verifyToken => simp [executedWrite]

theorem WriteReady.redeemed {answers : List (Answer TokenCall TokenCall.Resp)} {userId : Int}
    {changes : Changes} (h : WriteReady crypto request answers userId changes) :
    ∃ token, presented crypto request = some token ∧
      ∃ a ∈ answers, OneTimeTokens.redeemed a = some token := by
  cases h with
  | confirmReset => exact ⟨_, rfl, _, List.mem_cons_of_mem _ List.mem_cons_self, rfl⟩
  | verifyToken => exact ⟨_, rfl, _, List.mem_cons_of_mem _ List.mem_cons_self, rfl⟩

theorem not_executed_of_none (h : userWrite a.op = none) : executedWrite a = false := by
  unfold executedWrite
  split
  · cases h
  · cases h
  · cases h
  · rfl

/-- A request writes a user row only when it is ready for that. -/
theorem writeReady_of_userWrite {answers : List (Answer TokenCall TokenCall.Resp)}
    {op : TokenCall} {write : UserWrite} (hjustified : Justified crypto request answers op)
    (hwrite : userWrite op = some write) :
    ∃ userId changes, write = .update userId changes ∧
      WriteReady crypto request answers userId changes := by
  unfold userWrite at hwrite
  split at hwrite
  · exact ⟨_, _, (Option.some.inj hwrite).symm, hjustified⟩
  · exact ⟨_, _, (Option.some.inj hwrite).symm, hjustified⟩
  · exact absurd hjustified id
  · cases hwrite

theorem writeReady_of_executed {answers : List (Answer TokenCall TokenCall.Resp)}
    (hjustified : Justified crypto request answers a.op) (hwrite : executedWrite a = true) :
    ∃ userId changes, WriteReady crypto request answers userId changes := by
  cases hop : userWrite a.op with
  | none =>
    rw [not_executed_of_none hop] at hwrite
    cases hwrite
  | some write =>
    obtain ⟨userId, changes, -, hready⟩ := writeReady_of_userWrite hjustified hop
    exact ⟨userId, changes, hready⟩

/-- The request of a write has redeemed the token before and has written nothing yet. -/
theorem redemption_of_write {ok : Guard (Pool (tokenService crypto)) (Input MailEnv TokenRequest)
      TokenEvent} {e : TokenEvent}
    (hrun : (tokenService crypto).machine.Run ok ((tokenService crypto).start s₀) (e :: history) p)
    (hwritten : writtenFor crypto e = some token) :
    ∃ tid request env a, e = .called tid request env a ∧ executedWrite a = true ∧
      (∀ b ∈ answersOf tid history, executedWrite b = false) ∧
      ∃ request' env' b, .called tid request' env' b ∈ history ∧ redeemed b = some token := by
  cases e with
  | started | idle => cases hwritten
  | called tid request env a =>
    cases hwrite : executedWrite a with
    | false => simp [writtenFor, hwrite] at hwritten
    | true =>
      have hpresented : presented crypto request = some token := by
        simpa [writtenFor, hwrite] using hwritten
      obtain ⟨userId, changes, hready⟩ :=
        writeReady_of_executed (traced_of_called traced_program hrun) hwrite
      obtain ⟨token', htoken', b, hb, hredeemed⟩ := hready.redeemed
      obtain rfl := Option.some.inj (hpresented.symm.trans htoken')
      obtain ⟨request', env', hcalled⟩ := mem_answersOf.mp hb
      exact ⟨tid, request, env, a, rfl, hwrite, hready.not_executed, request', env', b, hcalled,
        hredeemed⟩

/-- No token leads to two writes. -/
theorem writtenFor_nodup
    (hrun : (tokenService crypto).machine.Run (CollisionFree s₀) ((tokenService crypto).start s₀)
      history p) : (history.filterMap (writtenFor crypto)).Nodup := by
  refine shared_invariant (P := fun h _ => (h.filterMap (writtenFor crypto)).Nodup) List.nodup_nil
    (fun _ _ _ _ ih => ih) (fun _ _ ih => ih) ?_ hrun
  intro h q tid request env op hexec ih
  obtain ⟨p', hrun⟩ := hexec.after
  cases hwritten : writtenFor crypto
      (.called tid request env ⟨op, ((tokenService crypto).exec env op q.shared).1⟩) with
  | none => rwa [List.filterMap_cons_none hwritten]
  | some token =>
    rw [List.filterMap_cons_some hwritten]
    refine List.nodup_cons.mpr ⟨?_, ih⟩
    intro hagain
    obtain ⟨e, he, hearlier⟩ := List.mem_filterMap.mp hagain
    obtain ⟨post, past, rfl⟩ := List.append_of_mem he
    obtain ⟨q', hq'⟩ := hexec.run.shorter
    obtain ⟨i, request₁, env₁, a₁, heq, -, hfresh, request₂, env₂, b, hb, hredeemed⟩ :=
      redemption_of_write hrun hwritten
    obtain ⟨j, request₃, env₃, a₃, rfl, hwrite, -, request₄, env₄, c, hc, hredeemed'⟩ :=
      redemption_of_write hq' hearlier
    cases heq
    have hsame := eq_of_nodup_filterMap (redeemedOnce_of_run hexec.run).nodup hb
      (List.mem_append_right post (List.mem_cons_of_mem _ hc)) (f := onAnswer redeemed) hredeemed
      hredeemed'
    cases hsame
    have hnone := hfresh a₃ (mem_answersOf.mpr ⟨request₃, env₃, he⟩)
    rw [hwrite] at hnone
    cases hnone

/-- The statement of an answer found the tables as they were at the time. -/
theorem tokenStep_of_mem {ok : Guard (Pool (tokenService crypto)) (Input MailEnv TokenRequest)
      TokenEvent}
    (hrun : (tokenService crypto).machine.Run ok ((tokenService crypto).start s₀) history p)
    (hmem : a ∈ answersOf tid history) :
    ∃ past q s', past ⊆ history ∧
      (tokenService crypto).machine.Run ok ((tokenService crypto).start s₀) past q ∧
      TokenStep q.shared s' a := by
  obtain ⟨request, env, hcalled⟩ := mem_answersOf.mp hmem
  obtain ⟨post, past, rfl⟩ := List.append_of_mem hcalled
  obtain ⟨p', hp'⟩ := hrun.shorter
  obtain ⟨q, hq, -, -, hresp⟩ := answered_of_called hp'
  refine ⟨past, q, (TokenStore.exec env a.op q.shared).2, ?_, hq, ?_⟩
  · exact fun e he => List.mem_append_right post (List.mem_cons_of_mem _ he)
  · have hstep : TokenStep q.shared (TokenStore.exec env a.op q.shared).2 _ := tokenStep_exec a.op
    obtain ⟨op, r⟩ := a
    obtain rfl : r = (TokenStore.exec env op q.shared).1 := hresp
    exact hstep

/-- What a request that is about to write knows about its token. -/
theorem token_of_writeReady {ok : Guard (Pool (tokenService crypto)) (Input MailEnv TokenRequest)
      TokenEvent} {userId : Int} {changes : Changes}
    (hrun : (tokenService crypto).machine.Run ok ((tokenService crypto).start s₀) history p)
    (hready : WriteReady crypto request (answersOf tid history) userId changes) :
    ∃ token expiresAt now, presented crypto request = some token ∧
      CreatedFor s₀ history (token, userId, expiresAt) ∧
      (answersOf tid history).filterMap timeOf = [now] ∧ now < expiresAt ∧
      Allowed token changes.apply := by
  generalize hanswers : answersOf tid history = answers at hready
  cases hready with
  | @confirmReset rawToken newPassword newHash now userId others salt user =>
    have hmem : ⟨.account (.useResetToken (resetTokenHash crypto rawToken) now),
        some (userId :: others)⟩ ∈ answersOf tid history := by
      rw [hanswers]
      exact List.mem_cons_of_mem _ List.mem_cons_self
    obtain ⟨past, q, s', hsub, hq, hstep⟩ := tokenStep_of_mem hrun hmem
    cases hstep with
    | kept _ _ _ hnone => cases hnone
    | resetUsed _ _ row hrow _ hvalid =>
      refine ⟨_, row.expiresAt, now, rfl, ?_, rfl, hvalid, .reset _ newHash⟩
      exact (createdFor_of_run hq (.reset (resetTokenHash crypto rawToken)) _
        (by rw [rowOf, hrow]; rfl)).mono hsub
  | @verifyToken rawToken email now userId user =>
    have hmem : ⟨.mail (.consumeToken (hashToken crypto rawToken) now),
        some (some (userId, email))⟩ ∈ answersOf tid history := by
      rw [hanswers]
      exact List.mem_cons_of_mem _ List.mem_cons_self
    obtain ⟨past, q, s', hsub, hq, hstep⟩ := tokenStep_of_mem hrun hmem
    cases hstep with
    | kept _ _ _ hnone => cases hnone
    | verificationUsed _ _ row hrow hvalid =>
      refine ⟨_, row.expiresAt, now, rfl, ?_, rfl, hvalid, .verification _⟩
      exact (createdFor_of_run hq (.verification (hashToken crypto rawToken)) _
        (by rw [rowOf, hrow]; rfl)).mono hsub

/-- One step of a run does to the users what its token allows. -/
theorem usersStep_of_run {ok : Guard (Pool (tokenService crypto)) (Input MailEnv TokenRequest)
      TokenEvent}
    (hrun : (tokenService crypto).machine.Run ok ((tokenService crypto).start s₀) history p)
    (i : Input MailEnv TokenRequest) :
    UsersStep crypto s₀ history ((tokenService crypto).machine.step p i).2 p.shared
      ((tokenService crypto).machine.step p i).1.shared := by
  change UsersStep crypto s₀ history ((tokenService crypto).step p i).2 p.shared
    ((tokenService crypto).step p i).1.shared
  rcases step_cases p i with ⟨request, -, hs⟩ | ⟨tid, env, t, op, k, hrest, -, ht, hs⟩ | hs
  · rw [hs]
    exact .same rfl fun _ => rfl
  · rw [hs]
    have hjustified := traced_of_thread traced_program t hrest
    rw [(described_of_run hrun).answers ht] at hjustified
    cases hop : userWrite op with
    | none =>
      refine .same ?_ (users_exec_of_none hop)
      rw [writtenFor, not_executed_of_none hop]
      rfl
    | some write =>
      obtain ⟨userId, changes, rfl, hready⟩ := writeReady_of_userWrite hjustified hop
      have hrows (k : Int) : (TokenStore.exec env op p.shared).2.identity.users.lookup k = _ :=
        users_exec_of_update hop k
      cases hdone : executedWrite ⟨op, (TokenStore.exec env op p.shared).1⟩ with
      | false =>
        refine .same ?_ ?_
        · exact if_neg (ne_true_of_eq_false hdone)
        · intro k
          rw [hdone] at hrows
          refine (hrows k).trans ?_
          have hsame : updated false userId changes k = fun u => u := by
            funext u
            simp [updated]
          rw [hsame]
          exact Option.map_id'
      | true =>
        obtain ⟨token, expiresAt, now, hpresented, hcreated, htime, hvalid, hallowed⟩ :=
          token_of_writeReady hrun hready
        refine .written rfl ((if_pos hdone).trans hpresented) hcreated htime hvalid hallowed ?_
        intro k
        rw [hdone] at hrows
        refine (hrows k).trans (congrArg (fun f => (p.shared.identity.users.lookup k).map f) ?_)
        funext u
        simp [updated]
  · rw [hs]
    exact .same rfl fun _ => rfl

/-- Each token leads to at most one write of a user row, and every step of the run writes no user row
or what a token allows that was created for the user and has not expired. -/
theorem one_time_tokens_work_once (crypto : IdentityCrypto) (s₀ : TokenStore)
    (history : List TokenEvent) (p : Pool (tokenService crypto))
    (hrun : (tokenService crypto).machine.Run (CollisionFree s₀) ((tokenService crypto).start s₀)
      history p) :
    (history.filterMap (writtenFor crypto)).Nodup ∧
      ∀ i, UsersStep crypto s₀ history ((tokenService crypto).machine.step p i).2 p.shared
        ((tokenService crypto).machine.step p i).1.shared :=
  ⟨writtenFor_nodup hrun, usersStep_of_run hrun⟩

/-! ### Two redemptions of one token -/

def creates : Option TokenCall → Bool
  | some (.mail (.insertToken _ _)) => true
  | _ => false

/-- No verification token is created. -/
def createsNone : Guard (Pool (tokenService crypto)) (Input MailEnv TokenRequest) TokenEvent :=
  fun _ p i =>
    (match i with
      | .start _ => false
      | .advance tid _ => creates (p.next tid)) = false

instance (h : List TokenEvent) (p : Pool (tokenService crypto)) (i : Input MailEnv TokenRequest) :
    Decidable (createsNone h p i) :=
  inferInstanceAs (Decidable (_ = false))

theorem collisionFree_of_createsNone (s₀ : TokenStore) {h : List TokenEvent}
    {i : Input MailEnv TokenRequest} (hnone : createsNone h p i) : CollisionFree s₀ h p i := by
  cases i with
  | start request => trivial
  | advance tid env =>
    intro tokenHash token hnext
    simp [createsNone, hnext, creates] at hnone

def resetStore : TokenStore where
  toAccountStore := knownAccount ⟨∅, ∅⟩

def resetTwice : List (Input MailEnv TokenRequest) :=
  let request : TokenRequest := .confirmReset "reset token" "new password"
  let step (tid : Nat) : Input MailEnv TokenRequest :=
    .advance tid { now := 1000, random := knownSalt }
  [.start request, .start request, step 0, step 1, step 1, step 0, step 1, step 1, step 1, step 0]

/-- Both requests redeem the token at the same time; one of them writes. -/
theorem one_time_tokens_work_once_overlapping :
    let r := (tokenService knownCrypto).machine.exec [] (Service.start _ resetStore) resetTwice
    r.1.filterMap (writtenFor knownCrypto) =
        [.reset "32E3FD8F6230D108FC6FF471B9F09E3B7053A72B1232014E8FDBAF4E50D96F0A"] ∧
      (r.1.filterMap (writtenFor knownCrypto)).Nodup ∧
      ∀ i, UsersStep knownCrypto resetStore r.1 ((tokenService knownCrypto).machine.step r.2 i).2
        r.2.shared ((tokenService knownCrypto).machine.step r.2 i).1.shared := by
  intro r
  have hfacts : (tokenService knownCrypto).machine.Guarded createsNone []
        (Service.start _ resetStore) resetTwice ∧
      r.1.filterMap (writtenFor knownCrypto) =
        [.reset "32E3FD8F6230D108FC6FF471B9F09E3B7053A72B1232014E8FDBAF4E50D96F0A"] := by
    decide +kernel
  obtain ⟨hguarded, hwritten⟩ := hfacts
  have hrun := (Machine.Run.exec_of_guarded .init resetTwice hguarded).mono
    fun _ _ _ hok => collisionFree_of_createsNone resetStore hok
  exact ⟨hwritten, one_time_tokens_work_once knownCrypto resetStore _ _ hrun⟩

end AuthForge.OneTimeTokens
