import AuthForge.Account.EmailVerification
import AuthForge.Account.SelfService

/-!
# Redemptions that end in an error

Both services redeem the token in their first statement and look at the user afterwards. A request
that ends in an error has left the users alone, and of the tokens it has used up at most the one that
its first statement redeemed.
-/

namespace AuthForge.FailedRedemption

open Identity Account

variable {crypto : IdentityCrypto} {tokenHash : String} {now : Int}

/-! ### Reset tokens -/

section Reset

variable {s : AccountStore} {env : StatementEnv}

/-- A redemption at the time would take the token. -/
def Resettable (now : Int) (tokenHash : String) (s : AccountStore) : Prop :=
  ∃ row ∈ s.resetTokens.lookup tokenHash, row.used = false ∧ now < row.expiresAt

instance (now : Int) (tokenHash : String) (s : AccountStore) :
    Decidable (Resettable now tokenHash s) :=
  inferInstanceAs (Decidable (∃ row ∈ s.resetTokens.lookup tokenHash,
    row.used = false ∧ now < row.expiresAt))

def answersError : AccountReply → Bool
  | .error _ _ => true
  | _ => false

/-- What an exit after the redemption leaves alone. -/
def KeepsBoth (s : AccountStore) (reply : AccountReply) (s' : AccountStore) : Prop :=
  answersError reply = true →
    s'.identity.users = s.identity.users ∧ s'.resetTokens = s.resetTokens

/-- Reading the clock leaves its trace in the tables. -/
def atTime (now : Int) (s : AccountStore) : AccountStore :=
  { s with identity := { s.identity with clock := now } }

theorem exec_nowSeconds :
    AccountStore.exec env (.user .nowSeconds) s = (env.now, atTime env.now s) := rfl

theorem exec_useResetToken_of_resettable (s : AccountStore) (hup : env.fails = false)
    (h : Resettable now tokenHash s) :
    ∃ row, s.resetTokens.lookup tokenHash = some row ∧
      AccountStore.exec env (.useResetToken tokenHash now) s =
        (some [row.userId],
          { s with resetTokens := s.resetTokens.insert tokenHash { row with used := true } }) := by
  obtain ⟨row, hrow, hunused, hvalid⟩ := h
  refine ⟨row, hrow, ?_⟩
  have hrow : s.resetTokens.lookup tokenHash = some row := hrow
  simp [AccountStore.exec, hup, AccountStore.useResetToken, hrow, hunused, hvalid]

theorem exec_useResetToken_of_not (s : AccountStore) (hup : env.fails = false) (h : ¬Resettable now tokenHash s) :
    AccountStore.exec env (.useResetToken tokenHash now) s = (some [], s) := by
  simp only [AccountStore.exec, hup, AccountStore.useResetToken, Bool.false_eq_true, if_false]
  cases hrow : s.resetTokens.lookup tokenHash with
  | none => rfl
  | some row =>
    have hnot : ¬(row.used = false ∧ row.expiresAt > now) := fun hrow' => h ⟨row, hrow, hrow'⟩
    simp only [if_neg hnot]

theorem exec_setPassword_of_failed {userId : Int} {newHash : String}
    (h : (AccountStore.exec env (setPassword userId newHash) s).1 = false) :
    (AccountStore.exec env (setPassword userId newHash) s).2.identity.users = s.identity.users ∧
      (AccountStore.exec env (setPassword userId newHash) s).2.resetTokens = s.resetTokens := by
  cases hup : env.fails with
  | true => simp [setPassword, AccountStore.exec, IdentityStore.exec, IdentityStore.statement, hup]
  | false =>
    simp [setPassword, AccountStore.exec, IdentityStore.exec, IdentityStore.statement, hup] at h

/-- What `confirmReset` does once the token is redeemed. -/
def onRedeemed (crypto : IdentityCrypto) (newPassword : String) (userId : Int) : AccountProg :=
  withNewHash crypto newPassword fun newHash =>
  .call (.findUser userId) fun
    | none => .ret (.error "DB_QUERY_ERROR" "Failed to find user for password update: ")
    | some _ =>
      .call (setPassword userId newHash) fun
        | false => .ret (.error "DB_QUERY_ERROR" "Failed to update password: ")
        | true => revokeTokensOf (toString userId) "Password reset successful"

/-- Every exit behind the redemption. -/
theorem post_onRedeemed (newPassword : String) (userId : Int) (s : AccountStore) :
    (onRedeemed crypto newPassword userId).Post AccountStore.exec (KeepsBoth s) s := by
  intro hashing
  dsimp only
  split
  · exact fun _ => ⟨rfl, rfl⟩
  rename_i newHash hhash
  intro finding
  dsimp only
  split
  · exact fun _ => ⟨rfl, rfl⟩
  intro updating
  dsimp only
  split
  · rename_i hfailed
    exact fun _ => exec_setPassword_of_failed hfailed
  · intro _ _ herror
    cases herror

/-- The first statement of the request redeems the token. -/
def Resets (crypto : IdentityCrypto) (token newPassword : String) (env : Nat → StatementEnv)
    (s : AccountStore) : Prop :=
  (token ≠ "" ∧ newPassword ≠ "" ∧ 8 ≤ byteLength newPassword) ∧ (env 1).fails = false ∧
    Resettable (env 0).now (resetTokenHash crypto token) s

/-- Which tokens a redemption may still take after the request. -/
def ResetTokensLeft (crypto : IdentityCrypto) (token newPassword : String)
    (env : Nat → StatementEnv) (s s' : AccountStore) : Prop :=
  ∀ now tokenHash, Resettable now tokenHash s' ↔
    Resettable now tokenHash s ∧
      ¬(tokenHash = resetTokenHash crypto token ∧ Resets crypto token newPassword env s)

theorem resetTokensLeft_of_same {token newPassword : String} {env : Nat → StatementEnv}
    {s' : AccountStore} (hnot : ¬Resets crypto token newPassword env s)
    (hsame : s'.resetTokens = s.resetTokens) :
    ResetTokensLeft crypto token newPassword env s s' := by
  intro now tokenHash
  simp [Resettable, hsame, hnot]

theorem resetTokensLeft_of_used {token newPassword : String} {env : Nat → StatementEnv}
    {s' : AccountStore} {row : ResetToken} (hresets : Resets crypto token newPassword env s)
    (hused : s'.resetTokens =
      s.resetTokens.insert (resetTokenHash crypto token) { row with used := true }) :
    ResetTokensLeft crypto token newPassword env s s' := by
  intro now tokenHash
  by_cases hself : tokenHash = resetTokenHash crypto token
  · subst hself
    simp [Resettable, hused, hresets]
  · simp [Resettable, hused, hself]

/-- A reset that is answered with an error. -/
theorem confirmReset_failed (token newPassword : String) (env : Nat → StatementEnv)
    (s : AccountStore)
    (herror : answersError (Prog.eval AccountStore.exec env 0
      (confirmReset crypto token newPassword) s).1 = true) :
    let s' := (Prog.eval AccountStore.exec env 0 (confirmReset crypto token newPassword) s).2.1
    s'.identity.users = s.identity.users ∧
      ResetTokensLeft crypto token newPassword env s s' := by
  revert herror
  unfold confirmReset
  split
  · rename_i hmissing
    have hnot : ¬Resets crypto token newPassword env s := by
      intro h
      rcases hmissing with hmissing | hmissing
      · exact h.1.1 hmissing
      · exact h.1.2.1 hmissing
    exact fun _ => ⟨rfl, resetTokensLeft_of_same hnot rfl⟩
  split
  · rename_i hshort
    have hnot : ¬Resets crypto token newPassword env s := fun h => absurd h.1.2.2 (by omega)
    exact fun _ => ⟨rfl, resetTokensLeft_of_same hnot rfl⟩
  rename_i hpresent hlong
  have hasked : token ≠ "" ∧ newPassword ≠ "" ∧ 8 ≤ byteLength newPassword :=
    ⟨fun h => hpresent (.inl h), fun h => hpresent (.inr h), by omega⟩
  simp only [Prog.eval, Nat.zero_add, Nat.reduceAdd, exec_nowSeconds]
  cases hup : (env 1).fails with
  | true =>
    have hnot : ¬Resets crypto token newPassword env s := by
      intro h
      rw [h.2.1] at hup
      cases hup
    simp only [AccountStore.exec, hup]
    exact fun _ => ⟨rfl, resetTokensLeft_of_same hnot rfl⟩
  | false =>
    by_cases hvalid : Resettable (env 0).now (resetTokenHash crypto token) s
    · obtain ⟨row, -, hexec⟩ :=
        exec_useResetToken_of_resettable (atTime (env 0).now s) hup hvalid
      rw [hexec]
      intro herror
      obtain ⟨husers, htokens⟩ := (post_onRedeemed newPassword row.userId _).eval env 2 herror
      exact ⟨husers, resetTokensLeft_of_used ⟨hasked, hup, hvalid⟩ htokens⟩
    · have hnot : ¬Resets crypto token newPassword env s := fun h => hvalid h.2.2
      rw [exec_useResetToken_of_not (atTime (env 0).now s) hup hvalid]
      exact fun _ => ⟨rfl, resetTokensLeft_of_same hnot rfl⟩

end Reset

/-! ### Verification tokens -/

section Verification

variable {s : MailStore} {env : MailEnv}

def Verifiable (now : Int) (tokenHash : String) (s : MailStore) : Prop :=
  ∃ row ∈ s.tokens.lookup tokenHash, now < row.expiresAt

def mailError : MailReply → Bool
  | .error _ _ => true
  | _ => false

theorem exec_consumeToken_of_verifiable (s : MailStore) (hup : env.fails = false)
    (h : Verifiable now tokenHash s) :
    ∃ row : VerificationToken, MailStore.exec env (.consumeToken tokenHash now) s =
      (some (some (row.userId, row.email)), { s with tokens := s.tokens.erase tokenHash }) := by
  obtain ⟨row, hrow, hvalid⟩ := h
  refine ⟨row, ?_⟩
  have hrow : s.tokens.lookup tokenHash = some row := hrow
  simp [MailStore.exec, hup, MailStore.consumeToken, hrow, hvalid]

theorem exec_consumeToken_of_not (s : MailStore) (hup : env.fails = false)
    (h : ¬Verifiable now tokenHash s) :
    MailStore.exec env (.consumeToken tokenHash now) s = (some none, s) := by
  simp only [MailStore.exec, hup, MailStore.consumeToken, Bool.false_eq_true, if_false]
  cases hrow : s.tokens.lookup tokenHash with
  | none => rfl
  | some row =>
    have hnot : ¬row.expiresAt > now := fun hrow' => h ⟨row, hrow, hrow'⟩
    simp only [if_neg hnot]

def mailAtTime (now : Int) (s : MailStore) : MailStore :=
  { s with identity := { s.identity with clock := now } }

theorem mail_exec_nowSeconds :
    MailStore.exec env (.user .nowSeconds) s = (env.now, mailAtTime env.now s) := rfl

/-- What `verifyToken` does once the token is redeemed. -/
def onVerified (userId : Int) : MailProg :=
  .call (.findUser userId) fun
    | none => .ret (.error "DB_QUERY_ERROR" "Failed to find user for email_verified update: ")
    | some _ =>
      .call (.user (.update userId { emailVerified := some true })) fun
        | true => .ret (.success "Email verified successfully")
        | false => .ret (.error "DB_QUERY_ERROR" "Failed to update email_verified: ")

theorem post_onVerified (userId : Int) (s : MailStore) :
    (onVerified userId).Post MailStore.exec (fun reply s' => mailError reply = true →
      s'.identity.users = s.identity.users ∧ s'.tokens = s.tokens) s := by
  intro finding
  dsimp only
  split
  · exact fun _ => ⟨rfl, rfl⟩
  intro updating
  cases hup : updating.fails with
  | true =>
    simp only [MailStore.exec, IdentityStore.exec, IdentityStore.statement, hup]
    exact fun _ => ⟨rfl, rfl⟩
  | false =>
    simp only [MailStore.exec, IdentityStore.exec, IdentityStore.statement, hup]
    intro herror
    cases herror

def Verifies (crypto : IdentityCrypto) (token : String) (env : Nat → MailEnv) (s : MailStore) :
    Prop :=
  token ≠ "" ∧ (env 1).fails = false ∧ Verifiable (env 0).now (hashToken crypto token) s

def VerificationTokensLeft (crypto : IdentityCrypto) (token : String) (env : Nat → MailEnv)
    (s s' : MailStore) : Prop :=
  ∀ now tokenHash, Verifiable now tokenHash s' ↔
    Verifiable now tokenHash s ∧
      ¬(tokenHash = hashToken crypto token ∧ Verifies crypto token env s)

theorem verificationTokensLeft_of_same {token : String} {env : Nat → MailEnv} {s' : MailStore}
    (hnot : ¬Verifies crypto token env s) (hsame : s'.tokens = s.tokens) :
    VerificationTokensLeft crypto token env s s' := by
  intro now tokenHash
  simp [Verifiable, hsame, hnot]

theorem verificationTokensLeft_of_erased {token : String} {env : Nat → MailEnv} {s' : MailStore}
    (hverifies : Verifies crypto token env s)
    (herased : s'.tokens = s.tokens.erase (hashToken crypto token)) :
    VerificationTokensLeft crypto token env s s' := by
  intro now tokenHash
  by_cases hself : tokenHash = hashToken crypto token
  · subst hself
    simp [Verifiable, herased, hverifies]
  · simp [Verifiable, herased, hself]

theorem verifyToken_failed (token : String) (env : Nat → MailEnv) (s : MailStore)
    (herror : mailError (Prog.eval MailStore.exec env 0 (verifyToken crypto token) s).1 = true) :
    let s' := (Prog.eval MailStore.exec env 0 (verifyToken crypto token) s).2.1
    s'.identity.users = s.identity.users ∧ VerificationTokensLeft crypto token env s s' := by
  revert herror
  unfold verifyToken
  split
  · rename_i hmissing
    have hnot : ¬Verifies crypto token env s := fun h => h.1 hmissing
    exact fun _ => ⟨rfl, verificationTokensLeft_of_same hnot rfl⟩
  rename_i hpresent
  simp only [Prog.eval, Nat.zero_add, Nat.reduceAdd, mail_exec_nowSeconds]
  cases hup : (env 1).fails with
  | true =>
    have hnot : ¬Verifies crypto token env s := by
      intro h
      rw [h.2.1] at hup
      cases hup
    simp only [MailStore.exec, hup]
    exact fun _ => ⟨rfl, verificationTokensLeft_of_same hnot rfl⟩
  | false =>
    by_cases hvalid : Verifiable (env 0).now (hashToken crypto token) s
    · obtain ⟨row, hexec⟩ :=
        exec_consumeToken_of_verifiable (mailAtTime (env 0).now s) hup hvalid
      rw [hexec]
      intro herror
      obtain ⟨husers, htokens⟩ := (post_onVerified row.userId _).eval env 2 herror
      exact ⟨husers, verificationTokensLeft_of_erased ⟨hpresent, hup, hvalid⟩ htokens⟩
    · have hnot : ¬Verifies crypto token env s := fun h => hvalid h.2.2
      rw [exec_consumeToken_of_not (mailAtTime (env 0).now s) hup hvalid]
      exact fun _ => ⟨rfl, verificationTokensLeft_of_same hnot rfl⟩

end Verification

/-! ### Both services -/

/-- A request that ends in an error leaves every user as he was, and every token as redeemable as it
was, except the one that its first statement has redeemed. -/
theorem failed_redemption_tokens_left (crypto : IdentityCrypto) :
    (∀ token newPassword (env : Nat → StatementEnv) (s : AccountStore),
      answersError (handled crypto env (.confirmReset token newPassword) s).1 = true →
      (handled crypto env (.confirmReset token newPassword) s).2.identity.users =
          s.identity.users ∧
        ResetTokensLeft crypto token newPassword env s
          (handled crypto env (.confirmReset token newPassword) s).2) ∧
    ∀ token (env : Nat → MailEnv) (s : MailStore),
      mailError (Prog.eval MailStore.exec env 0 (verifyToken crypto token) s).1 = true →
      (Prog.eval MailStore.exec env 0 (verifyToken crypto token) s).2.1.identity.users =
          s.identity.users ∧
        VerificationTokensLeft crypto token env s
          (Prog.eval MailStore.exec env 0 (verifyToken crypto token) s).2.1 :=
  ⟨confirmReset_failed, verifyToken_failed⟩

/-- A reset whose statement number `n` fails. -/
def resetFailingAt (n : Nat) : AccountReply × AccountStore :=
  handled knownCrypto (fun m => { now := 1000, fails := m = n, random := knownSalt })
    (.confirmReset "reset token" "new password") (knownAccount ⟨∅, ∅⟩)

def knownTokenHash : String := "32E3FD8F6230D108FC6FF471B9F09E3B7053A72B1232014E8FDBAF4E50D96F0A"

/-- The redemption itself fails. -/
theorem failed_redemption_tokens_left_unused :
    (resetFailingAt 1).1 = .error "DB_QUERY_ERROR" "Reset token lookup failed: " ∧
      Resettable 1000 knownTokenHash (resetFailingAt 1).2 := by
  have herror : (resetFailingAt 1).1 = .error "DB_QUERY_ERROR" "Reset token lookup failed: " := by
    decide +kernel
  have hleft := ((failed_redemption_tokens_left knownCrypto).1 "reset token" "new password" _ _
    (congrArg answersError herror)).2
  refine ⟨herror, (hleft 1000 knownTokenHash).mpr ⟨by decide +kernel, ?_⟩⟩
  intro h
  cases h.2.2.1

/-- The update of the password fails, after the redemption. -/
theorem failed_update_burns_token :
    (resetFailingAt 4).1 = .error "DB_QUERY_ERROR" "Failed to update password: " ∧
      Resettable 1000 knownTokenHash (knownAccount ⟨∅, ∅⟩) ∧
      ¬Resettable 1000 knownTokenHash (resetFailingAt 4).2 := by
  decide +kernel

end AuthForge.FailedRedemption
