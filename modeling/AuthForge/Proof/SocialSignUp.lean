import AuthForge.Identity.SocialSignUp

/-!
# Social sign-up, all or nothing

The user is inserted before the subject mapping and never taken back, so a sign-up that fails in
between leaves a user behind that nothing is linked to. The name is then taken, and so is the address,
and every later attempt of the same person is refused.
-/

namespace AuthForge.SocialSignUp

open Identity SignUpStore

variable {α : Type} {env : Nat → SignUpEnv} {s : SignUpStore}
  {provider subject username email : String} {usernameTaken notCreated notLinked : α}
  {linked : Int → α}

/-- What the answer says about the two tables: a new user with its mapping, or nothing at all, so
that the same person can try again. -/
def AllOrNothing (provider subject username email : String) (s s' : SignUpStore) :
    Option Int → Prop
  | none => s'.users = s.users ∧ s'.links = s.links
  | some userId =>
    userId ∉ s.users ∧
      (∃ row, s'.users = s.users.insert userId row ∧ row.username = some username ∧
        row.email = some email) ∧
      s'.links = s.links ++ [⟨provider, subject, userId⟩]

/-- The insert of the user yields a row. -/
def userInserted (env : SignUpEnv) (s : SignUpStore) (username email : String) : Bool :=
  !env.fails && username ≠ "" && !s.usernameTaken username && !s.rowRefused email

/-- The insert of the mapping is executed and the account is not linked yet. -/
def mappingInserted (env : SignUpEnv) (s : SignUpStore) (provider subject : String) : Bool :=
  !env.fails && !s.links.any fun row => row.provider = provider && row.subject = subject

/-! ### The statements -/

theorem exec_insertUser_of_inserted {e : SignUpEnv} (passwordHash : String)
    (h : userInserted e s username email = true) :
    s.nextUserId ∉ s.users ∧
      SignUpStore.exec e (.insertUser username passwordHash email) s =
        (some (some s.nextUserId),
          s.withUser e.publicSub username passwordHash email) := by
  simp only [userInserted, Bool.and_eq_true, Bool.not_eq_true', decide_eq_true_eq] at h
  obtain ⟨⟨⟨hup, hname⟩, hfree⟩, haccepted⟩ := h
  have hkey : s.nextUserId ∉ s.users := by
    simp only [rowRefused, Bool.or_eq_false_iff, decide_eq_false_iff_not] at haccepted
    exact haccepted.2
  refine ⟨hkey, ?_⟩
  simp [SignUpStore.exec, SignUpStore.insertUser, hup, hname, hfree, haccepted]

theorem exec_insertUser_of_refused {e : SignUpEnv} (passwordHash : String)
    (h : userInserted e s username email = false) :
    SignUpStore.exec e (.insertUser username passwordHash email) s = (none, s) ∨
      SignUpStore.exec e (.insertUser username passwordHash email) s = (some none, s) := by
  simp only [SignUpStore.exec, SignUpStore.insertUser]
  split
  · exact .inl rfl
  split
  · exact .inl rfl
  split
  · exact .inr rfl
  split
  · exact .inl rfl
  · rename_i hup hname hfree haccepted
    simp [userInserted, hup, hname, hfree, haccepted] at h

theorem exec_insertMapping_of_inserted (s : SignUpStore) {e : SignUpEnv} {userId : Int}
    {row : UserRow} (h : mappingInserted e s provider subject = true) (huser : s.users.lookup userId = some row) :
    SignUpStore.exec e (.insertMapping provider subject userId) s =
      (true, { s with links := s.links ++ [⟨provider, subject, userId⟩] }) := by
  simp only [mappingInserted, Bool.and_eq_true, Bool.not_eq_true'] at h
  obtain ⟨hup, hfree⟩ := h
  have hnone : ¬∃ row ∈ s.links, row.provider = provider ∧ row.subject = subject := by
    intro hlinked
    obtain ⟨row, hmem, hsame⟩ := hlinked
    have hdiffers := List.any_eq_false.mp hfree row hmem
    simp [hsame] at hdiffers
  simp [SignUpStore.exec, hup, LinkStore.insertLink, if_neg hnone, huser]

theorem exec_insertMapping_of_refused (userId : Int) (s : SignUpStore) {e : SignUpEnv}
    (h : mappingInserted e s provider subject = false) :
    SignUpStore.exec e (.insertMapping provider subject userId) s = (false, s) := by
  cases hup : e.fails with
  | true => simp [SignUpStore.exec, hup]
  | false =>
    have hlinked : (s.links.any fun row => row.provider = provider && row.subject = subject) =
        true := by
      simpa [mappingInserted, hup] using h
    obtain ⟨row, hmem, hsame⟩ := List.any_eq_true.mp hlinked
    have htaken : ∃ row ∈ s.links, row.provider = provider ∧ row.subject = subject :=
      ⟨row, hmem, by simpa using hsame⟩
    simp [SignUpStore.exec, hup, LinkStore.insertLink, if_pos htaken]

/-! ### A whole sign-up -/

section Eval

variable (env s provider subject username email usernameTaken notCreated notLinked linked)

/-- The answer and the tables after a sign-up with nothing in between. -/
def signUp : α × SignUpStore :=
  let r := Prog.eval SignUpStore.exec env 0
    (linkNewUser provider subject username email usernameTaken notCreated notLinked linked) s
  (r.1, r.2.1)

end Eval

theorem exec_drawPasswordHash (e : SignUpEnv) :
    SignUpStore.exec e .drawPasswordHash s = (e.passwordHash, s) := rfl

/-- Without a row for the user nothing has happened. -/
theorem signUp_refused (huser : userInserted (env 1) s username email = false) :
    signUp env s provider subject username email usernameTaken notCreated notLinked linked =
        (notCreated, s) ∨
      signUp env s provider subject username email usernameTaken notCreated notLinked linked =
        (usernameTaken, s) := by
  simp only [signUp, linkNewUser, Prog.eval, exec_drawPasswordHash, Nat.zero_add]
  rcases exec_insertUser_of_refused (env 0).passwordHash huser with h | h
  · exact .inl (by rw [h]; rfl)
  · exact .inr (by rw [h]; rfl)

/-- Without the mapping the user stays. -/
theorem signUp_unlinked (huser : userInserted (env 1) s username email = true)
    (hmapping : mappingInserted (env 2) s provider subject = false) :
    signUp env s provider subject username email usernameTaken notCreated notLinked linked =
      (notLinked, s.withUser (env 1).publicSub username (env 0).passwordHash email) := by
  obtain ⟨-, hinsert⟩ := exec_insertUser_of_inserted (env 0).passwordHash huser
  have hrefused := exec_insertMapping_of_refused s.nextUserId
    (s.withUser (env 1).publicSub username (env 0).passwordHash email) hmapping
  simp only [signUp, linkNewUser, Prog.eval, exec_drawPasswordHash, Nat.zero_add, Nat.reduceAdd,
    hinsert]
  rw [hrefused]
  rfl

/-- The grant of the default role touches neither table. -/
theorem exec_role (e : SignUpEnv) (name : String) (userId roleId : Int) :
    (SignUpStore.exec e (.findRole name) s).2 = s ∧
      (SignUpStore.exec e (.insertUserRole userId roleId) s).2.toLinkStore = s.toLinkStore := by
  refine ⟨rfl, ?_⟩
  simp only [SignUpStore.exec]
  split <;> rfl

theorem signUp_linked (huser : userInserted (env 1) s username email = true)
    (hmapping : mappingInserted (env 2) s provider subject = true) :
    let r := signUp env s provider subject username email usernameTaken notCreated notLinked linked
    r.1 = linked s.nextUserId ∧
      r.2.users = s.users.insert s.nextUserId
        (newUser (env 1).publicSub username (env 0).passwordHash email) ∧
      r.2.links = s.links ++ [⟨provider, subject, s.nextUserId⟩] := by
  obtain ⟨-, hinsert⟩ := exec_insertUser_of_inserted (env 0).passwordHash huser
  have hinserted := exec_insertMapping_of_inserted
    (s.withUser (env 1).publicSub username (env 0).passwordHash email) hmapping
    (AList.lookup_insert _)
  simp only [signUp, linkNewUser, Prog.eval, exec_drawPasswordHash, Nat.zero_add, Nat.reduceAdd,
    hinsert]
  rw [hinserted]
  simp only [Prog.eval, Nat.reduceAdd]
  split
  · exact ⟨rfl, rfl, rfl⟩
  · have hgrant := fun roleId s' => (exec_role (s := s') (env 4) "user" s.nextUserId roleId).2
    refine ⟨rfl, ?_, ?_⟩
    · exact congrArg LinkStore.users (hgrant _ _)
    · exact congrArg LinkStore.links (hgrant _ _)

/-! ### The law -/

/-- The user whom the login of the fallback goes on with. -/
def signedUp : GitHubSignUp → Option Int
  | .issueTokens userId => some userId
  | .error _ _ => none

/-- A sign-up whose answers tell a linked user from no user is all or nothing exactly if the insert
of the mapping does not come to nothing after the insert of the user. -/
theorem signUp_allOrNothing (user : α → Option Int) (htaken : user usernameTaken = none)
    (hcreated : user notCreated = none) (hlinked : user notLinked = none)
    (huser : ∀ id, user (linked id) = some id) :
    AllOrNothing provider subject username email s
        (signUp env s provider subject username email usernameTaken notCreated notLinked linked).2
        (user (signUp env s provider subject username email usernameTaken notCreated notLinked
          linked).1) ↔
      userInserted (env 1) s username email = false ∨
        mappingInserted (env 2) s provider subject = true := by
  cases hinserted : userInserted (env 1) s username email with
  | false =>
    refine iff_of_true ?_ (.inl rfl)
    rcases signUp_refused hinserted (α := α) with h | h
    · rw [h, hcreated]
      exact ⟨rfl, rfl⟩
    · rw [h, htaken]
      exact ⟨rfl, rfl⟩
  | true =>
    obtain ⟨hnew, -⟩ := exec_insertUser_of_inserted "" hinserted
    cases hmapping : mappingInserted (env 2) s provider subject with
    | true =>
      refine iff_of_true ?_ (.inr rfl)
      obtain ⟨hanswer, husers, hlinks⟩ := signUp_linked hinserted hmapping (α := α)
      rw [hanswer, huser]
      exact ⟨hnew, ⟨_, husers, rfl, rfl⟩, hlinks⟩
    | false =>
      refine iff_of_false ?_ (by simp)
      intro h
      rw [signUp_unlinked hinserted hmapping, hlinked] at h
      have hpresent : s.nextUserId ∈ s.users := by
        rw [← h.1]
        exact (AList.mem_insert _).mpr (.inl rfl)
      exact hnew hpresent

/-- A sign-up is all or nothing exactly if it inserts no user or its mapping too. -/
theorem sign_up_all_or_nothing_iff (provider subject username email githubLogin : String)
    (env : Nat → SignUpEnv) (s : SignUpStore) :
    ((let r := Prog.eval SignUpStore.exec env 0
        (createLinkedUser provider subject username email) s
      AllOrNothing provider subject username email s r.2.1 (r.1.map (·.userId))) ↔
      userInserted (env 1) s username email = false ∨
        mappingInserted (env 2) s provider subject = true) ∧
    ((let r := Prog.eval SignUpStore.exec env 0
        (createNewLinkedUser provider subject githubLogin email) s
      AllOrNothing provider subject ("gh_" ++ githubLogin) email s r.2.1 (signedUp r.1)) ↔
      userInserted (env 1) s ("gh_" ++ githubLogin) email = false ∨
        mappingInserted (env 2) s provider subject = true) :=
  ⟨signUp_allOrNothing (Option.map LinkNewSocialAccountResult.userId) rfl rfl rfl fun _ => rfl,
    signUp_allOrNothing signedUp rfl rfl rfl fun _ => rfl⟩

/-- The insert of the mapping fails: the answer is a failure, the user stays. -/
theorem unlinked_user_stays :
    let r := Prog.eval SignUpStore.exec (fun n => { fails := n = 2 }) 0
      (createLinkedUser "github" "42" "gh_ada" "ada@example.org") { users := ∅ }
    r.1 = none ∧ r.2.1.users.lookup 1 = some (newUser "" "gh_ada" "" "ada@example.org") ∧
      ¬AllOrNothing "github" "42" "gh_ada" "ada@example.org" { users := ∅ } r.2.1
        (r.1.map (·.userId)) := by
  refine ⟨by decide, by decide, ?_⟩
  intro h
  have hnone := congrArg (AList.lookup 1) h.1
  revert hnone
  decide

/-- Once a sign-up has left an unlinked user behind, no later one under the name inserts another. -/
theorem retry_refused (huser : userInserted (env 1) s username email = true)
    (hmapping : mappingInserted (env 2) s provider subject = false) (later : SignUpEnv) :
    userInserted later
      (signUp env s provider subject username email usernameTaken notCreated notLinked linked).2
      username email = false := by
  rw [signUp_unlinked huser hmapping]
  have htaken : (s.withUser (env 1).publicSub username (env 0).passwordHash email).usernameTaken
      username = true := by
    let row := newUser (env 1).publicSub username (env 0).passwordHash email
    have hrow : (s.users.insert s.nextUserId row).lookup s.nextUserId = some row :=
      AList.lookup_insert _
    exact List.any_eq_true.mpr ⟨_, AList.mem_lookup_iff.mp hrow, by simp [row, newUser]⟩
  simp [userInserted, htaken]

end AuthForge.SocialSignUp
