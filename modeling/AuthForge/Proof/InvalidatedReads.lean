import AuthForge.Base.History
import AuthForge.Storage.UserReadCache

/-!
# Invalidated user reads

A read that was under way when a user was changed may store what it found after the keys have been
deleted, or memoize a payload that it got before; a later read then answers with the profile or the
roles from before the change. Where neither happens, no read that starts after the deletions does.
-/

namespace AuthForge.InvalidatedReads

open Identity Storage Storage.UserReadCache Service

variable {profileTtlSeconds rolesTtlSeconds : Int} {c : Change} {old : ReadReply} {wid : Nat}
  {s₀ s : ReadStore} {history : List ReadEvent}

/-! ### The property -/

/-- The write path executes one of its statements. -/
def executes (c : Change) (wid : Nat) : ReadEvent → Bool
  | .called tid (.change c') _ ⟨.statement _, _⟩ => tid = wid && c' = c
  | _ => false

/-- Its invalidation has dropped the memo of the subject. -/
def clears (c : Change) (wid : Nat) (subject : String) : ReadEvent → Bool
  | .called tid (.change c') _ ⟨.dropMemo subject', _⟩ => tid = wid && c' = c && subject' = subject
  | _ => false

/-- Its invalidation has deleted the key. -/
def deletes (c : Change) (wid : Nat) (key : String) : ReadEvent → Bool
  | .called tid (.change c') _ ⟨.del key', _⟩ => tid = wid && c' = c && key' = key
  | _ => false

/-- The call has read from the tables. -/
def reads (tid : Nat) : ReadEvent → Bool
  | .called tid' _ _ a => tid' = tid && a.op.isRead
  | _ => false

/-- The call has got the answer to its `MGET`. -/
def mgets (tid : Nat) : ReadEvent → Bool
  | .called tid' _ _ ⟨.mget _ _, _⟩ => tid' = tid
  | _ => false

/-- The call that has called back with the value. -/
def returns (req : ReadRequest) (value : ReadReply) : ReadEvent → Option Nat
  | .called tid req' _ ⟨.callback reply, _⟩ =>
    if req' = req ∧ reply = value then some tid else none
  | _ => none

/-- All statements of the write path have been executed. -/
def Written (c : Change) (wid : Nat) (history : List ReadEvent) : Prop :=
  c.statements.length ≤ history.countP (executes c wid)

def Cleared (c : Change) (wid : Nat) (subject : String) (history : List ReadEvent) : Prop :=
  ∃ e ∈ history, clears c wid subject e

def Deleted (c : Change) (wid : Nat) (key : String) (history : List ReadEvent) : Prop :=
  ∃ e ∈ history, deletes c wid key e

/-- Every `DEL` of the invalidation has been executed. -/
def Invalidated (c : Change) (wid : Nat) (history : List ReadEvent) : Prop :=
  ∀ subject ∈ c.forms,
    Deleted c wid (profileKey subject) history ∧ Deleted c wid (rolesKey subject) history

/-- No read of the user that starts after the deletions returns the old value. -/
def OldValueGone (c : Change) (wid : Nat) (old : ReadReply) (history : List ReadEvent) : Prop :=
  ∀ later tid req past, history = later ++ .started tid req :: past →
    (∃ subject ∈ c.forms, req = .getRoles subject ∨ req = .getProfile subject) →
    Invalidated c wid past → tid ∉ later.filterMap (returns req old)

/-! ### The steps -/

/-- What the tables show of a user in a step: nothing where a statement fails. -/
def Shows (env : StatementEnv) (userId : Int) (t : IdentityStore) : ReadReply → Prop
  | .roles names =>
    names = namesOf (roleIds userId t) t ∨ names = [] ∧ findById env userId t = none
  | .profile info => info = findById env userId t
  | .changed => False

/-- All commands succeed, and after its statements the tables no longer show the old value. -/
def Changed (c : Change) (wid : Nat) (old : ReadReply) :
    Guard (Pool (service profileTtlSeconds rolesTtlSeconds)) (Input ReadEnv ReadRequest)
      ReadEvent :=
  fun history p i =>
    match i with
    | .start _ => True
    | .advance _ env => env.commandFails = false ∧
        (Written c wid history → ¬Shows env.toStatementEnv c.userId p.shared.tables old)

/-- Nothing is stored under a deleted key that was read before the write path was through, and
nothing is memoized that was answered before the key was deleted. -/
def InTime (c : Change) (wid : Nat) (history : List ReadEvent) (tid : Nat) : ReadCall → Prop
  | .setEx key _ _ =>
    Deleted c wid key history →
      ¬Overtaken (fun e => executes c wid e = true) (fun e => reads tid e = true) history
  | .memoProfilePayload subject _ =>
    Cleared c wid subject history →
      Deleted c wid (profileKey subject) history ∧
      ¬Overtaken (fun e => deletes c wid (profileKey subject) e = true)
        (fun e => mgets tid e = true) history
  | _ => True

def NoLateFill (c : Change) (wid : Nat) (old : ReadReply) :
    Guard (Pool (service profileTtlSeconds rolesTtlSeconds)) (Input ReadEnv ReadRequest)
      ReadEvent :=
  fun history p i => Changed c wid old history p i ∧
    match i with
    | .start _ => True
    | .advance tid _ => ∀ op ∈ p.next tid, InTime c wid history tid op

instance : Decidable (Written c wid history) := inferInstanceAs (Decidable (_ ≤ _))

instance {subject : String} : Decidable (Cleared c wid subject history) :=
  inferInstanceAs (Decidable (∃ _ ∈ _, _))

instance {key : String} : Decidable (Deleted c wid key history) :=
  inferInstanceAs (Decidable (∃ _ ∈ _, _))

instance : Decidable (Invalidated c wid history) :=
  inferInstanceAs (Decidable (∀ _ ∈ _, _ ∧ _))

instance (env : StatementEnv) (userId : Int) (t : IdentityStore) :
    (value : ReadReply) → Decidable (Shows env userId t value)
  | .roles _ => inferInstanceAs (Decidable (_ ∨ _ ∧ _))
  | .profile _ => inferInstanceAs (Decidable (_ = _))
  | .changed => .isFalse id

instance (tid : Nat) : (op : ReadCall) → Decidable (InTime c wid history tid op)
  | .setEx _ _ _ => inferInstanceAs (Decidable (_ → ¬_))
  | .memoProfilePayload _ _ => inferInstanceAs (Decidable (_ → _ ∧ ¬_))
  | .choose | .mget _ _ | .get _ | .del _ | .takeMemoizedProfile _ | .dropMemo _ | .findById _
  | .findByPublicSub _ | .findUserRoles _ | .findRoles _ | .statement _ | .callback _ =>
    .isTrue trivial

instance (p : Pool (service profileTtlSeconds rolesTtlSeconds)) :
    (i : Input ReadEnv ReadRequest) → Decidable (Changed c wid old history p i)
  | .start _ => .isTrue trivial
  | .advance _ _ => inferInstanceAs (Decidable (_ ∧ (_ → ¬_)))

instance (p : Pool (service profileTtlSeconds rolesTtlSeconds)) :
    (i : Input ReadEnv ReadRequest) → Decidable (NoLateFill c wid old history p i)
  | .start _ => inferInstanceAs (Decidable (_ ∧ True))
  | .advance _ _ => inferInstanceAs (Decidable (_ ∧ ∀ _ ∈ _, _))

/-! ### The user in the tables -/

/-- The id of the change is a 32-bit integer, and its public subject is no number and the subject of
that user alone. -/
structure Names (c : Change) (t : IdentityStore) : Prop where
  id_int : -2 ^ 31 ≤ c.userId ∧ c.userId < 2 ^ 31
  sub_text : c.publicSub ≠ "" → stoiWhole c.publicSub = none
  sub_iff : c.publicSub ≠ "" → ∀ id u, t.users.lookup id = some u →
    (u.publicSub = c.publicSub ↔ id = c.userId)

theorem publicSub_written {env : StatementEnv} {op : UserCall} {k : Int} {u : UserRow} :
    (IdentityStore.written env op k u).publicSub = u.publicSub := by
  cases op with
  | update userId changes =>
    simp only [IdentityStore.written]
    split <;> rfl
  | _ => rfl

theorem Names.exec {t : IdentityStore} (h : Names c t) (env : StatementEnv) (op : UserCall) :
    Names c (IdentityStore.exec env op t).2 := by
  refine ⟨h.id_int, h.sub_text, ?_⟩
  intro hsub id u hu
  rw [IdentityStore.lookup_exec, Option.map_eq_some_iff] at hu
  obtain ⟨u₀, hu₀, rfl⟩ := hu
  rw [publicSub_written]
  exact h.sub_iff hsub id u₀ hu₀

theorem tables_of_run {ok : Guard (Pool (service profileTtlSeconds rolesTtlSeconds))
      (Input ReadEnv ReadRequest) ReadEvent}
    {p : Pool (service profileTtlSeconds rolesTtlSeconds)} (hnames : Names c s₀.tables)
    (hrun : (service profileTtlSeconds rolesTtlSeconds).machine.Run ok
      ((service profileTtlSeconds rolesTtlSeconds).start s₀) history p) :
    Names c p.shared.tables ∧ p.shared.tables.roles = s₀.tables.roles := by
  refine shared_invariant (P := fun _ s => Names c s.tables ∧ s.tables.roles = s₀.tables.roles)
    ⟨hnames, rfl⟩ ?_ ?_ ?_ hrun
  · exact fun _ _ _ _ ih => ih
  · exact fun _ _ ih => ih
  intro h q tid req env op _ ih
  change Names c (ReadStore.exec env op q.shared).2.tables ∧
    (ReadStore.exec env op q.shared).2.tables.roles = s₀.tables.roles
  cases op with
  | statement op' =>
    exact ⟨ih.1.exec env.toStatementEnv op', IdentityStore.roles_exec.trans ih.2⟩
  | _ => exact ih

/-- A subject of the user is the id in decimal or the public subject. -/
theorem Names.cases_form {t : IdentityStore} (h : Names c t) {subject : String}
    (hsubject : subject ∈ c.forms) :
    stoiWhole subject = some c.userId ∨
      subject = c.publicSub ∧ c.publicSub ≠ "" ∧ stoiWhole subject = none := by
  obtain ⟨hmem, hne⟩ := List.mem_filter.mp hsubject
  rcases List.mem_cons.mp hmem with rfl | hmem
  · exact .inl (stoiWhole_toString h.id_int)
  · obtain rfl := List.mem_singleton.mp hmem
    have hsub : c.publicSub ≠ "" := of_decide_eq_true hne
    exact .inr ⟨rfl, hsub, h.sub_text hsub⟩

/-- By the public subject the same user is found as by the id. -/
theorem Names.findByPublicSub_eq {t : IdentityStore} (h : Names c t) (hsub : c.publicSub ≠ "")
    (env : StatementEnv) : findByPublicSub env c.publicSub t = findById env c.userId t := by
  have honly : ∀ id u, t.users.lookup id = some u →
      (u.publicSub = c.publicSub && !u.deleted) = true → id = c.userId := by
    intro id u hu hp
    simp only [Bool.and_eq_true, decide_eq_true_eq] at hp
    exact (h.sub_iff hsub id u hu).mp hp.1
  have hfilter : (t.users.lookup c.userId).filter
      (fun u => u.publicSub = c.publicSub && !u.deleted) =
        (t.users.lookup c.userId).filter fun u => !u.deleted := by
    cases hu : t.users.lookup c.userId with
    | none => rfl
    | some u =>
      have hown := (h.sub_iff hsub _ u hu).mpr rfl
      simp [Option.filter, hown]
  unfold findByPublicSub findById
  split
  · rfl
  · rw [IdentityStore.findUnique_of_only honly, hfilter, Option.map_map]
    rfl

/-! ### Answers from after the change -/

/-- The tables have given the answer in a step after which they no longer showed the old value. -/
structure GivenSince (c : Change) (old : ReadReply) (roles : Dict Int String) (a : ReadAnswer) :
    Prop where
  step : ∃ env s, ¬Shows env.toStatementEnv c.userId s.tables old ∧ Names c s.tables ∧
    s.tables.roles = roles ∧ a.resp = (ReadStore.exec env a.op s).1

section Fetched

variable {answers : List ReadAnswer} {roles : Dict Int String}
  (hsince : ∀ a ∈ answers, a.op.isRead = true → GivenSince c old roles a)

include hsince

theorem findById_since {info : Option UserInfo} (h : ⟨.findById c.userId, info⟩ ∈ answers) :
    .profile info ≠ old := by
  obtain ⟨env, s, hshows, -, -, hresp⟩ := (hsince _ h rfl).step
  intro heq
  subst heq
  exact hshows hresp

theorem findByPublicSub_since (hsub : c.publicSub ≠ "") {info : Option UserInfo}
    (h : ⟨.findByPublicSub c.publicSub, info⟩ ∈ answers) :
    ∃ env s, ¬Shows env c.userId s old ∧ info = findById env c.userId s := by
  obtain ⟨env, s, hshows, hnames, -, hresp⟩ := (hsince _ h rfl).step
  exact ⟨_, _, hshows, hresp.trans (hnames.findByPublicSub_eq hsub _)⟩

theorem findUserRoles_since {ids : Option (List Int)}
    (h : ⟨.findUserRoles c.userId, ids⟩ ∈ answers) :
    ∃ env s, ¬Shows env c.userId s old ∧ s.roles = roles ∧
      ids = if env.fails then none else some (roleIds c.userId s) := by
  obtain ⟨env, s, hshows, -, hroles, hresp⟩ := (hsince _ h rfl).step
  exact ⟨_, _, hshows, hroles, hresp⟩

theorem profile_since {subject : String} (hform : ∃ t, Names c t) (hsubject : subject ∈ c.forms)
    {info : Option UserInfo} (h : ProfileFetched answers subject info) : .profile info ≠ old := by
  obtain ⟨t, hnames⟩ := hform
  cases h with
  | byId hid h =>
    rcases hnames.cases_form hsubject with hform | ⟨-, -, hform⟩
    · obtain rfl := Option.some.inj (hid.symm.trans hform)
      exact findById_since hsince h
    · cases hid.symm.trans hform
  | bySub hid h =>
    rcases hnames.cases_form hsubject with hform | ⟨rfl, hsub, -⟩
    · cases hid.symm.trans hform
    · obtain ⟨env, s, hshows, hinfo⟩ := findByPublicSub_since hsince hsub h
      intro heq
      subst heq
      exact hshows hinfo

theorem rolesRead_since {names : List String} (h : RolesRead answers c.userId names) :
    .roles names ≠ old := by
  intro heq
  subst heq
  cases h with
  | failed h =>
    obtain ⟨env, s, hshows, -, hids⟩ := findUserRoles_since hsince h
    refine hshows (.inr ⟨rfl, ?_⟩)
    cases hfails : env.fails with
    | true => exact if_pos hfails
    | false =>
      rw [hfails] at hids
      cases hids
  | none h =>
    obtain ⟨env, s, hshows, -, hids⟩ := findUserRoles_since hsince h
    split at hids
    · cases hids
    · refine hshows (.inl ?_)
      rw [← Option.some.inj hids]
      simp [namesOf]
  | @named ids found hids hfound =>
    obtain ⟨env, s, hshows, hroles, hids⟩ := findUserRoles_since hsince hids
    obtain ⟨env', s', hshows', -, hroles', hresp⟩ := (hsince _ hfound rfl).step
    change found = if env'.fails then none else some (namesOf ids s'.tables) at hresp
    split at hids
    · cases hids
    obtain rfl := Option.some.inj hids
    split at hresp
    · -- The names could not be read.
      rename_i hfails
      subst hresp
      exact hshows' (.inr ⟨rfl, if_pos hfails⟩)
    · subst hresp
      refine hshows (.inl ?_)
      change namesOf _ s'.tables = namesOf _ s
      rw [namesOf, namesOf, hroles, hroles']

theorem roles_since {subject : String} (hform : ∃ t, Names c t) (hsubject : subject ∈ c.forms)
    {names : List String} (h : RolesFetched answers subject names) : .roles names ≠ old := by
  obtain ⟨t, hnames⟩ := hform
  cases h with
  | ofId hid h =>
    rcases hnames.cases_form hsubject with hform | ⟨-, -, hform⟩
    · obtain rfl := Option.some.inj (hid.symm.trans hform)
      exact rolesRead_since hsince h
    · cases hid.symm.trans hform
  | noUser hid h =>
    rcases hnames.cases_form hsubject with hform | ⟨rfl, hsub, -⟩
    · cases hid.symm.trans hform
    · obtain ⟨env, s, hshows, hinfo⟩ := findByPublicSub_since hsince hsub h
      intro heq
      subst heq
      exact hshows (.inr ⟨rfl, hinfo.symm⟩)
  | @ofUser user _ hid huser h =>
    rcases hnames.cases_form hsubject with hform | ⟨rfl, hsub, -⟩
    · cases hid.symm.trans hform
    · obtain ⟨env, s, -, hinfo⟩ := findByPublicSub_since hsince hsub huser
      have hid : user.id = c.userId := id_of_findById hinfo.symm
      rw [hid] at h
      exact rolesRead_since hsince h

/-- What was read for a subject of the user after the change is not the old value. -/
theorem payload_since {subject key : String} (hform : ∃ t, Names c t) (hsubject : subject ∈ c.forms)
    (hkey : key = profileKey subject ∨ key = rolesKey subject) {payload : Payload}
    (h : PayloadFetched answers key payload) : payload.reply ≠ old := by
  obtain ⟨subject', ⟨names, hkey', rfl, h⟩ | ⟨info, hkey', hreply, h⟩⟩ := h
  · rcases hkey with rfl | rfl
    · exact absurd hkey' (profileKey_ne_rolesKey _ _)
    · obtain rfl := rolesKey_inj.mp hkey'
      exact roles_since hsince hform hsubject h
  · rw [hreply]
    rcases hkey with rfl | rfl
    · obtain rfl := profileKey_inj.mp hkey'
      exact profile_since hsince hform hsubject h
    · exact absurd hkey'.symm (profileKey_ne_rolesKey _ _)

end Fetched

/-! ### Events -/

theorem deletes_iff {key : String} {e : ReadEvent} :
    deletes c wid key e = true ↔ ∃ env r, e = .called wid (.change c) env ⟨.del key, r⟩ := by
  constructor
  · intro h
    unfold deletes at h
    split at h
    · simp only [Bool.and_eq_true, decide_eq_true_eq] at h
      obtain ⟨⟨rfl, rfl⟩, rfl⟩ := h
      exact ⟨_, _, rfl⟩
    · cases h
  · intro h
    obtain ⟨env, r, rfl⟩ := h
    simp [deletes]

theorem clears_iff {subject : String} {e : ReadEvent} :
    clears c wid subject e = true ↔
      ∃ env r, e = .called wid (.change c) env ⟨.dropMemo subject, r⟩ := by
  constructor
  · intro h
    unfold clears at h
    split at h
    · simp only [Bool.and_eq_true, decide_eq_true_eq] at h
      obtain ⟨⟨rfl, rfl⟩, rfl⟩ := h
      exact ⟨_, _, rfl⟩
    · cases h
  · intro h
    obtain ⟨env, r, rfl⟩ := h
    simp [clears]

theorem returns_eq_some_iff {req : ReadRequest} {e : ReadEvent} {tid : Nat} :
    returns req old e = some tid ↔ ∃ env, e = .called tid req env ⟨.callback old, ()⟩ := by
  constructor
  · intro h
    unfold returns at h
    split at h
    · split at h
      · rename_i hreturns
        obtain ⟨rfl, rfl⟩ := hreturns
        obtain rfl := Option.some.inj h
        exact ⟨_, rfl⟩
      · cases h
    · cases h
  · intro h
    obtain ⟨env, rfl⟩ := h
    exact if_pos ⟨rfl, rfl⟩

theorem executes_of_isRead {tid : Nat} {req : ReadRequest} {env : ReadEnv} {a : ReadAnswer}
    (h : a.op.isRead = true) : executes c wid (.called tid req env a) = false := by
  obtain ⟨op, r⟩ := a
  cases op with
  | statement op' => cases h
  | _ => cases req <;> rfl

theorem Deleted.of_cons {key : String} {e : ReadEvent} (h : Deleted c wid key (e :: history))
    (he : deletes c wid key e = false) : Deleted c wid key history := by
  obtain ⟨e', hmem, hdel⟩ := h
  rcases List.mem_cons.mp hmem with rfl | hmem
  · cases he.symm.trans hdel
  · exact ⟨e', hmem, hdel⟩

theorem Cleared.of_cons {subject : String} {e : ReadEvent}
    (h : Cleared c wid subject (e :: history)) (he : clears c wid subject e = false) :
    Cleared c wid subject history := by
  obtain ⟨e', hmem, hclear⟩ := h
  rcases List.mem_cons.mp hmem with rfl | hmem
  · cases he.symm.trans hclear
  · exact ⟨e', hmem, hclear⟩

theorem Deleted.append {key : String} (h : Deleted c wid key history) (later : List ReadEvent) :
    Deleted c wid key (later ++ history) := by
  obtain ⟨e, hmem, hdel⟩ := h
  exact ⟨e, List.mem_append_right _ hmem, hdel⟩

theorem Written.append (h : Written c wid history) (later : List ReadEvent) :
    Written c wid (later ++ history) := by
  rw [Written, List.countP_append]
  exact le_trans h (Nat.le_add_left _ _)

/-- A read that no statement of the write path follows comes after all of them. -/
theorem Written.before {tid : Nat} {later past : List ReadEvent} {r : ReadEvent}
    (h : Written c wid (later ++ r :: past))
    (hok : ¬Overtaken (fun e => executes c wid e = true) (fun e => reads tid e = true)
      (later ++ r :: past))
    (hread : reads tid r = true) (hr : executes c wid r = false) : Written c wid past := by
  have hlater : later.countP (executes c wid) = 0 := by
    rw [List.countP_eq_zero]
    intro e he hexecutes
    exact hok (overtaken_of_mem he hexecutes List.mem_cons_self hread)
  rwa [Written, List.countP_append, hlater, zero_add,
    List.countP_cons_of_neg (by rw [hr]; exact Bool.false_ne_true)] at h

/-! ### The order of the invalidation -/

section Runs

variable {ok : Guard (Pool (service profileTtlSeconds rolesTtlSeconds)) (Input ReadEnv ReadRequest)
    ReadEvent}
  {p : Pool (service profileTtlSeconds rolesTtlSeconds)}

theorem countP_executes {env : ReadEnv} {a : ReadAnswer}
    (hrun : (service profileTtlSeconds rolesTtlSeconds).machine.Run ok
      ((service profileTtlSeconds rolesTtlSeconds).start s₀)
      (.called wid (.change c) env a :: history) p) :
    history.countP (executes c wid) =
      (answersOf wid history).countP fun a => a.op.isStatement := by
  rw [answersOf, List.countP_reverse, List.countP_filterMap]
  refine List.countP_congr ?_
  intro e he
  cases e with
  | called tid req env' b =>
    by_cases htid : tid = wid
    · subst htid
      obtain rfl := request_unique hrun (List.mem_cons_of_mem _ he) List.mem_cons_self
      obtain ⟨op, r⟩ := b
      cases op <;> simp [executes, Event.answerTo, ReadCall.isStatement]
    · obtain ⟨op, r⟩ := b
      cases req <;> cases op <;> simp [executes, Event.answerTo, htid]
  | started tid req => simp [executes, Event.answerTo]
  | idle => simp [executes, Event.answerTo]

/-- The invalidation comes after all statements of the write path. -/
theorem written_of_invalidating {env : ReadEnv} {a : ReadAnswer}
    (hrun : (service profileTtlSeconds rolesTtlSeconds).machine.Run ok
      ((service profileTtlSeconds rolesTtlSeconds).start s₀)
      (.called wid (.change c) env a :: history) p)
    (hop : (∃ key, a.op = .del key) ∨ ∃ subject, a.op = .dropMemo subject) :
    Written c wid history := by
  obtain ⟨k, hreached⟩ := reached_of_called hrun
  have hcompleted := (completed_changeUser c).of_reached hreached
  rw [Written, countP_executes hrun]
  obtain ⟨key, hop⟩ | ⟨subject, hop⟩ := hop
  · rw [hop] at hcompleted
    exact hcompleted
  · rw [hop] at hcompleted
    exact hcompleted

theorem written_of_deleted {key : String}
    (hrun : (service profileTtlSeconds rolesTtlSeconds).machine.Run ok
      ((service profileTtlSeconds rolesTtlSeconds).start s₀) history p)
    (h : Deleted c wid key history) : Written c wid history := by
  obtain ⟨e, he, hdel⟩ := h
  obtain ⟨env, r, rfl⟩ := deletes_iff.mp hdel
  obtain ⟨later, past, rfl⟩ := List.append_of_mem he
  obtain ⟨q, hq⟩ := hrun.shorter
  have hwritten := written_of_invalidating hq (.inl ⟨key, rfl⟩)
  exact (hwritten.append [_]).append later

/-- The memo is dropped before the keys are deleted. -/
theorem cleared_of_deleted {subject key : String}
    (hkey : key = profileKey subject ∨ key = rolesKey subject)
    (hrun : (service profileTtlSeconds rolesTtlSeconds).machine.Run ok
      ((service profileTtlSeconds rolesTtlSeconds).start s₀) history p)
    (h : Deleted c wid key history) : Cleared c wid subject history := by
  obtain ⟨e, he, hdel⟩ := h
  obtain ⟨env, r, rfl⟩ := deletes_iff.mp hdel
  obtain ⟨later, past, rfl⟩ := List.append_of_mem he
  obtain ⟨q, hq⟩ := hrun.shorter
  obtain ⟨subject', hkey', hdrop⟩ := traced_of_called
    (S := service profileTtlSeconds rolesTtlSeconds) traced_program hq
  have hsame : subject' = subject := by
    rcases hkey with rfl | rfl
    · rcases hkey' with hkey' | hkey'
      · exact (profileKey_inj.mp hkey').symm
      · exact absurd hkey' (profileKey_ne_rolesKey _ _)
    · rcases hkey' with hkey' | hkey'
      · exact absurd hkey'.symm (profileKey_ne_rolesKey _ _)
      · exact (rolesKey_inj.mp hkey').symm
  subst hsame
  obtain ⟨req, env', hmem⟩ := mem_answersOf.mp hdrop
  obtain rfl := request_unique hq (List.mem_cons_of_mem _ hmem) List.mem_cons_self
  exact ⟨_, List.mem_append_right _ (List.mem_cons_of_mem _ hmem), clears_iff.mpr ⟨_, _, rfl⟩⟩

end Runs

/-! ### What is stored after the invalidation -/

section Stored

variable {p : Pool (service profileTtlSeconds rolesTtlSeconds)} (hnames : Names c s₀.tables)

include hnames

theorem given_of_step {q : Pool (service profileTtlSeconds rolesTtlSeconds)} {tid : Nat}
    {env : ReadEnv} {a : ReadAnswer}
    (hrun : (service profileTtlSeconds rolesTtlSeconds).machine.Run (Changed c wid old)
      ((service profileTtlSeconds rolesTtlSeconds).start s₀) history q)
    (hok : Changed c wid old history q (.advance tid env)) (hwritten : Written c wid history)
    (hresp : a.resp = (ReadStore.exec env a.op q.shared).1) :
    GivenSince c old s₀.tables.roles a := by
  obtain ⟨hsame, hroles⟩ := tables_of_run hnames hrun
  exact ⟨env, q.shared, hok.2 hwritten, hsame, hroles, hresp⟩

/-- What a call has read before it fills a key in time. -/
theorem given_inTime {tid : Nat}
    (hrun : (service profileTtlSeconds rolesTtlSeconds).machine.Run (Changed c wid old)
      ((service profileTtlSeconds rolesTtlSeconds).start s₀) history p)
    (hwritten : Written c wid history)
    (hok : ¬Overtaken (fun e => executes c wid e = true) (fun e => reads tid e = true) history) :
    ∀ a ∈ answersOf tid history, a.op.isRead = true → GivenSince c old s₀.tables.roles a := by
  intro a ha hread
  obtain ⟨req, env, hmem⟩ := mem_answersOf.mp ha
  obtain ⟨later, past, rfl⟩ := List.append_of_mem hmem
  obtain ⟨q', hq'⟩ := hrun.shorter
  obtain ⟨q, hq, hguard, -, hresp⟩ := answered_of_called hq'
  have hpast := hwritten.before hok (by simp [reads, hread]) (executes_of_isRead hread)
  exact given_of_step hnames hq hguard hpast hresp

theorem redis_of_run {subject key : String} (hsubject : subject ∈ c.forms)
    (hkey : key = profileKey subject ∨ key = rolesKey subject)
    (hrun : (service profileTtlSeconds rolesTtlSeconds).machine.Run (NoLateFill c wid old)
      ((service profileTtlSeconds rolesTtlSeconds).start s₀) history p)
    (hdel : Deleted c wid key history) :
    p.shared.redis.Holds (fun payload => payload.reply ≠ old) key := by
  refine shared_invariant (P := fun h s => Deleted c wid key h →
    s.redis.Holds (fun payload => payload.reply ≠ old) key) ?_ ?_ ?_ ?_ hrun hdel
  · intro h
    obtain ⟨e, he, -⟩ := h
    cases he
  · exact fun _ _ _ _ ih hdel => ih (hdel.of_cons rfl)
  · exact fun _ _ ih hdel => ih (hdel.of_cons rfl)
  · intro h q tid req env op hexec ih hdel
    change (ReadStore.exec env op q.shared).2.redis.Holds _ key
    by_cases hop : op = .del key
    · subst hop
      exact KeyServer.holds_del_self hexec.guarded.1.1
    · have hother : deletes c wid key (.called tid req env
          ⟨op, (ReadStore.exec env op q.shared).1⟩) = false := by
        rw [Bool.eq_false_iff, Ne, deletes_iff]
        intro h
        obtain ⟨_, _, heq⟩ := h
        cases heq
        exact hop rfl
      replace hdel := hdel.of_cons hother
      refine holds_exec (ih hdel) ?_
      intro payload ttl hset
      subst hset
      obtain ⟨p', hafter⟩ := hexec.after
      have hfetched := traced_of_called (S := service profileTtlSeconds rolesTtlSeconds)
        traced_program hafter
      have hrun' := hexec.run.mono fun _ _ _ h => And.left h
      have hinTime := hexec.guarded.2 _ hexec.next hdel
      exact payload_since (given_inTime hnames hrun' (written_of_deleted hrun' hdel) hinTime)
        ⟨_, hnames⟩ hsubject hkey hfetched

theorem memo_of_run {subject : String} (hsubject : subject ∈ c.forms)
    (hrun : (service profileTtlSeconds rolesTtlSeconds).machine.Run (NoLateFill c wid old)
      ((service profileTtlSeconds rolesTtlSeconds).start s₀) history p)
    (hclear : Cleared c wid subject history) :
    Dict.Holds (fun e => e.1.reply ≠ old) subject p.shared.memo := by
  refine shared_invariant (P := fun h s => Cleared c wid subject h →
    Dict.Holds (fun e => e.1.reply ≠ old) subject s.memo) ?_ ?_ ?_ ?_ hrun hclear
  · intro h
    obtain ⟨e, he, -⟩ := h
    cases he
  · exact fun _ _ _ _ ih hclear => ih (hclear.of_cons rfl)
  · exact fun _ _ ih hclear => ih (hclear.of_cons rfl)
  · intro h q tid req env op hexec ih hclear
    change Dict.Holds _ subject (ReadStore.exec env op q.shared).2.memo
    by_cases hop : op = .dropMemo subject
    · subst hop
      exact Dict.holds_erase_self
    · have hother : clears c wid subject (.called tid req env
          ⟨op, (ReadStore.exec env op q.shared).1⟩) = false := by
        rw [Bool.eq_false_iff, Ne, clears_iff]
        intro h
        obtain ⟨_, _, heq⟩ := h
        cases heq
        exact hop rfl
      replace hclear := hclear.of_cons hother
      refine memo_exec (ih hclear) ?_
      intro payload hput
      subst hput
      obtain ⟨p', hafter⟩ := hexec.after
      obtain ⟨cached, hmget⟩ := traced_of_called (S := service profileTtlSeconds rolesTtlSeconds)
        traced_program hafter
      obtain ⟨⟨e, he, hdel⟩, hinTime⟩ := hexec.guarded.2 _ hexec.next hclear
      -- The key was deleted before the answer to the `MGET`.
      obtain ⟨req', env', hmem⟩ := mem_answersOf.mp hmget
      obtain ⟨later, past, rfl⟩ := List.append_of_mem hmem
      obtain ⟨q₁, hq₁⟩ := hexec.run.shorter
      obtain ⟨q₂, hq₂, -, -, hresp⟩ := answered_of_called hq₁
      have hpast : e ∈ past := by
        refine mem_past_of_not_overtaken hinTime (by simp [mgets]) ?_ he hdel
        rw [deletes_iff]
        intro h
        obtain ⟨_, _, heq⟩ := h
        cases heq
      have hholds := redis_of_run hnames hsubject (.inl rfl) hq₂ ⟨e, hpast, hdel⟩
      have hfresh := KeyServer.Holds.mget_right hholds.tick hresp.symm
      exact hfresh

end Stored

/-- For a user who is named by an id and a public subject as the tables have them: no read that starts
after the deletions of an invalidation returns a value that the tables no longer show since the
change, in every run in which no fill from before the change comes after the deletion of its key, and
no memo from before the deletion after the memo was dropped. -/
theorem old_value_gone (profileTtlSeconds rolesTtlSeconds : Int) (c : Change) (wid : Nat)
    (old : ReadReply) (s₀ : ReadStore) (hnames : Names c s₀.tables) (history : List ReadEvent)
    (p : Pool (service profileTtlSeconds rolesTtlSeconds))
    (hrun : (service profileTtlSeconds rolesTtlSeconds).machine.Run (NoLateFill c wid old)
      ((service profileTtlSeconds rolesTtlSeconds).start s₀) history p) :
    OldValueGone c wid old history := by
  intro later tid req past hsplit hreq hinvalidated hreturns
  subst hsplit
  obtain ⟨subject, hsubject, hreq⟩ := hreq
  obtain ⟨e, hcalled, he⟩ := List.mem_filterMap.mp hreturns
  obtain ⟨env, rfl⟩ := returns_eq_some_iff.mp he
  obtain ⟨post, mid, rfl⟩ := List.append_of_mem hcalled
  rw [List.append_assoc, List.cons_append] at hrun
  obtain ⟨q', hq'⟩ := hrun.shorter
  have hseen := traced_of_called (S := service profileTtlSeconds rolesTtlSeconds) traced_program hq'
  obtain ⟨_, _, hq, -, -⟩ := hq'.last
  -- Whatever the read was answered, it was answered after the deletions.
  have hlater : ∀ a ∈ answersOf tid (mid ++ .started tid req :: past), ∃ env' h' q,
      (service profileTtlSeconds rolesTtlSeconds).machine.Run (NoLateFill c wid old)
        ((service profileTtlSeconds rolesTtlSeconds).start s₀) h' q ∧
      NoLateFill c wid old h' q (.advance tid env') ∧ Deleted c wid (profileKey subject) h' ∧
      Deleted c wid (rolesKey subject) h' ∧
      a.resp = (ReadStore.exec env' a.op q.shared).1 := by
    intro a ha
    obtain ⟨mid', env', q, hq, hok, hresp⟩ := answered_since_started hq ha
    obtain ⟨hprofile, hroles⟩ := hinvalidated subject hsubject
    exact ⟨env', _, q, hq, hok, (hprofile.append [_]).append mid', (hroles.append [_]).append mid',
      hresp⟩
  have hsince : ∀ a ∈ answersOf tid (mid ++ .started tid req :: past), a.op.isRead = true →
      GivenSince c old s₀.tables.roles a := by
    intro a ha _
    obtain ⟨env', h', q, hq, hok, hdel, -, hresp⟩ := hlater a ha
    have hrun' := hq.mono fun _ _ _ h => And.left h
    exact given_of_step hnames hrun' hok.1 (written_of_deleted hrun' hdel) hresp
  cases old with
  | roles names =>
    obtain ⟨subject', rfl, ⟨profile, hmget⟩ | hfetched⟩ := hseen
    · obtain rfl := ReadRequest.getRoles.inj (hreq.resolve_right (fun h => nomatch h))
      obtain ⟨env', h', q, hq, -, -, hdel, hresp⟩ := hlater _ hmget
      have hholds := redis_of_run hnames hsubject (.inr rfl) hq hdel
      exact KeyServer.Holds.mget_left hholds.tick hresp.symm rfl
    · obtain rfl := ReadRequest.getRoles.inj (hreq.resolve_right (fun h => nomatch h))
      exact roles_since hsince ⟨_, hnames⟩ hsubject hfetched rfl
  | profile info =>
    obtain ⟨subject', rfl, ⟨payload, hreply, htake | hget⟩ | hfetched⟩ := hseen
    · obtain rfl := ReadRequest.getProfile.inj (hreq.resolve_left (fun h => nomatch h))
      obtain ⟨env', h', q, hq, -, hdel, -, hresp⟩ := hlater _ htake
      have hholds := memo_of_run hnames hsubject hq (cleared_of_deleted (.inl rfl) hq hdel)
      obtain ⟨t, hmemo⟩ := take_eq_some hresp.symm
      exact hholds _ hmemo hreply
    · obtain rfl := ReadRequest.getProfile.inj (hreq.resolve_left (fun h => nomatch h))
      obtain ⟨env', h', q, hq, -, hdel, -, hresp⟩ := hlater _ hget
      have hholds := redis_of_run hnames hsubject (.inl rfl) hq hdel
      exact KeyServer.Holds.get hholds.tick hresp.symm hreply
    · obtain rfl := ReadRequest.getProfile.inj (hreq.resolve_left (fun h => nomatch h))
      exact profile_since hsince ⟨_, hnames⟩ hsubject hfetched rfl
  | changed =>
    obtain ⟨c', rfl⟩ := hseen
    rcases hreq with hreq | hreq
    · cases hreq
    · cases hreq

/-! ### A fill and a memo after the invalidation -/

def ann : UserRow where
  publicSub := "0f8fad5b-d9cb-469f-a165-70867728950e"
  username := some "ann"
  email := some "old@example.com"
  passwordHash := ""

def annStore : ReadStore where
  redis := ⟨0, ∅⟩
  memo := ∅
  tables := { users := AList.singleton 7 ann }

def newEmail : Change where
  userId := 7
  publicSub := ann.publicSub
  statements := [.update 7 { email := some (some "new@example.com") }]

def oldProfile : ReadReply := .profile (some (userInfo 7 ann))

theorem newEmail_names : Names newEmail annStore.tables := by
  refine ⟨by decide, fun _ => stoiWhole_of_isUuid (by decide), ?_⟩
  intro _ id u hu
  have hmem : id ∈ annStore.tables.users :=
    AList.lookup_isSome.mp (Option.isSome_iff_exists.mpr ⟨u, hu⟩)
  obtain rfl : id = 7 := List.mem_singleton.mp hmem
  obtain rfl : ann = u := Option.some.inj hu
  exact iff_of_true rfl rfl

def steps (tid n : Nat) : List (Input ReadEnv ReadRequest) :=
  List.replicate n (.advance tid { taskFirst := true })

def executed (inputs : List (Input ReadEnv ReadRequest)) :
    List ReadEvent × Pool (service 300 120) :=
  (service 300 120).machine.exec [] ((service 300 120).start annStore) inputs

/-- The profile is read before the change, and its fill arrives after the deletions. -/
def lateFill : List (Input ReadEnv ReadRequest) :=
  .start (.getProfile "7") :: steps 0 3 ++ .start (.change newEmail) :: steps 1 12 ++ steps 0 3 ++
    .start (.getProfile "7") :: steps 2 3

/-- Roles and profile are cached; the answer to an `MGET` from before the change is memoized after
the deletions. -/
def lateMemo : List (Input ReadEnv ReadRequest) :=
  .start (.getRoles "7") :: steps 0 5 ++ .start (.getProfile "7") :: steps 1 6 ++
    .start (.getRoles "7") :: steps 2 1 ++ .start (.change newEmail) :: steps 3 12 ++ steps 2 2 ++
    .start (.getProfile "7") :: steps 4 2

theorem not_gone_of_split {inputs : List (Input ReadEnv ReadRequest)} {wid tid n : Nat}
    {later : List ReadEvent}
    (hsplit : (executed inputs).1 = later ++ .started tid (.getProfile "7") ::
      (executed inputs).1.drop n)
    (hinvalidated : Invalidated newEmail wid ((executed inputs).1.drop n))
    (hreturns : tid ∈ later.filterMap (returns (.getProfile "7") oldProfile)) :
    ¬OldValueGone newEmail wid oldProfile (executed inputs).1 := fun h =>
  h _ tid _ _ hsplit ⟨"7", by decide, .inr rfl⟩ hinvalidated hreturns

theorem lateFill_returned :
    Names newEmail annStore.tables ∧ Shows {} 7 annStore.tables oldProfile ∧
    ((service 300 120).machine.Run (Changed newEmail 1 oldProfile) ((service 300 120).start annStore)
        (executed lateFill).1 (executed lateFill).2 ∧
      ¬OldValueGone newEmail 1 oldProfile (executed lateFill).1) ∧
    (service 300 120).machine.Run (Changed newEmail 3 oldProfile) ((service 300 120).start annStore)
        (executed lateMemo).1 (executed lateMemo).2 ∧
      ¬OldValueGone newEmail 3 oldProfile (executed lateMemo).1 := by
  obtain ⟨hfill, hfilled, hreturned⟩ :
      (service 300 120).machine.Guarded (Changed newEmail 1 oldProfile) []
          ((service 300 120).start annStore) lateFill ∧
        Invalidated newEmail 1 ((executed lateFill).1.drop 4) ∧
        2 ∈ ((executed lateFill).1.take 3).filterMap (returns (.getProfile "7") oldProfile) := by
    decide +kernel
  obtain ⟨hmemo, hmemoized, hreturned'⟩ :
      (service 300 120).machine.Guarded (Changed newEmail 3 oldProfile) []
          ((service 300 120).start annStore) lateMemo ∧
        Invalidated newEmail 3 ((executed lateMemo).1.drop 3) ∧
        4 ∈ ((executed lateMemo).1.take 2).filterMap (returns (.getProfile "7") oldProfile) := by
    decide +kernel
  refine ⟨newEmail_names, by decide, ⟨.exec_of_guarded .init lateFill hfill, ?_⟩,
    .exec_of_guarded .init lateMemo hmemo, ?_⟩
  · have hsplit : (executed lateFill).1 = (executed lateFill).1.take 3 ++
        .started 2 (.getProfile "7") :: (executed lateFill).1.drop 4 := rfl
    exact not_gone_of_split hsplit hfilled hreturned
  · have hsplit : (executed lateMemo).1 = (executed lateMemo).1.take 2 ++
        .started 4 (.getProfile "7") :: (executed lateMemo).1.drop 3 := rfl
    exact not_gone_of_split hsplit hmemoized hreturned'

/-- The fill arrives before the change; the read after it sees the new address. -/
def earlyFill : List (Input ReadEnv ReadRequest) :=
  .start (.getProfile "7") :: steps 0 6 ++ .start (.change newEmail) :: steps 1 12 ++
    .start (.getProfile "7") :: steps 2 6

theorem old_value_gone_earlyFill :
    Invalidated newEmail 1 ((executed earlyFill).1.drop 7) ∧
    OldValueGone newEmail 1 oldProfile (executed earlyFill).1 := by
  obtain ⟨hguarded, hinvalidated⟩ :
      (service 300 120).machine.Guarded (NoLateFill newEmail 1 oldProfile) []
          ((service 300 120).start annStore) earlyFill ∧
        Invalidated newEmail 1 ((executed earlyFill).1.drop 7) := by
    decide +kernel
  exact ⟨hinvalidated, old_value_gone 300 120 newEmail 1 oldProfile annStore newEmail_names _ _
    (.exec_of_guarded .init earlyFill hguarded)⟩

end AuthForge.InvalidatedReads
