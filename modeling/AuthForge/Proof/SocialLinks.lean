import AuthForge.Identity.SocialLinks

/-!
# Links stay one-to-one, and the last credential survives

Both rules of the service are decided on a listing of the user's links, and the write is a later
call. The database keeps the slots of provider and subject apart on its own. The rest holds as
long as nothing has happened since the listing that would have changed the decision.
-/

namespace AuthForge.SocialLinks

open Identity
open Service hiding program

variable {service : SocialLinkService} {s₀ s : LinkStore} {history : List LinkEvent}
  {p : Pool (socialLinkRequests service)} {tid : Nat} {user : Int}
  {ok : Guard (Pool (socialLinkRequests service)) (Input LinkEnv LinkRequest) LinkEvent}

/-! ### What a request has seen when it writes -/

def answerListing : Answer LinkCall LinkCall.Resp → Option (Int × Option (List SocialLinkEntry))
  | ⟨.listForUser user, entries⟩ => some (user, entries)
  | _ => none

/-- Before it writes, a request has listed the user's links once. -/
def ListedFor (user : Int) (entries : List SocialLinkEntry)
    (answers : List (Answer LinkCall LinkCall.Resp)) : Prop :=
  answers.filterMap answerListing = [(user, some entries)]

def WriteChecked (answers : List (Answer LinkCall LinkCall.Resp)) : LinkCall → Prop
  | .insertLink provider _ user =>
    provider ≠ "local" ∧ ∃ entries, ListedFor user entries answers ∧
      ∀ e ∈ entries, e.provider ≠ provider
  | .deleteLink _ user =>
    ∃ entries, ListedFor user entries answers ∧
      (entries.length = 1 → ⟨.userHasUsablePassword user, some true⟩ ∈ answers)
  | _ => True

theorem ne_local_of_isValidProvider {provider : String}
    (h : ¬SocialLinkService.isValidProvider provider = false) : provider ≠ "local" := by
  intro heq
  rw [heq] at h
  exact h (by decide)

theorem traced_linkAccount (provider code : String) (user : Int) :
    (service.linkAccount provider code user).Traced WriteChecked [] := by
  unfold SocialLinkService.linkAccount
  split
  · trivial
  rename_i hvalid
  split
  · trivial
  split
  · trivial
  refine ⟨trivial, ?_⟩
  intro r
  obtain ⟨errorCode, subject⟩ := r
  dsimp only [SocialLinkService.onSubject]
  split
  · trivial
  refine ⟨trivial, ?_⟩
  intro r
  obtain ⟨status, existing⟩ := r
  cases status with
  | Linked | AccountUnavailable | RepositoryError => trivial
  | NoMapping =>
    refine ⟨trivial, ?_⟩
    intro entries
    cases entries with
    | none => trivial
    | some entries =>
      dsimp only
      split
      · trivial
      rename_i hnone
      refine ⟨⟨ne_local_of_isValidProvider hvalid, entries, rfl, ?_⟩, ?_⟩
      · intro e he heq
        exact hnone ⟨e, he, heq⟩
      · intro mutation
        cases mutation <;> trivial

theorem traced_unlinkAccount (provider : String) (user : Int) :
    (service.unlinkAccount provider user).Traced WriteChecked [] := by
  unfold SocialLinkService.unlinkAccount
  split
  · trivial
  split
  · trivial
  refine ⟨trivial, ?_⟩
  intro entries
  cases entries with
  | none => trivial
  | some entries =>
    dsimp only [SocialLinkService.onEntries]
    split
    · trivial
    split
    · refine ⟨trivial, ?_⟩
      intro usable
      rcases usable with _ | _ | _
      · trivial
      · trivial
      · refine ⟨⟨entries, rfl, ?_⟩, ?_⟩
        · intro _
          exact List.mem_append_right _ (List.mem_singleton_self _)
        · intro mutation
          cases mutation <;> trivial
    · rename_i hmany
      refine ⟨⟨entries, rfl, fun hone => absurd hone hmany⟩, ?_⟩
      intro mutation
      cases mutation <;> trivial

theorem traced_program (req : LinkRequest) :
    ((socialLinkRequests service).program req).Traced WriteChecked [] := by
  cases req with
  | linkAccount provider code user => exact traced_linkAccount provider code user
  | unlinkAccount provider user => exact traced_unlinkAccount provider user

/-! ### The events since a listing -/

def eventListing (tid : Nat) (e : LinkEvent) : Option (Int × Option (List SocialLinkEntry)) :=
  (e.answerTo tid).bind answerListing

/-- The events after request `tid` last listed the links. -/
def sinceListing (tid : Nat) (history : List LinkEvent) : List LinkEvent :=
  history.takeWhile fun e => (eventListing tid e).isNone

/-- The entries that request `tid` was last shown. -/
def listed (tid : Nat) (history : List LinkEvent) : List SocialLinkEntry :=
  match history.findSome? (eventListing tid) with
  | some (_, some entries) => entries
  | _ => []

theorem filterMap_answersOf (tid : Nat) (history : List LinkEvent) :
    (answersOf tid history).filterMap answerListing =
      (history.filterMap (eventListing tid)).reverse := by
  rw [answersOf, List.filterMap_reverse, List.filterMap_filterMap]
  rfl

theorem called_of_eventListing {e : LinkEvent} {entries : List SocialLinkEntry}
    (h : eventListing tid e = some (user, some entries)) :
    ∃ req env, e = .called tid req env ⟨.listForUser user, some entries⟩ := by
  obtain ⟨a, ha, hlisting⟩ := Option.bind_eq_some_iff.mp h
  cases e with
  | started | idle => cases ha
  | called i req env b =>
    simp only [Event.answerTo] at ha
    split at ha
    · rename_i heq
      subst heq
      obtain rfl := Option.some.inj ha
      obtain ⟨op, resp⟩ := b
      cases op with
      | listForUser u =>
        cases hlisting
        exact ⟨req, env, rfl⟩
      | _ => cases hlisting
    · cases ha

/-- A request that has listed once: its entries are those of the state before the events since. -/
theorem listing_of_run {entries : List SocialLinkEntry}
    (hrun : (socialLinkRequests service).machine.Run ok ((socialLinkRequests service).start s₀)
      history p)
    (hlisted : ListedFor user entries (answersOf tid history)) :
    listed tid history = entries ∧ ∃ rest q, history = sinceListing tid history ++ rest ∧
      (socialLinkRequests service).machine.Run ok ((socialLinkRequests service).start s₀) rest q ∧
      entries = q.shared.listForUser user := by
  rw [ListedFor, filterMap_answersOf, List.reverse_eq_iff] at hlisted
  obtain ⟨post, e, past, rfl, hpost, he, -⟩ := List.filterMap_eq_cons_iff.mp hlisted
  have hnone : ∀ x ∈ post, (eventListing tid x).isNone = true := by
    intro x hx
    rw [hpost x hx]
    rfl
  have hsince : sinceListing tid (post ++ e :: past) = post := by
    rw [sinceListing, List.takeWhile_append_of_pos hnone, List.takeWhile_cons_of_neg, List.append_nil]
    rw [he]
    exact Bool.false_ne_true
  have hfind : (post ++ e :: past).findSome? (eventListing tid) = some (user, some entries) := by
    rw [List.findSome?_append, List.findSome?_eq_none_iff.mpr hpost, List.findSome?_cons, he]
    rfl
  obtain ⟨q, hq⟩ := hrun.shorter
  obtain ⟨req, env, rfl⟩ := called_of_eventListing he
  obtain ⟨q', hq', -, -, hresp⟩ := answered_of_called hq
  refine ⟨?_, _, q, ?_, hq, ?_⟩
  · rw [listed, hfind]
  · rw [hsince]
  · -- Listing leaves the state as it is.
    have hsame : q.shared = q'.shared := by
      rw [shared_eq_replay hq, shared_eq_replay hq']
      rfl
    rw [hsame]
    change some entries = if env.fails then none else some _ at hresp
    split at hresp
    · cases hresp
    · exact Option.some.inj hresp

/-- The link that an event has added. -/
def eventAdded : LinkEvent → Option LinkRow
  | .called _ _ _ a => LinkStore.addedRow a
  | _ => none

def eventDeletes (provider : String) (user : Int) : LinkEvent → Bool
  | .called _ _ _ a => a.op = .deleteLink provider user
  | _ => false

theorem users_of_run
    (hrun : (socialLinkRequests service).machine.Run ok ((socialLinkRequests service).start s₀)
      history p) : p.shared.users = s₀.users := by
  rw [shared_eq_replay hrun]
  clear hrun
  induction history with
  | nil => rfl
  | cons e past ih =>
    cases e with
    | called i req env a => exact (LinkStore.exec_users env a.op _).trans ih
    | started | idle => exact ih

/-- Everything one step does to the store. -/
theorem step_shared (p : Pool (socialLinkRequests service)) (i : Input LinkEnv LinkRequest) :
    ((socialLinkRequests service).machine.step p i).1.shared = p.shared ∨
    ∃ tid env t op k, ∃ _ : Thread.rest t = .call op k, i = .advance tid env ∧
      p.threads[tid]? = some t ∧
      ((socialLinkRequests service).machine.step p i).1.shared =
        (LinkStore.exec env op p.shared).2 ∧
      ((socialLinkRequests service).machine.step p i).2 =
        .called tid t.request env ⟨op, (LinkStore.exec env op p.shared).1⟩ := by
  have hmachine : (socialLinkRequests service).machine.step p i =
    (socialLinkRequests service).step p i := rfl
  rw [hmachine]
  rcases step_cases p i with ⟨request, -, h⟩ | ⟨tid, env, t, op, k, hrest, rfl, ht, h⟩ | h
  · rw [h]
    exact .inl rfl
  · rw [h]
    exact .inr ⟨tid, env, t, op, k, hrest, rfl, ht, rfl, rfl⟩
  · rw [h]
    exact .inl rfl

section Since

variable {post rest : List LinkEvent} {q : Pool (socialLinkRequests service)} {row : LinkRow}

/-- A link that was there is there still, unless its user has unlinked the provider since. -/
theorem mem_links_of_mem (hq : (socialLinkRequests service).machine.Run ok
      ((socialLinkRequests service).start s₀) rest q)
    (hrun : (socialLinkRequests service).machine.Run ok ((socialLinkRequests service).start s₀)
      (post ++ rest) p)
    (hrow : row ∈ q.shared.links)
    (hpost : ∀ e ∈ post, eventDeletes row.provider row.internalUserId e = false) :
    row ∈ p.shared.links := by
  induction post generalizing p with
  | nil => rwa [shared_eq_replay hrun, List.nil_append, ← shared_eq_replay hq]
  | cons e post ih =>
    obtain ⟨p', i, hp', -, hstep⟩ := hrun.last
    have hmem := ih hp' fun x hx => hpost x (List.mem_cons_of_mem e hx)
    have hcases := step_shared p' i
    rw [hstep] at hcases
    rcases hcases with hshared | ⟨j, env, t, op, k, -, -, -, hshared, rfl⟩
    · rwa [hshared]
    · rw [hshared]
      refine LinkStore.mem_exec hmem ?_
      have hkeep := hpost _ List.mem_cons_self
      simpa only [eventDeletes, decide_eq_false_iff_not] using hkeep

/-- A link that is there was there before, or has been added since. -/
theorem mem_links_or_added (hq : (socialLinkRequests service).machine.Run ok
      ((socialLinkRequests service).start s₀) rest q)
    (hrun : (socialLinkRequests service).machine.Run ok ((socialLinkRequests service).start s₀)
      (post ++ rest) p)
    (hrow : row ∈ p.shared.links) :
    row ∈ q.shared.links ∨ ∃ e ∈ post, eventAdded e = some row := by
  induction post generalizing p with
  | nil =>
    rw [shared_eq_replay hrun] at hrow
    rw [shared_eq_replay hq]
    exact .inl hrow
  | cons e post ih =>
    obtain ⟨p', i, hp', -, hstep⟩ := hrun.last
    have hbefore (hmem : row ∈ p'.shared.links) :
        row ∈ q.shared.links ∨ ∃ x ∈ e :: post, eventAdded x = some row := by
      rcases ih hp' hmem with hold | ⟨x, hx, hadded⟩
      · exact .inl hold
      · exact .inr ⟨x, List.mem_cons_of_mem e hx, hadded⟩
    have hcases := step_shared p' i
    rw [hstep] at hcases
    rcases hcases with hshared | ⟨j, env, t, op, k, -, -, -, hshared, rfl⟩
    · exact hbefore (hshared ▸ hrow)
    · rw [hshared] at hrow
      rcases LinkStore.links_exec env op p'.shared with ⟨hsub, -⟩ | ⟨row', hadded, hlinks, -⟩
      · exact hbefore (hsub.subset hrow)
      · rw [hlinks] at hrow
        rcases List.mem_append.mp hrow with hmem | hnew
        · exact hbefore hmem
        · obtain rfl := List.mem_singleton.mp hnew
          exact .inr ⟨_, List.mem_cons_self, hadded⟩

end Since

/-! ### One account for a slot, one link for a provider -/

def SlotsDiffer (a b : LinkRow) : Prop := ¬(a.provider = b.provider ∧ a.subject = b.subject)

/-- Not two links of one user with one provider; the mapping `local` is no link. -/
def AccountsDiffer (a b : LinkRow) : Prop :=
  a.provider ≠ "local" → ¬(a.provider = b.provider ∧ a.internalUserId = b.internalUserId)

def OneUserPerSlot (s : LinkStore) : Prop := s.links.Pairwise SlotsDiffer

def OneLinkPerProvider (s : LinkStore) : Prop := s.links.Pairwise AccountsDiffer

/-- No other request has given the user a link of the provider since request `tid` listed them. -/
def InsertsCurrent (tid : Nat) (history : List LinkEvent) : Option LinkCall → Prop
  | some (.insertLink provider _ user) =>
    ∀ e ∈ sinceListing tid history, ∀ row ∈ eventAdded e,
      ¬(row.provider = provider ∧ row.internalUserId = user)
  | _ => True

def ListingCurrent : Guard (Pool (socialLinkRequests service)) (Input LinkEnv LinkRequest)
    LinkEvent := fun history pool i =>
  match i with
  | .start _ => True
  | .advance tid _ => InsertsCurrent tid history (pool.next tid)

theorem slots_of_run (hstart : OneUserPerSlot s₀)
    (hrun : (socialLinkRequests service).machine.Run ok ((socialLinkRequests service).start s₀)
      history p) : OneUserPerSlot p.shared := by
  refine hrun.invariant (fun _ q => OneUserPerSlot q.shared) hstart ?_
  intro history q i _ hslots _
  rcases step_shared q i with hshared | ⟨j, env, t, op, k, -, -, -, hshared, -⟩
  · rw [hshared]
    exact hslots
  · rw [hshared]
    rcases LinkStore.links_exec env op q.shared with ⟨hsub, -⟩ | ⟨row, -, hlinks, hfree⟩
    · exact hslots.sublist hsub
    · rw [OneUserPerSlot, hlinks, List.pairwise_append]
      refine ⟨hslots, List.pairwise_singleton _ _, ?_⟩
      intro a ha b hb
      obtain rfl := List.mem_singleton.mp hb
      exact hfree a ha

theorem addedRow_eq_some {op : LinkCall} {resp : op.Resp} {row : LinkRow}
    (h : LinkStore.addedRow ⟨op, resp⟩ = some row) :
    op = .insertLink row.provider row.subject row.internalUserId := by
  cases op with
  | insertLink provider subject user =>
    simp only [LinkStore.addedRow] at h
    split at h
    · obtain rfl := Option.some.inj h
      rfl
    · cases h
  | _ => cases h

/-- A link that is about to be inserted is the user's first one of its provider. -/
theorem no_link_of_insert {provider subject : String} {t : Thread (socialLinkRequests service)}
    {k : LinkMutationStatus → LinkProg} {env : LinkEnv}
    (hrun : (socialLinkRequests service).machine.Run ok ((socialLinkRequests service).start s₀)
      history p)
    (ht : p.threads[tid]? = some t) (hrest : t.rest = .call (.insertLink provider subject user) k)
    (hcurrent : ListingCurrent history p (.advance tid env)) :
    provider ≠ "local" ∧
      ∀ row ∈ p.shared.links, ¬(row.provider = provider ∧ row.internalUserId = user) := by
  have hchecked : WriteChecked t.answers (.insertLink provider subject user) :=
    traced_of_thread (P := fun _ => WriteChecked) traced_program t hrest
  rw [(described_of_run hrun).answers ht] at hchecked
  obtain ⟨hlocal, entries, hlisted, hnone⟩ := hchecked
  refine ⟨hlocal, ?_⟩
  obtain ⟨-, rest, q, hsplit, hq, rfl⟩ := listing_of_run hrun hlisted
  simp only [ListingCurrent, Pool.next_eq ht hrest, InsertsCurrent] at hcurrent
  intro row hrow hsame
  obtain ⟨rfl, rfl⟩ := hsame
  rw [hsplit] at hrun
  rcases mem_links_or_added hq hrun hrow with hold | ⟨e, he, hadded⟩
  · exact hnone ⟨row.provider, row.subject⟩ (LinkStore.mem_listForUser.mpr ⟨hold, hlocal⟩) rfl
  · exact hcurrent e he row hadded ⟨rfl, rfl⟩

/-- Each slot has one user in every run, and each user one link for a provider in the runs that
insert on a current listing. -/
theorem links_one_to_one (hslots : OneUserPerSlot s₀) (haccounts : OneLinkPerProvider s₀)
    (hrun : (socialLinkRequests service).machine.Run ok ((socialLinkRequests service).start s₀)
      history p) :
    OneUserPerSlot p.shared ∧
      ((socialLinkRequests service).machine.Run ListingCurrent
        ((socialLinkRequests service).start s₀) history p → OneLinkPerProvider p.shared) := by
  refine ⟨slots_of_run hslots hrun, ?_⟩
  intro hcurrent
  refine hcurrent.invariant (fun _ q => OneLinkPerProvider q.shared) haccounts ?_
  intro history q i hq hpairs hok
  rcases step_shared q i with hshared | ⟨j, env, t, op, k, hrest, rfl, ht, hshared, -⟩
  · rw [hshared]
    exact hpairs
  · rw [hshared]
    rcases LinkStore.links_exec env op q.shared with ⟨hsub, -⟩ | ⟨row, hadded, hlinks, -⟩
    · exact hpairs.sublist hsub
    · obtain rfl := addedRow_eq_some hadded
      obtain ⟨-, hfirst⟩ := no_link_of_insert hq ht hrest hok
      rw [OneLinkPerProvider, hlinks, List.pairwise_append]
      refine ⟨hpairs, List.pairwise_singleton _ _, ?_⟩
      intro a ha b hb _
      obtain rfl := List.mem_singleton.mp hb
      exact hfirst a ha

/-! ### A credential is left -/

/-- A usable password or a linked account. -/
def HasCredential (s : LinkStore) (user : Int) : Prop :=
  s.userHasUsablePassword user = true ∨ s.socialLinks user ≠ []

/-- Where the user has no usable password, a request that was shown several links deletes only
while one of another provider among them has not been deleted since. -/
def DeletesWithOther (user : Int) (s : LinkStore) (tid : Nat) (history : List LinkEvent) :
    Option LinkCall → Prop
  | some (.deleteLink provider user') =>
    user' = user → s.userHasUsablePassword user = false → (listed tid history).length ≠ 1 →
      ∃ e ∈ listed tid history, e.provider ≠ provider ∧
        ∀ ev ∈ sinceListing tid history, eventDeletes e.provider user ev = false
  | _ => True

def OtherLinkKept (user : Int) : Guard (Pool (socialLinkRequests service))
    (Input LinkEnv LinkRequest) LinkEvent := fun history pool i =>
  match i with
  | .start _ => True
  | .advance tid _ => DeletesWithOther user pool.shared tid history (pool.next tid)

theorem usablePassword_of_run
    (hrun : (socialLinkRequests service).machine.Run ok ((socialLinkRequests service).start s₀)
      history p) : p.shared.userHasUsablePassword user = s₀.userHasUsablePassword user := by
  simp only [LinkStore.userHasUsablePassword, users_of_run hrun]

/-- A request that was shown one link only has been told that the password is usable. -/
theorem usable_of_answer
    (hrun : (socialLinkRequests service).machine.Run ok ((socialLinkRequests service).start s₀)
      history p)
    (hmem : ⟨.userHasUsablePassword user, some true⟩ ∈ answersOf tid history) :
    s₀.userHasUsablePassword user = true := by
  obtain ⟨req, env, hcalled⟩ := mem_answersOf.mp hmem
  obtain ⟨past, q, hq, -, hresp⟩ := exec_of_called hrun hcalled
  change some true = if env.fails then none else some _ at hresp
  split at hresp
  · cases hresp
  · rw [← usablePassword_of_run hq]
    exact (Option.some.inj hresp).symm

theorem mem_socialLinks {row : LinkRow} :
    row ∈ s.socialLinks user ↔
      row ∈ s.links ∧ row.internalUserId = user ∧ row.provider ≠ "local" := by
  rw [LinkStore.socialLinks, List.mem_filter, decide_eq_true_eq]

/-- What a request that is about to unlink leaves to a user without a usable password. -/
theorem other_link_of_delete {provider : String} {t : Thread (socialLinkRequests service)}
    {k : LinkMutationStatus → LinkProg} {env : LinkEnv}
    (hrun : (socialLinkRequests service).machine.Run ok ((socialLinkRequests service).start s₀)
      history p)
    (ht : p.threads[tid]? = some t) (hrest : t.rest = .call (.deleteLink provider user) k)
    (hkept : OtherLinkKept user history p (.advance tid env))
    (hpassword : ¬s₀.userHasUsablePassword user = true) :
    ∃ row ∈ p.shared.socialLinks user, row.provider ≠ provider := by
  have hchecked : WriteChecked t.answers (.deleteLink provider user) :=
    traced_of_thread (P := fun _ => WriteChecked) traced_program t hrest
  rw [(described_of_run hrun).answers ht] at hchecked
  obtain ⟨entries, hlisted, hone⟩ := hchecked
  have hmany : entries.length ≠ 1 := fun h => hpassword (usable_of_answer hrun (hone h))
  obtain ⟨heq, rest, q, hsplit, hq, hentries⟩ := listing_of_run hrun hlisted
  simp only [OtherLinkKept, Pool.next_eq ht hrest, DeletesWithOther, heq] at hkept
  have hno : p.shared.userHasUsablePassword user = false := by
    rw [usablePassword_of_run hrun]
    simpa using hpassword
  obtain ⟨e, he, hne, hpost⟩ := hkept trivial hno hmany
  rw [hentries, LinkStore.mem_listForUser] at he
  rw [hsplit] at hrun
  refine ⟨⟨e.provider, e.subject, user⟩, mem_socialLinks.mpr ⟨?_, rfl, he.2⟩, hne⟩
  exact mem_links_of_mem hq hrun he.1 hpost

theorem socialLinks_exec_ne_nil {op : LinkCall} {env : LinkEnv} {row : LinkRow}
    (hrow : row ∈ s.socialLinks user) (hop : op ≠ .deleteLink row.provider user) :
    (LinkStore.exec env op s).2.socialLinks user ≠ [] := by
  obtain ⟨hmem, rfl, hsocial⟩ := mem_socialLinks.mp hrow
  exact List.ne_nil_of_mem (mem_socialLinks.mpr ⟨LinkStore.mem_exec hmem hop, rfl, hsocial⟩)

/-- Whoever has a credential keeps one. -/
theorem credential_survives (hstart : HasCredential s₀ user)
    (hrun : (socialLinkRequests service).machine.Run (OtherLinkKept user)
      ((socialLinkRequests service).start s₀) history p) : HasCredential p.shared user := by
  by_cases hpassword : s₀.userHasUsablePassword user = true
  · rw [← usablePassword_of_run hrun] at hpassword
    exact .inl hpassword
  right
  refine hrun.invariant (fun _ q => q.shared.socialLinks user ≠ []) ?_ ?_
  · exact hstart.resolve_left hpassword
  intro history q i hq hlinks hok
  rcases step_shared q i with hshared | ⟨j, env, t, op, k, hrest, rfl, ht, hshared, -⟩
  · rw [hshared]
    exact hlinks
  rw [hshared]
  by_cases hdelete : ∃ provider, op = .deleteLink provider user
  · obtain ⟨provider, rfl⟩ := hdelete
    obtain ⟨row, hrow, hne⟩ := other_link_of_delete hq ht hrest hok hpassword
    refine socialLinks_exec_ne_nil hrow ?_
    intro heq
    cases heq
    exact hne rfl
  · obtain ⟨row, hrow⟩ := List.exists_mem_of_ne_nil _ hlinks
    exact socialLinks_exec_ne_nil hrow fun heq => hdelete ⟨_, heq⟩

/-! ### Runs -/

instance : DecidablePred OneUserPerSlot := fun s =>
  inferInstanceAs (Decidable (s.links.Pairwise fun a b =>
    ¬(a.provider = b.provider ∧ a.subject = b.subject)))

instance : DecidablePred OneLinkPerProvider := fun s =>
  inferInstanceAs (Decidable (s.links.Pairwise fun a b =>
    a.provider ≠ "local" → ¬(a.provider = b.provider ∧ a.internalUserId = b.internalUserId)))

instance (s : LinkStore) (user : Int) : Decidable (HasCredential s user) :=
  inferInstanceAs (Decidable (_ ∨ _))

instance (tid : Nat) (history : List LinkEvent) :
    (call : Option LinkCall) → Decidable (InsertsCurrent tid history call)
  | some (.insertLink provider _ user) =>
    inferInstanceAs (Decidable (∀ e ∈ sinceListing tid history, ∀ row ∈ eventAdded e,
      ¬(row.provider = provider ∧ row.internalUserId = user)))
  | none | some (.exchange _ _) | some (.findLinkedUser _ _) | some (.listForUser _)
  | some (.deleteLink _ _) | some (.userHasUsablePassword _) => .isTrue trivial

instance (user : Int) (s : LinkStore) (tid : Nat) (history : List LinkEvent) :
    (call : Option LinkCall) → Decidable (DeletesWithOther user s tid history call)
  | some (.deleteLink provider user') =>
    inferInstanceAs (Decidable (user' = user → s.userHasUsablePassword user = false →
      (listed tid history).length ≠ 1 → ∃ e ∈ listed tid history, e.provider ≠ provider ∧
        ∀ ev ∈ sinceListing tid history, eventDeletes e.provider user ev = false))
  | none | some (.exchange _ _) | some (.findLinkedUser _ _) | some (.listForUser _)
  | some (.insertLink _ _ _) | some (.userHasUsablePassword _) => .isTrue trivial

instance (history : List LinkEvent) (pool : Pool (socialLinkRequests service))
    (i : Input LinkEnv LinkRequest) : Decidable (ListingCurrent history pool i) :=
  match i with
  | .start _ => .isTrue trivial
  | .advance tid _ => inferInstanceAs (Decidable (InsertsCurrent tid history (pool.next tid)))

instance (user : Int) (history : List LinkEvent) (pool : Pool (socialLinkRequests service))
    (i : Input LinkEnv LinkRequest) : Decidable (OtherLinkKept user history pool i) :=
  match i with
  | .start _ => .isTrue trivial
  | .advance tid _ =>
    inferInstanceAs (Decidable (DeletesWithOther user pool.shared tid history (pool.next tid)))

def allProviders : SocialLinkService := ⟨true, true, true, true⟩

/-- A user whose account came from a provider, with the placeholder for a password. -/
def knownUser : UserRow :=
  { publicSub := "11111111-1111-1111-1111-111111111111", username := some "gh_alice",
    passwordHash := "6f1c" }

def storeOf (links : List LinkRow) : LinkStore := ⟨⟨[⟨1, knownUser⟩], by simp [List.NodupKeys]⟩, links⟩

def linked (provider subject : String) : LinkRow := ⟨provider, subject, 1⟩

def executed (s : LinkStore) (inputs : List (Input LinkEnv LinkRequest)) :
    List LinkEvent × Pool (socialLinkRequests allProviders) :=
  (socialLinkRequests allProviders).machine.exec [] ((socialLinkRequests allProviders).start s)
    inputs

def steps (tid n : Nat) : List (Input LinkEnv LinkRequest) := List.replicate n (.advance tid {})

/-- The user links an account, tries a second one of the provider, unlinks the first and links the
second. -/
def linkedInTurn : List (Input LinkEnv LinkRequest) :=
  .start (.linkAccount "github" "a" 1) :: .advance 0 { subject := "11" } :: steps 0 3 ++
  .start (.linkAccount "github" "b" 1) :: .advance 1 { subject := "22" } :: steps 1 2 ++
  .start (.unlinkAccount "github" 1) :: steps 2 3 ++
  .start (.linkAccount "github" "b" 1) :: .advance 3 { subject := "22" } :: steps 3 3

theorem links_one_to_one_linkedInTurn :
    (executed (storeOf [linked "google" "g"]) linkedInTurn).2.shared.links =
        [linked "google" "g", linked "github" "22"] ∧
      OneLinkPerProvider (executed (storeOf [linked "google" "g"]) linkedInTurn).2.shared := by
  obtain ⟨hguarded, hlinks, hslot, hprovider⟩ :
      (socialLinkRequests allProviders).machine.Guarded ListingCurrent []
          ((socialLinkRequests allProviders).start (storeOf [linked "google" "g"])) linkedInTurn ∧
        (executed (storeOf [linked "google" "g"]) linkedInTurn).2.shared.links =
          [linked "google" "g", linked "github" "22"] ∧
        OneUserPerSlot (storeOf [linked "google" "g"]) ∧
        OneLinkPerProvider (storeOf [linked "google" "g"]) := by
    decide +kernel
  have hrun := Machine.Run.exec_of_guarded .init linkedInTurn hguarded
  exact ⟨hlinks, (links_one_to_one hslot hprovider hrun).2 hrun⟩

/-- Two requests of one user with two accounts of one provider, each through the checks before the
other inserts. -/
def linkedAtOnce : List (Input LinkEnv LinkRequest) :=
  .start (.linkAccount "github" "a" 1) :: .start (.linkAccount "github" "b" 1) ::
    .advance 0 { subject := "11" } :: .advance 1 { subject := "22" } ::
    steps 0 2 ++ steps 1 2 ++ steps 0 1 ++ steps 1 1

theorem linkedAtOnce_two_links :
    OneUserPerSlot (storeOf []) ∧ OneLinkPerProvider (storeOf []) ∧
      (socialLinkRequests allProviders).machine.Run anyStep
        ((socialLinkRequests allProviders).start (storeOf [])) (executed (storeOf []) linkedAtOnce).1
        (executed (storeOf []) linkedAtOnce).2 ∧
      ¬OneLinkPerProvider (executed (storeOf []) linkedAtOnce).2.shared := by
  have htwo : OneUserPerSlot (storeOf []) ∧ OneLinkPerProvider (storeOf []) ∧
      ¬OneLinkPerProvider (executed (storeOf []) linkedAtOnce).2.shared := by
    decide +kernel
  exact ⟨htwo.1, htwo.2.1, Machine.run_exec _ _ _, htwo.2.2⟩

/-- Of three links two are removed at once; the third one is not. -/
def unlinkedTwo : List (Input LinkEnv LinkRequest) :=
  .start (.unlinkAccount "github" 1) :: .start (.unlinkAccount "google" 1) ::
    steps 0 1 ++ steps 1 1 ++ steps 0 1 ++ steps 1 1 ++
  .start (.unlinkAccount "wechat" 1) :: steps 2 2

theorem credential_survives_unlinkedTwo :
    let s := storeOf [linked "github" "11", linked "google" "g", linked "wechat" "w"]
    HasCredential s 1 ∧ HasCredential (executed s unlinkedTwo).2.shared 1 ∧
      (executed s unlinkedTwo).2.shared.links = [linked "wechat" "w"] := by
  intro s
  obtain ⟨hcredential, hguarded, hlinks⟩ : HasCredential s 1 ∧
      (socialLinkRequests allProviders).machine.Guarded (OtherLinkKept 1) []
        ((socialLinkRequests allProviders).start s) unlinkedTwo ∧
      (executed s unlinkedTwo).2.shared.links = [linked "wechat" "w"] := by
    decide +kernel
  refine ⟨hcredential, ?_, hlinks⟩
  exact credential_survives hcredential (Machine.Run.exec_of_guarded .init unlinkedTwo hguarded)

/-- Each of two requests is shown the link that the other one removes. -/
def unlinkedAtOnce : List (Input LinkEnv LinkRequest) :=
  .start (.unlinkAccount "github" 1) :: .start (.unlinkAccount "google" 1) ::
    steps 0 1 ++ steps 1 1 ++ steps 0 1 ++ steps 1 1

theorem unlinkedAtOnce_no_credential :
    let s := storeOf [linked "github" "11", linked "google" "g"]
    HasCredential s 1 ∧
      (socialLinkRequests allProviders).machine.Run anyStep
        ((socialLinkRequests allProviders).start s) (executed s unlinkedAtOnce).1
        (executed s unlinkedAtOnce).2 ∧
      ¬HasCredential (executed s unlinkedAtOnce).2.shared 1 := by
  intro s
  have hnone : HasCredential s 1 ∧ ¬HasCredential (executed s unlinkedAtOnce).2.shared 1 := by
    decide +kernel
  exact ⟨hnone.1, Machine.run_exec _ _ _, hnone.2⟩

end AuthForge.SocialLinks
