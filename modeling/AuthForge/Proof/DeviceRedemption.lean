import AuthForge.Http.DeviceStatements
import AuthForge.Http.Runs

/-!
# A device code is redeemed at most once

The poll's conditional update lets one poll win, because nothing takes a consumed code back. The
approval's update would: it runs two statements after the check that the code is pending and sets
the code approved whatever it has become. Runs in which no approval is written over a consumed code
save at most one pair, for a user whose approval saw the code pending.
-/

namespace AuthForge.DeviceRedemption

open OAuth2 Http DeviceStatements
open Service hiding program

variable {cfg : Config} {clients : ClientRepository} {tokens : TokenRepository}

/-! ### What a request has seen when it writes -/

def isSave : DeviceCall → Bool
  | .saveTokenPair _ _ => true
  | _ => false

def WriteSeen (cfg : Config) (request : DeviceRequest) (answers : List DeviceAnswer) :
    DeviceCall → Prop
  | .setApproved hash userId => ∃ req code, request = .approve req ∧
      req.getParameter "user_id" = userId ∧ code.status = .pending ∧
      ⟨.findByUserCode (req.getParameter "user_code"), some (hash, code)⟩ ∈ answers
  | .saveTokenPair access refresh => ∃ req row, request = .poll req ∧
      ⟨.findBy (presentedHash cfg req), some (some row)⟩ ∈ answers ∧ row.status = .approved ∧
      ⟨.consume (presentedHash cfg req), some true⟩ ∈ answers ∧
      access.userId = row.userId ∧ refresh.userId = row.userId ∧
      ∀ a ∈ answers, isSave a.op = false
  | _ => True

theorem traced_approve (req : HttpRequest) :
    (program cfg (.approve req)).Traced (WriteSeen cfg (.approve req)) [] := by
  simp only [program, approveDevice, markApproved]
  split
  · trivial
  split
  · trivial
  refine .call trivial ?_
  intro found
  rcases found with _ | ⟨hash, code⟩
  · trivial
  dsimp only
  split
  · trivial
  rename_i hpending
  refine .call trivial ?_
  intro now
  split
  · trivial
  refine .call trivial ?_
  intro again
  rcases again with _ | row
  · trivial
  refine .call ⟨req, code, rfl, rfl, not_not.mp hpending, by simp⟩ ?_
  intro success
  split <;> trivial

theorem traced_issue {req : HttpRequest} {row : DeviceCode} {now : Int}
    {answers : List DeviceAnswer} (happroved : row.status = .approved)
    (hfound : ⟨.findBy (presentedHash cfg req), some (some row)⟩ ∈ answers)
    (hconsumed : ⟨.consume (presentedHash cfg req), some true⟩ ∈ answers)
    (hfirst : ∀ a ∈ answers, isSave a.op = false) :
    (issue cfg row now).Traced (WriteSeen cfg (.poll req)) answers := by
  refine .call trivial fun accessTokenStr => .call trivial fun refreshTokenStr => .call trivial ?_
  intro familyId
  refine .call ⟨req, row, rfl, by simp [hfound], happroved, by simp [hconsumed], rfl, rfl, ?_⟩ ?_
  · intro a ha
    simp only [List.append_assoc, List.cons_append, List.nil_append, List.mem_append,
      List.mem_cons, List.not_mem_nil, or_false] at ha
    rcases ha with ha | rfl | rfl | rfl
    · exact hfirst a ha
    · rfl
    · rfl
    · rfl
  · intro ok
    split <;> trivial

theorem traced_lookup {req : HttpRequest} {clientId : String} {answers : List DeviceAnswer}
    (hfirst : ∀ a ∈ answers, isSave a.op = false) :
    (runDeviceCodeLookup cfg clientId (presentedHash cfg req)).Traced
      (WriteSeen cfg (.poll req)) answers := by
  refine .call trivial ?_
  intro found
  rcases found with _ | _ | row
  · trivial
  · trivial
  dsimp only
  split
  · trivial
  refine .call trivial ?_
  intro now
  split
  · trivial
  split
  · unfold pollPending
    split <;> exact .call trivial fun _ => trivial
  · trivial
  · trivial
  rename_i happroved
  refine .call trivial ?_
  intro consumed
  rcases consumed with _ | _ | _
  · trivial
  · trivial
  refine traced_issue happroved (by simp) (by simp) ?_
  intro a ha
  simp only [List.append_assoc, List.cons_append, List.nil_append, List.mem_append,
    List.mem_cons, List.not_mem_nil, or_false] at ha
  rcases ha with ha | rfl | rfl | rfl
  · exact hfirst a ha
  · rfl
  · rfl
  · rfl

theorem traced_poll (req : HttpRequest) :
    (program cfg (.poll req)).Traced (WriteSeen cfg (.poll req)) [] := by
  simp only [program, deviceToken]
  refine .call trivial ?_
  intro client
  split
  · trivial
  unfold deviceCodeGrant
  split
  · trivial
  refine .call trivial ?_
  intro client'
  rcases client' with _ | client'
  · trivial
  dsimp only
  split
  · refine .call trivial ?_
    intro valid
    cases valid
    · trivial
    · refine traced_lookup ?_
      simp [isSave]
  · refine traced_lookup ?_
    simp [isSave]

theorem traced_program (request : DeviceRequest) :
    (program cfg request).Traced (WriteSeen cfg request) [] := by
  cases request with
  | approve req => exact traced_approve req
  | poll req => exact traced_poll req

/-! ### What the statements do to one code -/

/-- A statement other than a consumption keeps status and user of the code, unless it approves the
code. -/
theorem exec_row {env : Env} {op : DeviceCall} {s : DeviceStore clients tokens} {hash : String}
    {row : DeviceCode} (hconsume : op ≠ .consume hash)
    (hrow : (DeviceStore.exec env op s).2.deviceCodes.lookup hash = some row) :
    (∃ row', s.deviceCodes.lookup hash = some row' ∧ row.status = row'.status ∧
      row.userId = row'.userId) ∨
    (∃ userId, op = .setApproved hash userId ∧ env.fails = false ∧ row.status = .approved ∧
      row.userId = userId ∧ ∃ row', s.deviceCodes.lookup hash = some row') := by
  have hsame : ∀ {row}, s.deviceCodes.lookup hash = some row →
      ∃ row', s.deviceCodes.lookup hash = some row' ∧ row.status = row'.status ∧
        row.userId = row'.userId :=
    fun {row} h => ⟨row, h, rfl, rfl⟩
  cases op with
  | setApproved key userId =>
    simp only [DeviceStore.exec] at hrow
    split at hrow
    · exact .inl (hsame hrow)
    rename_i hfails
    rw [lookup_updateRow, Option.map_eq_some_iff] at hrow
    obtain ⟨row', hlookup, rfl⟩ := hrow
    by_cases hkey : hash = key
    · subst hkey
      exact .inr ⟨userId, rfl, by simpa using hfails, by simp, by simp, row', hlookup⟩
    · exact .inl ⟨row', hlookup, by simp [hkey]⟩
  | setPolled key interval lastPolledAt =>
    left
    simp only [DeviceStore.exec] at hrow
    split at hrow
    · exact hsame hrow
    rw [lookup_updateRow, Option.map_eq_some_iff] at hrow
    obtain ⟨row', hlookup, rfl⟩ := hrow
    refine ⟨row', hlookup, ?_⟩
    split <;> exact ⟨rfl, rfl⟩
  | consume key =>
    left
    simp only [DeviceStore.exec] at hrow
    split at hrow
    · exact hsame hrow
    rw [lookup_updateRow, Option.map_eq_some_iff] at hrow
    obtain ⟨row', hlookup, rfl⟩ := hrow
    have hkey : hash ≠ key := by
      intro heq
      exact hconsume (by rw [heq])
    exact ⟨row', hlookup, by simp [hkey]⟩
  | _ => exact .inl (hsame hrow)

/-- A consumption wins on an approved code only and leaves no approved code behind. -/
theorem exec_consume (env : Env) (s : DeviceStore clients tokens) (hash : String) :
    (∀ row, (DeviceStore.exec env (.consume hash) s).2.deviceCodes.lookup hash = some row →
      s.deviceCodes.lookup hash = some row ∨ row.status = .consumed) ∧
    ((DeviceStore.exec env (.consume hash) s).1 = some true →
      (∃ row, s.deviceCodes.lookup hash = some row ∧ row.status = .approved) ∧
      ∀ row, (DeviceStore.exec env (.consume hash) s).2.deviceCodes.lookup hash = some row →
        row.status = .consumed) := by
  cases hfails : env.fails with
  | true =>
    simp only [DeviceStore.exec, hfails, if_true]
    exact ⟨fun row hrow => .inl hrow, nofun⟩
  | false =>
    simp only [DeviceStore.exec, hfails, Bool.false_eq_true, if_false, lookup_updateRow, isApproved]
    cases hlookup : s.deviceCodes.lookup hash with
    | none => simp
    | some row =>
      by_cases hstatus : row.status = .approved
      · simp [hstatus]
      · simp [hstatus]

/-! ### Runs -/

/-- The pair that the event saves for the device code. -/
def savedFor (cfg : Config) (hash : String) :
    DeviceEvent → Option (OAuth2AccessToken × OAuth2RefreshToken)
  | .called _ (.poll req) _ ⟨.saveTokenPair access refresh, true⟩ =>
    if presentedHash cfg req = hash then some (access, refresh) else none
  | _ => none

/-- Some request that saw the code pending has approved it for the user. -/
def ApprovedBy (history : List DeviceEvent) (hash userId : String) : Prop :=
  ∃ tid req code, req.getParameter "user_id" = userId ∧ code.status = .pending ∧
    (∃ env, Event.called tid (.approve req) env
      ⟨.findByUserCode (req.getParameter "user_code"), some (hash, code)⟩ ∈ history) ∧
    ∃ env, Event.called tid (.approve req) env ⟨.setApproved hash userId, true⟩ ∈ history

/-- The step writes an approval over a consumed code. -/
def approvesConsumed (hash : String) (p : Pool (service cfg clients tokens)) :
    Input Env DeviceRequest → Bool
  | .start _ => false
  | .advance tid env =>
    match p.next tid with
    | some (.setApproved key _) =>
      key = hash && !env.fails &&
        (p.shared.deviceCodes.lookup hash).any fun row => row.status = .consumed
    | _ => false

def ApprovesInTime (cfg : Config) (clients : ClientRepository) (tokens : TokenRepository)
    (hash : String) : Guard (Pool (service cfg clients tokens)) (Input Env DeviceRequest) DeviceEvent :=
  fun _ p i => approvesConsumed hash p i = false

instance (history : List DeviceEvent) (p : Pool (service cfg clients tokens))
    (i : Input Env DeviceRequest) (hash : String) :
    Decidable (ApprovesInTime cfg clients tokens hash history p i) :=
  inferInstanceAs (Decidable (_ = false))

def Consumes (hash : String) (e : DeviceEvent) : Prop :=
  ∃ tid request env, e = .called tid request env ⟨.consume hash, some true⟩

structure CodeInv (hash : String) (history : List DeviceEvent)
    (deviceCodes : Dict String DeviceCode) : Prop where
  approved : ∀ {row}, deviceCodes.lookup hash = some row → row.status = .approved →
    ApprovedBy history hash row.userId
  consumed : ∀ {e}, e ∈ history → Consumes hash e → ∀ {row}, deviceCodes.lookup hash = some row →
    row.status = .consumed
  once : history.Pairwise fun e e' => ¬(Consumes hash e ∧ Consumes hash e')

variable {hash : String} {history : List DeviceEvent} {p : Pool (service cfg clients tokens)}
  {s₀ : DeviceStore clients tokens}

theorem ApprovedBy.mono {userId : String} {history' : List DeviceEvent}
    (h : ApprovedBy history hash userId) (hsub : history ⊆ history') :
    ApprovedBy history' hash userId := by
  obtain ⟨tid, req, code, huser, hpending, ⟨env, hfind⟩, env', hset⟩ := h
  exact ⟨tid, req, code, huser, hpending, ⟨env, hsub hfind⟩, env', hsub hset⟩

/-- An event that does not consume the code, with what it may do to the row. -/
theorem CodeInv.next {deviceCodes deviceCodes' : Dict String DeviceCode} {e : DeviceEvent}
    (h : CodeInv hash history deviceCodes) (hno : ¬Consumes hash e)
    (hrow : ∀ {row}, deviceCodes'.lookup hash = some row →
      (∃ row', deviceCodes.lookup hash = some row' ∧ row.status = row'.status ∧
        row.userId = row'.userId) ∨
      ((∀ row', deviceCodes.lookup hash = some row' → row'.status ≠ .consumed) ∧
        (∃ row', deviceCodes.lookup hash = some row') ∧
        ApprovedBy (e :: history) hash row.userId)) :
    CodeInv hash (e :: history) deviceCodes' where
  approved := by
    intro row hlookup hstatus
    rcases hrow hlookup with ⟨row', hlookup', hstatus', huser⟩ | ⟨-, -, happroved⟩
    · rw [huser]
      exact (h.approved hlookup' (hstatus' ▸ hstatus)).mono (List.subset_cons_self e history)
    · exact happroved
  consumed := by
    intro e' hmem hconsumes row hlookup
    rcases List.mem_cons.mp hmem with rfl | hmem
    · exact absurd hconsumes hno
    rcases hrow hlookup with ⟨row', hlookup', hstatus', -⟩ | ⟨hopen, ⟨row', hlookup'⟩, -⟩
    · exact hstatus'.trans (h.consumed hmem hconsumes hlookup')
    · exact absurd (h.consumed hmem hconsumes hlookup') (hopen row' hlookup')
  once := List.pairwise_cons.mpr ⟨fun _ _ hboth => hno hboth.1, h.once⟩

theorem CodeInv.consume {s : DeviceStore clients tokens}
    (h : CodeInv hash history s.deviceCodes) (tid : Nat) (request : DeviceRequest) (env : Env) :
    CodeInv hash
      (.called tid request env ⟨.consume hash, (DeviceStore.exec env (.consume hash) s).1⟩ :: history)
      (DeviceStore.exec env (.consume hash) s).2.deviceCodes := by
  obtain ⟨hrows, hwins⟩ := exec_consume env s hash
  refine ⟨?_, ?_, ?_⟩
  · intro row hlookup hstatus
    rcases hrows row hlookup with hold | hconsumed
    · exact (h.approved hold hstatus).mono (List.subset_cons_self _ history)
    · rw [hconsumed] at hstatus
      cases hstatus
  · intro e hmem hconsumes row hlookup
    rcases List.mem_cons.mp hmem with rfl | hmem
    · obtain ⟨_, _, _, heq⟩ := hconsumes
      injection heq with _ _ _ hanswer
      injection hanswer with _ hresp
      exact (hwins (hresp)).2 row hlookup
    · rcases hrows row hlookup with hold | hconsumed
      · exact h.consumed hmem hconsumes hold
      · exact hconsumed
  · refine List.pairwise_cons.mpr ⟨?_, h.once⟩
    intro e hmem hboth
    obtain ⟨⟨_, _, _, heq⟩, hconsumes⟩ := hboth
    injection heq with _ _ _ hanswer
    injection hanswer with _ hresp
    obtain ⟨⟨row, hlookup, hstatus⟩, -⟩ := hwins (hresp)
    have hconsumed := h.consumed hmem hconsumes hlookup
    rw [hstatus] at hconsumed
    cases hconsumed

theorem event_of_answer {ok : Guard _ _ _}
    (hrun : (service cfg clients tokens).machine.Run ok (start _ s₀) history p) {tid : Nat}
    {t : Thread (service cfg clients tokens)} (ht : p.threads[tid]? = some t) {a : DeviceAnswer}
    (ha : a ∈ t.answers) : ∃ env, Event.called tid t.request env a ∈ history := by
  have hdesc := described_of_run hrun
  rw [hdesc.answers ht] at ha
  obtain ⟨request, env, hmem⟩ := mem_answersOf.mp ha
  obtain rfl := hdesc.request ht hmem
  exact ⟨env, hmem⟩

theorem not_consumed_of_inTime {tid : Nat} {env : Env} {userId : String} {row : DeviceCode}
    (hguard : ApprovesInTime cfg clients tokens hash history p (.advance tid env))
    {t : Thread (service cfg clients tokens)} (ht : p.threads[tid]? = some t)
    {k : Bool → DeviceProg} (hrest : t.rest = .call (.setApproved hash userId) k)
    (hfails : env.fails = false) (hrow : p.shared.deviceCodes.lookup hash = some row) :
    row.status ≠ .consumed := by
  intro hstatus
  have hnext := Pool.next_eq ht hrest
  change approvesConsumed hash p (.advance tid env) = false at hguard
  simp only [approvesConsumed] at hguard
  rw [hnext, hrow] at hguard
  simp [hfails, hstatus] at hguard

theorem codeInv_of_run {row₀ : DeviceCode} (hrow₀ : s₀.deviceCodes.lookup hash = some row₀)
    (hpending : row₀.status = .pending)
    (hrun : (service cfg clients tokens).machine.Run (ApprovesInTime cfg clients tokens hash)
      (start _ s₀) history p) : CodeInv hash history p.shared.deviceCodes := by
  refine Machine.Run.invariant (fun h q => CodeInv hash h q.shared.deviceCodes) ?_ ?_ hrun
  · refine ⟨?_, ?_, List.Pairwise.nil⟩
    · intro row hlookup hstatus
      obtain rfl := Option.some.inj (hrow₀.symm.trans hlookup)
      rw [hpending] at hstatus
      cases hstatus
    · intro e hmem
      cases hmem
  · intro h q i hq hinv hguard
    have hsame : ∀ {row}, q.shared.deviceCodes.lookup hash = some row →
        ∃ row', q.shared.deviceCodes.lookup hash = some row' ∧ row.status = row'.status ∧
          row.userId = row'.userId :=
      fun {row} hlookup => ⟨row, hlookup, rfl, rfl⟩
    change CodeInv hash ((Service.step _ q i).2 :: h) (Service.step _ q i).1.shared.deviceCodes
    rcases step_cases q i with ⟨request, -, hs⟩ | ⟨tid, env, t, op, k, hrest, rfl, ht, hs⟩ | hs
    · rw [hs]
      refine hinv.next ?_ fun hlookup => .inl (hsame hlookup)
      intro hconsumes
      obtain ⟨_, _, _, heq⟩ := hconsumes
      cases heq
    · rw [hs]
      by_cases hconsume : op = .consume hash
      · subst hconsume
        exact hinv.consume tid t.request env
      refine hinv.next ?_ ?_
      · intro hconsumes
        obtain ⟨_, _, _, heq⟩ := hconsumes
        injection heq with _ _ _ hanswer
        exact hconsume (congrArg Answer.op hanswer)
      · intro row hlookup
        rcases exec_row hconsume hlookup with hkept | ⟨userId, rfl, hfails, -, huser, hexists⟩
        · exact .inl hkept
        refine .inr ⟨?_, hexists, ?_⟩
        · intro row' hlookup' hstatus
          exact not_consumed_of_inTime hguard ht hrest hfails hlookup' hstatus
        · obtain ⟨req, code, hreq, hparam, hcode, hanswer⟩ :=
            traced_of_thread (S := service cfg clients tokens) traced_program t hrest
          obtain ⟨env', hfound⟩ := event_of_answer hq ht hanswer
          rw [hreq] at hfound ⊢
          have hresp : (DeviceStore.exec env (.setApproved hash userId) q.shared).1 = true := by
            simp [DeviceStore.exec, hfails]
          refine ⟨tid, req, code, hparam.trans huser.symm, hcode,
            ⟨env', List.mem_cons_of_mem _ hfound⟩, env, ?_⟩
          rw [huser]
          change _ ∈ Event.called tid _ env
            ⟨.setApproved hash userId, (DeviceStore.exec env (.setApproved hash userId) q.shared).1⟩ :: h
          rw [hresp]
          exact List.mem_cons_self
    · rw [hs]
      refine hinv.next ?_ fun hlookup => .inl (hsame hlookup)
      intro hconsumes
      obtain ⟨_, _, _, heq⟩ := hconsumes
      cases heq

/-! ### Every saved pair -/

/-- What precedes a saved pair. -/
structure SavedAfter (cfg : Config) (hash : String) (past : List DeviceEvent) (tid : Nat)
    (pair : OAuth2AccessToken × OAuth2RefreshToken) : Prop where
  consumed : ∃ request env, Event.called tid request env ⟨.consume hash, some true⟩ ∈ past
  found : ∃ request env row, Event.called tid request env ⟨.findBy hash, some (some row)⟩ ∈ past ∧
    row.status = .approved ∧ pair.1.userId = row.userId ∧ pair.2.userId = row.userId
  first : ∀ request env a, Event.called tid request env a ∈ past → isSave a.op = false

theorem savedAfter_of_saved {ok : Guard _ _ _} {e : DeviceEvent}
    {pair : OAuth2AccessToken × OAuth2RefreshToken}
    (hrun : (service cfg clients tokens).machine.Run ok (start _ s₀) (e :: history) p)
    (hsaved : savedFor cfg hash e = some pair) :
    ∃ tid request env, e = .called tid request env ⟨.saveTokenPair pair.1 pair.2, true⟩ ∧
      SavedAfter cfg hash history tid pair := by
  unfold savedFor at hsaved
  split at hsaved
  swap
  · cases hsaved
  rename_i tid req env access refresh
  split at hsaved
  swap
  · cases hsaved
  rename_i hhash
  obtain rfl := Option.some.inj hsaved
  obtain ⟨req', row, hreq, hfound, happroved, hconsumed, haccess, hrefresh, hfirst⟩ :=
    traced_of_called (S := service cfg clients tokens) traced_program hrun
  obtain rfl := DeviceRequest.poll.inj hreq
  rw [hhash] at hfound hconsumed
  obtain ⟨request, env', hfoundEvent⟩ := mem_answersOf.mp hfound
  refine ⟨tid, _, env, rfl, mem_answersOf.mp hconsumed, ?_, ?_⟩
  · exact ⟨request, env', row, hfoundEvent, happroved, haccess, hrefresh⟩
  · intro request env a hmem
    exact hfirst a (mem_answersOf.mpr ⟨request, env, hmem⟩)

theorem saved_once {ok : Guard _ _ _}
    (hrun : (service cfg clients tokens).machine.Run ok (start _ s₀) history p)
    (honce : history.Pairwise fun e e' => ¬(Consumes hash e ∧ Consumes hash e')) :
    history.Pairwise fun e e' =>
      ∀ pair ∈ savedFor cfg hash e, ∀ pair' ∈ savedFor cfg hash e', False := by
  induction history generalizing p with
  | nil => exact List.Pairwise.nil
  | cons e past ih =>
    obtain ⟨q, -, hq, -, -⟩ := hrun.last
    refine List.pairwise_cons.mpr ⟨?_, ih hq (List.pairwise_cons.mp honce).2⟩
    intro e' hmem pair hsaved pair' hsaved'
    obtain ⟨tid, request, env, rfl, hafter⟩ := savedAfter_of_saved hrun hsaved
    obtain ⟨post, past', rfl⟩ := List.append_of_mem hmem
    obtain ⟨q', hq'⟩ := hq.shorter
    obtain ⟨tid', request', env', rfl, hafter'⟩ := savedAfter_of_saved hq' hsaved'
    obtain ⟨creq, cenv, hconsumed⟩ := hafter.consumed
    obtain ⟨creq', cenv', hconsumed'⟩ := hafter'.consumed
    -- the two consumptions are one event, so both pairs were saved by one poll
    have hsame : tid = tid' := by
      by_contra hne
      refine pairwise_forall_of_symm ?_ honce (List.mem_cons_of_mem _ hconsumed)
        (List.mem_cons_of_mem _ (List.mem_append_right post (List.mem_cons_of_mem _ hconsumed')))
        ?_ ⟨⟨_, _, _, rfl⟩, ⟨_, _, _, rfl⟩⟩
      · intro x y h hboth
        exact h hboth.symm
      · intro heq
        injection heq with htid
        exact hne htid
    subst hsame
    have := hafter.first _ _ _ hmem
    cases this

theorem approvedBy_of_found {row₀ row : DeviceCode}
    (hrow₀ : s₀.deviceCodes.lookup hash = some row₀) (hpending : row₀.status = .pending)
    (hrun : (service cfg clients tokens).machine.Run (ApprovesInTime cfg clients tokens hash)
      (start _ s₀) history p) {tid : Nat} {request : DeviceRequest} {env : Env}
    (hmem : Event.called tid request env ⟨.findBy hash, some (some row)⟩ ∈ history)
    (happroved : row.status = .approved) : ApprovedBy history hash row.userId := by
  obtain ⟨post, past, rfl⟩ := List.append_of_mem hmem
  obtain ⟨q, hq⟩ := hrun.shorter
  obtain ⟨r, i, hr, -, hs⟩ := hq.last
  have hinv := codeInv_of_run hrow₀ hpending hr
  have hlookup : r.shared.deviceCodes.lookup hash = some row := by
    change Service.step _ r i = _ at hs
    rcases step_cases r i with ⟨_, -, h⟩ | ⟨_, env', t, op, k, hrest, -, ht, h⟩ | h
    · rw [h] at hs
      cases hs
    · rw [h] at hs
      injection hs with _ hevent
      injection hevent with _ _ henv hanswer
      subst henv
      obtain rfl : op = .findBy hash := congrArg Answer.op hanswer
      injection hanswer with _ hresp
      change (if env'.fails then none else some (r.shared.deviceCodes.lookup hash)) = _ at hresp
      split at hresp
      · cases hresp
      · exact Option.some.inj hresp
    · rw [h] at hs
      cases hs
  refine (hinv.approved hlookup happroved).mono ?_
  intro e he
  exact List.mem_append_right post (List.mem_cons_of_mem _ he)

/-- In every interleaving of approvals and polls that starts with the code pending and writes no
approval over the consumed code, at most one pair is saved for the code, and its user is one for
whom a request that saw the code pending approved it. -/
theorem redeemed_at_most_once (cfg : Config) (clients : ClientRepository)
    (tokens : TokenRepository) (s₀ : DeviceStore clients tokens) (hash : String)
    (row₀ : DeviceCode) (hrow₀ : s₀.deviceCodes.lookup hash = some row₀)
    (hpending : row₀.status = .pending) (history : List DeviceEvent)
    (p : Pool (service cfg clients tokens))
    (hrun : (service cfg clients tokens).machine.Run (ApprovesInTime cfg clients tokens hash)
      (start _ s₀) history p) :
    (history.filterMap (savedFor cfg hash)).length ≤ 1 ∧
    ∀ pair ∈ history.filterMap (savedFor cfg hash),
      ApprovedBy history hash pair.1.userId ∧ pair.2.userId = pair.1.userId := by
  have honce := (codeInv_of_run hrow₀ hpending hrun).once
  refine ⟨length_le_one_of_pairwise (List.pairwise_filterMap.mpr (saved_once hrun honce)), ?_⟩
  intro pair hmem
  obtain ⟨e, he, hsaved⟩ := List.mem_filterMap.mp hmem
  obtain ⟨post, past, rfl⟩ := List.append_of_mem he
  obtain ⟨q, hq⟩ := hrun.shorter
  obtain ⟨tid, request, env, rfl, hafter⟩ := savedAfter_of_saved hq hsaved
  obtain ⟨request', env', row, hfound, happroved, haccess, hrefresh⟩ := hafter.found
  refine ⟨?_, hrefresh.trans haccess.symm⟩
  rw [haccess]
  exact approvedBy_of_found hrow₀ hpending hrun
    (List.mem_append_right post (List.mem_cons_of_mem _ hfound)) happroved

/-! ### Two runs -/

def knownHash : String := hashToken knownCrypto (knownToken 0)

def knownCode : DeviceCode where
  userCode := "BCDFGHJK"
  clientId := "spa"
  scope := "openid"
  expiresAt := 600

abbrev knownClients : ClientRepository := Storage.Postgres.clientRepository fun _ => ""

def knownStore : DeviceStore knownClients Storage.Memory.tokenRepository where
  clients := (AList.insert "spa" knownClient ∅ : Storage.Postgres.Clients)
  tokens := Storage.Memory.Tokens.empty
  deviceCodes := AList.insert knownHash knownCode ∅

abbrev knownDevices := service knownConfig knownClients Storage.Memory.tokenRepository

def approval (userId : String) : DeviceRequest :=
  .approve { session := 0, params := paramsOf [("user_code", "BCDFGHJK"), ("user_id", userId)] }

def polling : DeviceRequest :=
  .poll { session := 0, params := paramsOf [("device_code", knownToken 0), ("client_id", "spa")] }

def steps (tid : Nat) (n : Nat) : List (Input Env DeviceRequest) :=
  List.replicate n (.advance tid {})

/-- The nine statements and draws of a redeeming poll, with the tokens drawn. -/
def redeeming (tid : Nat) (token : Nat) : List (Input Env DeviceRequest) :=
  steps tid 5 ++
    [.advance tid { random := knownToken token }, .advance tid { random := knownToken (token + 1) },
     .advance tid { random := knownFamily }, .advance tid {}]

def approvedOnce : List (Input Env DeviceRequest) :=
  .start (approval "1") :: steps 0 4 ++ .start polling :: redeeming 1 1

theorem lookup_knownHash : knownStore.deviceCodes.lookup knownHash = some knownCode :=
  AList.lookup_insert _

theorem redeemed_at_most_once_approvedOnce :
    knownStore.deviceCodes.lookup knownHash = some knownCode ∧ knownCode.status = .pending ∧
    ((knownDevices.machine.exec [] (start _ knownStore) approvedOnce).1.filterMap
      (savedFor knownConfig knownHash)).map (fun pair => pair.1.userId) = ["1"] ∧
    ApprovedBy (knownDevices.machine.exec [] (start _ knownStore) approvedOnce).1 knownHash "1" := by
  have hfacts : knownDevices.machine.Guarded
        (ApprovesInTime knownConfig knownClients Storage.Memory.tokenRepository knownHash) []
        (start _ knownStore) approvedOnce ∧
      ((knownDevices.machine.exec [] (start _ knownStore) approvedOnce).1.filterMap
        (savedFor knownConfig knownHash)).map (fun pair => pair.1.userId) = ["1"] := by
    decide +kernel
  obtain ⟨hguarded, hsaved⟩ := hfacts
  refine ⟨lookup_knownHash, rfl, hsaved, ?_⟩
  obtain ⟨-, huser⟩ := redeemed_at_most_once knownConfig knownClients
    Storage.Memory.tokenRepository knownStore knownHash knownCode lookup_knownHash rfl _ _
    (Machine.Run.exec_of_guarded .init approvedOnce hguarded)
  have hmem : "1" ∈ ((knownDevices.machine.exec [] (start _ knownStore) approvedOnce).1.filterMap
      (savedFor knownConfig knownHash)).map fun pair => pair.1.userId := by
    rw [hsaved]
    exact List.mem_cons_self
  obtain ⟨pair, hpair, heq⟩ := List.mem_map.mp hmem
  rw [← heq]
  exact (huser pair hpair).1

/-- Two approvals see the code pending; the second is written after the code was redeemed. -/
def approvedAgain : List (Input Env DeviceRequest) :=
  .start (approval "1") :: .start (approval "2") :: steps 0 1 ++ steps 1 1 ++ steps 0 3 ++
    .start polling :: redeeming 2 1 ++ steps 1 3 ++ .start polling :: redeeming 3 3

theorem approvedAgain_redeems_twice :
    knownStore.deviceCodes.lookup knownHash = some knownCode ∧ knownCode.status = .pending ∧
    knownDevices.machine.Run anyStep (start _ knownStore)
      (knownDevices.machine.exec [] (start _ knownStore) approvedAgain).1
      (knownDevices.machine.exec [] (start _ knownStore) approvedAgain).2 ∧
    ¬((knownDevices.machine.exec [] (start _ knownStore) approvedAgain).1.filterMap
      (savedFor knownConfig knownHash)).length ≤ 1 :=
  ⟨lookup_knownHash, rfl, Machine.run_exec _ _ _, by decide +kernel⟩

end AuthForge.DeviceRedemption
