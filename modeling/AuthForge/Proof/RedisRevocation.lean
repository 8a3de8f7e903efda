import AuthForge.Base.History
import AuthForge.Storage.RedisTokens

/-!
# A revocation in Redis is final

A revocation reads the object of a token and writes it back in a second command. What another
revocation writes in between is revoked as well, and a reader never writes, so the token that was
found is never offered again as a live one before it is saved anew. This takes no atomicity.
-/

namespace AuthForge.RedisRevocation

open OAuth2 Storage Storage.RedisTokens Service
open Storage.Memory (TokenCall TokenReply)

variable {s₀ s : RedisServer} {token key : String} {p : Pool service}
  {history later mid past : List TokenEvent}

/-! ### The property -/

/-- The last command of a revocation of the token did its work: the token was gone already, or the
object was written back. -/
def Completes (token : String) : TokenEvent → Prop
  | .called _ (.revokeAccessToken token' _) _ ⟨.get _, result⟩ => token' = token ∧ result = some none
  | .called _ (.revokeAccessToken token' _) env ⟨.setex _ _ _, _⟩ => token' = token ∧ env.lost = false
  | _ => False

/-- A save writes under this key. -/
def Saves (key : String) : TokenEvent → Prop
  | .called _ (.saveAccessToken t) _ ⟨.setex _ _ _, _⟩ => tokenKey t.token = key
  | _ => False

def Reads (token : String) (c : TokenCall) : Prop :=
  c = .getAccessToken token ∨ c = .introspectToken token

/-- A reply that offers a token as live. -/
def Reports : TokenReply → Prop
  | .access (some t) => t.revoked = false
  | .introspection result => result.active = true
  | _ => False

/-- No read that starts after a completed revocation offers the token as live, unless a save has
written it in between. -/
def Final (history : List TokenEvent) (p : Pool service) : Prop :=
  ∀ token e later tid c mid past, history = later ++ .started tid c :: (mid ++ e :: past) →
    Completes token e → Reads token c → (∀ e' ∈ later ++ mid, ¬Saves (tokenKey token) e') →
    ∀ t reply, p.threads[tid]? = some t → t.request = c → t.rest = .ret reply → ¬Reports reply

/-! ### Commands -/

/-- What an operation writes, and what a revocation looks at. -/
def Issued (c : TokenCall) : Command → Prop
  | .setex key _ value =>
    (∃ t, c = .saveAccessToken t ∧ key = tokenKey t.token) ∨
      (∃ token revokedBy, c = .revokeAccessToken token revokedBy ∧ key = tokenKey token) ∧
        value.asBool "revoked" = true
  | .get key => ∀ token revokedBy, c = .revokeAccessToken token revokedBy → key = tokenKey token
  | _ => True

theorem only_program (c : TokenCall) : (program c).Only (Issued c) := by
  cases c with
  | saveAccessToken t =>
    refine ⟨trivial, fun now => ⟨.inl ⟨t, rfl, rfl⟩, ?_⟩⟩
    intro _
    trivial
  | getAccessToken token =>
    refine ⟨?_, fun result => trivial⟩
    intro _ _ h
    cases h
  | introspectToken token =>
    refine ⟨?_, ?_⟩
    · intro _ _ h
      cases h
    · intro result
      dsimp only
      split
      · trivial
      · exact ⟨trivial, fun now => trivial⟩
  | incrementIntrospectCount token =>
    refine ⟨?_, fun result => trivial⟩
    intro _ _ h
    cases h
  | revokeAccessToken token revokedBy =>
    refine ⟨?_, ?_⟩
    · intro token' _ h
      cases h
      rfl
    · intro result
      dsimp only
      split
      · trivial
      · rename_i json _
        refine ⟨trivial, fun now => ⟨.inr ⟨⟨token, revokedBy, rfl, rfl⟩, ?_⟩, fun _ => trivial⟩⟩
        exact asBool_revokedJson now revokedBy json
  | revokeRefreshToken token => exact ⟨trivial, fun _ => trivial⟩
  | saveRefreshToken | getRefreshToken | atomicRevokeRefreshToken | revokeTokenFamily
  | purgeExpired => trivial

/-- A command of a run: what it did, and that its operation issues it. -/
theorem executed_of_called {tid : Nat} {c : TokenCall} {env : RedisEnv} {a : TokenAnswer}
    (hrun : service.machine.Run anyStep (service.start s₀) (.called tid c env a :: past) p) :
    ∃ s, a.resp = (RedisTokens.exec env a.op s).1 ∧
      p.shared = (RedisTokens.exec env a.op s).2 ∧ Issued c a.op ∧
      ∀ q, service.machine.Run anyStep (service.start s₀) past q → q.shared = s := by
  obtain ⟨k, hreached⟩ := reached_of_called hrun
  obtain ⟨q, hq, -, -, hresp⟩ := answered_of_called hrun
  have hshared : ∀ q', service.machine.Run anyStep (service.start s₀) past q' →
      q'.shared = q.shared := by
    intro q' hq'
    rw [shared_eq_replay hq', shared_eq_replay hq]
  refine ⟨q.shared, hresp, ?_, ((only_program c).of_reached hreached).1.1, hshared⟩
  rw [shared_eq_replay hrun, replay, ← shared_eq_replay hq]
  rfl

/-! ### Tokens that are not live -/

def Dead (key : String) (s : RedisServer) : Prop :=
  ∀ json, Redis.get s.clock key s.keys = some json → json.asBool "revoked" = true

theorem le_clock_exec (env : RedisEnv) (op : Command) (s : RedisServer) :
    s.clock ≤ (RedisTokens.exec env op s).2.clock := by
  cases op <;> simp [RedisTokens.exec]

/-- Only a write under the key could bring a live object back. -/
theorem Dead.exec (h : Dead key s) (env : RedisEnv) {op : Command}
    (hop : ∀ seconds value, op = .setex key seconds value → value.asBool "revoked" = true) :
    Dead key (RedisTokens.exec env op s).2 := by
  have hsame : (RedisTokens.exec env op s).2.keys = s.keys →
      Dead key (RedisTokens.exec env op s).2 := by
    intro hkeys json hjson
    rw [hkeys] at hjson
    exact h json (get_of_le hjson (le_clock_exec env op s))
  cases op with
  | clock => exact hsame rfl
  | get _ => exact hsame rfl
  | hset _ => exact hsame rfl
  | setex key' seconds value =>
    by_cases hlost : env.lost = true
    · apply hsame
      simp [RedisTokens.exec, hlost]
    · intro json hjson
      simp only [RedisTokens.exec, if_neg hlost] at hjson
      by_cases hkey : key = key'
      · subst hkey
        rw [get_setex_self] at hjson
        split at hjson
        · obtain rfl := Option.some.inj hjson
          exact hop seconds value rfl
        · cases hjson
      · rw [get_setex_of_ne hkey] at hjson
        refine h json (get_of_le hjson ?_)
        omega

theorem dead_of_completes {e : TokenEvent}
    (hrun : service.machine.Run anyStep (service.start s₀) (e :: past) p)
    (he : Completes token e) : Dead (tokenKey token) p.shared := by
  cases e with
  | started => exact he.elim
  | idle => exact he.elim
  | called tid c env a =>
    obtain ⟨s, hresp, hshared, hissued, -⟩ := executed_of_called hrun
    rw [hshared]
    obtain ⟨op, r⟩ := a
    cases c with
    | revokeAccessToken token' revokedBy =>
      cases op with
      | get key' =>
        obtain ⟨rfl, hnone⟩ := he
        obtain rfl := hissued token' revokedBy rfl
        change r = some none at hnone
        change r = if env.fails then none else some (Redis.get (s.clock + env.elapsed) _ s.keys)
          at hresp
        rw [hnone] at hresp
        intro json hjson
        change Redis.get (s.clock + env.elapsed) _ s.keys = some json at hjson
        rw [hjson] at hresp
        split at hresp <;> cases hresp
      | setex key' seconds value =>
        obtain ⟨rfl, hlost⟩ := he
        rcases hissued with ⟨t, hc, -⟩ | ⟨⟨token, by', hc, rfl⟩, hvalue⟩
        · cases hc
        · cases hc
          intro json hjson
          simp only [RedisTokens.exec, hlost, Bool.false_eq_true, if_false, get_setex_self] at hjson
          split at hjson
          · obtain rfl := Option.some.inj hjson
            exact hvalue
          · cases hjson
      | clock | hset => exact he.elim
    | _ => exact he.elim

/-- From the end of a revocation on the token is dead until it is saved. -/
theorem dead_of_run {e : TokenEvent} (he : Completes token e)
    (hrun : service.machine.Run anyStep (service.start s₀) (mid ++ e :: past) p)
    (hmid : ∀ e' ∈ mid, ¬Saves (tokenKey token) e') : Dead (tokenKey token) p.shared := by
  induction mid generalizing p with
  | nil => exact dead_of_completes hrun he
  | cons e' mid ih =>
    rw [List.cons_append] at hrun
    obtain ⟨q, i, hq, -, -⟩ := hrun.last
    have hdead := ih hq fun e'' he'' => hmid e'' (List.mem_cons_of_mem _ he'')
    cases e' with
    | started tid c =>
      rw [shared_eq_replay hrun]
      change Dead _ (service.replay s₀ (mid ++ e :: past))
      rw [← shared_eq_replay hq]
      exact hdead
    | idle =>
      rw [shared_eq_replay hrun]
      change Dead _ (service.replay s₀ (mid ++ e :: past))
      rw [← shared_eq_replay hq]
      exact hdead
    | called tid c env a =>
      obtain ⟨s, -, hshared, hissued, hbefore⟩ := executed_of_called hrun
      rw [hshared]
      rw [hbefore q hq] at hdead
      apply hdead.exec env
      intro seconds value hop
      obtain ⟨op, r⟩ := a
      dsimp only at hop
      subst hop
      rcases hissued with ⟨t, rfl, hkey⟩ | ⟨-, hvalue⟩
      · exact absurd hkey.symm (hmid _ List.mem_cons_self)
      · exact hvalue

/-! ### Readers -/

theorem notReports_of_reached {c : TokenCall} (hc : Reads token c) {answers : List TokenAnswer}
    {reply : TokenReply} (hreached : Prog.Reached (program c) answers (.ret reply)) :
    ∃ result : Option (Option Redis.Json), (⟨.get (tokenKey token), result⟩ : TokenAnswer) ∈ answers ∧
      ((∀ json, result = some (some json) → json.asBool "revoked" = true) → ¬Reports reply) := by
  rcases hc with rfl | rfl
  · rcases Prog.reached_call_iff.mp hreached with ⟨-, h⟩ | ⟨result, rest, rfl, h⟩
    · cases h
    obtain ⟨-, hreply⟩ := Prog.reached_ret_iff.mp h
    cases hreply
    refine ⟨result, List.mem_cons_self, ?_⟩
    intro hrevoked
    match result, hrevoked with
    | none, _ => exact id
    | some none, _ => exact id
    | some (some json), hrevoked =>
      change ¬json.asBool "revoked" = false
      simp [hrevoked json rfl]
  · rcases Prog.reached_call_iff.mp hreached with ⟨-, h⟩ | ⟨result, rest, rfl, h⟩
    · cases h
    refine ⟨result, List.mem_cons_self, ?_⟩
    intro hrevoked
    match result, hrevoked, h with
    | none, _, h =>
      obtain ⟨-, hreply⟩ := Prog.reached_ret_iff.mp h
      cases hreply
      exact Bool.false_ne_true
    | some none, _, h =>
      obtain ⟨-, hreply⟩ := Prog.reached_ret_iff.mp h
      cases hreply
      exact Bool.false_ne_true
    | some (some json), hrevoked, h =>
      rcases Prog.reached_call_iff.mp h with ⟨-, h⟩ | ⟨now, rest', -, h⟩
      · cases h
      obtain ⟨-, hreply⟩ := Prog.reached_ret_iff.mp h
      cases hreply
      change ¬(introspection now json).active = true
      rw [introspection, if_pos (.inl (hrevoked json rfl))]
      exact Bool.false_ne_true

/-- However the commands of any operations interleave and whichever of them fail, a revocation that
has found the token gone or has written it back is final. -/
theorem revocation_final
    (hrun : service.machine.Run anyStep (service.start s₀) history p) : Final history p := by
  intro token e later tid c mid past hhistory he hc hsaves t reply ht hrequest hreply
  subst hhistory
  have hreached : Prog.Reached (program c) t.answers (.ret reply) := by
    rw [← hreply, ← hrequest]
    exact t.reached
  obtain ⟨result, hmem, hnot⟩ := notReports_of_reached hc hreached
  rw [(described_of_run hrun).answers ht] at hmem
  obtain ⟨post, c', env, mid', q, rfl, hq, hresp⟩ := answered_later hrun hmem
  have hdead : Dead (tokenKey token) q.shared := by
    have hq' : service.machine.Run anyStep (service.start s₀)
        ((mid' ++ .started tid c :: mid) ++ e :: past) q := by
      rwa [List.append_assoc, List.cons_append]
    refine dead_of_run he hq' ?_
    intro e' he'
    rcases List.mem_append.mp he' with he' | he'
    · exact hsaves e' (by simp [he'])
    · rcases List.mem_cons.mp he' with rfl | he'
      · exact id
      · exact hsaves e' (by simp [he'])
  apply hnot
  intro json hjson
  change result = if env.fails then none else some (Redis.get _ _ _) at hresp
  rw [hjson] at hresp
  split at hresp
  · cases hresp
  · have hget := (Option.some.inj hresp).symm
    exact hdead json (get_of_le hget (by omega))

/-! ### Two revocations at once -/

def knownAccess : OAuth2AccessToken where
  token := "hash"
  clientId := "spa"
  userId := "1"
  scope := "openid"
  expiresAt := 4600

/-- Both revocations read the object before either writes it, one write is lost, and a read follows
that meets the token long after its own expiry. -/
def overlapping : List (Input RedisEnv TokenCall) :=
  (.start (.saveAccessToken knownAccess) :: List.replicate 2 (.advance 0 {}) :
    List (Input RedisEnv TokenCall)) ++
  [.start (.revokeAccessToken "hash" "spa"), .start (.revokeAccessToken "hash" "admin"),
   .advance 1 {}, .advance 2 {}, .advance 2 {}, .advance 1 {}, .advance 2 { fails := true },
   .advance 1 { elapsed := 3000 }, .start (.getAccessToken "hash"), .advance 3 { elapsed := 3000 }]

def executed : List TokenEvent × Pool service :=
  service.machine.exec [] (service.start ⟨1000, ∅⟩) overlapping

theorem revocation_final_overlapping :
    Final executed.1 executed.2 ∧
      (executed.2.threads[3]?.bind Thread.result) =
        some (.access (some { knownAccess with
          revoked := true, revokedAt := 1000, revokedBy := "spa" })) :=
  ⟨revocation_final (Machine.run_exec service.machine _ overlapping), by decide +kernel⟩

end AuthForge.RedisRevocation
