import Mathlib
import AuthForge.Storage.ClientCache

/-!
# Rotated client secrets and the client cache

A read that has fetched the row of a client before its secret is reset may store it after the key has
been deleted, and the old secret is then accepted from the cache. Where no such fill comes after the
deletion, nothing that starts after the reset accepts the old secret.
-/

namespace AuthForge.RotatedSecret

open OAuth2 Storage Storage.ClientCache Service

variable {sha256Hex : String → String} {clientTtlSeconds : Int} {clientId old : String} {rid : Nat}
  {s₀ s : ClientStore} {history : List ClientEvent}

/-! ### The property -/

/-- The request that has updated the client's secret. -/
def rotates (clientId : String) : ClientEvent → Option Nat
  | .called tid _ _ ⟨.updateSecret clientId' _ _, _⟩ =>
    if clientId' = clientId then some tid else none
  | _ => none

/-- The request that has deleted the client's key. -/
def drops (clientId : String) : ClientEvent → Option Nat
  | .called tid _ _ ⟨.del key, _⟩ => if key = clientKey clientId then some tid else none
  | _ => none

/-- The request that has read the client's row. -/
def reads (clientId : String) : ClientEvent → Option Nat
  | .called tid _ _ ⟨.findOne clientId', _⟩ => if clientId' = clientId then some tid else none
  | _ => none

/-- The request that has drawn the secret. -/
def draws (secret : String) : ClientEvent → Option Nat
  | .called tid _ _ ⟨.generateSecureToken _, drawn⟩ => if drawn = secret then some tid else none
  | _ => none

/-- The reset of the client's secret that has called back. -/
def acknowledges (clientId : String) : ClientEvent → Option Nat
  | .called tid (.resetClientSecret clientId') _ ⟨.callback (.secretReset _ _), _⟩ =>
    if clientId' = clientId then some tid else none
  | _ => none

/-- The check of a secret that has called back with `true`. -/
def accepts (clientId secret : String) : ClientEvent → Option Nat
  | .called tid (.validateClient clientId' secret') _ ⟨.callback (.valid true), _⟩ =>
    if clientId' = clientId ∧ secret' = secret then some tid else none
  | _ => none

/-- The reset has answered and its `DEL` has been executed. -/
def Rotated (clientId : String) (rid : Nat) (history : List ClientEvent) : Prop :=
  rid ∈ history.filterMap (drops clientId) ∧ rid ∈ history.filterMap (acknowledges clientId)

instance : Decidable (Rotated clientId rid history) := inferInstanceAs (Decidable (_ ∧ _))

/-- No check of the old secret that started after the reset accepts it. -/
def OldSecretDead (clientId old : String) (rid : Nat) (history : List ClientEvent) : Prop :=
  ∀ later tid past, history = later ++ .started tid (.validateClient clientId old) :: past →
    Rotated clientId rid past → tid ∉ later.filterMap (accepts clientId old)

/-! ### The steps -/

def CollisionFree (sha256Hex : String → String) : Prop :=
  ∀ s t, (sha256Hex s).toList.map Char.toLower = (sha256Hex t).toList.map Char.toLower → s = t

/-- The reset and every reset of the client that follows it store another secret than the old one. -/
def StoresOther (clientId old : String) (rid : Nat) (history : List ClientEvent) (tid : Nat) :
    ClientCall → Prop
  | .updateSecret clientId' _ _ =>
    clientId' = clientId → (tid = rid ∨ rid ∈ history.filterMap (rotates clientId)) →
      tid ∉ history.filterMap (draws old)
  | _ => True

/-- All statements and commands succeed. -/
def Rotations (clientId old : String) (rid : Nat) :
    Guard (Pool (service sha256Hex clientTtlSeconds)) (Input ClientEnv ClientRequest) ClientEvent :=
  fun history p i =>
    match i with
    | .start _ => True
    | .advance tid env => env.fails = false ∧ env.commandFails = false ∧
        ∀ op ∈ p.next tid, StoresOther clientId old rid history tid op

/-- What is stored after the deletion was read after the update. -/
def FilledInTime (clientId : String) (rid : Nat) (history : List ClientEvent) (tid : Nat) :
    ClientCall → Prop
  | .setEx key _ _ =>
    key = clientKey clientId → rid ∈ history.filterMap (drops clientId) →
      ¬Overtaken (fun e => rotates clientId e = some rid) (fun e => reads clientId e = some tid)
        history
  | _ => True

def NoLateFill (clientId old : String) (rid : Nat) :
    Guard (Pool (service sha256Hex clientTtlSeconds)) (Input ClientEnv ClientRequest) ClientEvent :=
  fun history p i => Rotations clientId old rid history p i ∧
    match i with
    | .start _ => True
    | .advance tid _ => ∀ op ∈ p.next tid, FilledInTime clientId rid history tid op

instance (tid : Nat) :
    (op : ClientCall) → Decidable (StoresOther clientId old rid history tid op)
  | .updateSecret _ _ _ => inferInstanceAs (Decidable (_ → _ → _))
  | .generateSecureToken _ | .getUuid | .choose | .get _ | .setEx _ _ _ | .del _ | .findOne _
  | .getScope _ | .callback _ => .isTrue trivial

instance (tid : Nat) : (op : ClientCall) → Decidable (FilledInTime clientId rid history tid op)
  | .setEx _ _ _ => inferInstanceAs (Decidable (_ → _ → ¬_))
  | .generateSecureToken _ | .getUuid | .choose | .get _ | .del _ | .findOne _ | .getScope _
  | .updateSecret _ _ _ | .callback _ => .isTrue trivial

instance (p : Pool (service sha256Hex clientTtlSeconds)) :
    (i : Input ClientEnv ClientRequest) → Decidable (Rotations clientId old rid history p i)
  | .start _ => .isTrue trivial
  | .advance _ _ => inferInstanceAs (Decidable (_ ∧ _ ∧ ∀ _ ∈ _, _))

instance (p : Pool (service sha256Hex clientTtlSeconds)) :
    (i : Input ClientEnv ClientRequest) → Decidable (NoLateFill clientId old rid history p i)
  | .start _ => inferInstanceAs (Decidable (_ ∧ True))
  | .advance _ _ => inferInstanceAs (Decidable (_ ∧ ∀ _ ∈ _, _))

theorem NoLateFill.rotations {p : Pool (service sha256Hex clientTtlSeconds)}
    {i : Input ClientEnv ClientRequest} (h : NoLateFill clientId old rid history p i) :
    Rotations clientId old rid history p i := h.1

/-! ### Events -/

theorem drops_eq_some_iff {e : ClientEvent} {tid : Nat} :
    drops clientId e = some tid ↔ ∃ req env r,
      e = .called tid req env ⟨.del (clientKey clientId), r⟩ := by
  constructor
  · intro h
    unfold drops at h
    split at h
    · split at h
      · subst_vars
        obtain rfl := Option.some.inj h
        exact ⟨_, _, _, rfl⟩
      · cases h
    · cases h
  · intro h
    obtain ⟨req, env, r, rfl⟩ := h
    exact if_pos rfl

theorem accepts_eq_some_iff {secret : String} {e : ClientEvent} {tid : Nat} :
    accepts clientId secret e = some tid ↔ ∃ env,
      e = .called tid (.validateClient clientId secret) env ⟨.callback (.valid true), ()⟩ := by
  constructor
  · intro h
    unfold accepts at h
    split at h
    · split at h
      · rename_i hcheck
        obtain ⟨rfl, rfl⟩ := hcheck
        obtain rfl := Option.some.inj h
        exact ⟨_, rfl⟩
      · cases h
    · cases h
  · intro h
    obtain ⟨env, rfl⟩ := h
    exact if_pos ⟨rfl, rfl⟩

theorem drew_of_answer {tid bytes : Nat} {secret : String}
    (h : ⟨.generateSecureToken bytes, secret⟩ ∈ answersOf tid history) :
    tid ∈ history.filterMap (draws secret) := by
  obtain ⟨req, env, hmem⟩ := mem_answersOf.mp h
  exact List.mem_filterMap.mpr ⟨_, hmem, if_pos rfl⟩

theorem updated_of_answer {tid : Nat} {clientSecret salt : String} {ok : Bool}
    (h : ⟨.updateSecret clientId clientSecret salt, ok⟩ ∈ answersOf tid history) :
    tid ∈ history.filterMap (rotates clientId) := by
  obtain ⟨req, env, hmem⟩ := mem_answersOf.mp h
  exact List.mem_filterMap.mpr ⟨_, hmem, if_pos rfl⟩

/-! ### The stored row -/

theorem hashClientSecretWithSalt_lower (clientSecret salt : String) :
    (hashClientSecretWithSalt sha256Hex clientSecret salt).toList.map Char.toLower =
      (sha256Hex (clientSecret ++ salt)).toList.map Char.toLower := by
  simp [hashClientSecretWithSalt]

theorem secretMatches_hash_iff (hsha : CollisionFree sha256Hex) {secret salt : String} :
    ClientTables.secretMatches sha256Hex old salt (hashClientSecretWithSalt sha256Hex secret salt) =
      true ↔ secret = old := by
  rw [ClientTables.secretMatches, decide_eq_true_iff, hashClientSecretWithSalt_lower]
  constructor
  · intro h
    exact ((String.append_left_inj salt).mp (hsha _ _ h)).symm
  · intro h
    rw [h]

/-- The row of the client, where the old secret is no longer accepted once the reset has updated
it. -/
structure Stored (sha256Hex : String → String) (clientId old : String) (rid : Nat)
    (history : List ClientEvent) (T : ClientTables) : Prop where
  keyed : T.Keyed
  confidential : ∀ row, T.clients.lookup clientId = some row →
    ClientTables.clientTypeOf row = .CONFIDENTIAL
  rejects : rid ∈ history.filterMap (rotates clientId) →
    ∀ row, T.clients.lookup clientId = some row → ClientTables.validateRow sha256Hex old row = false

theorem Stored.keep {T : ClientTables} (h : Stored sha256Hex clientId old rid history T)
    {e : ClientEvent} (he : rotates clientId e = none) :
    Stored sha256Hex clientId old rid (e :: history) T := by
  refine ⟨h.keyed, h.confidential, ?_⟩
  intro hrid
  rw [List.filterMap_cons_none he] at hrid
  exact h.rejects hrid

theorem lookup_updateSecret {env : Env} (henv : env.fails = false) (clientId' secret salt key : String)
    (T : ClientTables) :
    (updateSecret env clientId' secret salt T).2.clients.lookup key =
      (T.clients.lookup key).map fun row =>
        if key = clientId' then { row with clientSecret := secret, salt := salt } else row := by
  simp [updateSecret, henv]

theorem keyed_updateSecret {env : Env} (henv : env.fails = false) {clientId' secret salt : String}
    {T : ClientTables} (h : T.Keyed) : (updateSecret env clientId' secret salt T).2.Keyed := by
  intro key row hrow
  rw [lookup_updateSecret henv, Option.map_eq_some_iff] at hrow
  obtain ⟨row₀, hrow₀, rfl⟩ := hrow
  split
  · exact h key row₀ hrow₀
  · exact h key row₀ hrow₀

theorem Stored.updateSecret {T : ClientTables} (h : Stored sha256Hex clientId old rid history T)
    (hsha : CollisionFree sha256Hex) {env : ClientEnv} (henv : env.fails = false) {tid : Nat}
    {req : ClientRequest} {clientId' newSecret salt : String} {r : Bool}
    (hdraw : tid ∈ history.filterMap (draws newSecret))
    (hok : StoresOther clientId old rid history tid
      (.updateSecret clientId' (hashClientSecretWithSalt sha256Hex newSecret salt) salt)) :
    Stored sha256Hex clientId old rid
      (.called tid req env ⟨.updateSecret clientId'
        (hashClientSecretWithSalt sha256Hex newSecret salt) salt, r⟩ :: history)
      (ClientCache.updateSecret env.toEnv clientId'
        (hashClientSecretWithSalt sha256Hex newSecret salt) salt T).2 := by
  refine ⟨keyed_updateSecret henv h.keyed, ?_, ?_⟩
  · intro row hrow
    rw [lookup_updateSecret henv, Option.map_eq_some_iff] at hrow
    obtain ⟨row₀, hrow₀, rfl⟩ := hrow
    split
    · exact h.confidential row₀ hrow₀
    · exact h.confidential row₀ hrow₀
  · intro hrid row hrow
    rw [lookup_updateSecret henv, Option.map_eq_some_iff] at hrow
    obtain ⟨row₀, hrow₀, rfl⟩ := hrow
    split
    · rename_i hclient
      subst hclient
      have hsince : tid = rid ∨ rid ∈ history.filterMap (rotates clientId) := by
        obtain ⟨e, he, hrotates⟩ := List.mem_filterMap.mp hrid
        rcases List.mem_cons.mp he with rfl | he
        · exact .inl (Option.some.inj ((if_pos rfl).symm.trans hrotates))
        · exact .inr (List.mem_filterMap.mpr ⟨e, he, hrotates⟩)
      have hne : newSecret ≠ old := by
        intro heq
        subst heq
        exact hok rfl hsince hdraw
      have hrejected : ClientTables.secretMatches sha256Hex old salt
          (hashClientSecretWithSalt sha256Hex newSecret salt) = false := by
        rw [← Bool.not_eq_true, secretMatches_hash_iff hsha]
        exact hne
      have htype : ClientTables.clientTypeOf
          { row₀ with
            clientSecret := hashClientSecretWithSalt sha256Hex newSecret salt, salt := salt } =
          .CONFIDENTIAL := h.confidential row₀ hrow₀
      simp only [ClientTables.validateRow, htype, hrejected, Bool.and_false]
    · rename_i hclient
      have hnone : ∀ r', rotates clientId (.called tid req env ⟨.updateSecret clientId'
          (hashClientSecretWithSalt sha256Hex newSecret salt) salt, r'⟩) = none :=
        fun _ => if_neg (Ne.symm hclient)
      rw [List.filterMap_cons_none (hnone r)] at hrid
      exact h.rejects hrid row₀ hrow₀

theorem stored_of_run {p : Pool (service sha256Hex clientTtlSeconds)}
    (hsha : CollisionFree sha256Hex) (hkeyed : s₀.tables.Keyed)
    (hconfidential : ∀ row, s₀.tables.clients.lookup clientId = some row →
      ClientTables.clientTypeOf row = .CONFIDENTIAL)
    (hrun : (service sha256Hex clientTtlSeconds).machine.Run (Rotations clientId old rid)
      ((service sha256Hex clientTtlSeconds).start s₀) history p) :
    Stored sha256Hex clientId old rid history p.shared.tables := by
  induction hrun with
  | init => exact ⟨hkeyed, hconfidential, nofun⟩
  | @next history p i hrun hok ih =>
    change Stored sha256Hex clientId old rid
      (((service sha256Hex clientTtlSeconds).step p i).2 :: history)
      ((service sha256Hex clientTtlSeconds).step p i).1.shared.tables
    rcases step_cases p i with ⟨request, -, hs⟩ | ⟨tid, env, t, op, k, hrest, rfl, ht, hs⟩ | hs
    · rw [hs]
      exact ih.keep rfl
    · rw [hs]
      by_cases hop : ∀ clientId clientSecret salt, op ≠ .updateSecret clientId clientSecret salt
      · change Stored sha256Hex clientId old rid _ (ClientStore.exec env op p.shared).2.tables
        rw [tables_exec hop]
        refine ih.keep ?_
        cases op with
        | updateSecret clientId' clientSecret salt => exact absurd rfl (hop _ _ _)
        | _ => rfl
      · push Not at hop
        obtain ⟨clientId', clientSecret, salt, rfl⟩ := hop
        have hseen := traced_of_thread (S := service sha256Hex clientTtlSeconds) traced_program t
          hrest
        rw [(described_of_run hrun).answers ht] at hseen
        obtain ⟨newSecret, rfl, hdraw⟩ := hseen
        exact ih.updateSecret hsha hok.1 (drew_of_answer hdraw)
          (hok.2.2 _ (Pool.next_eq ht hrest))
    · rw [hs]
      exact ih.keep rfl

/-! ### The cached row -/

/-- A row that a request was given was the client's row then. -/
theorem row_of_answer {ok : Guard (Pool (service sha256Hex clientTtlSeconds))
      (Input ClientEnv ClientRequest) ClientEvent}
    {p : Pool (service sha256Hex clientTtlSeconds)} {tid : Nat} {row : Oauth2Clients}
    (hrun : (service sha256Hex clientTtlSeconds).machine.Run ok
      ((service sha256Hex clientTtlSeconds).start s₀) history p)
    (hrow : ⟨.findOne clientId, some row⟩ ∈ answersOf tid history) :
    ∃ later req env past q,
      history = later ++ .called tid req env ⟨.findOne clientId, some row⟩ :: past ∧
      (service sha256Hex clientTtlSeconds).machine.Run ok
        ((service sha256Hex clientTtlSeconds).start s₀) past q ∧
      q.shared.tables.clients.lookup clientId = some row := by
  obtain ⟨req, env, hmem⟩ := mem_answersOf.mp hrow
  obtain ⟨later, past, rfl⟩ := List.append_of_mem hmem
  obtain ⟨q', hq'⟩ := hrun.shorter
  obtain ⟨q, hq, -, -, hresp⟩ := answered_of_called hq'
  refine ⟨later, req, env, past, q, rfl, hq, ?_⟩
  change some row = if env.fails then none else q.shared.tables.clients.lookup clientId at hresp
  split at hresp
  · cases hresp
  · exact hresp.symm

section Runs

variable (hsha : CollisionFree sha256Hex) (hkeyed : s₀.tables.Keyed)
  (hconfidential : ∀ row, s₀.tables.clients.lookup clientId = some row →
    ClientTables.clientTypeOf row = .CONFIDENTIAL)

include hsha hkeyed hconfidential

/-- A reset deletes the key after it has updated the row. -/
theorem rotated_of_dropped {p : Pool (service sha256Hex clientTtlSeconds)}
    (hrun : (service sha256Hex clientTtlSeconds).machine.Run (Rotations clientId old rid)
      ((service sha256Hex clientTtlSeconds).start s₀) history p)
    (hdrop : rid ∈ history.filterMap (drops clientId)) :
    rid ∈ history.filterMap (rotates clientId) := by
  obtain ⟨e, he, hdrops⟩ := List.mem_filterMap.mp hdrop
  obtain ⟨req, env, r, rfl⟩ := drops_eq_some_iff.mp hdrops
  obtain ⟨later, past, rfl⟩ := List.append_of_mem he
  obtain ⟨q', hq'⟩ := hrun.shorter
  obtain ⟨clientId', row, clientSecret, salt, hkey, hrow, hupdate⟩ := traced_of_called
    (S := service sha256Hex clientTtlSeconds) traced_program hq'
  obtain rfl := clientKey_inj.mp hkey
  obtain ⟨q, -, hq, -, -⟩ := hq'.last
  obtain ⟨_, _, _, _, u, -, hu, hlookup⟩ := row_of_answer hq hrow
  have hid : row.clientId = clientId :=
    (stored_of_run hsha hkeyed hconfidential hu).keyed clientId row hlookup
  rw [hid] at hupdate
  rw [List.filterMap_append, ← List.singleton_append, List.filterMap_append]
  exact List.mem_append_right _ (List.mem_append_right _ (updated_of_answer hupdate))

/-- A fill in time brings the row as it was after the update. -/
theorem rejected_of_fill {p : Pool (service sha256Hex clientTtlSeconds)} {req : ClientRequest}
    {tid : Nat} {client : OAuth2Client} {ttl : Int}
    (hrun : (service sha256Hex clientTtlSeconds).machine.Run (Rotations clientId old rid)
      ((service sha256Hex clientTtlSeconds).start s₀) history p)
    (hdrop : rid ∈ history.filterMap (drops clientId))
    (hseen : WriteSeen sha256Hex req (answersOf tid history)
      (.setEx (clientKey clientId) client ttl))
    (hok : FilledInTime clientId rid history tid (.setEx (clientKey clientId) client ttl)) :
    validateCachedClientSecret sha256Hex client old = false := by
  obtain ⟨clientId', row, scopes, hkey, rfl, hrow⟩ := hseen
  obtain rfl := clientKey_inj.mp hkey
  have hrotated := rotated_of_dropped hsha hkeyed hconfidential hrun hdrop
  obtain ⟨e, he, hrotates⟩ := List.mem_filterMap.mp hrotated
  obtain ⟨later, req', env, past, q, rfl, hq, hlookup⟩ := row_of_answer hrun hrow
  have hpast : e ∈ past := by
    refine mem_past_of_not_overtaken (hok rfl hdrop) (if_pos rfl) ?_ he hrotates
    intro h
    cases h
  have hstored := stored_of_run hsha hkeyed hconfidential hq
  rw [validateCachedClientSecret_toClient]
  exact hstored.rejects (List.mem_filterMap.mpr ⟨e, hpast, hrotates⟩) row hlookup

theorem cleared_of_run {p : Pool (service sha256Hex clientTtlSeconds)}
    (hrun : (service sha256Hex clientTtlSeconds).machine.Run (NoLateFill clientId old rid)
      ((service sha256Hex clientTtlSeconds).start s₀) history p)
    (hdrop : rid ∈ history.filterMap (drops clientId)) :
    p.shared.redis.Holds (fun client => validateCachedClientSecret sha256Hex client old = false)
      (clientKey clientId) := by
  induction hrun with
  | init => cases hdrop
  | @next history p i hrun hok ih =>
    change rid ∈ (((service sha256Hex clientTtlSeconds).step p i).2 :: history).filterMap
      (drops clientId) at hdrop
    change ((service sha256Hex clientTtlSeconds).step p i).1.shared.redis.Holds _ _
    rcases step_cases p i with ⟨request, -, hs⟩ | ⟨tid, env, t, op, k, hrest, rfl, ht, hs⟩ | hs
    · rw [hs] at hdrop ⊢
      exact ih hdrop
    · rw [hs] at hdrop ⊢
      change (ClientStore.exec env op p.shared).2.redis.Holds _ _
      by_cases hop : op = .del (clientKey clientId)
      · subst hop
        exact KeyServer.holds_del_self hok.1.2.1
      · replace hdrop : rid ∈ history.filterMap (drops clientId) := by
          have hnone : drops clientId (.called tid t.request env
              ⟨op, ((service sha256Hex clientTtlSeconds).exec env op p.shared).1⟩) = none := by
            cases op with
            | del key =>
              refine if_neg ?_
              intro hkey
              exact hop (congrArg ClientCall.del hkey)
            | _ => rfl
          rwa [List.filterMap_cons_none hnone] at hdrop
        refine holds_exec (ih hdrop) ?_
        intro client ttl hset
        subst hset
        have hseen := traced_of_thread (S := service sha256Hex clientTtlSeconds) traced_program t
          hrest
        rw [(described_of_run hrun).answers ht] at hseen
        exact rejected_of_fill hsha hkeyed hconfidential (hrun.mono fun _ _ _ => NoLateFill.rotations) hdrop
          hseen (hok.2 _ (Pool.next_eq ht hrest))
    · rw [hs] at hdrop ⊢
      exact ih hdrop

end Runs

/-- With collision-free hashes and another secret than the old one stored by the reset and those after
it, the old secret of a confidential client is dead after the reset in every run in which no fill that
the reset overtook comes after its deletion. -/
theorem rotated_secret_dead (sha256Hex : String → String) (hsha : CollisionFree sha256Hex)
    (clientTtlSeconds : Int) (clientId old : String) (rid : Nat) (s₀ : ClientStore)
    (hkeyed : s₀.tables.Keyed)
    (hconfidential : ∀ row, s₀.tables.clients.lookup clientId = some row →
      ClientTables.clientTypeOf row = .CONFIDENTIAL)
    (history : List ClientEvent) (p : Pool (service sha256Hex clientTtlSeconds))
    (hrun : (service sha256Hex clientTtlSeconds).machine.Run (NoLateFill clientId old rid)
      ((service sha256Hex clientTtlSeconds).start s₀) history p) :
    OldSecretDead clientId old rid history := by
  intro later tid past hsplit hrotated haccepts
  subst hsplit
  obtain ⟨e, hcalled, he⟩ := List.mem_filterMap.mp haccepts
  obtain ⟨env, rfl⟩ := accepts_eq_some_iff.mp he
  obtain ⟨post, mid, rfl⟩ := List.append_of_mem hcalled
  rw [List.append_assoc, List.cons_append] at hrun
  obtain ⟨q', hq'⟩ := hrun.shorter
  obtain ⟨clientId', secret, hreq, hseen⟩ := traced_of_called
    (S := service sha256Hex clientTtlSeconds) traced_program hq'
  obtain ⟨rfl, rfl⟩ := ClientRequest.validateClient.inj hreq
  obtain ⟨_, _, hq, -, -⟩ := hq'.last
  -- Whatever the check was answered, it was answered after the deletion.
  have hsince : ∀ a ∈ answersOf tid (mid ++ .started tid (.validateClient clientId old) :: past),
      ∃ env' h' q, (service sha256Hex clientTtlSeconds).machine.Run (NoLateFill clientId old rid)
          ((service sha256Hex clientTtlSeconds).start s₀) h' q ∧
        rid ∈ h'.filterMap (drops clientId) ∧
        a.resp = (ClientStore.exec env' a.op q.shared).1 := by
    intro a ha
    obtain ⟨mid', env', q, hq, -, hresp⟩ := answered_since_started hq ha
    refine ⟨env', _, q, hq, ?_, hresp⟩
    rw [List.filterMap_append]
    exact List.mem_append_right _ hrotated.1
  rcases hseen with ⟨cached, hget, hvalid⟩ | ⟨row, hrow, hvalid⟩
  · obtain ⟨env', h', q, hq, hdrop, hresp⟩ := hsince _ hget
    have hcleared := cleared_of_run hsha hkeyed hconfidential hq hdrop
    have hrejected := KeyServer.Holds.get hcleared.tick hresp.symm
    cases hvalid.symm.trans hrejected
  · obtain ⟨env', h', q, hq, hdrop, hresp⟩ := hsince _ hrow
    have hq₁ := hq.mono fun _ _ _ => NoLateFill.rotations
    have hstored := stored_of_run hsha hkeyed hconfidential hq₁
    have hlookup : q.shared.tables.clients.lookup clientId = some row := by
      change some row = if env'.fails then none else _ at hresp
      split at hresp
      · cases hresp
      · exact hresp.symm
    have hrejected := hstored.rejects
      (rotated_of_dropped hsha hkeyed hconfidential hq₁ hdrop) row hlookup
    cases hvalid.symm.trans hrejected

/-! ### A fill after the deletion -/

/-- Stands for the hash: every character in lower case, after a digit for its case. -/
def digest (s : String) : String :=
  String.ofList (s.toList.flatMap fun c => [if c.isUpper then '1' else '0', c.toLower])

theorem digest_char_inj {c d : Char} (hlower : c.toLower = d.toLower)
    (hcase : (if c.isUpper then '1' else '0') = if d.isUpper then '1' else '0') : c = d := by
  cases hc : c.isUpper with
  | false =>
    cases hd : d.isUpper with
    | false =>
      rwa [Char.toLower_eq_of_not_isUpper (by simp [hc]),
        Char.toLower_eq_of_not_isUpper (by simp [hd])] at hlower
    | true => simp [hc, hd] at hcase
  | true =>
    cases hd : d.isUpper with
    | false => simp [hc, hd] at hcase
    | true =>
      have hupper : ∀ {e : Char}, e.isUpper = true → e.toLower.toUpper = e := by
        intro e he
        rw [Char.toUpper_toLower_eq_toUpper, Char.toUpper_eq_of_not_isLower]
        intro hlow
        exact Char.not_isUpper_of_isLower hlow he
      rw [← hupper hc, ← hupper hd, hlower]

theorem digest_collisionFree : CollisionFree digest := by
  have hinj : ∀ {cs ds : List Char},
      (cs.flatMap fun c => [if c.isUpper then '1' else '0', c.toLower]) =
        (ds.flatMap fun c => [if c.isUpper then '1' else '0', c.toLower]) → cs = ds := by
    intro cs
    induction cs with
    | nil =>
      intro ds h
      cases ds with
      | nil => rfl
      | cons d ds => cases h
    | cons c cs ih =>
      intro ds h
      cases ds with
      | nil => cases h
      | cons d ds =>
        obtain ⟨hcase, h⟩ := List.cons.inj h
        obtain ⟨hlower, h⟩ := List.cons.inj h
        rw [digest_char_inj hlower hcase, ih h]
  have hlower : ∀ s, (digest s).toList.map Char.toLower = (digest s).toList := by
    intro s
    rw [digest, String.toList_ofList, List.map_flatMap]
    refine List.flatMap_congr ?_
    intro c _
    cases c.isUpper with
    | false => simp
    | true => simp
  intro s t h
  rw [hlower, hlower, digest, digest, String.toList_ofList, String.toList_ofList] at h
  exact String.toList_inj.mp (hinj h)

def appRow : Oauth2Clients where
  clientId := "app"
  clientType := "CONFIDENTIAL"
  clientSecret := hashClientSecretWithSalt digest "old" "1"
  salt := "1"
  name := "App"
  redirectUris := "https://app.example/cb"
  allowedGrantTypes := "authorization_code"
  tokenEndpointAuthMethod := "client_secret_basic"

/-- The client is stored, and nothing is cached. -/
def appStore : ClientStore := ⟨⟨0, ∅⟩, ⟨AList.singleton "app" appRow, [("app", "openid")]⟩⟩

theorem appStore_row {clientId : String} {row : Oauth2Clients}
    (h : appStore.tables.clients.lookup clientId = some row) : clientId = "app" ∧ row = appRow := by
  by_cases hid : clientId = "app"
  · subst hid
    exact ⟨rfl, (Option.some.inj h).symm⟩
  · have hmem : clientId ∈ appStore.tables.clients :=
      AList.lookup_isSome.mp (Option.isSome_iff_exists.mpr ⟨row, h⟩)
    exact absurd (List.mem_singleton.mp hmem) hid

theorem appStore_keyed : appStore.tables.Keyed := by
  intro clientId row hrow
  obtain ⟨rfl, rfl⟩ := appStore_row hrow
  rfl

theorem appStore_confidential (row : Oauth2Clients)
    (hrow : appStore.tables.clients.lookup "app" = some row) :
    ClientTables.clientTypeOf row = .CONFIDENTIAL := by
  obtain ⟨-, rfl⟩ := appStore_row hrow
  rfl

def env (random : String) (taskFirst : Bool) : ClientEnv := { random, taskFirst }

def reset : List (Input ClientEnv ClientRequest) :=
  [Input.start (ClientRequest.resetClientSecret "app"), Input.advance 1 (env "new" true),
    Input.advance 1 (env "2" true)] ++ List.replicate 5 (Input.advance 1 (env "" true))

def executed (inputs : List (Input ClientEnv ClientRequest)) :
    List ClientEvent × Pool (service digest 300) :=
  (service digest 300).machine.exec [] ((service digest 300).start appStore) inputs

/-- A read has fetched the row when the secret is reset; its fill arrives after the deletion. -/
def lateFill : List (Input ClientEnv ClientRequest) :=
  Input.start (ClientRequest.getClient "app") :: List.replicate 3 (Input.advance 0 (env "" true)) ++ reset ++
    List.replicate 2 (Input.advance 0 (env "" true)) ++
  [Input.start (ClientRequest.validateClient "app" "old"), Input.advance 2 (env "" true),
    Input.advance 2 (env "" true)]

theorem lateFill_accepted :
    CollisionFree digest ∧ appStore.tables.Keyed ∧
    (service digest 300).machine.Run (Rotations "app" "old" 1) ((service digest 300).start appStore)
      (executed lateFill).1 (executed lateFill).2 ∧
    ¬OldSecretDead "app" "old" 1 (executed lateFill).1 := by
  obtain ⟨hguarded, hrotated, haccepts⟩ :
      (service digest 300).machine.Guarded (Rotations "app" "old" 1) []
          ((service digest 300).start appStore) lateFill ∧
        Rotated "app" 1 ((executed lateFill).1.drop 3) ∧
        2 ∈ ((executed lateFill).1.take 2).filterMap (accepts "app" "old") := by
    decide +kernel
  refine ⟨digest_collisionFree, appStore_keyed, .exec_of_guarded .init lateFill hguarded, ?_⟩
  intro h
  have hsplit : (executed lateFill).1 = (executed lateFill).1.take 2 ++
      .started 2 (.validateClient "app" "old") :: (executed lateFill).1.drop 3 := rfl
  exact h _ 2 _ hsplit hrotated haccepts

/-- The fill arrives before the reset updates the row. -/
def earlyFill : List (Input ClientEnv ClientRequest) :=
  Input.start (ClientRequest.getClient "app") :: List.replicate 5 (Input.advance 0 (env "" true)) ++ reset ++
  Input.start (ClientRequest.validateClient "app" "old") :: List.replicate 3 (Input.advance 2 (env "" true))

theorem rotated_secret_dead_earlyFill :
    Rotated "app" 1 ((executed earlyFill).1.drop 4) ∧
    OldSecretDead "app" "old" 1 (executed earlyFill).1 := by
  obtain ⟨hguarded, hrotated⟩ :
      (service digest 300).machine.Guarded (NoLateFill "app" "old" 1) []
          ((service digest 300).start appStore) earlyFill ∧
        Rotated "app" 1 ((executed earlyFill).1.drop 4) := by
    decide +kernel
  refine ⟨hrotated, ?_⟩
  exact rotated_secret_dead digest digest_collisionFree 300 "app" "old" 1 appStore appStore_keyed
    appStore_confidential _ _ (.exec_of_guarded .init earlyFill hguarded)

end AuthForge.RotatedSecret
