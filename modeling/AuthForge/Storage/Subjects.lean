import AuthForge.Storage.Memory
import AuthForge.Storage.Postgres
import AuthForge.Storage.Redis

/-!
# The subjects that repositories have on record

A repository makes up no subject: what it hands out names a subject that is on record, and only a
save puts one there. The two ledgers state this for codes and for refresh tokens, and every
repository of this development keeps them.
-/

namespace AuthForge

/-! ### What a run leaves behind -/

/-- Where each call leaves what was there or what it brings itself, a program run alone leaves what
was there or what one of its calls brought. -/
theorem Prog.recorded_eval {Op : Type} {Resp : Op → Type} {ε σ α β : Type}
    {exec : ε → (op : Op) → σ → Resp op × σ} {R : σ → β → Prop} {Q : Op → β → Prop}
    (hexec : ∀ e op s x, R (exec e op s).2 x → R s x ∨ Q op x) {env : Nat → ε} {n : Nat}
    {p : Prog Op Resp α} {s : σ} {x : β} (h : R (Prog.eval exec env n p s).2.1 x) :
    R s x ∨ ∃ op ∈ (Prog.eval exec env n p s).2.2, Q op x := by
  induction p generalizing n s with
  | ret a => exact .inl h
  | call op k ih =>
    rcases ih _ h with hfirst | ⟨op', hmem, hbrought⟩
    · rcases hexec (env n) op s x hfirst with hold | hnew
      · exact .inl hold
      · exact .inr ⟨op, List.mem_cons_self, hnew⟩
    · exact .inr ⟨op', List.mem_cons_of_mem _ hmem, hbrought⟩

namespace Storage

open OAuth2

/-! ### Ledgers -/

/-- The subjects of the codes on record. -/
structure CodeSubjects (g : GrantRepository) where
  onRecord : g.State → String → Prop
  save : ∀ {env c s sub}, onRecord (g.saveAuthCode env c s) sub → onRecord s sub ∨ sub = c.userId
  consumed : ∀ {env k uri s c}, (g.consumeAuthCode env k uri s).1 = some c → onRecord s c.userId
  consume : ∀ {env k uri s sub}, onRecord (g.consumeAuthCode env k uri s).2 sub → onRecord s sub
  purge : ∀ {env s sub}, onRecord (g.purgeExpired env s) sub → onRecord s sub

/-- The subjects of the refresh tokens on record. A pair that is refused leaves no trace. -/
structure TokenSubjects (t : TokenRepository) where
  onRecord : t.State → String → Prop
  save : ∀ {env a r s sub}, onRecord (t.saveTokenPair env a r s).2 sub →
    onRecord s sub ∨ (t.saveTokenPair env a r s).1 = true ∧ sub = r.userId
  rotated : ∀ {env k s rt}, (t.atomicRevokeRefreshToken env k s).1 = some rt → onRecord s rt.userId
  rotate : ∀ {env k s sub}, onRecord (t.atomicRevokeRefreshToken env k s).2 sub → onRecord s sub
  revoke : ∀ {env family s sub}, onRecord (t.revokeTokenFamily env family s) sub → onRecord s sub

theorem CodeSubjects.savedOnly {g : GrantRepository} (codes : CodeSubjects g) (sub : String) :
    SavedOnly g fun s => codes.onRecord s sub :=
  ⟨codes.consume, codes.purge⟩

variable {repos : Repositories} {sub : String}

theorem TokenSubjects.exec (tokens : TokenSubjects repos.tokens) {env : Env} {op : RepoCall}
    {s : Store repos} (h : tokens.onRecord (Store.exec env op s).2.tokens sub) :
    tokens.onRecord s.tokens sub ∨
      ∃ access refresh, op = .saveTokenPair access refresh ∧ sub = refresh.userId := by
  cases op with
  | saveTokenPair access refresh =>
    rcases tokens.save h with hold | ⟨-, hnew⟩
    · exact .inl hold
    · exact .inr ⟨access, refresh, rfl, hnew⟩
  | atomicRevokeRefreshToken token => exact .inl (tokens.rotate h)
  | revokeTokenFamily family => exact .inl (tokens.revoke h)
  | _ => exact .inl h

/-- After a program of the token service, the subjects on record were there before or came with a
pair that it saved. -/
theorem TokenSubjects.eval (tokens : TokenSubjects repos.tokens) {env : Nat → Env} {p : RepoProg}
    {s : Store repos} (h : tokens.onRecord (Prog.eval Store.exec env 0 p s).2.1.tokens sub) :
    tokens.onRecord s.tokens sub ∨
      ∃ access refresh, .saveTokenPair access refresh ∈ (Prog.eval Store.exec env 0 p s).2.2 ∧
        sub = refresh.userId := by
  have hexec : ∀ (e : Env) (op : RepoCall) (t : Store repos) (x : String),
      tokens.onRecord (Store.exec e op t).2.tokens x → tokens.onRecord t.tokens x ∨
        ∃ access refresh, op = .saveTokenPair access refresh ∧ x = refresh.userId :=
    fun _ _ _ _ h => tokens.exec h
  rcases Prog.recorded_eval (R := fun (t : Store repos) x => tokens.onRecord t.tokens x) hexec h with
    hold | ⟨_, hmem, access, refresh, rfl, hsub⟩
  · exact .inl hold
  · exact .inr ⟨access, refresh, hmem, hsub⟩

/-! ### Grants -/

/-- A repository whose ledger has a record for everything that it hands out. -/
def CodeSubjects.ofLedger {g : GrantRepository} (ledger : CodeLedger g)
    (hhanded : ∀ {env k uri s c}, (g.consumeAuthCode env k uri s).1 = some c →
      ledger.stored s k = some (c.userId, c.amr)) : CodeSubjects g where
  onRecord s sub := ∃ k amr, ledger.stored s k = some (sub, amr)
  save := by
    intro env c s sub h
    obtain ⟨k, amr, hstored⟩ := h
    rcases ledger.save hstored with hold | ⟨-, hnew⟩
    · exact .inl ⟨k, amr, hold⟩
    · exact .inr (Prod.mk.inj hnew).1
  consumed h := ⟨_, _, hhanded h⟩
  consume h := by
    obtain ⟨k, amr, hstored⟩ := h
    exact ⟨k, amr, ledger.consume hstored⟩
  purge h := by
    obtain ⟨k, amr, hstored⟩ := h
    exact ⟨k, amr, ledger.purge hstored⟩

def Memory.codeSubjects : CodeSubjects Memory.grantRepository :=
  .ofLedger Memory.codeLedger fun h => Memory.recorded_of_consumed h

def Postgres.codeSubjects : CodeSubjects Postgres.grantRepository :=
  .ofLedger Postgres.codeLedger fun h => Postgres.recorded_of_consumed h

namespace Redis

/-- Some key holds a JSON object with the subject. -/
def storesSubject (s : Keyspace) (sub : String) : Prop :=
  ∃ key e, s.lookup key = some e ∧ e.value.asString "user_id" = sub

variable {now : Int} {key : String} {s : Keyspace}

theorem storesSubject_insert {e : Entry} (h : storesSubject (s.insert key e) sub) :
    storesSubject s sub ∨ sub = e.value.asString "user_id" := by
  obtain ⟨k, e', hlookup, hsub⟩ := h
  by_cases hk : k = key
  · subst hk
    rw [AList.lookup_insert] at hlookup
    obtain rfl := Option.some.inj hlookup
    exact .inr hsub.symm
  · rw [AList.lookup_insert_ne hk] at hlookup
    exact .inl ⟨k, e', hlookup, hsub⟩

theorem storesSubject_of_get {json : Json} (h : get now key s = some json) :
    storesSubject s (json.asString "user_id") := by
  unfold get at h
  split at h
  · cases h
  · rename_i e hlookup
    split at h
    · cases h
      exact ⟨key, e, hlookup, rfl⟩
    · split at h
      · cases h
        exact ⟨key, e, hlookup, rfl⟩
      · cases h

theorem lookup_map_replace (json : Json) {name other : String} (value : Scalar)
    (hne : other ≠ name) :
    (json.map fun f => if f.1 = name then (name, value) else f).lookup other = json.lookup other := by
  induction json with
  | nil => rfl
  | cons f json ih =>
    rw [List.map_cons]
    obtain ⟨field, old⟩ := f
    by_cases hf : field = name
    · subst hf
      rw [if_pos rfl, List.lookup_cons, List.lookup_cons, ih, beq_eq_false_iff_ne.mpr hne]
    · rw [if_neg hf, List.lookup_cons, List.lookup_cons, ih]

theorem asString_set (json : Json) {name other : String} (value : Scalar) (hne : other ≠ name) :
    (json.set name value).asString other = json.asString other := by
  have hlookup : (json.set name value).lookup other = json.lookup other := by
    unfold Json.set
    split
    · exact lookup_map_replace json value hne
    · rw [List.lookup_append, List.lookup_cons, beq_eq_false_iff_ne.mpr hne]
      exact Option.or_none
  unfold Json.asString
  rw [hlookup]

theorem storesSubject_saveAuthCode {env : Env} {c : OAuth2AuthCode}
    (h : storesSubject (saveAuthCode env c s) sub) : storesSubject s sub ∨ sub = c.userId := by
  unfold saveAuthCode at h
  split at h
  · exact .inl h
  · exact storesSubject_insert h

/-- A consumed code was read from a stored object, and what is written back has its subject. -/
theorem storesSubject_consumeScript {redirectUri : String}
    (h : storesSubject (consumeScript now key redirectUri s).2 sub) : storesSubject s sub := by
  unfold consumeScript at h
  split at h
  · exact h
  · rename_i json hget
    split at h
    · exact h
    split at h
    · exact h
    have hread := storesSubject_of_get hget
    have hset : ∀ {e : Entry}, e.value = json.set "used" (.bool true) →
        storesSubject (s.insert key e) sub → storesSubject s sub := by
      intro e hvalue hinsert
      rcases storesSubject_insert hinsert with hold | hnew
      · exact hold
      · rw [hnew, hvalue, asString_set json _ (by decide)]
        exact hread
    dsimp only at h
    split at h
    · exact hset rfl h
    · exact hset rfl h

theorem storesSubject_of_consumeScript {redirectUri : String} {json : Json}
    (h : (consumeScript now key redirectUri s).1 = some json) :
    storesSubject s (json.asString "user_id") := by
  unfold consumeScript at h
  split at h
  · cases h
  · rename_i json hget
    split at h
    · cases h
    split at h
    · cases h
    obtain rfl := Option.some.inj h
    rw [asString_set json _ (by decide)]
    exact storesSubject_of_get hget

def codeSubjects : CodeSubjects grantRepository where
  onRecord := storesSubject
  save h := storesSubject_saveAuthCode h
  consumed := by
    intro env k uri s c h
    change (consumeAuthCode env k uri s).1 = some c at h
    unfold consumeAuthCode at h
    split at h
    · cases h
    · obtain ⟨json, hjson, rfl⟩ := Option.map_eq_some_iff.mp h
      exact storesSubject_of_consumeScript hjson
  consume := by
    intro env k uri s sub h
    change storesSubject (consumeAuthCode env k uri s).2 sub at h
    unfold consumeAuthCode at h
    split at h
    · exact h
    · exact storesSubject_consumeScript h
  purge h := h

end Redis

/-! ### Refresh tokens -/

/-- The subjects of a table of refresh tokens. -/
def tableSubject (table : Dict String OAuth2RefreshToken) (sub : String) : Prop :=
  ∃ k rt, table.lookup k = some rt ∧ rt.userId = sub

variable {table : Dict String OAuth2RefreshToken}

theorem tableSubject_insert {k : String} {rt : OAuth2RefreshToken}
    (h : tableSubject (table.insert k rt) sub) : tableSubject table sub ∨ sub = rt.userId := by
  obtain ⟨k', rt', hlookup, hsub⟩ := h
  by_cases hk : k' = k
  · subst hk
    rw [AList.lookup_insert] at hlookup
    obtain rfl := Option.some.inj hlookup
    exact .inr hsub.symm
  · rw [AList.lookup_insert_ne hk] at hlookup
    exact .inl ⟨k', rt', hlookup, hsub⟩

theorem tableSubject_mapValues {f : String → OAuth2RefreshToken → OAuth2RefreshToken}
    (hf : ∀ k rt, (f k rt).userId = rt.userId) (h : tableSubject (table.mapValues f) sub) :
    tableSubject table sub := by
  obtain ⟨k, rt, hlookup, rfl⟩ := h
  rw [Dict.lookup_mapValues] at hlookup
  obtain ⟨rt', hlookup', rfl⟩ := Option.map_eq_some_iff.mp hlookup
  exact ⟨k, rt', hlookup', (hf k rt').symm⟩

/-- A row that is written back as it was read brings no new subject. -/
theorem tableSubject_rewrite {k : String} {rt it : OAuth2RefreshToken}
    (hlookup : table.lookup k = some it) (hsame : rt.userId = it.userId)
    (h : tableSubject (table.insert k rt) sub) : tableSubject table sub := by
  rcases tableSubject_insert h with hold | rfl
  · exact hold
  · exact ⟨k, it, hlookup, hsame.symm⟩

def Memory.tokenSubjects : TokenSubjects Memory.tokenRepository where
  onRecord s := tableSubject s.refreshTokens
  save := by
    intro env a r s sub h
    rcases tableSubject_insert h with hold | hnew
    · exact .inl hold
    · exact .inr ⟨rfl, hnew⟩
  rotated h := by
    obtain ⟨it, hlookup, -, rfl, -⟩ := Memory.atomicRevokeRefreshToken_eq_some h
    exact ⟨_, it, hlookup, rfl⟩
  rotate := by
    intro env k s sub h
    change tableSubject (Memory.atomicRevokeRefreshToken k s).2.refreshTokens sub at h
    cases hrotated : (Memory.atomicRevokeRefreshToken k s).1 with
    | none => rwa [Memory.atomicRevokeRefreshToken_eq_none hrotated] at h
    | some rt =>
      obtain ⟨it, hlookup, -, rfl, hafter⟩ := Memory.atomicRevokeRefreshToken_eq_some hrotated
      rw [hafter] at h
      refine tableSubject_rewrite hlookup ?_ h
      rfl
  revoke := by
    intro env family s sub h
    refine tableSubject_mapValues ?_ h
    intro _ rt
    split <;> rfl

theorem Postgres.tableSubject_revokeTokenFamily {env : Env} {family : String} {s : TokenTables}
    (h : tableSubject (revokeTokenFamily env family s).oauth2RefreshTokens sub) :
    tableSubject s.oauth2RefreshTokens sub := by
  unfold revokeTokenFamily at h
  split at h
  · exact h
  · refine tableSubject_mapValues ?_ h
    intro _ rt
    split <;> rfl

def Postgres.tokenSubjects : TokenSubjects Postgres.tokenRepository where
  onRecord s := tableSubject s.oauth2RefreshTokens
  save := by
    intro env a r s sub h
    change tableSubject (Postgres.saveTokenPair env a r s).2.oauth2RefreshTokens sub at h
    change _ ∨ (Postgres.saveTokenPair env a r s).1 = true ∧ _
    unfold Postgres.saveTokenPair at h ⊢
    split at h
    · exact .inl h
    · rename_i hsaves
      rw [if_neg hsaves]
      rcases tableSubject_insert h with hold | hnew
      · exact .inl hold
      · exact .inr ⟨rfl, hnew⟩
  rotated h := by
    obtain ⟨it, hlookup, -, rfl, -⟩ := Postgres.atomicRevokeRefreshToken_won h
    exact ⟨_, it, hlookup, rfl⟩
  rotate := by
    intro env k s sub h
    change tableSubject (Postgres.atomicRevokeRefreshToken env k s).2.oauth2RefreshTokens sub at h
    cases hrotated : (Postgres.atomicRevokeRefreshToken env k s).1 with
    | none => rwa [Postgres.atomicRevokeRefreshToken_lost hrotated] at h
    | some rt =>
      obtain ⟨it, hlookup, -, -, hafter⟩ := Postgres.atomicRevokeRefreshToken_won hrotated
      rw [hafter] at h
      refine tableSubject_rewrite hlookup ?_ h
      rfl
  revoke h := Postgres.tableSubject_revokeTokenFamily h

end Storage

end AuthForge
