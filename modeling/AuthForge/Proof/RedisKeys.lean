import AuthForge.Storage.RedisClients

/-!
# Which client ids reach their own key

A blank in a client id ends the argument, a NUL ends the text, and a percent sign starts a
conversion: `%%` is read as one sign, and any other conversion asks for a parameter that the call
does not pass. The last byte of a format is copied whatever it is, but the command that validates a
secret goes on behind the id.
-/

namespace AuthForge.Storage.RedisCommands

open CommandFormat

/-- The client id has nothing in it that a format does not copy. -/
def Copied (clientId : Bytes) : Prop := blank ∉ clientId ∧ percent ∉ clientId ∧ 0 ∉ clientId

/-- The same for a format that ends with the client id. -/
def CopiedLast (clientId : Bytes) : Prop :=
  blank ∉ clientId ∧ percent ∉ clientId.dropLast ∧ 0 ∉ clientId

variable {A : Type} {conversion : Conversion A} {clientId clientSecret format : Bytes}

/-- Every command of both repositories for this client reads this client's key only. -/
structure KeysApart {A : Type} (conversion : Conversion A) (clientId clientSecret : Bytes) :
    Prop where
  getClient : ReadsOnly conversion (RedisClientRepository.getClient clientId)
    (hashPrefix ++ clientId)
  validateClient : ReadsOnly conversion
    (RedisClientRepository.validateClient clientId clientSecret) (hashPrefix ++ clientId)
  cachedGetClient : ReadsOnly conversion (RedisCachedClientRepository.getClient clientId)
    (cachePrefix ++ clientId)
  cachedValidateClient : ReadsOnly conversion
    (RedisCachedClientRepository.validateClient clientId) (cachePrefix ++ clientId)

/-! ### Ids that are copied -/

theorem plain_key {keyPrefix : Bytes} (hstart : Plain keyPrefix) (h : Copied clientId) :
    Plain (keyPrefix ++ clientId) :=
  ⟨fun hmem => (List.mem_append.mp hmem).elim hstart.1 h.1,
    fun hmem => (List.mem_append.mp hmem).elim hstart.2 h.2.1⟩

theorem zero_notMem_append {before after : Bytes} (hbefore : 0 ∉ before) (hafter : 0 ∉ after) :
    0 ∉ before ++ after :=
  fun h => (List.mem_append.mp h).elim hbefore hafter

theorem zero_notMem_intercalate {words : List Bytes} (h : ∀ w ∈ words, 0 ∉ w) :
    0 ∉ [blank].intercalate words := by
  induction words with
  | nil => exact List.not_mem_nil
  | cons w words ih =>
    cases words with
    | nil =>
      rw [List.intercalate_singleton]
      exact h w (List.mem_cons_self ..)
    | cons w' words =>
      rw [List.intercalate_cons_cons]
      exact zero_notMem_append (zero_notMem_append (h w (List.mem_cons_self ..)) (by decide))
        (ih fun v hv => h v (List.mem_cons_of_mem _ hv))

/-- A name, a key and further words, all of them copied. -/
theorem formatCommand_named (name keyPrefix : Bytes) (others : List Bytes) (h : Copied clientId)
    (hname : Plain name ∧ name ≠ [] ∧ 0 ∉ name)
    (hstart : Plain keyPrefix ∧ keyPrefix ≠ [] ∧ 0 ∉ keyPrefix)
    (hothers : ∀ w ∈ others, Plain w ∧ w ≠ [] ∧ 0 ∉ w)
    (hformat : format = [blank].intercalate (name :: (keyPrefix ++ clientId) :: others)) :
    formatCommand conversion format [] = some (name :: (keyPrefix ++ clientId) :: others) := by
  rw [hformat]
  have hwords : ∀ w ∈ name :: (keyPrefix ++ clientId) :: others, Plain w ∧ w ≠ [] ∧ 0 ∉ w := by
    rw [List.forall_mem_cons, List.forall_mem_cons]
    refine ⟨hname, ⟨plain_key hstart.1 h, ?_, zero_notMem_append hstart.2.2 h.2.2⟩, hothers⟩
    exact List.append_ne_nil_of_left_ne_nil hstart.2.1 _
  refine formatCommand_words (fun w hw => ⟨(hwords w hw).1, (hwords w hw).2.1⟩) ?_
  exact zero_notMem_intercalate fun w hw => (hwords w hw).2.2

theorem intercalate_key {command name keyPrefix : Bytes}
    (h : command = name ++ [blank] ++ keyPrefix) (clientId : Bytes) :
    command ++ clientId = [blank].intercalate [name, keyPrefix ++ clientId] := by
  rw [h, List.intercalate_cons_cons, List.intercalate_singleton, List.append_assoc]

theorem intercalate_fields {command name keyPrefix field field' tail : Bytes}
    (h : command = name ++ [blank] ++ keyPrefix)
    (htail : tail = [blank] ++ field ++ ([blank] ++ field')) (clientId : Bytes) :
    command ++ clientId ++ tail =
      [blank].intercalate [name, keyPrefix ++ clientId, field, field'] := by
  rw [h, htail, List.intercalate_cons_cons, List.intercalate_cons_cons,
    List.intercalate_cons_cons, List.intercalate_singleton]
  simp only [List.append_assoc]

theorem hashPrefix_plain : Plain hashPrefix ∧ hashPrefix ≠ [] ∧ 0 ∉ hashPrefix := by decide

theorem formatCommand_hmget (h : Copied clientId) (hsecret : clientSecret ≠ []) :
    formatCommand conversion (RedisClientRepository.validateClient clientId clientSecret) [] =
      some [bytes "HMGET", hashPrefix ++ clientId, bytes "secret", bytes "salt"] := by
  rw [RedisClientRepository.validateClient, if_neg hsecret]
  exact formatCommand_named (bytes "HMGET") hashPrefix [bytes "secret", bytes "salt"] h (by decide)
    hashPrefix_plain (by decide) (intercalate_fields (by decide) (by decide) clientId)

/-- A name and a key at the end of the format. -/
theorem formatCommand_last {name command : Bytes} (hname : Plain name ∧ name ≠ [] ∧ 0 ∉ name)
    (hcommand : command = name ++ [blank] ++ hashPrefix) (h : CopiedLast clientId) :
    formatCommand conversion (command ++ clientId) [] =
      some [name, hashPrefix ++ clientId] := by
  obtain ⟨hblank, hpercent, hzero⟩ := h
  obtain ⟨hplain, hne, hnozero⟩ := hashPrefix_plain
  have hformat : command ++ clientId = name ++ blank :: (hashPrefix ++ clientId) := by
    rw [hcommand]
    simp
  rw [hformat]
  refine formatCommand_pair ⟨hname.1, hname.2.1⟩ ?_ ?_ (List.append_ne_nil_of_left_ne_nil hne _) ?_
  · exact fun hmem => (List.mem_append.mp hmem).elim hplain.1 hblank
  · by_cases hnil : clientId = []
    · rw [hnil, List.append_nil]
      exact fun hmem => hplain.2 (List.dropLast_subset _ hmem)
    · rw [List.dropLast_append_of_ne_nil hnil]
      exact fun hmem => (List.mem_append.mp hmem).elim hplain.2 hpercent
  · refine zero_notMem_append hname.2.2 ?_
    exact List.not_mem_cons_of_ne_of_not_mem (by decide) (zero_notMem_append hnozero hzero)

theorem formatCommand_hgetall (h : CopiedLast clientId) :
    formatCommand conversion (RedisClientRepository.getClient clientId) [] =
      some [bytes "HGETALL", hashPrefix ++ clientId] :=
  formatCommand_last (by decide) (by decide) h

theorem formatCommand_exists (h : CopiedLast clientId) :
    formatCommand conversion (RedisClientRepository.validateClient clientId []) [] =
      some [bytes "EXISTS", hashPrefix ++ clientId] :=
  formatCommand_last (by decide) (by decide) h

theorem Copied.last (h : Copied clientId) : CopiedLast clientId :=
  ⟨h.1, fun hmem => h.2.1 (List.dropLast_subset _ hmem), h.2.2⟩

/-- A percent sign at the end of the id is followed by the blank before the fields. -/
theorem formatCommand_hmget_percent (h : CopiedLast clientId) (hpercent : percent ∈ clientId)
    (hsecret : clientSecret ≠ []) :
    formatCommand conversion (RedisClientRepository.validateClient clientId clientSecret) [] =
      none := by
  obtain ⟨hblank, hdropLast, hzero⟩ := h
  have hne : clientId ≠ [] := List.ne_nil_of_mem hpercent
  have hlast : clientId.getLast hne = percent := by
    have hsplit := List.dropLast_append_getLast hne
    rw [← hsplit] at hpercent
    exact (List.mem_singleton.mp ((List.mem_append.mp hpercent).resolve_left hdropLast)).symm
  have hformat : bytes "HMGET oauth2:client:" ++ clientId ++ bytes " secret salt" =
      bytes "HMGET" ++ blank :: (hashPrefix ++ clientId.dropLast ++
        percent :: blank :: bytes "secret salt") := by
    conv_lhs => rw [← List.dropLast_append_getLast hne, hlast]
    rw [(by decide : bytes "HMGET oauth2:client:" = bytes "HMGET" ++ blank :: hashPrefix),
      (by decide : bytes " secret salt" = blank :: bytes "secret salt")]
    simp
  have hnozero : 0 ∉ bytes "HMGET oauth2:client:" ++ clientId ++ bytes " secret salt" :=
    zero_notMem_append (zero_notMem_append (by decide) hzero) (by decide)
  have hword : Plain (hashPrefix ++ clientId.dropLast) :=
    ⟨fun hmem => (List.mem_append.mp hmem).elim hashPrefix_plain.1.1
        fun hmem => hblank (List.dropLast_subset _ hmem),
      fun hmem => (List.mem_append.mp hmem).elim hashPrefix_plain.1.2 hdropLast⟩
  rw [RedisClientRepository.validateClient, if_neg hsecret, formatCommand,
    cString_of_notMem hnozero, hformat, List.length_append, List.length_cons,
    formatLoop_word (by decide) (by decide), formatLoop_blank, List.length_append,
    formatLoop_word hword (List.append_ne_nil_of_left_ne_nil hashPrefix_plain.2.1 _),
    List.length_cons, formatLoop_percentBlank]
  rfl

theorem keysApart_of_copied (h : Copied clientId) (clientSecret : Bytes) :
    KeysApart conversion clientId clientSecret := by
  have hget : ReadsOnly conversion (bytes "GET authforge:cache:client:" ++ clientId)
      (cachePrefix ++ clientId) :=
    ⟨_, formatCommand_named (bytes "GET") cachePrefix [] h (by decide) (by decide)
      (List.forall_mem_nil _) (intercalate_key (by decide) clientId), keysRead_single (.inr rfl)⟩
  refine ⟨?_, ?_, hget, hget⟩
  · exact ⟨_, formatCommand_hgetall h.last, keysRead_single (.inl rfl)⟩
  · by_cases hsecret : clientSecret = []
    · subst hsecret
      exact ⟨_, formatCommand_exists h.last, keysRead_exists⟩
    · exact ⟨_, formatCommand_hmget h hsecret, keysRead_hmget⟩

/-! ### Ids that are not -/

theorem notMem_of_readsOnly {keyPrefix : Bytes} (h : ReadsOnly conversion format
    (keyPrefix ++ clientId)) : blank ∉ clientId ∧ 0 ∉ clientId := by
  obtain ⟨argv, hformat, hkeys⟩ := h
  have hkey : keyPrefix ++ clientId ∈ argv :=
    mem_of_mem_keysRead (hkeys ▸ List.mem_singleton_self _)
  have hbyte : ∀ b ∈ clientId, b ≠ blank ∧ b ≠ 0 := fun b hb =>
    mem_of_formatCommand hformat hkey (List.mem_append_right _ hb)
  exact ⟨fun hmem => (hbyte _ hmem).1 rfl, fun hmem => (hbyte _ hmem).2 rfl⟩

/-- The command that reads secret and salt turns each two percent signs into one, so it reads the
whole id only if there is none. -/
theorem percent_notMem_of_readsOnly (hzero : 0 ∉ clientId)
    (h : ReadsOnly conversion (RedisClientRepository.validateClient clientId [1])
      (hashPrefix ++ clientId)) : percent ∉ clientId := by
  obtain ⟨argv, hformat, hkeys⟩ := h
  have hkey : hashPrefix ++ clientId ∈ argv :=
    mem_of_mem_keysRead (hkeys ▸ List.mem_singleton_self _)
  rw [RedisClientRepository.validateClient, if_neg (by decide)] at hformat
  have hzeros : 0 ∉ bytes "HMGET oauth2:client:" ++ clientId ++ bytes " secret salt" :=
    zero_notMem_append (zero_notMem_append (by decide) hzero) (by decide)
  have hlast : (bytes "HMGET oauth2:client:" ++ clientId ++ bytes " secret salt").getLast? ≠
      some percent := by
    rw [List.getLast?_append_of_ne_nil _ (by decide)]
    decide
  obtain ⟨copies, hcount, -, hnone⟩ := count_of_formatCommand hformat hzeros
  have hcopies := hnone hlast
  have hle : clientId.count percent ≤ argv.flatten.count percent :=
    calc clientId.count percent ≤ (hashPrefix ++ clientId).count percent := by
          rw [List.count_append]
          exact Nat.le_add_left ..
      _ ≤ argv.flatten.count percent :=
          (List.sublist_flatten_of_mem hkey).count_le percent
  rw [List.count_append, List.count_append,
    (by decide : (bytes "HMGET oauth2:client:").count percent = 0),
    (by decide : (bytes " secret salt").count percent = 0)] at hcount
  exact List.count_eq_zero.mp (by omega)

/-- The command for the whole hash gets the key of the client only if the format copies the id. -/
theorem copiedLast_of_hgetall
    (h : formatCommand conversion (RedisClientRepository.getClient clientId) [] =
      some [bytes "HGETALL", hashPrefix ++ clientId]) : CopiedLast clientId := by
  have hkeys : ReadsOnly conversion (RedisClientRepository.getClient clientId)
      (hashPrefix ++ clientId) := ⟨_, h, keysRead_single (.inl rfl)⟩
  obtain ⟨hblank, hzero⟩ := notMem_of_readsOnly hkeys
  refine ⟨hblank, ?_, hzero⟩
  have hzeros : 0 ∉ bytes "HGETALL oauth2:client:" ++ clientId :=
    zero_notMem_append (by decide) hzero
  obtain ⟨copies, hcount, hle, hnone⟩ := count_of_formatCommand h hzeros
  simp only [List.flatten_cons, List.flatten_nil, List.append_nil, List.count_append,
    RedisClientRepository.getClient,
    (by decide : (bytes "HGETALL oauth2:client:").count percent = 0),
    (by decide : (bytes "HGETALL").count percent = 0),
    (by decide : hashPrefix.count percent = 0), Nat.zero_add] at hcount
  rcases List.eq_nil_or_concat clientId with rfl | ⟨init, b, rfl⟩
  · exact List.not_mem_nil
  rw [List.concat_eq_append] at hcount hnone ⊢
  rw [List.dropLast_concat]
  rw [List.count_append, List.count_singleton] at hcount
  by_cases hb : b = percent
  · refine List.count_eq_zero.mp ?_
    simp only [hb, BEq.rfl, if_true] at hcount
    omega
  · have hlast : (bytes "HGETALL oauth2:client:" ++ (init ++ [b])).getLast? ≠ some percent := by
      rw [← List.append_assoc, List.getLast?_concat]
      exact fun h => hb (Option.some.inj h)
    have hcopies := hnone hlast
    exact List.count_eq_zero.mp (by omega)

/-- The commands of both repositories read this client's key and no other, whatever secret is
validated, exactly when the client id has no blank, no percent sign and no NUL. -/
theorem keysApart_iff (conversion : Conversion A) (clientId : Bytes) :
    (∀ clientSecret, KeysApart conversion clientId clientSecret) ↔ Copied clientId := by
  constructor
  · intro h
    obtain ⟨hblank, hzero⟩ := notMem_of_readsOnly (h [1]).getClient
    exact ⟨hblank, percent_notMem_of_readsOnly hzero (h [1]).validateClient, hzero⟩
  · exact fun h => keysApart_of_copied h

/-- No conversion is defined where no parameter is passed. -/
def noParameters : Conversion Unit := fun _ _ => none

/-- An id that names another client's hash behind a blank. -/
def twoNames : Bytes := bytes "nobody oauth2:client:web"

/-- Without a secret, the command counts the key of another client as well. -/
theorem blank_reads_another_client :
    (formatCommand noParameters (RedisClientRepository.validateClient twoNames []) []).map
      keysRead = some [bytes "oauth2:client:nobody", bytes "oauth2:client:web"] ∧
    ¬ KeysApart noParameters twoNames [] := by
  have hread :
      (formatCommand noParameters (RedisClientRepository.validateClient twoNames []) []).map
        keysRead = some [bytes "oauth2:client:nobody", bytes "oauth2:client:web"] := by
    decide +kernel
  refine ⟨hread, fun h => ?_⟩
  obtain ⟨argv, hformat, hkeys⟩ := h.validateClient
  rw [hformat, Option.map_some, hkeys] at hread
  have hlength := congrArg List.length (Option.some.inj hread)
  exact absurd hlength (by decide)

end AuthForge.Storage.RedisCommands
