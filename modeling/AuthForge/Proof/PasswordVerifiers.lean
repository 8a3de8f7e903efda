import AuthForge.Identity.Password

/-!
# Two readers of one password column

The identity service and `PasswordHasher` read the same stored hashes. What either writes, both
read alike; on other strings they differ in the digits they know, in the lengths they compare, and
where the iterations are not a number.
-/

namespace AuthForge.PasswordVerifiers

open Identity

/-- Key derivation gives as many bytes as it is asked for, and may only fail for counts that are not
positive. -/
def Derives (crypto : IdentityCrypto) : Prop :=
  ∀ password salt iterations,
    (crypto.pbkdf2HmacSha256 password salt iterations kPbkdf2KeyLength).length = kPbkdf2KeyLength ∨
      (crypto.pbkdf2HmacSha256 password salt iterations kPbkdf2KeyLength = [] ∧ iterations ≤ 0)

/-- Both decoders read the same bytes in a field. -/
def SameBytes (field : String) : Prop :=
  PasswordHasher.hexToBytes (bytes field) = hexToBytes (bytes field)

/-- The stored hash reads alike: an old digest, or a text without the four fields, or one with a
number of iterations and, where its hash field has the length of a key, the same bytes in salt and
hash, and where it has no byte, iterations for which no derivation fails. -/
def ReadsAlike (storedHash : String) : Prop :=
  isLegacyHash storedHash = false → ∀ tag iterationsText saltHex hashHex,
    splitNonEmpty '$' storedHash = [tag, iterationsText, saltHex, hashHex] →
    ∃ iterations, stoi iterationsText = some iterations ∧
      (byteLength hashHex / 2 = kPbkdf2KeyLength → SameBytes saltHex ∧ SameBytes hashHex) ∧
      (byteLength hashHex / 2 = 0 → 0 < iterations)

/-! ### The decoders -/

theorem length_hexToBytes : ∀ hex : List UInt8, (hexToBytes hex).length = hex.length / 2
  | [] => rfl
  | [_] => by simp [hexToBytes]
  | _ :: _ :: rest => by
    rw [hexToBytes, List.length_cons, length_hexToBytes rest, List.length_cons, List.length_cons]
    omega

theorem length_hasher_hexToBytes :
    ∀ hex : List UInt8, (PasswordHasher.hexToBytes hex).length = hex.length / 2
  | [] => rfl
  | [_] => by simp [PasswordHasher.hexToBytes]
  | _ :: _ :: rest => by
    rw [PasswordHasher.hexToBytes, List.length_cons, length_hasher_hexToBytes rest,
      List.length_cons, List.length_cons]
    omega

variable {crypto : IdentityCrypto} {password storedHash legacySalt tag iterationsText saltHex
  hashHex : String} {iterations : Int}

/-! ### The verifiers on four fields -/

theorem verifyPassword_eq (hlegacy : isLegacyHash storedHash = false)
    (hparts : splitNonEmpty '$' storedHash = [tag, iterationsText, saltHex, hashHex])
    (hiterations : stoi iterationsText = some iterations) :
    verifyPassword crypto password storedHash legacySalt =
      decide (crypto.pbkdf2HmacSha256 password (hexToBytes (bytes saltHex)) iterations
        kPbkdf2KeyLength = hexToBytes (bytes hashHex)) := by
  rw [verifyPassword, hlegacy, if_neg (by decide), hparts]
  dsimp only
  rw [hiterations]
  dsimp only
  rw [← Bool.decide_and, decide_eq_decide]
  exact ⟨And.right, fun h => ⟨congrArg List.length h, h⟩⟩

theorem verify_eq (hlegacy : isLegacyHash storedHash = false)
    (hparts : splitNonEmpty '$' storedHash = [tag, iterationsText, saltHex, hashHex])
    (hiterations : stoi iterationsText = some iterations) :
    PasswordHasher.verify crypto password storedHash legacySalt =
      some (decide (byteLength hashHex / 2 = kPbkdf2KeyLength ∧
        crypto.pbkdf2HmacSha256 password (PasswordHasher.hexToBytes (bytes saltHex)) iterations
          kPbkdf2KeyLength = PasswordHasher.hexToBytes (bytes hashHex))) := by
  have hlength : (PasswordHasher.hexToBytes (bytes hashHex)).length = byteLength hashHex / 2 := by
    rw [length_hasher_hexToBytes, byteLength_eq_length_bytes]
  rw [PasswordHasher.verify, PasswordHasher.needsRehash, hlegacy, if_neg (by decide), hparts]
  dsimp only
  rw [hiterations]
  dsimp only
  rw [hlength, ← Bool.decide_and, ← Bool.decide_and, Option.some.injEq, decide_eq_decide]
  constructor
  · exact fun h => ⟨h.1.2, h.2⟩
  · rintro ⟨hkey, heq⟩
    refine ⟨⟨?_, hkey⟩, heq⟩
    intro hempty
    rw [← heq, hempty] at hlength
    rw [hkey] at hlength
    cases hlength

/-! ### When they agree -/

theorem agree_of_readsAlike (hderives : Derives crypto) (h : ReadsAlike storedHash) :
    PasswordHasher.verify crypto password storedHash legacySalt =
      some (verifyPassword crypto password storedHash legacySalt) := by
  cases hlegacy : isLegacyHash storedHash with
  | true =>
    rw [PasswordHasher.verify, PasswordHasher.needsRehash, verifyPassword, hlegacy, if_pos rfl,
      if_pos rfl]
  | false =>
    by_cases hfour : ∃ tag iterationsText saltHex hashHex,
        splitNonEmpty '$' storedHash = [tag, iterationsText, saltHex, hashHex]
    · obtain ⟨tag, iterationsText, saltHex, hashHex, hparts⟩ := hfour
      obtain ⟨iterations, hiterations, hkey, hempty⟩ := h hlegacy _ _ _ _ hparts
      rw [verifyPassword_eq hlegacy hparts hiterations, verify_eq hlegacy hparts hiterations,
        Option.some.injEq, decide_eq_decide]
      have hlength : (hexToBytes (bytes hashHex)).length = byteLength hashHex / 2 := by
        rw [length_hexToBytes, byteLength_eq_length_bytes]
      by_cases hthis : byteLength hashHex / 2 = kPbkdf2KeyLength
      · obtain ⟨hsalt, hhash⟩ := hkey hthis
        rw [hsalt, hhash]
        exact ⟨And.right, fun heq => ⟨hthis, heq⟩⟩
      · refine iff_of_false (fun heq => hthis heq.1) ?_
        intro heq
        rcases hderives password (hexToBytes (bytes saltHex)) iterations with hfull | ⟨hnone, hle⟩
        · rw [heq, hlength] at hfull
          exact hthis hfull
        · rw [← heq, hnone] at hlength
          have hpos := hempty hlength.symm
          omega
    · rw [PasswordHasher.verify, PasswordHasher.needsRehash, verifyPassword, hlegacy,
        if_neg (by decide), if_neg (by decide)]
      split
      · rename_i hparts
        exact absurd ⟨_, _, _, _, hparts⟩ hfour
      · rfl

/-- A derivation that gives `key` under one salt and another key under every other salt, and that
fails for counts that are not positive if it may. -/
def choosing (salt key other : List UInt8) (fails : Bool) : IdentityCrypto where
  sha256Hex := id
  pbkdf2HmacSha256 _ s iterations _ :=
    if fails = true ∧ iterations ≤ 0 then [] else if s = salt then key else other
  hmacSha1 _ _ := []

theorem derives_choosing {salt key other : List UInt8} {fails : Bool}
    (hkey : key.length = kPbkdf2KeyLength) (hother : other.length = kPbkdf2KeyLength) :
    Derives (choosing salt key other fails) := by
  intro _ s iterations
  dsimp only [choosing]
  split
  · rename_i h
    exact .inr ⟨rfl, h.2⟩
  · split
    · exact .inl hkey
    · exact .inl hother

theorem exists_other_key (key : List UInt8) :
    ∃ other : List UInt8, other.length = kPbkdf2KeyLength ∧ other ≠ key := by
  by_cases h : key = List.replicate kPbkdf2KeyLength 0
  · refine ⟨List.replicate kPbkdf2KeyLength 1, List.length_replicate, ?_⟩
    rw [h]
    decide
  · exact ⟨List.replicate kPbkdf2KeyLength 0, List.length_replicate, Ne.symm h⟩

theorem readsAlike_of_agree
    (h : ∀ crypto, Derives crypto → ∀ password legacySalt,
      PasswordHasher.verify crypto password storedHash legacySalt =
        some (verifyPassword crypto password storedHash legacySalt)) : ReadsAlike storedHash := by
  intro hlegacy tag iterationsText saltHex hashHex hparts
  have hzeros : Derives (choosing [] (List.replicate 32 0) (List.replicate 32 0) true) :=
    derives_choosing rfl rfl
  cases hiterations : stoi iterationsText with
  | none =>
    -- Here the older path throws.
    have hnone := h _ hzeros "" ""
    rw [PasswordHasher.verify, PasswordHasher.needsRehash, hlegacy, if_neg (by decide),
      hparts] at hnone
    dsimp only at hnone
    rw [hiterations] at hnone
    cases hnone
  | some iterations =>
    have hboth (crypto : IdentityCrypto) (hderives : Derives crypto) := h crypto hderives "" ""
    simp only [verifyPassword_eq hlegacy hparts hiterations, verify_eq hlegacy hparts hiterations,
      Option.some.injEq, decide_eq_decide] at hboth
    have hlength : (hexToBytes (bytes hashHex)).length = byteLength hashHex / 2 := by
      rw [length_hexToBytes, byteLength_eq_length_bytes]
    refine ⟨iterations, rfl, ?_, ?_⟩
    · intro hkey
      obtain ⟨other, hother, hne⟩ := exists_other_key (PasswordHasher.hexToBytes (bytes hashHex))
      have hthis := hboth (choosing (hexToBytes (bytes saltHex)) (hexToBytes (bytes hashHex)) other
        false) (derives_choosing (hlength.trans hkey) hother)
      simp only [choosing, Bool.false_eq_true, false_and, if_false, if_true, iff_true] at hthis
      obtain ⟨-, heq⟩ := hthis
      split at heq
      · rename_i hsalt
        exact ⟨hsalt, heq.symm⟩
      · exact absurd heq hne
    · intro hempty
      by_contra hle
      have hthis := hboth _ hzeros
      simp only [choosing, true_and, if_pos (Int.not_lt.mp hle)] at hthis
      have hnil : hexToBytes (bytes hashHex) = [] := by
        rw [List.eq_nil_iff_length_eq_zero, hlength, hempty]
      have hkey := (hthis.mpr hnil.symm).1
      rw [hempty] at hkey
      cases hkey

/-- Both verifiers answer alike, and neither throws, for every derivation and password exactly where
the stored hash reads alike. -/
theorem verifiers_agree_iff (storedHash : String) :
    (∀ crypto, Derives crypto → ∀ password legacySalt,
      PasswordHasher.verify crypto password storedHash legacySalt =
        some (verifyPassword crypto password storedHash legacySalt)) ↔ ReadsAlike storedHash :=
  ⟨readsAlike_of_agree, fun h _ hderives _ _ => agree_of_readsAlike hderives h⟩

/-- Where the iterations are not a number, the older path throws and the identity service refuses. -/
theorem verify_throws :
    ¬∀ (crypto : IdentityCrypto) (password storedHash legacySalt : String), Derives crypto →
      PasswordHasher.verify crypto password storedHash legacySalt =
        some (verifyPassword crypto password storedHash legacySalt) := by
  intro hclaim
  have hagree := hclaim _ "hunter2" "$pbkdf2-sha256$many$00$00" ""
    (show Derives (choosing [] (List.replicate 32 0) (List.replicate 32 0) false) from
      derives_choosing rfl rfl)
  revert hagree
  decide

/-! ### Fresh hashes -/

theorem digit_hexDigit {n : Nat} (hn : n < 16) :
    ∃ b, String.utf8EncodeChar (hexDigit n) = [b] ∧ PasswordHasher.digit b = n := by
  have hall : ∀ n < 16, (String.utf8EncodeChar (hexDigit n)).length = 1 ∧
      (String.utf8EncodeChar (hexDigit n)).map PasswordHasher.digit = [(n : Int)] := by
    decide
  obtain ⟨hlength, hdigit⟩ := hall n hn
  obtain ⟨b, hb⟩ := List.length_eq_one_iff.mp hlength
  rw [hb] at hdigit ⊢
  exact ⟨b, rfl, (List.cons.inj hdigit).1⟩

theorem byte_of_digits {hi lo : Nat} (hhi : hi < 16) (hlo : lo < 16) :
    (BitVec.ofInt 32 hi <<< 4 ||| BitVec.ofInt 32 lo).toNat = hi * 16 + lo := by
  have hall : ∀ hi < 16, ∀ lo < 16,
      (BitVec.ofInt 32 (hi : Nat) <<< 4 ||| BitVec.ofInt 32 (lo : Nat)).toNat = hi * 16 + lo := by
    decide
  exact hall hi hhi lo hlo

theorem hasher_hexToBytes_bytesToHex (data : List UInt8) :
    PasswordHasher.hexToBytes (bytes (bytesToHex data)) = data := by
  rw [bytes, toList_bytesToHex]
  induction data with
  | nil => rfl
  | cons b data ih =>
    have hb := b.toNat_lt
    obtain ⟨hi, hhi, hhi'⟩ := digit_hexDigit (n := b.toNat / 16) (by omega)
    obtain ⟨lo, hlo, hlo'⟩ := digit_hexDigit (n := b.toNat % 16) (by omega)
    rw [List.flatMap_cons, List.flatMap_append, List.flatMap_cons, List.flatMap_cons, hhi, hlo,
      List.flatMap_nil, List.append_nil, List.singleton_append, List.cons_append,
      List.singleton_append, PasswordHasher.hexToBytes, ih, hhi', hlo',
      byte_of_digits (by omega) (by omega), Nat.div_add_mod', UInt8.ofNat_toNat]

theorem bytesToHex_ne_empty {data : List UInt8} (h : data ≠ []) : bytesToHex data ≠ "" := by
  intro hempty
  have hnil := hexToBytes_bytesToHex data
  rw [hempty] at hnil
  exact h hnil.symm

/-- What is written for a salt and a key. -/
def freshHash (salt key : List UInt8) : String :=
  pbkdf2Tag ++ toString kPbkdf2Iterations ++ "$" ++ bytesToHex salt ++ "$" ++ bytesToHex key

theorem parts_freshHash {salt key : List UInt8} (hsalt : salt ≠ []) (hkey : key ≠ []) :
    splitNonEmpty '$' (freshHash salt key) =
      ["pbkdf2-sha256", "310000", bytesToHex salt, bytesToHex key] := by
  unfold freshHash
  rw [splitNonEmpty_freshHash _ _ (dollar_notMem_bytesToHex _) (dollar_notMem_bytesToHex _),
    List.filter_cons_of_pos (by simpa using bytesToHex_ne_empty hsalt),
    List.filter_cons_of_pos (by simpa using bytesToHex_ne_empty hkey), List.filter_nil]
  rfl

theorem isLegacyHash_freshHash (salt key : List UInt8) : isLegacyHash (freshHash salt key) = false := by
  unfold isLegacyHash freshHash
  simp only [String.toList_append, List.append_assoc]
  rw [List.isPrefixOf_iff_prefix.mpr (List.prefix_append _ _)]
  rfl

theorem stoi_iterations : stoi "310000" = some kPbkdf2Iterations := by decide

theorem verifyPassword_freshHash {salt key : List UInt8} (hsalt : salt ≠ []) (hkey : key ≠ []) :
    verifyPassword crypto password (freshHash salt key) legacySalt =
      decide (crypto.pbkdf2HmacSha256 password salt kPbkdf2Iterations kPbkdf2KeyLength = key) := by
  rw [verifyPassword_eq (isLegacyHash_freshHash salt key) (parts_freshHash hsalt hkey)
    stoi_iterations, hexToBytes_bytesToHex, hexToBytes_bytesToHex]

theorem verify_freshHash {salt key : List UInt8} (hsalt : salt ≠ [])
    (hkey : key.length = kPbkdf2KeyLength) :
    PasswordHasher.verify crypto password (freshHash salt key) legacySalt =
      some (decide
        (crypto.pbkdf2HmacSha256 password salt kPbkdf2Iterations kPbkdf2KeyLength = key)) := by
  have hne : key ≠ [] := by
    rintro rfl
    cases hkey
  have hlength : byteLength (bytesToHex key) / 2 = kPbkdf2KeyLength := by
    rw [byteLength_eq_length_bytes, ← length_hexToBytes, hexToBytes_bytesToHex, hkey]
  rw [verify_eq (isLegacyHash_freshHash salt key) (parts_freshHash hsalt hne) stoi_iterations,
    hasher_hexToBytes_bytesToHex, hasher_hexToBytes_bytesToHex, Option.some.injEq, decide_eq_decide]
  exact ⟨And.right, fun h => ⟨hlength, h⟩⟩

/-- Both producers write the same hash, both verifiers accept it for the password, and they accept it
for another password only if that one has the same key under the salt. -/
theorem hashes_interchangeable (crypto : IdentityCrypto)
    (hderives : ∀ password salt iterations,
      (crypto.pbkdf2HmacSha256 password salt iterations kPbkdf2KeyLength).length =
        kPbkdf2KeyLength)
    (password legacySalt : String) (salt : List UInt8) (hsalt : salt.length = 16) :
    ∃ hash, hashPassword crypto password salt = some hash ∧
      PasswordHasher.hash crypto password salt = some hash ∧
      verifyPassword crypto password hash legacySalt = true ∧
      PasswordHasher.verify crypto password hash legacySalt = some true ∧
      ∀ other, (verifyPassword crypto other hash legacySalt = true ∨
          PasswordHasher.verify crypto other hash legacySalt = some true) →
        crypto.pbkdf2HmacSha256 other salt kPbkdf2Iterations kPbkdf2KeyLength =
          crypto.pbkdf2HmacSha256 password salt kPbkdf2Iterations kPbkdf2KeyLength := by
  have hne : salt ≠ [] := by
    rintro rfl
    cases hsalt
  have hlength := hderives password salt kPbkdf2Iterations
  have hkey : crypto.pbkdf2HmacSha256 password salt kPbkdf2Iterations kPbkdf2KeyLength ≠ [] := by
    intro hnil
    rw [hnil] at hlength
    cases hlength
  refine ⟨freshHash salt (crypto.pbkdf2HmacSha256 password salt kPbkdf2Iterations kPbkdf2KeyLength),
    ?_, ?_, ?_, ?_, ?_⟩
  · rw [hashPassword]
    exact if_neg (not_not_intro hlength)
  · rw [PasswordHasher.hash]
    exact if_neg hkey
  · rw [verifyPassword_freshHash hne hkey, decide_eq_true_eq]
  · rw [verify_freshHash hne hlength, decide_eq_true rfl]
  · intro other haccepted
    rw [verifyPassword_freshHash hne hkey, verify_freshHash hne hlength, Option.some.injEq, or_self,
      decide_eq_true_eq] at haccepted
    exact haccepted

/-- A key of the first byte of the password. -/
def firstByteKey : IdentityCrypto where
  sha256Hex := id
  pbkdf2HmacSha256 password _ _ keyLength := List.replicate keyLength ((bytes password).headD 0)
  hmacSha1 _ _ := []

theorem hashes_interchangeable_hunter2 :
    ∃ hash, PasswordHasher.hash firstByteKey "hunter2" (List.replicate 16 255) = some hash ∧
      verifyPassword firstByteKey "hunter2" hash "" = true ∧
      PasswordHasher.verify firstByteKey "swordfish" hash "" ≠ some true := by
  obtain ⟨hash, -, hhash, hverify, -, hother⟩ := hashes_interchangeable firstByteKey
    (fun _ _ _ => List.length_replicate) "hunter2" "" (List.replicate 16 255) (by decide)
  refine ⟨hash, hhash, hverify, ?_⟩
  intro haccepted
  have hkeys := hother "swordfish" (.inr haccepted)
  revert hkeys
  decide

end AuthForge.PasswordVerifiers
