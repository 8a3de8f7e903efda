import AuthForge.Base.Text

/-!
# Stored passwords

The two password verifiers of the source: the one inside the identity service and
`PasswordHasher`, which the older login path uses. Both read the format
`$pbkdf2-sha256$<iterations>$<hex-salt>$<hex-hash>` and fall back to a salted SHA-256 digest.
Digest and key derivation are ports.
-/

namespace AuthForge.Identity

structure IdentityCrypto where
  sha256Hex : String → String
  /-- Password, salt, iterations, key length; empty when the derivation fails. -/
  pbkdf2HmacSha256 : String → List UInt8 → Int → Nat → List UInt8
  hmacSha1 : List UInt8 → List UInt8 → List UInt8

def kPbkdf2Iterations : Int := 310000
def kPbkdf2KeyLength : Nat := 32

def pbkdf2Tag : String := "$pbkdf2-sha256$"

def hexChars : List Char := "0123456789abcdef".toList

def bytesToHex (data : List UInt8) : String :=
  String.ofList (data.flatMap fun b =>
    [hexChars.getD (b.toNat / 16) '0', hexChars.getD (b.toNat % 16) '0'])

def isLegacyHash (storedHash : String) : Bool :=
  !(pbkdf2Tag.toList.isPrefixOf storedHash.toList)

def lower (s : String) : String := String.ofList (s.toList.map Char.toLower)

def legacyDigestMatches (crypto : IdentityCrypto) (password storedHash salt : String) : Bool :=
  let inputHash := crypto.sha256Hex (password ++ salt)
  byteLength inputHash = byteLength storedHash && lower inputHash = lower storedHash

/-! ### The identity service -/

def nibble (c : UInt8) : Nat :=
  let n := c.toNat
  if 48 ≤ n ∧ n ≤ 57 then n - 48
  else if 97 ≤ n ∧ n ≤ 102 then n - 97 + 10
  else if 65 ≤ n ∧ n ≤ 70 then n - 65 + 10
  else 0

def hexToBytes : List UInt8 → List UInt8
  | hi :: lo :: rest => UInt8.ofNat (nibble hi * 16 + nibble lo) :: hexToBytes rest
  | _ => []

def verifyPassword (crypto : IdentityCrypto) (password storedHash legacySalt : String) : Bool :=
  if isLegacyHash storedHash then legacyDigestMatches crypto password storedHash legacySalt
  else
    match splitNonEmpty '$' storedHash with
    | [_, iterationsText, saltHex, hashHex] =>
      match stoi iterationsText with
      | none => false
      | some iterations =>
        let expectedHash := hexToBytes (bytes hashHex)
        let derived := crypto.pbkdf2HmacSha256 password (hexToBytes (bytes saltHex)) iterations
          kPbkdf2KeyLength
        derived.length = expectedHash.length && derived = expectedHash
    | _ => false

def hashPassword (crypto : IdentityCrypto) (password : String) (salt : List UInt8) :
    Option String :=
  let derived := crypto.pbkdf2HmacSha256 password salt kPbkdf2Iterations kPbkdf2KeyLength
  if derived.length ≠ kPbkdf2KeyLength then none
  else some (pbkdf2Tag ++ toString kPbkdf2Iterations ++ "$" ++ bytesToHex salt ++ "$" ++
    bytesToHex derived)

/-! ### Reading back a fresh hash -/

def hexDigit (n : Nat) : Char := hexChars.getD n '0'

theorem nibble_hexDigit {n : Nat} (hn : n < 16) :
    ∃ b, String.utf8EncodeChar (hexDigit n) = [b] ∧ nibble b = n := by
  have hall : ∀ n < 16, (String.utf8EncodeChar (hexDigit n)).length = 1 ∧
      (String.utf8EncodeChar (hexDigit n)).map nibble = [n] := by
    decide
  obtain ⟨hlength, hnibble⟩ := hall n hn
  obtain ⟨b, hb⟩ := List.length_eq_one_iff.mp hlength
  rw [hb] at hnibble ⊢
  exact ⟨b, rfl, (List.cons.inj hnibble).1⟩

theorem hexDigit_ne_dollar {n : Nat} (hn : n < 16) : hexDigit n ≠ '$' := by
  have hall : ∀ n < 16, hexDigit n ≠ '$' := by decide
  exact hall n hn

theorem toList_bytesToHex (data : List UInt8) :
    (bytesToHex data).toList =
      data.flatMap fun b => [hexDigit (b.toNat / 16), hexDigit (b.toNat % 16)] := by
  simp [bytesToHex, hexDigit]

theorem hexToBytes_bytesToHex (data : List UInt8) : hexToBytes (bytes (bytesToHex data)) = data := by
  rw [bytes, toList_bytesToHex]
  induction data with
  | nil => rfl
  | cons b data ih =>
    have hb := b.toNat_lt
    obtain ⟨hi, hhi, hhi'⟩ := nibble_hexDigit (n := b.toNat / 16) (by omega)
    obtain ⟨lo, hlo, hlo'⟩ := nibble_hexDigit (n := b.toNat % 16) (by omega)
    simp only [List.flatMap_cons, List.cons_append, List.nil_append, hhi, hlo, hexToBytes, hhi', hlo',
      ih]
    congr 1
    rw [show b.toNat / 16 * 16 + b.toNat % 16 = b.toNat by omega]
    exact UInt8.ofNat_toNat

theorem dollar_notMem_bytesToHex (data : List UInt8) : '$' ∉ (bytesToHex data).toList := by
  rw [toList_bytesToHex, List.mem_flatMap]
  intro h
  obtain ⟨b, -, hmem⟩ := h
  have hb := b.toNat_lt
  simp only [List.mem_cons, List.not_mem_nil, or_false] at hmem
  rcases hmem with hmem | hmem
  · exact hexDigit_ne_dollar (by omega) hmem.symm
  · exact hexDigit_ne_dollar (by omega) hmem.symm

theorem splitNonEmpty_freshHash (saltHex hashHex : String) (hsalt : '$' ∉ saltHex.toList)
    (hhash : '$' ∉ hashHex.toList) :
    splitNonEmpty '$' (pbkdf2Tag ++ toString kPbkdf2Iterations ++ "$" ++ saltHex ++ "$" ++ hashHex) =
      ["pbkdf2-sha256", "310000"] ++ [saltHex, hashHex].filter (· ≠ "") := by
  have hjoin : (pbkdf2Tag ++ toString kPbkdf2Iterations ++ "$" ++ saltHex ++ "$" ++ hashHex).toList =
      ['$'].intercalate [[], "pbkdf2-sha256".toList, "310000".toList, saltHex.toList,
        hashHex.toList] := by
    have htag : pbkdf2Tag.toList = '$' :: "pbkdf2-sha256".toList ++ ['$'] := by decide
    have hiter : (toString kPbkdf2Iterations).toList = "310000".toList := by decide
    simp only [String.toList_append, htag, hiter]
    simp [List.intercalate, List.intersperse]
  rw [splitNonEmpty, hjoin, List.splitOn_intercalate]
  · by_cases hs : saltHex = "" <;> by_cases hh : hashHex = "" <;> simp [hs, hh]
  · intro part hpart
    simp only [List.mem_cons, List.not_mem_nil, or_false] at hpart
    rcases hpart with rfl | rfl | rfl | rfl | rfl
    · decide
    · decide
    · decide
    · exact hsalt
    · exact hhash
  · simp

theorem isLegacyHash_of_hashPassword {crypto : IdentityCrypto} {password hash : String}
    {salt : List UInt8} (h : hashPassword crypto password salt = some hash) :
    isLegacyHash hash = false := by
  unfold hashPassword at h
  dsimp only at h
  split at h
  · cases h
  rw [← Option.some.inj h, isLegacyHash]
  simp only [String.toList_append, List.append_assoc]
  rw [List.isPrefixOf_iff_prefix.mpr (List.prefix_append _ _)]
  rfl

/-- A password that verifies against a fresh hash of another one has the same key under its salt. -/
theorem verifyPassword_hashPassword {crypto : IdentityCrypto} {password other hash legacySalt : String}
    {salt : List UInt8} (h : hashPassword crypto password salt = some hash)
    (hverify : verifyPassword crypto other hash legacySalt = true) :
    crypto.pbkdf2HmacSha256 other salt kPbkdf2Iterations kPbkdf2KeyLength =
      crypto.pbkdf2HmacSha256 password salt kPbkdf2Iterations kPbkdf2KeyLength := by
  rw [verifyPassword, isLegacyHash_of_hashPassword h] at hverify
  unfold hashPassword at h
  dsimp only at h
  split at h
  · cases h
  obtain rfl := Option.some.inj h
  rw [splitNonEmpty_freshHash _ _ (dollar_notMem_bytesToHex _) (dollar_notMem_bytesToHex _)] at hverify
  have hiterations : stoi "310000" = some kPbkdf2Iterations := by decide
  by_cases hs : bytesToHex salt = ""
  · by_cases hh : bytesToHex (crypto.pbkdf2HmacSha256 password salt kPbkdf2Iterations
        kPbkdf2KeyLength) = "" <;> simp [hs, hh] at hverify
  by_cases hh : bytesToHex (crypto.pbkdf2HmacSha256 password salt kPbkdf2Iterations
      kPbkdf2KeyLength) = ""
  · simp [hs, hh] at hverify
  simp only [Bool.false_eq_true, if_false, ne_eq, hs, hh, not_false_eq_true, decide_true,
    List.filter_cons_of_pos, List.filter_nil, List.cons_append, List.nil_append, hiterations,
    hexToBytes_bytesToHex, Bool.and_eq_true, decide_eq_true_eq] at hverify
  exact hverify.2

/-! ### `PasswordHasher` -/

namespace PasswordHasher

/-- A digit as the source computes it on signed characters, without a range check. -/
def digit (c : UInt8) : Int :=
  let n : Int := if c.toNat < 128 then c.toNat else (c.toNat : Int) - 256
  if n ≥ 97 then n - 97 + 10 else if n ≥ 65 then n - 65 + 10 else n - 48

def hexToBytes : List UInt8 → List UInt8
  | hi :: lo :: rest =>
    let byte := BitVec.ofInt 32 (digit hi) <<< 4 ||| BitVec.ofInt 32 (digit lo)
    UInt8.ofNat byte.toNat :: hexToBytes rest
  | _ => []

def needsRehash (storedHash : String) : Bool := isLegacyHash storedHash

/-- `hash` under the salt it draws; `none` where it throws. -/
def hash (crypto : IdentityCrypto) (password : String) (salt : List UInt8) : Option String :=
  let derivedKey := crypto.pbkdf2HmacSha256 password salt kPbkdf2Iterations kPbkdf2KeyLength
  if derivedKey = [] then none
  else some (pbkdf2Tag ++ toString kPbkdf2Iterations ++ "$" ++ bytesToHex salt ++ "$" ++
    bytesToHex derivedKey)

/-- `verify`; `none` where `std::stoi` throws. -/
def verify (crypto : IdentityCrypto) (password storedHash salt : String) : Option Bool :=
  if needsRehash storedHash then some (legacyDigestMatches crypto password storedHash salt)
  else
    match splitNonEmpty '$' storedHash with
    | [_, iterationsText, saltHex, hashHex] =>
      match stoi iterationsText with
      | none => none
      | some iterations =>
        let expectedHash := hexToBytes (bytes hashHex)
        let derivedKey := crypto.pbkdf2HmacSha256 password (hexToBytes (bytes saltHex)) iterations
          kPbkdf2KeyLength
        some (derivedKey ≠ [] && expectedHash.length = kPbkdf2KeyLength &&
          derivedKey = expectedHash)
    | _ => some false

end PasswordHasher

end AuthForge.Identity
