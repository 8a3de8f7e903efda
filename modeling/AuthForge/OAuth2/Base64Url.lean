import AuthForge.Base.BitBuffer
import AuthForge.Base.Text

/-!
# base64url

The encoding under which challenges, key parameters and generated secrets travel (RFC 4648,
section 5, unpadded). The encoder takes three bytes at a time, with two remainder cases; the decoder
shifts every character into a word and reads a byte whenever eight bits are there. The domain layer
must not depend on the adapters, so the key manager has an encoder of its own.
-/

namespace AuthForge.OAuth2

open Ascii

namespace Base64Url

section Encoder

-- The alphabet of the copy.
variable (alphabet : Bytes)

def charAt (n : UInt32) : UInt8 := alphabet.getD (n &&& 0x3F).toNat 0

/-- Four characters for three bytes; what remains is not padded. -/
def encodeBlocks : Bytes → Bytes
  | b₀ :: b₁ :: b₂ :: rest =>
    let n := b₀.toUInt32 <<< 16 ||| b₁.toUInt32 <<< 8 ||| b₂.toUInt32
    charAt alphabet (n >>> 18) :: charAt alphabet (n >>> 12) ::
      charAt alphabet (n >>> 6) :: charAt alphabet n :: encodeBlocks rest
  | [b₀, b₁] =>
    let n := b₀.toUInt32 <<< 16 ||| b₁.toUInt32 <<< 8
    [charAt alphabet (n >>> 18), charAt alphabet (n >>> 12), charAt alphabet (n >>> 6)]
  | [b₀] =>
    let n := b₀.toUInt32 <<< 16
    [charAt alphabet (n >>> 18), charAt alphabet (n >>> 12)]
  | [] => []

end Encoder

/-- The bits of the bytes regrouped by six, zeros being appended to the last group. -/
def sextets : List Nat → List Nat
  | b₀ :: b₁ :: b₂ :: rest =>
    let n := b₀ * 2 ^ 16 + b₁ * 2 ^ 8 + b₂
    n / 2 ^ 18 % 64 :: n / 2 ^ 12 % 64 :: n / 2 ^ 6 % 64 :: n % 64 :: sextets rest
  | [b₀, b₁] =>
    let n := b₀ * 2 ^ 16 + b₁ * 2 ^ 8
    [n / 2 ^ 18 % 64, n / 2 ^ 12 % 64, n / 2 ^ 6 % 64]
  | [b₀] =>
    let n := b₀ * 2 ^ 16
    [n / 2 ^ 18 % 64, n / 2 ^ 12 % 64]
  | [] => []

/-- The bits of groups of six regrouped by eight, `r` being the `k` bits read before; what does not
fill a byte is dropped. -/
def octets (r k : Nat) : List Nat → List Nat
  | [] => []
  | v :: rest =>
    if 8 ≤ k + 6 then
      (r * 64 + v) / 2 ^ (k - 2) :: octets ((r * 64 + v) % 2 ^ (k - 2)) (k - 2) rest
    else octets (r * 64 + v) (k + 6) rest

theorem octets_sextets (b : List Nat) (hb : ∀ x ∈ b, x < 256) : octets 0 0 (sextets b) = b := by
  fun_induction sextets b with
  | case1 b₀ b₁ b₂ rest n ih =>
    have h₀ : b₀ < 256 := hb b₀ (by simp)
    have h₁ : b₁ < 256 := hb b₁ (by simp)
    have h₂ : b₂ < 256 := hb b₂ (by simp)
    have hrest : octets 0 0 (sextets rest) = rest := ih fun x hx => hb x (by simp [hx])
    have hn : n = b₀ * 65536 + b₁ * 256 + b₂ := rfl
    have hout₀ : (n / 262144 % 64 * 64 + n / 4096 % 64) / 16 = b₀ := by omega
    have hout₁ : ((n / 262144 % 64 * 64 + n / 4096 % 64) % 16 * 64 + n / 64 % 64) / 4 =
      b₁ := by omega
    have hout₂ : ((n / 262144 % 64 * 64 + n / 4096 % 64) % 16 * 64 + n / 64 % 64) % 4 *
      64 + n % 64 = b₂ := by omega
    simp [octets, hout₀, hout₁, hout₂, hrest, Nat.mod_one]
  | case2 b₀ b₁ n =>
    have h₀ : b₀ < 256 := hb b₀ (by simp)
    have h₁ : b₁ < 256 := hb b₁ (by simp)
    have hn : n = b₀ * 65536 + b₁ * 256 := rfl
    have hout₀ : (n / 262144 % 64 * 64 + n / 4096 % 64) / 16 = b₀ := by omega
    have hout₁ : ((n / 262144 % 64 * 64 + n / 4096 % 64) % 16 * 64 + n / 64 % 64) / 4 =
      b₁ := by omega
    simp [octets, hout₀, hout₁]
  | case3 b₀ n =>
    have h₀ : b₀ < 256 := hb b₀ (by simp)
    have hn : n = b₀ * 65536 := rfl
    have hout₀ : (n / 262144 % 64 * 64 + n / 4096 % 64) / 16 = b₀ := by omega
    simp [octets, hout₀]
  | case4 => rfl

theorem sextets_lt (b : List Nat) : ∀ v ∈ sextets b, v < 64 := by
  fun_induction sextets b with
  | case1 b₀ b₁ b₂ rest n ih =>
    intro v hv
    simp only [List.mem_cons] at hv
    rcases hv with rfl | rfl | rfl | rfl | hv
    · exact Nat.mod_lt _ (by decide)
    · exact Nat.mod_lt _ (by decide)
    · exact Nat.mod_lt _ (by decide)
    · exact Nat.mod_lt _ (by decide)
    · exact ih v hv
  | case2 b₀ b₁ n => simp [Nat.mod_lt]
  | case3 b₀ n => simp [Nat.mod_lt]
  | case4 => simp

theorem length_sextets (b : List Nat) : (sextets b).length = (4 * b.length + 2) / 3 := by
  fun_induction sextets b with
  | case1 b₀ b₁ b₂ rest n ih =>
    simp only [List.length_cons, ih]
    omega
  | case2 b₀ b₁ n => simp
  | case3 b₀ n => simp
  | case4 => rfl

section Encoder

variable (alphabet : Bytes)

theorem charAt_eq (n : UInt32) : charAt alphabet n = alphabet.getD (n.toNat % 64) 0 := by
  have hmask : (n &&& 0x3F).toNat = n.toNat % 64 := by
    rw [UInt32.toNat_and, show (0x3F : UInt32).toNat = 2 ^ 6 - 1 from rfl,
      Nat.and_two_pow_sub_one_eq_mod]
  rw [charAt, hmask]

theorem toNat_shiftRight (n s : UInt32) (hs : s.toNat < 32) :
    (n >>> s).toNat = n.toNat / 2 ^ s.toNat := by
  rw [UInt32.toNat_shiftRight, Nat.mod_eq_of_lt hs, Nat.shiftRight_eq_div_pow]

/-- Three bytes side by side in a word. -/
theorem toNat_block (b₀ b₁ b₂ : UInt8) :
    (b₀.toUInt32 <<< 16 ||| b₁.toUInt32 <<< 8 ||| b₂.toUInt32).toNat =
      b₀.toNat * 2 ^ 16 + b₁.toNat * 2 ^ 8 + b₂.toNat := by
  have h₀ : b₀.toNat < 2 ^ 8 := b₀.toNat_lt
  have h₁ : b₁.toNat < 2 ^ 8 := b₁.toNat_lt
  have h₂ : b₂.toNat < 2 ^ 8 := b₂.toNat_lt
  have hhigh : (b₀.toUInt32 <<< 16).toNat = b₀.toNat <<< 16 := by
    rw [UInt32.toNat_shiftLeft, UInt8.toNat_toUInt32, show (16 : UInt32).toNat % 32 = 16 from rfl,
      Nat.mod_eq_of_lt]
    rw [Nat.shiftLeft_eq]
    omega
  have hmiddle : (b₁.toUInt32 <<< 8).toNat = b₁.toNat <<< 8 := by
    rw [UInt32.toNat_shiftLeft, UInt8.toNat_toUInt32, show (8 : UInt32).toNat % 32 = 8 from rfl,
      Nat.mod_eq_of_lt]
    rw [Nat.shiftLeft_eq]
    omega
  have hlow : b₁.toNat * 2 ^ 8 + b₂.toNat < 2 ^ 16 := by omega
  rw [UInt32.toNat_or, UInt32.toNat_or, hhigh, hmiddle, UInt8.toNat_toUInt32, Nat.or_assoc,
    ← Nat.shiftLeft_add_eq_or_of_lt h₂, Nat.shiftLeft_eq b₁.toNat,
    ← Nat.shiftLeft_add_eq_or_of_lt hlow, Nat.shiftLeft_eq, Nat.add_assoc]

theorem encodeBlocks_eq (b : Bytes) :
    encodeBlocks alphabet b = (sextets (b.map UInt8.toNat)).map (alphabet.getD · 0) := by
  have h₁₈ (n : UInt32) : (n >>> 18).toNat = n.toNat / 2 ^ 18 := toNat_shiftRight n 18 (by decide)
  have h₁₂ (n : UInt32) : (n >>> 12).toNat = n.toNat / 2 ^ 12 := toNat_shiftRight n 12 (by decide)
  have h₆ (n : UInt32) : (n >>> 6).toNat = n.toNat / 2 ^ 6 := toNat_shiftRight n 6 (by decide)
  have hnone : (0 : UInt8).toUInt32 = 0 := rfl
  fun_induction encodeBlocks alphabet b with
  | case1 b₀ b₁ b₂ rest n ih =>
    have hn : n.toNat = b₀.toNat * 2 ^ 16 + b₁.toNat * 2 ^ 8 + b₂.toNat := toNat_block b₀ b₁ b₂
    simp only [charAt_eq, ih, h₁₈, h₁₂, h₆, List.map_cons, sextets, hn]
  | case2 b₀ b₁ n =>
    have hn : n.toNat = b₀.toNat * 2 ^ 16 + b₁.toNat * 2 ^ 8 := by
      have hblock := toNat_block b₀ b₁ 0
      rwa [hnone, UInt32.or_zero, UInt8.toNat_zero, Nat.add_zero] at hblock
    simp only [charAt_eq, h₁₈, h₁₂, h₆, List.map_cons, List.map_nil, sextets, hn]
  | case3 b₀ n =>
    have hn : n.toNat = b₀.toNat * 2 ^ 16 := by
      have hblock := toNat_block b₀ 0 0
      rwa [hnone, UInt32.zero_shiftLeft, UInt32.or_zero, UInt32.or_zero, UInt8.toNat_zero,
        Nat.zero_mul, Nat.add_zero] at hblock
    simp only [charAt_eq, h₁₈, h₁₂, List.map_cons, List.map_nil, sextets, hn]
  | case4 => rfl

end Encoder

end Base64Url

namespace OpenSslCryptoProvider

def kBase64UrlAlphabet : Bytes :=
  bytes "ABCDEFGHIJKLMNOPQRSTUVWXYZabcdefghijklmnopqrstuvwxyz0123456789-_"

def base64UrlEncodeImpl : Bytes → Bytes := Base64Url.encodeBlocks kBase64UrlAlphabet

def base64UrlCharValue (c : UInt8) : Int :=
  if 65 ≤ c ∧ c ≤ 90 then (c.toNat : Int) - 65
  else if 97 ≤ c ∧ c ≤ 122 then (c.toNat : Int) - 97 + 26
  else if 48 ≤ c ∧ c ≤ 57 then (c.toNat : Int) - 48 + 52
  else if c = 45 then 62
  else if c = 95 then 63
  else -1

structure DecodeState where
  out : Bytes := []
  buffer : BitVec 32 := 0
  bitsCollected : Nat := 0

/-- One round of the loop; the buffer is an `int` and wraps. -/
def DecodeState.read (s : DecodeState) (value : Int) : DecodeState :=
  let buffer := BitBuffer.push s.buffer 6 value
  let bitsCollected := s.bitsCollected + 6
  if 8 ≤ bitsCollected then
    { out := s.out ++
        [UInt8.ofNat (buffer.sshiftRight (bitsCollected - 8) &&& BitVec.ofNat 32 0xFF).toNat]
      buffer
      bitsCollected := bitsCollected - 8 }
  else { s with buffer, bitsCollected }

def decodeLoop (s : DecodeState) : Bytes → Bytes
  | [] => s.out
  | c :: encoded =>
    let value := base64UrlCharValue c
    if value < 0 then [] else decodeLoop (s.read value) encoded

def base64UrlDecodeImpl (encoded : Bytes) : Bytes := decodeLoop {} encoded

/-- The decoder knows the place of every character of the alphabet, and a place that it gives is the
character's. -/
theorem base64UrlCharValue_table :
    kBase64UrlAlphabet.length = 64 ∧
      (∀ v < 64, base64UrlCharValue (kBase64UrlAlphabet.getD v 0) = v) ∧
      ∀ n < 256, base64UrlCharValue (UInt8.ofNat n) < 0 ∨
        kBase64UrlAlphabet[(base64UrlCharValue (UInt8.ofNat n)).toNat]? = some (UInt8.ofNat n) := by
  decide +kernel

theorem length_kBase64UrlAlphabet : kBase64UrlAlphabet.length = 64 := base64UrlCharValue_table.1

theorem base64UrlCharValue_neg_iff (c : UInt8) :
    base64UrlCharValue c < 0 ↔ c ∉ kBase64UrlAlphabet := by
  obtain ⟨hlength, hvalue, hplace⟩ := base64UrlCharValue_table
  constructor
  · intro hneg hmem
    obtain ⟨v, hv, rfl⟩ := List.mem_iff_getElem.mp hmem
    have hget := hvalue v (hlength ▸ hv)
    rw [List.getD_eq_getElem?_getD, List.getElem?_eq_getElem hv, Option.getD_some] at hget
    omega
  · intro hnot
    have hc := hplace c.toNat c.toNat_lt
    rw [UInt8.ofNat_toNat] at hc
    exact hc.resolve_right fun h => hnot (List.mem_of_getElem? h)

theorem decodeLoop_eq (values : List Nat) (hvalues : ∀ v ∈ values, v < 64) (s : DecodeState)
    (hs : s.bitsCollected < 8) :
    decodeLoop s (values.map (kBase64UrlAlphabet.getD · 0)) =
      s.out ++ (Base64Url.octets (BitBuffer.pending s.buffer s.bitsCollected) s.bitsCollected
        values).map UInt8.ofNat := by
  induction values generalizing s with
  | nil => simp [decodeLoop, Base64Url.octets]
  | cons v values ih =>
    have hv : v < 2 ^ 6 := hvalues v (by simp)
    have hrest : ∀ v ∈ values, v < 64 := fun v hmem => hvalues v (by simp [hmem])
    have hvalue : base64UrlCharValue (kBase64UrlAlphabet.getD v 0) = v :=
      base64UrlCharValue_table.2.1 v hv
    have hpush : BitBuffer.pending (BitBuffer.push s.buffer 6 (v : Int)) (s.bitsCollected + 6) =
        BitBuffer.pending s.buffer s.bitsCollected * 64 + v :=
      BitBuffer.pending_push s.buffer hv (by omega)
    rw [List.map_cons, decodeLoop, hvalue, if_neg (by omega), Base64Url.octets]
    by_cases hfull : 8 ≤ s.bitsCollected + 6
    · have hsplit : s.bitsCollected - 2 + 8 = s.bitsCollected + 6 := by omega
      have hbyte := BitBuffer.toNat_take (BitBuffer.push s.buffer 6 (v : Int))
        (k := s.bitsCollected - 2) (d := 8) (by omega)
      have hlow := BitBuffer.pending_low (BitBuffer.push s.buffer 6 (v : Int))
        (s.bitsCollected - 2) 8
      rw [hsplit, hpush] at hbyte hlow
      have hread : s.read v =
          { out := s.out ++ [UInt8.ofNat ((BitBuffer.pending s.buffer s.bitsCollected * 64 + v) /
              2 ^ (s.bitsCollected - 2))]
            buffer := BitBuffer.push s.buffer 6 v
            bitsCollected := s.bitsCollected - 2 } := by
        unfold DecodeState.read
        rw [if_pos hfull, ← hbyte]
        rfl
      rw [if_pos hfull, hread, ih hrest _ (by dsimp only; omega)]
      simp [hlow]
    · have hread : s.read v =
          { s with
            buffer := BitBuffer.push s.buffer 6 v, bitsCollected := s.bitsCollected + 6 } := by
        unfold DecodeState.read
        rw [if_neg hfull]
      rw [if_neg hfull, hread, ih hrest _ (by dsimp only; omega)]
      simp [hpush]

/-- A character outside the alphabet empties the answer, wherever it stands. -/
theorem decodeLoop_of_notMem {c : UInt8} (hc : c ∉ kBase64UrlAlphabet) (encoded : Bytes)
    (hmem : c ∈ encoded) (s : DecodeState) : decodeLoop s encoded = [] := by
  induction encoded generalizing s with
  | nil => simp at hmem
  | cons first encoded ih =>
    rw [decodeLoop]
    by_cases hfirst : base64UrlCharValue first < 0
    · rw [if_pos hfirst]
    · have hne : c ≠ first := by
        rintro rfl
        exact hfirst ((base64UrlCharValue_neg_iff c).mpr hc)
      rw [if_neg hfirst]
      exact ih ((List.mem_cons.mp hmem).resolve_left hne) _

end OpenSslCryptoProvider

namespace JwkManager

def kBase64UrlAlphabet : Bytes :=
  bytes "ABCDEFGHIJKLMNOPQRSTUVWXYZabcdefghijklmnopqrstuvwxyz0123456789-_"

def base64UrlEncodeImpl : Bytes → Bytes := Base64Url.encodeBlocks kBase64UrlAlphabet

end JwkManager

end AuthForge.OAuth2
