import AuthForge.Identity.Totp

/-!
# The window of one-time codes

What the encoder has not written yet and what the decoder has not handed out yet are together one
byte, so a secret survives encoding, and a code is accepted exactly when it is the code of a time at
most one step away.
-/

namespace AuthForge.TotpWindow

open Identity Identity.Totp

/-! ### The digits -/

theorem base32Value_base32Digit (n : Nat) :
    ∃ b, String.utf8EncodeChar (base32Digit n) = [b] ∧ base32Value b = some (n % 32) := by
  have hall : ∀ c < 32, (String.utf8EncodeChar (kBase32Alphabet.getD c 'A')).length = 1 ∧
      (String.utf8EncodeChar (kBase32Alphabet.getD c 'A')).map base32Value = [some c] := by
    decide
  obtain ⟨hlength, hvalue⟩ := hall (n % 32) (Nat.mod_lt n (by decide))
  obtain ⟨b, hb⟩ := List.length_eq_one_iff.mp hlength
  rw [hb] at hvalue
  exact ⟨b, hb, (List.cons.inj hvalue).1⟩

/-- The bytes of the digits that the encoder writes. -/
def written (cs : List Char) : List UInt8 := cs.flatMap String.utf8EncodeChar

section Digits

variable {buffer bitsLeft n : Nat} {cs : List Char} {rest : List UInt8}

theorem base32DecodeLoop_digit_of_lt (hbits : bitsLeft + 5 < 8) :
    base32DecodeLoop buffer bitsLeft (written (base32Digit n :: cs) ++ rest) =
      base32DecodeLoop ((buffer * 32 + n % 32) % 2 ^ 32) (bitsLeft + 5) (written cs ++ rest) := by
  obtain ⟨b, hb, hvalue⟩ := base32Value_base32Digit n
  rw [written, List.flatMap_cons, hb, List.singleton_append, List.cons_append, base32DecodeLoop,
    hvalue]
  dsimp only
  rw [if_neg (by omega)]
  rfl

theorem base32DecodeLoop_digit_of_le (hbits : 8 ≤ bitsLeft + 5) :
    base32DecodeLoop buffer bitsLeft (written (base32Digit n :: cs) ++ rest) =
      UInt8.ofNat ((buffer * 32 + n % 32) % 2 ^ 32 / 2 ^ (bitsLeft + 5 - 8) % 256) ::
        base32DecodeLoop ((buffer * 32 + n % 32) % 2 ^ 32) (bitsLeft + 5 - 8)
          (written cs ++ rest) := by
  obtain ⟨b, hb, hvalue⟩ := base32Value_base32Digit n
  rw [written, List.flatMap_cons, hb, List.singleton_append, List.cons_append, base32DecodeLoop,
    hvalue]
  dsimp only
  rw [if_pos (by omega)]
  rfl

end Digits

/-! ### Encoder and decoder -/

/-- The bits of the encoder and those of the decoder make up a byte, or there are none. -/
def Aligned (encoderBits decoderBits : Nat) : Prop :=
  (encoderBits = 0 ∧ decoderBits = 0) ∨ (0 < encoderBits ∧ encoderBits < 5 ∧
    encoderBits + decoderBits = 8)

/-- The byte that is still on its way. -/
def pending (encoder encoderBits decoder : Nat) : List UInt8 :=
  if encoderBits = 0 then []
  else [UInt8.ofNat (decoder % 2 ^ (8 - encoderBits) * 2 ^ encoderBits +
    encoder % 2 ^ encoderBits)]

theorem ofNat_eq {n : Nat} {b : UInt8} (h : n = b.toNat) : UInt8.ofNat n = b := by
  rw [h, UInt8.ofNat_toNat]

variable {encoder encoderBits decoder decoderBits : Nat}

/-- One byte through the encoder and the decoder: what comes out and what is left on its way is what
was on its way, and the byte. -/
theorem byte_through (b : UInt8) (rest : List UInt8) (h : Aligned encoderBits decoderBits) :
    let buffer := (encoder * 256 + b.toNat) % 2 ^ 32
    let digits := (List.range ((encoderBits + 8) / 5)).map fun i =>
      base32Digit (buffer / 2 ^ (encoderBits + 8 - 5 * (i + 1)))
    ∃ decoder' decoderBits' out,
      base32DecodeLoop decoder decoderBits (written digits ++ rest) =
        out ++ base32DecodeLoop decoder' decoderBits' rest ∧
      Aligned ((encoderBits + 8) % 5) decoderBits' ∧
      out ++ pending buffer ((encoderBits + 8) % 5) decoder' =
        pending encoder encoderBits decoder ++ [b] := by
  intro buffer digits
  have hb : b.toNat < 256 := b.toNat_lt
  have hbuffer : buffer = (encoder * 256 + b.toNat) % 2 ^ 32 := rfl
  have hcases : (encoderBits = 0 ∧ decoderBits = 0) ∨ (encoderBits = 1 ∧ decoderBits = 7) ∨
      (encoderBits = 2 ∧ decoderBits = 6) ∨ (encoderBits = 3 ∧ decoderBits = 5) ∨
      (encoderBits = 4 ∧ decoderBits = 4) := by
    unfold Aligned at h
    omega
  clear_value buffer
  -- The cases are the bits that the encoder has left over from the bytes before.
  rcases hcases with ⟨rfl, rfl⟩ | ⟨rfl, rfl⟩ | ⟨rfl, rfl⟩ | ⟨rfl, rfl⟩ | ⟨rfl, rfl⟩
  · have hbyte : (decoder * 32 + buffer / 2 ^ 3 % 32) % 2 ^ 32 % 2 ^ 5 * 2 ^ 3 + buffer % 2 ^ 3 =
        b.toNat := by omega
    refine ⟨_, 5, [], base32DecodeLoop_digit_of_lt (by decide), ?_, ?_⟩
    · exact show Aligned 3 5 from .inr (by decide)
    · exact congrArg (fun x => [x]) (ofNat_eq hbyte)
  · have hout : (decoder * 32 + buffer / 2 ^ 4 % 32) % 2 ^ 32 / 2 ^ 4 % 256 =
        decoder % 2 ^ 7 * 2 ^ 1 + encoder % 2 ^ 1 := by omega
    have hbyte : (decoder * 32 + buffer / 2 ^ 4 % 32) % 2 ^ 32 % 2 ^ 4 * 2 ^ 4 + buffer % 2 ^ 4 =
        b.toNat := by omega
    refine ⟨_, 4, [_], base32DecodeLoop_digit_of_le (by decide), ?_, ?_⟩
    · exact show Aligned 4 4 from .inr (by decide)
    · exact congrArg₂ (fun x y => [x, y]) (congrArg UInt8.ofNat hout) (ofNat_eq hbyte)
  · have hfirst : (decoder * 32 + buffer / 2 ^ 5 % 32) % 2 ^ 32 / 2 ^ 3 % 256 =
        decoder % 2 ^ 6 * 2 ^ 2 + encoder % 2 ^ 2 := by omega
    have hsecond : ((decoder * 32 + buffer / 2 ^ 5 % 32) % 2 ^ 32 * 32 + buffer / 2 ^ 0 % 32) %
        2 ^ 32 / 2 ^ 0 % 256 = b.toNat := by omega
    refine ⟨_, 0, [_, _], (base32DecodeLoop_digit_of_le (by decide)).trans
      (congrArg _ (base32DecodeLoop_digit_of_le (by decide))), ?_, ?_⟩
    · exact show Aligned 0 0 from .inl ⟨rfl, rfl⟩
    · exact congrArg₂ (fun x y => [x, y]) (congrArg UInt8.ofNat hfirst) (ofNat_eq hsecond)
  · have hfirst : (decoder * 32 + buffer / 2 ^ 6 % 32) % 2 ^ 32 / 2 ^ 2 % 256 =
        decoder % 2 ^ 5 * 2 ^ 3 + encoder % 2 ^ 3 := by omega
    have hbyte : ((decoder * 32 + buffer / 2 ^ 6 % 32) % 2 ^ 32 * 32 + buffer / 2 ^ 1 % 32) %
        2 ^ 32 % 2 ^ 7 * 2 ^ 1 + buffer % 2 ^ 1 = b.toNat := by omega
    refine ⟨_, 7, [_], (base32DecodeLoop_digit_of_le (by decide)).trans
      (congrArg _ (base32DecodeLoop_digit_of_lt (by decide))), ?_, ?_⟩
    · exact show Aligned 1 7 from .inr (by decide)
    · exact congrArg₂ (fun x y => [x, y]) (congrArg UInt8.ofNat hfirst) (ofNat_eq hbyte)
  · have hfirst : (decoder * 32 + buffer / 2 ^ 7 % 32) % 2 ^ 32 / 2 ^ 1 % 256 =
        decoder % 2 ^ 4 * 2 ^ 4 + encoder % 2 ^ 4 := by omega
    have hbyte : ((decoder * 32 + buffer / 2 ^ 7 % 32) % 2 ^ 32 * 32 + buffer / 2 ^ 2 % 32) %
        2 ^ 32 % 2 ^ 6 * 2 ^ 2 + buffer % 2 ^ 2 = b.toNat := by omega
    refine ⟨_, 6, [_], (base32DecodeLoop_digit_of_le (by decide)).trans
      (congrArg _ (base32DecodeLoop_digit_of_lt (by decide))), ?_, ?_⟩
    · exact show Aligned 2 6 from .inr (by decide)
    · exact congrArg₂ (fun x y => [x, y]) (congrArg UInt8.ofNat hfirst) (ofNat_eq hbyte)

theorem base32DecodeLoop_base32EncodeLoop (data : List UInt8) :
    ∀ {encoder encoderBits decoder decoderBits : Nat}, Aligned encoderBits decoderBits →
      base32DecodeLoop decoder decoderBits
          (written (base32EncodeLoop encoder encoderBits data)) =
        pending encoder encoderBits decoder ++ data := by
  induction data with
  | nil =>
    intro encoder encoderBits decoder decoderBits h
    rw [base32EncodeLoop, List.append_nil]
    rcases h with ⟨rfl, rfl⟩ | ⟨hpos, hlt, hbits⟩
    · rfl
    · obtain rfl : decoderBits = 8 - encoderBits := by omega
      rw [if_neg hpos.ne', ← List.append_nil (written _), base32DecodeLoop_digit_of_le (by omega),
        pending, if_neg hpos.ne']
      have hcases : encoderBits = 1 ∨ encoderBits = 2 ∨ encoderBits = 3 ∨ encoderBits = 4 := by
        omega
      have hout : (decoder * 32 + encoder * 2 ^ (5 - encoderBits) % 32) % 2 ^ 32 /
          2 ^ (8 - encoderBits + 5 - 8) % 256 =
            decoder % 2 ^ (8 - encoderBits) * 2 ^ encoderBits + encoder % 2 ^ encoderBits := by
        rcases hcases with rfl | rfl | rfl | rfl <;> omega
      exact congrArg (fun n => [UInt8.ofNat n]) hout
  | cons b data ih =>
    intro encoder encoderBits decoder decoderBits h
    obtain ⟨decoder', decoderBits', out, hdecode, haligned, hbytes⟩ := byte_through b
      (written (base32EncodeLoop ((encoder * 256 + b.toNat) % 2 ^ 32) ((encoderBits + 8) % 5)
        data)) h
    have hwritten (cs cs' : List Char) : written (cs ++ cs') = written cs ++ written cs' :=
      List.flatMap_append
    rw [base32EncodeLoop, hwritten, hdecode, ih haligned, ← List.append_assoc, hbytes,
      List.append_assoc, List.singleton_append]

theorem base32Decode_base32Encode (data : List UInt8) :
    base32Decode (base32Encode data) = data := by
  unfold base32Decode base32Encode bytes
  rw [String.toList_ofList]
  exact base32DecodeLoop_base32EncodeLoop data (.inl ⟨rfl, rfl⟩)

/-! ### Six digits -/

theorem length_utf8EncodeChar_of_isDigit {c : Char} (h : c.isDigit = true) :
    (String.utf8EncodeChar c).length = 1 := by
  rw [String.length_utf8EncodeChar, Char.utf8Size_eq_one_iff]
  simp only [Char.isDigit, Bool.and_eq_true, decide_eq_true_eq] at h
  exact UInt32.le_trans h.2 (by decide)

theorem byteLength_formatSixDigits {otp : Nat} (h : otp < 1000000) :
    byteLength (formatSixDigits otp) = 6 := by
  have hdigits : ∀ c ∈ List.replicate (6 - (toString otp).length) '0' ++ (toString otp).toList,
      c.isDigit = true := by
    intro c hc
    rcases List.mem_append.mp hc with hzero | hdigit
    · rw [List.eq_of_mem_replicate hzero]
      rfl
    · exact isDigit_of_mem_natToString hdigit
  have hlength : (toString otp).length ≤ 6 := by
    rw [Nat.toString_eq_repr]
    exact (Nat.length_repr_le_iff (by decide)).mpr h
  have hone : ∀ cs : List Char, (∀ c ∈ cs, c.isDigit = true) →
      (cs.flatMap String.utf8EncodeChar).length = cs.length := by
    intro cs hcs
    induction cs with
    | nil => rfl
    | cons c cs ih =>
      rw [List.flatMap_cons, List.length_append, ih fun d hd => hcs d (List.mem_cons_of_mem _ hd),
        length_utf8EncodeChar_of_isDigit (hcs c List.mem_cons_self), List.length_cons, Nat.add_comm]
  unfold formatSixDigits
  rw [byteLength_eq_length_bytes, bytes, String.toList_ofList, hone _ hdigits, List.length_append,
    List.length_replicate, String.length_toList]
  omega

theorem generateOtp_lt (crypto : IdentityCrypto) (key : List UInt8) (counter : Nat) :
    generateOtp crypto key counter < 1000000 :=
  Nat.mod_lt _ (by decide)

/-! ### The window -/

/-- A time that the source can be given. -/
def IsTime (t : Int) : Prop := -2 ^ 63 ≤ t ∧ t < 2 ^ 63

/-- The steps of two times differ by at most one. -/
def Adjacent (t t' : Int) : Prop := timeStep t' ≤ timeStep t + 1 ∧ timeStep t ≤ timeStep t' + 1

variable {crypto : IdentityCrypto} {t : Int} {n : Nat}

theorem timeStep_of_nonneg (h : 0 ≤ t) (hlt : t < 2 ^ 64) : timeStep t = t.toNat / 30 := by
  unfold timeStep
  rw [Int.emod_eq_of_lt h hlt]

/-- Every step up to one past that of a time is the step of a time. -/
theorem exists_time (hn : n ≤ 2 ^ 63 / 30 + 1) : ∃ t', IsTime t' ∧ timeStep t' = n := by
  -- A time past the range is given as the negative number with the same 64 bits.
  by_cases hlt : n * 30 < 2 ^ 63
  · refine ⟨n * 30, ⟨by omega, by omega⟩, ?_⟩
    rw [timeStep_of_nonneg (by omega) (by omega)]
    omega
  · refine ⟨n * 30 - 2 ^ 64, ⟨by omega, by omega⟩, ?_⟩
    unfold timeStep
    omega

/-- The counters that a verification tries are the steps next to that of its time. -/
theorem mem_counters_iff (ht : 30 ≤ t) (hlt : t < 2 ^ 63) :
    (∃ i ∈ [2 ^ 64 - 1, 0, 1], (timeStep t + i) % 2 ^ 64 = n) ↔
      n ≤ timeStep t + 1 ∧ timeStep t ≤ n + 1 := by
  rw [timeStep_of_nonneg (by omega) (by omega)]
  simp only [List.mem_cons, List.not_mem_nil, or_false, exists_eq_or_imp, exists_eq_left]
  omega

/-- A code is accepted for an encoded secret exactly when it is generated at a time whose step is next
to the present one or the same, the secret survives its encoding, and the copy does the same. -/
theorem verifyCode_iff (crypto : IdentityCrypto) (secret : List UInt8) (hsecret : secret ≠ [])
    (t : Int) (ht : 30 ≤ t) (hlt : t < 2 ^ 63) (code : String) :
    (verifyCode crypto (base32Encode secret) code t = true ↔
      ∃ t', IsTime t' ∧ Adjacent t t' ∧ code = generateCode crypto (base32Encode secret) t') ∧
    (∀ data, base32Decode (base32Encode data) = data) ∧
    (∀ data, TotpUtils.base32Encode data = base32Encode data) ∧
    (∀ encoded, TotpUtils.base32Decode encoded = base32Decode encoded) ∧
    (∀ encoded now, TotpUtils.generateCode crypto encoded now =
      generateCode crypto encoded now) ∧
    ∀ encoded code now, TotpUtils.verifyCode crypto encoded code now =
      verifyCode crypto encoded code now := by
  refine ⟨?_, base32Decode_base32Encode, fun _ => rfl, fun _ => rfl, fun _ _ => rfl,
    fun _ _ _ => rfl⟩
  unfold verifyCode generateCode
  rw [base32Decode_base32Encode]
  simp only [Bool.and_eq_true, decide_eq_true_eq, List.any_eq_true, if_neg hsecret]
  constructor
  · rintro ⟨-, i, hi, heq⟩
    have hstep := (mem_counters_iff ht hlt).mp ⟨i, hi, rfl⟩
    have hle : timeStep t ≤ 2 ^ 63 / 30 := by
      rw [timeStep_of_nonneg (by omega) (by omega)]
      omega
    obtain ⟨t', htime, heq'⟩ := exists_time (n := (timeStep t + i) % 2 ^ 64) (by omega)
    refine ⟨t', htime, ?_, ?_⟩
    · unfold Adjacent
      omega
    · rw [heq', heq]
  · rintro ⟨t', -, hadjacent, rfl⟩
    obtain ⟨i, hi, heq⟩ := (mem_counters_iff ht hlt).mpr hadjacent
    exact ⟨⟨byteLength_formatSixDigits (generateOtp_lt _ _ _), hsecret⟩, i, hi, by rw [heq]⟩

/-- A digest that begins with the low half of the counter. -/
def counterDigest : IdentityCrypto where
  sha256Hex := id
  pbkdf2HmacSha256 _ _ _ _ := []
  hmacSha1 _ message := message.drop 4 ++ List.replicate 16 0

theorem verifyCode_iff_next_step :
    verifyCode counterDigest (base32Encode [72]) "000002" 30 = true ∧
      verifyCode counterDigest (base32Encode [72]) "000003" 30 = false :=
  ⟨(verifyCode_iff counterDigest [72] (by decide) 30 (by decide) (by decide) "000002").1.mpr
    ⟨60, ⟨by decide, by decide⟩, ⟨by decide, by decide⟩, by decide⟩, by decide⟩

end AuthForge.TotpWindow
