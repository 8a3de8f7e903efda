import Mathlib.Tactic.Ring

/-!
# Bit buffers

A machine word into which digits are shifted from the right and from which bytes are read. Only the
lowest bits of the word are still pending; what lies above them was read before and is never masked
away, so it falls off the word some time later. The lemmas speak about the pending bits alone, as a
number.
-/

namespace BitBuffer

variable {w : Nat}

/-- The lowest `k` bits of the word. -/
def pending (buffer : BitVec w) (k : Nat) : Nat := buffer.toNat % 2 ^ k

/-- Shifts a digit of `d` bits in. -/
def push (buffer : BitVec w) (d : Nat) (digit : Int) : BitVec w :=
  buffer <<< d ||| BitVec.ofInt w digit

@[simp] theorem pending_zero (buffer : BitVec w) : pending buffer 0 = 0 := by
  simp [pending, Nat.mod_one]

/-- The lower part of the pending bits. -/
theorem pending_low (buffer : BitVec w) (k d : Nat) :
    pending buffer k = pending buffer (k + d) % 2 ^ k := by
  unfold pending
  rw [Nat.mod_mod_of_dvd]
  exact pow_dvd_pow 2 (Nat.le_add_right k d)

/-- The digit stands below what was pending, whatever lay above it. -/
theorem pending_push (buffer : BitVec w) {k d digit : Nat} (hdigit : digit < 2 ^ d)
    (hroom : k + d ≤ w) :
    pending (push buffer d (digit : Int)) (k + d) = pending buffer k * 2 ^ d + digit := by
  have hfits : digit < 2 ^ w :=
    lt_of_lt_of_le hdigit (Nat.pow_le_pow_right (by omega) (by omega))
  have hshift : buffer.toNat <<< d % 2 ^ w = buffer.toNat % 2 ^ (w - d) * 2 ^ d := by
    rw [Nat.shiftLeft_eq, ← Nat.mul_mod_mul_right, ← Nat.pow_add, Nat.sub_add_cancel (by omega)]
  have hor : (push buffer d (digit : Int)).toNat = buffer.toNat % 2 ^ (w - d) * 2 ^ d + digit := by
    unfold push
    rw [BitVec.ofInt_natCast, BitVec.toNat_or, BitVec.toNat_shiftLeft, BitVec.toNat_ofNat,
      Nat.mod_eq_of_lt hfits, hshift, ← Nat.shiftLeft_eq,
      ← Nat.shiftLeft_add_eq_or_of_lt hdigit, Nat.shiftLeft_eq]
  have hlow : digit % 2 ^ d = digit := Nat.mod_eq_of_lt hdigit
  unfold pending
  rw [hor, Nat.add_comm k d, Nat.pow_add, Nat.mod_mul, Nat.add_comm _ digit,
    Nat.add_mul_mod_self_right, hlow, Nat.add_mul_div_right _ _ (Nat.two_pow_pos d),
    Nat.div_eq_of_lt hdigit, Nat.zero_add, Nat.mod_mod_of_dvd _ (pow_dvd_pow 2 (by omega))]
  ring

/-- The sign bits that an arithmetic shift brings in do not reach the byte that is read. -/
theorem toNat_take (buffer : BitVec w) {k d : Nat} (hroom : k + d ≤ w) :
    (buffer.sshiftRight k &&& BitVec.ofNat w (2 ^ d - 1)).toNat =
      pending buffer (k + d) / 2 ^ k := by
  apply Nat.eq_of_testBit_eq
  intro i
  have hmask : 2 ^ d - 1 < 2 ^ w :=
    lt_of_lt_of_le (Nat.sub_lt (Nat.two_pow_pos d) Nat.one_pos)
      (Nat.pow_le_pow_right (by omega) (by omega))
  rw [BitVec.toNat_and, BitVec.toNat_ofNat, Nat.mod_eq_of_lt hmask, Nat.testBit_and,
    Nat.testBit_two_pow_sub_one, pending, ← Nat.shiftRight_eq_div_pow, Nat.testBit_shiftRight,
    Nat.testBit_mod_two_pow, BitVec.testBit_toNat, BitVec.getLsbD_sshiftRight]
  by_cases hi : i < d
  · have hword : k + i < w := by omega
    have hbit : i < w := by omega
    simp [hi, hword, BitVec.testBit_toNat, Nat.not_le.mpr hbit]
  · simp [hi]

end BitBuffer
