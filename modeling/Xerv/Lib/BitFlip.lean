import Xerv.Lib.Crc32
import Mathlib.Data.Nat.Bitwise
import Mathlib.Tactic.NormNum

/-!
# One flipped bit

Flipping one bit of a byte string, what it does to a little-endian number, and that
CRC-32 tells two equally long byte strings apart that differ in one bit.
-/

namespace Xerv.Lib

/-- Bits are counted from the first byte on, least significant bit first. -/
def flipBit : Bytes → ℕ → Bytes
  | [], _ => []
  | b :: bs, i => if i < 8 then (b ^^^ UInt8.ofNat (2 ^ i)) :: bs else b :: flipBit bs (i - 8)

@[simp] theorem flipBit_length (bs : Bytes) (i : ℕ) : (flipBit bs i).length = bs.length := by
  induction bs generalizing i with
  | nil => rfl
  | cons b bs ih =>
    unfold flipBit
    split
    · rfl
    · rw [List.length_cons, List.length_cons, ih]

theorem flipBit_append_left (bs rest : Bytes) (i : ℕ) (h : i < 8 * bs.length) :
    flipBit (bs ++ rest) i = flipBit bs i ++ rest := by
  induction bs generalizing i with
  | nil => exact absurd h (by simp)
  | cons b bs ih =>
    rw [List.cons_append, flipBit, flipBit]
    by_cases hi : i < 8
    · rw [if_pos hi, if_pos hi, List.cons_append]
    · have hlt : i - 8 < 8 * bs.length := by
        rw [List.length_cons] at h
        omega
      rw [if_neg hi, if_neg hi, ih _ hlt, List.cons_append]

theorem flipBit_append_right (bs rest : Bytes) (i : ℕ) (h : 8 * bs.length ≤ i) :
    flipBit (bs ++ rest) i = bs ++ flipBit rest (i - 8 * bs.length) := by
  induction bs generalizing i with
  | nil => rfl
  | cons b bs ih =>
    rw [List.length_cons] at h
    have hi : ¬ i < 8 := by omega
    rw [List.cons_append, flipBit, if_neg hi, ih _ (by omega), List.length_cons, List.cons_append]
    congr 3
    omega

/-! ### Numbers -/

theorem xor_toNat_add (a c v w : ℕ) (ha : a < 2 ^ 8) (hc : c < 2 ^ 8) :
    (a + 2 ^ 8 * v) ^^^ (c + 2 ^ 8 * w) = (a ^^^ c) + 2 ^ 8 * (v ^^^ w) := by
  have hlow : ((a + 2 ^ 8 * v) ^^^ (c + 2 ^ 8 * w)) % 2 ^ 8 = a ^^^ c := by
    rw [Nat.xor_mod_two_pow, Nat.add_mul_mod_self_left, Nat.add_mul_mod_self_left,
      Nat.mod_eq_of_lt ha, Nat.mod_eq_of_lt hc]
  have hhigh : ((a + 2 ^ 8 * v) ^^^ (c + 2 ^ 8 * w)) / 2 ^ 8 = v ^^^ w := by
    rw [Nat.xor_div_two_pow, Nat.add_mul_div_left _ _ (by norm_num),
      Nat.add_mul_div_left _ _ (by norm_num), Nat.div_eq_of_lt ha, Nat.div_eq_of_lt hc,
      Nat.zero_add, Nat.zero_add]
  rw [← hlow, ← hhigh, Nat.mod_add_div]

theorem leVal_flipBit (bs : Bytes) (i : ℕ) (h : i < 8 * bs.length) :
    leVal (flipBit bs i) = leVal bs ^^^ 2 ^ i := by
  induction bs generalizing i with
  | nil => exact absurd h (by simp)
  | cons b bs ih =>
    have hb : b.toNat < 2 ^ 8 := b.toNat_lt
    unfold flipBit
    split
    next hi =>
      have hpow : 2 ^ i < 2 ^ 8 := Nat.pow_lt_pow_right (by norm_num) hi
      have hx := xor_toNat_add b.toNat (2 ^ i) (leVal bs) 0 hb hpow
      rw [Nat.mul_zero, Nat.add_zero, Nat.xor_zero] at hx
      rw [leVal, leVal, UInt8.toNat_xor, UInt8.toNat_ofNat_of_lt' hpow]
      exact hx.symm
    next hi =>
      have hlt : i - 8 < 8 * bs.length := by
        rw [List.length_cons] at h
        omega
      have hsplit : 2 ^ i = 2 ^ 8 * 2 ^ (i - 8) := by
        rw [← pow_add]
        congr 1
        omega
      have hx := xor_toNat_add b.toNat 0 (leVal bs) (2 ^ (i - 8)) hb (by norm_num)
      rw [Nat.zero_add, Nat.xor_zero, ← hsplit] at hx
      rw [leVal, leVal, ih _ hlt]
      exact hx.symm

theorem xor_two_pow_ne (n i : ℕ) : n ^^^ 2 ^ i ≠ n := by
  intro h
  have hbit := congrArg (fun m => Nat.testBit m i) h
  simp at hbit

theorem byte_flip_ne (b : UInt8) (i : ℕ) (h : i < 8) : b ^^^ UInt8.ofNat (2 ^ i) ≠ b := by
  intro he
  have hn := congrArg UInt8.toNat he
  rw [UInt8.toNat_xor, UInt8.toNat_ofNat_of_lt' (Nat.pow_lt_pow_right (by norm_num) h)] at hn
  exact xor_two_pow_ne _ _ hn

/-! ### CRC-32 -/

theorem crcBit_low (c : UInt32) : (c &&& 1 = 1) ↔ c.toNat.testBit 0 = true := by
  rw [← UInt32.toNat_inj, UInt32.toNat_and]
  simp

/-- The top bit of the next remainder is the low bit of this one. -/
theorem crcBit_top (c : UInt32) : (crcBit c).toNat.testBit 31 = c.toNat.testBit 0 := by
  have hshift : (c >>> 1).toNat.testBit 31 = false := by
    have hlt : (c >>> 1).toNat < 2 ^ 31 := by
      have := c.toNat_lt
      simp
      omega
    exact Nat.testBit_lt_two_pow hlt
  unfold crcBit
  split
  next hlow =>
    rw [UInt32.toNat_xor, Nat.testBit_xor, hshift, (crcBit_low c).mp hlow]
    decide
  next hlow =>
    have hzero : c.toNat.testBit 0 = false := by
      rw [← Bool.not_eq_true, ← crcBit_low]
      exact hlow
    rw [hshift, hzero]

theorem crcBit_injective : Function.Injective crcBit := by
  intro c d h
  have hlow : c.toNat.testBit 0 = d.toNat.testBit 0 := by
    rw [← crcBit_top, ← crcBit_top, h]
  have hshift : c >>> 1 = d >>> 1 := by
    unfold crcBit at h
    by_cases hc : c &&& 1 = 1
    · have hd : d &&& 1 = 1 := by rw [crcBit_low, ← hlow, ← crcBit_low]; exact hc
      rw [if_pos hc, if_pos hd] at h
      exact (UInt32.xor_left_inj _).mp h
    · have hd : ¬ d &&& 1 = 1 := by rw [crcBit_low, ← hlow, ← crcBit_low]; exact hc
      rwa [if_neg hc, if_neg hd] at h
  have hdiv : c.toNat / 2 = d.toNat / 2 := by
    have hn := congrArg UInt32.toNat hshift
    simpa [Nat.shiftRight_eq_div_pow] using hn
  rw [Nat.testBit_zero, Nat.testBit_zero] at hlow
  have hmod : c.toNat % 2 = d.toNat % 2 := by
    have hiff := decide_eq_decide.mp hlow
    omega
  rw [← UInt32.toNat_inj]
  omega

theorem crcByte_injective (b : UInt8) : Function.Injective fun c => crcByte c b := by
  intro c d h
  exact (UInt32.xor_left_inj _).mp (crcBit_injective.iterate 8 h)

theorem crcByte_byte_injective (c : UInt32) : Function.Injective (crcByte c) := by
  intro a b h
  have hwide := (UInt32.xor_right_inj _).mp (crcBit_injective.iterate 8 h)
  have hn := congrArg UInt32.toNat hwide
  rw [UInt8.toNat_toUInt32, UInt8.toNat_toUInt32] at hn
  exact UInt8.toNat_inj.mp hn

theorem foldl_crcByte_injective (bs : Bytes) : Function.Injective fun c => bs.foldl crcByte c := by
  induction bs with
  | nil => exact fun _ _ h => h
  | cons b bs ih => exact fun c d h => crcByte_injective b (ih h)

theorem foldl_crcByte_flipBit_ne (bs : Bytes) (i : ℕ) (c : UInt32) (h : i < 8 * bs.length) :
    (flipBit bs i).foldl crcByte c ≠ bs.foldl crcByte c := by
  induction bs generalizing i c with
  | nil => exact absurd h (by simp)
  | cons b bs ih =>
    unfold flipBit
    split
    next hi =>
      intro he
      exact byte_flip_ne b i hi (crcByte_byte_injective c (foldl_crcByte_injective bs he))
    next hi =>
      rw [List.length_cons] at h
      exact ih (i - 8) (crcByte c b) (by omega)

theorem crc32_flipBit_ne (bs : Bytes) (i : ℕ) (h : i < 8 * bs.length) :
    crc32 (flipBit bs i) ≠ crc32 bs := by
  intro he
  exact foldl_crcByte_flipBit_ne bs i _ h ((UInt32.xor_left_inj _).mp he)

end Xerv.Lib
