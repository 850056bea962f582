import Mathlib.Tactic.Ring
import Mathlib.Data.Nat.ModEq

/-!
# Little-endian integers

Fixed-width little-endian encoding of unsigned integers and its inverse, with
the prefix readers used by a byte cursor.
-/

namespace Xerv.Lib

abbrev Bytes := List UInt8

/-- The `n` low bytes of `v`, least significant first. -/
def leBytes : ℕ → ℕ → Bytes
  | 0, _ => []
  | n + 1, v => UInt8.ofNat v :: leBytes n (v / 256)

def leVal : Bytes → ℕ
  | [] => 0
  | b :: bs => b.toNat + 256 * leVal bs

@[simp] theorem leBytes_length (n v : ℕ) : (leBytes n v).length = n := by
  induction n generalizing v with
  | zero => rfl
  | succ n ih => simp [leBytes, ih]

theorem leVal_leBytes (n v : ℕ) : leVal (leBytes n v) = v % 256 ^ n := by
  induction n generalizing v with
  | zero => simp [leBytes, leVal, Nat.mod_one]
  | succ n ih =>
    have hb : (UInt8.ofNat v).toNat = v % 256 := by simp
    simp only [leBytes, leVal, ih, hb, pow_succ']
    rw [Nat.mod_mul]

/-- Read `n` bytes as an unsigned integer; `none` when the cursor runs out. -/
def readLe (n : ℕ) (bs : Bytes) : Option (ℕ × Bytes) :=
  if n ≤ bs.length then some (leVal (bs.take n), bs.drop n) else none

theorem readLe_append (n v : ℕ) (rest : Bytes) (h : v < 256 ^ n) :
    readLe n (leBytes n v ++ rest) = some (v, rest) := by
  have hlen : n ≤ (leBytes n v ++ rest).length := by
    rw [List.length_append, leBytes_length]
    omega
  have htake : (leBytes n v ++ rest).take n = leBytes n v :=
    List.take_left' (leBytes_length n v)
  have hdrop : (leBytes n v ++ rest).drop n = rest :=
    List.drop_left' (leBytes_length n v)
  rw [readLe, if_pos hlen, htake, hdrop, leVal_leBytes, Nat.mod_eq_of_lt h]

def readBytes (n : ℕ) (bs : Bytes) : Option (Bytes × Bytes) :=
  if n ≤ bs.length then some (bs.take n, bs.drop n) else none

theorem readBytes_append (bs rest : Bytes) (n : ℕ) (h : bs.length = n) :
    readBytes n (bs ++ rest) = some (bs, rest) := by
  have hlen : n ≤ (bs ++ rest).length := by
    rw [List.length_append]
    omega
  rw [readBytes, if_pos hlen, List.take_left' h, List.drop_left' h]

end Xerv.Lib
