import Mathlib.Data.Nat.Notation
import Mathlib.Tactic.Ring

namespace BootyCall.Lib.Endian

/-- The last `k` bytes of a number, the highest first. -/
def bigEndian : ℕ → ℕ → List UInt8
  | 0, _ => []
  | k + 1, n => bigEndian k (n / 256) ++ [UInt8.ofNat n]

def ofBigEndian (bytes : List UInt8) : ℕ := bytes.foldl (fun n b ↦ n * 256 + b.toNat) 0

def littleEndian (k n : ℕ) : List UInt8 := (bigEndian k n).reverse

def ofLittleEndian (bytes : List UInt8) : ℕ := ofBigEndian bytes.reverse

def takeBytes (n : ℕ) (s : List UInt8) : Option (List UInt8 × List UInt8) :=
  if n ≤ s.length then some (s.take n, s.drop n) else none

@[simp]
theorem length_bigEndian (k n : ℕ) : (bigEndian k n).length = k := by
  induction k generalizing n with
  | zero => rfl
  | succ k ih => rw [bigEndian, List.length_append, ih, List.length_singleton]

@[simp]
theorem length_littleEndian (k n : ℕ) : (littleEndian k n).length = k := by
  rw [littleEndian, List.length_reverse, length_bigEndian]

theorem ofBigEndian_bigEndian {k n : ℕ} (h : n < 256 ^ k) : ofBigEndian (bigEndian k n) = n := by
  induction k generalizing n with
  | zero =>
    rw [pow_zero] at h
    obtain rfl : n = 0 := by omega
    rfl
  | succ k ih =>
    have hdiv : n / 256 < 256 ^ k := by
      rw [Nat.div_lt_iff_lt_mul (by omega)]
      rwa [pow_succ] at h
    rw [bigEndian, ofBigEndian, List.foldl_append, ← ofBigEndian, ih hdiv]
    simp only [List.foldl_cons, List.foldl_nil, UInt8.toNat_ofNat']
    omega

theorem ofLittleEndian_littleEndian {k n : ℕ} (h : n < 256 ^ k) :
    ofLittleEndian (littleEndian k n) = n := by
  rw [ofLittleEndian, littleEndian, List.reverse_reverse, ofBigEndian_bigEndian h]

theorem takeBytes_append {n : ℕ} {bytes : List UInt8} (h : bytes.length = n)
    (rest : List UInt8) : takeBytes n (bytes ++ rest) = some (bytes, rest) := by
  rw [takeBytes, if_pos, List.take_left' h, List.drop_left' h]
  rw [List.length_append]
  omega

end BootyCall.Lib.Endian
