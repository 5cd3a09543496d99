import Mathlib.Algebra.Field.ZMod
import Mathlib.Algebra.Polynomial.Div
import Mathlib.Algebra.Polynomial.BigOperators
import Mathlib.Algebra.CharP.Two
import Mathlib.Tactic.LinearCombination

namespace BootyCall.Lib.Crc

open Polynomial

variable {w : ℕ}

def coeffOf (b : Bool) : ZMod 2 := if b then 1 else 0

/-- The bits of a register as coefficients; the lowest bit belongs to the highest power. -/
noncomputable def poly (r : BitVec w) : (ZMod 2)[X] :=
  ∑ i ∈ Finset.range w, C (coeffOf (r.getLsbD i)) * X ^ (w - 1 - i)

noncomputable def generator (mask : BitVec w) : (ZMod 2)[X] := X ^ w + poly mask

def shift (mask r : BitVec w) : BitVec w :=
  if r.getLsbD 0 then (r >>> 1) ^^^ mask else r >>> 1

def takeIn (mask r : BitVec w) (b : UInt8) : BitVec w :=
  (shift mask)^[8] (r ^^^ b.toBitVec.setWidth w)

def register (mask init : BitVec w) (data : List UInt8) : BitVec w :=
  data.foldl (takeIn mask) init

/-- The bits of a message, each byte from its lowest bit on, as coefficients in falling powers. -/
noncomputable def message (data : List UInt8) : (ZMod 2)[X] :=
  data.foldl (fun m b ↦ m * X ^ 8 + poly b.toBitVec) 0

variable {mask r s : BitVec w}

theorem coeffOf_xor (a b : Bool) : coeffOf (a ^^ b) = coeffOf a + coeffOf b := by
  revert a b
  decide

theorem coeff_poly (r : BitVec w) (i : ℕ) :
    (poly r).coeff i = if i < w then coeffOf (r.getLsbD (w - 1 - i)) else 0 := by
  simp only [poly, finsetSum_coeff, coeff_C_mul, coeff_X_pow]
  by_cases hi : i < w
  · rw [if_pos hi, Finset.sum_eq_single (w - 1 - i)]
    · rw [if_pos (by omega), mul_one]
    · intro j hj hne
      rw [Finset.mem_range] at hj
      rw [if_neg (by omega), mul_zero]
    · intro hout
      exact absurd (Finset.mem_range.mpr (by omega)) hout
  · rw [if_neg hi]
    apply Finset.sum_eq_zero
    intro j hj
    rw [Finset.mem_range] at hj
    rw [if_neg (by omega), mul_zero]

theorem poly_xor (r s : BitVec w) : poly (r ^^^ s) = poly r + poly s := by
  ext i
  rw [coeff_add, coeff_poly, coeff_poly, coeff_poly, BitVec.getLsbD_xor, coeffOf_xor]
  split
  · rfl
  · rw [add_zero]

theorem degree_poly_lt (r : BitVec w) : (poly r).degree < w := by
  rw [degree_lt_iff_coeff_zero]
  intro i hi
  rw [coeff_poly, if_neg (by omega)]

theorem poly_injective : Function.Injective (poly : BitVec w → (ZMod 2)[X]) := by
  intro r s h
  apply BitVec.eq_of_getLsbD_eq
  intro i hi
  have hcoeff := congrArg (coeff · (w - 1 - i)) h
  simp only [coeff_poly, if_pos (by omega : w - 1 - i < w)] at hcoeff
  rw [show w - 1 - (w - 1 - i) = i by omega] at hcoeff
  revert hcoeff
  cases r.getLsbD i <;> cases s.getLsbD i <;> decide

theorem X_mul_poly (r : BitVec w) :
    X * poly r = poly (r >>> 1) + C (coeffOf (r.getLsbD 0)) * X ^ w := by
  have hzero : coeffOf false = 0 := rfl
  ext i
  rw [coeff_add, coeff_poly, coeff_C_mul, coeff_X_pow, BitVec.getLsbD_ushiftRight]
  cases i with
  | zero =>
    rw [coeff_X_mul_zero, BitVec.getLsbD_of_ge r _ (by omega), hzero, ite_self, zero_add]
    by_cases hw : 0 = w
    · rw [BitVec.getLsbD_of_ge r 0 (by omega), hzero, zero_mul]
    · rw [if_neg hw, mul_zero]
  | succ i =>
    rw [coeff_X_mul, coeff_poly]
    by_cases hlt : i + 1 < w
    · rw [if_pos (by omega), if_pos hlt, if_neg (by omega), mul_zero, add_zero,
        show 1 + (w - 1 - (i + 1)) = w - 1 - i by omega]
    · by_cases heq : i + 1 = w
      · rw [if_pos (by omega), if_neg hlt, if_pos heq, mul_one, zero_add,
          show w - 1 - i = 0 by omega]
      · rw [if_neg (by omega), if_neg hlt, if_neg heq, mul_zero, add_zero]

theorem poly_setWidth {v : ℕ} (h : v ≤ w) (r : BitVec v) :
    poly (r.setWidth w) = X ^ (w - v) * poly r := by
  ext i
  rw [coeff_X_pow_mul', coeff_poly, coeff_poly, BitVec.getLsbD_setWidth]
  by_cases hi : i < w
  · rw [if_pos hi, decide_eq_true (by omega : w - 1 - i < w), Bool.true_and]
    by_cases hlow : w - v ≤ i
    · rw [if_pos hlow, if_pos (by omega), show v - 1 - (i - (w - v)) = w - 1 - i by omega]
    · rw [if_neg hlow, BitVec.getLsbD_of_ge r _ (by omega)]
      rfl
  · rw [if_neg hi]
    split
    · rw [if_neg (by omega)]
    · rfl

theorem monic_generator (mask : BitVec w) : (generator mask).Monic :=
  monic_X_pow_add (degree_poly_lt mask)

theorem degree_generator (mask : BitVec w) : (generator mask).degree = w :=
  (degree_add_eq_left_of_degree_lt ((degree_poly_lt mask).trans_eq (degree_X_pow w).symm)).trans
    (degree_X_pow w)

theorem poly_shift (mask r : BitVec w) :
    X * poly r = poly (shift mask r) + generator mask * C (coeffOf (r.getLsbD 0)) := by
  rw [X_mul_poly, shift, generator]
  cases r.getLsbD 0 with
  | false => simp [coeffOf]
  | true =>
    have htwice : poly mask + poly mask = 0 := CharTwo.add_self_eq_zero _
    simp only [coeffOf, if_true, C_1, one_mul, mul_one, poly_xor]
    linear_combination -htwice

theorem poly_shift_iterate (mask r : BitVec w) (n : ℕ) :
    ∃ q, X ^ n * poly r = poly ((shift mask)^[n] r) + generator mask * q := by
  induction n with
  | zero => exact ⟨0, by simp⟩
  | succ n ih =>
    obtain ⟨q, hq⟩ := ih
    have hstep := poly_shift mask ((shift mask)^[n] r)
    refine ⟨X * q + C (coeffOf (((shift mask)^[n] r).getLsbD 0)), ?_⟩
    rw [Function.iterate_succ_apply', pow_succ']
    linear_combination X * hq + hstep

theorem poly_takeIn (hw : 8 ≤ w) (mask r : BitVec w) (b : UInt8) :
    ∃ q, X ^ 8 * poly r + X ^ w * poly b.toBitVec =
      poly (takeIn mask r b) + generator mask * q := by
  obtain ⟨q, hq⟩ := poly_shift_iterate mask (r ^^^ b.toBitVec.setWidth w) 8
  refine ⟨q, ?_⟩
  have hpow : (X : (ZMod 2)[X]) ^ 8 * X ^ (w - 8) = X ^ w := by
    rw [← pow_add, Nat.add_sub_cancel' hw]
  rw [takeIn, ← hq, poly_xor, poly_setWidth hw, ← hpow]
  ring

/-- What the register holds is the remainder of the message behind its initial value. -/
theorem poly_register (hw : 8 ≤ w) (mask init : BitVec w) (data : List UInt8) :
    poly (register mask init data) =
      (X ^ (8 * data.length) * poly init + X ^ w * message data) %ₘ generator mask := by
  have hquotient : ∃ q, X ^ (8 * data.length) * poly init + X ^ w * message data =
      poly (register mask init data) + generator mask * q := by
    induction data using List.reverseRecOn with
    | nil => exact ⟨0, by simp [message, register]⟩
    | append_singleton data b ih =>
      obtain ⟨q, hq⟩ := ih
      obtain ⟨q', hq'⟩ := poly_takeIn hw mask (register mask init data) b
      refine ⟨X ^ 8 * q + q', ?_⟩
      have hmessage : message (data ++ [b]) = message data * X ^ 8 + poly b.toBitVec := by
        simp only [message, List.foldl_append, List.foldl_cons, List.foldl_nil]
      have hregister : register mask init (data ++ [b]) =
          takeIn mask (register mask init data) b := by
        simp only [register, List.foldl_append, List.foldl_cons, List.foldl_nil]
      rw [hmessage, hregister, List.length_append, List.length_singleton, Nat.mul_add, pow_add]
      linear_combination X ^ 8 * hq + hq'
  obtain ⟨q, hq⟩ := hquotient
  have hdegree : (poly (register mask init data)).degree < (generator mask).degree := by
    rw [degree_generator]
    exact degree_poly_lt _
  exact (div_modByMonic_unique q _ (monic_generator mask) ⟨hq.symm, hdegree⟩).2.symm

end BootyCall.Lib.Crc
