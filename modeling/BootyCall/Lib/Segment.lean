import Mathlib.Algebra.Order.Field.Rat
import Mathlib.Algebra.Order.Field.Basic
import Mathlib.Data.Rat.Cast.Order
import Mathlib.Tactic.FieldSimp
import Mathlib.Tactic.Linarith
import Mathlib.Tactic.LinearCombination
import Mathlib.Tactic.Ring

namespace BootyCall.Lib.Segment

section Walk

variable {a b : ℕ}

/-- The error of a point against the diagonal of an `a` by `b` rectangle: zero on it, negative
below it. -/
def offset (a b : ℕ) (p : ℕ × ℕ) : ℤ := p.2 * a - p.1 * b

/-- A step of the walk along the diagonal; it looks at the error behind a move on both axes. -/
def next (a b : ℕ) (p : ℕ × ℕ) : ℕ × ℕ :=
  let err : ℤ := offset a b p + a - b
  (if -(b : ℤ) ≤ 2 * err then p.1 + 1 else p.1, if 2 * err ≤ a then p.2 + 1 else p.2)

def walk (a b : ℕ) : ℕ → ℕ × ℕ
  | 0 => (0, 0)
  | n + 1 => next a b (walk a b n)

theorem offset_swap (p : ℕ × ℕ) : offset b a p.swap = -offset a b p := by
  simp only [offset, Prod.fst_swap, Prod.snd_swap]
  ring

theorem next_swap (p : ℕ × ℕ) : next b a p.swap = (next a b p).swap := by
  have herr := offset_swap (a := a) (b := b) p
  simp only [next, herr, Prod.fst_swap, Prod.snd_swap, Prod.swap_prod_mk]
  congr 1
  · exact if_congr (by omega) rfl rfl
  · exact if_congr (by omega) rfl rfl

/-- The two axes are treated alike. -/
theorem walk_swap (n : ℕ) : walk b a n = (walk a b n).swap := by
  induction n with
  | zero => rfl
  | succ n ih => rw [walk, walk, ih, next_swap]

theorem offset_right (i j : ℕ) : offset a b (i + 1, j) = offset a b (i, j) - b := by
  simp only [offset]
  push_cast
  ring

theorem offset_up (i j : ℕ) : offset a b (i, j + 1) = offset a b (i, j) + a := by
  simp only [offset]
  push_cast
  ring

theorem offset_diagonal (i j : ℕ) :
    offset a b (i + 1, j + 1) = offset a b (i, j) + a - b := by
  simp only [offset]
  push_cast
  ring

/-- A step along the longer axis is made every time, and the error stays within its half. -/
theorem next_spec {p : ℕ × ℕ} (h : b ≤ a) (hnear : 2 * (offset a b p).natAbs ≤ a) :
    2 * (offset a b (next a b p)).natAbs ≤ a ∧ (next a b p).1 = p.1 + 1 ∧
      (next a b p).2 ≤ p.2 + 1 ∧ p.2 ≤ (next a b p).2 := by
  obtain ⟨i, j⟩ := p
  have hstay := offset_right (a := a) (b := b) i j
  have hmove := offset_diagonal (a := a) (b := b) i j
  have hfst : -(b : ℤ) ≤ 2 * (offset a b (i, j) + a - b) := by omega
  have hnext : next a b (i, j) =
      (i + 1, if 2 * (offset a b (i, j) + a - b) ≤ a then j + 1 else j) := by
    rw [next, if_pos hfst]
  rw [hnext]
  split
  next hsnd =>
    rw [hmove]
    omega
  next hsnd =>
    rw [hstay]
    omega

/-- Where the first axis is not the shorter one, each step moves along it. -/
theorem walk_spec (h : b ≤ a) (n : ℕ) :
    2 * (offset a b (walk a b n)).natAbs ≤ a ∧ (walk a b n).1 = n := by
  induction n with
  | zero => simp [walk, offset]
  | succ n ih =>
    have hnext := next_spec h ih.1
    rw [walk]
    exact ⟨hnext.1, by omega⟩

theorem walk_snd_le (h : b ≤ a) {n : ℕ} (hn : n ≤ a) : (walk a b n).2 ≤ b := by
  obtain ⟨hnear, hfst⟩ := walk_spec h n
  by_contra hsnd
  have hrow : (b + 1) * a ≤ (walk a b n).2 * a := Nat.mul_le_mul_right a (by omega)
  have hcolumn : n * b ≤ a * b := Nat.mul_le_mul_right b hn
  rw [Nat.succ_mul, Nat.mul_comm b a] at hrow
  rw [offset, hfst] at hnear
  obtain rfl : a = 0 := by
    zify at hrow hcolumn
    omega
  obtain rfl : n = 0 := by omega
  exact hsnd (Nat.zero_le b)

theorem walk_end_snd (h : b ≤ a) : (walk a b a).2 = b := by
  obtain ⟨hnear, hfst⟩ := walk_spec h a
  have hle := walk_snd_le h (Nat.le_refl a)
  by_contra hsnd
  have hrow : ((walk a b a).2 + 1) * a ≤ b * a := Nat.mul_le_mul_right a (by omega)
  rw [Nat.succ_mul, Nat.mul_comm b a] at hrow
  rw [offset, hfst] at hnear
  obtain rfl : a = 0 := by
    zify at hrow
    omega
  omega

theorem walk_near (a b n : ℕ) : 2 * (offset a b (walk a b n)).natAbs ≤ max a b := by
  rcases Nat.le_total b a with h | h
  · have hspec := (walk_spec h n).1
    omega
  · have hspec := (walk_spec h n).1
    rw [walk_swap, offset_swap] at hspec
    omega

theorem walk_le {n : ℕ} (hn : n ≤ max a b) : (walk a b n).1 ≤ a ∧ (walk a b n).2 ≤ b := by
  rcases Nat.le_total b a with h | h
  · have hfst := (walk_spec h n).2
    exact ⟨by omega, walk_snd_le h (by omega)⟩
  · have hfst := (walk_spec h n).2
    have hsnd := walk_snd_le h (n := n) (by omega)
    rw [walk_swap] at hfst hsnd
    exact ⟨hsnd, by rw [Prod.fst_swap] at hfst; omega⟩

theorem walk_eq_iff {n : ℕ} (hn : n ≤ max a b) : walk a b n = (a, b) ↔ n = max a b := by
  rcases Nat.le_total b a with h | h
  · have hfst := (walk_spec h n).2
    constructor
    · intro heq
      rw [heq] at hfst
      omega
    · intro heq
      obtain rfl : n = a := by omega
      exact Prod.ext hfst (walk_end_snd h)
  · have hfst := (walk_spec h n).2
    rw [walk_swap, Prod.fst_swap] at hfst
    constructor
    · intro heq
      rw [heq] at hfst
      omega
    · intro heq
      obtain rfl : n = b := by omega
      have hend := walk_end_snd h
      rw [walk_swap, Prod.snd_swap] at hend
      exact Prod.ext hend hfst

theorem next_moves (a b : ℕ) (p : ℕ × ℕ) :
    ((next a b p).1 = p.1 ∨ (next a b p).1 = p.1 + 1) ∧
      ((next a b p).2 = p.2 ∨ (next a b p).2 = p.2 + 1) := by
  simp only [next]
  constructor <;> split <;> omega

theorem walk_moves (a b n : ℕ) : walk a b (n + 1) ≠ walk a b n := by
  intro heq
  rcases Nat.le_total b a with h | h
  · have hn := (walk_spec h n).2
    have hsucc := (walk_spec h (n + 1)).2
    rw [heq] at hsucc
    omega
  · have hn := (walk_spec h n).2
    have hsucc := (walk_spec h (n + 1)).2
    rw [walk_swap, Prod.fst_swap] at hn hsucc
    rw [heq] at hsucc
    omega

end Walk

section Line

def unit (u v : ℤ) : ℤ := if u < v then 1 else -1

def extent (p q : ℤ × ℤ) : ℕ × ℕ := ((q.1 - p.1).natAbs, (q.2 - p.2).natAbs)

/-- The number of steps between two points: that of the longer axis. -/
def span (p q : ℤ × ℤ) : ℕ := max (extent p q).1 (extent p q).2

def line (p q : ℤ × ℤ) (n : ℕ) : ℤ × ℤ :=
  let w := walk (extent p q).1 (extent p q).2 n
  (p.1 + unit p.1 q.1 * w.1, p.2 + unit p.2 q.2 * w.2)

def Between (p q r : ℤ × ℤ) : Prop :=
  (min p.1 q.1 ≤ r.1 ∧ r.1 ≤ max p.1 q.1) ∧ min p.2 q.2 ≤ r.2 ∧ r.2 ≤ max p.2 q.2

/-- From `r` to `r'`, one of the eight points around it, in the direction of `q`. -/
def Toward (q r r' : ℤ × ℤ) : Prop :=
  r' ≠ r ∧ (r'.1 = r.1 ∨ r'.1 = r.1 + (q.1 - r.1).sign) ∧
    (r'.2 = r.2 ∨ r'.2 = r.2 + (q.2 - r.2).sign)

/-- Within half a unit of the ideal segment from `p` to `q`, along its shorter axis. -/
def Near (p q r : ℤ × ℤ) : Prop :=
  (|q.2 - p.2| ≤ |q.1 - p.1| →
    |(r.2 : ℚ) - (p.2 + (r.1 - p.1) * ((q.2 - p.2) / (q.1 - p.1)))| ≤ 1 / 2) ∧
  (|q.1 - p.1| ≤ |q.2 - p.2| →
    |(r.1 : ℚ) - (p.1 + (r.2 - p.2) * ((q.1 - p.1) / (q.2 - p.2)))| ≤ 1 / 2)

variable {p q : ℤ × ℤ}

theorem unit_mul_natAbs (u v : ℤ) : unit u v * (v - u).natAbs = v - u := by
  rw [unit]
  split <;> omega

theorem natAbs_unit (u v : ℤ) : (unit u v).natAbs = 1 := by
  rw [unit]
  split <;> rfl

theorem unit_mul_injective (u v : ℤ) {i j : ℕ} (h : unit u v * i = unit u v * j) : i = j := by
  rw [unit] at h
  split at h <;> omega

theorem reached_axis {u v : ℤ} {i : ℕ} : u + unit u v * i = v ↔ i = (v - u).natAbs := by
  rw [unit]
  split <;> omega

theorem line_zero (p q : ℤ × ℤ) : line p q 0 = p := by
  simp [line, walk]

theorem line_eq_iff {n : ℕ} (hn : n ≤ span p q) : line p q n = q ↔ n = span p q := by
  rw [span, ← walk_eq_iff hn, line, Prod.ext_iff, Prod.ext_iff]
  exact and_congr reached_axis reached_axis

theorem between_axis {u v : ℤ} {i : ℕ} (h : i ≤ (v - u).natAbs) :
    min u v ≤ u + unit u v * i ∧ u + unit u v * i ≤ max u v := by
  rw [unit]
  split <;> omega

theorem line_between {n : ℕ} (hn : n ≤ span p q) : Between p q (line p q n) := by
  obtain ⟨hfst, hsnd⟩ := walk_le hn
  exact ⟨between_axis hfst, between_axis hsnd⟩

theorem toward_axis {u v : ℤ} {i i' : ℕ} (hmove : i' = i ∨ i' = i + 1)
    (hle : i' ≤ (v - u).natAbs) :
    u + unit u v * i' = u + unit u v * i ∨
      u + unit u v * i' = u + unit u v * i + (v - (u + unit u v * i)).sign := by
  rcases hmove with rfl | rfl
  · exact .inl rfl
  · right
    rw [unit]
    split
    · rw [Int.sign_eq_one_of_pos (by omega)]
      omega
    · rw [Int.sign_eq_neg_one_of_neg (by omega)]
      omega

theorem line_toward {n : ℕ} (hn : n < span p q) :
    Toward q (line p q n) (line p q (n + 1)) := by
  obtain ⟨hfst, hsnd⟩ := walk_le (Nat.succ_le_of_lt hn)
  obtain ⟨hright, hup⟩ := next_moves (extent p q).1 (extent p q).2 (walk _ _ n)
  refine ⟨?_, toward_axis hright hfst, toward_axis hup hsnd⟩
  intro heq
  have hcoordinates := Prod.ext_iff.mp heq
  simp only [line, add_right_inj] at hcoordinates
  exact walk_moves _ _ n (Prod.ext (unit_mul_injective _ _ hcoordinates.1)
    (unit_mul_injective _ _ hcoordinates.2))

theorem near_axis {u v d e : ℤ} (hcross : 2 * (v * d - u * e).natAbs ≤ d.natAbs)
    (hzero : d = 0 → v = 0) :
    |(v : ℚ) - u * (e / d)| ≤ 1 / 2 := by
  by_cases hd : d = 0
  · rw [hd, hzero hd]
    simp
  · have hd' : (d : ℚ) ≠ 0 := by exact_mod_cast hd
    have habs : 2 * |v * d - u * e| ≤ |d| := by
      rw [Int.abs_eq_natAbs, Int.abs_eq_natAbs]
      exact_mod_cast hcross
    have hcast : 2 * |(v : ℚ) * d - u * e| ≤ |(d : ℚ)| := by exact_mod_cast habs
    have heq : (v : ℚ) - u * (e / d) = (v * d - u * e) / d := by
      field_simp
    rw [heq, abs_div, div_le_div_iff₀ (abs_pos.mpr hd') (by norm_num)]
    linarith

theorem line_cross (p q : ℤ × ℤ) (n : ℕ) :
    (((line p q n).2 - p.2) * (q.1 - p.1) - ((line p q n).1 - p.1) * (q.2 - p.2)).natAbs =
      (offset (extent p q).1 (extent p q).2
        (walk (extent p q).1 (extent p q).2 n)).natAbs := by
  have hcross : ((line p q n).2 - p.2) * (q.1 - p.1) - ((line p q n).1 - p.1) * (q.2 - p.2) =
      unit p.1 q.1 * unit p.2 q.2 * offset (extent p q).1 (extent p q).2
        (walk (extent p q).1 (extent p q).2 n) := by
    have hfst := unit_mul_natAbs p.1 q.1
    have hsnd := unit_mul_natAbs p.2 q.2
    simp only [line, offset, extent]
    generalize walk (q.1 - p.1).natAbs (q.2 - p.2).natAbs n = w
    linear_combination unit p.1 q.1 * w.1 * hsnd - unit p.2 q.2 * w.2 * hfst
  rw [hcross, Int.natAbs_mul, Int.natAbs_mul, natAbs_unit, natAbs_unit, one_mul, one_mul]

theorem line_near {n : ℕ} (hn : n ≤ span p q) : Near p q (line p q n) := by
  have hclose := walk_near (extent p q).1 (extent p q).2 n
  rw [← line_cross p q n] at hclose
  obtain ⟨hfst, hsnd⟩ := line_between hn
  simp only [extent] at hclose
  constructor
  · intro hlong
    rw [Int.abs_eq_natAbs, Int.abs_eq_natAbs] at hlong
    have haxis := near_axis (v := (line p q n).2 - p.2) (u := (line p q n).1 - p.1)
      (d := q.1 - p.1) (e := q.2 - p.2) (by omega) (by omega)
    push_cast at haxis
    rwa [sub_sub] at haxis
  · intro hlong
    rw [Int.abs_eq_natAbs, Int.abs_eq_natAbs] at hlong
    have haxis := near_axis (v := (line p q n).1 - p.1) (u := (line p q n).2 - p.2)
      (d := q.2 - p.2) (e := q.1 - p.1) (by omega) (by omega)
    push_cast at haxis
    rwa [sub_sub] at haxis

end Line

end BootyCall.Lib.Segment
