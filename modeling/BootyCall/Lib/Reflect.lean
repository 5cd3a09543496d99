import Mathlib.Algebra.Order.Ring.Abs
import Mathlib.Logic.Function.Iterate
import Mathlib.Tactic.Ring

namespace BootyCall.Lib.Reflect

/-- A position on a line, and the step that is taken from it next. -/
structure Walker where
  pos : ℤ
  dir : ℤ

/-- A step, and back to the wall that it leads to or past; the upper wall is looked at first. -/
def Walker.step (lo hi : ℤ) (w : Walker) : Walker :=
  if hi ≤ w.pos + w.dir then ⟨hi, -|w.dir|⟩
  else if w.pos + w.dir ≤ lo then ⟨lo, |w.dir|⟩
  else ⟨w.pos + w.dir, w.dir⟩

def zigzag (m n : ℕ) : ℕ := min (n % (2 * m)) (2 * m - n % (2 * m))

variable {lo hi : ℤ} {m n : ℕ}

theorem step_le (h : hi ≤ lo) (w : Walker) : (w.step lo hi).pos ≤ lo := by
  rw [Walker.step]
  split
  · exact h
  · split
    · exact le_rfl
    · dsimp only
      omega

theorem zigzag_le (m n : ℕ) : zigzag m n ≤ m := by
  rw [zigzag]
  omega

theorem zigzag_of_le {k : ℕ} (h : k ≤ m) (j : ℕ) : zigzag m (2 * m * j + k) = k := by
  rw [zigzag, Nat.mul_add_mod]
  rcases Nat.eq_zero_or_pos m with rfl | hm
  · omega
  · rw [Nat.mod_eq_of_lt (by omega)]
    omega

theorem add_one_mod (n : ℕ) {p : ℕ} (h : 0 < p) :
    (n + 1) % p = if n % p + 1 = p then 0 else n % p + 1 := by
  have hlt := Nat.mod_lt n h
  rw [← Nat.mod_add_mod]
  split
  · next hlast => rw [hlast, Nat.mod_self]
  · next hlast => exact Nat.mod_eq_of_lt (by omega)

/-- From the lower wall a unit step leads up and down in a zigzag. -/
theorem iterate_step (h : 0 < m) (lo : ℤ) (n : ℕ) :
    (Walker.step lo (lo + m))^[n] ⟨lo, 1⟩ =
      ⟨lo + zigzag m n, if n % (2 * m) < m then 1 else -1⟩ := by
  induction n with
  | zero => simp [zigzag, h]
  | succ n ih =>
    have hlt := Nat.mod_lt n (Nat.mul_pos Nat.two_pos h)
    rw [Function.iterate_succ_apply', ih, zigzag, zigzag, add_one_mod n (by omega)]
    generalize n % (2 * m) = r at hlt ⊢
    by_cases hup : r < m
    · rw [if_pos hup, Walker.step]
      dsimp only
      by_cases htop : r + 1 = m
      · rw [if_pos (by omega), if_neg (by omega : r + 1 ≠ 2 * m), if_neg (by omega), abs_one,
          Walker.mk.injEq]
        omega
      · rw [if_neg (by omega), if_neg (by omega), if_neg (by omega : r + 1 ≠ 2 * m),
          if_pos (by omega), Walker.mk.injEq]
        omega
    · rw [if_neg hup, Walker.step]
      dsimp only
      rw [if_neg (by omega), abs_neg, abs_one]
      by_cases hbottom : r + 1 = 2 * m
      · rw [if_pos (by omega), if_pos hbottom, if_pos (by omega), Walker.mk.injEq]
        omega
      · rw [if_neg (by omega), if_neg hbottom, if_neg (by omega), Walker.mk.injEq]
        omega

theorem iterate_step_le (h : hi ≤ lo) (dir : ℤ) (n : ℕ) :
    ((Walker.step lo hi)^[n] ⟨lo, dir⟩).pos ≤ lo := by
  cases n with
  | zero => exact le_rfl
  | succ n =>
    rw [Function.iterate_succ_apply']
    exact step_le h _

/-- Where a walker is that starts upwards at the lower wall, seen from that wall on. -/
theorem max_iterate_step (lo hi : ℤ) (n : ℕ) :
    max ((Walker.step lo hi)^[n] ⟨lo, 1⟩).pos lo = lo + zigzag (hi - lo).toNat n := by
  rcases lt_or_ge lo hi with hlt | hge
  · obtain ⟨m, hm⟩ : ∃ m : ℕ, hi = lo + m := ⟨(hi - lo).toNat, by omega⟩
    subst hm
    rw [iterate_step (by omega), add_sub_cancel_left, Int.toNat_natCast]
    exact max_eq_left (a := lo + zigzag m n) (by omega)
  · have hzero : (hi - lo).toNat = 0 := by omega
    have hle := iterate_step_le hge 1 n
    have hstill := zigzag_le 0 n
    rw [hzero]
    omega

end BootyCall.Lib.Reflect
