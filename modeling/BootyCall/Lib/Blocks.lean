import Mathlib.Data.List.Range
import Mathlib.Data.List.Basic
import Mathlib.Tactic.Ring

namespace BootyCall.Lib.Blocks

variable {α β : Type}

def block (b : ℕ) (xs : List α) (k : ℕ) : List α := (xs.drop ((k - 1) * b)).take b

/-- How many blocks a list has when the last one must be shorter than `b`. -/
def lastIndex (b : ℕ) (xs : List α) : ℕ := xs.length / b + 1

theorem block_length (b : ℕ) (xs : List α) (k : ℕ) :
    (block b xs k).length = min b (xs.length - (k - 1) * b) := by
  simp [block]

theorem block_eq_extract (b : ℕ) (xs : List α) {k : ℕ} (hk : 1 ≤ k) :
    block b xs k = xs.extract ((k - 1) * b) (min (k * b) xs.length) := by
  obtain ⟨j, rfl⟩ : ∃ j, k = j + 1 := ⟨k - 1, by omega⟩
  have hmul : (j + 1) * b = j * b + b := Nat.succ_mul j b
  rw [block, List.extract_eq_take_drop, Nat.add_sub_cancel, List.take_eq_take_iff,
    List.length_drop]
  omega

theorem block_length_lt_iff {b : ℕ} (hb : 0 < b) (xs : List α) {k : ℕ} (hk : 1 ≤ k) :
    (block b xs k).length < b ↔ lastIndex b xs ≤ k := by
  obtain ⟨j, rfl⟩ : ∃ j, k = j + 1 := ⟨k - 1, by omega⟩
  rw [block_length, lastIndex, Nat.add_sub_cancel, Nat.add_le_add_iff_right,
    ← Nat.lt_succ_iff, Nat.div_lt_iff_lt_mul hb, Nat.succ_mul]
  omega

theorem block_full {b : ℕ} (hb : 0 < b) (xs : List α) {k : ℕ} (hk : 1 ≤ k)
    (hlt : k < lastIndex b xs) : (block b xs k).length = b := by
  have hle := (block_length b xs k).trans_le (Nat.min_le_left _ _)
  have hlong := mt (block_length_lt_iff hb xs hk).mp (Nat.not_le.mpr hlt)
  exact Nat.le_antisymm hle (Nat.not_lt.mp hlong)

theorem flatten_blocks (b : ℕ) (xs : List α) (n : ℕ) :
    ((List.range' 1 n).map (block b xs)).flatten = xs.take (n * b) := by
  induction n with
  | zero => simp
  | succ n ih =>
    rw [List.range'_1_concat, List.map_append, List.flatten_append, ih, Nat.succ_mul,
      List.take_add]
    simp [block]

theorem flatten_all {b : ℕ} (hb : 0 < b) (xs : List α) :
    ((List.range' 1 (lastIndex b xs)).map (block b xs)).flatten = xs := by
  rw [flatten_blocks]
  apply List.take_of_length_le
  have h := Nat.lt_div_mul_add (a := xs.length) hb
  rw [lastIndex, Nat.succ_mul]
  omega

theorem flatten_prefix (b : ℕ) (xs : List α) (n : ℕ) :
    ((List.range' 1 n).map (block b xs)).flatten <+: xs := by
  rw [flatten_blocks]
  exact List.take_prefix _ _

def interval (f : ℕ → β) (lo n : ℕ) : List (ℕ × β) := (List.range' lo n).map fun k ↦ (k, f k)

theorem interval_keys (f : ℕ → β) (lo n : ℕ) :
    (interval f lo n).map Prod.fst = List.range' lo n := by
  simp [interval, Function.comp_def]

theorem interval_length (f : ℕ → β) (lo n : ℕ) : (interval f lo n).length = n := by
  simp [interval]

theorem mem_interval {f : ℕ → β} {lo n : ℕ} {p : ℕ × β} :
    p ∈ interval f lo n ↔ (lo ≤ p.1 ∧ p.1 < lo + n) ∧ p.2 = f p.1 := by
  rw [interval, List.mem_map]
  constructor
  · rintro ⟨k, hk, rfl⟩
    exact ⟨List.mem_range'_1.mp hk, rfl⟩
  · rintro ⟨hk, hp⟩
    exact ⟨p.1, List.mem_range'_1.mpr hk, Prod.ext rfl hp.symm⟩

theorem interval_concat (f : ℕ → β) (lo n : ℕ) :
    interval f lo n ++ [(lo + n, f (lo + n))] = interval f lo (n + 1) := by
  simp only [interval, List.range'_1_concat, List.map_append, List.map_cons, List.map_nil]

theorem lookup_interval_of_mem (f : ℕ → β) {lo n k : ℕ} (hlo : lo ≤ k) (hn : k < lo + n) :
    (interval f lo n).lookup k = some (f k) := by
  induction n generalizing lo with
  | zero => omega
  | succ n ih =>
    rw [interval, List.range'_succ, List.map_cons, List.lookup_cons]
    by_cases hk : k = lo
    · simp [hk]
    · rw [beq_false_of_ne hk]
      exact ih (by omega) (by omega)

theorem lookup_interval_of_ge (f : ℕ → β) {lo n k : ℕ} (hn : lo + n ≤ k) :
    (interval f lo n).lookup k = none := by
  induction n generalizing lo with
  | zero => rfl
  | succ n ih =>
    rw [interval, List.range'_succ, List.map_cons, List.lookup_cons,
      beq_false_of_ne (show k ≠ lo by omega)]
    exact ih (by omega)

theorem filter_interval (f : ℕ → β) {lo n m : ℕ} (hlo : lo ≤ m) (hn : m ≤ lo + n) :
    (interval f lo n).filter (fun p ↦ decide (m ≤ p.1)) = interval f m (lo + n - m) := by
  induction n generalizing lo with
  | zero =>
    have hz : lo + 0 - m = 0 := by omega
    rw [hz]
    rfl
  | succ n ih =>
    have hcons : interval f lo (n + 1) = (lo, f lo) :: interval f (lo + 1) n := by
      simp only [interval, List.range'_succ, List.map_cons]
    by_cases hm : m = lo
    · subst hm
      have hall : ∀ p ∈ interval f m (n + 1), decide (m ≤ p.1) = true := fun p hp ↦
        decide_eq_true (mem_interval.mp hp).1.1
      rw [List.filter_eq_self.mpr hall, Nat.add_sub_cancel_left]
    · rw [hcons, List.filter_cons_of_neg (by simp; omega), ih (by omega) (by omega)]
      congr 1
      omega

end BootyCall.Lib.Blocks
