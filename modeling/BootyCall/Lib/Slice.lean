import Mathlib.Data.List.Basic
import Mathlib.Data.Nat.Notation

namespace BootyCall.Lib.Slice

/-- What the language answers to an access outside a slice. -/
inductive Panic
  | outOfRange
  deriving DecidableEq

abbrev Access := Except Panic

variable {α : Type} (xs : List α)

def index (i : ℕ) : Access α :=
  match xs[i]? with
  | some x => .ok x
  | none => .error .outOfRange

def sliceFrom (i : ℕ) : Access (List α) :=
  if i ≤ xs.length then .ok (xs.drop i) else .error .outOfRange

def slice (i j : ℕ) : Access (List α) :=
  if i ≤ j ∧ j ≤ xs.length then .ok ((xs.drop i).take (j - i)) else .error .outOfRange

variable {xs}

theorem index_eq {i : ℕ} (h : i < xs.length) : index xs i = .ok xs[i] := by
  simp [index, h]

theorem sliceFrom_eq {i : ℕ} (h : i ≤ xs.length) : sliceFrom xs i = .ok (xs.drop i) := if_pos h

theorem slice_eq {i j : ℕ} (hij : i ≤ j) (hj : j ≤ xs.length) :
    slice xs i j = .ok ((xs.drop i).take (j - i)) := if_pos ⟨hij, hj⟩

end BootyCall.Lib.Slice
