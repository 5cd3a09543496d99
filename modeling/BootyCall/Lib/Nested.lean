import BootyCall.Lib.FileOps

namespace BootyCall.Lib.Nested

open FileOps

variable {Name Path Byte : Type}

def view (place : Name → Path) (files : Dir Path Byte) : Dir Name Byte := fun n ↦ files (place n)

def moved (place : Name → Path) : Op Name Byte → Op Path Byte
  | .create n => .create (place n)
  | .append n b => .append (place n) b
  | .remove n => .remove (place n)

variable {place place' : Name → Path} {files : Dir Path Byte} {ops ops' : List (Op Name Byte)}
  {p : Path}

theorem target_moved (op : Op Name Byte) : (moved place op).target = place op.target := by
  cases op <;> rfl

variable [DecidableEq Path]

theorem run_outside (h : ∀ n, place n ≠ p) : run files (ops.map (moved place)) p = files p := by
  apply run_of_untouched
  rw [touches, List.any_map, List.any_eq_false]
  intro op _
  simp only [Function.comp_apply, target_moved, decide_eq_true_eq]
  exact h op.target

theorem view_run_outside (h : ∀ n m, place n ≠ place' m) :
    view place' (run files (ops.map (moved place))) = view place' files := by
  funext m
  exact run_outside fun n ↦ h n m

variable [DecidableEq Name]

theorem view_moved (hplace : Function.Injective place) (op : Op Name Byte) :
    view place ((moved place op).apply files) = op.apply (view place files) := by
  funext n
  cases op <;> simp only [view, moved, Op.apply, Function.update_apply, hplace.eq_iff]

/-- Operations on a directory do to the files there what they would do to them alone. -/
theorem view_run (hplace : Function.Injective place) :
    view place (run files (ops.map (moved place))) = run (view place files) ops := by
  induction ops generalizing files with
  | nil => rfl
  | cons op ops ih =>
    rw [List.map_cons, run, List.foldl_cons, ← run, ih, view_moved hplace]
    rfl

theorem run_place (hplace : Function.Injective place) (n : Name) :
    run files (ops.map (moved place)) (place n) = run (view place files) ops n :=
  congrFun (view_run hplace) n

/-- Operations on two directories without a common place can be swapped. -/
theorem run_comm (hplace : Function.Injective place) (hplace' : Function.Injective place')
    (h : ∀ n m, place n ≠ place' m) :
    run (run files (ops.map (moved place))) (ops'.map (moved place')) =
      run (run files (ops'.map (moved place'))) (ops.map (moved place)) := by
  have h' : ∀ m n, place' m ≠ place n := fun m n ↦ (h n m).symm
  funext p
  by_cases hp : ∃ n, place n = p
  · obtain ⟨n, rfl⟩ := hp
    rw [run_outside fun m ↦ h' m n, run_place hplace, run_place hplace, view_run_outside h']
  · have hp : ∀ n, place n ≠ p := fun n hn ↦ hp ⟨n, hn⟩
    by_cases hp' : ∃ m, place' m = p
    · obtain ⟨m, rfl⟩ := hp'
      rw [run_outside fun n ↦ h n m, run_place hplace', run_place hplace', view_run_outside h]
    · have hp' : ∀ m, place' m ≠ p := fun m hm ↦ hp' ⟨m, hm⟩
      rw [run_outside hp', run_outside hp, run_outside hp, run_outside hp']

end BootyCall.Lib.Nested
