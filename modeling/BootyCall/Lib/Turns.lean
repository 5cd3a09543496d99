import Mathlib.Data.List.Basic

namespace BootyCall.Lib.Turns

variable {σ ι κ : Type} {step : σ → ι → σ} {party : ι → Option κ} {Inv : σ → Prop} {rest : σ → ℕ}
  {helper : σ → κ} {s : σ}

/-- What is left to do never gets more, and it gets less with each step of the party it is up to;
until then it stays up to that party. -/
structure Helpful (step : σ → ι → σ) (party : ι → Option κ) (Inv : σ → Prop) (rest : σ → ℕ)
    (helper : σ → κ) : Prop where
  keeps : ∀ s i, Inv s → Inv (step s i)
  progress : ∀ s i, Inv s → rest (step s i) < rest s ∨
    rest (step s i) = rest s ∧ (0 < rest s → party i ≠ some (helper s)) ∧
      helper (step s i) = helper s

def Turn (party : ι → Option κ) (inputs : List ι) : Prop := ∀ k, ∃ i ∈ inputs, party i = some k

namespace Helpful

variable (h : Helpful step party Inv rest helper)
include h

theorem keeps_run (hs : Inv s) (inputs : List ι) : Inv (inputs.foldl step s) := by
  induction inputs generalizing s with
  | nil => exact hs
  | cons i inputs ih => exact ih (h.keeps s i hs)

theorem rest_run_le (hs : Inv s) (inputs : List ι) : rest (inputs.foldl step s) ≤ rest s := by
  induction inputs generalizing s with
  | nil => exact Nat.le_refl _
  | cons i inputs ih =>
    refine Nat.le_trans (ih (h.keeps s i hs)) ?_
    rcases h.progress s i hs with hless | ⟨heq, -⟩
    · exact Nat.le_of_lt hless
    · exact Nat.le_of_eq heq

/-- A turn leads on, for the party it is up to at first is up to it still when its time comes. -/
theorem rest_turn_lt (hs : Inv s) (hrest : 0 < rest s) {inputs : List ι}
    (hturn : ∃ i ∈ inputs, party i = some (helper s)) :
    rest (inputs.foldl step s) < rest s := by
  induction inputs generalizing s with
  | nil =>
    obtain ⟨i, hi, -⟩ := hturn
    cases hi
  | cons i inputs ih =>
    rcases h.progress s i hs with hless | ⟨heq, hother, hhelper⟩
    · exact Nat.lt_of_le_of_lt (h.rest_run_le (h.keeps s i hs) inputs) hless
    · obtain ⟨j, hj, hparty⟩ := hturn
      have hlater : j ∈ inputs := by
        rcases List.mem_cons.mp hj with rfl | hj
        · exact absurd hparty (hother hrest)
        · exact hj
      rw [← heq]
      refine ih (h.keeps s i hs) (by rwa [heq]) ⟨j, hlater, ?_⟩
      rw [hhelper, hparty]

/-- As many turns as there is left to do are enough, whatever comes between. -/
theorem rest_turns (hs : Inv s) (turns : List (List ι)) (hturns : ∀ turn ∈ turns, Turn party turn)
    (hrest : rest s ≤ turns.length) : rest (turns.flatten.foldl step s) = 0 := by
  induction turns generalizing s with
  | nil => exact Nat.le_zero.mp hrest
  | cons turn turns ih =>
    rw [List.flatten_cons, List.foldl_append]
    refine ih (h.keeps_run hs turn) (fun t ht ↦ hturns t (List.mem_cons_of_mem _ ht)) ?_
    rcases Nat.eq_zero_or_pos (rest s) with hzero | hpos
    · have hle := h.rest_run_le hs turn
      omega
    · have hlt := h.rest_turn_lt hs hpos (hturns turn List.mem_cons_self _)
      rw [List.length_cons] at hrest
      omega

end Helpful

end BootyCall.Lib.Turns
