import Mathlib.Data.List.Pairwise
import Mathlib.Data.List.Perm.Basic

namespace BootyCall.Lib.Independence

variable {σ ι ρ : Type}

def Swaps (step : ι → σ → σ) (a b : ι) : Prop := ∀ s, step b (step a s) = step a (step b s)

/-- Neither step is seen by the other, in its result or in what it leaves behind. -/
structure Apart (step : ι → σ → σ) (result : ι → σ → ρ) (a b : ι) : Prop where
  swaps : Swaps step a b
  blind : ∀ s, result b (step a s) = result b s
  blind' : ∀ s, result a (step b s) = result a s

variable {step : ι → σ → σ} {result : ι → σ → ρ} {items items' : List ι}

instance : Std.Symm (Swaps step) := ⟨fun _ _ h s ↦ (h s).symm⟩

theorem Apart.symm {a b : ι} (h : Apart step result a b) : Apart step result b a where
  swaps := fun s ↦ (h.swaps s).symm
  blind := h.blind'
  blind' := h.blind

def runAll (step : ι → σ → σ) (items : List ι) (s : σ) : σ := items.foldl (fun s i ↦ step i s) s

def results (step : ι → σ → σ) (result : ι → σ → ρ) : List ι → σ → List ρ
  | [], _ => []
  | i :: items, s => result i s :: results step result items (step i s)

theorem runAll_cons (i : ι) (s : σ) :
    runAll step (i :: items) s = runAll step items (step i s) := rfl

/-- Every result is the one its step would have given alone. -/
theorem results_eq (h : items.Pairwise (Apart step result)) (s : σ) :
    results step result items s = items.map fun i ↦ result i s := by
  induction items generalizing s with
  | nil => rfl
  | cons i items ih =>
    obtain ⟨hi, hitems⟩ := List.pairwise_cons.mp h
    rw [results, ih hitems, List.map_cons]
    congr 1
    apply List.map_congr_left
    intro j hj
    exact (hi j hj).blind s

theorem runAll_perm (h : items.Pairwise (Apart step result)) (hp : items.Perm items') (s : σ) :
    runAll step items s = runAll step items' s := by
  have hpair : items.Pairwise (Swaps step) := h.imp fun hab ↦ hab.swaps
  have hswaps := hpair.forall_of_forall fun a _ s ↦ rfl
  exact hp.foldl_eq' (fun a ha b hb s ↦ hswaps ha hb s) s

/-- Any of the steps may as well be the first one. -/
theorem runAll_first {a : ι} (h : items.Pairwise (Apart step result)) (ha : a ∈ items) (s : σ) :
    ∃ others, items.Perm (a :: others) ∧
      runAll step items s = runAll step others (step a s) := by
  obtain ⟨before, after, rfl⟩ := List.mem_iff_append.mp ha
  refine ⟨before ++ after, List.perm_middle, ?_⟩
  rw [runAll_perm h List.perm_middle, runAll_cons]

end BootyCall.Lib.Independence
