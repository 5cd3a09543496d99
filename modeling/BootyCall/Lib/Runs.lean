import Mathlib.Data.List.Induction

namespace BootyCall.Lib.Runs

variable {σ ι : Type} {step : σ → ι → σ} {start : σ} {inputs : List ι} {P Q : ι → σ → Prop}

/-- At each input of a run, of that input and the state it comes in. -/
def Throughout (step : σ → ι → σ) (start : σ) (inputs : List ι) (P : ι → σ → Prop) : Prop :=
  ∀ before input after, inputs = before ++ input :: after → P input (before.foldl step start)

theorem throughout_of_forall (h : ∀ i ∈ inputs, ∀ s, P i s) : Throughout step start inputs P := by
  intro before input after hsplit
  apply h
  rw [hsplit]
  exact List.mem_append_right _ List.mem_cons_self

theorem Throughout.mono (h : Throughout step start inputs P) (hPQ : ∀ i s, P i s → Q i s) :
    Throughout step start inputs Q :=
  fun before input after hsplit ↦ hPQ input _ (h before input after hsplit)

theorem throughout_congr (h : ∀ i s, P i s ↔ Q i s) :
    Throughout step start inputs P ↔ Throughout step start inputs Q :=
  ⟨fun hP ↦ hP.mono fun i s ↦ (h i s).mp, fun hQ ↦ hQ.mono fun i s ↦ (h i s).mpr⟩

theorem Throughout.and (hP : Throughout step start inputs P)
    (hQ : Throughout step start inputs Q) :
    Throughout step start inputs fun i s ↦ P i s ∧ Q i s :=
  fun before input after hsplit ↦
    ⟨hP before input after hsplit, hQ before input after hsplit⟩

/-- An invariant that a step keeps where `P` holds: it holds along every run with `P` throughout. -/
theorem Throughout.invariant (Inv : σ → Prop) (hP : Throughout step start inputs P)
    (hstart : Inv start) (hstep : ∀ i s, Inv s → P i s → Inv (step s i)) :
    Throughout step start inputs fun _ s ↦ Inv s := by
  intro before
  induction before using List.reverseRecOn with
  | nil =>
    intro _ _ _
    exact hstart
  | append_singleton before last ih =>
    intro input after hsplit
    rw [List.append_assoc, List.singleton_append] at hsplit
    rw [List.foldl_append]
    exact hstep last _ (ih last _ hsplit) (hP before last _ hsplit)

theorem throughout_cons {input : ι} : Throughout step start (input :: inputs) P ↔
    P input start ∧ Throughout step (step start input) inputs P := by
  constructor
  · intro h
    refine ⟨h [] input inputs rfl, fun before i after hsplit ↦ ?_⟩
    exact h (input :: before) i after (by rw [hsplit, List.cons_append])
  · rintro ⟨hfirst, hrest⟩ before i after hsplit
    cases before with
    | nil =>
      obtain ⟨rfl, -⟩ := List.cons.inj hsplit
      exact hfirst
    | cons j before =>
      obtain ⟨rfl, htail⟩ := List.cons.inj hsplit
      exact hrest before i after htail

theorem Throughout.last (Inv : σ → Prop) (hP : Throughout step start inputs P) (hstart : Inv start)
    (hstep : ∀ i s, Inv s → P i s → Inv (step s i)) : Inv (inputs.foldl step start) := by
  induction inputs generalizing start with
  | nil => exact hstart
  | cons i inputs ih =>
    obtain ⟨hfirst, hrest⟩ := throughout_cons.mp hP
    exact ih hrest (hstep i start hstart hfirst)

end BootyCall.Lib.Runs
