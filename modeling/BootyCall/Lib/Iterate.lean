import Mathlib.Logic.Function.Iterate

namespace BootyCall.Lib.Iterate

variable {σ ι : Type} {f : σ → σ} {a b c : σ}

def Reaches (f : σ → σ) (a b : σ) : Prop := ∃ k, f^[k] a = b

theorem Reaches.refl (f : σ → σ) (a : σ) : Reaches f a a := ⟨0, rfl⟩

theorem Reaches.one (h : f a = b) : Reaches f a b := ⟨1, h⟩

theorem Reaches.trans (h : Reaches f a b) (h' : Reaches f b c) : Reaches f a c := by
  obtain ⟨k, rfl⟩ := h
  obtain ⟨l, rfl⟩ := h'
  exact ⟨l + k, Function.iterate_add_apply f l k a⟩

theorem Reaches.head (h : f a = b) (h' : Reaches f b c) : Reaches f a c := (Reaches.one h).trans h'

theorem Reaches.latched {g : σ → Option ι} (hg : ∀ s x, g s = some x → g (f s) = some x)
    (h : Reaches f a b) {x y : ι} (hb : g b = some x) (k : ℕ) (hk : g (f^[k] a) = some y) :
    y = x := by
  have hstay (s : σ) (z : ι) (hs : g s = some z) (m : ℕ) : g (f^[m] s) = some z := by
    induction m with
    | zero => exact hs
    | succ m ih =>
      rw [Function.iterate_succ_apply']
      exact hg _ _ ih
  obtain ⟨l, rfl⟩ := h
  rcases Nat.le_total k l with hkl | hlk
  · have h := hstay _ y hk (l - k)
    rw [← Function.iterate_add_apply, Nat.sub_add_cancel hkl, hb] at h
    exact (Option.some.inj h).symm
  · have h := hstay _ x hb (k - l)
    rw [← Function.iterate_add_apply, Nat.sub_add_cancel hlk, hk] at h
    exact Option.some.inj h

theorem invariant_iterate {P : σ → Prop} (hstep : ∀ s, P s → P (f s)) (ha : P a) (k : ℕ) :
    P (f^[k] a) := by
  induction k with
  | zero => exact ha
  | succ k ih =>
    rw [Function.iterate_succ_apply']
    exact hstep _ ih

end BootyCall.Lib.Iterate
