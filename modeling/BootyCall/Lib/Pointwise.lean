import Mathlib.Data.List.Basic

namespace BootyCall.Lib.Pointwise

variable {σ κ α ι : Type} {get : σ → κ → α}

/-- An operation that changes what is at a place by what was there alone. -/
def Acts (get : σ → κ → α) (op : σ → σ) (f : κ → α → α) : Prop :=
  ∀ s k, get (op s) k = f k (get s k)

theorem Acts.congr {op : σ → σ} {f f' : κ → α → α} (h : Acts get op f)
    (heq : ∀ k v, f k v = f' k v) : Acts get op f' := by
  intro s k
  rw [h, heq]

theorem acts_foldl {op : ι → σ → σ} {f : ι → κ → α → α} (h : ∀ i, Acts get (op i) (f i))
    (l : List ι) :
    Acts get (fun s ↦ l.foldl (fun s i ↦ op i s) s) fun k v ↦ l.foldl (fun v i ↦ f i k v) v := by
  intro s k
  induction l generalizing s with
  | nil => rfl
  | cons i l ih =>
    dsimp only at ih ⊢
    rw [List.foldl_cons, List.foldl_cons, ih, h]

theorem foldl_paint (p : ι → Prop) [DecidablePred p] (c v : α) (l : List ι) :
    l.foldl (fun v i ↦ if p i then c else v) v = if ∃ i ∈ l, p i then c else v := by
  induction l generalizing v with
  | nil => simp
  | cons i l ih =>
    rw [List.foldl_cons, ih]
    by_cases hrest : ∃ j ∈ l, p j
    · obtain ⟨j, hj, hp⟩ := hrest
      rw [if_pos ⟨j, hj, hp⟩, if_pos ⟨j, List.mem_cons_of_mem i hj, hp⟩]
    · rw [if_neg hrest]
      refine if_congr ?_ rfl rfl
      simp only [List.mem_cons, exists_eq_or_imp]
      exact (or_iff_left hrest).symm

theorem foldl_single [DecidableEq ι] {l : List ι} (h : l.Nodup) (a : ι) (f : α → α) (v : α) :
    l.foldl (fun v i ↦ if i = a then f v else v) v = if a ∈ l then f v else v := by
  induction l generalizing v with
  | nil => simp
  | cons i l ih =>
    rw [List.nodup_cons] at h
    rw [List.foldl_cons, ih h.2]
    by_cases hi : i = a
    · subst hi
      rw [if_pos rfl, if_neg h.1, if_pos List.mem_cons_self]
    · rw [if_neg hi]
      refine if_congr ?_ rfl rfl
      rw [List.mem_cons, or_iff_right (Ne.symm hi)]

theorem foldl_range_single (n a : ℕ) (f : α → α) (v : α) :
    (List.range n).foldl (fun v i ↦ if i = a then f v else v) v = if a < n then f v else v := by
  rw [foldl_single List.nodup_range]
  exact if_congr List.mem_range rfl rfl

/-- Two nested loops over a rectangle, seen from one place: only the turn that meets it counts. -/
theorem foldl_grid (x y w h c r : ℕ) (f : ℕ → ℕ → α → α) (v : α) :
    (List.range h).foldl (fun v dy ↦
        (List.range w).foldl (fun v dx ↦
          if x + dx = c ∧ y + dy = r then f dx dy v else v) v) v =
      if (x ≤ c ∧ c < x + w) ∧ y ≤ r ∧ r < y + h then f (c - x) (r - y) v else v := by
  have hcolumn (dy dx : ℕ) (v : α) :
      (if x + dx = c ∧ y + dy = r then f dx dy v else v) =
        if dx = c - x then if x ≤ c ∧ y + dy = r then f (c - x) dy v else v else v := by
    by_cases hdx : dx = c - x
    · subst hdx
      rw [if_pos rfl]
      exact if_congr (by omega) rfl rfl
    · rw [if_neg hdx, if_neg (by omega)]
  have hrow (dy : ℕ) (v : α) :
      (if c - x < w then if x ≤ c ∧ y + dy = r then f (c - x) dy v else v else v) =
        if dy = r - y then
          if (x ≤ c ∧ c < x + w) ∧ y ≤ r then f (c - x) (r - y) v else v
        else v := by
    by_cases hdy : dy = r - y
    · subst hdy
      rw [if_pos rfl, ← ite_and]
      exact if_congr (by omega) rfl rfl
    · rw [if_neg hdy, ← ite_and, if_neg (by omega)]
  simp only [hcolumn, foldl_range_single, hrow]
  rw [← ite_and]
  exact if_congr (by omega) rfl rfl

theorem acts_grid {op : ℕ → ℕ → σ → σ} {c r : κ → ℕ} {f : ℕ → ℕ → κ → α → α} {x y : ℕ}
    (hop : ∀ dx dy, Acts get (op dx dy) fun k v ↦
      if x + dx = c k ∧ y + dy = r k then f dx dy k v else v) (w h : ℕ) :
    Acts get
      (fun s ↦ (List.range h).foldl (fun s dy ↦
        (List.range w).foldl (fun s dx ↦ op dx dy s) s) s)
      fun k v ↦ if (x ≤ c k ∧ c k < x + w) ∧ y ≤ r k ∧ r k < y + h then
        f (c k - x) (r k - y) k v else v := by
  apply (acts_foldl (fun dy ↦ acts_foldl (fun dx ↦ hop dx dy) (List.range w)) (List.range h)).congr
  intro k v
  exact foldl_grid x y w h (c k) (r k) (fun dx dy v ↦ f dx dy k v) v

theorem acts_paint {op : ι → σ → σ} {p : ι → κ → Prop} [∀ i k, Decidable (p i k)] {c : α}
    (h : ∀ i, Acts get (op i) fun k v ↦ if p i k then c else v) (l : List ι) :
    Acts get (fun s ↦ l.foldl (fun s i ↦ op i s) s) fun k v ↦
      if ∃ i ∈ l, p i k then c else v := by
  apply (acts_foldl h l).congr
  intro k v
  exact foldl_paint (fun i ↦ p i k) c v l

end BootyCall.Lib.Pointwise
