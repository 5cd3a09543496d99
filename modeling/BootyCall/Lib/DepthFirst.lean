import Mathlib.Data.List.Lex
import Mathlib.Data.Nat.Notation
import Mathlib.Order.Nat

namespace BootyCall.Lib.DepthFirst

variable {δ ν : Type}

inductive Node (δ ν : Type)
  | skip
  | stop (v : ν)
  | descend (d : δ)

def scan (go : δ → Option ν) : List (Node δ ν) → Option ν
  | [] => none
  | .skip :: rest => scan go rest
  | .stop v :: _ => some v
  | .descend d :: rest => (go d).or (scan go rest)

theorem scan_append (go : δ → Option ν) (front rest : List (Node δ ν)) :
    scan go (front ++ rest) = (scan go front).or (scan go rest) := by
  induction front with
  | nil => rfl
  | cons node front ih =>
    cases node with
    | skip => exact ih
    | stop v => rfl
    | descend d => rw [List.cons_append, scan, scan, ih, Option.or_assoc]

variable (tree : δ → List (Node δ ν))

/-- A search in the order of the entries, which goes no deeper than its room. -/
def search : ℕ → δ → Option ν
  | 0, _ => none
  | room + 1, d => scan (search room) (tree d)

/-- The stop at a position: the indices of the entries that lead to it, from the top. -/
def stopIn : List (Node δ ν) → List ℕ → Option ν
  | _, [] => none
  | entries, i :: rest =>
    match entries[i]? with
    | some (.stop v) => if rest = [] then some v else none
    | some (.descend d) => stopIn (tree d) rest
    | _ => none

/-- Depth-first order of positions is the lexicographic order of their indices. -/
structure First (room : ℕ) (entries : List (Node δ ν)) (p : List ℕ) (v : ν) : Prop where
  short : p.length ≤ room
  stops : stopIn tree entries p = some v
  least : ∀ q, q.length ≤ room → q < p → stopIn tree entries q = none

inductive Answers (room : ℕ) (entries : List (Node δ ν)) : Option ν → Prop
  | found {p : List ℕ} {v : ν} (h : First tree room entries p v) : Answers room entries (some v)
  | missed (h : ∀ p, p.length ≤ room → stopIn tree entries p = none) : Answers room entries none

variable {tree} {room : ℕ} {node : Node δ ν} {entries : List (Node δ ν)}

theorem stopIn_nil (p : List ℕ) : stopIn tree [] p = none := by
  cases p <;> rfl

theorem stopIn_cons_succ (node : Node δ ν) (i : ℕ) (rest : List ℕ) :
    stopIn tree (node :: entries) ((i + 1) :: rest) = stopIn tree entries (i :: rest) := by
  rw [stopIn, stopIn, List.getElem?_cons_succ]

theorem Answers.cons {r : Option ν} (h : Answers tree room entries r)
    (hhead : ∀ rest, (0 :: rest).length ≤ room → stopIn tree (node :: entries) (0 :: rest) = none) :
    Answers tree room (node :: entries) r := by
  cases h with
  | missed h =>
    apply Answers.missed
    intro p hp
    match p with
    | [] => rfl
    | 0 :: rest => exact hhead rest hp
    | (i + 1) :: rest => exact (stopIn_cons_succ node i rest).trans (h (i :: rest) hp)
  | @found p v h =>
    match p with
    | [] => cases h.stops
    | i :: rest =>
      have hstops := (stopIn_cons_succ node i rest).trans h.stops
      refine Answers.found (p := (i + 1) :: rest) ⟨h.short, hstops, ?_⟩
      intro q hq hlt
      match q with
      | [] => rfl
      | 0 :: rest' => exact hhead rest' hq
      | (j + 1) :: rest' =>
        rw [stopIn_cons_succ]
        apply h.least (j :: rest') hq
        rw [List.cons_lt_cons_iff] at hlt ⊢
        simpa using hlt

theorem first_stop (v : ν) : First tree (room + 1) (.stop v :: entries) [0] v where
  short := Nat.le_add_left _ _
  stops := rfl
  least := by
    intro q hq hlt
    match q with
    | [] => rfl
    | j :: rest =>
      rw [List.cons_lt_cons_iff] at hlt
      simp at hlt

theorem First.descend {d : δ} {p : List ℕ} {v : ν} (h : First tree room (tree d) p v) :
    First tree (room + 1) (.descend d :: entries) (0 :: p) v where
  short := Nat.succ_le_succ h.short
  stops := h.stops
  least := by
    intro q hq hlt
    match q with
    | [] => rfl
    | j :: rest =>
      rw [List.cons_lt_cons_iff] at hlt
      rcases hlt with hlt | ⟨rfl, hlt⟩
      · exact absurd hlt (Nat.not_lt_zero j)
      · exact h.least rest (Nat.le_of_succ_le_succ hq) hlt

theorem scan_answers {go : δ → Option ν} (hgo : ∀ d, Answers tree room (tree d) (go d))
    (entries : List (Node δ ν)) : Answers tree (room + 1) entries (scan go entries) := by
  induction entries with
  | nil => exact .missed fun p _ ↦ stopIn_nil p
  | cons node rest ih =>
    cases node with
    | skip => exact ih.cons fun rest' _ ↦ by cases rest' <;> rfl
    | stop v => exact .found (first_stop v)
    | descend d =>
      have hd := hgo d
      rw [scan]
      generalize go d = r at hd ⊢
      cases hd with
      | found h => exact .found h.descend
      | missed h => exact ih.cons fun rest' hlen ↦ h rest' (Nat.le_of_succ_le_succ hlen)

variable (tree) in
theorem search_answers (room : ℕ) (d : δ) : Answers tree room (tree d) (search tree room d) := by
  induction room generalizing d with
  | zero =>
    apply Answers.missed
    intro p hp
    rw [List.length_eq_zero_iff.mp (Nat.le_zero.mp hp)]
    rfl
  | succ room ih => exact scan_answers ih (tree d)

theorem First.unique {p q : List ℕ} {v w : ν} (h : First tree room entries p v)
    (h' : First tree room entries q w) : v = w := by
  rcases lt_trichotomy p q with hlt | rfl | hlt
  · have hnone := h'.least p h.short hlt
    rw [h.stops] at hnone
    cases hnone
  · exact Option.some.inj (h.stops.symm.trans h'.stops)
  · have hnone := h.least q h'.short hlt
    rw [h'.stops] at hnone
    cases hnone

variable (tree) in
/-- The search finds the first stop in depth-first order among those within its room. -/
theorem search_eq_some_iff (room : ℕ) (d : δ) (v : ν) :
    search tree room d = some v ↔ ∃ p, First tree room (tree d) p v := by
  have h := search_answers tree room d
  generalize search tree room d = r at h
  cases h with
  | found hfirst =>
    constructor
    · intro heq
      exact ⟨_, Option.some.inj heq ▸ hfirst⟩
    · rintro ⟨p, hp⟩
      rw [hfirst.unique hp]
  | missed hnone =>
    refine ⟨nofun, ?_⟩
    rintro ⟨p, hp⟩
    have hstops := hp.stops
    rw [hnone p hp.short] at hstops
    cases hstops

variable (tree) in
theorem search_eq_none_iff (room : ℕ) (d : δ) :
    search tree room d = none ↔ ∀ p, p.length ≤ room → stopIn tree (tree d) p = none := by
  have h := search_answers tree room d
  generalize search tree room d = r at h
  cases h with
  | found hfirst =>
    refine ⟨nofun, ?_⟩
    intro hnone
    have hstops := hfirst.stops
    rw [hnone _ hfirst.short] at hstops
    cases hstops
  | missed hnone => exact ⟨fun _ ↦ hnone, fun _ ↦ rfl⟩

end BootyCall.Lib.DepthFirst
