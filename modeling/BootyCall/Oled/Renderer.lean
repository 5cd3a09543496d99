import BootyCall.Lib.Segment
import BootyCall.Oled.Framebuffer

namespace BootyCall.Oled.Renderer

open Lib.Segment

structure Line where
  endX : ℤ
  endY : ℤ
  dx : ℤ
  dy : ℤ
  sx : ℤ
  sy : ℤ

structure Cursor where
  x : ℤ
  y : ℤ
  err : ℤ

def Cursor.pos (c : Cursor) : ℤ × ℤ := (c.x, c.y)

/-- A signed machine word holds the numbers from `-limit` to below `limit`. -/
def Fits (limit v : ℤ) : Prop := -limit ≤ v ∧ v < limit

instance (limit v : ℤ) : Decidable (Fits limit v) :=
  inferInstanceAs (Decidable (_ ∧ _))

def checked (limit v : ℤ) : Option ℤ := if Fits limit v then some v else none

/-- The cast from `usize`, which wraps. -/
def asIsize (limit : ℤ) (n : ℕ) : ℤ := if (n : ℤ) < limit then n else n - 2 * limit

def start (limit : ℤ) (x0 y0 x1 y1 : ℕ) : Option (Line × Cursor) := do
  let x := asIsize limit x0
  let y := asIsize limit y0
  let endX := asIsize limit x1
  let endY := asIsize limit y1
  let acrossX ← checked limit (endX - x)
  let dx ← checked limit |acrossX|
  let acrossY ← checked limit (endY - y)
  let absY ← checked limit |acrossY|
  let dy ← checked limit (-absY)
  let err ← checked limit (dx + dy)
  let sx := if x < endX then 1 else -1
  let sy := if y < endY then 1 else -1
  some (⟨endX, endY, dx, dy, sx, sy⟩, ⟨x, y, err⟩)

/-- The moves at the end of the loop; both tests look at the same doubled error. -/
def step (limit : ℤ) (l : Line) (c : Cursor) : Option Cursor := do
  let e2 ← checked limit (2 * c.err)
  let c ← if l.dy ≤ e2 then do
      let err ← checked limit (c.err + l.dy)
      let x ← checked limit (c.x + l.sx)
      some { c with x, err }
    else some c
  if e2 ≤ l.dx then do
    let err ← checked limit (c.err + l.dx)
    let y ← checked limit (c.y + l.sy)
    some { c with y, err }
  else some c

def plot (color : UInt8) (fb : Framebuffer) (p : ℤ × ℤ) : Framebuffer :=
  if 0 ≤ p.1 ∧ p.1 < width ∧ 0 ≤ p.2 ∧ p.2 < height then
    fb.setPixel p.1.toNat p.2.toNat color
  else fb

def place (k : ℕ) : ℤ × ℤ := ((k % width : ℕ), (k / width : ℕ))

def Cursor.atEnd (c : Cursor) (l : Line) : Prop := c.x = l.endX ∧ c.y = l.endY

instance (c : Cursor) (l : Line) : Decidable (c.atEnd l) :=
  inferInstanceAs (Decidable (_ ∧ _))

def loop (limit : ℤ) (l : Line) (color : UInt8) : ℕ → Cursor → Framebuffer → Option Framebuffer
  | 0, _, _ => none
  | fuel + 1, c, fb =>
    let fb := plot color fb c.pos
    if c.atEnd l then some fb
    else do
      let c ← step limit l c
      loop limit l color fuel c fb

/-- No result within the fuel, or none because of an overflow, is `none`. -/
def drawLine (limit : ℤ) (fuel : ℕ) (fb : Framebuffer) (x0 y0 x1 y1 : ℕ) (color : UInt8) :
    Option Framebuffer := do
  let (l, c) ← start limit x0 y0 x1 y1
  loop limit l color fuel c fb

section Loop

variable {limit : ℤ} {l : Line} {path : ℕ → Cursor} {n : ℕ}

/-- From the first position of a path the loop goes through the others and stops at the
`n`-th. -/
structure Follows (limit : ℤ) (l : Line) (path : ℕ → Cursor) (n : ℕ) : Prop where
  steps : ∀ i < n, step limit l (path i) = some (path (i + 1))
  onward : ∀ i < n, ¬(path i).atEnd l
  stops : (path n).atEnd l

def plotAll (color : UInt8) (fb : Framebuffer) (points : List (ℤ × ℤ)) : Framebuffer :=
  points.foldl (plot color) fb

def visited (path : ℕ → Cursor) (n : ℕ) : List (ℤ × ℤ) :=
  (List.range (n + 1)).map fun i ↦ (path i).pos

theorem visited_succ (path : ℕ → Cursor) (n : ℕ) :
    visited path (n + 1) = (path 0).pos :: visited (fun i ↦ path (i + 1)) n := by
  rw [visited, List.range_succ_eq_map, List.map_cons, List.map_map]
  rfl

/-- The loop needs one turn more than it makes moves, and plots in each turn. -/
theorem loop_follows (h : Follows limit l path n) (color : UInt8) (fuel : ℕ)
    (fb : Framebuffer) :
    loop limit l color fuel (path 0) fb =
      if n < fuel then some (plotAll color fb (visited path n)) else none := by
  induction n generalizing path fuel fb with
  | zero =>
    cases fuel with
    | zero => rfl
    | succ fuel =>
      rw [loop, if_pos h.stops, if_pos (by omega)]
      rfl
  | succ n ih =>
    have hrest : Follows limit l (fun i ↦ path (i + 1)) n :=
      ⟨fun i hi ↦ h.steps (i + 1) (by omega), fun i hi ↦ h.onward (i + 1) (by omega), h.stops⟩
    cases fuel with
    | zero => rfl
    | succ fuel =>
      rw [loop, if_neg (h.onward 0 (by omega)), h.steps 0 (by omega), visited_succ]
      simp only [Option.bind_eq_bind, Option.bind_some]
      rw [ih hrest]
      exact if_congr (by omega) rfl rfl

theorem getElem_plot (color : UInt8) (fb : Framebuffer) (p : ℤ × ℤ) {k : ℕ}
    (hk : k < width * height) :
    (plot color fb p).buffer[k] =
      if p = place k then color else fb.buffer[k] := by
  have hplace : p = place k ↔ p.1 = (k % width : ℕ) ∧ p.2 = (k / width : ℕ) := Prod.ext_iff
  by_cases hp : 0 ≤ p.1 ∧ p.1 < width ∧ 0 ≤ p.2 ∧ p.2 < height
  · rw [plot, if_pos hp, Framebuffer.getElem_setPixel _ _ _ _ hk]
    refine if_congr (Iff.trans ?_ hplace.symm) rfl rfl
    omega
  · rw [plot, if_neg hp, if_neg]
    rw [hplace]
    simp only [width, height] at hk hp ⊢
    omega

theorem getElem_plotAll (color : UInt8) (fb : Framebuffer) (points : List (ℤ × ℤ)) {k : ℕ}
    (hk : k < width * height) :
    (plotAll color fb points).buffer[k] =
      if place k ∈ points then color else fb.buffer[k] := by
  induction points generalizing fb with
  | nil => rfl
  | cons p points ih =>
    rw [plotAll, List.foldl_cons, ← plotAll, ih, getElem_plot _ _ _ hk]
    by_cases hmem : place k ∈ points
    · rw [if_pos hmem, if_pos (List.mem_cons_of_mem p hmem)]
    · rw [if_neg hmem]
      refine if_congr ?_ rfl rfl
      rw [List.mem_cons, or_iff_left hmem, eq_comm]

end Loop

section Bresenham

/-- The coordinates of a line and four times their differences are numbers of a machine word. -/
structure LineFits (limit : ℤ) (x0 y0 x1 y1 : ℕ) : Prop where
  startX : Fits limit x0
  startY : Fits limit y0
  endX : Fits limit x1
  endY : Fits limit y1
  across : Fits limit (4 * ((x1 : ℤ) - x0))
  down : Fits limit (4 * ((y1 : ℤ) - y0))

def lineOf (p q : ℤ × ℤ) : Line :=
  ⟨q.1, q.2, (extent p q).1, -(extent p q).2, unit p.1 q.1, unit p.2 q.2⟩

def cursorAt (p q : ℤ × ℤ) (w : ℕ × ℕ) : Cursor :=
  ⟨p.1 + unit p.1 q.1 * w.1, p.2 + unit p.2 q.2 * w.2,
    offset (extent p q).1 (extent p q).2 w + (extent p q).1 - (extent p q).2⟩

def moved (l : Line) (c : Cursor) : Cursor :=
  ⟨if l.dy ≤ 2 * c.err then c.x + l.sx else c.x, if 2 * c.err ≤ l.dx then c.y + l.sy else c.y,
    c.err + (if l.dy ≤ 2 * c.err then l.dy else 0) + if 2 * c.err ≤ l.dx then l.dx else 0⟩

variable {limit : ℤ} {x0 y0 x1 y1 n : ℕ}

theorem checked_of_fits {v : ℤ} (h : Fits limit v) : checked limit v = some v := if_pos h

theorem asIsize_of_fits {n : ℕ} (h : Fits limit n) : asIsize limit n = n := if_pos h.2

theorem natAbs_of_fits {d : ℤ} (h : Fits limit (4 * d)) : 4 * (d.natAbs : ℤ) ≤ limit := by
  rw [Fits] at h
  omega

theorem fits_difference {d : ℤ} (h : Fits limit (4 * d)) :
    Fits limit d ∧ Fits limit |d| ∧ Fits limit (-|d|) := by
  rw [Int.abs_eq_natAbs]
  simp only [Fits] at h ⊢
  omega

theorem start_of_fits (h : LineFits limit x0 y0 x1 y1) :
    start limit x0 y0 x1 y1 =
      some (lineOf (x0, y0) (x1, y1), cursorAt (x0, y0) (x1, y1) (0, 0)) := by
  obtain ⟨hx0, hy0, hx1, hy1, hacross, hdown⟩ := h
  obtain ⟨hdx, habsX, -⟩ := fits_difference hacross
  obtain ⟨hdy, habsY, hnegY⟩ := fits_difference hdown
  have herr : Fits limit (|(x1 : ℤ) - x0| + -|(y1 : ℤ) - y0|) := by
    have hpos := abs_nonneg ((x1 : ℤ) - x0)
    have hpos' := abs_nonneg ((y1 : ℤ) - y0)
    rw [Fits] at habsX hnegY ⊢
    omega
  rw [start]
  simp only [asIsize_of_fits hx0, asIsize_of_fits hy0, asIsize_of_fits hx1, asIsize_of_fits hy1,
    checked_of_fits hdx, checked_of_fits habsX, checked_of_fits hdy, checked_of_fits habsY,
    checked_of_fits hnegY, checked_of_fits herr, Option.bind_eq_bind, Option.bind_some]
  simp [lineOf, cursorAt, extent, unit, offset, sub_eq_add_neg]

theorem step_of_fits {l : Line} {c : Cursor} (hdouble : Fits limit (2 * c.err))
    (hdy : Fits limit (c.err + l.dy)) (hdx : Fits limit (c.err + l.dx))
    (hboth : Fits limit (c.err + l.dy + l.dx)) (hx : Fits limit (moved l c).x)
    (hy : Fits limit (moved l c).y) : step limit l c = some (moved l c) := by
  rw [step, checked_of_fits hdouble]
  rw [moved] at hx hy ⊢
  by_cases hmoveX : l.dy ≤ 2 * c.err
  · rw [if_pos hmoveX] at hx
    by_cases hmoveY : 2 * c.err ≤ l.dx
    · rw [if_pos hmoveY] at hy
      simp [hmoveX, hmoveY, checked_of_fits, hx, hy, hdy, hboth]
    · simp [hmoveX, hmoveY, checked_of_fits, hx, hdy]
  · by_cases hmoveY : 2 * c.err ≤ l.dx
    · rw [if_pos hmoveY] at hy
      simp [hmoveX, hmoveY, checked_of_fits, hy, hdx]
    · simp [hmoveX, hmoveY]

/-- One turn of the loop is one step of the walk. -/
theorem moved_cursorAt (p q : ℤ × ℤ) (w : ℕ × ℕ) :
    moved (lineOf p q) (cursorAt p q w) =
      cursorAt p q (next (extent p q).1 (extent p q).2 w) := by
  obtain ⟨i, j⟩ := w
  simp only [moved, lineOf, cursorAt, next]
  by_cases hmoveX : -((extent p q).2 : ℤ) ≤
      2 * (offset (extent p q).1 (extent p q).2 (i, j) + (extent p q).1 - (extent p q).2)
  · by_cases hmoveY : 2 * (offset (extent p q).1 (extent p q).2 (i, j) + (extent p q).1 -
        (extent p q).2) ≤ (extent p q).1
    · simp only [hmoveX, hmoveY, if_true, offset_diagonal, Cursor.mk.injEq]
      push_cast
      exact ⟨by ring, by ring, by ring⟩
    · simp only [hmoveX, hmoveY, if_true, if_false, offset_right, Cursor.mk.injEq]
      push_cast
      exact ⟨by ring, trivial, by ring⟩
  · by_cases hmoveY : 2 * (offset (extent p q).1 (extent p q).2 (i, j) + (extent p q).1 -
        (extent p q).2) ≤ (extent p q).1
    · simp only [hmoveX, hmoveY, if_true, if_false, offset_up, Cursor.mk.injEq]
      push_cast
      exact ⟨trivial, by ring, by ring⟩
    · simp only [hmoveX, hmoveY, if_false, add_zero]

def path (p q : ℤ × ℤ) (n : ℕ) : Cursor := cursorAt p q (walk (extent p q).1 (extent p q).2 n)

/-- On the way to the end no number leaves the word. -/
theorem step_path (h : LineFits limit x0 y0 x1 y1) (hn : n < span (x0, y0) (x1, y1)) :
    step limit (lineOf (x0, y0) (x1, y1)) (path (x0, y0) (x1, y1) n) =
      some (path (x0, y0) (x1, y1) (n + 1)) := by
  obtain ⟨hx0, hy0, hx1, hy1, hacross, hdown⟩ := h
  obtain ⟨hboxX, hboxY⟩ := line_between (n := n + 1) hn
  have hnear := walk_near (extent (x0, y0) (x1, y1)).1 (extent (x0, y0) (x1, y1)).2 n
  have hmoved := moved_cursorAt (x0, y0) (x1, y1)
    (walk (extent (x0, y0) (x1, y1)).1 (extent (x0, y0) (x1, y1)).2 n)
  rw [path, path, walk, ← hmoved]
  have hposX : Fits limit (line (x0, y0) (x1, y1) (n + 1)).1 := by
    rw [Fits] at *
    omega
  have hposY : Fits limit (line (x0, y0) (x1, y1) (n + 1)).2 := by
    rw [Fits] at *
    omega
  have hwidth : 4 * ((extent (x0, y0) (x1, y1)).1 : ℤ) ≤ limit := natAbs_of_fits hacross
  have hheight : 4 * ((extent (x0, y0) (x1, y1)).2 : ℤ) ≤ limit := natAbs_of_fits hdown
  rw [Fits] at hx0
  apply step_of_fits
  · simp only [Fits, cursorAt]
    omega
  · simp only [Fits, cursorAt, lineOf]
    omega
  · simp only [Fits, cursorAt, lineOf]
    omega
  · simp only [Fits, cursorAt, lineOf]
    omega
  · rw [hmoved]
    exact hposX
  · rw [hmoved]
    exact hposY

theorem atEnd_path_iff {p q : ℤ × ℤ} {i : ℕ} (hi : i ≤ span p q) :
    (path p q i).atEnd (lineOf p q) ↔ i = span p q := by
  rw [← line_eq_iff hi, Prod.ext_iff]
  rfl

theorem follows_path (h : LineFits limit x0 y0 x1 y1) :
    Follows limit (lineOf (x0, y0) (x1, y1)) (path (x0, y0) (x1, y1))
      (span (x0, y0) (x1, y1)) where
  steps _ hi := step_path h hi
  onward i hi := by
    rw [atEnd_path_iff hi.le]
    exact hi.ne
  stops := (atEnd_path_iff (Nat.le_refl _)).mpr rfl

structure Traces (p q : ℤ × ℤ) (points : ℕ → ℤ × ℤ) (n : ℕ) : Prop where
  first : points 0 = p
  last : points n = q
  toward : ∀ i < n, Toward q (points i) (points (i + 1))
  between : ∀ i ≤ n, Between p q (points i)
  near : ∀ i ≤ n, Near p q (points i)

theorem drawLine_ends (h : LineFits limit x0 y0 x1 y1) (fb : Framebuffer) (color : UInt8) :
    ∃ l path n fb', start limit x0 y0 x1 y1 = some (l, path 0) ∧ Follows limit l path n ∧
      n = max ((x1 : ℤ) - x0).natAbs ((y1 : ℤ) - y0).natAbs ∧
      Traces (x0, y0) (x1, y1) (fun i ↦ (path i).pos) n ∧
      (∀ fuel, drawLine limit fuel fb x0 y0 x1 y1 color = if n < fuel then some fb' else none) ∧
      ∀ k (hk : k < width * height),
        ((∃ i ≤ n, (path i).pos = place k) → fb'.buffer[k] = color) ∧
          ((∀ i ≤ n, (path i).pos ≠ place k) → fb'.buffer[k] = fb.buffer[k]) := by
  let p : ℤ × ℤ := (x0, y0)
  let q : ℤ × ℤ := (x1, y1)
  refine ⟨lineOf p q, path p q, span p q, plotAll color fb (visited (path p q) (span p q)),
    start_of_fits h, follows_path h, rfl, ?_, ?_, ?_⟩
  · exact ⟨line_zero p q, (line_eq_iff (Nat.le_refl _)).mpr rfl, fun i hi ↦ line_toward hi,
      fun i hi ↦ line_between hi, fun i hi ↦ line_near hi⟩
  · intro fuel
    rw [drawLine, start_of_fits h]
    exact loop_follows (follows_path h) color fuel fb
  · intro k hk
    have hvisited : place k ∈ visited (path p q) (span p q) ↔
        ∃ i ≤ span p q, (path p q i).pos = place k := by
      simp only [visited, List.mem_map, List.mem_range, Nat.lt_succ_iff]
    rw [getElem_plotAll _ _ _ hk]
    constructor
    · intro hmem
      rw [if_pos (hvisited.mpr hmem)]
    · intro hmem
      rw [if_neg]
      rw [hvisited]
      rintro ⟨i, hi, hplace⟩
      exact hmem i hi hplace

theorem drawLine_ends_off_panel :
    ∃ l path n fb', start (2 ^ 63) 3 7 200 40 = some (l, path 0) ∧ Follows (2 ^ 63) l path n ∧
      n = max (((200 : ℕ) : ℤ) - (3 : ℕ)).natAbs (((40 : ℕ) : ℤ) - (7 : ℕ)).natAbs ∧
      Traces ((3 : ℕ), (7 : ℕ)) ((200 : ℕ), (40 : ℕ)) (fun i ↦ (path i).pos) n ∧
      (∀ fuel, drawLine (2 ^ 63) fuel .blank 3 7 200 40 255 =
        if n < fuel then some fb' else none) ∧
      ∀ k (hk : k < width * height),
        ((∃ i ≤ n, (path i).pos = place k) → fb'.buffer[k] = 255) ∧
          ((∀ i ≤ n, (path i).pos ≠ place k) → fb'.buffer[k] = Framebuffer.blank.buffer[k]) :=
  drawLine_ends ⟨by decide, by decide, by decide, by decide, by decide, by decide⟩ .blank 255

end Bresenham

end BootyCall.Oled.Renderer
