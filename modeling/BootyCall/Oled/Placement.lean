import BootyCall.Oled.Framebuffer

namespace BootyCall.Oled.Placement

def visibleYStart : ℕ := 28

def visibleHeight : ℕ := 32

def metricsValueDy : ℕ := 16

def textEdgeMargin : ℕ := 5

def boldThreshold : ℕ := 13

def subUsize (m n : ℕ) : Option ℕ := if n ≤ m then some (m - n) else none

def alignX (horiz : String) (textW : ℕ) : Option ℕ :=
  if horiz = "center" then
    if textW < width then do
      let room ← subUsize width textW
      some (room / 2)
    else some 0
  else if horiz = "right" then
    if textW < width then do
      let room ← subUsize width textW
      subUsize room textEdgeMargin
    else some 0
  else some textEdgeMargin

def alignY (vert : String) (textH : ℕ) : Option ℕ :=
  if vert = "top" then some visibleYStart
  else if vert = "bottom" then
    if textH < visibleHeight then subUsize (visibleYStart + visibleHeight) textH
    else some visibleYStart
  else
    if textH < visibleHeight then do
      let room ← subUsize visibleHeight textH
      some (visibleYStart + room / 2)
    else some visibleYStart

def parts (alignment : String) : List String :=
  (alignment.toList.splitOn '-').map String.ofList

def horizOf (alignment : String) : String := (parts alignment)[0]?.getD "left"

def vertOf (alignment : String) : String := (parts alignment)[1]?.getD "middle"

/-- How wide a text is, by the weight of the font and its size. -/
abbrev Measure := String → Bool → ℕ → ℕ

def oledTest (measureTextScaled : Measure) (size : ℕ) (alignment text : String) :
    Option (ℕ × ℕ) := do
  let useLargeFont := decide (boldThreshold < size)
  let textW := measureTextScaled text useLargeFont size
  let textH := size
  let x ← alignX (horizOf alignment) textW
  let y ← alignY (vertOf alignment) textH
  some (x, y)

def validAligns : List String :=
  ["left", "center", "right", "left-top", "left-bottom", "center-top", "center-bottom",
    "right-top", "right-bottom"]

/-- What the command line lets through to `oled_test`. -/
def Accepted (size : ℕ) (alignment : String) : Prop :=
  (6 ≤ size ∧ size ≤ 40) ∧ alignment ∈ validAligns

def valX (textW : ℕ) : Option ℕ :=
  if textW < width then do
    let room ← subUsize width textW
    some (room / 2)
  else some 0

def metricsValue (textW : ℕ) : Option (ℕ × ℕ) := do
  let x ← valX textW
  some (x, visibleYStart + metricsValueDy)

def Visible (x y : ℕ) : Prop :=
  x < width ∧ visibleYStart ≤ y ∧ y < visibleYStart + visibleHeight

/-- The text starts in the visible window and, unless it is pinned to the left or too wide, ends on
the panel. -/
def TextPlaced (measureTextScaled : Measure) (size : ℕ) (alignment text : String) : Prop :=
  ∃ x y, oledTest measureTextScaled size alignment text = some (x, y) ∧ Visible x y ∧
    (horizOf alignment = "center" ∨ horizOf alignment = "right" →
      measureTextScaled text (boldThreshold < size) size ≤ width →
      x + measureTextScaled text (boldThreshold < size) size ≤ width)

def ValuePlaced (textW : ℕ) : Prop :=
  ∃ x y, metricsValue textW = some (x, y) ∧ Visible x y ∧ (textW ≤ width → x + textW ≤ width)

theorem subUsize_of_le {m n : ℕ} (h : n ≤ m) : subUsize m n = some (m - n) := if_pos h

theorem centre_spec (textW : ℕ) :
    ∃ x, valX textW = some x ∧ x < width ∧ (textW ≤ width → x + textW ≤ width) := by
  by_cases hw : textW < width
  · refine ⟨(width - textW) / 2, ?_, ?_⟩
    · rw [valX, if_pos hw, subUsize_of_le (Nat.le_of_lt hw)]
      rfl
    · simp only [width] at hw ⊢
      omega
  · refine ⟨0, if_neg hw, by decide, ?_⟩
    omega

theorem right_of_lt {textW : ℕ} (hw : textW < width) :
    alignX "right" textW =
      if textW + textEdgeMargin ≤ width then some (width - textW - textEdgeMargin) else none := by
  have hcenter : "right" ≠ "center" := by decide
  rw [alignX, if_neg hcenter, if_pos rfl, if_pos hw, subUsize_of_le (Nat.le_of_lt hw)]
  simp only [Option.bind_eq_bind, Option.bind_some, subUsize]
  exact if_congr (by omega) rfl rfl

theorem right_of_ge {textW : ℕ} (hw : width ≤ textW) : alignX "right" textW = some 0 := by
  have hcenter : "right" ≠ "center" := by decide
  rw [alignX, if_neg hcenter, if_pos rfl, if_neg (by omega)]

/-- On the panel, and where it has to with its whole text. -/
def Fitting (horiz : String) (textW x : ℕ) : Prop :=
  x < width ∧ (horiz = "center" ∨ horiz = "right" → textW ≤ width → x + textW ≤ width)

/-- The margin is taken off the room that a text leaves, also where the room is less. -/
theorem alignX_iff (horiz : String) (textW : ℕ) :
    (∃ x, alignX horiz textW = some x ∧ Fitting horiz textW x) ↔
      (horiz = "right" → textW + textEdgeMargin ≤ width ∨ width ≤ textW) := by
  by_cases hright : horiz = "right"
  · subst hright
    rw [imp_iff_right (rfl : "right" = "right")]
    by_cases hw : textW < width
    · rw [right_of_lt hw]
      by_cases hmargin : textW + textEdgeMargin ≤ width
      · rw [if_pos hmargin]
        refine iff_of_true ⟨_, rfl, ?_, fun _ _ ↦ ?_⟩ (.inl hmargin)
        · simp only [width, textEdgeMargin] at hmargin ⊢
          omega
        · omega
      · rw [if_neg hmargin]
        refine iff_of_false ?_ (by omega)
        rintro ⟨x, hx, -⟩
        cases hx
    · rw [right_of_ge (by omega)]
      exact iff_of_true ⟨0, rfl, by decide, fun _ hle ↦ by omega⟩ (.inr (by omega))
  · refine iff_of_true ?_ fun h ↦ absurd h hright
    by_cases hcenter : horiz = "center"
    · obtain ⟨x, hx, hpanel, hfit⟩ := centre_spec textW
      refine ⟨x, ?_, hpanel, fun _ ↦ hfit⟩
      rw [alignX, if_pos hcenter]
      exact hx
    · refine ⟨textEdgeMargin, ?_, by decide, fun h ↦ absurd h (not_or.mpr ⟨hcenter, hright⟩)⟩
      rw [alignX, if_neg hcenter, if_neg hright]

theorem alignY_spec (vert : String) {textH : ℕ} (h : 0 < textH) :
    ∃ y, alignY vert textH = some y ∧ visibleYStart ≤ y ∧ y < visibleYStart + visibleHeight := by
  have hstart : visibleYStart ≤ visibleYStart ∧ visibleYStart < visibleYStart + visibleHeight := by
    decide
  by_cases htop : vert = "top"
  · exact ⟨visibleYStart, by rw [alignY, if_pos htop], hstart⟩
  · by_cases hbottom : vert = "bottom"
    · rw [alignY, if_neg htop, if_pos hbottom]
      by_cases hlt : textH < visibleHeight
      · rw [if_pos hlt, subUsize_of_le (by omega)]
        exact ⟨_, rfl, by omega, by omega⟩
      · exact ⟨visibleYStart, if_neg hlt, hstart⟩
    · rw [alignY, if_neg htop, if_neg hbottom]
      by_cases hlt : textH < visibleHeight
      · rw [if_pos hlt, subUsize_of_le (Nat.le_of_lt hlt)]
        exact ⟨_, rfl, by omega, by omega⟩
      · exact ⟨visibleYStart, if_neg hlt, hstart⟩

theorem valuePlaced (textW : ℕ) : ValuePlaced textW := by
  obtain ⟨x, hx, hpanel, hfit⟩ := centre_spec textW
  refine ⟨x, visibleYStart + metricsValueDy, ?_, ⟨hpanel, by decide, by decide⟩, hfit⟩
  rw [metricsValue, hx]
  rfl

variable {size : ℕ} {alignment : String}

theorem textPlaced_iff (h : Accepted size alignment) (measureTextScaled : Measure)
    (text : String) :
    TextPlaced measureTextScaled size alignment text ↔
      (horizOf alignment = "right" →
        measureTextScaled text (boldThreshold < size) size + textEdgeMargin ≤ width ∨
          width ≤ measureTextScaled text (boldThreshold < size) size) := by
  have hsize : 0 < size := by
    have hmin := h.1.1
    omega
  obtain ⟨y, hy, hwindow⟩ := alignY_spec (vertOf alignment) hsize
  rw [← alignX_iff]
  constructor
  · rintro ⟨x, y', hplace, hvisible, hfit⟩
    refine ⟨x, ?_, hvisible.1, hfit⟩
    rw [oledTest, hy] at hplace
    simp only [Option.bind_eq_bind, Option.bind_some, Option.bind_eq_some_iff] at hplace
    obtain ⟨x', hx', heq⟩ := hplace
    cases heq
    exact hx'
  · rintro ⟨x, hx, hpanel, hfit⟩
    refine ⟨x, y, ?_, ⟨hpanel, hwindow⟩, hfit⟩
    rw [oledTest]
    simp only [Option.bind_eq_bind, hx, hy, Option.bind_some]

/-- Texts and values stay where they can be seen, except for a text at the right that is less than
the margin narrower than the panel. -/
theorem placed_iff (h : Accepted size alignment) (measureTextScaled : Measure)
    (text : String) (measureText : String → ℕ) (value : String) :
    TextPlaced measureTextScaled size alignment text ∧ ValuePlaced (measureText value) ↔
      (horizOf alignment = "right" →
        measureTextScaled text (boldThreshold < size) size + textEdgeMargin ≤ width ∨
          width ≤ measureTextScaled text (boldThreshold < size) size) := by
  rw [textPlaced_iff h, and_iff_left (valuePlaced _)]

theorem placed_iff_right_top :
    TextPlaced (fun text _ _ ↦ 6 * text.length) 12 "right-top" "hello" ∧
        ValuePlaced (8 * "192.168.1.1".length) ↔
      (horizOf "right-top" = "right" →
        6 * "hello".length + textEdgeMargin ≤ width ∨ width ≤ 6 * "hello".length) :=
  placed_iff ⟨⟨by decide, by decide⟩, by decide⟩ (fun text _ _ ↦ 6 * text.length) "hello"
    (fun text ↦ 8 * text.length) "192.168.1.1"

theorem not_placed :
    ¬∀ (size : ℕ) (alignment : String) (measureTextScaled : Measure) (text : String)
      (measureText : String → ℕ) (value : String), Accepted size alignment →
        TextPlaced measureTextScaled size alignment text ∧ ValuePlaced (measureText value) := by
  intro h
  obtain ⟨⟨x, y, hplace, -⟩, -⟩ := h 12 "right" (fun text _ _ ↦ 6 * text.length)
    "abcdefghijklmnopqrstuvwxyz" (fun text ↦ 8 * text.length) ""
    ⟨⟨by decide, by decide⟩, by decide⟩
  have hnone : oledTest (fun text _ _ ↦ 6 * text.length) 12 "right"
      "abcdefghijklmnopqrstuvwxyz" = none := by decide
  rw [hnone] at hplace
  cases hplace

end BootyCall.Oled.Placement
