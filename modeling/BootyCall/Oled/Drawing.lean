import BootyCall.Lib.Pointwise
import BootyCall.Oled.Placement
import BootyCall.Oled.Renderer

namespace BootyCall.Oled.Drawing

open Lib.Pointwise Lib.Segment Placement Renderer

abbrev Place := Fin (width * height)

def col (k : Place) : ℕ := k % width
def row (k : Place) : ℕ := k / width

def pixel (fb : Framebuffer) (k : Place) : UInt8 := fb.buffer[k.val]

/-- What `draw_text` gets from the font for one pixel: its place and how much of it is covered. -/
structure Sample where
  px : ℤ
  py : ℤ
  alpha : UInt8

/-- The fonts of the panel: the samples of a text drawn at a place, and its width. -/
structure Font where
  samples : ℕ → ℕ → String → Bool → List Sample
  measureText : String → Bool → ℕ

def drawRect (fb : Framebuffer) (x y w h : ℕ) (color : UInt8) : Framebuffer :=
  (List.range h).foldl (fun fb dy ↦
    (List.range w).foldl (fun fb dx ↦ fb.setPixel (x + dx) (y + dy) color) fb) fb

def drawBitmap (fb : Framebuffer) (x y : ℕ) (bmp : List UInt8) (w h : ℕ) : Framebuffer :=
  (List.range h).foldl (fun fb dy ↦
    (List.range w).foldl (fun fb dx ↦
      match bmp[dy * w + dx]? with
      | some pixel => if 64 < pixel then fb.setPixel (x + dx) (y + dy) pixel else fb
      | none => fb) fb) fb

def drawSample (fb : Framebuffer) (s : Sample) : Framebuffer :=
  if 0 ≤ s.px ∧ s.px < width ∧ 0 ≤ s.py ∧ s.py < height then
    if 0 < s.alpha then
      let current := fb.buffer[s.py.toNat * width + s.px.toNat]?.getD 0
      fb.setPixel s.px.toNat s.py.toNat (max current s.alpha)
    else fb
  else fb

def drawText (font : Font) (fb : Framebuffer) (x y : ℕ) (text : String) (useLargeFont : Bool) :
    Framebuffer := (font.samples x y text useLargeFont).foldl drawSample fb

def brailleChars : List (List (List Bool)) :=
  [[[false, true], [true, true], [true, false]],
    [[true, false], [false, false], [false, false]],
    [[true, false], [true, true], [true, false]],
    [[false, true], [true, false], [true, false]]]

def drawBraille (fb : Framebuffer) (xStart yStart colDist rowDist charDist : ℕ) : Framebuffer :=
  brailleChars.zipIdx.foldl (fun fb (charGrid, cIdx) ↦
    charGrid.zipIdx.foldl (fun fb (row, rowIdx) ↦
      row.zipIdx.foldl (fun fb (isSet, colIdx) ↦
        if isSet then
          drawRect fb (xStart + cIdx * charDist + colIdx * colDist) (yStart + rowIdx * rowDist)
            2 2 255
        else fb) fb) fb) fb

def metricsMarginX : ℕ := 12
def metricsTextX : ℕ := 32
def metricsLabelDy : ℕ := 2
def metricsSeparatorDy : ℕ := 15
def metricsSeparatorBrightness : UInt8 := 128

/-- No result where a number leaves its word; the separator takes fewer turns than the panel is
wide. -/
def drawMetricsPage (font : Font) (fb : Framebuffer) (label value : String)
    (icon : Option (List UInt8)) (iconDy : ℕ) : Option Framebuffer := do
  let fb ← match icon with
    | some iconBytes =>
      drawLine (2 ^ 63) width
        (drawBitmap fb metricsMarginX (visibleYStart + iconDy) iconBytes 16 16)
        metricsMarginX (visibleYStart + metricsSeparatorDy)
        (width - metricsMarginX) (visibleYStart + metricsSeparatorDy) metricsSeparatorBrightness
    | none => some fb
  let fb := drawText font fb metricsTextX (visibleYStart + metricsLabelDy) label false
  let (x, y) ← metricsValue (font.measureText value true)
  some (drawText font fb x y value true)

def drawTars (font : Font) (fb : Framebuffer) (drawX drawY : ℕ) : Framebuffer :=
  drawBraille (drawText font fb drawX drawY "TARS" false) (drawX + 3) (drawY + 13) 3 3 8

def InRect (x y w h : ℕ) (k : Place) : Prop :=
  (x ≤ col k ∧ col k < x + w) ∧ y ≤ row k ∧ row k < y + h

instance (x y w h : ℕ) (k : Place) : Decidable (InRect x y w h k) :=
  inferInstanceAs (Decidable (_ ∧ _))

/-- How much the samples of a text cover a place. -/
def shades (samples : List Sample) (k : Place) : List UInt8 :=
  (samples.filter fun s : Sample ↦
    decide (s.px = col k ∧ s.py = row k ∧ 0 < s.alpha)).map Sample.alpha

def brightest (v : UInt8) (shades : List UInt8) : UInt8 := shades.foldl max v

/-- What a bitmap puts at a place; its dark pixels are left out. -/
def bitmapAt (x y : ℕ) (bmp : List UInt8) (w h : ℕ) (k : Place) : Option UInt8 :=
  if InRect x y w h k then
    bmp[(row k - y) * w + (col k - x)]?.filter fun pixel ↦ decide (64 < pixel)
  else none

/-- The upper left corners of the dots that spell TARS. -/
def brailleDots (xStart yStart colDist rowDist charDist : ℕ) : List (ℕ × ℕ) :=
  brailleChars.zipIdx.flatMap fun (charGrid, cIdx) ↦
    charGrid.zipIdx.flatMap fun (row, rowIdx) ↦
      row.zipIdx.filterMap fun (isSet, colIdx) ↦
        if isSet then some (xStart + cIdx * charDist + colIdx * colDist, yStart + rowIdx * rowDist)
        else none

def OnBraille (xStart yStart colDist rowDist charDist : ℕ) (k : Place) : Prop :=
  ∃ p ∈ brailleDots xStart yStart colDist rowDist charDist, InRect p.1 p.2 2 2 k

instance (xStart yStart colDist rowDist charDist : ℕ) (k : Place) :
    Decidable (OnBraille xStart yStart colDist rowDist charDist k) :=
  inferInstanceAs (Decidable (∃ p ∈ brailleDots xStart yStart colDist rowDist charDist, _))

def OnSeparator (k : Place) : Prop :=
  row k = visibleYStart + metricsSeparatorDy ∧
    metricsMarginX ≤ col k ∧ col k ≤ width - metricsMarginX

instance (k : Place) : Decidable (OnSeparator k) := inferInstanceAs (Decidable (_ ∧ _))

/-- What lies below the texts of a metrics page: the separator over the icon, the rest empty. -/
def pageGround (icon : List UInt8) (iconDy : ℕ) (k : Place) : UInt8 :=
  if OnSeparator k then metricsSeparatorBrightness
  else (bitmapAt metricsMarginX (visibleYStart + iconDy) icon 16 16 k).getD 0

def page (font : Font) (label value : String) (icon : List UInt8) (iconDy : ℕ) (k : Place) :
    UInt8 :=
  brightest
    (brightest (pageGround icon iconDy k)
      (shades (font.samples metricsTextX (visibleYStart + metricsLabelDy) label false) k))
    (shades
      (font.samples ((width - font.measureText value true) / 2) (visibleYStart + metricsValueDy)
        value true) k)

def tars (font : Font) (drawX drawY : ℕ) (k : Place) : UInt8 :=
  if OnBraille (drawX + 3) (drawY + 13) 3 3 8 k then 255
  else brightest 0 (shades (font.samples drawX drawY "TARS" false) k)

theorem setPixel_acts (x y : ℕ) (color : UInt8) :
    Acts pixel (fun fb ↦ fb.setPixel x y color) fun k v ↦
      if x = col k ∧ y = row k then color else v :=
  fun fb k ↦ Framebuffer.getElem_setPixel fb x y color k.isLt

theorem drawRect_acts (x y w h : ℕ) (color : UInt8) :
    Acts pixel (fun fb ↦ drawRect fb x y w h color) fun k v ↦
      if InRect x y w h k then color else v :=
  acts_grid (fun dx dy ↦ setPixel_acts (x + dx) (y + dy) color) w h

theorem bitmapTurn_acts (x y : ℕ) (o : Option UInt8) :
    Acts pixel
      (fun fb ↦
        match o with
        | some p => if 64 < p then fb.setPixel x y p else fb
        | none => fb)
      fun k v ↦ if x = col k ∧ y = row k then (o.filter fun p ↦ decide (64 < p)).getD v else v := by
  intro fb k
  cases o with
  | none => exact (ite_self _).symm
  | some p =>
    dsimp only
    rw [Option.filter_some]
    by_cases hp : 64 < p
    · rw [if_pos hp, if_pos (decide_eq_true hp)]
      exact setPixel_acts x y p fb k
    · rw [if_neg hp, if_neg fun h ↦ hp (of_decide_eq_true h)]
      exact (ite_self _).symm

theorem drawBitmap_acts (x y : ℕ) (bmp : List UInt8) (w h : ℕ) :
    Acts pixel (fun fb ↦ drawBitmap fb x y bmp w h) fun k v ↦ (bitmapAt x y bmp w h k).getD v := by
  apply (acts_grid (fun dx dy ↦ bitmapTurn_acts (x + dx) (y + dy) bmp[dy * w + dx]?) w h).congr
  intro k v
  rw [bitmapAt]
  by_cases hin : InRect x y w h k
  · rw [if_pos hin]
    exact if_pos hin
  · rw [if_neg hin]
    exact if_neg hin

theorem col_lt (k : Place) : col k < width := Nat.mod_lt _ (by decide)

theorem row_lt (k : Place) : row k < height := by
  have hk := k.isLt
  simp only [row, width, height] at hk ⊢
  omega

theorem place_eq (k : Place) : row k * width + col k = k := by
  simp only [row, col, width]
  omega

theorem drawSample_acts (s : Sample) :
    Acts pixel (fun fb ↦ drawSample fb s) fun k v ↦
      if s.px = col k ∧ s.py = row k ∧ 0 < s.alpha then max v s.alpha else v := by
  intro fb k
  have hcol := col_lt k
  have hrow := row_lt k
  dsimp only
  by_cases hpanel : 0 ≤ s.px ∧ s.px < width ∧ 0 ≤ s.py ∧ s.py < height
  · by_cases halpha : 0 < s.alpha
    · rw [drawSample, if_pos hpanel, if_pos halpha]
      refine (setPixel_acts _ _ _ fb k).trans ?_
      dsimp only
      by_cases hplace : s.px = col k ∧ s.py = row k
      · have hx : s.px.toNat = col k := by omega
        have hy : s.py.toNat = row k := by omega
        rw [if_pos ⟨hx, hy⟩, if_pos ⟨hplace.1, hplace.2, halpha⟩, hx, hy, place_eq]
        simp [pixel]
      · rw [if_neg (by omega), if_neg fun h ↦ hplace ⟨h.1, h.2.1⟩]
    · rw [drawSample, if_pos hpanel, if_neg halpha, if_neg fun h ↦ halpha h.2.2]
  · rw [drawSample, if_neg hpanel, if_neg fun h ↦ hpanel (by omega)]

theorem drawText_acts (font : Font) (x y : ℕ) (text : String) (useLargeFont : Bool) :
    Acts pixel (fun fb ↦ drawText font fb x y text useLargeFont) fun k v ↦
      brightest v (shades (font.samples x y text useLargeFont) k) := by
  apply (acts_foldl drawSample_acts (font.samples x y text useLargeFont)).congr
  intro k v
  rw [brightest, shades, List.foldl_map, List.foldl_filter]
  simp only [decide_eq_true_eq]

theorem drawBraille_eq (fb : Framebuffer) (xStart yStart colDist rowDist charDist : ℕ) :
    drawBraille fb xStart yStart colDist rowDist charDist =
      (brailleDots xStart yStart colDist rowDist charDist).foldl
        (fun fb p ↦ drawRect fb p.1 p.2 2 2 255) fb := by
  simp only [drawBraille, brailleDots, List.foldl_flatMap, List.foldl_filterMap]
  rfl

theorem drawBraille_acts (xStart yStart colDist rowDist charDist : ℕ) :
    Acts pixel (fun fb ↦ drawBraille fb xStart yStart colDist rowDist charDist) fun k v ↦
      if OnBraille xStart yStart colDist rowDist charDist k then 255 else v := by
  intro fb k
  dsimp only
  rw [drawBraille_eq]
  exact acts_paint (fun p : ℕ × ℕ ↦ drawRect_acts p.1 p.2 2 2 255) _ fb k

theorem place_horizontal (k : Place) {x0 x1 y : ℕ} (h : x0 < x1) :
    Renderer.place k ∈ visited (path (x0, y) (x1, y)) (span (x0, y) (x1, y)) ↔
      row k = y ∧ x0 ≤ col k ∧ col k ≤ x1 := by
  have hextent : extent ((x0 : ℤ), (y : ℤ)) (x1, y) = (x1 - x0, 0) := by
    rw [extent, Prod.mk.injEq]
    dsimp only
    omega
  have hspan : span ((x0 : ℤ), (y : ℤ)) (x1, y) = x1 - x0 := by
    rw [span, hextent]
    exact Nat.max_eq_left (Nat.zero_le _)
  have hpos (i : ℕ) (hi : i ≤ x1 - x0) :
      (path ((x0 : ℤ), (y : ℤ)) (x1, y) i).pos = ((x0 : ℤ) + i, (y : ℤ)) := by
    obtain ⟨-, hfst⟩ := walk_spec (Nat.zero_le (x1 - x0)) i
    have hsnd := Nat.le_zero.mp (walk_snd_le (Nat.zero_le (x1 - x0)) hi)
    have hunit : unit (x0 : ℤ) x1 = 1 := if_pos (by omega)
    simp only [path, cursorAt, Cursor.pos, hextent, hfst, hsnd, hunit, Prod.mk.injEq]
    omega
  rw [visited, List.mem_map, hspan]
  constructor
  · rintro ⟨i, hi, hplace⟩
    rw [List.mem_range, Nat.lt_succ_iff] at hi
    rw [hpos i hi, Renderer.place, Prod.mk.injEq] at hplace
    rw [row, col]
    omega
  · rintro ⟨hrow, hlo, hhi⟩
    have hi : col k - x0 ≤ x1 - x0 := by omega
    refine ⟨col k - x0, List.mem_range.mpr (by omega), ?_⟩
    rw [hpos _ hi, Renderer.place, Prod.mk.injEq, ← hrow]
    rw [col] at hlo ⊢
    rw [row]
    omega

theorem drawLine_horizontal {limit : ℤ} {x0 x1 y fuel : ℕ} (hfits : LineFits limit x0 y x1 y)
    (h : x0 < x1) (hfuel : x1 - x0 < fuel) (fb : Framebuffer) (color : UInt8) :
    ∃ fb', drawLine limit fuel fb x0 y x1 y color = some fb' ∧
      ∀ k, pixel fb' k = if row k = y ∧ x0 ≤ col k ∧ col k ≤ x1 then color else pixel fb k := by
  have hloop := loop_follows (follows_path hfits) color fuel fb
  have hspan : span ((x0 : ℤ), (y : ℤ)) (x1, y) < fuel := by
    rw [span, extent]
    dsimp only
    omega
  rw [if_pos hspan] at hloop
  refine ⟨plotAll color fb (visited (path (x0, y) (x1, y)) (span (x0, y) (x1, y))), ?_, ?_⟩
  · rw [drawLine, start_of_fits hfits]
    exact hloop
  · intro k
    exact (getElem_plotAll _ fb _ k.isLt).trans (if_congr (place_horizontal k h) rfl rfl)

theorem drawLine_separator (fb : Framebuffer) :
    ∃ fb', drawLine (2 ^ 63) width fb metricsMarginX (visibleYStart + metricsSeparatorDy)
        (width - metricsMarginX) (visibleYStart + metricsSeparatorDy)
        metricsSeparatorBrightness = some fb' ∧
      ∀ k, pixel fb' k = if OnSeparator k then metricsSeparatorBrightness else pixel fb k := by
  apply drawLine_horizontal
  · constructor <;> decide
  · decide
  · decide

theorem metricsValue_eq (textW : ℕ) :
    metricsValue textW = some ((width - textW) / 2, visibleYStart + metricsValueDy) := by
  rw [metricsValue, valX]
  by_cases hw : textW < width
  · rw [if_pos hw, subUsize_of_le (Nat.le_of_lt hw)]
    rfl
  · rw [if_neg hw, Nat.sub_eq_zero_of_le (Nat.not_lt.mp hw)]
    rfl

theorem drawMetricsPage_spec (font : Font) (fb : Framebuffer) (label value : String)
    (icon : List UInt8) (iconDy : ℕ) (hfb : ∀ k, pixel fb k = 0) :
    ∃ fb', drawMetricsPage font fb label value (some icon) iconDy = some fb' ∧
      ∀ k, pixel fb' k = page font label value icon iconDy k := by
  obtain ⟨ground, hground, hpixels⟩ := drawLine_separator
    (drawBitmap fb metricsMarginX (visibleYStart + iconDy) icon 16 16)
  refine ⟨drawText font (drawText font ground metricsTextX (visibleYStart + metricsLabelDy)
    label false) ((width - font.measureText value true) / 2)
    (visibleYStart + metricsValueDy) value true, ?_, ?_⟩
  · rw [drawMetricsPage, metricsValue_eq]
    dsimp only
    rw [hground]
    rfl
  · intro k
    refine (drawText_acts font _ _ value true _ k).trans ?_
    dsimp only
    have hlabel := drawText_acts font metricsTextX (visibleYStart + metricsLabelDy) label false
      ground k
    have hicon := drawBitmap_acts metricsMarginX (visibleYStart + iconDy) icon 16 16 fb k
    dsimp only at hlabel hicon
    rw [hlabel, hpixels, hicon, hfb]
    rfl

theorem drawTars_spec (font : Font) (fb : Framebuffer) (drawX drawY : ℕ)
    (hfb : ∀ k, pixel fb k = 0) (k : Place) :
    pixel (drawTars font fb drawX drawY) k = tars font drawX drawY k := by
  refine (drawBraille_acts (drawX + 3) (drawY + 13) 3 3 8 _ k).trans ?_
  have htext := drawText_acts font drawX drawY "TARS" false fb k
  dsimp only at htext ⊢
  rw [htext, hfb]
  rfl

end BootyCall.Oled.Drawing
