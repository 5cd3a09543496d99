import Mathlib.Data.Nat.Notation
import Mathlib.Logic.Basic

namespace BootyCall.Oled

def width : ℕ := 160

def height : ℕ := 60

/-- The gray values of the panel, row by row. -/
structure Framebuffer where
  buffer : Vector UInt8 (width * height)

namespace Framebuffer

def blank : Framebuffer := { buffer := Vector.replicate (width * height) 0 }

theorem index_lt {x y : ℕ} (h : x < width ∧ y < height) : y * width + x < width * height := by
  simp only [width, height] at h ⊢
  omega

def setPixel (fb : Framebuffer) (x y : ℕ) (color : UInt8) : Framebuffer :=
  if h : x < width ∧ y < height then
    { fb with buffer := fb.buffer.set (y * width + x) color (index_lt h) }
  else fb

/-- A pixel is written in its own place and nowhere else; off the panel there is none. -/
theorem getElem_setPixel (fb : Framebuffer) (x y : ℕ) (color : UInt8) {k : ℕ}
    (hk : k < width * height) :
    (fb.setPixel x y color).buffer[k] =
      if x = k % width ∧ y = k / width then color else fb.buffer[k] := by
  by_cases h : x < width ∧ y < height
  · rw [setPixel, dif_pos h, Vector.getElem_set]
    simp only [width, height] at hk h ⊢
    exact if_congr (by omega) rfl rfl
  · rw [setPixel, dif_neg h, if_neg]
    simp only [width, height] at hk h ⊢
    omega

end Framebuffer

end BootyCall.Oled
