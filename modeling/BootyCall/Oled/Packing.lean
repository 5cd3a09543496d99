import BootyCall.Lib.Rgb565

namespace BootyCall.Oled.Packing

open Lib.Rgb565

abbrev Lut := Vector UInt16 256

/-- The entry of a gray value; its bytes are swapped for the little endian framebuffer. -/
def lutEntry (brightness : UInt8) (g : ℕ) : UInt16 :=
  let scaled := g * brightness.toNat / 255
  let r5 := scaled >>> 3 &&& 0x1F
  let g6 := scaled >>> 2 &&& 0x3F
  let b5 := scaled >>> 3 &&& 0x1F
  swapBytes (.ofNat (word ⟨r5, g6, b5⟩))

def buildLut (brightness : UInt8) : Lut := .ofFn fun g ↦ lutEntry brightness g

def packGray (lut : Lut) (gray : UInt8) : List UInt8 :=
  have h : gray.toNat < 256 := gray.toNat_lt
  let rgb565 := lut[gray.toNat]
  [lowByte rgb565, highByte rgb565]

/-- Rotation 0 turns the picture around here; the driver turns it a second time. -/
def packBuffer (buffer : List UInt8) (lut : Lut) (rotation : ℕ) : List UInt8 :=
  if rotation = 0 then buffer.reverse.flatMap (packGray lut) else buffer.flatMap (packGray lut)

def dimmed (brightness gray : UInt8) : Rgb :=
  let scaled := gray.toNat * brightness.toNat / 255
  ⟨scaled / 8, scaled / 4, scaled / 8⟩

def oriented (rotation : ℕ) (buffer : List UInt8) : List UInt8 :=
  if rotation = 0 then buffer.reverse else buffer

theorem scaled_le (gray brightness : UInt8) : gray.toNat * brightness.toNat / 255 ≤ 255 := by
  have hgray : gray.toNat < 256 := gray.toNat_lt
  have hbright : brightness.toNat < 256 := brightness.toNat_lt
  have hmul : gray.toNat * brightness.toNat ≤ 255 * 255 :=
    Nat.mul_le_mul (Nat.le_of_lt_succ hgray) (Nat.le_of_lt_succ hbright)
  omega

theorem lutEntry_eq (brightness gray : UInt8) :
    lutEntry brightness gray.toNat = swapBytes (.ofNat (word (dimmed brightness gray))) := by
  have hscaled := scaled_le gray brightness
  have hmask5 (n : ℕ) : n &&& 31 = n % 32 := Nat.and_two_pow_sub_one_eq_mod n 5
  have hmask6 (n : ℕ) : n &&& 63 = n % 64 := Nat.and_two_pow_sub_one_eq_mod n 6
  rw [lutEntry, dimmed]
  generalize gray.toNat * brightness.toNat / 255 = scaled at hscaled
  have h5 : scaled >>> 3 &&& 31 = scaled / 8 := by
    rw [hmask5, Nat.shiftRight_eq_div_pow, Nat.mod_eq_of_lt (by omega)]
  have h6 : scaled >>> 2 &&& 63 = scaled / 4 := by
    rw [hmask6, Nat.shiftRight_eq_div_pow, Nat.mod_eq_of_lt (by omega)]
  rw [h5, h6]

theorem word_dimmed (brightness gray : UInt8) :
    word (dimmed brightness gray) < 65536 ∧
      Rgb.ofWord (word (dimmed brightness gray)) = dimmed brightness gray := by
  have hscaled := scaled_le gray brightness
  rw [dimmed]
  generalize gray.toNat * brightness.toNat / 255 = scaled at hscaled
  have hg : scaled / 4 < 64 := by omega
  have hb : scaled / 8 < 32 := by omega
  refine ⟨?_, ofWord_word hg hb⟩
  rw [word_eq hg hb]
  dsimp only
  omega

theorem unpack_packGray (brightness gray : UInt8) (rest : List UInt8) :
    unpack (packGray (buildLut brightness) gray ++ rest) =
      dimmed brightness gray :: unpack rest := by
  obtain ⟨hlt, hword⟩ := word_dimmed brightness gray
  rw [packGray, buildLut, Vector.getElem_ofFn, lutEntry_eq, List.cons_append, List.singleton_append,
    unpack_swapBytes, UInt16.toNat_ofNat', Nat.mod_eq_of_lt hlt, hword]

theorem unpack_flatMap (brightness : UInt8) (buffer : List UInt8) :
    unpack (buffer.flatMap (packGray (buildLut brightness))) = buffer.map (dimmed brightness) := by
  induction buffer with
  | nil => rfl
  | cons gray buffer ih => rw [List.flatMap_cons, unpack_packGray, ih, List.map_cons]

/-- What is packed for the panel reads back as the dimmed picture. -/
theorem unpack_packBuffer (brightness : UInt8) (buffer : List UInt8) (rotation : ℕ) :
    unpack (packBuffer buffer (buildLut brightness) rotation) =
      (oriented rotation buffer).map (dimmed brightness) := by
  rw [packBuffer, oriented]
  split
  · exact unpack_flatMap brightness buffer.reverse
  · exact unpack_flatMap brightness buffer

end BootyCall.Oled.Packing
