import Mathlib.Data.Nat.Bitwise
import Mathlib.Data.Nat.Notation
import Mathlib.Tactic.Ring

namespace BootyCall.Lib.Rgb565

/-- A colour with five bits of red, six of green and five of blue. -/
structure Rgb where
  r : ℕ
  g : ℕ
  b : ℕ
  deriving DecidableEq

def word (c : Rgb) : ℕ := (c.r <<< 11) ||| (c.g <<< 5) ||| c.b

def Rgb.ofWord (w : ℕ) : Rgb := ⟨w / 2048, w / 32 % 64, w % 32⟩

def swapBytes (v : UInt16) : UInt16 := ((v &&& 0xFF) <<< 8) ||| ((v >>> 8) &&& 0xFF)

def lowByte (v : UInt16) : UInt8 := (v &&& 0xFF).toUInt8

def highByte (v : UInt16) : UInt8 := (v >>> 8).toUInt8

def unpack : List UInt8 → List Rgb
  | hi :: lo :: rest => .ofWord (hi.toNat * 256 + lo.toNat) :: unpack rest
  | _ => []

theorem word_eq {c : Rgb} (hg : c.g < 64) (hb : c.b < 32) :
    word c = c.r * 2048 + c.g * 32 + c.b := by
  have hlow : c.g <<< 5 ||| c.b = 2 ^ 5 * c.g + c.b := by
    rw [Nat.shiftLeft_eq, Nat.mul_comm, Nat.two_pow_add_eq_or_of_lt hb]
  have hhigh : c.r <<< 11 ||| (2 ^ 5 * c.g + c.b) = 2 ^ 11 * c.r + (2 ^ 5 * c.g + c.b) := by
    rw [Nat.shiftLeft_eq, Nat.mul_comm]
    exact (Nat.two_pow_add_eq_or_of_lt (i := 11) (by omega) c.r).symm
  rw [word, Nat.or_assoc, hlow, hhigh]
  ring

theorem ofWord_word {c : Rgb} (hg : c.g < 64) (hb : c.b < 32) : Rgb.ofWord (word c) = c := by
  obtain ⟨r, g, b⟩ := c
  rw [word_eq hg hb, Rgb.ofWord, Rgb.mk.injEq]
  dsimp only at hg hb ⊢
  omega

theorem toNat_swapBytes (v : UInt16) :
    (swapBytes v).toNat = v.toNat % 256 * 256 + v.toNat / 256 := by
  have hv : v.toNat < 65536 := v.toNat_lt
  have hlow : v.toNat &&& 255 = v.toNat % 256 := Nat.and_two_pow_sub_one_eq_mod _ 8
  have hhigh : v.toNat >>> 8 &&& 255 = v.toNat / 256 := by
    rw [Nat.shiftRight_eq_div_pow]
    refine (Nat.and_two_pow_sub_one_eq_mod _ 8).trans (Nat.mod_eq_of_lt ?_)
    omega
  have hshift : (v.toNat % 256) <<< 8 % 65536 = 2 ^ 8 * (v.toNat % 256) := by
    rw [Nat.shiftLeft_eq]
    omega
  have hor := Nat.two_pow_add_eq_or_of_lt (i := 8) (b := v.toNat / 256) (by omega) (v.toNat % 256)
  simp only [swapBytes, UInt16.toNat_or, UInt16.toNat_shiftLeft, UInt16.toNat_and,
    UInt16.toNat_shiftRight, UInt16.reduceToNat, Nat.reduceMod, Nat.reducePow, hlow, hhigh,
    hshift] at hor ⊢
  omega

theorem toNat_lowByte_swapBytes (v : UInt16) : (lowByte (swapBytes v)).toNat = v.toNat / 256 := by
  have hv : v.toNat < 65536 := v.toNat_lt
  have hmask (n : ℕ) : n &&& 255 = n % 256 := Nat.and_two_pow_sub_one_eq_mod n 8
  simp only [lowByte, UInt16.toNat_toUInt8, UInt16.toNat_and, UInt16.reduceToNat, hmask,
    toNat_swapBytes]
  omega

theorem toNat_highByte_swapBytes (v : UInt16) : (highByte (swapBytes v)).toNat = v.toNat % 256 := by
  have hv : v.toNat < 65536 := v.toNat_lt
  simp only [highByte, UInt16.toNat_toUInt8, UInt16.toNat_shiftRight, UInt16.reduceToNat,
    Nat.reduceMod, Nat.shiftRight_eq_div_pow, Nat.reducePow, toNat_swapBytes]
  rw [Nat.add_comm, Nat.add_mul_div_right _ _ (by decide), Nat.div_eq_of_lt (by omega),
    Nat.zero_add]
  exact Nat.mod_mod _ _

/-- Two bytes of a swapped word, the low one first, are read back as the word. -/
theorem unpack_swapBytes (v : UInt16) (rest : List UInt8) :
    unpack (lowByte (swapBytes v) :: highByte (swapBytes v) :: rest) =
      .ofWord v.toNat :: unpack rest := by
  rw [unpack, toNat_lowByte_swapBytes, toNat_highByte_swapBytes]
  congr 2
  omega

end BootyCall.Lib.Rgb565
