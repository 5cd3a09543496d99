import BootyCall.Lib.Endian

namespace BootyCall.Oled.Png

open Lib.Endian

def toBeBytes (n : UInt32) : List UInt8 := bigEndian 4 n.toNat

def toLeBytes (n : UInt16) : List UInt8 := littleEndian 2 n.toNat

@[simp]
theorem length_toBeBytes (n : UInt32) : (toBeBytes n).length = 4 := length_bigEndian 4 _

@[simp]
theorem length_toLeBytes (n : UInt16) : (toLeBytes n).length = 2 := length_littleEndian 2 _

theorem ofBigEndian_toBeBytes (n : UInt32) : ofBigEndian (toBeBytes n) = n.toNat :=
  ofBigEndian_bigEndian n.toNat_lt

theorem ofLittleEndian_toLeBytes (n : UInt16) : ofLittleEndian (toLeBytes n) = n.toNat :=
  ofLittleEndian_littleEndian n.toNat_lt

def crcBit (crc : UInt32) : UInt32 :=
  let mask := -(crc &&& 1)
  (crc >>> 1) ^^^ (0xEDB88320 &&& mask)

def crcByte (crc : UInt32) (byte : UInt8) : UInt32 := crcBit^[8] (crc ^^^ byte.toUInt32)

def crc32 (data : List UInt8) : UInt32 := ~~~(data.foldl crcByte 0xFFFFFFFF)

def adlerByte (p : UInt32 × UInt32) (byte : UInt8) : UInt32 × UInt32 :=
  let a := (p.1 + byte.toUInt32) % 65521
  (a, (p.2 + a) % 65521)

def adler32 (data : List UInt8) : UInt32 :=
  let (a, b) := data.foldl adlerByte (1, 0)
  (b <<< 16) ||| a

def writeChunk (kind data : List UInt8) : List UInt8 :=
  toBeBytes (UInt32.ofNat data.length) ++ kind ++ data ++ toBeBytes (crc32 (kind ++ data))

def storeBlocks (data : List UInt8) (offset : ℕ) : List UInt8 :=
  if offset < data.length then
    let chunk := (data.drop offset).take 0xFFFF
    let len := UInt16.ofNat chunk.length
    (if offset + chunk.length = data.length then 1 else 0) :: (toLeBytes len ++
      toLeBytes (~~~len) ++ chunk ++ storeBlocks data (offset + chunk.length))
  else []
termination_by data.length - offset
decreasing_by
  simp only [List.length_take, List.length_drop]
  omega

def zlibStore (data : List UInt8) : List UInt8 :=
  [0x78, 0x01] ++ storeBlocks data 0 ++ toBeBytes (adler32 data)

/-- `slice::chunks`, for chunks that are not empty. -/
def chunks (n : ℕ) (xs : List UInt8) : List (List UInt8) :=
  if n = 0 ∨ xs = [] then [] else xs.take n :: chunks n (xs.drop n)
termination_by xs.length
decreasing_by
  rename_i h
  rw [not_or] at h
  have hpos := List.length_pos_iff.mpr h.2
  rw [List.length_drop]
  omega

def signature : List UInt8 := [0x89, 0x50, 0x4E, 0x47, 0x0D, 0x0A, 0x1A, 0x0A]

def asciiBytes (s : String) : List UInt8 := s.toList.map fun c ↦ UInt8.ofNat c.toNat

def header (width height : ℕ) : List UInt8 :=
  toBeBytes (UInt32.ofNat width) ++ toBeBytes (UInt32.ofNat height) ++ [8, 0, 0, 0, 0]

/-- The scanlines, each behind its filter byte. -/
def rawData (gray : List UInt8) (width : ℕ) : List UInt8 :=
  (chunks width gray).flatMap fun row ↦ 0 :: row

/-- A buffer of another size and rows of no width make the encoder panic. -/
def encodeGrayPng (gray : List UInt8) (width height : ℕ) : Option (List UInt8) :=
  if gray.length = width * height ∧ width ≠ 0 then
    some (signature ++ writeChunk (asciiBytes "IHDR") (header width height) ++
      writeChunk (asciiBytes "IDAT") (zlibStore (rawData gray width)) ++
      writeChunk (asciiBytes "IEND") [])
  else none

end BootyCall.Oled.Png
