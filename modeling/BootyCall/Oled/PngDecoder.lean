import BootyCall.Lib.Crc
import BootyCall.Oled.Png

namespace BootyCall.Oled.PngDecoder

open Lib.Endian Lib.Crc Png Polynomial

section Format

/-- The checksum of a chunk: the remainder of its bits behind 32 ones, inverted. -/
def CrcHolds (bytes : List UInt8) (crc : ℕ) : Prop :=
  poly (~~~(BitVec.ofNat 32 crc)) =
    (X ^ (8 * bytes.length) * poly (BitVec.allOnes 32) + X ^ 32 * message bytes) %ₘ
      generator 0xEDB88320#32

/-- Adler-32: the sum of the bytes above one, and the sum of all these sums on the way. -/
def adler (bytes : List UInt8) : ℕ :=
  let sums (k : ℕ) : ℕ := 1 + ((bytes.take k).map UInt8.toNat).sum
  ((List.range bytes.length).map fun k ↦ sums (k + 1)).sum % 65521 * 65536 +
    sums bytes.length % 65521

/-- The blocks of a DEFLATE stream, all of them stored, up to the one marked as final. -/
def readBlocks : ℕ → List UInt8 → Option (List UInt8 × List UInt8)
  | 0, _ => none
  | fuel + 1, s => do
    let (head, s) ← takeBytes 1 s
    let (len, s) ← takeBytes 2 s
    let (nlen, s) ← takeBytes 2 s
    let (chunk, s) ← takeBytes (ofLittleEndian len) s
    let bits := ofLittleEndian head
    if bits / 2 % 4 ≠ 0 ∨ ofLittleEndian len + ofLittleEndian nlen ≠ 0xFFFF then none
    else if bits % 2 = 1 then some (chunk, s)
    else do
      let (more, s) ← readBlocks fuel s
      some (chunk ++ more, s)

/-- A zlib stream: compression method 8 with a window of at most 32 KiB, a header that is a
multiple of 31, no preset dictionary. -/
def readZlib (s : List UInt8) : Option (List UInt8) := do
  let (head, s) ← takeBytes 2 s
  let (data, s) ← readBlocks s.length s
  let bits := ofBigEndian head
  if bits / 256 % 16 ≠ 8 ∨ 7 < bits / 4096 ∨ bits % 31 ≠ 0 ∨ bits / 32 % 2 ≠ 0 then none
  else if s.length = 4 ∧ ofBigEndian s = adler data then some data
  else none

open Classical in
noncomputable def readChunk (s : List UInt8) :
    Option ((List UInt8 × List UInt8) × List UInt8) := do
  let (len, s) ← takeBytes 4 s
  let (kind, s) ← takeBytes 4 s
  let (data, s) ← takeBytes (ofBigEndian len) s
  let (crc, s) ← takeBytes 4 s
  if CrcHolds (kind ++ data) (ofBigEndian crc) then some ((kind, data), s) else none

noncomputable def readChunks : ℕ → List UInt8 → Option (List (List UInt8 × List UInt8))
  | _, [] => some []
  | 0, _ => none
  | fuel + 1, s => do
    let (chunk, s) ← readChunk s
    let more ← readChunks fuel s
    some (chunk :: more)

def readHeader (data : List UInt8) : Option (ℕ × ℕ) := do
  let (width, s) ← takeBytes 4 data
  let (height, s) ← takeBytes 4 s
  if s = [8, 0, 0, 0, 0] ∧ ofBigEndian width ≠ 0 ∧ ofBigEndian height ≠ 0 then
    some (ofBigEndian width, ofBigEndian height)
  else none

def readRows (width : ℕ) : ℕ → List UInt8 → Option (List UInt8)
  | 0, s => if s = [] then some [] else none
  | rows + 1, s => do
    let (filter, s) ← takeBytes 1 s
    let (row, s) ← takeBytes width s
    let more ← readRows width rows s
    if filter = [0] then some (row ++ more) else none

def readImage : List (List UInt8 × List UInt8) → Option (ℕ × ℕ × List UInt8)
  | [] => none
  | (kind, data) :: rest => do
    let isData (chunk : List UInt8 × List UInt8) : Bool := chunk.1 == asciiBytes "IDAT"
    let (width, height) ← readHeader data
    let raw ← readZlib ((rest.takeWhile isData).flatMap Prod.snd)
    let gray ← readRows width height raw
    if kind = asciiBytes "IHDR" ∧ rest.dropWhile isData = [(asciiBytes "IEND", [])] then
      some (width, height, gray)
    else none

noncomputable def decodeGrayPng (s : List UInt8) : Option (ℕ × ℕ × List UInt8) := do
  let (sign, s) ← takeBytes 8 s
  let chunks ← readChunks s.length s
  if sign = signature then readImage chunks else none

end Format

section Checksums

theorem toBitVec_crcBit (crc : UInt32) :
    (crcBit crc).toBitVec = shift 0xEDB88320#32 crc.toBitVec := by
  have hlow : (crc &&& 1).toBitVec =
      (BitVec.ofBool (crc.toBitVec.getLsbD 0)).setWidth 32 := by
    rw [UInt32.toBitVec_and]
    exact BitVec.and_one_eq_setWidth_ofBool_getLsbD
  have hmask : (-(crc &&& 1)).toBitVec =
      if crc.toBitVec.getLsbD 0 then BitVec.allOnes 32 else 0#32 := by
    rw [UInt32.toBitVec_neg, hlow]
    cases crc.toBitVec.getLsbD 0 <;> decide
  have hshift : (crc >>> 1).toBitVec = crc.toBitVec >>> 1 := by
    rw [UInt32.toBitVec_shiftRight]
    rfl
  have hgenerator : (0xEDB88320 : UInt32).toBitVec = 0xEDB88320#32 := rfl
  simp only [crcBit]
  rw [UInt32.toBitVec_xor, UInt32.toBitVec_and, hmask, hshift, hgenerator, shift]
  cases crc.toBitVec.getLsbD 0 with
  | false => simp
  | true => simp

theorem toBitVec_iterate (n : ℕ) (crc : UInt32) :
    (crcBit^[n] crc).toBitVec = (shift 0xEDB88320#32)^[n] crc.toBitVec := by
  induction n generalizing crc with
  | zero => rfl
  | succ n ih => rw [Function.iterate_succ_apply, Function.iterate_succ_apply, ih, toBitVec_crcBit]

theorem toBitVec_crcByte (crc : UInt32) (byte : UInt8) :
    (crcByte crc byte).toBitVec = takeIn 0xEDB88320#32 crc.toBitVec byte := by
  rw [crcByte, toBitVec_iterate, takeIn, UInt32.toBitVec_xor]
  rfl

theorem toBitVec_crc32 (bytes : List UInt8) :
    (crc32 bytes).toBitVec = ~~~register 0xEDB88320#32 (BitVec.allOnes 32) bytes := by
  have hloop : ∀ crc : UInt32, (bytes.foldl crcByte crc).toBitVec =
      register 0xEDB88320#32 crc.toBitVec bytes := by
    induction bytes with
    | nil => exact fun _ ↦ rfl
    | cons byte bytes ih =>
      intro crc
      rw [List.foldl_cons, ih, toBitVec_crcByte]
      rfl
  rw [crc32, UInt32.toBitVec_not, hloop]
  rfl

/-- The loop over the bits of a chunk computes the only checksum that holds for it. -/
theorem crcHolds_iff {bytes : List UInt8} {crc : ℕ} (hcrc : crc < 2 ^ 32) :
    CrcHolds bytes crc ↔ crc = (crc32 bytes).toNat := by
  rw [CrcHolds, ← poly_register (by decide), poly_injective.eq_iff]
  have hvalue : (crc32 bytes).toNat = (crc32 bytes).toBitVec.toNat := rfl
  rw [hvalue, toBitVec_crc32]
  constructor
  · intro h
    rw [← h, BitVec.not_not, BitVec.toNat_ofNat, Nat.mod_eq_of_lt hcrc]
  · rintro rfl
    rw [BitVec.ofNat_toNat, BitVec.setWidth_eq, BitVec.not_not]

example : CrcHolds (asciiBytes "123456789") 0xCBF43926 := by
  rw [crcHolds_iff (by decide)]
  decide +kernel

theorem toNat_adlerByte {p : UInt32 × UInt32} (ha : p.1.toNat < 65521) (hb : p.2.toNat < 65521)
    (byte : UInt8) :
    (adlerByte p byte).1.toNat = (p.1.toNat + byte.toNat) % 65521 ∧
      (adlerByte p byte).2.toNat =
        (p.2.toNat + (p.1.toNat + byte.toNat) % 65521) % 65521 := by
  have hbyte := byte.toNat_lt
  have hfirst : ((p.1 + byte.toUInt32) % 65521).toNat = (p.1.toNat + byte.toNat) % 65521 := by
    rw [UInt32.toNat_mod, UInt32.toNat_add, UInt8.toNat_toUInt32]
    change (p.1.toNat + byte.toNat) % 4294967296 % 65521 = _
    omega
  refine ⟨hfirst, ?_⟩
  rw [adlerByte, UInt32.toNat_mod, UInt32.toNat_add, hfirst]
  change (p.2.toNat + (p.1.toNat + byte.toNat) % 65521) % 4294967296 % 65521 = _
  omega

def sumTo (bytes : List UInt8) (k : ℕ) : ℕ := 1 + ((bytes.take k).map UInt8.toNat).sum

theorem sumTo_append {bytes : List UInt8} {k : ℕ} (h : k ≤ bytes.length) (byte : UInt8) :
    sumTo (bytes ++ [byte]) k = sumTo bytes k := by
  rw [sumTo, sumTo, List.take_append_of_le_length h]

theorem sumTo_last (bytes : List UInt8) (byte : UInt8) :
    sumTo (bytes ++ [byte]) (bytes.length + 1) = sumTo bytes bytes.length + byte.toNat := by
  rw [sumTo, sumTo, List.take_of_length_le (by simp), List.take_length, List.map_append,
    List.sum_append, List.map_singleton, List.sum_singleton, Nat.add_assoc]

theorem toNat_foldl_adlerByte (bytes : List UInt8) :
    (bytes.foldl adlerByte (1, 0)).1.toNat = sumTo bytes bytes.length % 65521 ∧
      (bytes.foldl adlerByte (1, 0)).2.toNat =
        ((List.range bytes.length).map fun k ↦ sumTo bytes (k + 1)).sum % 65521 := by
  induction bytes using List.reverseRecOn with
  | nil => exact ⟨rfl, rfl⟩
  | append_singleton bytes byte ih =>
    obtain ⟨ha, hb⟩ := ih
    have hlow : (bytes.foldl adlerByte (1, 0)).1.toNat < 65521 := by omega
    have hhigh : (bytes.foldl adlerByte (1, 0)).2.toNat < 65521 := by omega
    obtain ⟨ha', hb'⟩ := toNat_adlerByte hlow hhigh byte
    have hsums : ((List.range bytes.length).map fun k ↦ sumTo (bytes ++ [byte]) (k + 1)) =
        (List.range bytes.length).map fun k ↦ sumTo bytes (k + 1) := by
      apply List.map_congr_left
      intro k hk
      exact sumTo_append (List.mem_range.mp hk) byte
    rw [List.foldl_append, List.foldl_cons, List.foldl_nil, ha', hb', ha, hb, List.length_append,
      List.length_singleton, List.range_succ, List.map_append, List.sum_append, hsums,
      List.map_singleton, List.sum_singleton, sumTo_last]
    omega

theorem toNat_adler32 (bytes : List UInt8) : (adler32 bytes).toNat = adler bytes := by
  obtain ⟨ha, hb⟩ := toNat_foldl_adlerByte bytes
  have hspec : adler bytes = (bytes.foldl adlerByte (1, 0)).2.toNat * 65536 +
      (bytes.foldl adlerByte (1, 0)).1.toNat := by
    rw [ha, hb]
    rfl
  have hvalue : (adler32 bytes).toNat =
      (bytes.foldl adlerByte (1, 0)).2.toNat <<< 16 % 2 ^ 32 |||
        (bytes.foldl adlerByte (1, 0)).1.toNat := by
    rw [adler32, UInt32.toNat_or, UInt32.toNat_shiftLeft]
    rfl
  have hhigh : (bytes.foldl adlerByte (1, 0)).2.toNat <<< 16 % 2 ^ 32 =
      (bytes.foldl adlerByte (1, 0)).2.toNat <<< 16 := by
    rw [Nat.shiftLeft_eq]
    omega
  rw [hspec, hvalue, hhigh, ← Nat.shiftLeft_add_eq_or_of_lt (by omega), Nat.shiftLeft_eq]

end Checksums

section Framing

theorem toNat_not_len {n : ℕ} (h : n ≤ 0xFFFF) :
    (UInt16.ofNat n).toNat = n ∧ (~~~UInt16.ofNat n).toNat = 0xFFFF - n := by
  have hlen : (UInt16.ofNat n).toNat = n := by
    rw [UInt16.toNat_ofNat']
    omega
  refine ⟨hlen, ?_⟩
  have hnot : (~~~UInt16.ofNat n).toNat = 2 ^ 16 - 1 - (UInt16.ofNat n).toNat := by
    rw [← UInt16.toNat_toBitVec, UInt16.toBitVec_not, BitVec.toNat_not]
    rfl
  rw [hnot, hlen]
  rfl

theorem storeBlocks_length {data : List UInt8} {offset : ℕ} (h : offset ≤ data.length) :
    (storeBlocks data offset).length =
      data.length - offset + 5 * ((data.length - offset + 65534) / 65535) := by
  induction hn : data.length - offset using Nat.strongRecOn generalizing offset with
  | ind n ih =>
    rw [storeBlocks]
    split
    next hlt =>
      have hchunk : ((data.drop offset).take 0xFFFF).length = min 0xFFFF n := by
        rw [List.length_take, List.length_drop, hn]
      simp only [List.length_cons, List.length_append, toLeBytes, length_littleEndian, hchunk]
      rw [ih _ _ (by omega) rfl]
      all_goals omega
    next hle =>
      rw [List.length_nil]
      omega

theorem readBlocks_block {chunk : List UInt8} (h : chunk.length ≤ 0xFFFF) (fuel : ℕ)
    (final : Bool) (s : List UInt8) :
    readBlocks (fuel + 1) ([if final then 1 else 0] ++
      (toLeBytes (UInt16.ofNat chunk.length) ++
        (toLeBytes (~~~UInt16.ofNat chunk.length) ++ (chunk ++ s)))) =
      if final then some (chunk, s)
      else (readBlocks fuel s).bind fun p ↦ some (chunk ++ p.1, p.2) := by
  obtain ⟨hlen, hnlen⟩ := toNat_not_len h
  have hhead : ofLittleEndian [if final then 1 else 0] = if final then 1 else 0 := by
    cases final <;> rfl
  rw [readBlocks, takeBytes_append List.length_singleton]
  simp only [Option.bind_eq_bind, Option.bind_some]
  rw [takeBytes_append (length_toLeBytes _)]
  simp only [Option.bind_some]
  rw [takeBytes_append (length_toLeBytes _)]
  simp only [Option.bind_some, ofLittleEndian_toLeBytes, hlen, hnlen]
  rw [takeBytes_append rfl]
  simp only [Option.bind_some, hhead]
  cases final with
  | true =>
    simp only [↓reduceIte]
    rw [if_neg (by omega)]
  | false =>
    simp only [Bool.false_eq_true, ↓reduceIte]
    rw [if_neg (by omega), if_neg (by decide)]

theorem readBlocks_storeBlocks {data : List UInt8} {offset fuel : ℕ}
    (hoffset : offset < data.length) (hfuel : data.length - offset ≤ fuel)
    (rest : List UInt8) :
    readBlocks fuel (storeBlocks data offset ++ rest) = some (data.drop offset, rest) := by
  induction fuel generalizing offset with
  | zero => omega
  | succ fuel ih =>
    let chunk := (data.drop offset).take 0xFFFF
    have hchunk : chunk.length = min 0xFFFF (data.length - offset) := by
      rw [List.length_take, List.length_drop]
    have htail : data.drop offset = chunk ++ data.drop (offset + chunk.length) := by
      rw [← List.drop_drop, List.length_take, ← List.drop_eq_drop_min, List.take_append_drop]
    let final := decide (offset + chunk.length = data.length)
    have hblock : storeBlocks data offset ++ rest = [if final then 1 else 0] ++
        (toLeBytes (UInt16.ofNat chunk.length) ++ (toLeBytes (~~~UInt16.ofNat chunk.length) ++
          (chunk ++ (storeBlocks data (offset + chunk.length) ++ rest)))) := by
      rw [storeBlocks, if_pos hoffset]
      simp [chunk, final]
    rw [hblock, readBlocks_block (by omega)]
    by_cases hfinal : offset + chunk.length = data.length
    · rw [if_pos (decide_eq_true hfinal), storeBlocks, if_neg (by omega), htail, hfinal,
        List.drop_length, List.append_nil]
      rfl
    · rw [if_neg (by simpa [final] using hfinal), ih (by omega) (by omega)]
      rw [Option.bind_some, ← htail]

/-- What is stored in blocks comes back, and the checksum behind them holds. -/
theorem readZlib_zlibStore {data : List UInt8} (h : data ≠ []) :
    readZlib (zlibStore data) = some data := by
  have hpos := List.length_pos_iff.mpr h
  have hsum : ofBigEndian (toBeBytes (adler32 data)) = adler data := by
    rw [ofBigEndian_toBeBytes, toNat_adler32]
  have hsize := storeBlocks_length (Nat.zero_le data.length)
  have hhead : [(0x78 : UInt8), 0x01].length = 2 := rfl
  rw [readZlib, zlibStore, List.append_assoc, takeBytes_append hhead]
  simp only [Option.bind_eq_bind, Option.bind_some]
  rw [readBlocks_storeBlocks hpos (by rw [List.length_append]; omega), List.drop_zero]
  simp only [Option.bind_some]
  rw [if_neg (by decide), if_pos ⟨length_toBeBytes _, hsum⟩]

theorem readChunk_writeChunk {kind data : List UInt8} (hkind : kind.length = 4)
    (hdata : data.length < 2 ^ 32) (rest : List UInt8) :
    readChunk (writeChunk kind data ++ rest) = some ((kind, data), rest) := by
  have hsize : ofBigEndian (toBeBytes (UInt32.ofNat data.length)) = data.length := by
    rw [ofBigEndian_toBeBytes, UInt32.toNat_ofNat', Nat.mod_eq_of_lt hdata]
  rw [readChunk, writeChunk]
  simp only [List.append_assoc]
  rw [takeBytes_append (length_toBeBytes _)]
  simp only [Option.bind_eq_bind, Option.bind_some]
  rw [takeBytes_append hkind]
  simp only [Option.bind_some, hsize]
  rw [takeBytes_append rfl]
  simp only [Option.bind_some]
  rw [takeBytes_append (length_toBeBytes _)]
  simp only [Option.bind_some]
  rw [if_pos]
  rw [ofBigEndian_toBeBytes, crcHolds_iff (UInt32.toNat_lt _)]

end Framing

section Image

theorem readHeader_header {width height : ℕ} (hwidth : 0 < width) (hwidth' : width < 2 ^ 32)
    (hheight : 0 < height) (hheight' : height < 2 ^ 32) :
    readHeader (header width height) = some (width, height) := by
  have hw : ofBigEndian (toBeBytes (UInt32.ofNat width)) = width := by
    rw [ofBigEndian_toBeBytes, UInt32.toNat_ofNat', Nat.mod_eq_of_lt hwidth']
  have hh : ofBigEndian (toBeBytes (UInt32.ofNat height)) = height := by
    rw [ofBigEndian_toBeBytes, UInt32.toNat_ofNat', Nat.mod_eq_of_lt hheight']
  rw [readHeader, header, List.append_assoc, takeBytes_append (length_toBeBytes _)]
  simp only [Option.bind_eq_bind, Option.bind_some]
  rw [takeBytes_append (length_toBeBytes _)]
  simp only [Option.bind_some, hw, hh]
  rw [if_pos ⟨trivial, by omega, by omega⟩]

theorem rawData_row {row gray : List UInt8} {width : ℕ} (hwidth : 0 < width)
    (hrow : row.length = width) :
    rawData (row ++ gray) width = [0] ++ (row ++ rawData gray width) := by
  have hne : ¬(width = 0 ∨ row ++ gray = []) := by
    rintro (h | h)
    · omega
    · rw [(List.append_eq_nil_iff.mp h).1, List.length_nil] at hrow
      omega
  rw [rawData, chunks, if_neg hne, List.take_left' hrow, List.drop_left' hrow, List.flatMap_cons]
  rfl

theorem rawData_nil (width : ℕ) : rawData [] width = [] := by
  rw [rawData, chunks, if_pos (.inr rfl)]
  rfl

theorem split_row {width height : ℕ} {gray : List UInt8}
    (h : gray.length = width * (height + 1)) :
    ∃ row more, gray = row ++ more ∧ row.length = width ∧ more.length = width * height := by
  rw [Nat.mul_succ] at h
  refine ⟨gray.take width, gray.drop width, (List.take_append_drop ..).symm, ?_, ?_⟩
  · rw [List.length_take]
    omega
  · rw [List.length_drop]
    omega

theorem rawData_length {width height : ℕ} (hwidth : 0 < width) {gray : List UInt8}
    (h : gray.length = width * height) : (rawData gray width).length = height * (1 + width) := by
  induction height generalizing gray with
  | zero =>
    rw [List.length_eq_zero_iff.mp h, rawData_nil, List.length_nil, Nat.zero_mul]
  | succ height ih =>
    obtain ⟨row, more, rfl, hrow, hmore⟩ := split_row h
    rw [rawData_row hwidth hrow, List.length_append, List.length_append, hrow, ih hmore,
      List.length_singleton, Nat.succ_mul]
    omega

theorem readRows_rawData {width height : ℕ} (hwidth : 0 < width) {gray : List UInt8}
    (h : gray.length = width * height) : readRows width height (rawData gray width) = some gray := by
  induction height generalizing gray with
  | zero =>
    rw [List.length_eq_zero_iff.mp h, rawData_nil]
    rfl
  | succ height ih =>
    obtain ⟨row, more, rfl, hrow, hmore⟩ := split_row h
    rw [rawData_row hwidth hrow, readRows, takeBytes_append List.length_singleton]
    simp only [Option.bind_eq_bind, Option.bind_some]
    rw [takeBytes_append hrow]
    simp only [Option.bind_some]
    rw [ih hmore, Option.bind_some, if_pos trivial]

theorem zlibStore_length (data : List UInt8) :
    (zlibStore data).length = data.length + 5 * ((data.length + 65534) / 65535) + 6 := by
  rw [zlibStore, List.length_append, List.length_append, storeBlocks_length (Nat.zero_le _),
    length_toBeBytes, Nat.sub_zero]
  have hhead : [(0x78 : UInt8), 0x01].length = 2 := rfl
  omega

theorem readImage_chunks {width height : ℕ} {gray : List UInt8} (hwidth : 0 < width)
    (hwidth' : width < 2 ^ 32) (hheight : 0 < height) (hheight' : height < 2 ^ 32)
    (hgray : gray.length = width * height) :
    readImage [(asciiBytes "IHDR", header width height),
      (asciiBytes "IDAT", zlibStore (rawData gray width)), (asciiBytes "IEND", [])] =
      some (width, height, gray) := by
  have hraw : rawData gray width ≠ [] := by
    have hlength := rawData_length hwidth hgray
    have hpos : 0 < height * (1 + width) := Nat.mul_pos hheight (by omega)
    exact List.length_pos_iff.mp (by omega)
  have hdata : (asciiBytes "IDAT" == asciiBytes "IDAT") = true := by decide
  have hend : (asciiBytes "IEND" == asciiBytes "IDAT") = false := by decide
  have htake (data : List UInt8) :
      [(asciiBytes "IDAT", data), (asciiBytes "IEND", [])].takeWhile
        (fun chunk ↦ chunk.1 == asciiBytes "IDAT") = [(asciiBytes "IDAT", data)] := by
    simp only [List.takeWhile_cons, hdata, hend, Bool.false_eq_true, ↓reduceIte]
  have hdrop (data : List UInt8) :
      [(asciiBytes "IDAT", data), (asciiBytes "IEND", [])].dropWhile
        (fun chunk ↦ chunk.1 == asciiBytes "IDAT") = [(asciiBytes "IEND", [])] := by
    simp only [List.dropWhile_cons, hdata, hend, Bool.false_eq_true, ↓reduceIte]
  rw [readImage, readHeader_header hwidth hwidth' hheight hheight']
  simp only [Option.bind_eq_bind, Option.bind_some, htake, hdrop]
  rw [List.flatMap_singleton, readZlib_zlibStore hraw]
  simp only [Option.bind_some]
  rw [readRows_rawData hwidth hgray, Option.bind_some, if_pos ⟨trivial, trivial⟩]

theorem readChunks_writeChunks {chunks : List (List UInt8 × List UInt8)}
    (h : ∀ chunk ∈ chunks, chunk.1.length = 4 ∧ chunk.2.length < 2 ^ 32) {fuel : ℕ}
    (hfuel : chunks.length ≤ fuel) :
    readChunks fuel (chunks.flatMap fun chunk ↦ writeChunk chunk.1 chunk.2) = some chunks := by
  induction chunks generalizing fuel with
  | nil =>
    rw [List.flatMap_nil, readChunks]
  | cons chunk chunks ih =>
    rw [List.forall_mem_cons] at h
    obtain ⟨fuel, rfl⟩ : ∃ k, fuel = k + 1 := ⟨fuel - 1, by rw [List.length_cons] at hfuel; omega⟩
    rw [List.flatMap_cons, readChunks, readChunk_writeChunk h.1.1 h.1.2]
    · simp only [Option.bind_eq_bind, Option.bind_some]
      rw [ih h.2 (Nat.le_of_succ_le_succ hfuel), Option.bind_some]
    · intro hnil
      have hlength := congrArg List.length hnil
      simp [writeChunk] at hlength

/-- The sizes in the header and in the chunks have 32 bits; the last of them is that of the zlib
stream. -/
def SizesFit (width height : ℕ) : Prop :=
  width < 2 ^ 32 ∧ height < 2 ^ 32 ∧
    height * (1 + width) + 5 * ((height * (1 + width) + 65534) / 65535) + 6 < 2 ^ 32

theorem lossless {gray : List UInt8} {width height : ℕ} (hwidth : 1 ≤ width)
    (hheight : 1 ≤ height) (hfit : SizesFit width height)
    (hgray : gray.length = width * height) :
    ∃ png, encodeGrayPng gray width height = some png ∧
      decodeGrayPng png = some (width, height, gray) := by
  obtain ⟨hwidth', hheight', hsize⟩ := hfit
  let file : List (List UInt8 × List UInt8) := [(asciiBytes "IHDR", header width height),
    (asciiBytes "IDAT", zlibStore (rawData gray width)), (asciiBytes "IEND", [])]
  have hfile : ∀ chunk ∈ file, chunk.1.length = 4 ∧ chunk.2.length < 2 ^ 32 := by
    have hdata : (zlibStore (rawData gray width)).length < 2 ^ 32 := by
      rw [zlibStore_length, rawData_length hwidth hgray]
      exact hsize
    have hheader : (header width height).length < 2 ^ 32 := by
      simp [header]
    simp only [file, List.forall_mem_cons, List.not_mem_nil, false_implies, implies_true, and_true]
    exact ⟨⟨by decide, hheader⟩, ⟨by decide, hdata⟩, by decide, by decide⟩
  refine ⟨signature ++ file.flatMap fun chunk ↦ writeChunk chunk.1 chunk.2, ?_, ?_⟩
  · rw [encodeGrayPng, if_pos ⟨hgray, by omega⟩]
    simp [file]
  · have hfuel : file.length ≤ (file.flatMap fun chunk ↦ writeChunk chunk.1 chunk.2).length := by
      simp [file, writeChunk]
      omega
    rw [decodeGrayPng, takeBytes_append (by decide)]
    simp only [Option.bind_eq_bind, Option.bind_some]
    rw [readChunks_writeChunks hfile hfuel, Option.bind_some, if_pos trivial]
    exact readImage_chunks hwidth hwidth' hheight hheight' hgray

def ramp : List UInt8 := (List.range 90000).map UInt8.ofNat

theorem length_ramp : ramp.length = 300 * 300 := by
  rw [ramp, List.length_map, List.length_range]

/-- Data that does not fit one stored block. -/
theorem lossless_ramp :
    65535 < (rawData ramp 300).length ∧
      ∃ png, encodeGrayPng ramp 300 300 = some png ∧
        decodeGrayPng png = some (300, 300, ramp) := by
  refine ⟨?_, lossless (by decide) (by decide) ⟨by decide, by decide, by decide⟩ length_ramp⟩
  rw [rawData_length (by decide) length_ramp]
  decide

end Image

end BootyCall.Oled.PngDecoder
