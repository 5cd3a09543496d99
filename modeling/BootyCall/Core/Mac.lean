import BootyCall.Lib.Utf8
import Mathlib.Data.List.DropRight
import Mathlib.Tactic.SplitIfs

namespace BootyCall.Core.Mac

/-- The characters `str::trim` removes, Unicode's `White_Space`. -/
def isWhitespace (c : Char) : Bool :=
  let n := c.toNat
  decide (9 ≤ n ∧ n ≤ 13 ∨ n = 0x20 ∨ n = 0x85 ∨ n = 0xA0 ∨ n = 0x1680 ∨ 0x2000 ≤ n ∧ n ≤ 0x200A ∨
    n = 0x2028 ∨ n = 0x2029 ∨ n = 0x202F ∨ n = 0x205F ∨ n = 0x3000)

def trim (cs : List Char) : List Char := (cs.dropWhile isWhitespace).rdropWhile isWhitespace

def normalizeChar (c : Char) : Char := if c.toLower = '-' then ':' else c.toLower

def normalizeMac (mac : String) : String :=
  String.ofList ((trim mac.toList).map normalizeChar)

def hexDigit (n : ℕ) : Char := if n < 10 then Char.ofNat (48 + n) else Char.ofNat (87 + n)

def hexByte (b : UInt8) : List Char := [hexDigit (b.toNat / 16), hexDigit (b.toNat % 16)]

def formatMac (bytes : Vector UInt8 6) : String :=
  String.ofList ([':'].intercalate (bytes.toList.map hexByte))

def isAsciiHexdigit (b : UInt8) : Bool :=
  decide (48 ≤ b ∧ b ≤ 57 ∨ 65 ≤ b ∧ b ≤ 70 ∨ 97 ≤ b ∧ b ≤ 102)

def isAsciiUppercase (b : UInt8) : Bool := decide (65 ≤ b ∧ b ≤ 90)

/-- Two lower-case hexadecimal digits, then a colon. -/
def validByte (i : ℕ) (b : UInt8) : Bool :=
  if i % 3 = 2 then b == 58 else isAsciiHexdigit b && !isAsciiUppercase b

def isValidMac (mac : String) : Bool :=
  let bytes := mac.toList.flatMap String.utf8EncodeChar
  decide (bytes.length = 17) && bytes.zipIdx.all fun p ↦ validByte p.2 p.1

theorem toLower_toNat (c : Char) :
    c.toLower.toNat = if 65 ≤ c.toNat ∧ c.toNat ≤ 90 then c.toNat + 32 else c.toNat := by
  have hiff : (c.val ≥ 'A'.val ∧ c.val ≤ 'Z'.val) ↔ 65 ≤ c.toNat ∧ c.toNat ≤ 90 := Iff.rfl
  delta Char.toLower
  split
  · next h =>
    rw [if_pos (hiff.mp h)]
    have hlt := (hiff.mp h).2
    change (c.val + ('a'.val - 'A'.val)).toNat = c.val.toNat + 32
    have hlt' : c.val.toNat ≤ 90 := hlt
    rw [UInt32.toNat_add]
    change (c.val.toNat + 32) % 4294967296 = _
    omega
  · next h => rw [if_neg fun h' ↦ h (hiff.mpr h')]

theorem normalizeChar_toNat (c : Char) :
    (normalizeChar c).toNat =
      if 65 ≤ c.toNat ∧ c.toNat ≤ 90 then c.toNat + 32
      else if c.toNat = 45 then 58 else c.toNat := by
  have hlower := toLower_toNat c
  have hdash : c.toLower = '-' ↔ c.toLower.toNat = 45 :=
    ⟨fun h ↦ by rw [h]; rfl, fun h ↦ Char.toNat_inj.mp h⟩
  rw [normalizeChar]
  split
  · next h =>
    have h := hdash.mp h
    have hcolon : ':'.toNat = 58 := rfl
    rw [hcolon]
    split_ifs at hlower ⊢ <;> omega
  · next h =>
    have h := mt hdash.mpr h
    split_ifs at hlower ⊢ <;> omega

theorem normalizeChar_idem (c : Char) : normalizeChar (normalizeChar c) = normalizeChar c := by
  apply Char.toNat_inj.mp
  rw [normalizeChar_toNat, normalizeChar_toNat]
  split_ifs <;> omega

theorem isWhitespace_normalizeChar (c : Char) :
    isWhitespace (normalizeChar c) = isWhitespace c := by
  simp only [isWhitespace, normalizeChar_toNat, decide_eq_decide]
  split_ifs <;> omega

theorem map_trim (f : Char → Char) (hf : ∀ c, isWhitespace (f c) = isWhitespace c)
    (cs : List Char) : (trim cs).map f = trim (cs.map f) := by
  have hcomp : isWhitespace ∘ f = isWhitespace := funext hf
  simp only [trim, List.rdropWhile, List.dropWhile_map, hcomp, ← List.map_reverse]

theorem trim_idem (cs : List Char) : trim (trim cs) = trim cs := by
  have hhead : ((cs.dropWhile isWhitespace).rdropWhile isWhitespace).dropWhile isWhitespace =
      (cs.dropWhile isWhitespace).rdropWhile isWhitespace := by
    cases hd : cs.dropWhile isWhitespace with
    | nil => rfl
    | cons c d =>
      have hc : isWhitespace c = false := by
        have := List.head_dropWhile_not isWhitespace (by rw [hd]; exact List.cons_ne_nil c d)
        simpa only [hd, List.head_cons] using this
      obtain ⟨t, ht⟩ := List.rdropWhile_prefix isWhitespace (l := c :: d)
      cases hr : (c :: d).rdropWhile isWhitespace with
      | nil => rfl
      | cons x r =>
        rw [hr, List.cons_append] at ht
        obtain ⟨rfl, -⟩ := List.cons.inj ht
        rw [List.dropWhile_cons, hc, if_neg Bool.false_ne_true]
  rw [trim, trim, hhead, List.rdropWhile_idempotent]

theorem normalizeMac_idem (mac : String) : normalizeMac (normalizeMac mac) = normalizeMac mac := by
  have hmap (cs : List Char) : (cs.map normalizeChar).map normalizeChar = cs.map normalizeChar := by
    rw [List.map_map]
    exact List.map_congr_left fun c _ ↦ normalizeChar_idem c
  rw [normalizeMac, normalizeMac, String.toList_ofList, ← map_trim _ isWhitespace_normalizeChar,
    trim_idem, hmap]

def allowed (p : Char × ℕ) : Bool :=
  if p.2 % 3 = 2 then p.1 == ':' else p.1.isDigit || decide ('a' ≤ p.1 ∧ p.1 ≤ 'f')

theorem validByte_ascii (i : ℕ) {c : Char} (hc : c.toNat < 128) :
    validByte i (UInt8.ofNat c.toNat) = allowed (c, i) := by
  have hbyte : (UInt8.ofNat c.toNat).toNat = c.toNat := by
    rw [UInt8.toNat_ofNat']
    omega
  rw [validByte, allowed]
  split
  · rw [Bool.eq_iff_iff, beq_iff_eq, beq_iff_eq, ← UInt8.toNat_inj, hbyte, ← Char.toNat_inj]
    rfl
  · have hdigit : c.isDigit = true ↔ 48 ≤ c.toNat ∧ c.toNat ≤ 57 := Char.isDigit_iff_toNat
    have hlow : 'a' ≤ c ∧ c ≤ 'f' ↔ 97 ≤ c.toNat ∧ c.toNat ≤ 102 := Iff.rfl
    rw [Bool.eq_iff_iff, Bool.or_eq_true, hdigit, decide_eq_true_iff, hlow]
    simp only [isAsciiHexdigit, isAsciiUppercase, UInt8.le_iff_toNat_le, hbyte, Bool.and_eq_true,
      Bool.not_eq_true', decide_eq_true_iff, decide_eq_false_iff_not, UInt8.toNat_ofNat]
    omega

theorem lt_of_validByte {i : ℕ} {b : UInt8} (h : validByte i b = true) : b.toNat < 128 := by
  rw [validByte] at h
  split at h
  · rw [beq_iff_eq.mp h]
    decide
  · have hhex := of_decide_eq_true (Bool.and_eq_true_iff.mp h).1
    simp only [UInt8.le_iff_toNat_le, UInt8.toNat_ofNat] at hhex
    omega

theorem lt_of_allowed {i : ℕ} {c : Char} (h : allowed (c, i) = true) : c.toNat < 128 := by
  rw [allowed] at h
  split at h
  · rw [show c = ':' from beq_iff_eq.mp h]
    decide
  · rcases Bool.or_eq_true_iff.mp h with hdigit | hlow
    · have hbounds : 48 ≤ c.toNat ∧ c.toNat ≤ 57 := Char.isDigit_iff_toNat.mp hdigit
      omega
    · have hhigh : c.toNat ≤ 102 := (of_decide_eq_true hlow).2
      omega

/-- The check of the bytes is one of the characters: all that it lets through is ASCII. -/
theorem isValidMac_eq (mac : String) : isValidMac mac =
    (decide (mac.toList.length = 17) && mac.toList.zipIdx.all allowed) := by
  by_cases hascii : ∀ c ∈ mac.toList, c.toNat < 128
  · have hbytes : mac.toList.flatMap String.utf8EncodeChar =
        mac.toList.map fun c ↦ UInt8.ofNat c.toNat := by
      rw [List.map_eq_flatMap]
      exact List.flatMap_congr fun c hc ↦ Lib.Utf8.utf8EncodeChar_ascii (hascii c hc)
    rw [isValidMac, hbytes, List.length_map, List.zipIdx_map, List.all_map]
    congr 1
    rw [Bool.eq_iff_iff, List.all_eq_true, List.all_eq_true]
    refine forall₂_congr fun p hp ↦ ?_
    have hmem := List.mem_of_getElem? (List.mk_mem_zipIdx_iff_getElem?.mp hp)
    rw [← validByte_ascii p.2 (hascii p.1 hmem)]
    rfl
  · -- a character outside ASCII fails both checks
    obtain ⟨c, hc, hhigh⟩ := not_forall₂.mp hascii
    have hbytes : isValidMac mac = false := by
      rw [← Bool.not_eq_true]
      intro h
      obtain ⟨b, hb⟩ := List.exists_mem_of_length_pos (by
        rw [String.length_utf8EncodeChar]
        exact Char.utf8Size_pos c : 0 < (String.utf8EncodeChar c).length)
      obtain ⟨i, hi⟩ := List.mem_iff_getElem?.mp (List.mem_flatMap.mpr ⟨c, hc, hb⟩)
      have hvalid := List.all_eq_true.mp (Bool.and_eq_true_iff.mp h).2 (b, i)
        (List.mk_mem_zipIdx_iff_getElem?.mpr hi)
      have hlow := lt_of_validByte hvalid
      have hnat := Lib.Utf8.toNat_of_mem_utf8EncodeChar hlow hb
      omega
    have hchars : (mac.toList.zipIdx.all allowed) = false := by
      rw [← Bool.not_eq_true]
      intro h
      obtain ⟨i, hi⟩ := List.mem_iff_getElem?.mp hc
      have hvalid := List.all_eq_true.mp h (c, i) (List.mk_mem_zipIdx_iff_getElem?.mpr hi)
      exact hhigh (lt_of_allowed hvalid)
    rw [hbytes, hchars, Bool.and_false]

theorem char_of_isValidMac {mac : String} (h : isValidMac mac = true) {c : Char}
    (hc : c ∈ mac.toList) : c = ':' ∨ c.isDigit = true ∨ 'a' ≤ c ∧ c ≤ 'f' := by
  obtain ⟨i, hi⟩ := List.mem_iff_getElem?.mp hc
  rw [isValidMac_eq] at h
  have hall := (Bool.and_eq_true_iff.mp h).2
  have hp := List.all_eq_true.mp hall (c, i) (List.mk_mem_zipIdx_iff_getElem?.mpr hi)
  rw [allowed] at hp
  split at hp
  · exact .inl (by simpa using hp)
  · exact .inr (by simpa using hp)

theorem toNat_of_isValidMac {mac : String} (h : isValidMac mac = true) {c : Char}
    (hc : c ∈ mac.toList) : 48 ≤ c.toNat ∧ c.toNat ≤ 58 ∨ 97 ≤ c.toNat ∧ c.toNat ≤ 102 := by
  rcases char_of_isValidMac h hc with rfl | hdigit | ⟨hlow, hhigh⟩
  · exact .inl (by decide)
  · have hbounds := Char.isDigit_iff_toNat.mp hdigit
    change 48 ≤ c.toNat ∧ c.toNat ≤ 57 at hbounds
    omega
  · have hlow' : 97 ≤ c.toNat := hlow
    have hhigh' : c.toNat ≤ 102 := hhigh
    exact .inr ⟨hlow', hhigh'⟩

theorem trim_of_not_whitespace {cs : List Char} (h : ∀ c ∈ cs, isWhitespace c = false) :
    trim cs = cs := by
  have hdrop : cs.dropWhile isWhitespace = cs := by
    cases cs with
    | nil => rfl
    | cons c cs => rw [List.dropWhile_cons_of_neg (by simp [h c])]
  rw [trim, hdrop, List.rdropWhile_eq_self_iff]
  intro hne
  simp [h _ (List.getLast_mem hne)]

theorem normalizeMac_of_isValidMac {mac : String} (h : isValidMac mac = true) :
    normalizeMac mac = mac := by
  have htrim : trim mac.toList = mac.toList := trim_of_not_whitespace fun c hc ↦ by
    have hbounds := toNat_of_isValidMac h hc
    simp only [isWhitespace, decide_eq_false_iff_not]
    omega
  have hmap : mac.toList.map normalizeChar = mac.toList := by
    rw [List.map_congr_left (g := id), List.map_id]
    intro c hc
    have hbounds := toNat_of_isValidMac h hc
    apply Char.toNat_inj.mp
    rw [normalizeChar_toNat]
    split_ifs <;> first | rfl | omega
  rw [normalizeMac, htrim, hmap, String.ofList_toList]

theorem formatMac_bytes (a b c d e f : UInt8) :
    (formatMac #v[a, b, c, d, e, f]).toList =
      hexByte a ++ ':' :: (hexByte b ++ ':' :: (hexByte c ++ ':' :: (hexByte d ++ ':' ::
        (hexByte e ++ ':' :: hexByte f)))) := by
  rw [formatMac, String.toList_ofList]
  rfl

theorem hexDigit_valid {n : ℕ} (h : n < 16) :
    ((hexDigit n).isDigit || decide ('a' ≤ hexDigit n ∧ hexDigit n ≤ 'f')) = true := by
  revert n
  decide

theorem exists_bytes (bytes : Vector UInt8 6) :
    ∃ a b c d e f, bytes = #v[a, b, c, d, e, f] := by
  refine ⟨bytes[0], bytes[1], bytes[2], bytes[3], bytes[4], bytes[5], ?_⟩
  ext i hi
  match i with
  | 0 | 1 | 2 | 3 | 4 | 5 => rfl

theorem isValidMac_formatMac (bytes : Vector UInt8 6) : isValidMac (formatMac bytes) = true := by
  obtain ⟨a, b, c, d, e, f, rfl⟩ := exists_bytes bytes
  have hhigh (x : UInt8) := hexDigit_valid (n := x.toNat / 16) (by have := x.toNat_lt; omega)
  have hlow (x : UInt8) := hexDigit_valid (n := x.toNat % 16) (by omega)
  have hlen : (formatMac #v[a, b, c, d, e, f]).toList.length = 17 := by
    rw [formatMac_bytes]
    rfl
  rw [isValidMac_eq, hlen, formatMac_bytes]
  simp only [hexByte, allowed, List.cons_append, List.nil_append, List.zipIdx_cons, List.zipIdx_nil,
    List.all_cons, List.all_nil, hhigh, hlow]
  rfl

theorem hexDigit_injective {m n : ℕ} (hm : m < 16) (hn : n < 16) (h : hexDigit m = hexDigit n) :
    m = n := by
  have hdigit : ∀ m < 16, ∀ n < 16, hexDigit m = hexDigit n → m = n := by decide
  exact hdigit m hm n hn h

theorem hexByte_injective {x y : UInt8} (h : hexByte x = hexByte y) : x = y := by
  have hx := x.toNat_lt
  have hy := y.toNat_lt
  obtain ⟨hhigh, hlow⟩ := List.cons.inj h
  have h₁ := hexDigit_injective (by omega) (by omega) hhigh
  have h₂ := hexDigit_injective (by omega) (by omega) (List.cons.inj hlow).1
  apply UInt8.toNat_inj.mp
  omega

theorem formatMac_injective : Function.Injective formatMac := by
  intro v w h
  obtain ⟨a, b, c, d, e, f, rfl⟩ := exists_bytes v
  obtain ⟨a', b', c', d', e', f', rfl⟩ := exists_bytes w
  have htext := congrArg String.toList h
  rw [formatMac_bytes, formatMac_bytes] at htext
  have hcons {x y : UInt8} {l l' : List Char} (h : hexByte x ++ l = hexByte y ++ l') :
      x = y ∧ l = l' := by
    obtain ⟨hbyte, hl⟩ := List.append_inj h rfl
    exact ⟨hexByte_injective hbyte, hl⟩
  obtain ⟨rfl, h₁⟩ := hcons htext
  obtain ⟨rfl, h₂⟩ := hcons (List.cons.inj h₁).2
  obtain ⟨rfl, h₃⟩ := hcons (List.cons.inj h₂).2
  obtain ⟨rfl, h₄⟩ := hcons (List.cons.inj h₃).2
  obtain ⟨rfl, h₅⟩ := hcons (List.cons.inj h₄).2
  rw [hexByte_injective (List.cons.inj h₅).2]

end BootyCall.Core.Mac
