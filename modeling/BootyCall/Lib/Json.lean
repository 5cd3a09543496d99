import BootyCall.Lib.Codec
import Mathlib.Data.Fin.Basic

namespace BootyCall.Lib.Json

open Codec

def ascii (s : String) : List UInt8 := s.toList.map fun c ↦ UInt8.ofNat c.toNat

def hexDigit (n : ℕ) : UInt8 := UInt8.ofNat (if n < 10 then 48 + n else 87 + n)

def hexValue (b : UInt8) : Option ℕ :=
  if 48 ≤ b.toNat ∧ b.toNat ≤ 57 then some (b.toNat - 48)
  else if 97 ≤ b.toNat ∧ b.toNat ≤ 102 then some (b.toNat - 87)
  else none

/-- The control characters with an escape of one letter, and the two that a string must not
contain as they are. -/
def shortEscapes : List (UInt8 × UInt8) :=
  [(34, 34), (92, 92), (8, 98), (9, 116), (10, 110), (12, 102), (13, 114)]

def escape (b : UInt8) : List UInt8 :=
  match shortEscapes.lookup b with
  | some letter => [92, letter]
  | none =>
    if b.toNat < 32 then ascii "\\u00" ++ [hexDigit (b.toNat / 16), hexDigit (b.toNat % 16)]
    else [b]

/-- The four digits of a `\u` escape; only the characters below 256 are written that way. -/
def unescapeHex : List UInt8 → Option (UInt8 × List UInt8)
  | zero :: zero' :: high :: low :: rest =>
    if zero = 48 ∧ zero' = 48 then do
      let high ← hexValue high
      let low ← hexValue low
      return (UInt8.ofNat (high * 16 + low), rest)
    else none
  | _ => none

def unescapeLetter (letter : UInt8) (rest : List UInt8) : Option (UInt8 × List UInt8) :=
  match shortEscapes.find? fun p ↦ p.2 == letter with
  | some p => some (p.1, rest)
  | none => if letter = 117 then unescapeHex rest else none

def unescape : List UInt8 → Option (UInt8 × List UInt8)
  | [] => none
  | c :: rest =>
    if c = 92 then
      match rest with
      | [] => none
      | letter :: rest => unescapeLetter letter rest
    else if c.toNat < 32 ∨ c = 34 then none
    else some (c, rest)

variable {s rest : List UInt8} {b : UInt8}

theorem unescapeHex_append (t : List UInt8) (h : unescapeHex s = some (b, rest)) :
    unescapeHex (s ++ t) = some (b, rest ++ t) := by
  unfold unescapeHex at h
  split at h
  · simp only [List.cons_append, unescapeHex]
    split at h
    · next hzero =>
      rw [if_pos hzero]
      obtain ⟨high, hhigh, h⟩ := Option.bind_eq_some_iff.mp h
      obtain ⟨low, hlow, h⟩ := Option.bind_eq_some_iff.mp h
      cases h
      simp [hhigh, hlow]
    · cases h
  · cases h

theorem unescapeLetter_append {letter : UInt8} (t : List UInt8)
    (h : unescapeLetter letter s = some (b, rest)) :
    unescapeLetter letter (s ++ t) = some (b, rest ++ t) := by
  unfold unescapeLetter at h ⊢
  split at h
  · cases h
    rfl
  · split at h
    · next hu =>
      rw [if_pos hu]
      exact unescapeHex_append t h
    · cases h

theorem unescape_append (t : List UInt8) (h : unescape s = some (b, rest)) :
    unescape (s ++ t) = some (b, rest ++ t) := by
  unfold unescape at h
  split at h
  · cases h
  · next c s' =>
    rw [List.cons_append, unescape.eq_def]
    dsimp only
    split at h
    · next hc =>
      rw [if_pos hc]
      split at h
      · cases h
      · exact unescapeLetter_append t h
    · next hc =>
      rw [if_neg hc]
      split at h
      · cases h
      · next hplain =>
        cases h
        rw [if_neg hplain]

theorem unescape_escape (b : UInt8) (rest : List UInt8) :
    unescape (escape b ++ rest) = some (b, rest) := by
  have hall : ∀ n : Fin 256, unescape (escape (UInt8.ofFin n)) = some (UInt8.ofFin n, []) := by
    decide +kernel
  simpa using unescape_append rest (hall b.toFin)

theorem escape_head (b : UInt8) : ∃ c w, escape b = c :: w ∧ c ≠ 34 := by
  have hall : ∀ n : Fin 256, (escape (UInt8.ofFin n)).head?.any (· != 34) = true := by
    decide +kernel
  have h := hall b.toFin
  rw [UInt8.ofFin_toFin] at h
  cases hb : escape b with
  | nil => simp [hb] at h
  | cons c w => exact ⟨c, w, rfl, by simpa [hb] using h⟩

def byte : Format UInt8 UInt8 where
  print := escape
  parse := unescape
  parse_print := unescape_escape
  parse_append _ _ _ t h := unescape_append t h

def utf8 (s : String) : List UInt8 := s.toByteArray.data.toList

def ofUtf8 (bytes : List UInt8) : Option String := String.fromUTF8? ⟨bytes.toArray⟩

theorem ofUtf8_utf8 (s : String) : ofUtf8 (utf8 s) = some s := by
  rw [ofUtf8, utf8, Array.toArray_toList, String.fromUTF8?, dif_pos s.isValidUTF8]
  rfl

def text : Format UInt8 String :=
  ((byte.manyUntil 34 escape_head).after [34]).refine utf8 ofUtf8 ofUtf8_utf8

theorem text_head (s : String) : (text.print s).head? = some 34 := rfl

def nullableText : Format UInt8 (Option String) :=
  text.optional 34 110 (ascii "ull") text_head (by decide)

def digit : Format UInt8 (Fin 10) where
  print d := [UInt8.ofNat (48 + d.val)]
  parse
    | [] => none
    | c :: rest =>
      if h : 48 ≤ c.toNat ∧ c.toNat < 58 then some (⟨c.toNat - 48, by omega⟩, rest) else none
  parse_print d rest := by
    have hd : (UInt8.ofNat (48 + d.val)).toNat = 48 + d.val := by
      rw [UInt8.toNat_ofNat']
      omega
    dsimp only [List.cons_append]
    rw [dif_pos (by omega)]
    simp only [hd, Nat.add_sub_cancel_left, List.nil_append]
  parse_append s d rest t h := by
    cases s with
    | nil => cases h
    | cons c s =>
      dsimp only [List.cons_append] at h ⊢
      split at h
      · next hc =>
        cases h
        rw [dif_pos hc]
      · cases h

def digits (n : ℕ) : List (Fin 10) := (Nat.toDigits 10 n).map fun c ↦ Fin.ofNat 10 (c.toNat - 48)

def ofDigits (ds : List (Fin 10)) : ℕ := ds.foldl (fun n d ↦ 10 * n + d.val) 0

theorem ofDigits_digits (n : ℕ) : ofDigits (digits n) = n := by
  have hdigit : ∀ c ∈ Nat.toDigits 10 n,
      (Fin.ofNat 10 (c.toNat - 48)).val = c.toNat - '0'.toNat := by
    intro c hc
    have h := Char.isDigit_iff_toNat.mp (Nat.isDigit_of_mem_toDigits (by decide) (by decide) hc)
    have hle : c.toNat ≤ 57 := h.2
    exact Nat.mod_eq_of_lt (by omega)
  have hfold (cs : List Char) (hcs : ∀ c ∈ cs, c ∈ Nat.toDigits 10 n) (init : ℕ) :
      (cs.map fun c ↦ Fin.ofNat 10 (c.toNat - 48)).foldl (fun n d ↦ 10 * n + d.val) init =
        Nat.ofDigitChars 10 cs init := by
    induction cs generalizing init with
    | nil => rfl
    | cons c cs ih =>
      rw [List.map_cons, List.foldl_cons, hdigit c (hcs c List.mem_cons_self),
        ih fun c hc ↦ hcs c (List.mem_cons_of_mem _ hc)]
      rfl
  rw [ofDigits, digits, hfold _ (fun _ hc ↦ hc), Nat.ofDigitChars_ten_toDigits]

theorem digit_head (stop : UInt8) (hstop : stop.toNat < 48) (d : Fin 10) :
    ∃ c w, digit.print d = c :: w ∧ c ≠ stop := by
  refine ⟨_, [], rfl, ?_⟩
  intro h
  have hd := congrArg UInt8.toNat h
  rw [UInt8.toNat_ofNat'] at hd
  omega

def number (stop : UInt8) (hstop : stop.toNat < 48) : Format UInt8 ℕ :=
  (digit.manyUntil stop (digit_head stop hstop)).refine digits (some ∘ ofDigits)
    fun n ↦ congrArg some (ofDigits_digits n)

end BootyCall.Lib.Json
