import BootyCall.Core.Mac
import Mathlib.Data.List.Forall2

namespace BootyCall.Core.Spelling

open Mac

/-- How a character of a canonical MAC may be written: a separator as a colon or a hyphen, a digit
in either case. -/
def Written (d c : Char) : Prop := if d = ':' then c = ':' ∨ c = '-' else c = d ∨ c = d.toUpper

instance (d c : Char) : Decidable (Written d c) := inferInstanceAs (Decidable (ite _ _ _))

/-- Any way to write six bytes, with white space around it. -/
def Spells (bytes : Vector UInt8 6) (s : String) : Prop :=
  ∃ before text after, s.toList = before ++ text ++ after ∧
    (∀ c ∈ before ++ after, isWhitespace c = true) ∧
    List.Forall₂ Written (formatMac bytes).toList text

variable {bytes : Vector UInt8 6} {s : String} {c d : Char}

theorem toNat_toUpper (c : Char) :
    c.toUpper.toNat = if 97 ≤ c.toNat ∧ c.toNat ≤ 122 then c.toNat - 32 else c.toNat := by
  have hiff : (c.val ≥ 'a'.val ∧ c.val ≤ 'z'.val) ↔ 97 ≤ c.toNat ∧ c.toNat ≤ 122 := Iff.rfl
  delta Char.toUpper
  split
  · next h =>
    obtain ⟨hlow, hhigh⟩ := hiff.mp h
    rw [if_pos ⟨hlow, hhigh⟩]
    change (c.val + ('A'.val - 'a'.val)).toNat = c.val.toNat - 32
    have hlow' : 97 ≤ c.val.toNat := hlow
    have hhigh' : c.val.toNat ≤ 122 := hhigh
    rw [UInt32.toNat_add]
    change (c.val.toNat + 4294967264) % 4294967296 = _
    omega
  · next h => rw [if_neg fun h' ↦ h (hiff.mpr h')]

def Digit (c : Char) : Prop := 48 ≤ c.toNat ∧ c.toNat ≤ 58 ∨ 97 ≤ c.toNat ∧ c.toNat ≤ 102

theorem normalizeChar_iff (hd : Digit d) : normalizeChar c = d ↔ Written d c := by
  have hcolon : d = ':' ↔ d.toNat = 58 := Char.toNat_inj.symm
  have hcolon' : c = ':' ↔ c.toNat = 58 := Char.toNat_inj.symm
  have hdash : c = '-' ↔ c.toNat = 45 := Char.toNat_inj.symm
  have hsame : c = d ↔ c.toNat = d.toNat := Char.toNat_inj.symm
  have hupper : c = d.toUpper ↔ c.toNat = d.toUpper.toNat := Char.toNat_inj.symm
  rw [Digit] at hd
  simp only [Written, ← Char.toNat_inj, normalizeChar_toNat, hcolon, hcolon', hdash, hsame, hupper,
    toNat_toUpper]
  split_ifs <;> omega

theorem map_normalizeChar_iff {ds cs : List Char} (hds : ∀ d ∈ ds, Digit d) :
    cs.map normalizeChar = ds ↔ List.Forall₂ Written ds cs := by
  induction ds generalizing cs with
  | nil =>
    rw [List.map_eq_nil_iff, List.forall₂_nil_left_iff]
  | cons d ds ih =>
    obtain ⟨hd, hds⟩ := List.forall_mem_cons.mp hds
    cases cs with
    | nil => simp
    | cons c cs => rw [List.map_cons, List.cons.injEq, normalizeChar_iff hd, ih hds,
        List.forall₂_cons]

theorem digit_of_formatMac (h : d ∈ (formatMac bytes).toList) : Digit d :=
  toNat_of_isValidMac (isValidMac_formatMac bytes) h

theorem dropWhile_between {p : Char → Bool} {before text rest : List Char}
    (hbefore : ∀ c ∈ before, p c = true) (htext : ∀ c ∈ text, p c = false) (hne : text ≠ []) :
    (before ++ (text ++ rest)).dropWhile p = text ++ rest := by
  rw [List.dropWhile_append_of_pos hbefore]
  obtain ⟨c, text, rfl⟩ := List.exists_cons_of_ne_nil hne
  exact List.dropWhile_cons_of_neg (by simp [htext c List.mem_cons_self])

theorem trim_eq {before text after : List Char}
    (hspace : ∀ c ∈ before ++ after, isWhitespace c = true)
    (htext : ∀ c ∈ text, isWhitespace c = false) (hne : text ≠ []) :
    trim (before ++ text ++ after) = text := by
  obtain ⟨hbefore, hafter⟩ := List.forall_mem_append.mp hspace
  have hback : (text ++ after).rdropWhile isWhitespace = text := by
    have hdrop := @dropWhile_between isWhitespace after.reverse text.reverse []
      (fun c hc ↦ hafter c (List.mem_reverse.mp hc))
      (fun c hc ↦ htext c (List.mem_reverse.mp hc)) (by simpa using hne)
    rw [List.append_nil] at hdrop
    rw [List.rdropWhile, List.reverse_append, hdrop, List.reverse_reverse]
  rw [trim, List.append_assoc, dropWhile_between hbefore htext hne, hback]

theorem trim_split (cs : List Char) :
    ∃ before after, cs = before ++ trim cs ++ after ∧
      ∀ c ∈ before ++ after, isWhitespace c = true := by
  refine ⟨cs.takeWhile isWhitespace, (cs.dropWhile isWhitespace).rtakeWhile isWhitespace, ?_, ?_⟩
  · rw [trim, List.append_assoc, List.rdropWhile_append_rtakeWhile, List.takeWhile_append_dropWhile]
  · intro c hc
    rcases List.mem_append.mp hc with hc | hc
    · exact List.mem_takeWhile_imp hc
    · exact List.mem_rtakeWhile_imp hc

/-- Exactly the spellings of six bytes are normalised to their canonical form. -/
theorem normalizeMac_iff : normalizeMac s = formatMac bytes ↔ Spells bytes s := by
  have hdigits : ∀ d ∈ (formatMac bytes).toList, Digit d := fun d hd ↦ digit_of_formatMac hd
  have hmap (cs : List Char) := @map_normalizeChar_iff _ cs hdigits
  rw [← String.toList_inj, normalizeMac, String.toList_ofList, hmap]
  constructor
  · intro h
    obtain ⟨before, after, hsplit, hspace⟩ := trim_split s.toList
    exact ⟨before, trim s.toList, after, hsplit, hspace, h⟩
  · rintro ⟨before, text, after, hsplit, hspace, h⟩
    have htext : ∀ c ∈ text, isWhitespace c = false := by
      intro c hc
      have hmem : normalizeChar c ∈ (formatMac bytes).toList := by
        rw [← (hmap _).mpr h]
        exact List.mem_map_of_mem hc
      have hdigit := digit_of_formatMac hmem
      rw [← isWhitespace_normalizeChar, isWhitespace, decide_eq_false_iff_not]
      rw [Digit] at hdigit
      omega
    have hne : text ≠ [] := by
      rintro rfl
      obtain ⟨a, b, c, d, e, f, rfl⟩ := exists_bytes bytes
      rw [formatMac_bytes] at h
      cases h
    rw [hsplit, trim_eq hspace htext hne]
    exact h

theorem exists_hexDigit (h : c.isDigit = true ∨ 'a' ≤ c ∧ c ≤ 'f') :
    ∃ n < 16, c = hexDigit n := by
  rcases h with hdigit | ⟨hlow, hhigh⟩
  · have hbounds := Char.isDigit_iff_toNat.mp hdigit
    change 48 ≤ c.toNat ∧ c.toNat ≤ 57 at hbounds
    refine ⟨c.toNat - 48, by omega, ?_⟩
    rw [hexDigit, if_pos (by omega), show 48 + (c.toNat - 48) = c.toNat by omega,
      Char.ofNat_toNat]
  · have hlow' : 97 ≤ c.toNat := hlow
    have hhigh' : c.toNat ≤ 102 := hhigh
    refine ⟨c.toNat - 87, by omega, ?_⟩
    rw [hexDigit, if_neg (by omega), show 87 + (c.toNat - 87) = c.toNat by omega,
      Char.ofNat_toNat]

theorem exists_hexByte (hc : c.isDigit = true ∨ 'a' ≤ c ∧ c ≤ 'f')
    (hd : d.isDigit = true ∨ 'a' ≤ d ∧ d ≤ 'f') : ∃ b, [c, d] = hexByte b := by
  obtain ⟨m, hm, rfl⟩ := exists_hexDigit hc
  obtain ⟨n, hn, rfl⟩ := exists_hexDigit hd
  have hvalue : (UInt8.ofNat (16 * m + n)).toNat = 16 * m + n := by
    rw [UInt8.toNat_ofNat']
    omega
  refine ⟨UInt8.ofNat (16 * m + n), ?_⟩
  rw [hexByte, hvalue, show (16 * m + n) / 16 = m by omega, show (16 * m + n) % 16 = n by omega]

theorem hex_of_allowed {k : ℕ} (hk : k % 3 ≠ 2) (h : allowed (c, k) = true) :
    c.isDigit = true ∨ 'a' ≤ c ∧ c ≤ 'f' := by
  simp only [allowed, if_neg hk] at h
  simpa using h

theorem pair_of_allowed {cs : List Char} {k : ℕ} (hk : k % 3 = 0)
    (h : (cs.zipIdx k).all allowed = true) (hlen : 2 ≤ cs.length) :
    ∃ b rest, cs = hexByte b ++ rest ∧ (rest.zipIdx (k + 2)).all allowed = true := by
  obtain ⟨c, cs, rfl⟩ := List.exists_cons_of_length_pos (by omega : 0 < cs.length)
  obtain ⟨d, rest, rfl⟩ := List.exists_cons_of_length_pos
    (by rw [List.length_cons] at hlen; omega : 0 < cs.length)
  simp only [List.zipIdx_cons, List.all_cons, Bool.and_eq_true] at h
  obtain ⟨hc, hd, hrest⟩ := h
  obtain ⟨b, hb⟩ := exists_hexByte (hex_of_allowed (by omega) hc) (hex_of_allowed (by omega) hd)
  exact ⟨b, rest, by rw [← hb]; rfl, hrest⟩

theorem colon_of_allowed {cs : List Char} {k : ℕ} (hk : k % 3 = 2)
    (h : (cs.zipIdx k).all allowed = true) (hlen : 0 < cs.length) :
    ∃ rest, cs = ':' :: rest ∧ (rest.zipIdx (k + 1)).all allowed = true := by
  obtain ⟨c, rest, rfl⟩ := List.exists_cons_of_length_pos hlen
  simp only [List.zipIdx_cons, List.all_cons, Bool.and_eq_true] at h
  obtain ⟨hc, hrest⟩ := h
  simp only [allowed, if_pos hk, beq_iff_eq] at hc
  exact ⟨rest, by rw [hc], hrest⟩

theorem group_of_allowed {cs : List Char} {k : ℕ} (hk : k % 3 = 0)
    (h : (cs.zipIdx k).all allowed = true) (hlen : 3 ≤ cs.length) :
    ∃ b rest, cs = hexByte b ++ ':' :: rest ∧ rest.length + 3 = cs.length ∧
      (rest.zipIdx (k + 3)).all allowed = true := by
  obtain ⟨b, cs, rfl, hcs⟩ := pair_of_allowed hk h (by omega)
  have hlen' : (hexByte b ++ cs).length = cs.length + 2 := by
    rw [List.length_append, Nat.add_comm]
    rfl
  obtain ⟨rest, rfl, hrest⟩ := colon_of_allowed (by omega) hcs (by omega)
  refine ⟨b, rest, rfl, ?_, hrest⟩
  rw [hlen', List.length_cons]

/-- The validator accepts the canonical forms and nothing else. -/
theorem isValidMac_iff : isValidMac s = true ↔ ∃ bytes, s = formatMac bytes := by
  constructor
  · intro h
    rw [isValidMac_eq] at h
    obtain ⟨hlen, hall⟩ := Bool.and_eq_true_iff.mp h
    have hlen : s.toList.length = 17 := of_decide_eq_true hlen
    obtain ⟨a, as, ha, hlena, hall⟩ := group_of_allowed (k := 0) rfl hall (by omega)
    obtain ⟨b, bs, rfl, hlenb, hall⟩ := group_of_allowed rfl hall (by omega)
    obtain ⟨c, cs, rfl, hlenc, hall⟩ := group_of_allowed rfl hall (by omega)
    obtain ⟨d, ds, rfl, hlend, hall⟩ := group_of_allowed rfl hall (by omega)
    obtain ⟨e, es, rfl, hlene, hall⟩ := group_of_allowed rfl hall (by omega)
    obtain ⟨f, rest, rfl, -⟩ := pair_of_allowed rfl hall (by omega)
    have hrest : rest = [] := by
      apply List.eq_nil_of_length_eq_zero
      have hpair : (hexByte f ++ rest).length = rest.length + 2 := by
        rw [List.length_append, Nat.add_comm]
        rfl
      omega
    subst hrest
    refine ⟨#v[a, b, c, d, e, f], ?_⟩
    rw [← String.toList_inj, formatMac_bytes, ha, List.append_nil]
  · rintro ⟨bytes, rfl⟩
    exact isValidMac_formatMac bytes

end BootyCall.Core.Spelling
