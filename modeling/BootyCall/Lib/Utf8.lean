import Mathlib.Data.Nat.Notation
import Mathlib.Data.List.Basic

namespace BootyCall.Lib.Utf8

theorem toByteArray_toList (s : String) :
    s.toByteArray.data.toList = s.toList.flatMap String.utf8EncodeChar := by
  rw [← String.utf8Encode_toList, List.utf8Encode]
  simp

theorem fromUTF8_toByteArray (s : String) :
    String.fromUTF8? ⟨s.toByteArray.data.toList.toArray⟩ = some s := by
  rw [Array.toArray_toList, String.fromUTF8?, dif_pos s.isValidUTF8]
  rfl

theorem toNat_scalar (c : Char) : c.toNat < 0xD800 ∨ 0xDFFF < c.toNat ∧ c.toNat < 0x110000 :=
  c.valid

theorem toNat_ofNat {n : ℕ} (h : n < 0xD800 ∨ 0xDFFF < n ∧ n < 0x110000) :
    (Char.ofNat n).toNat = n := by
  have hv : n.isValidChar := h
  rw [Char.ofNat, dif_pos hv]
  rfl

/-- An ASCII byte occurs in the encoding of its own character only. -/
theorem toNat_of_mem_utf8EncodeChar {c : Char} {b : UInt8} (hb : b.toNat < 128)
    (h : b ∈ String.utf8EncodeChar c) : c.toNat = b.toNat := by
  have hc := toNat_scalar c
  have hval : c.val.toNat = c.toNat := rfl
  unfold String.utf8EncodeChar at h
  dsimp only at h
  split at h
  · obtain rfl := List.mem_singleton.mp h
    simp only [UInt8.toNat_ofNat'] at hb ⊢
    omega
  · exfalso
    split at h
    · simp only [List.mem_cons, List.not_mem_nil, or_false] at h
      rcases h with rfl | rfl <;> simp only [UInt8.toNat_ofNat'] at hb <;> omega
    · split at h
      · simp only [List.mem_cons, List.not_mem_nil, or_false] at h
        rcases h with rfl | rfl | rfl <;> simp only [UInt8.toNat_ofNat'] at hb <;> omega
      · simp only [List.mem_cons, List.not_mem_nil, or_false] at h
        rcases h with rfl | rfl | rfl | rfl <;> simp only [UInt8.toNat_ofNat'] at hb <;> omega

theorem utf8EncodeChar_ascii {c : Char} (hc : c.toNat < 128) :
    String.utf8EncodeChar c = [UInt8.ofNat c.toNat] := by
  have hval : c.val.toNat = c.toNat := rfl
  unfold String.utf8EncodeChar
  dsimp only
  rw [if_pos (by omega), hval]

theorem eq_of_ascii_append {c d : Char} {rest tail : List UInt8} (hd : d.toNat < 128)
    (h : String.utf8EncodeChar c ++ rest = UInt8.ofNat d.toNat :: tail) : c = d ∧ rest = tail := by
  have hbyte : (UInt8.ofNat d.toNat).toNat = d.toNat := by
    rw [UInt8.toNat_ofNat']
    omega
  have hhead : UInt8.ofNat d.toNat ∈ String.utf8EncodeChar c := by
    cases hc : String.utf8EncodeChar c with
    | nil =>
      have hsize := String.length_utf8EncodeChar c
      have hpos := Char.utf8Size_pos c
      rw [hc, List.length_nil] at hsize
      omega
    | cons b bs =>
      rw [hc, List.cons_append] at h
      rw [(List.cons.inj h).1]
      exact List.mem_cons_self
  obtain rfl : c = d :=
    Char.toNat_inj.mp ((toNat_of_mem_utf8EncodeChar (by omega) hhead).trans hbyte)
  rw [utf8EncodeChar_ascii hd] at h
  exact ⟨rfl, (List.cons.inj h).2⟩

theorem mem_of_ascii_mem {s : String} {c : Char} (hc : c.toNat < 128)
    (h : UInt8.ofNat c.toNat ∈ s.toByteArray.data.toList) : c ∈ s.toList := by
  rw [toByteArray_toList] at h
  obtain ⟨d, hd, hmem⟩ := List.mem_flatMap.mp h
  have hbyte : (UInt8.ofNat c.toNat).toNat = c.toNat := by
    rw [UInt8.toNat_ofNat']
    omega
  have hdc := toNat_of_mem_utf8EncodeChar (by omega) hmem
  rwa [← Char.toNat_inj.mp (hdc.trans hbyte)]

end BootyCall.Lib.Utf8
