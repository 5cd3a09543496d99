import BootyCall.Core.Path
import BootyCall.Lib.Utf8

namespace BootyCall.Core.Lossy

open BootyCall.Core.Path Lib.Utf8

def fromUtf8LossyString (bs : List UInt8) : String := String.ofList (fromUtf8Lossy bs.length bs)

variable {c : Char} {b : UInt8} {w : List UInt8}

/-- A character that was encoded is decoded as it was, whatever follows. -/
theorem decodeLossy_utf8EncodeChar (h : String.utf8EncodeChar c = b :: w) (rest : List UInt8) :
    decodeLossy b.toNat ((w ++ rest).map UInt8.toNat) = (c, w.length + 1) := by
  have hc := toNat_scalar c
  have hval : c.val.toNat = c.toNat := rfl
  have hchar {n : ℕ} (hn : n = c.toNat) : Char.ofNat n = c := by rw [hn, Char.ofNat_toNat]
  unfold String.utf8EncodeChar at h
  dsimp only at h
  rw [hval] at h
  split at h
  · obtain ⟨rfl, rfl⟩ := List.cons.inj h
    simp only [decodeLossy, UInt8.toNat_ofNat', List.length_nil]
    rw [if_pos (by omega), hchar (by omega)]
  · split at h
    · obtain ⟨rfl, rfl⟩ := List.cons.inj h
      simp only [decodeLossy, UInt8.toNat_ofNat', List.length_cons, List.length_nil, List.cons_append,
        List.map_cons, List.getD_cons_zero]
      rw [if_neg (by omega), if_pos (by omega), if_pos (by simp; omega), hchar (by omega)]
    · split at h
      · obtain ⟨rfl, rfl⟩ := List.cons.inj h
        simp only [decodeLossy, UInt8.toNat_ofNat', List.length_cons, List.length_nil, List.cons_append,
          List.map_cons, List.getD_cons_zero, List.getD_cons_succ]
        rw [if_neg (by omega), if_neg (by omega), if_pos (by omega), if_neg (by simp; omega),
          if_neg (by simp; omega), hchar (by omega)]
      · obtain ⟨rfl, rfl⟩ := List.cons.inj h
        simp only [decodeLossy, UInt8.toNat_ofNat', List.length_cons, List.length_nil, List.cons_append,
          List.map_cons, List.getD_cons_zero, List.getD_cons_succ]
        rw [if_neg (by omega), if_neg (by omega), if_neg (by omega), if_pos (by omega),
          if_neg (by simp; omega), if_neg (by simp; omega), if_neg (by simp; omega),
          hchar (by omega)]

theorem fromUtf8Lossy_flatMap (cs : List Char) (fuel : ℕ)
    (hfuel : (cs.flatMap String.utf8EncodeChar).length ≤ fuel) :
    fromUtf8Lossy fuel (cs.flatMap String.utf8EncodeChar) = cs := by
  induction cs generalizing fuel with
  | nil => cases fuel <;> rfl
  | cons c cs ih =>
    rw [List.flatMap_cons] at hfuel ⊢
    cases hc : String.utf8EncodeChar c with
    | nil => exact absurd hc String.utf8EncodeChar_ne_nil
    | cons b w =>
      rw [hc, List.cons_append, List.length_cons, List.length_append] at hfuel
      cases fuel with
      | zero => omega
      | succ fuel =>
        rw [List.cons_append, fromUtf8Lossy, decodeLossy_utf8EncodeChar hc]
        dsimp only
        rw [Nat.add_sub_cancel, List.drop_left, ih fuel (by omega)]

theorem fromUtf8LossyString_bytes (s : String) :
    fromUtf8LossyString s.toByteArray.data.toList = s := by
  rw [fromUtf8LossyString, toByteArray_toList, fromUtf8Lossy_flatMap _ _ le_rfl,
    String.ofList_toList]

theorem decodeLossy_ascii {n : ℕ} {rest : List ℕ} (h : (decodeLossy n rest).1.toNat < 128) :
    (decodeLossy n rest).1.toNat = n := by
  have hbad : ¬ '\ufffd'.toNat < 128 := by decide
  rw [decodeLossy] at h ⊢
  split_ifs at h ⊢ with h₁ h₂ h₃ h₄ h₅ h₆ h₇ h₈ h₉ h₁₀
  · exact toNat_ofNat (by omega)
  · simp only [decide_eq_true_eq] at h₃
    rw [toNat_ofNat (by omega)] at h
    omega
  · exact absurd h hbad
  · exact absurd h hbad
  · exact absurd h hbad
  · simp only [Bool.or_eq_true, Bool.not_eq_true', decide_eq_false_iff_not, decide_eq_true_eq,
      not_or, not_not] at h₅ h₆
    rw [toNat_ofNat (by omega)] at h
    omega
  · exact absurd h hbad
  · exact absurd h hbad
  · exact absurd h hbad
  · simp only [Bool.or_eq_true, Bool.not_eq_true', decide_eq_false_iff_not, decide_eq_true_eq,
      not_or, not_not] at h₈ h₉ h₁₀
    rw [toNat_ofNat (by omega)] at h
    omega
  · exact absurd h hbad

theorem mem_of_mem_fromUtf8Lossy {c : Char} (hc : c.toNat < 128) {fuel : ℕ} {bs : List UInt8}
    (h : c ∈ fromUtf8Lossy fuel bs) : UInt8.ofNat c.toNat ∈ bs := by
  induction fuel generalizing bs with
  | zero => cases bs <;> cases h
  | succ fuel ih =>
    cases bs with
    | nil => cases h
    | cons b rest =>
      rw [fromUtf8Lossy] at h
      rcases List.mem_cons.mp h with rfl | h
      · rw [decodeLossy_ascii hc, UInt8.ofNat_toNat]
        exact List.mem_cons_self
      · exact List.mem_cons_of_mem _ (List.mem_of_mem_drop (ih h))

end BootyCall.Core.Lossy
