import BootyCall.Lib.Net

namespace BootyCall.Lib.Dotted

open Net

def NoDigit (radix : ℕ) (rest : List Char) : Prop := ∀ c ∈ rest.head?, toDigit radix c = none

theorem digits_append {radix : ℕ} {s rest : List Char}
    (h : ∀ c ∈ s, (toDigit radix c).isSome = true) (hrest : NoDigit radix rest) :
    digits radix (s ++ rest) = ((digits radix s).1, rest) := by
  induction s with
  | nil =>
    cases rest with
    | nil => rfl
    | cons c rest => simp only [List.nil_append, digits, hrest c rfl]
  | cons c s ih =>
    obtain ⟨d, hd⟩ := Option.isSome_iff_exists.mp (h c List.mem_cons_self)
    simp only [List.cons_append, digits, hd, ih fun c hc ↦ h c (List.mem_cons_of_mem _ hc)]

theorem readNumber_append {radix bound n : ℕ} {maxDigits : Option ℕ} {zero : Bool}
    {s rest : List Char} (h : ∀ c ∈ s, (toDigit radix c).isSome = true)
    (hrest : NoDigit radix rest) (hread : readNumber radix bound maxDigits zero s = some (n, [])) :
    readNumber radix bound maxDigits zero (s ++ rest) = some (n, rest) := by
  simp only [readNumber, digits_append h hrest] at hread ⊢
  split at hread
  · cases hread
  · next hok =>
    obtain ⟨rfl, -⟩ := Prod.mk.inj (Option.some.inj hread)
    rw [if_neg hok]

theorem readNumber_octet {n : ℕ} (h : n < 256) :
    readNumber 10 256 (some 3) false (toString n).toList = some (n, []) ∧
      ∀ c ∈ (toString n).toList, (toDigit 10 c).isSome = true := by
  -- by the two halves of an octet, which keeps the recursion flat
  have hhalves : ∀ high < 16, ∀ low < 16,
      readNumber 10 256 (some 3) false (toString (16 * high + low)).toList =
          some (16 * high + low, []) ∧
        (toString (16 * high + low)).toList.all (fun c ↦ (toDigit 10 c).isSome) = true := by
    decide +kernel
  have hn := hhalves (n / 16) (by omega) (n % 16) (by omega)
  rwa [Nat.div_add_mod, List.all_eq_true] at hn

def dotted (i : ℕ) : List ℕ → List Char
  | [] => []
  | n :: rest => (if 0 < i then ['.'] else []) ++ (toString n).toList ++ dotted (i + 1) rest

theorem noDigit_dotted (i : ℕ) (octets : List ℕ) : NoDigit 10 (dotted (i + 1) octets) := by
  intro c hc
  cases octets with
  | nil => cases hc
  | cons n octets =>
    obtain rfl := Option.some.inj hc
    rfl

/-- An address that is printed reads back. -/
theorem readOctets_dotted {octets : List ℕ} (h : ∀ n ∈ octets, n < 256) (i : ℕ) :
    readOctets octets.length i (dotted i octets) = some (octets, []) := by
  induction octets generalizing i with
  | nil => rfl
  | cons n octets ih =>
    obtain ⟨hread, hdigits⟩ := readNumber_octet (h n List.mem_cons_self)
    have hnumber := readNumber_append hdigits (noDigit_dotted i octets) hread
    have hfirst : readSeparator '.' i (readNumber 10 256 (some 3) false)
        (dotted i (n :: octets)) = some (n, dotted (i + 1) octets) := by
      rw [readSeparator, dotted]
      split
      · rw [List.append_assoc, List.singleton_append, readGivenChar, if_pos rfl]
        exact hnumber
      · exact hnumber
    rw [List.length_cons, readOctets, hfirst]
    simp only [Option.bind_eq_bind, Option.bind_some]
    rw [ih fun m hm ↦ h m (List.mem_cons_of_mem _ hm)]
    rfl

end BootyCall.Lib.Dotted
