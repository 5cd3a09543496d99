import Mathlib.Data.List.Infix
import Mathlib.Data.Option.Basic

namespace BootyCall.Lib.Codec

variable {α β γ : Type}

/-- A printer with the parser that reads its output back and leaves the rest of the input; what
a parser accepts does not depend on that rest. -/
structure Format (α β : Type) where
  print : β → List α
  parse : List α → Option (β × List α)
  parse_print : ∀ b rest, parse (print b ++ rest) = some (b, rest)
  parse_append : ∀ s b rest t, parse s = some (b, rest) → parse (s ++ t) = some (b, rest ++ t)

namespace Format

def decode (F : Format α β) (s : List α) : Option β :=
  match F.parse s with
  | some (b, []) => some b
  | _ => none

theorem decode_print (F : Format α β) (b : β) : F.decode (F.print b) = some b := by
  have h := F.parse_print b []
  rw [List.append_nil] at h
  rw [decode, h]

theorem decode_prefix (F : Format α β) {b : β} {s : List α} (h : s <+: F.print b)
    (hne : s ≠ F.print b) : F.decode s = none := by
  obtain ⟨t, ht⟩ := h
  cases hs : F.parse s with
  | none => rw [decode, hs]
  | some p =>
    obtain ⟨b', rest⟩ := p
    cases rest with
    | cons c rest => rw [decode, hs]
    | nil =>
      have hall := F.parse_append s b' [] t hs
      rw [ht, ← List.append_nil (F.print b), F.parse_print] at hall
      obtain rfl : t = [] := (congrArg Prod.snd (Option.some.inj hall)).symm
      rw [List.append_nil] at ht
      exact absurd ht hne

def literal [DecidableEq α] (word : List α) : Format α Unit where
  print _ := word
  parse s := if word <+: s then some ((), s.drop word.length) else none
  parse_print _ rest := by rw [if_pos (List.prefix_append _ _), List.drop_left]
  parse_append s _ rest t h := by
    split at h
    · next hword =>
      obtain ⟨rest', rfl⟩ := hword
      rw [List.drop_left] at h
      cases h
      rw [List.append_assoc, if_pos (List.prefix_append _ _), List.drop_left]
    · cases h

def pair (F : Format α β) (G : Format α γ) : Format α (β × γ) where
  print p := F.print p.1 ++ G.print p.2
  parse s := do
    let (b, rest) ← F.parse s
    let (c, rest) ← G.parse rest
    return ((b, c), rest)
  parse_print p rest := by simp [List.append_assoc, F.parse_print, G.parse_print]
  parse_append s p rest t h := by
    obtain ⟨⟨b, mid⟩, hF, h⟩ := Option.bind_eq_some_iff.mp h
    obtain ⟨⟨c, last⟩, hG, h⟩ := Option.bind_eq_some_iff.mp h
    cases h
    simp [F.parse_append _ _ _ t hF, G.parse_append _ _ _ t hG]

def refine (F : Format α β) (write : γ → β) (read : β → Option γ)
    (h : ∀ c, read (write c) = some c)  : Format α γ where
  print c := F.print (write c)
  parse s := do
    let (b, rest) ← F.parse s
    let c ← read b
    return (c, rest)
  parse_print c rest := by simp [F.parse_print, h]
  parse_append s c rest t h := by
    obtain ⟨⟨b, mid⟩, hF, h⟩ := Option.bind_eq_some_iff.mp h
    obtain ⟨c', hc, h⟩ := Option.bind_eq_some_iff.mp h
    cases h
    simp [F.parse_append _ _ _ t hF, hc]

def after [DecidableEq α] (word : List α) (F : Format α β) : Format α β :=
  ((literal word).pair F).refine (fun b ↦ ((), b)) (fun p ↦ some p.2) fun _ ↦ rfl

def before [DecidableEq α] (F : Format α β) (word : List α) : Format α β :=
  (F.pair (literal word)).refine (fun b ↦ (b, ())) (fun p ↦ some p.1) fun _ ↦ rfl

/-- A value that starts with `mark`, or the word `d :: word` where there is none. -/
def optional [DecidableEq α] (F : Format α β) (mark d : α) (word : List α)
    (hmark : ∀ b, (F.print b).head? = some mark) (hd : d ≠ mark) : Format α (Option β) where
  print
    | none => d :: word
    | some b => F.print b
  parse s :=
    if s.head? = some mark then (F.parse s).map (Prod.map some id)
    else ((literal (d :: word)).parse s).map (Prod.map (fun _ ↦ none) id)
  parse_print
    | none, rest => by
      have h := (literal (d :: word)).parse_print () rest
      rw [show (literal (d :: word)).print () = d :: word from rfl] at h
      rw [List.cons_append, List.head?_cons, if_neg (by simpa using hd), ← List.cons_append, h]
      rfl
    | some b, rest => by
      rw [if_pos (by rw [List.head?_append, hmark]; rfl), F.parse_print]
      rfl
  parse_append s b rest t h := by
    have hne : s ≠ [] := by
      rintro rfl
      simp [literal] at h
    have hhead : (s ++ t).head? = s.head? := by
      cases s with
      | nil => exact absurd rfl hne
      | cons c s => rfl
    rw [hhead]
    split at h
    · next hs =>
      obtain ⟨⟨b', rest'⟩, hp, h⟩ := Option.map_eq_some_iff.mp h
      cases h
      rw [if_pos hs, F.parse_append _ _ _ t hp]
      rfl
    · next hs =>
      obtain ⟨⟨b', rest'⟩, hp, h⟩ := Option.map_eq_some_iff.mp h
      cases h
      rw [if_neg hs, (literal (d :: word)).parse_append _ _ _ t hp]
      rfl

/-- Reads items until the stop symbol; every item takes at least one symbol, so as many rounds
as there are symbols suffice. -/
def parseUntil [DecidableEq α] (item : Format α β) (stop : α) :
    ℕ → List α → Option (List β × List α)
  | _, [] => none
  | 0, _ => none
  | fuel + 1, c :: s =>
    if c = stop then some ([], s)
    else do
      let (b, rest) ← item.parse (c :: s)
      let (bs, rest) ← parseUntil item stop fuel rest
      return (b :: bs, rest)

section Until

variable [DecidableEq α] {item : Format α β} {stop : α}

theorem parseUntil_append {fuel fuel' : ℕ} {s rest : List α} {bs : List β} (t : List α)
    (hfuel : fuel ≤ fuel') (h : parseUntil item stop fuel s = some (bs, rest)) :
    parseUntil item stop fuel' (s ++ t) = some (bs, rest ++ t) := by
  induction fuel generalizing fuel' s rest bs with
  | zero => cases s <;> cases h
  | succ fuel ih =>
    obtain ⟨fuel', rfl⟩ : ∃ k, fuel' = k + 1 := ⟨fuel' - 1, by omega⟩
    cases s with
    | nil => cases h
    | cons c s =>
      rw [List.cons_append, parseUntil]
      rw [parseUntil] at h
      split at h
      · next hc =>
        cases h
        rw [if_pos hc]
      · next hc =>
        obtain ⟨⟨b, mid⟩, hitem, h⟩ := Option.bind_eq_some_iff.mp h
        obtain ⟨⟨bs', last⟩, hrest, h⟩ := Option.bind_eq_some_iff.mp h
        cases h
        rw [if_neg hc, ← List.cons_append, item.parse_append _ _ _ t hitem]
        simp [ih (by omega : fuel ≤ fuel') hrest]

theorem parseUntil_print (hstop : ∀ b, ∃ c w, item.print b = c :: w ∧ c ≠ stop) {bs : List β}
    {fuel : ℕ} (rest : List α) (hfuel : (bs.flatMap item.print).length < fuel) :
    parseUntil item stop fuel (bs.flatMap item.print ++ stop :: rest) = some (bs, rest) := by
  induction bs generalizing fuel with
  | nil =>
    obtain ⟨fuel, rfl⟩ : ∃ k, fuel = k + 1 := ⟨fuel - 1, by omega⟩
    simp [parseUntil]
  | cons b bs ih =>
    obtain ⟨c, w, hw, hc⟩ := hstop b
    obtain ⟨fuel, rfl⟩ : ∃ k, fuel = k + 1 := ⟨fuel - 1, by omega⟩
    rw [List.flatMap_cons, List.length_append, hw, List.length_cons] at hfuel
    have hitem := item.parse_print b (bs.flatMap item.print ++ stop :: rest)
    rw [List.flatMap_cons, List.append_assoc]
    rw [hw, List.cons_append] at hitem ⊢
    rw [parseUntil, if_neg hc, hitem]
    simp [ih (by omega : (bs.flatMap item.print).length < fuel)]

def manyUntil (item : Format α β) (stop : α)
    (hstop : ∀ b, ∃ c w, item.print b = c :: w ∧ c ≠ stop) : Format α (List β) where
  print bs := bs.flatMap item.print ++ [stop]
  parse s := parseUntil item stop s.length s
  parse_print bs rest := by
    rw [List.append_assoc, List.singleton_append]
    exact parseUntil_print hstop rest (by simp)
  parse_append s bs rest t h := parseUntil_append t (by simp) h

end Until

end Format

end BootyCall.Lib.Codec
