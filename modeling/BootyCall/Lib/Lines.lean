import Mathlib.Data.List.Flatten
import Mathlib.Data.List.Forall2
import Mathlib.Data.Nat.Notation

namespace BootyCall.Lib.Lines

def chars : List String → List Char
  | [] => []
  | [s] => s.toList
  | s :: rest => s.toList ++ '\n' :: chars rest

def unlines (ls : List (List Char)) : List Char := ls.flatMap (· ++ ['\n'])

def linesOf (text : List Char) : List (List Char) := text.splitOn '\n'

/-- What literal lines spell, without decoding them. -/
theorem chars_eq {ls : List String} {ts : List (List Char)}
    (h : List.Forall₂ (fun s t ↦ s = String.ofList t) ls ts) :
    chars ls = ['\n'].intercalate ts := by
  induction h with
  | nil => rfl
  | @cons s t ls ts hs h ih =>
    cases h with
    | nil => rw [chars, hs, String.toList_ofList, List.intercalate_singleton]
    | cons hs' h =>
      rw [chars, ih, hs, String.toList_ofList, List.intercalate_cons_cons, List.append_assoc,
        List.singleton_append]
      exact List.cons_ne_nil _ _

theorem unlines_append (ls ls' : List (List Char)) :
    unlines (ls ++ ls') = unlines ls ++ unlines ls' := List.flatMap_append

theorem unlines_flatMap {α : Type} (as : List α) (f : α → List (List Char)) :
    unlines (as.flatMap f) = as.flatMap fun a ↦ unlines (f a) := List.flatMap_assoc

theorem linesOf_unlines {ls : List (List Char)} (h : ∀ l ∈ ls, '\n' ∉ l) (last : List Char) :
    linesOf (unlines ls ++ last) = ls ++ linesOf last := by
  induction ls with
  | nil => rfl
  | cons l ls ih =>
    obtain ⟨hl, hls⟩ := List.forall_mem_cons.mp h
    have hsplit := List.splitOn_append_cons_self (a := '\n') l (unlines ls ++ last)
    rw [List.splitOn_eq_singleton hl] at hsplit
    rw [unlines, List.flatMap_cons, List.append_assoc, List.append_assoc]
    exact hsplit.trans (congrArg (l :: ·) (ih hls))

end BootyCall.Lib.Lines
