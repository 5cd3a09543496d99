import BootyCall.Lib.Lines

namespace BootyCall.Lib.Skeleton

open Lines

/-- A part of a text that is fixed, or a hole in it. -/
inductive Piece (Hole : Type)
  | text (cs : List Char)
  | hole (h : Hole)
  deriving DecidableEq

variable {Hole : Type} {c : Char}

def Piece.lacks (c : Char) : Piece Hole → Bool
  | text cs => decide (c ∉ cs)
  | hole _ => true

def fill (env : Hole → List Char) (pieces : List (Piece Hole)) : List Char :=
  pieces.flatMap fun
    | .text cs => cs
    | .hole h => env h

def joined (ended : List (List (Piece Hole))) (rest : List (Piece Hole)) : List (Piece Hole) :=
  ended.flatMap (· ++ [.text ['\n']]) ++ rest

def textLines (text : List Char) : List (List Char) :=
  let lines := linesOf text
  if lines.getLast? = some [] then lines.dropLast else lines

variable {env : Hole → List Char}

@[simp]
theorem fill_nil : fill env [] = [] := rfl

@[simp]
theorem fill_text (cs : List Char) (pieces : List (Piece Hole)) :
    fill env (.text cs :: pieces) = cs ++ fill env pieces := rfl

@[simp]
theorem fill_hole (h : Hole) (pieces : List (Piece Hole)) :
    fill env (.hole h :: pieces) = env h ++ fill env pieces := rfl

theorem fill_append (pieces pieces' : List (Piece Hole)) :
    fill env (pieces ++ pieces') = fill env pieces ++ fill env pieces' := List.flatMap_append

theorem fill_joined (ended : List (List (Piece Hole))) (rest : List (Piece Hole)) :
    fill env (joined ended rest) = unlines (ended.map (fill env)) ++ fill env rest := by
  rw [joined, fill_append]
  congr 1
  induction ended with
  | nil => rfl
  | cons line ended ih =>
    rw [List.flatMap_cons, fill_append, fill_append, ih]
    rfl

/-- A character that is in no fixed part and in no filling is not in the text. -/
theorem not_mem_fill {pieces : List (Piece Hole)} (htext : ∀ piece ∈ pieces, piece.lacks c = true)
    (hhole : ∀ h, c ∉ env h) : c ∉ fill env pieces := by
  intro hc
  obtain ⟨piece, hpiece, hc⟩ := List.mem_flatMap.mp hc
  cases piece with
  | text cs => exact of_decide_eq_true (htext _ hpiece) hc
  | hole h => exact hhole h hc

theorem prefix_fill {word cs : List Char} (h : word <+: cs) (pieces : List (Piece Hole)) :
    word <+: fill env (.text cs :: pieces) := h.trans (List.prefix_append _ _)

theorem textLines_unlines {ls : List (List Char)} (h : ∀ l ∈ ls, '\n' ∉ l) {last : List Char}
    (hlast : '\n' ∉ last) :
    textLines (unlines ls ++ last) = ls ++ if last = [] then [] else [last] := by
  rw [textLines, linesOf_unlines h, linesOf, List.splitOn_eq_singleton hlast,
    List.getLast?_concat]
  by_cases hempty : last = []
  · rw [if_pos (congrArg some hempty), if_pos hempty, List.dropLast_concat, List.append_nil]
  · rw [if_neg (fun heq ↦ hempty (Option.some.inj heq)), if_neg hempty]

end BootyCall.Lib.Skeleton
