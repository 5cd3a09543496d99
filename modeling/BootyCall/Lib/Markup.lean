import BootyCall.Lib.Lines

namespace BootyCall.Lib.Markup

open Lines

def isNameChar (c : Char) : Bool := c.isAlphanum || c == '/'

/-- The names of the tags that a text opens and closes, in order. -/
def tags : List Char → List (List Char)
  | [] => []
  | c :: cs => if c = '<' then cs.takeWhile isNameChar :: tags cs else tags cs

/-- No tag's name is still open at the end, so that what follows the text belongs to no name. -/
def settled : List Char → Bool
  | [] => true
  | c :: cs => (c != '<' || cs.any fun d ↦ !isNameChar d) && settled cs

def Clean (s : String) : Prop := '<' ∉ s.toList

theorem settled_chars {ls : List String} {ts : List (List Char)}
    (h : List.Forall₂ (fun s t ↦ s = String.ofList t) ls ts)
    (hs : settled (['\n'].intercalate ts) = true) : settled (chars ls) = true := by
  rwa [chars_eq h]

structure Literal where
  lines : List String
  settled_lines : settled (chars lines) = true

/-- A piece of a template: its own text, or a value put in as it is. -/
inductive Piece
  | lit (l : Literal)
  | slot (s : String)

namespace Piece

def text : Piece → List Char
  | lit l => chars l.lines
  | slot s => s.toList

def tags : Piece → List (List Char)
  | lit l => Markup.tags (chars l.lines)
  | slot _ => []

/-- A value put in brings no markup. -/
def Inert : Piece → Prop
  | lit _ => True
  | slot s => Clean s

end Piece

def text (ps : List Piece) : List Char := ps.flatMap Piece.text

instance (s : String) : Decidable (Clean s) := inferInstanceAs (Decidable ('<' ∉ s.toList))

variable {cs ds : List Char}

theorem Clean.append {s t : String} (hs : Clean s) (ht : Clean t) : Clean (s ++ t) := by
  rw [Clean, String.toList_append, List.mem_append]
  exact fun h ↦ h.elim hs ht

theorem takeWhile_append_of_any {p : Char → Bool} (h : (cs.any fun d ↦ !p d) = true) :
    (cs ++ ds).takeWhile p = cs.takeWhile p := by
  induction cs with
  | nil => cases h
  | cons c cs ih =>
    rw [List.cons_append, List.takeWhile_cons, List.takeWhile_cons]
    cases hc : p c with
    | true =>
      rw [List.any_cons, hc, Bool.not_true, Bool.false_or] at h
      simp only [ih h]
    | false => rfl

theorem tags_append (h : settled cs = true) : tags (cs ++ ds) = tags cs ++ tags ds := by
  induction cs with
  | nil => rfl
  | cons c cs ih =>
    rw [settled, Bool.and_eq_true, Bool.or_eq_true, bne_iff_ne] at h
    obtain ⟨hc, hcs⟩ := h
    rw [List.cons_append, tags, tags, ih hcs]
    split
    · next hlt =>
      rw [takeWhile_append_of_any (hc.resolve_left fun hne ↦ hne hlt), List.cons_append]
    · rfl

theorem settled_of_not_mem (h : '<' ∉ cs) : settled cs = true := by
  induction cs with
  | nil => rfl
  | cons c cs ih =>
    rw [List.mem_cons, not_or] at h
    obtain ⟨hc, hcs⟩ := h
    rw [settled, ih hcs, Bool.and_true, Bool.or_eq_true, bne_iff_ne]
    exact .inl fun heq ↦ hc heq.symm

theorem tags_of_not_mem (h : '<' ∉ cs) : tags cs = [] := by
  induction cs with
  | nil => rfl
  | cons c cs ih =>
    rw [List.mem_cons, not_or] at h
    obtain ⟨hc, hcs⟩ := h
    rw [tags, if_neg fun heq ↦ hc heq.symm, ih hcs]

namespace Piece

variable {p : Piece}

theorem Inert.settled (h : p.Inert) : settled p.text = true := by
  cases p with
  | lit l => exact l.settled_lines
  | slot s => exact settled_of_not_mem h

theorem Inert.tags_text (h : p.Inert) : Markup.tags p.text = p.tags := by
  cases p with
  | lit l => rfl
  | slot s => exact tags_of_not_mem h

end Piece

/-- Values without a less-than sign leave the tags of the template as they are. -/
theorem tags_text {ps : List Piece} (h : ∀ p ∈ ps, p.Inert) :
    tags (text ps) = ps.flatMap Piece.tags := by
  induction ps with
  | nil => rfl
  | cons p ps ih =>
    obtain ⟨hp, hps⟩ := List.forall_mem_cons.mp h
    rw [text, List.flatMap_cons, tags_append hp.settled, hp.tags_text, List.flatMap_cons]
    exact congrArg (p.tags ++ ·) (ih hps)

end BootyCall.Lib.Markup
