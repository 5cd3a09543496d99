import Mathlib.Data.List.Infix

namespace BootyCall.Lib.FileTree

variable {Name : Type} [DecidableEq Name]

inductive Step (Name : Type)
  | cur
  | up
  | name (n : Name)
  deriving DecidableEq

structure Route (Name : Type) where
  absolute : Bool
  steps : List (Step Name)
  deriving DecidableEq

inductive Entry (Name : Type)
  | dir
  | file
  | link (target : Route Name)
  deriving DecidableEq

/-- The place of an object in the tree, as the names from the object up to the root. -/
abbrev Loc (Name : Type) := List Name

/-- A finite file system: every object but the root lies in a directory. -/
structure DirTree (Name : Type) [DecidableEq Name] where
  nodes : List (Loc Name × Entry Name)
  root_dir : nodes.lookup [] = some .dir
  parent_dir : ∀ p ∈ nodes, p.1 = [] ∨ nodes.lookup p.1.tail = some .dir

namespace DirTree

variable (t : DirTree Name)

def entry (l : Loc Name) : Option (Entry Name) := t.nodes.lookup l

/-- Takes the steps one by one from a directory; `follow` continues at the target of a link. -/
def walkWith (follow : Loc Name → List (Step Name) → Option (Loc Name)) :
    List (Step Name) → Loc Name → Option (Loc Name)
  | [], l => some l
  | s :: rest, l =>
    if t.entry l = some .dir then
      match s with
      | .cur => walkWith follow rest l
      | .up => walkWith follow rest l.tail
      | .name n =>
        match t.entry (n :: l) with
        | none => none
        | some (.link r) => follow (if r.absolute then [] else l) (r.steps ++ rest)
        | some _ => walkWith follow rest (n :: l)
    else none

def walk : ℕ → Loc Name → List (Step Name) → Option (Loc Name)
  | 0, l, steps => t.walkWith (fun _ _ ↦ none) steps l
  | links + 1, l, steps => t.walkWith (walk links) steps l

variable {t}

theorem mem_nodes_of_entry {l : Loc Name} {e : Entry Name} (h : t.entry l = some e) :
    (l, e) ∈ t.nodes := by
  obtain ⟨a, b, hnodes, -⟩ := List.lookup_eq_some_iff.mp h
  simp [hnodes]

theorem entry_tail {n : Name} {l : Loc Name} {e : Entry Name} (h : t.entry (n :: l) = some e) :
    t.entry l = some .dir :=
  (t.parent_dir _ (mem_nodes_of_entry h)).resolve_left (List.cons_ne_nil _ _)

def Real (t : DirTree Name) (l : Loc Name) : Prop :=
  t.entry l = some .dir ∨ t.entry l = some .file

theorem real_root : t.Real [] := .inl t.root_dir

theorem real_tail {l : Loc Name} (h : t.entry l = some .dir) : t.Real l.tail := by
  cases l with
  | nil => exact .inl h
  | cons n l => exact .inl (entry_tail h)

theorem walkWith_real {follow : Loc Name → List (Step Name) → Option (Loc Name)}
    (hfollow : ∀ l steps l', t.Real l → follow l steps = some l' → t.Real l')
    {steps : List (Step Name)} {l l' : Loc Name} (hl : t.Real l)
    (h : t.walkWith follow steps l = some l') : t.Real l' := by
  induction steps generalizing l with
  | nil => exact Option.some.inj h ▸ hl
  | cons s rest ih =>
    have hdir : t.entry l = some .dir := by
      by_contra hdir
      simp [walkWith, hdir] at h
    cases s with
    | cur => exact ih hl (by simpa [walkWith, hdir] using h)
    | up => exact ih (real_tail hdir) (by simpa [walkWith, hdir] using h)
    | name n =>
      simp only [walkWith, hdir, if_true] at h
      split at h
      · contradiction
      · refine hfollow _ _ _ ?_ h
        split
        · exact real_root
        · exact hl
      · next e hlink hentry =>
        refine ih ?_ h
        cases e with
        | dir => exact .inl hentry
        | file => exact .inr hentry
        | link r => exact absurd rfl (hlink r)

theorem walk_real {links : ℕ} {steps : List (Step Name)} {l l' : Loc Name} (hl : t.Real l)
    (h : t.walk links l steps = some l') : t.Real l' := by
  induction links generalizing steps l l' with
  | zero => exact walkWith_real (by simp) hl h
  | succ links ih => exact walkWith_real (fun _ _ _ hl h ↦ ih hl h) hl h

theorem walkWith_names {follow : Loc Name → List (Step Name) → Option (Loc Name)}
    {l : Loc Name} (h : t.Real l) (rest : List (Step Name)) :
    t.walkWith follow (l.reverse.map .name ++ rest) [] = t.walkWith follow rest l := by
  induction l generalizing rest with
  | nil => rfl
  | cons n l ih =>
    have hdir : t.entry l = some .dir := h.elim entry_tail entry_tail
    rw [List.reverse_cons, List.map_append, List.append_assoc, ih (.inl hdir)]
    simp only [List.map_cons, List.map_nil, List.cons_append, List.nil_append, walkWith, hdir,
      if_true]
    rcases h with h | h <;> rw [h]

theorem walk_cur {l : Loc Name} (h : t.entry l = some .dir) (links : ℕ)
    (steps : List (Step Name)) : t.walk links l (.cur :: steps) = t.walk links l steps := by
  cases links <;> simp [walk, walkWith, h]

theorem walk_names {l : Loc Name} (h : t.Real l) (links : ℕ) :
    t.walk links [] (l.reverse.map .name) = some l := by
  have hwalk (follow : Loc Name → List (Step Name) → Option (Loc Name)) :
      t.walkWith follow (l.reverse.map .name) [] = some l := by
    rw [← List.append_nil (l.reverse.map _), walkWith_names h]
    rfl
  cases links with
  | zero => exact hwalk _
  | succ links => exact hwalk _

end DirTree

end BootyCall.Lib.FileTree
