import BootyCall.Lib.Lines

namespace BootyCall.Lib.Jinja

open Lines

inductive Value
  | undefined
  | none
  | str (s : String)
  | int (n : ℕ)
  | seq (vs : List Value)
  | map (fields : List (String × Value))

namespace Value

def ofOption (s : Option String) : Value := s.elim .none .str

/-- What an expression prints; a sequence or a map has no text here. -/
def print : Value → Option (List Char)
  | .undefined => some []
  | .none => some "none".toList
  | .str s => some s.toList
  | .int n => some (Nat.repr n).toList
  | .seq _ | .map _ => Option.none

def isTrue : Value → Bool
  | .undefined | .none => false
  | .str s => s != ""
  | .int n => n != 0
  | .seq vs => !vs.isEmpty
  | .map fields => !fields.isEmpty

def getAttr (field : String) : Value → Option Value
  | .undefined => Option.none
  | .map fields => some ((fields.lookup field).getD .undefined)
  | _ => some .undefined

def items : Value → Option (List Value)
  | .undefined | .none => some []
  | .str s => some (s.toList.map fun c ↦ .str (String.singleton c))
  | .int _ => Option.none
  | .seq vs => some vs
  | .map fields => some (fields.map fun f ↦ .str f.1)

end Value

abbrev Env := List (String × Value)

/-- The `default` filter replaces an undefined value only. -/
inductive Expr
  | var (name : String)
  | attr (e : Expr) (field : String)
  | default (e : Expr) (s : String)

def Expr.eval (env : Env) : Expr → Option Value
  | .var name => some ((env.lookup name).getD .undefined)
  | .attr e field => (e.eval env).bind (Value.getAttr field)
  | .default e s =>
    (e.eval env).map fun v ↦
      match v with
      | .undefined => .str s
      | v => v

/-- A template from its first piece on; what is printed is not escaped. -/
inductive Template
  | done
  | text (lines : List String) (rest : Template)
  | emit (e : Expr) (rest : Template)
  | cond (e : Expr) (yes no rest : Template)
  | each (x : String) (e : Expr) (body rest : Template)

namespace Template

def loopEnv (env : Env) (x : String) (p : Value × ℕ) : Env :=
  (x, p.1) :: ("loop", .map [("index", .int p.2)]) :: env

def render : Template → Env → Option (List Char)
  | done, _ => some []
  | text lines rest, env => do
    let r ← rest.render env
    some (chars lines ++ r)
  | emit e rest, env => do
    let v ← e.eval env
    let t ← v.print
    let r ← rest.render env
    some (t ++ r)
  | cond e yes no rest, env => do
    let v ← e.eval env
    let t ← (if v.isTrue then yes.render env else no.render env)
    let r ← rest.render env
    some (t ++ r)
  | each x e body rest, env => do
    let v ← e.eval env
    let vs ← v.items
    let ts ← (vs.zipIdx 1).mapM fun p ↦ body.render (loopEnv env x p)
    let r ← rest.render env
    some (ts.flatten ++ r)

variable {env : Env} {e : Expr} {rest : Template} {v : Value}

theorem render_done : done.render env = some [] := rfl

theorem render_text (lines : List String) :
    (text lines rest).render env = (rest.render env).map (chars lines ++ ·) := by
  rw [render]
  cases rest.render env <;> rfl

theorem render_emit {t : List Char} (hv : e.eval env = some v) (ht : v.print = some t) :
    (emit e rest).render env = (rest.render env).map (t ++ ·) := by
  rw [render, hv, Option.bind_eq_bind, Option.bind_some, ht]
  cases rest.render env <;> rfl

theorem render_cond {yes no : Template} {t : List Char} (hv : e.eval env = some v)
    (ht : (if v.isTrue then yes.render env else no.render env) = some t) :
    (cond e yes no rest).render env = (rest.render env).map (t ++ ·) := by
  rw [render, hv, Option.bind_eq_bind, Option.bind_some, ht]
  cases rest.render env <;> rfl

theorem mapM_map_some {α β γ : Type} {f : β → Option γ} {v : α → β} {g : α → γ} {l : List α}
    (h : ∀ a ∈ l, f (v a) = some (g a)) : (l.map v).mapM f = some (l.map g) := by
  induction l with
  | nil => rfl
  | cons a l ih =>
    rw [List.map_cons, List.mapM_cons, h a List.mem_cons_self,
      ih fun b hb ↦ h b (List.mem_cons_of_mem _ hb)]
    rfl

theorem render_each {α : Type} {x : String} {body : Template} {as : List α} {value : α → Value}
    {f : α × ℕ → List Char} (hv : e.eval env = some v) (hvs : v.items = some (as.map value))
    (hbody : ∀ p ∈ as.zipIdx 1, body.render (loopEnv env x (value p.1, p.2)) = some (f p)) :
    (each x e body rest).render env =
      (rest.render env).map ((as.zipIdx 1).flatMap f ++ ·) := by
  have hall := mapM_map_some (f := fun p ↦ body.render (loopEnv env x p)) (v := Prod.map value id)
    hbody
  rw [render, hv, Option.bind_eq_bind, Option.bind_some, hvs, Option.bind_eq_bind,
    Option.bind_some, List.zipIdx_map, hall, Option.bind_eq_bind, Option.bind_some,
    List.flatMap_def]
  cases rest.render env <;> rfl

end Template

end BootyCall.Lib.Jinja
