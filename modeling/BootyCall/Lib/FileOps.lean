import Mathlib.Data.List.Infix
import Mathlib.Logic.Function.Basic

namespace BootyCall.Lib.FileOps

variable {Name Byte ε α β : Type}

abbrev Dir (Name Byte : Type) := Name → Option (List Byte)

/-- What can happen to a file between two points at which the process may stop. -/
inductive Op (Name Byte : Type)
  | create (n : Name)
  | append (n : Name) (b : Byte)
  | remove (n : Name)
  deriving DecidableEq

namespace Op

def target : Op Name Byte → Name
  | create n | append n _ | remove n => n

variable [DecidableEq Name]

def writes (n : Name) : Op Name Byte → Bool
  | create m | append m _ => decide (m = n)
  | remove _ => false

/-- `create` truncates a file that is there; `remove` ignores one that is not. -/
def apply (d : Dir Name Byte) : Op Name Byte → Dir Name Byte
  | create n => Function.update d n (some [])
  | append n b => Function.update d n ((d n).map (· ++ [b]))
  | remove n => Function.update d n none

end Op

def writeFile (n : Name) (bytes : List Byte) : List (Op Name Byte) :=
  .create n :: bytes.map (.append n)

theorem cut_writeFile {n : Name} {bytes : List Byte} {ops : List (Op Name Byte)}
    (h : ops <+: writeFile n bytes) :
    ops = [] ∨ ∃ written, written <+: bytes ∧ ops = writeFile n written := by
  rw [writeFile, List.prefix_cons_iff] at h
  rcases h with rfl | ⟨rest, rfl, hrest⟩
  · exact .inl rfl
  · obtain ⟨k, rfl⟩ : ∃ k, rest = (bytes.map (Op.append n)).take k :=
      ⟨_, List.prefix_iff_eq_take.mp hrest⟩
    exact .inr ⟨bytes.take k, List.take_prefix _ _, by rw [writeFile, List.map_take]⟩

theorem cut_append {ops first rest : List (Op Name Byte)} (h : ops <+: first ++ rest) :
    ops <+: first ∨ ∃ tail, tail <+: rest ∧ ops = first ++ tail := by
  rcases List.prefix_or_prefix_of_prefix h (List.prefix_append first rest) with hfirst | hfirst
  · exact .inl hfirst
  · obtain ⟨tail, rfl⟩ := hfirst
    exact .inr ⟨tail, (List.prefix_append_right_inj first).mp h, rfl⟩

/-- A computation that may fail, with the file operations it performs on the way. -/
structure Script (Name Byte ε α : Type) where
  ops : List (Op Name Byte)
  result : Except ε α

namespace Script

def emit (ops : List (Op Name Byte)) : Script Name Byte ε Unit := ⟨ops, .ok ()⟩

def ofExcept (r : Except ε α) : Script Name Byte ε α := ⟨[], r⟩

protected def bind (x : Script Name Byte ε α) (f : α → Script Name Byte ε β) :
    Script Name Byte ε β :=
  match x.result with
  | .ok a => ⟨x.ops ++ (f a).ops, (f a).result⟩
  | .error e => ⟨x.ops, .error e⟩

instance : Monad (Script Name Byte ε) where
  pure a := ⟨[], .ok a⟩
  bind := Script.bind

instance : MonadExceptOf ε (Script Name Byte ε) where
  throw e := ⟨[], .error e⟩
  tryCatch x f :=
    match x.result with
    | .ok _ => x
    | .error e => ⟨x.ops ++ (f e).ops, (f e).result⟩

variable {x : Script Name Byte ε α} {f : α → Script Name Byte ε β}

theorem bind_of_ok {a : α} (h : x.result = .ok a) :
    x >>= f = ⟨x.ops ++ (f a).ops, (f a).result⟩ := by
  change Script.bind x f = _
  rw [Script.bind, h]

theorem bind_of_error {e : ε} (h : x.result = .error e) : x >>= f = ⟨x.ops, .error e⟩ := by
  change Script.bind x f = _
  rw [Script.bind, h]

@[simp]
theorem ofExcept_ok_bind (a : α) : (ofExcept (.ok a) : Script Name Byte ε α) >>= f = f a := rfl

@[simp]
theorem ofExcept_error_bind (e : ε) :
    (ofExcept (.error e) : Script Name Byte ε α) >>= f = ⟨[], .error e⟩ := rfl

theorem ofExcept_bind (r : Except ε α) (f : α → Except ε β) :
    (ofExcept (r >>= f) : Script Name Byte ε β) = ofExcept r >>= fun a ↦ ofExcept (f a) := by
  cases r <;> rfl

@[simp]
theorem emit_bind (ops : List (Op Name Byte)) (f : Unit → Script Name Byte ε β) :
    emit ops >>= f = ⟨ops ++ (f ()).ops, (f ()).result⟩ := rfl

@[simp]
theorem ops_pure (a : α) : (pure a : Script Name Byte ε α).ops = [] := rfl

protected theorem bind_assoc {γ : Type} (x : Script Name Byte ε α) (f : α → Script Name Byte ε β)
    (g : β → Script Name Byte ε γ) : x >>= f >>= g = x >>= fun a ↦ f a >>= g := by
  cases hx : x.result with
  | error e =>
    rw [bind_of_error hx, bind_of_error hx]
    exact bind_of_error rfl
  | ok a =>
    rw [bind_of_ok hx, bind_of_ok hx]
    cases hf : (f a).result with
    | error e =>
      rw [bind_of_error hf]
      exact bind_of_error rfl
    | ok b =>
      rw [bind_of_ok hf]
      exact (bind_of_ok rfl).trans (congrArg (Script.mk · _) (List.append_assoc _ _ _))

theorem bind_unit (x : Script Name Byte ε Unit) : (x >>= fun _ ↦ pure ()) = x := by
  cases hx : x.result with
  | error e =>
    rw [bind_of_error hx, ← hx]
  | ok u =>
    rw [bind_of_ok hx, ops_pure, List.append_nil]
    exact congrArg (Script.mk x.ops) hx.symm

theorem result_bind (x : Script Name Byte ε α) (f : α → Script Name Byte ε β) :
    (x >>= f).result = x.result >>= fun a ↦ (f a).result := by
  cases hx : x.result with
  | error e =>
    rw [bind_of_error hx]
    rfl
  | ok a =>
    rw [bind_of_ok hx]
    rfl

theorem bind_ok {b : β} (h : (x >>= f).result = .ok b) :
    ∃ a, x.result = .ok a ∧ (f a).result = .ok b ∧ (x >>= f).ops = x.ops ++ (f a).ops := by
  cases hx : x.result with
  | ok a =>
    rw [bind_of_ok hx] at h
    exact ⟨a, rfl, h, congrArg Script.ops (bind_of_ok hx)⟩
  | error e =>
    rw [bind_of_error hx] at h
    cases h

theorem ofExcept_bind_ok {r : Except ε α} {b : β} (h : (ofExcept r >>= f).result = .ok b) :
    ∃ a, r = .ok a ∧ (f a).result = .ok b ∧ ofExcept r >>= f = f a := by
  cases r with
  | ok a => exact ⟨a, rfl, h, rfl⟩
  | error e => cases h

theorem tryCatch_of_ok {handler : ε → Script Name Byte ε α} {a : α} (h : x.result = .ok a) :
    tryCatch x handler = x := by
  simp only [tryCatch, tryCatchThe, MonadExceptOf.tryCatch, h]

theorem tryCatch_of_error {handler : ε → Script Name Byte ε α} {e : ε}
    (h : x.result = .error e) :
    tryCatch x handler = ⟨x.ops ++ (handler e).ops, (handler e).result⟩ := by
  simp only [tryCatch, tryCatchThe, MonadExceptOf.tryCatch, h]

theorem tryCatch_ok {handler : ε → Script Name Byte ε α} {a : α}
    (h : (tryCatch x handler).result = .ok a) :
    x.result = .ok a ∧ (tryCatch x handler).ops = x.ops ∨
      ∃ e, x.result = .error e ∧ (handler e).result = .ok a ∧
        (tryCatch x handler).ops = x.ops ++ (handler e).ops := by
  cases hx : x.result with
  | ok a' =>
    rw [tryCatch_of_ok hx] at h ⊢
    exact .inl ⟨hx.symm.trans h, rfl⟩
  | error e =>
    rw [tryCatch_of_error hx] at h ⊢
    exact .inr ⟨e, rfl, h, rfl⟩

end Script

variable [DecidableEq Name]

def run (d : Dir Name Byte) (ops : List (Op Name Byte)) : Dir Name Byte := ops.foldl Op.apply d

def touches (n : Name) (ops : List (Op Name Byte)) : Bool := ops.any fun op ↦ decide (op.target = n)

def written (n : Name) (ops : List (Op Name Byte)) : Bool := ops.any (Op.writes n)

variable {d : Dir Name Byte} {ops ops' : List (Op Name Byte)} {n m : Name}

theorem run_append (d : Dir Name Byte) (ops ops' : List (Op Name Byte)) :
    run d (ops ++ ops') = run (run d ops) ops' := List.foldl_append

theorem Op.apply_of_ne {op : Op Name Byte} (h : op.target ≠ n) : op.apply d n = d n := by
  cases op <;> exact Function.update_of_ne (Ne.symm h) _ _

theorem Op.apply_of_not_writes {op : Op Name Byte} (h : op.writes n = false) :
    op.apply d n = if op.target = n then none else d n := by
  split
  · next hn =>
    subst hn
    cases op <;> simp_all [Op.apply, Op.target, Op.writes]
  · next hn => exact Op.apply_of_ne hn

theorem written_cut (h : ops <+: ops') (hn : written n ops' = false) :
    written n ops = false := by
  obtain ⟨rest, rfl⟩ := h
  rw [written, List.any_append, Bool.or_eq_false_iff] at hn
  exact hn.1

theorem written_of_untouched (h : touches n ops = false) : written n ops = false := by
  simp only [touches, written, List.any_eq_false, decide_eq_true_eq, Bool.not_eq_true] at h ⊢
  intro op hop
  have hne := h op hop
  cases op with
  | create m | append m b => exact decide_eq_false hne
  | remove m => rfl

theorem touches_append :
    touches n (ops ++ ops') = (touches n ops || touches n ops') := List.any_append

theorem written_append : written n (ops ++ ops') = (written n ops || written n ops') :=
  List.any_append

theorem touches_writeFile (bytes : List Byte) :
    touches n (writeFile m bytes) = decide (m = n) := by
  simp only [touches, writeFile, List.any_cons, List.any_map, Function.comp_def, Op.target]
  by_cases h : m = n <;> simp [h]

theorem touches_cut (h : ops <+: ops') (hn : touches n ops' = false) :
    touches n ops = false := by
  obtain ⟨rest, rfl⟩ := h
  rw [touches_append, Bool.or_eq_false_iff] at hn
  exact hn.1

/-- Frame rule: a file that no operation works on stays as it is. -/
theorem run_of_untouched (h : touches n ops = false) : run d ops n = d n := by
  induction ops generalizing d with
  | nil => rfl
  | cons op ops ih =>
    simp only [touches, List.any_cons, Bool.or_eq_false_iff, decide_eq_false_iff_not] at h
    rw [run, List.foldl_cons, ← run, ih h.2, Op.apply_of_ne h.1]

theorem run_of_unwritten (h : written n ops = false) :
    run d ops n = if touches n ops then none else d n := by
  induction ops generalizing d with
  | nil => rfl
  | cons op ops ih =>
    rw [written, List.any_cons, Bool.or_eq_false_iff] at h
    rw [run, List.foldl_cons, ← run, ih h.2, Op.apply_of_not_writes h.1]
    by_cases hn : op.target = n <;> simp [touches, hn]

theorem run_appends (bytes old : List Byte) (h : d n = some old) :
    run d (bytes.map (.append n)) n = some (old ++ bytes) := by
  induction bytes generalizing d old with
  | nil => rw [List.append_nil]; exact h
  | cons b bytes ih =>
    have hstep : (Op.append n b).apply d n = some (old ++ [b]) := by simp [Op.apply, h]
    rw [List.map_cons, run, List.foldl_cons, ← run, ih _ hstep, List.append_assoc,
      List.singleton_append]

theorem run_writeFile (bytes : List Byte) : run d (writeFile n bytes) n = some bytes := by
  rw [writeFile, run, List.foldl_cons, ← run]
  exact run_appends bytes [] (by simp [Op.apply])

def Leaves (n : Name) (bytes : List Byte) (ops : List (Op Name Byte)) : Prop :=
  ∀ d : Dir Name Byte, run d ops n = some bytes

theorem leaves_writeFile (n : Name) (bytes : List Byte) : Leaves n bytes (writeFile n bytes) :=
  fun _ ↦ run_writeFile bytes

theorem Leaves.append_left {bytes : List Byte} (h : Leaves n bytes ops')
    (ops : List (Op Name Byte)) : Leaves n bytes (ops ++ ops') := by
  intro d
  rw [run_append]
  exact h _

theorem Leaves.append_right {bytes : List Byte} (h : Leaves n bytes ops)
    (hframe : touches n ops' = false) : Leaves n bytes (ops ++ ops') := by
  intro d
  rw [run_append, run_of_untouched hframe]
  exact h d

namespace Script

variable {x : Script Name Byte ε α} {f : α → Script Name Byte ε β}

def Within (files : List Name) (x : Script Name Byte ε α) : Prop :=
  ∀ n, n ∉ files → touches n x.ops = false

theorem Within.ofExcept {files : List Name} (r : Except ε α) :
    (ofExcept r : Script Name Byte ε α).Within files := fun _ _ ↦ rfl

theorem Within.emit {files : List Name} {ops : List (Op Name Byte)}
    (h : ∀ op ∈ ops, op.target ∈ files) : (emit ops : Script Name Byte ε Unit).Within files := by
  intro n hn
  simp only [Script.emit, touches, List.any_eq_false, decide_eq_true_eq]
  intro op hop htarget
  exact hn (htarget ▸ h op hop)

theorem Within.mono {files files' : List Name} (h : x.Within files) (hsub : files ⊆ files') :
    x.Within files' := fun n hn ↦ h n fun hmem ↦ hn (hsub hmem)

theorem Within.bind {files : List Name} (hx : x.Within files) (hf : ∀ a, (f a).Within files) :
    (x >>= f).Within files := by
  intro n hn
  cases h : x.result with
  | ok a => rw [bind_of_ok h, touches_append, hx n hn, hf a n hn, Bool.or_self]
  | error e => rw [bind_of_error h, hx n hn]

theorem Within.tryCatch {files : List Name} {handler : ε → Script Name Byte ε α}
    (hx : x.Within files) (hh : ∀ e, (handler e).Within files) :
    Script.Within files (MonadExcept.tryCatch x handler) := by
  intro n hn
  cases h : x.result with
  | ok a => rw [tryCatch_of_ok h, hx n hn]
  | error e => rw [tryCatch_of_error h, touches_append, hx n hn, hh e n hn, Bool.or_self]

end Script

end BootyCall.Lib.FileOps
