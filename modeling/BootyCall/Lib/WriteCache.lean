import Mathlib.Data.Option.Basic

namespace BootyCall.Lib.WriteCache

/-- A value that its owner writes, except where he remembers to have written it already; others
write it past him. What they have left there since his last write is kept for the statements. -/
structure Cell (α : Type) where
  value : α
  last : Option α
  left : Option α
  value_of_left : ∀ u, left = some u → value = u
  value_of_last : left = none → ∀ v, last = some v → value = v

namespace Cell

variable {α : Type} {v : α} {ok : Bool}

def fresh (value : α) : Cell α where
  value := value
  last := none
  left := none
  value_of_left _ h := nomatch h
  value_of_last _ _ h := nomatch h

def overwrite (c : Cell α) (v : α) (ok : Bool) : Cell α :=
  if ok then
    { value := v
      last := c.last
      left := some v
      value_of_left := fun _ h ↦ Option.some.inj h
      value_of_last := fun h ↦ nomatch h }
  else c

@[simp]
theorem overwrite_last (c : Cell α) (v : α) (ok : Bool) : (c.overwrite v ok).last = c.last := by
  rw [overwrite]
  split <;> rfl

variable [DecidableEq α]

/-- A write of the owner; what is remembered already is not written again, and only a success is
remembered. -/
def put (c : Cell α) (v : α) (ok : Bool) : Cell α :=
  if c.last = some v then c
  else if ok then
    { value := v
      last := some v
      left := none
      value_of_left := fun _ h ↦ nomatch h
      value_of_last := fun _ _ h ↦ Option.some.inj h }
  else c

theorem put_skip {c : Cell α} (h : c.last = some v) (ok : Bool) : c.put v ok = c := if_pos h

theorem put_left {c : Cell α} (h : c.left = none) (v : α) (ok : Bool) :
    (c.put v ok).left = none := by
  rw [put]
  split
  · exact h
  · split
    · rfl
    · exact h

/-- A write that does not fail makes its value the one in place, unless it is skipped over what
others have left. -/
theorem put_value_iff {c : Cell α} (hok : c.last ≠ some v → ok = true) :
    (c.put v ok).value = v ↔ (c.last = some v → ∀ u, c.left = some u → u = v) := by
  by_cases hskip : c.last = some v
  · rw [put_skip hskip]
    constructor
    · rintro hvalue - u hleft
      rw [← c.value_of_left u hleft, hvalue]
    · intro hleft
      cases h : c.left with
      | none => exact c.value_of_last h v hskip
      | some u => rw [c.value_of_left u h, hleft hskip u h]
  · rw [put, if_neg hskip, if_pos (hok hskip)]
    exact ⟨fun _ h ↦ absurd h hskip, fun _ ↦ rfl⟩

end Cell

end BootyCall.Lib.WriteCache
