import Mathlib.Logic.Function.Basic
import BootyCall.Lib.Runs
import BootyCall.Lib.WriteCache

namespace BootyCall.Led.Manager

open Lib.Runs Lib.WriteCache

inductive LedPath
  | blue
  | white
  deriving DecidableEq

/-- The brightness file of each LED, with what the manager remembers of it. -/
abbrev Leds := LedPath → Cell UInt8

/-- Not cached; the caller drops the error. -/
def setLed (leds : Leds) (led : LedPath) (value : UInt8) (ok : Bool) : Leds :=
  Function.update leds led ((leds led).overwrite value ok)

def setLedCached (leds : Leds) (led : LedPath) (value : UInt8) (ok : Bool) : Leds :=
  Function.update leds led ((leds led).put value ok)

def stopped : LedPath → UInt8
  | .blue => 0
  | .white => 255

/-- A write of the panic hook, and whether it succeeds. -/
structure HookWrite where
  led : LedPath
  ok : Bool
  deriving DecidableEq

def HookWrite.perform (leds : Leds) (w : HookWrite) : Leds := setLed leds w.led (stopped w.led) w.ok

def activateWhiteLed (okWhite okBlue : Bool) : List HookWrite := [⟨.white, okWhite⟩, ⟨.blue, okBlue⟩]

/-- What the manager does when it wakes up: after half a second, or because it is to stop. -/
inductive Task
  | tick (active : Bool)
  | shutdown

/-- The two writes of a task, by the phase of the blinking. -/
def Task.first (state : Bool) : Task → LedPath × UInt8
  | .tick active => (.blue, if active then if state then 255 else 0 else 255)
  | .shutdown => (.white, 255)

def Task.second : Task → LedPath × UInt8
  | .tick _ => (.white, 0)
  | .shutdown => (.blue, 0)

def Task.nextState (state : Bool) : Task → Bool
  | .tick active => if active then !state else true
  | .shutdown => state

def Task.running : Task → Bool
  | .tick _ => true
  | .shutdown => false

structure State where
  leds : Leds
  state : Bool
  running : Bool

/-- A task with the outcomes of its writes and the hook's writes between them, or a write of the
hook at another time. -/
inductive Event
  | task (t : Task) (okFirst : Bool) (between : List HookWrite) (okSecond : Bool)
  | hook (w : HookWrite)

def State.first (s : State) (t : Task) (okFirst : Bool) : Leds :=
  setLedCached s.leds (t.first s.state).1 (t.first s.state).2 okFirst

def State.task (s : State) (t : Task) (okFirst : Bool) (between : List HookWrite)
    (okSecond : Bool) : Leds :=
  setLedCached (between.foldl HookWrite.perform (s.first t okFirst)) t.second.1 t.second.2 okSecond

def step (s : State) : Event → State
  | .task t okFirst between okSecond =>
    if s.running then
      { leds := s.task t okFirst between okSecond
        state := t.nextState s.state
        running := t.running }
    else s
  | .hook w => { s with leds := w.perform s.leds }

def start (file : LedPath → UInt8) : State :=
  { leds := fun led ↦ .fresh (file led), state := false, running := true }

def State.Clean (s : State) (t : Task) (okFirst okSecond : Bool) : Prop :=
  ((s.leds (t.first s.state).1).last ≠ some (t.first s.state).2 → okFirst = true) ∧
    ((s.leds t.second.1).last ≠ some t.second.2 → okSecond = true)

def Intended : Event → State → Prop
  | .task t okFirst between okSecond, s =>
    s.running = true → s.Clean t okFirst okSecond →
      ((step s (.task t okFirst between okSecond)).leds (t.first s.state).1).value =
          (t.first s.state).2 ∧
        ((step s (.task t okFirst between okSecond)).leds t.second.1).value = t.second.2
  | .hook _, _ => True

/-- The write of a value is not skipped over another one that the hook has left. -/
def Spared (c : Cell UInt8) (v : UInt8) : Prop := c.last = some v → ∀ u, c.left = some u → u = v

/-- What the hook has left since the manager's own last write to a LED is not in the way of a write
that he skips, and between the two writes of a task the hook changes nothing either. -/
def Undisturbed : Event → State → Prop
  | .task t okFirst between okSecond, s =>
    s.running = true → s.Clean t okFirst okSecond →
      (if ⟨(t.first s.state).1, true⟩ ∈ between then stopped (t.first s.state).1 = (t.first s.state).2
        else Spared (s.leds (t.first s.state).1) (t.first s.state).2) ∧
      (if ⟨t.second.1, true⟩ ∈ between then
          (s.leds t.second.1).last = some t.second.2 → stopped t.second.1 = t.second.2
        else Spared (s.leds t.second.1) t.second.2)
  | .hook _, _ => True

variable {leds : Leds} {led : LedPath} {between : List HookWrite} {s : State} {t : Task}
  {okFirst okSecond : Bool}

theorem perform_apply (w : HookWrite) (leds : Leds) (led : LedPath) :
    w.perform leds led =
      if w = ⟨led, true⟩ then (leds led).overwrite (stopped led) true else leds led := by
  obtain ⟨path, ok⟩ := w
  rw [HookWrite.perform, setLed]
  by_cases hpath : led = path
  · rw [hpath, Function.update_self]
    cases ok <;> simp [Cell.overwrite]
  · rw [Function.update_of_ne hpath, if_neg]
    intro heq
    exact hpath (congrArg HookWrite.led heq).symm

theorem between_spec (between : List HookWrite) (leds : Leds) (led : LedPath) :
    (between.foldl HookWrite.perform leds led).last = (leds led).last ∧
      (⟨led, true⟩ ∈ between →
        (between.foldl HookWrite.perform leds led).value = stopped led ∧
          (between.foldl HookWrite.perform leds led).left = some (stopped led)) ∧
      (⟨led, true⟩ ∉ between → between.foldl HookWrite.perform leds led = leds led) := by
  induction between using List.reverseRecOn with
  | nil =>
    exact ⟨rfl, fun h ↦ absurd h List.not_mem_nil, fun _ ↦ rfl⟩
  | append_singleton between w ih =>
    obtain ⟨hlast, hmem, hnot⟩ := ih
    rw [List.foldl_append, List.foldl_cons, List.foldl_nil, perform_apply]
    by_cases hw : w = ⟨led, true⟩
    · rw [if_pos hw, Cell.overwrite_last]
      refine ⟨hlast, fun _ ↦ ⟨rfl, rfl⟩, ?_⟩
      intro h
      exact absurd (List.mem_append_right between (List.mem_singleton.mpr hw.symm)) h
    · have hiff : ⟨led, true⟩ ∈ between ++ [w] ↔ ⟨led, true⟩ ∈ between := by
        rw [List.mem_append, List.mem_singleton, or_iff_left (Ne.symm hw)]
      rw [if_neg hw, hiff]
      exact ⟨hlast, hmem, hnot⟩

theorem second_ne_first (t : Task) (state : Bool) : t.second.1 ≠ (t.first state).1 := by
  cases t <;> exact nofun

theorem step_task (hrunning : s.running = true) (t : Task) (okFirst : Bool)
    (between : List HookWrite) (okSecond : Bool) :
    (step s (.task t okFirst between okSecond)).leds = s.task t okFirst between okSecond := by
  rw [step, if_pos hrunning]

theorem task_first_iff (hclean : s.Clean t okFirst okSecond) :
    (s.task t okFirst between okSecond (t.first s.state).1).value = (t.first s.state).2 ↔
      if ⟨(t.first s.state).1, true⟩ ∈ between then
        stopped (t.first s.state).1 = (t.first s.state).2
      else Spared (s.leds (t.first s.state).1) (t.first s.state).2 := by
  obtain ⟨-, hmem, hnot⟩ :=
    between_spec between (s.first t okFirst) (t.first s.state).1
  rw [State.task, setLedCached, Function.update_of_ne (second_ne_first t s.state).symm]
  by_cases htouched : ⟨(t.first s.state).1, true⟩ ∈ between
  · rw [if_pos htouched, (hmem htouched).1]
  · rw [if_neg htouched, hnot htouched, State.first, setLedCached, Function.update_self]
    exact Cell.put_value_iff hclean.1

theorem task_second_iff (hclean : s.Clean t okFirst okSecond) :
    (s.task t okFirst between okSecond t.second.1).value = t.second.2 ↔
      if ⟨t.second.1, true⟩ ∈ between then
        (s.leds t.second.1).last = some t.second.2 → stopped t.second.1 = t.second.2
      else Spared (s.leds t.second.1) t.second.2 := by
  obtain ⟨hlast, hmem, hnot⟩ := between_spec between (s.first t okFirst) t.second.1
  have hsecond : s.first t okFirst t.second.1 = s.leds t.second.1 := by
    rw [State.first, setLedCached, Function.update_of_ne (second_ne_first t s.state)]
  rw [hsecond] at hlast hnot
  rw [State.task, setLedCached, Function.update_self,
    Cell.put_value_iff (by rw [hlast]; exact hclean.2), hlast]
  by_cases htouched : ⟨t.second.1, true⟩ ∈ between
  · rw [if_pos htouched, (hmem htouched).2]
    simp
  · rw [if_neg htouched, hnot htouched, Spared]

theorem intended_iff (e : Event) (s : State) : Intended e s ↔ Undisturbed e s := by
  cases e with
  | hook w => rfl
  | task t okFirst between okSecond =>
    rw [Intended, Undisturbed]
    refine imp_congr_right fun hrunning ↦ imp_congr_right fun hclean ↦ ?_
    rw [step_task hrunning, task_first_iff hclean, task_second_iff hclean]

def Quiet : Event → Prop
  | .task _ _ between _ => ∀ led, ⟨led, true⟩ ∉ between
  | .hook w => w.ok = false

/-- The hook has left nothing that the manager has not written over since. -/
def Clear (s : State) : Prop := ∀ led, (s.leds led).left = none

theorem clear_cached (h : ∀ led, (leds led).left = none) (path : LedPath) (value : UInt8)
    (ok : Bool) (led : LedPath) : (setLedCached leds path value ok led).left = none := by
  rw [setLedCached]
  by_cases hpath : led = path
  · rw [hpath, Function.update_self]
    exact Cell.put_left (h path) value ok
  · rw [Function.update_of_ne hpath]
    exact h led

theorem clear_step {e : Event} (h : Clear s) (hquiet : Quiet e) : Clear (step s e) := by
  cases e with
  | hook w =>
    intro led
    change (w.perform s.leds led).left = none
    rw [perform_apply, if_neg]
    · exact h led
    · rintro rfl
      cases hquiet
  | task t okFirst between okSecond =>
    by_cases hrunning : s.running = true
    · intro led
      rw [step_task hrunning, State.task]
      refine clear_cached ?_ ..
      intro led
      rw [(between_spec between (s.first t okFirst) led).2.2 (hquiet led)]
      exact clear_cached h ..
    · rw [step, if_neg hrunning]
      exact h

theorem undisturbed_of_clear {e : Event} (h : Clear s) (hquiet : Quiet e) : Undisturbed e s := by
  have hspared (led : LedPath) (v : UInt8) : Spared (s.leds led) v := by
    intro _ u hu
    rw [h led] at hu
    cases hu
  cases e with
  | hook w => trivial
  | task t okFirst between okSecond =>
    intro _ _
    rw [if_neg (hquiet _), if_neg (hquiet _)]
    exact ⟨hspared _ _, hspared _ _⟩

theorem intended_of_quiet (file : LedPath → UInt8) {events : List Event}
    (h : ∀ e ∈ events, Quiet e) : Throughout step (start file) events Intended := by
  have hquiet : Throughout step (start file) events fun e _ ↦ Quiet e :=
    throughout_of_forall fun e he _ ↦ h e he
  have hclear := hquiet.invariant Clear (fun _ ↦ rfl) fun e s hs he ↦ clear_step hs he
  exact (hclear.and hquiet).mono fun e s hs ↦
    (intended_iff e s).mpr (undisturbed_of_clear hs.1 hs.2)

/-- In a run the files follow the manager exactly as long as the hook does not disturb it. -/
theorem coherent_iff (file : LedPath → UInt8) (events : List Event) :
    Throughout step (start file) events Intended ↔
      Throughout step (start file) events Undisturbed :=
  throughout_congr intended_iff

theorem not_coherent :
    ¬∀ (file : LedPath → UInt8) (events : List Event),
      Throughout step (start file) events Intended := by
  intro h
  have hlast := h (fun led ↦ if led = .blue then 255 else 0)
    (.task (.tick false) true [] true :: (activateWhiteLed true true).map .hook ++
      [.task (.tick false) true [] true]) _ _ [] rfl rfl ⟨by decide, by decide⟩
  revert hlast
  decide

end BootyCall.Led.Manager
