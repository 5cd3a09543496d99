import BootyCall.Lib.Turns
import BootyCall.Service.Invariant

namespace BootyCall.Service.Lifecycle

open Led.Manager Lib.Turns Oled.Panel Oled.RenderLoop

variable {Request : Type}

inductive Party
  | main
  | led
  | oled
  | render

def Event.party : Event Request → Option Party
  | .main _ _ => some .main
  | .led _ _ _ => some .led
  | .oled => some .oled
  | .render _ _ => some .render
  | _ => none

def Main.stoppingWith (outcome : Outcome) (main : Main) : Prop :=
  (∃ stage, main = .stopping stage outcome) ∨ main = .complete outcome

def Stage.rest : Stage → ℕ
  | .sendLed => 4
  | .sendOled => 3
  | .joinLed => 2
  | .joinOled => 1

def Main.rest : Main → ℕ
  | .stopping stage _ => stage.rest
  | _ => 0

/-- The manager may tick once more when it is told to stop during its wait. -/
def ledRest (queued : Bool) : Option Blinker → ℕ
  | none => 0
  | some b =>
    if b.stopped then b.pending.length
    else if queued then
      if b.pending.isEmpty then if b.told then 3 else 6 else b.pending.length + 3
    else 6

def OledManager.rest : OledManager → ℕ
  | .waiting => 2
  | .joining => 1
  | .absent | .ended => 0

/-- How many steps the end of the process still takes. -/
def Process.rest (p : Process Request) : ℕ :=
  p.main.rest + ledRest p.ledShutdown p.led + p.oled.rest + if threadOver p.loop then 0 else 1

def Process.helper (p : Process Request) : Party :=
  match p.main with
  | .stopping .joinLed _ => if ledOver p.led then .main else .led
  | .stopping .joinOled _ =>
    match p.oled with
    | .absent | .ended => .main
    | .waiting => .oled
    | .joining => if threadOver p.loop then .oled else .render
  | _ => .main

variable {setup : Setup Request} {p : Process Request} {main : Main} {queued : Bool}
  {led : Option Blinker}

theorem ledRest_le (h : ∀ b ∈ led, b.pending.length ≤ 2) (queued : Bool) :
    ledRest queued led ≤ 6 := by
  cases led with
  | none => exact Nat.zero_le _
  | some b =>
    have hshort := h b rfl
    rw [ledRest]
    split
    · omega
    · split
      · split
        · split <;> omega
        · omega
      · exact Nat.le_refl _

theorem ledRest_unsent (h : LedInv main queued led) (hup : main.up = true)
    (hsent : main.sentLed = false) : ledRest queued led = 6 := by
  obtain ⟨hempty, hstopped⟩ := h.unsent hsent
  obtain ⟨b, hb⟩ := Option.isSome_iff_exists.mp (h.up hup)
  rw [hb, hempty, ledRest, (hstopped b hb).1]
  rfl

theorem ledRest_over (h : ledOver led = true) : ledRest queued led = 0 := by
  cases led with
  | none => rfl
  | some b =>
    obtain ⟨hstopped, hempty⟩ := Bool.and_eq_true_iff.mp h
    rw [ledRest, if_pos hstopped, List.isEmpty_iff.mp hempty]
    rfl

theorem rest_over {outcome : Outcome} (h : Inv setup p) (hmain : p.main = .complete outcome) :
    p.rest = 0 := by
  have hled : ledRest p.ledShutdown p.led = 0 := ledRest_over (h.led.joined (by rw [hmain]; rfl))
  have hthread : threadOver p.loop = true := by
    rcases h.display.joined outcome hmain with holed | holed
    · rw [h.display.alone holed]
      rfl
    · exact h.display.ended holed
  have holed : p.oled.rest = 0 := by
    rcases h.display.joined outcome hmain with holed | holed <;> rw [holed] <;> rfl
  rw [Process.rest, hmain, hled, holed, if_pos hthread]
  rfl

theorem rest_main {outcome : Outcome} (h : Inv setup p) {stage : Stage}
    (hmain : p.main = .stopping stage outcome) (ok : Bool) (ending : Ending) :
    (p.mainStep setup ok ending).main.stoppingWith outcome ∧
      ((p.mainStep setup ok ending).rest < p.rest ∨
        p.mainStep setup ok ending = p ∧ p.helper ≠ .main) := by
  obtain ⟨hled, hdisplay⟩ := h
  rw [hmain] at hled hdisplay
  cases stage with
  | sendLed =>
    have hbefore := ledRest_unsent hled rfl rfl
    have hafter := ledRest_le hled.short true
    simp only [Process.mainStep, hmain, hled.send_eq]
    refine ⟨.inl ⟨_, rfl⟩, .inl ?_⟩
    simp only [Process.rest, hmain, Main.rest, Stage.rest, hbefore]
    omega
  | sendOled =>
    simp only [Process.mainStep, hmain, hdisplay.send_eq]
    refine ⟨.inl ⟨_, rfl⟩, .inl ?_⟩
    simp only [Process.rest, hmain, Main.rest, Stage.rest]
    omega
  | joinLed =>
    simp only [Process.mainStep, hmain]
    split
    · refine ⟨.inl ⟨_, rfl⟩, .inl ?_⟩
      simp only [Process.rest, hmain, Main.rest, Stage.rest]
      omega
    · next hover =>
      refine ⟨.inl ⟨_, hmain⟩, .inr ⟨rfl, ?_⟩⟩
      simp only [Process.helper, hmain, if_neg hover]
      simp
  | joinOled =>
    simp only [Process.mainStep, hmain]
    split
    · refine ⟨.inr rfl, .inl ?_⟩
      simp only [Process.rest, hmain, Main.rest, Stage.rest]
      omega
    · next holed =>
      refine ⟨.inl ⟨_, hmain⟩, .inr ⟨rfl, ?_⟩⟩
      simp only [Process.helper, hmain]
      split
      · next habsent => exact absurd (.inl habsent) holed
      · next hended => exact absurd (.inr hended) holed
      · simp
      · split <;> simp

theorem ledRest_step (h : LedInv p.main p.ledShutdown p.led) (hsent : p.main.sentLed = true)
    (hover : ¬ledOver p.led = true) (active prefers ok : Bool) :
    ledRest (p.ledStep active prefers ok).ledShutdown (p.ledStep active prefers ok).led <
      ledRest p.ledShutdown p.led := by
  cases hb : p.led with
  | none =>
    rw [hb] at hover
    exact absurd rfl hover
  | some b =>
    rw [hb] at h hover
    have hqueued (hstopped : ¬b.stopped = true) : p.ledShutdown = true := by
      rcases h.sent.mp hsent with hq | ⟨b', hb', hs⟩
      · exact hq
      · obtain rfl := Option.some.inj hb'
        exact absurd hs hstopped
    simp only [Process.ledStep, hb]
    split
    · next w rest hpending =>
      by_cases hstopped : b.stopped = true
      · simp [ledRest, Blinker.written, hstopped, hpending]
      · simp only [ledRest, Blinker.written, if_neg hstopped, hqueued hstopped, hpending,
          List.tail_cons, if_pos, List.isEmpty_cons, List.length_cons]
        cases rest with
        | nil => simp
        | cons w' rest => simp
    · next hpending =>
      have hstopped : ¬b.stopped = true := by
        intro hstopped
        exact hover (by simp [ledOver, Blinker.done, hstopped, hpending])
      rw [if_neg hstopped, Blinker.wake]
      split
      · next hread =>
        simp only [ledRest, if_neg hstopped, hqueued hstopped, hpending, List.isEmpty_nil, if_pos]
        split <;> simp [taskWrites]
      · next hread =>
        have htold : ¬b.told = true := by
          intro htold
          exact hread (by simp [hqueued hstopped, htold])
        simp [ledRest, hstopped, hqueued hstopped, hpending, htold, taskWrites]

theorem ledStep_over (h : ledOver p.led = true) (active prefers ok : Bool) :
    p.ledStep active prefers ok = p := by
  rw [Process.ledStep]
  split
  · rfl
  · next b hb =>
    rw [hb] at h
    obtain ⟨hstopped, hempty⟩ := Bool.and_eq_true_iff.mp h
    rw [List.isEmpty_iff.mp hempty]
    simp only [if_pos hstopped]

theorem helper_led (h : p.helper = .led) : ¬ledOver p.led = true := by
  intro hover
  rw [Process.helper] at h
  split at h
  · rw [if_pos hover] at h
    cases h
  · split at h
    · cases h
    · cases h
    · cases h
    · split at h <;> cases h
  · cases h

theorem helper_oled (h : p.helper = .oled) : p.main.sentOled = true ∧
    (p.oled = .waiting ∨ p.oled = .joining ∧ threadOver p.loop = true) := by
  rw [Process.helper] at h
  split at h
  · split at h <;> cases h
  · next hmain =>
    refine ⟨by rw [hmain]; rfl, ?_⟩
    split at h
    · cases h
    · cases h
    · next holed => exact .inl holed
    · next holed =>
      split at h
      · next hover => exact .inr ⟨holed, hover⟩
      · cases h
  · cases h

theorem helper_render (h : p.helper = .render) :
    p.oled = .joining ∧ ¬threadOver p.loop = true := by
  rw [Process.helper] at h
  split at h
  · split at h <;> cases h
  · split at h
    · cases h
    · cases h
    · cases h
    · next holed =>
      split at h
      · cases h
      · next hover => exact ⟨holed, hover⟩
  · cases h

theorem rest_led {outcome : Outcome} (h : Inv setup p) {stage : Stage}
    (hmain : p.main = .stopping stage outcome) (active prefers ok : Bool) :
    (p.ledStep active prefers ok).rest < p.rest ∨
      (p.ledStep active prefers ok).rest = p.rest ∧ p.helper ≠ .led ∧
        (p.ledStep active prefers ok).helper = p.helper := by
  have hafter := ledInv_led h.led active prefers ok
  obtain ⟨led, ledShutdown, leds, hframe⟩ := ledStep_frame p active prefers ok
  by_cases hover : ledOver p.led = true
  · rw [ledStep_over hover]
    exact .inr ⟨rfl, fun hhelper ↦ helper_led hhelper hover, rfl⟩
  · cases hsent : p.main.sentLed with
    | false =>
      have hstage : stage = .sendLed := by
        rw [hmain] at hsent
        cases stage <;> first | rfl | cases hsent
      have hbefore := ledRest_unsent h.led (by rw [hmain]; rfl) hsent
      have hlater := ledRest_unsent hafter (by rw [hframe, hmain]; rfl)
        (by rw [hframe]; exact hsent)
      rw [hframe] at hlater ⊢
      refine .inr ⟨?_, ?_, ?_⟩
      · simp only [Process.rest, hbefore, hlater]
      · simp only [Process.helper, hmain, hstage]
        exact nofun
      · simp only [Process.helper, hmain, hstage]
    | true =>
      have hless := ledRest_step h.led hsent hover active prefers ok
      rw [hframe] at hless ⊢
      refine .inl ?_
      simp only [Process.rest]
      exact Nat.add_lt_add_right (Nat.add_lt_add_right (Nat.add_lt_add_left hless _) _) _

theorem rest_oled (h : Inv setup p) :
    p.oledStep.rest < p.rest ∨ p.oledStep = p ∧ p.helper ≠ .oled := by
  rw [Process.oledStep]
  split
  · next holed =>
    split
    · refine .inl ?_
      simp only [Process.rest, holed, OledManager.rest]
      omega
    · next hempty =>
      refine .inr ⟨rfl, fun hhelper ↦ ?_⟩
      have hsent := (helper_oled hhelper).1
      rcases h.display.sent hsent with hqueued | hjoining | hended
      · exact hempty hqueued
      · rw [holed] at hjoining
        cases hjoining
      · rw [holed] at hended
        cases hended
  · next holed =>
    split
    · refine .inl ?_
      simp only [Process.rest, holed, OledManager.rest]
      omega
    · next hthread =>
      refine .inr ⟨rfl, fun hhelper ↦ ?_⟩
      rcases (helper_oled hhelper).2 with hwaiting | hover
      · rw [holed] at hwaiting
        cases hwaiting
      · exact hthread hover.2
  · next holed =>
    refine .inr ⟨rfl, fun hhelper ↦ ?_⟩
    have hother := (helper_oled hhelper).2
    simp [holed] at hother
  · next holed =>
    refine .inr ⟨rfl, fun hhelper ↦ ?_⟩
    have hother := (helper_oled hhelper).2
    simp [holed] at hother

/-- The thread ends in the round in which it sees the flag. -/
theorem threadOver_running (h : DisplayInv setup p.main p.oledShutdown p.flag p.oled p.loop)
    (hover : ¬threadOver p.loop = true) (t : Tick Request) (device : Device) :
    threadOver (p.renderStep setup t device).loop = p.flag := by
  rw [Process.renderStep]
  cases hloop : p.loop with
  | none =>
    rw [hloop] at hover
    exact absurd rfl hover
  | some l =>
    rcases h.drawn l hloop with ⟨ticks, rfl⟩ | ⟨-, s, rfl, -⟩
    · rw [Option.map_some, stepLoop_spec]
      cases p.flag <;> rfl
    · rw [hloop] at hover
      exact absurd rfl hover

theorem rest_render (h : Inv setup p) (t : Tick Request) (device : Device) :
    (p.renderStep setup t device).rest < p.rest ∨
      (p.renderStep setup t device).rest = p.rest ∧ p.helper ≠ .render ∧
        (p.renderStep setup t device).helper = p.helper := by
  have hsame (hthread : threadOver (p.renderStep setup t device).loop = threadOver p.loop) :
      (p.renderStep setup t device).rest = p.rest ∧
        (p.renderStep setup t device).helper = p.helper := by
    rw [Process.rest, Process.rest, Process.helper, Process.helper, hthread]
    exact ⟨rfl, rfl⟩
  by_cases hover : threadOver p.loop = true
  · have hthread : threadOver (p.renderStep setup t device).loop = true := threadOver_step hover ..
    obtain ⟨hrest, hhelper⟩ := hsame (hthread.trans hover.symm)
    exact .inr ⟨hrest, fun hrender ↦ (helper_render hrender).2 hover, hhelper⟩
  · have hafter : threadOver (p.renderStep setup t device).loop = p.flag :=
      threadOver_running h.display hover t device
    cases hflag : p.flag with
    | false =>
      have hrunning : p.flag = threadOver p.loop := hflag.trans (Bool.eq_false_iff.mpr hover).symm
      obtain ⟨hrest, hhelper⟩ := hsame (hafter.trans hrunning)
      refine .inr ⟨hrest, fun hrender ↦ ?_, hhelper⟩
      have hset := h.display.joining (helper_render hrender).1
      rw [hflag] at hset
      cases hset
    | true =>
      rw [hflag] at hafter
      refine .inl ?_
      rw [Process.rest, Process.rest, if_pos hafter, if_neg hover]
      exact Nat.lt_succ_self _

theorem progress {outcome : Outcome} (h : Inv setup p) (hstop : p.main.stoppingWith outcome)
    (e : Event Request) : (step setup p e).main.stoppingWith outcome ∧
      ((step setup p e).rest < p.rest ∨ (step setup p e).rest = p.rest ∧
        (0 < p.rest → e.party ≠ some p.helper) ∧ (step setup p e).helper = p.helper) := by
  unfold step
  rcases hstop with ⟨stage, hmain⟩ | hmain
  · rw [if_neg (by rw [hmain]; exact Bool.false_ne_true)]
    have hkept : p.main.stoppingWith outcome := .inl ⟨stage, hmain⟩
    cases e with
    | main ok ending =>
      obtain ⟨hstop, hless | ⟨hsame, hhelper⟩⟩ := rest_main h hmain ok ending
      · exact ⟨hstop, .inl hless⟩
      · exact ⟨hstop, .inr ⟨congrArg Process.rest hsame,
          fun _ heq ↦ hhelper (Option.some.inj heq).symm, congrArg Process.helper hsame⟩⟩
    | blink prefers ok =>
      obtain ⟨blink, stop, leds, hframe⟩ := blinkStep_frame p prefers ok
      simp only [hframe]
      exact ⟨hkept, .inr ⟨rfl, fun _ ↦ nofun, rfl⟩⟩
    | led active prefers ok =>
      have hrest := rest_led h hmain active prefers ok
      obtain ⟨led, ledShutdown, leds, hframe⟩ := ledStep_frame p active prefers ok
      simp only [hframe] at hrest ⊢
      refine ⟨hkept, ?_⟩
      rcases hrest with hless | ⟨hsame, hother, hhelper⟩
      · exact .inl hless
      · exact .inr ⟨hsame, fun _ heq ↦ hother (Option.some.inj heq).symm, hhelper⟩
    | oled =>
      refine ⟨?_, ?_⟩
      · obtain ⟨oled, oledShutdown, flag, hframe⟩ := oledStep_frame p
        simp only [hframe]
        exact hkept
      · rcases rest_oled h with hless | ⟨hsame, hother⟩
        · exact .inl hless
        · exact .inr ⟨congrArg Process.rest hsame,
            fun _ heq ↦ hother (Option.some.inj heq).symm, congrArg Process.helper hsame⟩
    | render t device =>
      refine ⟨hkept, ?_⟩
      rcases rest_render h t device with hless | ⟨hsame, hother, hhelper⟩
      · exact .inl hless
      · exact .inr ⟨hsame, fun _ heq ↦ hother (Option.some.inj heq).symm, hhelper⟩
    | exit server how =>
      obtain ⟨exited, hframe⟩ := exitStep_frame p server how
      simp only [hframe]
      exact ⟨hkept, .inr ⟨rfl, fun _ ↦ nofun, rfl⟩⟩
    | hook w => exact ⟨hkept, .inr ⟨rfl, fun _ ↦ nofun, rfl⟩⟩
  · rw [if_pos (by rw [hmain]; rfl)]
    refine ⟨.inr hmain, .inr ⟨rfl, fun hpos ↦ ?_, rfl⟩⟩
    rw [rest_over h hmain] at hpos
    exact absurd hpos (Nat.lt_irrefl 0)

theorem helpful (setup : Setup Request) (outcome : Outcome) :
    Helpful (step setup) Event.party (fun p ↦ Inv setup p ∧ p.main.stoppingWith outcome)
      Process.rest Process.helper where
  keeps _ e h := ⟨inv_step h.1 e, (progress h.1 h.2 e).1⟩
  progress _ e h := (progress h.1 h.2 e).2

theorem rest_le {outcome : Outcome} (h : Inv setup p) {stage : Stage}
    (hmain : p.main = .stopping stage outcome) : p.rest ≤ 13 := by
  have hstage : stage.rest ≤ 4 := by cases stage <;> decide
  have hled := ledRest_le h.led.short p.ledShutdown
  have holed : p.oled.rest ≤ 2 := by cases p.oled <;> decide
  rw [Process.rest, hmain, Main.rest]
  split <;> omega

/-- Once the process has begun to end, it ends with that outcome as soon as the tasks it waits for
have had their turns, whatever else happens in between. -/
theorem shuts_down (setup : Setup Request) (file : LedPath → UInt8)
    (events : List (Event Request)) (stage : Stage) (outcome : Outcome)
    (hstopping : (run setup file events).main = .stopping stage outcome)
    (turns : List (List (Event Request))) (hturns : ∀ turn ∈ turns, Turn Event.party turn)
    (hlength : 13 ≤ turns.length) :
    (run setup file (events ++ turns.flatten)).main = .complete outcome := by
  have hinv := inv_run setup file events
  have hstop : (run setup file events).main.stoppingWith outcome := .inl ⟨stage, hstopping⟩
  have hzero := (helpful setup outcome).rest_turns ⟨hinv, hstop⟩ turns hturns
    (Nat.le_trans (rest_le hinv hstopping) hlength)
  have hend := ((helpful setup outcome).keeps_run ⟨hinv, hstop⟩ turns.flatten).2
  rw [run, List.foldl_append]
  rcases hend with ⟨stage, hmain⟩ | hmain
  · rw [Process.rest, hmain, Main.rest] at hzero
    cases stage <;> rw [Stage.rest] at hzero <;> omega
  · exact hmain

def headless : Setup Unit where
  font := inkless
  brightness := 255
  oledEnabled := true
  spawns := true
  shouldRun := false
  start := ⟨0, 0, 0, 0, none, none, true, []⟩

def upAndDown : List (Event Unit) :=
  [.main true .interrupt, .main true .interrupt, .blink true true, .blink true true,
    .blink true true, .exit .tftp (.returned (.error ["no socket"])), .main true (.server .tftp)]

def sampleTurn : List (Event Unit) :=
  [.main true .interrupt, .led true true true, .oled, .render (quiet 1 none) ⟨true, none⟩]

theorem shuts_down_tftp :
    (run headless (fun _ ↦ 0) (upAndDown ++ (List.replicate 13 sampleTurn).flatten)).main =
      .complete (.error ["TFTP server fatal error", "no socket"]) := by
  refine shuts_down headless (fun _ ↦ 0) upAndDown .sendLed _ rfl _ (fun turn hturn ↦ ?_) (by simp)
  obtain rfl := List.eq_of_mem_replicate hturn
  intro party
  cases party <;> simp [sampleTurn, Event.party]

end BootyCall.Service.Lifecycle
