import BootyCall.Service.Lifecycle

namespace BootyCall.Service.Lifecycle

open Led.Manager Lib.Rgb565 Oled.Panel Oled.RenderLoop

variable {Request : Type}

def Main.sentLed : Main → Bool
  | .stopping .sendLed _ => false
  | .stopping _ _ | .complete _ => true
  | _ => false

def Main.sentOled : Main → Bool
  | .stopping .joinLed _ | .stopping .joinOled _ | .complete _ => true
  | _ => false

def Main.joinedLed : Main → Bool
  | .stopping .joinOled _ | .complete _ => true
  | _ => false

def Main.up : Main → Bool
  | .waiting | .stopping _ _ | .complete _ => true
  | _ => false

def Main.isSetUp : Main → Bool
  | .starting | .failed => false
  | _ => true

/-- The message to the LED manager is sent once, and is in the queue until it is read; the manager
has ended when it is joined. -/
structure LedInv (main : Main) (queued : Bool) (led : Option Blinker) : Prop where
  up : main.up = true → led.isSome = true
  sent : main.sentLed = true ↔ queued = true ∨ ∃ b ∈ led, b.stopped = true
  once : queued = true → ∀ b ∈ led, b.stopped = false
  told : ∀ b ∈ led, b.told = true → main.sentLed = true
  short : ∀ b ∈ led, b.pending.length ≤ 2
  joined : main.joinedLed = true → ledOver led = true

def Blanked (s : LoopState Request) : Prop :=
  s.sink.2.getLast? = some .shuttingDown ∧
    (s.sink.1.fb.file = true → unpack s.sink.1.shown = black)

/-- The loop is a run of the display that nobody has stopped, or one that was stopped by the
flag. -/
def Drawn (setup : Setup Request) (flag : Bool) (loop : Loop Request) : Prop :=
  (∃ ticks, loop = .running (stateAfter setup.font setup.brightness setup.start ticks)) ∨
    flag = true ∧ ∃ s, loop = .stopped s ∧ Blanked s

/-- The display and its manager: the message is sent once, the flag is set when it is read, and the
manager waits for the thread. -/
structure DisplayInv (setup : Setup Request) (main : Main) (queued flag : Bool) (oled : OledManager)
    (loop : Option (Loop Request)) : Prop where
  starting : main = .starting → oled = .absent
  alone : oled = .absent → loop = none
  enabled : main.isSetUp = true → (oled = .absent ↔ setup.oledEnabled = false)
  shown : main.isSetUp = true → setup.oledEnabled = true → setup.spawns = true →
    setup.shouldRun = true → loop.isSome = true
  sent : main.sentOled = true → queued = true ∨ oled = .joining ∨ oled = .ended
  unsent : main.sentOled = false → queued = false ∧ oled ≠ .joining
  joining : oled = .joining → flag = true
  ended : oled = .ended → threadOver loop = true
  drawn : ∀ l ∈ loop, Drawn setup flag l
  joined : ∀ outcome, main = .complete outcome → oled = .absent ∨ oled = .ended

structure Inv (setup : Setup Request) (p : Process Request) : Prop where
  led : LedInv p.main p.ledShutdown p.led
  display : DisplayInv setup p.main p.oledShutdown p.flag p.oled p.loop

variable {setup : Setup Request} {p : Process Request} {main : Main} {queued : Bool}
  {led : Option Blinker}

theorem send_empty (closed : Bool) : send closed false = some (!closed) := by
  cases closed <;> rfl

theorem LedInv.congr {main' : Main} (h : LedInv main queued led) (hup : main'.up = main.up)
    (hsent : main'.sentLed = main.sentLed) (hjoined : main'.joinedLed = main.joinedLed) :
    LedInv main' queued led where
  up h' := h.up (hup ▸ h')
  sent := by rw [hsent, h.sent]
  once := h.once
  told := by simpa only [hsent] using h.told
  short := h.short
  joined h' := h.joined (hjoined ▸ h')

theorem ledOver_of_not_stopped {b : Blinker} (h : b.stopped = false) :
    ledOver (some b) = false := by
  simp [ledOver, Blinker.done, h]

theorem LedInv.unsent (h : LedInv main queued led) (hsent : main.sentLed = false) :
    queued = false ∧ ∀ b ∈ led, b.stopped = false ∧ b.told = false := by
  have hnot : ¬(queued = true ∨ ∃ b ∈ led, b.stopped = true) := by
    rw [← h.sent, hsent]
    exact Bool.false_ne_true
  refine ⟨Bool.eq_false_iff.mpr fun hq ↦ hnot (.inl hq), fun b hb ↦
    ⟨Bool.eq_false_iff.mpr fun hs ↦ hnot (.inr ⟨b, hb, hs⟩), Bool.eq_false_iff.mpr fun ht ↦ ?_⟩⟩
  have htold := h.told b hb ht
  rw [hsent] at htold
  cases htold

/-- The message to the LED manager never waits. -/
theorem LedInv.send_eq {outcome : Outcome} (h : LedInv (.stopping .sendLed outcome) queued led) :
    send (ledOver led) queued = some true := by
  obtain ⟨hempty, hstopped⟩ := h.unsent rfl
  obtain ⟨b, rfl⟩ := Option.isSome_iff_exists.mp (h.up rfl)
  rw [hempty, ledOver_of_not_stopped (hstopped b rfl).1]
  rfl

theorem ledInv_main (h : LedInv p.main p.ledShutdown p.led) (ok : Bool) (ending : Ending) :
    LedInv (p.mainStep setup ok ending).main (p.mainStep setup ok ending).ledShutdown
      (p.mainStep setup ok ending).led := by
  rw [Process.mainStep]
  split
  · next hmain =>
    rw [hmain] at h
    split <;> exact h.congr rfl rfl rfl
  · next hmain =>
    rw [hmain] at h
    split
    · rwa [hmain]
    · have hempty := (h.unsent rfl).1
      constructor <;> cases ok <;> simp [Main.up, Main.sentLed, Main.joinedLed, hempty, Blinker.new]
  · next hmain =>
    rw [hmain] at h
    split
    · rwa [hmain]
    · exact h.congr rfl rfl rfl
  · next outcome hmain =>
    rw [hmain] at h
    rw [h.send_eq]
    have hstopped := (h.unsent rfl).2
    exact {
      up := h.up
      sent := iff_of_true rfl (.inl rfl)
      once := fun _ b hb ↦ (hstopped b hb).1
      told := fun _ _ _ ↦ rfl
      short := h.short
      joined := nofun }
  · next hmain =>
    rw [hmain] at h
    split
    · rwa [hmain]
    · exact h.congr rfl rfl rfl
  · next hmain =>
    rw [hmain] at h
    split
    · next hover => exact { h with joined := fun _ ↦ hover }
    · rwa [hmain]
  · next hmain =>
    rw [hmain] at h
    split
    · exact h.congr rfl rfl rfl
    · rwa [hmain]
  · exact h
  · exact h

theorem ledInv_led (h : LedInv p.main p.ledShutdown p.led) (active prefers ok : Bool) :
    LedInv (p.ledStep active prefers ok).main (p.ledStep active prefers ok).ledShutdown
      (p.ledStep active prefers ok).led := by
  rw [Process.ledStep]
  split
  · exact h
  · next b hb =>
    rw [hb] at h
    split
    · next w rest hpending =>
      have hnot : p.main.joinedLed = true → False := by
        intro hjoined
        have hover := h.joined hjoined
        simp [ledOver, Blinker.done, hpending] at hover
      exact {
        up := fun _ ↦ rfl
        sent := by simpa [Blinker.written] using h.sent
        once := by simpa [Blinker.written] using h.once
        told := by
          intro b' hb' htold
          obtain rfl := Option.some.inj hb'
          exact h.sent.mpr (.inl htold)
        short := by
          intro b' hb'
          obtain rfl := Option.some.inj hb'
          have hshort := h.short b rfl
          rw [Blinker.written, List.length_tail]
          omega
        joined := fun h' ↦ absurd h' hnot }
    · next hpending =>
      split
      · next hstopped => rwa [hb]
      · next hstopped =>
        have hnot : p.main.joinedLed = true → False := by
          intro hjoined
          have hover := h.joined hjoined
          simp [ledOver, Blinker.done, hstopped] at hover
        rw [Blinker.wake]
        split
        · next hread =>
          have hqueued := (Bool.and_eq_true_iff.mp hread).1
          exact {
            up := fun _ ↦ rfl
            sent := iff_of_true (h.sent.mpr (.inl hqueued)) (.inr ⟨_, rfl, rfl⟩)
            once := fun h' ↦ absurd h' Bool.false_ne_true
            told := fun _ _ _ ↦ h.sent.mpr (.inl hqueued)
            short := by
              intro b' hb'
              obtain rfl := Option.some.inj hb'
              exact Nat.le_refl 2
            joined := fun h' ↦ absurd h' hnot }
        · exact {
            up := fun _ ↦ rfl
            sent := by simpa using h.sent
            once := by simpa using h.once
            told := by simpa using h.told
            short := by
              intro b' hb'
              obtain rfl := Option.some.inj hb'
              exact Nat.le_refl 2
            joined := fun h' ↦ absurd h' hnot }

variable {flag : Bool} {oled : OledManager} {loop : Option (Loop Request)}

theorem DisplayInv.congr {main' : Main} (h : DisplayInv setup main queued flag oled loop)
    (hstarting : main' ≠ .starting) (hsetUp : main'.isSetUp = true → main.isSetUp = true)
    (hsent : main'.sentOled = main.sentOled)
    (hjoined : ∀ outcome, main' = .complete outcome → oled = .absent ∨ oled = .ended) :
    DisplayInv setup main' queued flag oled loop where
  starting h' := absurd h' hstarting
  alone := h.alone
  enabled h' := h.enabled (hsetUp h')
  shown h' := h.shown (hsetUp h')
  sent h' := h.sent (hsent ▸ h')
  unsent h' := h.unsent (hsent ▸ h')
  joining := h.joining
  ended := h.ended
  drawn := h.drawn
  joined := hjoined

theorem DisplayInv.send_eq {outcome : Outcome}
    (h : DisplayInv setup (.stopping .sendOled outcome) queued flag oled loop) :
    send (decide (oled = .ended)) queued = some (!decide (oled = .ended)) := by
  rw [(h.unsent rfl).1, send_empty]

theorem Setup.oled_absent_iff (setup : Setup Request) :
    setup.oled = .absent ↔ setup.oledEnabled = false := by
  cases he : setup.oledEnabled <;> cases hs : setup.spawns <;> simp [Setup.oled, he, hs]

theorem Setup.oled_ne_joining (setup : Setup Request) : setup.oled ≠ .joining := by
  cases he : setup.oledEnabled <;> cases hs : setup.spawns <;> simp [Setup.oled, he, hs]

theorem Setup.loop_eq_none (setup : Setup Request) (h : setup.oled ≠ .waiting) :
    setup.loop = none := by
  cases he : setup.oledEnabled <;> cases hs : setup.spawns <;>
    simp_all [Setup.oled, Setup.loop]

theorem displayInv_main (h : DisplayInv setup p.main p.oledShutdown p.flag p.oled p.loop)
    (ok : Bool) (ending : Ending) :
    DisplayInv setup (p.mainStep setup ok ending).main (p.mainStep setup ok ending).oledShutdown
      (p.mainStep setup ok ending).flag (p.mainStep setup ok ending).oled
      (p.mainStep setup ok ending).loop := by
  rw [Process.mainStep]
  split
  · next hmain =>
    rw [hmain] at h
    split
    · exact {
        starting := nofun
        alone := fun (h' : setup.oled = .absent) ↦
          setup.loop_eq_none fun hw ↦ by rw [h'] at hw; cases hw
        enabled := fun _ ↦ setup.oled_absent_iff
        shown := fun _ he hs hr ↦ by simp [Setup.loop, he, hs, hr]
        sent := nofun
        unsent := fun _ ↦ ⟨(h.unsent rfl).1, setup.oled_ne_joining⟩
        joining := fun h' ↦ absurd h' setup.oled_ne_joining
        ended := fun (h' : setup.oled = .ended) ↦ by
          have hnone := setup.loop_eq_none fun hw ↦ by rw [h'] at hw; cases hw
          rw [hnone]
          rfl
        drawn := by
          intro l hl
          rw [Setup.loop] at hl
          split at hl
          · obtain rfl := Option.some.inj hl
            exact .inl ⟨[], rfl⟩
          · cases hl
        joined := nofun }
    · exact h.congr nofun nofun rfl nofun
  · next hmain =>
    rw [hmain] at h
    split
    · rwa [hmain]
    · cases ok
      · exact h.congr nofun nofun rfl nofun
      · exact h.congr nofun (fun _ ↦ rfl) rfl nofun
  · next hmain =>
    rw [hmain] at h
    split
    · rwa [hmain]
    · exact h.congr nofun (fun _ ↦ rfl) rfl nofun
  · next hmain =>
    rw [hmain] at h
    split
    · rwa [hmain]
    · exact h.congr nofun (fun _ ↦ rfl) rfl nofun
  · next outcome hmain =>
    rw [hmain] at h
    rw [h.send_eq]
    exact {
      starting := nofun
      alone := h.alone
      enabled := fun _ ↦ h.enabled rfl
      shown := fun _ ↦ h.shown rfl
      sent := by
        intro _
        by_cases hended : p.oled = .ended
        · exact .inr (.inr hended)
        · exact .inl (by simp [hended])
      unsent := nofun
      joining := h.joining
      ended := h.ended
      drawn := h.drawn
      joined := nofun }
  · next hmain =>
    rw [hmain] at h
    split
    · exact h.congr nofun (fun _ ↦ rfl) rfl nofun
    · rwa [hmain]
  · next hmain =>
    rw [hmain] at h
    split
    · next hjoined => exact h.congr nofun (fun _ ↦ rfl) rfl fun _ _ ↦ hjoined
    · rwa [hmain]
  · exact h
  · exact h

theorem Drawn.set {l : Loop Request} (h : Drawn setup flag l) : Drawn setup true l := by
  rcases h with hrunning | ⟨-, hstopped⟩
  · exact .inl hrunning
  · exact .inr ⟨rfl, hstopped⟩

theorem displayInv_oled (h : DisplayInv setup p.main p.oledShutdown p.flag p.oled p.loop) :
    DisplayInv setup p.oledStep.main p.oledStep.oledShutdown p.oledStep.flag p.oledStep.oled
      p.oledStep.loop := by
  rw [Process.oledStep]
  split
  · next holed =>
    rw [holed] at h
    split
    · next hqueued =>
      have hsent : p.main.sentOled ≠ false := by
        intro hsent
        have hempty := (h.unsent hsent).1
        rw [hqueued] at hempty
        cases hempty
      exact {
        starting := fun h' ↦ absurd (h.starting h') nofun
        alone := nofun
        enabled := fun h' ↦ iff_of_false nofun fun he ↦ absurd ((h.enabled h').mpr he) nofun
        shown := h.shown
        sent := fun _ ↦ .inr (.inl rfl)
        unsent := fun h' ↦ absurd h' hsent
        joining := fun _ ↦ rfl
        ended := nofun
        drawn := fun l hl ↦ (h.drawn l hl).set
        joined := fun outcome ho ↦ absurd (h.joined outcome ho) (by simp) }
    · rwa [holed]
  · next holed =>
    rw [holed] at h
    split
    · next hover =>
      exact {
        starting := fun h' ↦ absurd (h.starting h') nofun
        alone := nofun
        enabled := fun h' ↦ iff_of_false nofun fun he ↦ absurd ((h.enabled h').mpr he) nofun
        shown := h.shown
        sent := fun _ ↦ .inr (.inr rfl)
        unsent := fun h' ↦ absurd rfl (h.unsent h').2
        joining := nofun
        ended := fun _ ↦ hover
        drawn := h.drawn
        joined := fun _ _ ↦ .inr rfl }
    · rwa [holed]
  · exact h
  · exact h

theorem blanked (s : LoopState Request) (device : Device) : Blanked (s.shutDown device) := by
  obtain ⟨hlog, hblack⟩ := shutDown_spec s device
  refine ⟨?_, hblack⟩
  rw [hlog, List.getLast?_concat]

theorem Drawn.step {l : Loop Request} (h : Drawn setup flag l) (t : Tick Request)
    (device : Device) :
    Drawn setup flag (l.step setup.font setup.brightness
      { t with shutdown := if flag then some device else none }) := by
  rcases h with ⟨ticks, rfl⟩ | ⟨hflag, s, rfl, hblanked⟩
  · rw [stepLoop_spec]
    cases flag with
    | false => exact .inl ⟨_, rfl⟩
    | true => exact .inr ⟨rfl, _, rfl, blanked _ device⟩
  · exact .inr ⟨hflag, s, rfl, hblanked⟩

theorem threadOver_step (h : threadOver loop = true) (font : Oled.Drawing.Font)
    (brightness : UInt8) (t : Tick Request) :
    threadOver (loop.map fun l ↦ l.step font brightness t) = true := by
  cases loop with
  | none => rfl
  | some l =>
    cases l with
    | running s => cases h
    | stopped s => rfl
    | panicked => rfl

theorem displayInv_render (h : DisplayInv setup p.main p.oledShutdown p.flag p.oled p.loop)
    (t : Tick Request) (device : Device) :
    DisplayInv setup p.main p.oledShutdown p.flag p.oled (p.renderStep setup t device).loop where
  starting := h.starting
  alone h' := by rw [Process.renderStep, h.alone h', Option.map_none]
  enabled := h.enabled
  shown h' he hs hr := by
    rw [Process.renderStep, Option.isSome_map]
    exact h.shown h' he hs hr
  sent := h.sent
  unsent := h.unsent
  joining := h.joining
  ended h' := threadOver_step (h.ended h') ..
  drawn l hl := by
    obtain ⟨l, hold, rfl⟩ := Option.map_eq_some_iff.mp hl
    exact (h.drawn l hold).step t device
  joined := h.joined

theorem blinkStep_frame (p : Process Request) (prefers ok : Bool) :
    ∃ blink stop leds, p.blinkStep prefers ok = { p with blink, stop, leds } := by
  rw [Process.blinkStep]
  split
  · exact ⟨_, _, _, rfl⟩
  · split
    · exact ⟨_, _, _, rfl⟩
    · exact ⟨_, _, _, rfl⟩

theorem ledStep_frame (p : Process Request) (active prefers ok : Bool) :
    ∃ led ledShutdown leds, p.ledStep active prefers ok = { p with led, ledShutdown, leds } := by
  rw [Process.ledStep]
  split
  · exact ⟨_, _, _, rfl⟩
  · split
    · exact ⟨_, _, _, rfl⟩
    · split
      · exact ⟨_, _, _, rfl⟩
      · exact ⟨_, _, _, rfl⟩

theorem oledStep_frame (p : Process Request) :
    ∃ oled oledShutdown flag, p.oledStep = { p with oled, oledShutdown, flag } := by
  rw [Process.oledStep]
  split
  · split <;> exact ⟨_, _, _, rfl⟩
  · split <;> exact ⟨_, _, _, rfl⟩
  · exact ⟨_, _, _, rfl⟩
  · exact ⟨_, _, _, rfl⟩

theorem exitStep_frame (p : Process Request) (server : Server) (how : Exit) :
    ∃ exited, p.exitStep server how = { p with exited } := by
  rw [Process.exitStep]
  split
  · exact ⟨_, rfl⟩
  · exact ⟨_, rfl⟩

theorem inv_start (setup : Setup Request) (file : LedPath → UInt8) :
    Inv setup (start Request file) where
  led := by constructor <;> simp [start, Main.up, Main.sentLed, Main.joinedLed]
  display := by
    constructor <;> simp [start, Main.isSetUp, Main.sentOled]

theorem inv_step (h : Inv setup p) (e : Event Request) : Inv setup (step setup p e) := by
  unfold step
  split
  · exact h
  · cases e with
    | main ok ending => exact ⟨ledInv_main h.led ok ending, displayInv_main h.display ok ending⟩
    | blink prefers ok =>
      obtain ⟨blink, stop, leds, hframe⟩ := blinkStep_frame p prefers ok
      simp only [hframe]
      exact ⟨h.led, h.display⟩
    | led active prefers ok =>
      have hled := ledInv_led h.led active prefers ok
      obtain ⟨led, ledShutdown, leds, hframe⟩ := ledStep_frame p active prefers ok
      simp only [hframe] at hled ⊢
      exact ⟨hled, h.display⟩
    | oled =>
      have hdisplay := displayInv_oled h.display
      obtain ⟨oled, oledShutdown, flag, hframe⟩ := oledStep_frame p
      simp only [hframe] at hdisplay ⊢
      exact ⟨h.led, hdisplay⟩
    | render t device => exact ⟨h.led, displayInv_render h.display t device⟩
    | exit server how =>
      obtain ⟨exited, hframe⟩ := exitStep_frame p server how
      simp only [hframe]
      exact ⟨h.led, h.display⟩
    | hook w => exact ⟨h.led, h.display⟩

theorem inv_run (setup : Setup Request) (file : LedPath → UInt8) (events : List (Event Request)) :
    Inv setup (run setup file events) := by
  induction events using List.reverseRecOn with
  | nil => exact inv_start setup file
  | append_singleton events e ih =>
    rw [run, List.foldl_append]
    exact inv_step ih e

end BootyCall.Service.Lifecycle
