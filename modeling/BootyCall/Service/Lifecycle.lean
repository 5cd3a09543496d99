import BootyCall.Led.Manager
import BootyCall.Oled.RenderLoop

namespace BootyCall.Service.Lifecycle

open Led.Manager Oled.Drawing Oled.Panel Oled.RenderLoop

abbrev Write := LedPath × UInt8

/-- A send into a queue with one place: it goes on if nobody listens any more, and it waits (`none`)
while the place is taken. -/
def send (closed queued : Bool) : Option Bool :=
  if closed then some queued else if queued then none else some true

/-- A task that changes the LEDs every half second until it is told to stop, between two writes:
the ones it has yet to make, and whether it had been told already when it began to wait. -/
structure Blinker where
  state : Bool
  pending : List Write
  told : Bool
  stopped : Bool
  deriving DecidableEq

namespace Blinker

def new : Blinker := ⟨false, [], false, false⟩

def done (b : Blinker) : Bool := b.stopped && b.pending.isEmpty

/-- The end of the wait. A message that was there from the start comes before the half second; one
that comes during it may come at its very end. The second result is the queue. -/
def wake (b : Blinker) (queued prefers : Bool) (tick last : List Write) (next : Bool) :
    Blinker × Bool :=
  if queued && (b.told || prefers) then ({ b with pending := last, stopped := true }, false)
  else ({ b with pending := tick, state := next }, queued)

def written (b : Blinker) (queued : Bool) : Blinker :=
  { b with pending := b.pending.tail, told := queued }

end Blinker

def activateBlueLed : List Write := [(.blue, 255), (.white, 0)]

/-- The writes of `run_boot_blink` when its half second is over. -/
def bootBlink (state : Bool) : List Write :=
  if state then [(.white, 255), (.blue, 0)] else [(.white, 0), (.blue, 0)]

def taskWrites (state : Bool) (t : Task) : List Write := [t.first state, t.second]

inductive OledManager
  | absent
  | waiting
  | joining
  | ended
  deriving DecidableEq

inductive Server
  | proxyDhcp
  | tftp
  | http
  | cleaner
  deriving DecidableEq

inductive Exit
  | returned (result : Except (List String) Unit)
  | joinError (text : String)

def joinResultToError (name : String) : Exit → List String
  | .returned (.ok ()) => [name ++ " server exited unexpectedly with Ok"]
  | .returned (.error e) => (name ++ " server fatal error") :: e
  | .joinError e => [name ++ " server task join error: " ++ e]

def Server.error : Server → Exit → List String
  | .proxyDhcp, how => joinResultToError "Proxy DHCP" how
  | .tftp, how => joinResultToError "TFTP" how
  | .http, how => joinResultToError "HTTP" how
  | .cleaner, _ => ["Host state cleaner task exited unexpectedly"]

/-- What the process waits for. -/
inductive Ending
  | interrupt
  | terminate
  | server (s : Server)
  deriving DecidableEq

abbrev Outcome := Except (List String) Unit

inductive Stage
  | sendLed
  | sendOled
  | joinLed
  | joinOled
  deriving DecidableEq

inductive Main
  | starting
  | blinking
  | waiting
  | stopping (stage : Stage) (outcome : Outcome)
  | complete (outcome : Outcome)
  | failed

/-- What the process is started with: the display's part of the configuration, whether the render
thread can be started, and what it finds. -/
structure Setup (Request : Type) where
  font : Font
  brightness : UInt8
  oledEnabled : Bool
  spawns : Bool
  shouldRun : Bool
  start : Start Request

variable {Request : Type}

/-- The main task, the queues and the flag of the shutdown, and the tasks. A display that is not
there has no loop. -/
structure Process (Request : Type) where
  main : Main
  stop : Bool
  ledShutdown : Bool
  oledShutdown : Bool
  flag : Bool
  blink : Blinker
  led : Option Blinker
  leds : Leds
  oled : OledManager
  loop : Option (Loop Request)
  exited : Server → Option Exit

/-- A step of one of the tasks, with what it meets; the end of a server; a write of the panic
hook. -/
inductive Event (Request : Type)
  | main (ok : Bool) (ending : Ending)
  | blink (prefers ok : Bool)
  | led (active prefers ok : Bool)
  | oled
  | render (t : Tick Request) (device : Device)
  | exit (server : Server) (how : Exit)
  | hook (w : HookWrite)

def Setup.oled (setup : Setup Request) : OledManager :=
  if setup.oledEnabled then if setup.spawns then .waiting else .ended else .absent

def Setup.loop (setup : Setup Request) : Option (Loop Request) :=
  if setup.oledEnabled && setup.spawns && setup.shouldRun then
    some (.running (setup.start.state setup.brightness))
  else none

def Main.ended : Main → Bool
  | .complete _ | .failed => true
  | _ => false

def ledOver (led : Option Blinker) : Bool := led.all Blinker.done

def threadOver : Option (Loop Request) → Bool
  | some (.running _) => false
  | _ => true

namespace Process

def outcome (p : Process Request) : Ending → Option Outcome
  | .interrupt | .terminate => some (.ok ())
  | .server s => (p.exited s).map fun how ↦ .error (s.error how)

/-- `ok` says whether what may fail on the way up does not: the configuration and its watcher at
first, the handler of a signal later. -/
def mainStep (setup : Setup Request) (p : Process Request) (ok : Bool) (ending : Ending) :
    Process Request :=
  match p.main with
  | .starting =>
    if ok then { p with main := .blinking, oled := setup.oled, loop := setup.loop }
    else { p with main := .failed }
  | .blinking =>
    match send p.blink.done p.stop with
    | none => p
    | some stop =>
      { p with main := if ok then .waiting else .failed, stop := stop, led := some .new }
  | .waiting =>
    match p.outcome ending with
    | none => p
    | some outcome => { p with main := .stopping .sendLed outcome }
  | .stopping .sendLed outcome =>
    match send (ledOver p.led) p.ledShutdown with
    | none => p
    | some queued => { p with main := .stopping .sendOled outcome, ledShutdown := queued }
  | .stopping .sendOled outcome =>
    match send (decide (p.oled = .ended)) p.oledShutdown with
    | none => p
    | some queued => { p with main := .stopping .joinLed outcome, oledShutdown := queued }
  | .stopping .joinLed outcome =>
    if ledOver p.led then { p with main := .stopping .joinOled outcome } else p
  | .stopping .joinOled outcome =>
    if p.oled = .absent ∨ p.oled = .ended then { p with main := .complete outcome } else p
  | .complete _ | .failed => p

def blinkStep (p : Process Request) (prefers ok : Bool) : Process Request :=
  match p.blink.pending with
  | w :: _ => { p with blink := p.blink.written p.stop, leds := setLed p.leds w.1 w.2 ok }
  | [] =>
    if p.blink.stopped then p
    else
      let woken := p.blink.wake p.stop prefers (bootBlink p.blink.state) activateBlueLed
        (!p.blink.state)
      { p with blink := woken.1, stop := woken.2 }

def ledStep (p : Process Request) (active prefers ok : Bool) : Process Request :=
  match p.led with
  | none => p
  | some b =>
    match b.pending with
    | w :: _ =>
      { p with led := some (b.written p.ledShutdown), leds := setLedCached p.leds w.1 w.2 ok }
    | [] =>
      if b.stopped then p
      else
        let woken := b.wake p.ledShutdown prefers (taskWrites b.state (.tick active))
          (taskWrites b.state .shutdown) ((Task.tick active).nextState b.state)
        { p with led := some woken.1, ledShutdown := woken.2 }

def oledStep (p : Process Request) : Process Request :=
  match p.oled with
  | .waiting =>
    if p.oledShutdown then { p with oled := .joining, oledShutdown := false, flag := true } else p
  | .joining => if threadOver p.loop then { p with oled := .ended } else p
  | .absent | .ended => p

/-- A round of the render thread, which sees the flag if it is set. -/
def renderStep (setup : Setup Request) (p : Process Request) (t : Tick Request)
    (device : Device) : Process Request :=
  let t := { t with shutdown := if p.flag then some device else none }
  { p with loop := p.loop.map fun loop ↦ loop.step setup.font setup.brightness t }

/-- The servers are there once everything is set up. -/
def exitStep (p : Process Request) (server : Server) (how : Exit) : Process Request :=
  match p.main with
  | .starting => p
  | _ => { p with exited := fun s ↦ if s = server then p.exited s <|> some how else p.exited s }

end Process

/-- Nothing happens any more once the main task has returned. -/
def step (setup : Setup Request) (p : Process Request) (e : Event Request) : Process Request :=
  if p.main.ended then p
  else
    match e with
    | .main ok ending => p.mainStep setup ok ending
    | .blink prefers ok => p.blinkStep prefers ok
    | .led active prefers ok => p.ledStep active prefers ok
    | .oled => p.oledStep
    | .render t device => p.renderStep setup t device
    | .exit server how => p.exitStep server how
    | .hook w => { p with leds := w.perform p.leds }

def start (Request : Type) (file : LedPath → UInt8) : Process Request where
  main := .starting
  stop := false
  ledShutdown := false
  oledShutdown := false
  flag := false
  blink := .new
  led := none
  leds := fun led ↦ .fresh (file led)
  oled := .absent
  loop := none
  exited := fun _ ↦ none

def run (setup : Setup Request) (file : LedPath → UInt8) (events : List (Event Request)) :
    Process Request :=
  events.foldl (step setup) (start Request file)

variable {setup : Setup Request} {p : Process Request}

theorem foldl_hook (p : Process Request) (h : p.main.ended = false) (between : List HookWrite) :
    (between.map Event.hook).foldl (step setup) p =
      { p with leds := between.foldl HookWrite.perform p.leds } := by
  induction between generalizing p with
  | nil => rfl
  | cons w between ih =>
    have hstep : step setup p (.hook w) = { p with leds := w.perform p.leds } := by
      unfold step
      rw [h]
      rfl
    rw [List.map_cons, List.foldl_cons, hstep]
    exact ih _ h

theorem step_led (p : Process Request) (h : p.main.ended = false) (active prefers ok : Bool) :
    step setup p (.led active prefers ok) = p.ledStep active prefers ok := by
  unfold step
  rw [h]
  rfl

/-- What the LED manager does from one wait to the next, while only the panic hook comes between,
is a step of the manager on its own. -/
theorem foldl_task {b : Blinker} (h : p.main.ended = false) (hb : p.led = some b)
    (hpending : b.pending = []) (hstopped : b.stopped = false)
    (active prefers okFirst okSecond : Bool) (between : List HookWrite) :
    let task := if p.ledShutdown && (b.told || prefers) then Task.shutdown else .tick active
    let manager := Led.Manager.step ⟨p.leds, b.state, true⟩ (.task task okFirst between okSecond)
    let first := step setup (step setup p (.led active prefers true)) (.led active prefers okFirst)
    let last := step setup ((between.map Event.hook).foldl (step setup) first)
      (.led active prefers okSecond)
    last.leds = manager.leds ∧ last.led.map Blinker.state = some manager.state ∧
      last.led.map Blinker.done = some (!manager.running) := by
  intro task manager first last
  have hwoken : ∃ told queued, step setup p (.led active prefers true) = { p with
      led := some ⟨task.nextState b.state, taskWrites b.state task, told, !task.running⟩
      ledShutdown := queued } := by
    rw [step_led p h]
    simp only [Process.ledStep, hb, hpending, hstopped, Blinker.wake, task]
    cases p.ledShutdown && (b.told || prefers)
    · exact ⟨_, _, rfl⟩
    · exact ⟨_, _, rfl⟩
  obtain ⟨told, queued, hwoken⟩ := hwoken
  have hfirst : first = { p with
      led := some ⟨task.nextState b.state, [task.second], queued, !task.running⟩
      ledShutdown := queued
      leds := State.first ⟨p.leds, b.state, true⟩ task okFirst } := by
    simp only [first, hwoken]
    refine (step_led _ ?_ active prefers okFirst).trans rfl
    exact h
  have hlast : last = { p with
      led := some ⟨task.nextState b.state, [], queued, !task.running⟩
      ledShutdown := queued
      leds := manager.leds } := by
    simp only [last, hfirst]
    rw [foldl_hook]
    · refine (step_led _ ?_ active prefers okSecond).trans rfl
      exact h
    · exact h
  rw [hlast]
  exact ⟨rfl, rfl, by simp [Blinker.done, manager, Led.Manager.step]⟩

end BootyCall.Service.Lifecycle
