import BootyCall.Core.Activity
import BootyCall.Lib.Reflect
import BootyCall.Oled.Display
import BootyCall.Oled.Pages
import BootyCall.Oled.Panel

namespace BootyCall.Oled.RenderLoop

open Core.Activity Core.State Display Drawing GpioLine Lib.Reflect Lib.Rgb565 Packing Pages Panel
open Placement

/-- In the screensaver, with two fifths of the brightness. -/
def modeBrightness (base : UInt8) : DisplayMode → UInt8
  | .metrics => base
  | .screensaver => (base.toUInt16 * 40 / 100).toUInt8

structure BounceBox where
  minX : ℤ
  maxX : ℤ
  minY : ℤ
  maxY : ℤ

structure Bounce where
  x : ℤ
  y : ℤ
  dx : ℤ
  dy : ℤ

def stepBounce (s : Bounce) (b : BounceBox) : Bounce :=
  let x := s.x + s.dx
  let y := s.y + s.dy
  let (x, dx) :=
    if b.maxX ≤ x then (b.maxX, -|s.dx|) else if x ≤ b.minX then (b.minX, |s.dx|) else (x, s.dx)
  let (y, dy) :=
    if b.maxY ≤ y then (b.maxY, -|s.dy|) else if y ≤ b.minY then (b.minY, |s.dy|) else (y, s.dy)
  ⟨x, y, dx, dy⟩

def screensaverBlockHeight : ℤ := 21

def bounds (font : Font) : BounceBox where
  minX := 0
  maxX := width - font.measureText "TARS" false
  minY := visibleYStart
  maxY := height - screensaverBlockHeight

inductive Value
  | active
  | inactive
  deriving DecidableEq

/-- What a round of the loop meets: the clock, the store and its clock, the system, the lines and
the device; and the flag of a shutdown, with the device as it is then. -/
structure Tick (Request : Type) where
  now : ℤ
  activityRead : ℤ
  flipRead : ℤ
  detect : Option Request
  enable : Option Request
  processes : List Process
  store : StateStore
  wallNow : SystemTime
  metrics : SystemMetrics
  level : Option Value
  device : Device
  shutdown : Option Device

variable {Request : Type}

def Tick.reading (t : Tick Request) : Reading where
  now := t.now
  sessions := activeSshSessions t.processes
  activePxe := hasRecentActivity t.store t.wallNow recentNanos
  activityRead := t.activityRead
  flipRead := t.flipRead

structure LoopState (Request : Type) where
  detectLine : OptionalGpioLine Request × List Message
  enableLine : OptionalGpioLine Request × List Message
  sink : PanelSink × List Message
  pace : Pace
  bounce : Bounce

def draw (font : Font) (pace : Pace) (bounce : Bounce) (m : SystemMetrics) :
    Option (Framebuffer × Bounce) :=
  match pace.currentMode with
  | .screensaver =>
    let bounce := stepBounce bounce (bounds font)
    let drawX := (max bounce.x 0).toNat
    let drawY := (max bounce.y (bounds font).minY).toNat
    some (drawTars font .blank drawX drawY, bounce)
  | .metrics => do
    let frame ← drawPage font .blank pace.pageIndex m
    some (frame, bounce)

/-- The rackmount pulls the line low; a line that is missing or cannot be read says standalone. -/
def rotationOf (line : OptionalGpioLine Request) (level : Option Value) : ℕ :=
  if line.request.isSome && level == some .inactive then 0 else 180

/-- With it the answer of the sink, whether to go on; no result where drawing panics. -/
def LoopState.tick (font : Font) (brightness : UInt8) (s : LoopState Request) (t : Tick Request) :
    Option (LoopState Request × Bool) := do
  let detectLine := OptionalGpioLine.pollAll s.detectLine [(t.now, t.detect)]
  let enableLine := OptionalGpioLine.pollAll s.enableLine [(t.now, t.enable)]
  let pace := s.pace.tick pages.length t.reading
  let (frame, bounce) ← draw font pace s.bounce t.metrics
  let (sink, goesOn) := PanelSink.round s.sink (modeBrightness brightness pace.currentMode) frame
    (rotationOf detectLine.1 t.level) t.device
  some ({ detectLine, enableLine, sink, pace, bounce }, goesOn)

/-- The screen is blanked; how the flush ends does not matter. -/
def LoopState.shutDown (s : LoopState Request) (device : Device) : LoopState Request :=
  let sink := { s.sink.1 with fb := s.sink.1.fb.clear }
  { s with sink := (sink.flush device, s.sink.2 ++ [.shuttingDown]) }

inductive Loop (Request : Type)
  | running (s : LoopState Request)
  | stopped (s : LoopState Request)
  | panicked

def Loop.step (font : Font) (brightness : UInt8) : Loop Request → Tick Request → Loop Request
  | .running s, t =>
    match s.tick font brightness t with
    | none => .panicked
    | some (s, false) => .stopped s
    | some (s, true) =>
      match t.shutdown with
      | none => .running s
      | some device => .stopped (s.shutDown device)
  | .stopped s, _ => .stopped s
  | .panicked, _ => .panicked

/-- How the loop finds things: three times the clock, the lines and the device. -/
structure Start (Request : Type) where
  now : ℤ
  activity : ℤ
  flip : ℤ
  check : ℤ
  detect : Option Request
  enable : Option Request
  opened : Bool
  shown : List UInt8

def Start.state (start : Start Request) (brightness : UInt8) : LoopState Request where
  detectLine := OptionalGpioLine.new "GPIO rackmount detection" start.detect start.now
  enableLine := OptionalGpioLine.new "GPIO rackmount power enable" start.enable start.now
  sink := (startSink brightness start.opened start.shown, [])
  pace := .new start.activity start.flip start.check
  bounce := ⟨0, visibleYStart, 1, 1⟩

def renderLoop (font : Font) (brightness : UInt8) (start : Start Request)
    (ticks : List (Tick Request)) : Loop Request :=
  ticks.foldl (Loop.step font brightness) (.running (start.state brightness))

variable (font : Font) (brightness : UInt8) (start : Start Request)

def paceAfter (ticks : List (Tick Request)) : Pace :=
  run pages.length (.new start.activity start.flip start.check) (ticks.map Tick.reading)

def screens (ticks : List (Tick Request)) : ℕ :=
  ticks.inits.tail.countP fun before ↦ decide ((paceAfter start before).currentMode = .screensaver)

def detectAfter (ticks : List (Tick Request)) : OptionalGpioLine Request × List Message :=
  OptionalGpioLine.pollAll (OptionalGpioLine.new "GPIO rackmount detection" start.detect start.now)
    (ticks.map fun t : Tick Request ↦ (t.now, t.detect))

def enableAfter (ticks : List (Tick Request)) : OptionalGpioLine Request × List Message :=
  OptionalGpioLine.pollAll
    (OptionalGpioLine.new "GPIO rackmount power enable" start.enable start.now)
    (ticks.map fun t : Tick Request ↦ (t.now, t.enable))

def blockX (n : ℕ) : ℕ := zigzag (width - font.measureText "TARS" false) n
def blockY (n : ℕ) : ℕ := visibleYStart + zigzag 11 n

def picture (before : List (Tick Request)) (t : Tick Request) (k : Place) : UInt8 :=
  let pace := paceAfter start (before ++ [t])
  match pace.currentMode with
  | .metrics => pageAt font pace.pageIndex t.metrics k
  | .screensaver =>
    tars font (blockX font (screens start (before ++ [t])))
      (blockY (screens start (before ++ [t]))) k

def frameOf (f : Place → UInt8) : Framebuffer := { buffer := .ofFn f }

def roundOf (before : List (Tick Request)) (t : Tick Request) : Round where
  brightness := modeBrightness brightness (paceAfter start (before ++ [t])).currentMode
  frame := frameOf (picture font start before t)
  rotation := rotationOf (detectAfter start (before ++ [t])).1 t.level
  device := t.device

def roundsOf (before : List (Tick Request)) : List (Tick Request) → List Round
  | [] => []
  | t :: ticks => roundOf font brightness start before t :: roundsOf (before ++ [t]) ticks

/-- The loop after some rounds, told from its history alone. -/
def stateAfter (ticks : List (Tick Request)) : LoopState Request where
  detectLine := detectAfter start ticks
  enableLine := enableAfter start ticks
  sink := rounds (startSink brightness start.opened start.shown, [])
    (roundsOf font brightness start [] ticks)
  pace := paceAfter start ticks
  bounce := (fun s ↦ stepBounce s (bounds font))^[screens start ticks] ⟨0, visibleYStart, 1, 1⟩

def onPanel (brightness : UInt8) (rotation : ℕ) (f : Place → UInt8) : List Rgb :=
  (oriented rotation (List.ofFn f)).map (dimmed brightness)

def black : List Rgb := List.replicate (width * height) ⟨0, 0, 0⟩

/-- All dots below the screensaver's text are on the panel, in every frame. -/
def BrailleFits : Prop :=
  ∀ n, ∀ p ∈ brailleDots (blockX font n + 3) (blockY n + 13) 3 3 8,
    p.1 + 2 ≤ width ∧ p.2 + 2 ≤ height

variable {font brightness start}
  (before : List (Tick Request)) (t : Tick Request)

theorem stepBounce_eq (s : Bounce) (b : BounceBox) : stepBounce s b =
    ⟨(Walker.step b.minX b.maxX ⟨s.x, s.dx⟩).pos, (Walker.step b.minY b.maxY ⟨s.y, s.dy⟩).pos,
      (Walker.step b.minX b.maxX ⟨s.x, s.dx⟩).dir,
      (Walker.step b.minY b.maxY ⟨s.y, s.dy⟩).dir⟩ := by
  simp only [stepBounce, Walker.step]
  split <;> split <;> (try split) <;> (try split) <;> rfl

theorem iterate_stepBounce (b : BounceBox) (s : Bounce) (n : ℕ) :
    (fun s ↦ stepBounce s b)^[n] s =
      ⟨((Walker.step b.minX b.maxX)^[n] ⟨s.x, s.dx⟩).pos,
        ((Walker.step b.minY b.maxY)^[n] ⟨s.y, s.dy⟩).pos,
        ((Walker.step b.minX b.maxX)^[n] ⟨s.x, s.dx⟩).dir,
        ((Walker.step b.minY b.maxY)^[n] ⟨s.y, s.dy⟩).dir⟩ := by
  induction n with
  | zero => rfl
  | succ n ih =>
    simp only [Function.iterate_succ_apply', ih]
    exact stepBounce_eq _ b

theorem block_position (font : Font) (n : ℕ) :
    let s := (fun s ↦ stepBounce s (bounds font))^[n] ⟨0, visibleYStart, 1, 1⟩
    (max s.x 0).toNat = blockX font n ∧ (max s.y (bounds font).minY).toNat = blockY n := by
  dsimp only
  rw [iterate_stepBounce]
  have hx := max_iterate_step 0 (bounds font).maxX n
  have hy := max_iterate_step visibleYStart (bounds font).maxY n
  have hwidth : ((bounds font).maxX - 0).toNat = width - font.measureText "TARS" false := by
    simp only [bounds]
    omega
  have hheight : ((bounds font).maxY - visibleYStart).toNat = 11 := by
    simp only [bounds]
    decide
  rw [hwidth] at hx
  rw [hheight] at hy
  constructor
  · rw [blockX]
    refine (congrArg Int.toNat hx).trans ?_
    omega
  · rw [blockY]
    refine (congrArg Int.toNat hy).trans ?_
    omega

theorem eq_frameOf {fb : Framebuffer} {f : Place → UInt8} (h : ∀ k, pixel fb k = f k) :
    fb = frameOf f := by
  obtain ⟨buffer⟩ := fb
  rw [frameOf, Framebuffer.mk.injEq]
  ext k hk
  rw [Vector.getElem_ofFn]
  exact congrArg UInt8.toNat (h ⟨k, hk⟩)

theorem pixel_blank (k : Place) : pixel .blank k = 0 := by
  simp [pixel, Framebuffer.blank]

theorem paceAfter_concat : paceAfter start (before ++ [t]) =
    (paceAfter start before).tick pages.length t.reading := by
  rw [paceAfter, List.map_append]
  exact run_concat _ _

theorem screens_concat : screens start (before ++ [t]) = screens start before +
    if (paceAfter start (before ++ [t])).currentMode = .screensaver then 1 else 0 := by
  have hinits : (before ++ [t]).inits.tail = before.inits.tail ++ [before ++ [t]] := by
    rw [List.inits_append]
    cases before <;> simp
  rw [screens, screens, hinits, List.countP_append, List.countP_singleton]
  simp only [decide_eq_true_eq]

theorem detectAfter_concat : detectAfter start (before ++ [t]) =
    OptionalGpioLine.pollAll (detectAfter start before) [(t.now, t.detect)] := by
  rw [detectAfter, List.map_append]
  exact pollAll_append _ _

theorem enableAfter_concat : enableAfter start (before ++ [t]) =
    OptionalGpioLine.pollAll (enableAfter start before) [(t.now, t.enable)] := by
  rw [enableAfter, List.map_append]
  exact pollAll_append _ _

theorem roundsOf_concat (earlier : List (Tick Request)) :
    roundsOf font brightness start earlier (before ++ [t]) =
      roundsOf font brightness start earlier before ++
        [roundOf font brightness start (earlier ++ before) t] := by
  induction before generalizing earlier with
  | nil => simp [roundsOf]
  | cons u before ih =>
    rw [List.cons_append, roundsOf, roundsOf, ih, List.append_assoc, List.singleton_append]
    rfl

theorem pageIndex_lt : (paceAfter start before).pageIndex < pages.length := by
  rw [paceAfter, pageIndex_eq rfl]
  exact Nat.mod_lt _ (by decide)

theorem draw_spec :
    draw font (paceAfter start (before ++ [t])) (stateAfter font brightness start before).bounce
        t.metrics =
      some (frameOf (picture font start before t),
        (stateAfter font brightness start (before ++ [t])).bounce) := by
  have hscreens : screens start (before ++ [t]) = _ := screens_concat before t
  have hpicture := picture.eq_1 font start before t
  rw [draw, stateAfter, stateAfter]
  dsimp only at hpicture ⊢
  cases hmode : (paceAfter start (before ++ [t])).currentMode with
  | screensaver =>
    rw [hmode, if_pos rfl] at hscreens
    rw [hmode, hscreens] at hpicture
    obtain ⟨hx, hy⟩ := block_position font (screens start before + 1)
    rw [Function.iterate_succ_apply'] at hx hy
    dsimp only
    rw [hx, hy, hscreens, Function.iterate_succ_apply']
    rw [eq_frameOf fun k ↦ (drawTars_spec font .blank _ _ pixel_blank k).trans (hpicture k).symm]
  | metrics =>
    rw [hmode, if_neg nofun] at hscreens
    rw [hmode] at hpicture
    obtain ⟨fb, hdraw, hpixels⟩ := drawPage_spec font pixel_blank (pageIndex_lt (before ++ [t]))
      t.metrics
    dsimp only
    rw [hdraw, hscreens, eq_frameOf fun k ↦ (hpixels k).trans (hpicture k).symm]
    rfl

theorem tick_spec :
    (stateAfter font brightness start before).tick font brightness t =
      some (stateAfter font brightness start (before ++ [t]), true) := by
  have hdraw : draw font (paceAfter start (before ++ [t]))
      (stateAfter font brightness start before).bounce t.metrics = _ := draw_spec before t
  have hpace : (stateAfter font brightness start before).pace = paceAfter start before := rfl
  have hdetect : (stateAfter font brightness start before).detectLine =
    detectAfter start before := rfl
  have henable : (stateAfter font brightness start before).enableLine =
    enableAfter start before := rfl
  have hsink : (stateAfter font brightness start (before ++ [t])).sink =
      ((roundOf font brightness start before t).present
        (stateAfter font brightness start before).sink).1 := by
    rw [stateAfter, roundsOf_concat, rounds, List.foldl_append]
    rfl
  have hround : PanelSink.round (stateAfter font brightness start before).sink
      (modeBrightness brightness (paceAfter start (before ++ [t])).currentMode)
      (frameOf (picture font start before t))
      (rotationOf (detectAfter start (before ++ [t])).1 t.level) t.device =
        ((stateAfter font brightness start (before ++ [t])).sink, true) :=
    Prod.ext hsink.symm (present_goesOn (roundOf font brightness start before t) _)
  rw [LoopState.tick, hpace, ← paceAfter_concat, hdraw, hdetect, henable, ← detectAfter_concat,
    ← enableAfter_concat]
  simp only [Option.bind_eq_bind, Option.bind_some, hround]
  rfl

theorem stepLoop_spec :
    Loop.step font brightness (.running (stateAfter font brightness start before)) t =
      t.shutdown.elim (.running (stateAfter font brightness start (before ++ [t]))) fun device ↦
        .stopped ((stateAfter font brightness start (before ++ [t])).shutDown device) := by
  rw [Loop.step, tick_spec]
  cases t.shutdown with
  | none => rfl
  | some device => rfl

theorem renderLoop_concat (ticks : List (Tick Request)) :
    renderLoop font brightness start (ticks ++ [t]) =
      Loop.step font brightness (renderLoop font brightness start ticks) t := by
  rw [renderLoop, List.foldl_append]
  rfl

/-- The loop does what its history tells, and nothing in it panics. -/
theorem renderLoop_running (ticks : List (Tick Request)) (h : ∀ t ∈ ticks, t.shutdown = none) :
    renderLoop font brightness start ticks = .running (stateAfter font brightness start ticks) := by
  induction ticks using List.reverseRecOn with
  | nil => rfl
  | append_singleton ticks t ih =>
    rw [renderLoop_concat, ih fun u hu ↦ h u (List.mem_append_left _ hu), stepLoop_spec,
      h t (by simp)]
    rfl

theorem toList_frameOf (f : Place → UInt8) : (frameOf f).buffer.toList = List.ofFn f :=
  Vector.toList_ofFn

theorem shown_of_round {s : PanelSink × List Message} (r : Round)
    (h : (r.present s).1.1.fb.file = true) :
    (r.present s).1.1.shown =
      packBuffer r.frame.buffer.toList (buildLut r.brightness) r.rotation := by
  obtain ⟨w, hw⟩ := exists_latched s.1
  obtain ⟨s', hround, -, hfile, hshown⟩ := round_spec hw r
  rw [hround] at h ⊢
  have houtcome := of_decide_eq_true (hfile.symm.trans h)
  rw [houtcome] at hshown
  exact hshown

/-- After every round that could be written the panel shows that round's picture: the page whose
turn it is, or the screensaver with its block where it has got to. -/
theorem renderLoop_shows (font : Font) (brightness : UInt8) (start : Start Request)
    (before : List (Tick Request)) (t : Tick Request)
    (hrunning : ∀ u ∈ before ++ [t], u.shutdown = none) :
    ∃ s, renderLoop font brightness start (before ++ [t]) = .running s ∧
      (s.sink.1.fb.file = true →
        unpack s.sink.1.shown =
          onPanel (modeBrightness brightness (paceAfter start (before ++ [t])).currentMode)
            (rotationOf (detectAfter start (before ++ [t])).1 t.level)
            (picture font start before t)) := by
  refine ⟨_, renderLoop_running _ hrunning, fun hfile ↦ ?_⟩
  rw [stateAfter, roundsOf_concat, rounds, List.foldl_append] at hfile ⊢
  have hshown := shown_of_round (roundOf font brightness start ([] ++ before) t) hfile
  refine (congrArg unpack hshown).trans ?_
  rw [unpack_packBuffer, roundOf, toList_frameOf]
  rfl

def inkless : Font where
  samples := fun _ _ _ _ ↦ []
  measureText := fun text _ ↦ 6 * text.length

def quiet (now : ℤ) (shutdown : Option Device) : Tick Unit where
  now := now
  activityRead := now
  flipRead := now
  detect := none
  enable := none
  processes := []
  store := {}
  wallNow := 0
  metrics := ⟨"BOOTYCALL", "No IP", 0, "N/A", "0.0%", "N/A", "N/A", "N/A"⟩
  level := none
  device := ⟨true, none⟩
  shutdown := shutdown

theorem renderLoop_shows_quiet :
    ∃ s, renderLoop inkless 255 ⟨0, 0, 0, 0, none, none, true, []⟩
        ([quiet 1 none] ++ [quiet 130000000000 none]) = .running s ∧
      (s.sink.1.fb.file = true →
        unpack s.sink.1.shown =
          onPanel (modeBrightness 255 (paceAfter ⟨0, 0, 0, 0, none, none, true, []⟩
              ([quiet 1 none] ++ [quiet 130000000000 none])).currentMode)
            (rotationOf (detectAfter ⟨0, 0, 0, 0, none, none, true, []⟩
              ([quiet 1 none] ++ [quiet 130000000000 none])).1 none)
            (picture inkless ⟨0, 0, 0, 0, none, none, true, []⟩ [quiet 1 none]
              (quiet 130000000000 none))) :=
  renderLoop_shows inkless 255 _ _ _ (by simp [quiet])

theorem unpack_blank (brightness : UInt8) (rotation : ℕ) :
    unpack (packBuffer Framebuffer.blank.buffer.toList (buildLut brightness) rotation) = black := by
  have hblank : Framebuffer.blank.buffer.toList = List.replicate (width * height) 0 :=
    Vector.toList_replicate
  have horiented : oriented rotation (List.replicate (width * height) 0) =
      List.replicate (width * height) 0 := by
    rw [oriented, List.reverse_replicate, ite_self]
  have hdark : dimmed brightness 0 = ⟨0, 0, 0⟩ := by simp [dimmed]
  rw [unpack_packBuffer, hblank, horiented, List.map_replicate, hdark]
  rfl

theorem shutDown_spec (s : LoopState Request) (device : Device) :
    (s.shutDown device).sink.2 = s.sink.2 ++ [.shuttingDown] ∧
      ((s.shutDown device).sink.1.fb.file = true →
        unpack (s.shutDown device).sink.1.shown = black) := by
  refine ⟨rfl, fun hfile ↦ ?_⟩
  rw [LoopState.shutDown, PanelSink.flush] at hfile ⊢
  obtain ⟨fb', hwrite, hheld⟩ := write_spec { s.sink.1 with fb := s.sink.1.fb.clear }
    ⟨s.sink.1.fb.brightness, .blank, s.sink.1.fb.rotation, device⟩ (by
      rw [← s.sink.1.fb.lut_eq]
      rfl)
  rw [hwrite] at hfile ⊢
  have houtcome := of_decide_eq_true (hheld.symm.trans hfile)
  rw [houtcome]
  exact unpack_blank _ _

/-- A shutdown ends the loop after the round it is seen in: it is logged last, and the panel is
black if it could be written. -/
theorem renderLoop_stops (font : Font) (brightness : UInt8) (start : Start Request)
    (before after : List (Tick Request)) (t : Tick Request) (device : Device)
    (hrunning : ∀ u ∈ before, u.shutdown = none) (hshutdown : t.shutdown = some device) :
    ∃ s, renderLoop font brightness start (before ++ t :: after) = .stopped s ∧
      s.sink.2.getLast? = some .shuttingDown ∧
      (s.sink.1.fb.file = true → unpack s.sink.1.shown = black) := by
  have hstop : ∀ s : LoopState Request,
      after.foldl (Loop.step font brightness) (.stopped s) = .stopped s := by
    intro s
    induction after with
    | nil => rfl
    | cons u after ih => exact ih
  obtain ⟨hlog, hblack⟩ :=
    shutDown_spec (stateAfter font brightness start (before ++ [t])) device
  refine ⟨_, ?_, ?_, hblack⟩
  · rw [renderLoop, List.foldl_append, ← renderLoop, renderLoop_running before hrunning,
      List.foldl_cons, stepLoop_spec, hshutdown]
    exact hstop _
  · rw [hlog, List.getLast?_concat]

theorem renderLoop_stops_quiet :
    ∃ s, renderLoop inkless 255 ⟨0, 0, 0, 0, none, none, true, []⟩
        ([quiet 1 none] ++ quiet 2 (some ⟨true, none⟩) :: [quiet 3 none]) = .stopped s ∧
      s.sink.2.getLast? = some .shuttingDown ∧
      (s.sink.1.fb.file = true → unpack s.sink.1.shown = black) :=
  renderLoop_stops inkless 255 _ _ _ _ _ (by simp [quiet]) rfl

theorem brailleDots_eq (x y : ℕ) : brailleDots x y 3 3 8 =
    [(x + 3, y), (x, y + 3), (x + 3, y + 3), (x, y + 6), (x + 8, y), (x + 16, y), (x + 16, y + 3),
      (x + 19, y + 3), (x + 16, y + 6), (x + 27, y), (x + 24, y + 3), (x + 24, y + 6)] := by
  simp [brailleDots, brailleChars, Nat.add_assoc]

theorem le_of_dot {x y : ℕ} {p : ℕ × ℕ} (h : p ∈ brailleDots x y 3 3 8) :
    p.1 ≤ x + 27 ∧ p.2 ≤ y + 6 := by
  rw [brailleDots_eq] at h
  simp only [List.mem_cons, List.not_mem_nil, or_false] at h
  rcases h with rfl | rfl | rfl | rfl | rfl | rfl | rfl | rfl | rfl | rfl | rfl | rfl <;>
    constructor <;> dsimp only <;> omega

theorem dot_above_bottom (n : ℕ) {x : ℕ} {p : ℕ × ℕ}
    (h : p ∈ brailleDots x (blockY n + 13) 3 3 8) : p.2 + 2 ≤ height := by
  have hy : blockY n ≤ visibleYStart + 11 := Nat.add_le_add_left (zigzag_le _ n) _
  have hdot := (le_of_dot h).2
  simp only [height, visibleYStart] at hy ⊢
  omega

/-- Downwards the block always fits; to the right it does exactly if its text is as wide as its
dots. -/
theorem block_fits (font : Font) :
    (∀ n, ∀ p ∈ brailleDots (blockX font n + 3) (blockY n + 13) 3 3 8, p.2 + 2 ≤ height) ∧
      (BrailleFits font ↔ 32 ≤ font.measureText "TARS" false) := by
  refine ⟨fun n p hp ↦ dot_above_bottom n hp, ?_, ?_⟩
  · intro h
    have hlast : blockX font (width - font.measureText "TARS" false) =
        width - font.measureText "TARS" false := by
      have hreach := zigzag_of_le (le_refl (width - font.measureText "TARS" false)) 0
      rwa [Nat.mul_zero, Nat.zero_add] at hreach
    have hdot : (blockX font (width - font.measureText "TARS" false) + 3 + 27,
        blockY (width - font.measureText "TARS" false) + 13) ∈
        brailleDots (blockX font (width - font.measureText "TARS" false) + 3)
          (blockY (width - font.measureText "TARS" false) + 13) 3 3 8 := by
      rw [brailleDots_eq]
      simp
    have hright := (h _ _ hdot).1
    rw [hlast] at hright
    simp only [width] at hright
    omega
  · intro h n p hp
    refine ⟨?_, dot_above_bottom n hp⟩
    have hx : blockX font n ≤ width - font.measureText "TARS" false := zigzag_le _ n
    have hdot := (le_of_dot hp).1
    simp only [width] at hx ⊢
    omega

end BootyCall.Oled.RenderLoop
