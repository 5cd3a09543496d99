import BootyCall.Oled.Drawing
import BootyCall.Oled.GpioLine
import BootyCall.Oled.Packing

namespace BootyCall.Oled.Panel

open Drawing GpioLine Packing

/-- The framebuffer with the table of its brightness, and whether its device is held open. -/
structure PanelBuffer extends Framebuffer where
  brightness : UInt8
  lut : Lut
  lut_eq : lut = buildLut brightness
  file : Bool
  rotation : ℕ

namespace PanelBuffer

def withBrightness (brightness : UInt8) (opened : Bool) : PanelBuffer where
  toFramebuffer := .blank
  brightness := brightness
  lut := buildLut brightness
  lut_eq := rfl
  file := opened
  rotation := 180

def setBrightness (fb : PanelBuffer) (brightness : UInt8) : PanelBuffer :=
  if brightness ≠ fb.brightness then
    { fb with brightness := brightness, lut := buildLut brightness, lut_eq := rfl }
  else fb

def clear (fb : PanelBuffer) : PanelBuffer := { fb with toFramebuffer := .blank }

def ensureOpen (fb : PanelBuffer) (opens : Bool) : PanelBuffer :=
  { fb with file := fb.file || opens }

def packed (fb : PanelBuffer) : List UInt8 := packBuffer fb.buffer.toList fb.lut fb.rotation

end PanelBuffer

structure Device where
  opens : Bool
  failure : Option (List UInt8)

inductive Written
  | done
  | absent
  | failed
  deriving DecidableEq

/-- What the panel shows is a part of the device. -/
def writePacked (fb : PanelBuffer) (device : Device) (shown : List UInt8) :
    PanelBuffer × Written × List UInt8 :=
  if fb.file then
    match device.failure with
    | some left => ({ fb with file := false }, .failed, left)
    | none => (fb, .done, fb.packed)
  else (fb, .absent, shown)

structure PanelSink where
  fbAvailable : Bool
  fb : PanelBuffer
  shown : List UInt8

namespace PanelSink

def write (sink : PanelSink) (device : Device) : PanelSink × Written :=
  let (fb, written, shown) := writePacked (sink.fb.ensureOpen device.opens) device sink.shown
  ({ sink with fb := fb, shown := shown }, written)

/-- The messages, and whether the loop is to go on. -/
def present (sink : PanelSink) (device : Device) : PanelSink × List Message × Bool :=
  let (sink, written) := sink.write device
  match written with
  | .done =>
    ({ sink with fbAvailable := true },
      if !sink.fbAvailable then [.framebufferAvailable] else [], true)
  | .absent =>
    ({ sink with fbAvailable := false },
      if sink.fbAvailable then [.framebufferUnavailable] else [], true)
  | .failed => ({ sink with fbAvailable := false }, [.framebufferWriteFailed], true)

/-- The result of the flush is dropped by its caller. -/
def flush (sink : PanelSink) (device : Device) : PanelSink := (sink.write device).1

/-- A round: the brightness is set, the frame is drawn on a cleared buffer, turned, and presented.
The messages are collected. -/
def round (s : PanelSink × List Message) (brightness : UInt8) (frame : Framebuffer)
    (rotation : ℕ) (device : Device) : (PanelSink × List Message) × Bool :=
  let fb := { (s.1.fb.setBrightness brightness).clear with
    toFramebuffer := frame, rotation := rotation }
  let (sink, messages, goesOn) := { s.1 with fb := fb }.present device
  ((sink, s.2 ++ messages), goesOn)

end PanelSink

structure Round where
  brightness : UInt8
  frame : Framebuffer
  rotation : ℕ
  device : Device

def Round.present (r : Round) (s : PanelSink × List Message) : (PanelSink × List Message) × Bool :=
  PanelSink.round s r.brightness r.frame r.rotation r.device

def rounds (start : PanelSink × List Message) (rs : List Round) : PanelSink × List Message :=
  rs.foldl (fun s r ↦ (r.present s).1) start

def startSink (brightness : UInt8) (opened : Bool) (shown : List UInt8) : PanelSink :=
  { fbAvailable := true, fb := .withBrightness brightness opened, shown := shown }

def outcome (held : Bool) (device : Device) : Written :=
  if held || device.opens then if device.failure.isSome then .failed else .done else .absent

def announced (before after : Written) : List Message :=
  match after with
  | .done => if before = .done then [] else [.framebufferAvailable]
  | .absent => if before = .done then [.framebufferUnavailable] else []
  | .failed => [.framebufferWriteFailed]

def outcomes (held : Bool) : List Device → List Written
  | [] => []
  | device :: devices =>
    outcome held device :: outcomes (decide (outcome held device = .done)) devices

def announcements (before : Written) : List Written → List Message
  | [] => []
  | after :: later => announced before after ++ announcements after later

def leaves (shown : List UInt8) (r : Round) : Written → List UInt8
  | .done => packBuffer r.frame.buffer.toList (buildLut r.brightness) r.rotation
  | .absent => shown
  | .failed => r.device.failure.getD shown

def leavesAll (shown : List UInt8) (rs : List Round) (ws : List Written) : List UInt8 :=
  (rs.zip ws).foldl (fun shown p ↦ leaves shown p.1 p.2) shown

/-- A loss is told after a return only, and a return after a loss or a failure only. -/
def Follows (message next : Message) : Prop :=
  (next = .framebufferUnavailable → message = .framebufferAvailable) ∧
    (next = .framebufferAvailable → message ≠ .framebufferAvailable)

/-- What all rounds keep to: they go on, the device is held exactly if the last write was done, the
panel shows what the writes left on it, and the log tells each loss and each return once and every
failure. -/
structure Kept (start : PanelSink × List Message) (opened : Bool) (shown : List UInt8)
    (rs : List Round) (s : PanelSink × List Message) : Prop where
  goesOn : ∀ before r after, rs = before ++ r :: after → (r.present (rounds start before)).2 = true
  held : s.1.fb.file = (outcomes opened (rs.map Round.device)).getLast?.elim opened
    fun w ↦ decide (w = .done)
  shown : s.1.shown = leavesAll shown rs (outcomes opened (rs.map Round.device))
  log : s.2 = announcements .done (outcomes opened (rs.map Round.device))
  once : (.framebufferAvailable :: s.2).IsChain Follows
  failures : s.2.count .framebufferWriteFailed =
    (outcomes opened (rs.map Round.device)).count .failed

variable (fb : PanelBuffer) (sink : PanelSink) (device : Device)

@[simp]
theorem setBrightness_brightness (brightness : UInt8) :
    (fb.setBrightness brightness).brightness = brightness := by
  rw [PanelBuffer.setBrightness]
  split
  · rfl
  · next h => exact (not_not.mp h).symm

@[simp]
theorem setBrightness_file (brightness : UInt8) :
    (fb.setBrightness brightness).file = fb.file := by
  rw [PanelBuffer.setBrightness]
  split <;> rfl

theorem write_spec (r : Round) (hpacked : sink.fb.packed =
      packBuffer r.frame.buffer.toList (buildLut r.brightness) r.rotation) :
    ∃ fb', sink.write r.device = ({ sink with
        fb := fb'
        shown := leaves sink.shown r (outcome sink.fb.file r.device) },
          outcome sink.fb.file r.device) ∧
      fb'.file = decide (outcome sink.fb.file r.device = .done) := by
  rw [PanelSink.write, writePacked, outcome]
  cases hfile : sink.fb.file || r.device.opens with
  | true =>
    cases hfailure : r.device.failure with
    | some left => simp [PanelBuffer.ensureOpen, hfile, leaves, hfailure]
    | none => simp [PanelBuffer.ensureOpen, PanelBuffer.packed, hfile, leaves, ← hpacked]
  | false => simp [PanelBuffer.ensureOpen, hfile, leaves]

/-- The latch of a sink after a write that ended so. -/
def Latched (sink : PanelSink) (before : Written) : Prop :=
  sink.fbAvailable = decide (before = .done)

theorem present_spec {before : Written} (h : Latched sink before) (r : Round)
    (hpacked : sink.fb.packed =
      packBuffer r.frame.buffer.toList (buildLut r.brightness) r.rotation) :
    ∃ sink', sink.present r.device =
        (sink', announced before (outcome sink.fb.file r.device), true) ∧
      Latched sink' (outcome sink.fb.file r.device) ∧
      sink'.fb.file = decide (outcome sink.fb.file r.device = .done) ∧
      sink'.shown = leaves sink.shown r (outcome sink.fb.file r.device) := by
  obtain ⟨fb', hwrite, hfile⟩ := write_spec sink r hpacked
  rw [Latched] at h
  rw [PanelSink.present, hwrite]
  dsimp only
  cases houtcome : outcome sink.fb.file r.device with
  | done =>
    refine ⟨_, Prod.ext rfl (Prod.ext ?_ rfl), rfl, hfile.trans (by rw [houtcome]), rfl⟩
    by_cases hbefore : before = .done <;> simp [announced, h, hbefore]
  | absent =>
    refine ⟨_, Prod.ext rfl (Prod.ext ?_ rfl), rfl, hfile.trans (by rw [houtcome]), rfl⟩
    by_cases hbefore : before = .done <;> simp [announced, h, hbefore]
  | failed => exact ⟨_, rfl, rfl, hfile.trans (by rw [houtcome]), rfl⟩

theorem round_spec {s : PanelSink × List Message} {before : Written} (h : Latched s.1 before)
    (r : Round) :
    ∃ s', r.present s = ((s', s.2 ++ announced before (outcome s.1.fb.file r.device)), true) ∧
      Latched s' (outcome s.1.fb.file r.device) ∧
      s'.fb.file = decide (outcome s.1.fb.file r.device = .done) ∧
      s'.shown = leaves s.1.shown r (outcome s.1.fb.file r.device) := by
  rw [Round.present, PanelSink.round]
  dsimp only
  generalize hfb : { (s.1.fb.setBrightness r.brightness).clear with
    toFramebuffer := r.frame, rotation := r.rotation } = fb
  have hfile : fb.file = s.1.fb.file := by
    rw [← hfb]
    exact setBrightness_file s.1.fb r.brightness
  have hpacked : fb.packed = packBuffer r.frame.buffer.toList (buildLut r.brightness)
      r.rotation := by
    have hlut := fb.lut_eq
    have hbrightness : fb.brightness = r.brightness := by
      rw [← hfb]
      exact setBrightness_brightness s.1.fb r.brightness
    rw [hbrightness] at hlut
    rw [PanelBuffer.packed, hlut, ← hfb]
  obtain ⟨sink', hpresent, hlatched, hheld, hshown⟩ :=
    present_spec { s.1 with fb := fb } h r hpacked
  dsimp only at hpresent hlatched hheld hshown
  rw [hfile] at hpresent hlatched hheld hshown
  exact ⟨sink', by rw [hpresent], hlatched, hheld, hshown⟩

theorem exists_latched (sink : PanelSink) : ∃ before, Latched sink before := by
  cases hlatch : sink.fbAvailable with
  | true => exact ⟨.done, hlatch⟩
  | false => exact ⟨.absent, hlatch⟩

theorem present_goesOn (r : Round) (s : PanelSink × List Message) : (r.present s).2 = true := by
  obtain ⟨before, hlatched⟩ := exists_latched s.1
  obtain ⟨s', hround, -⟩ := round_spec hlatched r
  rw [hround]

theorem rounds_spec (rs : List Round) {s : PanelSink × List Message} {before : Written}
    (h : Latched s.1 before) :
    (rounds s rs).1.fb.file = (outcomes s.1.fb.file (rs.map Round.device)).getLast?.elim s.1.fb.file
        (fun w ↦ decide (w = .done)) ∧
      (rounds s rs).1.shown =
        leavesAll s.1.shown rs (outcomes s.1.fb.file (rs.map Round.device)) ∧
      (rounds s rs).2 =
        s.2 ++ announcements before (outcomes s.1.fb.file (rs.map Round.device)) := by
  induction rs generalizing s before with
  | nil => exact ⟨rfl, rfl, (List.append_nil _).symm⟩
  | cons r rs ih =>
    obtain ⟨s', hround, hlatched, hheld, hshown⟩ := round_spec h r
    obtain ⟨hfile, hpanel, hlog⟩ := ih hlatched (s := (s', s.2 ++ _))
    rw [rounds, List.foldl_cons, hround, ← rounds, List.map_cons, outcomes, ← hheld]
    refine ⟨hfile.trans ?_, hpanel.trans ?_, hlog.trans ?_⟩
    · cases hlast : outcomes s'.fb.file (rs.map Round.device) with
      | nil => exact hheld
      | cons w ws => rw [List.getLast?_cons_cons]; rfl
    · rw [hshown]
      rfl
    · rw [announcements, List.append_assoc]

/-- The last message about the panel, a return before there is any. -/
theorem announcements_follow (ws : List Written) (message : Message) (before : Written)
    (h : message = .framebufferAvailable ↔ before = .done) :
    (message :: announcements before ws).IsChain Follows := by
  induction ws generalizing message before with
  | nil => exact .singleton message
  | cons after ws ih =>
    have hlost := ih .framebufferUnavailable .absent (iff_of_false nofun nofun)
    have hfailed := ih .framebufferWriteFailed .failed (iff_of_false nofun nofun)
    rw [announcements]
    by_cases hbefore : before = .done
    · have hmessage := h.mpr hbefore
      subst hbefore hmessage
      cases after with
      | done => exact ih _ .done (iff_of_true rfl rfl)
      | absent => exact hlost.cons_cons ⟨fun _ ↦ rfl, nofun⟩
      | failed => exact hfailed.cons_cons ⟨nofun, nofun⟩
    · have hmessage : message ≠ .framebufferAvailable := fun hm ↦ hbefore (h.mp hm)
      cases after with
      | done =>
        rw [announced, if_neg hbefore]
        exact (ih _ .done (iff_of_true rfl rfl)).cons_cons ⟨nofun, fun _ ↦ hmessage⟩
      | absent =>
        rw [announced, if_neg hbefore]
        exact ih message .absent (iff_of_false hmessage nofun)
      | failed => exact hfailed.cons_cons ⟨nofun, nofun⟩

theorem count_announcements (before : Written) (ws : List Written) :
    (announcements before ws).count .framebufferWriteFailed = ws.count .failed := by
  induction ws generalizing before with
  | nil => rfl
  | cons after ws ih =>
    rw [announcements, List.count_append, ih, List.count_cons, Nat.add_comm]
    by_cases hbefore : before = .done <;> cases after <;> simp [announced, hbefore]

/-- However the device comes, goes and fails. -/
theorem follows_writes (brightness : UInt8) (opened : Bool) (shown : List UInt8) (rs : List Round) :
    Kept (startSink brightness opened shown, []) opened shown rs
      (rounds (startSink brightness opened shown, []) rs) := by
  have hlatched : Latched (startSink brightness opened shown) .done := rfl
  obtain ⟨hheld, hshown, hlog⟩ := rounds_spec rs
    (s := (startSink brightness opened shown, [])) hlatched
  rw [List.nil_append] at hlog
  refine ⟨fun before r after _ ↦ present_goesOn r _, hheld, hshown, hlog, ?_, ?_⟩
  · rw [hlog]
    exact announcements_follow _ _ .done (iff_of_true rfl rfl)
  · rw [hlog]
    exact count_announcements _ _

end BootyCall.Oled.Panel
