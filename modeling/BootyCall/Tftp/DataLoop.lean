import BootyCall.Lib.Blocks
import BootyCall.Tftp.Request

namespace BootyCall.Tftp.DataLoop

open Lib.Blocks Wire Request

/-- How the file answers each `read` call: `none` fails, `some c` delivers at most `c + 1` bytes. -/
abbrev Reads := ℕ → Option ℕ

def readLoop (file : Bytes) (reads : Reads) : ℕ → ℕ → ℕ → ℕ → Option (Bytes × Bool)
  | 0, _, _, _ => some ([], false)
  | fuel + 1, i, pos, room =>
    if room = 0 then some ([], false)
    else
      match reads i with
      | none => none
      | some c =>
        let got := (file.drop pos).take (min (c + 1) room)
        if got = [] then some ([], true)
        else
          (readLoop file reads fuel (i + 1) (pos + got.length) (room - got.length)).map
            fun r ↦ (got ++ r.1, r.2)

/-- Every read before the end delivers a byte, so `len` rounds fill a buffer of `len` bytes. -/
def readFill (file : Bytes) (reads : Reads) (pos len : ℕ) : Option (Bytes × Bool) :=
  readLoop file reads len 0 pos len

theorem readLoop_spec (file : Bytes) (reads : Reads) (fuel i pos room : ℕ) {r : Bytes × Bool}
    (hfuel : room ≤ fuel) (hpos : pos ≤ file.length)
    (h : readLoop file reads fuel i pos room = some r) :
    r.1 = (file.drop pos).take room ∧ (r.2 = true ↔ file.length < pos + room) := by
  induction fuel generalizing i pos room r with
  | zero =>
    obtain rfl : room = 0 := by omega
    obtain rfl : ([], false) = r := Option.some.inj h
    simpa using hpos
  | succ fuel ih =>
    rw [readLoop] at h
    split at h
    · next hroom =>
      obtain rfl : ([], false) = r := Option.some.inj h
      subst hroom
      simpa using hpos
    · next hroom =>
      split at h
      · contradiction
      · next c hc =>
        dsimp only at h
        split at h
        · next hgot =>
          obtain rfl : ([], true) = r := Option.some.inj h
          have hlen := congrArg List.length hgot
          simp only [List.length_take, List.length_drop, List.length_nil] at hlen
          have hend : pos = file.length := by omega
          subst hend
          simp only [List.drop_length, List.take_nil, true_and, true_iff]
          omega
        · next hgot =>
          obtain ⟨r', hr', rfl⟩ := Option.map_eq_some_iff.mp h
          have hlen : ((file.drop pos).take (min (c + 1) room)).length =
              min (min (c + 1) room) (file.length - pos) := by simp
          have hne := List.length_pos_iff.mpr hgot
          obtain ⟨hbytes, heof⟩ := ih (i + 1) _ _ (by omega) (by omega) hr'
          refine ⟨?_, heof.trans (by omega)⟩
          rw [hbytes]
          generalize hm : ((file.drop pos).take (min (c + 1) room)).length = m at *
          have htake : (file.drop pos).take (min (c + 1) room) = (file.drop pos).take m := by
            rw [List.take_eq_take_iff, List.length_drop]
            omega
          have hsplit : room = m + (room - m) := by omega
          rw [htake, ← List.drop_drop, hsplit, List.take_add, Nat.add_sub_cancel_left]

theorem readLoop_ne_none (file : Bytes) (reads : Reads) (fuel i pos room : ℕ)
    (h : ∀ j, reads j ≠ none) : readLoop file reads fuel i pos room ≠ none := by
  induction fuel generalizing i pos room with
  | zero => simp [readLoop]
  | succ fuel ih =>
    rw [readLoop]
    split
    · simp
    · obtain ⟨c, hc⟩ := Option.ne_none_iff_exists'.mp (h i)
      rw [hc]
      dsimp only
      split
      · simp
      · simpa using ih _ _ _

structure Window where
  filePos : ℕ := 0
  buffered : List (ℕ × Bytes) := []
  base : ℕ := 1
  nextToSend : ℕ := 1
  lastBlock : Option ℕ := none
  retries : ℕ := 0
  deriving DecidableEq

inductive Exit
  | completed
  | clientError
  | gaveUp
  | sendFailed
  | recvFailed
  | readFailed
  deriving DecidableEq

inductive Recv
  | packet (bytes : Bytes)
  | failed
  | timedOut
  deriving DecidableEq

def maxRetries : ℕ := 5
def ackBufLen : ℕ := 1024

variable (n : Negotiated) (file : Bytes)

/-- The condition of the window-filling loop together with its early `break`. -/
def wantsFill (s : Window) : Bool :=
  decide (s.nextToSend < s.base + n.windowsize) &&
    !s.lastBlock.any fun lb ↦ decide (lb < s.nextToSend)

def nextBlock (reads : Reads) (s : Window) : Option (Window × Bytes) :=
  match s.buffered.lookup s.nextToSend with
  | some d => some (s, d)
  | none =>
    (readFill file reads s.filePos n.blksize).map fun r ↦
      ({ s with
        filePos := s.filePos + r.1.length
        lastBlock :=
          if r.2 || decide (r.1.length < n.blksize) then some s.nextToSend else s.lastBlock
        buffered := s.buffered ++ [(s.nextToSend, r.1)] }, r.1)

def findAcked (s : Window) (ackedWire : UInt16) : Option ℕ :=
  (List.range' s.base (s.nextToSend - s.base)).find? fun abs ↦ wireOf abs == ackedWire

def advance (s : Window) (abs : ℕ) : Window × Option Exit :=
  let s' : Window :=
    { s with
      base := abs + 1
      buffered := s.buffered.filter fun p ↦ decide (abs + 1 ≤ p.1)
      retries := 0 }
  if s.lastBlock.any fun lb ↦ decide (lb < abs + 1) then (s', some .completed)
  else if abs + 1 < s.nextToSend then ({ s' with nextToSend := abs + 1 }, none)
  else (s', none)

def givesUp (expired : Bool) (s : Window) : Bool := decide (maxRetries ≤ s.retries) || expired

def receive (recv : Recv) (s : Window) : Window × Option Exit :=
  match recv with
  | .failed => (s, some .recvFailed)
  | .timedOut => ({ s with retries := s.retries + 1, nextToSend := s.base }, none)
  | .packet bytes =>
    if isErrorPacket (bytes.take ackBufLen) then (s, some .clientError)
    else
      match (parseAckPacket (bytes.take ackBufLen)).bind (findAcked s) with
      | some abs => advance s abs
      | none => ({ s with retries := s.retries + 1 }, none)

/-- What the environment answers during one step; each step uses only what it asks for. -/
structure Env where
  reads : Reads := fun _ ↦ some 0
  sendOk : Bool := true
  expired : Bool := false
  recv : Recv := .timedOut

/-- The loop with its history: every transmission, and the blocks in the order they were read. -/
structure Transfer where
  window : Window := {}
  exit : Option Exit := none
  sent : List (ℕ × Bytes) := []
  blocksRead : List ℕ := []
  deriving DecidableEq

def fill (e : Env) (t : Transfer) : Transfer :=
  match nextBlock n file e.reads t.window with
  | none => { t with exit := some .readFailed }
  | some (w, d) =>
    let blocksRead :=
      if (t.window.buffered.lookup t.window.nextToSend).isSome then t.blocksRead
      else t.blocksRead ++ [t.window.nextToSend]
    if e.sendOk then
      { window := { w with nextToSend := w.nextToSend + 1 }
        exit := none
        sent := t.sent ++ [(w.nextToSend, makeDataPacket (wireOf w.nextToSend) d)]
        blocksRead }
    else { t with window := w, exit := some .sendFailed, blocksRead }

def await (e : Env) (t : Transfer) : Transfer :=
  if givesUp e.expired t.window then { t with exit := some .gaveUp }
  else { t with window := (receive e.recv t.window).1, exit := (receive e.recv t.window).2 }

def step (t : Transfer) (e : Env) : Transfer :=
  if t.exit.isSome then t
  else if wantsFill n t.window then fill n file e t
  else await e t

end BootyCall.Tftp.DataLoop
