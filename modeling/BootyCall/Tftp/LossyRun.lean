import BootyCall.Lib.Iterate
import BootyCall.Tftp.WindowInvariant

namespace BootyCall.Tftp.LossyRun

open Lib.Blocks Lib.Iterate Wire Request DataLoop WindowInvariant

/-- `plain` compares the 16-bit block number with the 64-bit counter, as `windowed_recv_all`
does; `wrapping` takes the counter modulo 65536, as a client for files of any length must. -/
inductive Numbering
  | plain
  | wrapping
  deriving DecidableEq

structure Receiver where
  received : Bytes := []
  expected : ℕ := 1
  count : ℕ := 0
  lastInOrder : UInt16 := 0
  finished : Bool := false
  deriving DecidableEq

def Receiver.expects (num : Numbering) (r : Receiver) (block : UInt16) : Bool :=
  match num with
  | .plain => block.toNat == r.expected
  | .wrapping => block == wireOf r.expected

def Receiver.nudges (num : Numbering) (r : Receiver) : Bool :=
  match num with
  | .plain => r.lastInOrder != 0
  | .wrapping => decide (1 < r.expected)

def Receiver.onPacket (n : Negotiated) (num : Numbering) (r : Receiver) (pkt : Bytes) :
    Receiver × List Bytes :=
  match parseDataPacket pkt with
  | none => (r, [])
  | some (block, data) =>
    if r.expects num block then
      let isShort := decide (data.length < n.blksize)
      let acks := decide (r.count + 1 = n.windowsize) || isShort
      ({ received := r.received ++ data
         expected := r.expected + 1
         count := if acks then 0 else r.count + 1
         lastInOrder := block
         finished := isShort }, if acks then [makeAckPacket block] else [])
    else (r, [])

def Receiver.onTimeout (num : Numbering) (r : Receiver) : Receiver × List Bytes :=
  if r.nudges num then ({ r with count := 0 }, [makeAckPacket r.lastInOrder]) else (r, [])

/-- A transfer in which the first transmission of one block is lost. The file may split its
reads in any way; the client waits `wait` milliseconds for a packet, less than the server. -/
structure Scenario where
  negotiated : Negotiated
  file : Bytes
  chunks : ℕ → ℕ → ℕ
  lost : ℕ
  wait : ℕ
  lost_pos : 1 ≤ lost
  lost_le : lost ≤ finalBlock negotiated file
  wait_pos : 0 < wait
  wait_lt : wait < 1000 * negotiated.timeout

structure Net where
  transfer : Transfer := {}
  receiver : Receiver := {}
  toClient : List Bytes := []
  toServer : List Bytes := []
  now : ℕ := 0
  serverSince : ℕ := 0
  clientSince : ℕ := 0

def transferDeadline : ℕ := 120000

variable (sc : Scenario) (num : Numbering)

namespace Net

def expired (s : Net) : Bool := decide (transferDeadline ≤ s.serverSince)

def env (s : Net) (recv : Recv) : Env where
  reads := fun i ↦ some (sc.chunks s.transfer.window.nextToSend i)
  expired := s.expired
  recv := recv

def arrives (s : Net) (p : ℕ × Bytes) : Bool :=
  !(p.1 == sc.lost) || (s.transfer.sent.map Prod.fst).contains sc.lost

def serve (s : Net) (recv : Recv) : Net :=
  let t := step sc.negotiated sc.file s.transfer (s.env sc recv)
  { s with
    transfer := t
    toClient := s.toClient ++
      ((t.sent.drop s.transfer.sent.length).filter (s.arrives sc)).map Prod.snd
    serverSince := s.now }

def consume (s : Net) (r : Receiver × List Bytes) : Net :=
  { s with receiver := r.1, toServer := s.toServer ++ r.2, clientSince := s.now }

def busy (s : Net) : Bool :=
  wantsFill sc.negotiated s.transfer.window || givesUp s.expired s.transfer.window

def clientAt (s : Net) : ℕ := s.clientSince + sc.wait

def serverAt (s : Net) : ℕ := s.serverSince + 1000 * sc.negotiated.timeout

/-- Packets are delivered before any timer fires, and the earlier timer fires first. -/
def tick (s : Net) : Net :=
  if s.transfer.exit.isSome then s
  else if s.busy sc then s.serve sc .timedOut
  else
    match s.toClient, s.toServer with
    | pkt :: rest, _ =>
      if s.receiver.finished then { s with toClient := rest }
      else { s with toClient := rest }.consume (s.receiver.onPacket sc.negotiated num pkt)
    | [], pkt :: rest => { s with toServer := rest }.serve sc (.packet pkt)
    | [], [] =>
      if !s.receiver.finished && decide (s.clientAt sc ≤ s.serverAt sc) then
        { s with now := s.clientAt sc }.consume (s.receiver.onTimeout num)
      else { s with now := s.serverAt sc }.serve sc .timedOut

end Net

/-- The server ends with success, never by giving up, and the client holds the file. -/
def Recovers : Prop :=
  (∃ k, ((Net.tick sc num)^[k] {}).transfer.exit = some .completed ∧
    ((Net.tick sc num)^[k] {}).receiver.received = sc.file) ∧
  ∀ k, ((Net.tick sc num)^[k] {}).transfer.exit ≠ some .gaveUp

end BootyCall.Tftp.LossyRun
