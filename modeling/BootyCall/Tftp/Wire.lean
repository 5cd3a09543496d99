import Mathlib.Data.UInt
import Mathlib.Data.List.Basic

namespace BootyCall.Tftp.Wire

abbrev Bytes := List UInt8

def opRrq : UInt16 := 1
def opWrq : UInt16 := 2
def opData : UInt16 := 3
def opAck : UInt16 := 4
def opError : UInt16 := 5
def opOack : UInt16 := 6

def asBytes (s : String) : Bytes := s.toUTF8.data.toList

def toBeBytes (n : UInt16) : Bytes := [UInt8.ofNat (n.toNat / 256), UInt8.ofNat (n.toNat % 256)]

def fromBeBytes (hi lo : UInt8) : UInt16 := UInt16.ofNat (hi.toNat * 256 + lo.toNat)

theorem fromBeBytes_toBeBytes (n : UInt16) :
    fromBeBytes (UInt8.ofNat (n.toNat / 256)) (UInt8.ofNat (n.toNat % 256)) = n := by
  have hn := n.toNat_lt
  apply UInt16.toNat_inj.mp
  simp only [fromBeBytes, UInt16.toNat_ofNat', UInt8.toNat_ofNat']
  omega

def opcode : Bytes → Option UInt16
  | a :: b :: _ => some (fromBeBytes a b)
  | _ => none

def makeErrorPacket (code : UInt16) (msg : String) : Bytes :=
  toBeBytes opError ++ toBeBytes code ++ asBytes msg ++ [0]

def makeOackPacket (options : List (String × String)) : Bytes :=
  toBeBytes opOack ++
    options.flatMap fun o ↦ asBytes o.1 ++ [0] ++ asBytes o.2 ++ [0]

def makeDataPacket (blockNum : UInt16) (data : Bytes) : Bytes :=
  toBeBytes opData ++ toBeBytes blockNum ++ data

def makeAckPacket (block : UInt16) : Bytes := toBeBytes opAck ++ toBeBytes block

def makeRrqPacket (filename mode : String) (options : List (String × String)) : Bytes :=
  toBeBytes opRrq ++ asBytes filename ++ [0] ++ asBytes mode ++ [0] ++
    options.flatMap fun o ↦ asBytes o.1 ++ [0] ++ asBytes o.2 ++ [0]

def parseAckPacket (pkt : Bytes) : Option UInt16 := do
  let op ← opcode pkt
  if op ≠ opAck then none
  else if h : pkt.length < 4 then none
  else some (fromBeBytes pkt[2] pkt[3])

def isErrorPacket (pkt : Bytes) : Bool := opcode pkt == some opError

def parseDataPacket (pkt : Bytes) : Option (UInt16 × Bytes) := do
  let op ← opcode pkt
  if op ≠ opData then none
  else if h : pkt.length < 4 then none
  else some (fromBeBytes pkt[2] pkt[3], pkt.drop 4)

theorem parseAckPacket_makeAckPacket (block : UInt16) :
    parseAckPacket (makeAckPacket block) = some block := by
  simp [parseAckPacket, makeAckPacket, toBeBytes, opcode, fromBeBytes_toBeBytes]

theorem parseDataPacket_makeDataPacket (block : UInt16) (data : Bytes) :
    parseDataPacket (makeDataPacket block data) = some (block, data) := by
  simp [parseDataPacket, makeDataPacket, toBeBytes, opcode, fromBeBytes_toBeBytes]

theorem isErrorPacket_makeAckPacket (block : UInt16) :
    isErrorPacket (makeAckPacket block) = false := by
  simp only [isErrorPacket, makeAckPacket, toBeBytes, List.cons_append, opcode,
    fromBeBytes_toBeBytes]
  decide

theorem makeAckPacket_length (block : UInt16) : (makeAckPacket block).length = 4 := rfl

/-- Block numbers are 16 bits wide and wrap from 65535 to 0. -/
def wireOf (abs : ℕ) : UInt16 := UInt16.ofNat (abs % 65536)

theorem wireOf_toNat (abs : ℕ) : (wireOf abs).toNat = abs % 65536 := by
  simp [wireOf]

theorem wireOf_eq_iff {a b : ℕ} : wireOf a = wireOf b ↔ a % 65536 = b % 65536 := by
  rw [← UInt16.toNat_inj, wireOf_toNat, wireOf_toNat]

theorem eq_of_wireOf_eq {a b : ℕ} (h : wireOf a = wireOf b) (hab : a < b + 65536)
    (hba : b < a + 65536) : a = b := by
  have h := wireOf_eq_iff.mp h
  omega

end BootyCall.Tftp.Wire
