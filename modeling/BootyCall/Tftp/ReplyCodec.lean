import BootyCall.Core.Lossy
import BootyCall.Lib.Slice
import BootyCall.Tftp.Request

namespace BootyCall.Tftp.ReplyCodec

open BootyCall.Core Lossy Lib.Slice Lib.Utf8 Wire Request

theorem two_lt {pkt : Bytes} (h : ¬pkt.length < 4) : 2 < pkt.length := by omega

theorem three_lt {pkt : Bytes} (h : ¬pkt.length < 4) : 3 < pkt.length := by omega

def parseErrorPacket (pkt : Bytes) : Option (UInt16 × String) := do
  let op ← opcode pkt
  if op ≠ opError then none
  else if h : pkt.length < 4 then none
  else
    let stop := ((pkt.drop 4).findIdx? (· == 0)).getD (pkt.length - 4)
    some (fromBeBytes (pkt.get ⟨2, two_lt h⟩) (pkt.get ⟨3, three_lt h⟩),
      fromUtf8LossyString ((pkt.drop 4).take stop))

def pairs {α : Type} : List α → List (α × α)
  | a :: b :: rest => (a, b) :: pairs rest
  | _ => []

def parseOackPacket (pkt : Bytes) : Option (List (String × String)) := do
  let op ← opcode pkt
  if op ≠ opOack then none
  else some (pairs ((splitNul (pkt.drop 2) []).map fromUtf8LossyString))

section RoundTrip

def NulFree (s : String) : Prop := '\x00' ∉ s.toList

instance (s : String) : Decidable (NulFree s) := inferInstanceAs (Decidable (_ ∉ _))

def terminated (ss : List String) : Bytes := ss.flatMap fun s ↦ asBytes s ++ [0]

theorem zero_not_mem {s : String} (h : NulFree s) : (0 : UInt8) ∉ asBytes s :=
  fun hmem ↦ h (mem_of_ascii_mem (by decide) hmem)

theorem splitNul_append (bs current rest : Bytes) (h : (0 : UInt8) ∉ bs) :
    splitNul (bs ++ 0 :: rest) current = (current ++ bs) :: splitNul rest [] := by
  induction bs generalizing current with
  | nil => simp [splitNul]
  | cons b bs ih =>
    obtain ⟨hb, hbs⟩ := not_or.mp (mt List.mem_cons.mpr h)
    rw [List.cons_append, splitNul, if_neg (Ne.symm hb), ih _ hbs, List.append_assoc]
    rfl

theorem splitNul_terminated (ss : List String) (h : ∀ s ∈ ss, NulFree s) :
    splitNul (terminated ss) [] = ss.map asBytes := by
  induction ss with
  | nil => rfl
  | cons s ss ih =>
    have htail := ih fun s hs ↦ h s (List.mem_cons_of_mem _ hs)
    rw [terminated, List.flatMap_cons, List.append_assoc, List.singleton_append,
      splitNul_append _ _ _ (zero_not_mem (h s List.mem_cons_self)), List.nil_append,
      List.map_cons]
    exact congrArg _ htail

def flatten (options : List (String × String)) : List String :=
  options.flatMap fun o ↦ [o.1, o.2]

theorem terminated_flatten (options : List (String × String)) :
    terminated (flatten options) =
      options.flatMap fun o ↦ asBytes o.1 ++ [0] ++ asBytes o.2 ++ [0] := by
  rw [terminated, flatten, List.flatMap_assoc]
  simp

theorem pairs_flatten (options : List (String × String)) : pairs (flatten options) = options := by
  induction options with
  | nil => rfl
  | cons o options ih =>
    rw [flatten, List.flatMap_cons]
    exact congrArg _ ih

theorem nulFree_flatten {options : List (String × String)}
    (h : ∀ o ∈ options, NulFree o.1 ∧ NulFree o.2) : ∀ s ∈ flatten options, NulFree s := by
  intro s hs
  obtain ⟨o, ho, hmem⟩ := List.mem_flatMap.mp hs
  rcases List.mem_pair.mp hmem with rfl | rfl
  · exact (h o ho).1
  · exact (h o ho).2

theorem lossy_asBytes (s : String) : fromUtf8LossyString (asBytes s) = s :=
  fromUtf8LossyString_bytes s

theorem parseOackPacket_makeOackPacket (options : List (String × String))
    (h : ∀ o ∈ options, NulFree o.1 ∧ NulFree o.2) :
    parseOackPacket (makeOackPacket options) = some options := by
  have hop : opcode (makeOackPacket options) = some opOack := by
    simp [makeOackPacket, toBeBytes, opcode, fromBeBytes_toBeBytes]
  have hbody : (makeOackPacket options).drop 2 = terminated (flatten options) := by
    rw [terminated_flatten]
    rfl
  have hmap : (flatten options).map (fromUtf8LossyString ∘ asBytes) = flatten options :=
    List.map_id'' lossy_asBytes _
  rw [parseOackPacket, hop, hbody, splitNul_terminated _ (nulFree_flatten h), List.map_map, hmap,
    pairs_flatten]
  rfl

theorem parseErrorPacket_makeErrorPacket (code : UInt16) (msg : String) (h : NulFree msg) :
    parseErrorPacket (makeErrorPacket code msg) = some (code, msg) := by
  have hpkt : makeErrorPacket code msg = UInt8.ofNat (opError.toNat / 256) ::
      UInt8.ofNat (opError.toNat % 256) :: UInt8.ofNat (code.toNat / 256) ::
      UInt8.ofNat (code.toNat % 256) :: (asBytes msg ++ [0]) := by
    simp [makeErrorPacket, toBeBytes]
  have hfind : (asBytes msg ++ [0]).findIdx? (· == 0) = some (asBytes msg).length := by
    have hnone : (asBytes msg).findIdx? (· == 0) = none :=
      List.findIdx?_eq_none_iff.mpr fun b hb ↦ beq_false_of_ne fun h0 ↦ zero_not_mem h (h0 ▸ hb)
    simp [List.findIdx?_append, hnone]
  simp [parseErrorPacket, hpkt, opcode, fromBeBytes_toBeBytes, hfind, lossy_asBytes]

end RoundTrip

section Opcode

variable {pkt : Bytes}

/-- Everything that is sent on a transfer, in both directions. -/
inductive Packet
  | rrq (filename mode : String) (options : List (String × String))
  | data (blockNum : UInt16) (payload : Bytes)
  | ack (block : UInt16)
  | error (code : UInt16) (msg : String)
  | oack (options : List (String × String))

namespace Packet

def encode : Packet → Bytes
  | rrq filename mode options => makeRrqPacket filename mode options
  | data blockNum payload => makeDataPacket blockNum payload
  | ack block => makeAckPacket block
  | error code msg => makeErrorPacket code msg
  | oack options => makeOackPacket options

def op : Packet → UInt16
  | rrq _ _ _ => opRrq
  | data _ _ => opData
  | ack _ => opAck
  | error _ _ => opError
  | oack _ => opOack

theorem opcode_encode (p : Packet) : opcode p.encode = some p.op := by
  cases p <;>
    simp [encode, op, makeRrqPacket, makeDataPacket, makeAckPacket, makeErrorPacket,
      makeOackPacket, toBeBytes, opcode, fromBeBytes_toBeBytes]

end Packet

theorem parseErrorPacket_eq_none (h : opcode pkt ≠ some opError) : parseErrorPacket pkt = none := by
  rw [parseErrorPacket]
  cases hop : opcode pkt with
  | none => rfl
  | some op =>
    have hne : op ≠ opError := fun heq ↦ h (hop.trans (congrArg some heq))
    exact if_pos hne

theorem parseDataPacket_eq_none (h : opcode pkt ≠ some opData) : parseDataPacket pkt = none := by
  rw [parseDataPacket]
  cases hop : opcode pkt with
  | none => rfl
  | some op =>
    have hne : op ≠ opData := fun heq ↦ h (hop.trans (congrArg some heq))
    exact if_pos hne

theorem parseAckPacket_eq_none (h : opcode pkt ≠ some opAck) : parseAckPacket pkt = none := by
  rw [parseAckPacket]
  cases hop : opcode pkt with
  | none => rfl
  | some op =>
    have hne : op ≠ opAck := fun heq ↦ h (hop.trans (congrArg some heq))
    exact if_pos hne

theorem parseOackPacket_eq_none (h : opcode pkt ≠ some opOack) : parseOackPacket pkt = none := by
  rw [parseOackPacket]
  cases hop : opcode pkt with
  | none => rfl
  | some op =>
    have hne : op ≠ opOack := fun heq ↦ h (hop.trans (congrArg some heq))
    exact if_pos hne

theorem isErrorPacket_eq_false (h : opcode pkt ≠ some opError) : isErrorPacket pkt = false :=
  beq_false_of_ne h

theorem parseRrq_eq_none (h : opcode pkt ≠ some opRrq) : parseRrq pkt = none := if_pos (.inr h)

end Opcode

section Bounds

def opcodeAt (pkt : Bytes) : Access (Option UInt16) :=
  if pkt.length < 2 then return none
  else do
    let hi ← index pkt 0
    let lo ← index pkt 1
    return some (fromBeBytes hi lo)

def wordAt (pkt : Bytes) : Access UInt16 := do
  let hi ← index pkt 2
  let lo ← index pkt 3
  return fromBeBytes hi lo

def parseAckPacketAt (pkt : Bytes) : Access (Option UInt16) := do
  let some op ← opcodeAt pkt | return none
  if op ≠ opAck ∨ pkt.length < 4 then return none
  else return some (← wordAt pkt)

def isErrorPacketAt (pkt : Bytes) : Access Bool := return (← opcodeAt pkt) == some opError

def parseErrorPacketAt (pkt : Bytes) : Access (Option (UInt16 × String)) := do
  let some op ← opcodeAt pkt | return none
  if op ≠ opError ∨ pkt.length < 4 then return none
  else
    let code ← wordAt pkt
    let rest ← sliceFrom pkt 4
    let stop := (rest.findIdx? (· == 0)).getD (pkt.length - 4)
    let msg ← slice pkt 4 (4 + stop)
    return some (code, fromUtf8LossyString msg)

def parseDataPacketAt (pkt : Bytes) : Access (Option (UInt16 × Bytes)) := do
  let some op ← opcodeAt pkt | return none
  if op ≠ opData ∨ pkt.length < 4 then return none
  else
    let block ← wordAt pkt
    let payload ← sliceFrom pkt 4
    return some (block, payload)

def pairsAt {α : Type} (parts : List α) (i : ℕ) : Access (List (α × α)) :=
  if i + 1 < parts.length then do
    let name ← index parts i
    let val ← index parts (i + 1)
    let rest ← pairsAt parts (i + 2)
    return (name, val) :: rest
  else return []
termination_by parts.length - i

def parseOackPacketAt (pkt : Bytes) : Access (Option (List (String × String))) := do
  let some op ← opcodeAt pkt | return none
  if op ≠ opOack then return none
  else
    let rest ← sliceFrom pkt 2
    return some (← pairsAt ((splitNul rest []).map fromUtf8LossyString) 0)

variable (pkt : Bytes)

theorem opcodeAt_eq : opcodeAt pkt = .ok (opcode pkt) := by
  rcases pkt with _ | ⟨hi, _ | ⟨lo, rest⟩⟩
  · rfl
  · rfl
  · simp [opcodeAt, index_eq, opcode]
    rfl

theorem wordAt_eq {pkt : Bytes} (h : ¬pkt.length < 4) :
    wordAt pkt = .ok (fromBeBytes (pkt.get ⟨2, two_lt h⟩) (pkt.get ⟨3, three_lt h⟩)) := by
  rw [wordAt, index_eq (two_lt h), index_eq (three_lt h)]
  rfl

theorem parseAckPacketAt_eq : parseAckPacketAt pkt = .ok (parseAckPacket pkt) := by
  simp only [parseAckPacketAt, opcodeAt_eq, parseAckPacket, bind, Except.bind, pure, Except.pure]
  cases opcode pkt with
  | none => rfl
  | some op =>
    by_cases hop : op = opAck
    · by_cases hlen : pkt.length < 4
      · simp [hop, hlen]
      · simp [hop, hlen, wordAt_eq hlen]
    · simp [hop]

theorem isErrorPacketAt_eq : isErrorPacketAt pkt = .ok (isErrorPacket pkt) := by
  rw [isErrorPacketAt, opcodeAt_eq]
  rfl

theorem parseDataPacketAt_eq : parseDataPacketAt pkt = .ok (parseDataPacket pkt) := by
  simp only [parseDataPacketAt, opcodeAt_eq, parseDataPacket, bind, Except.bind, pure, Except.pure]
  cases opcode pkt with
  | none => rfl
  | some op =>
    by_cases hop : op = opData
    · by_cases hlen : pkt.length < 4
      · simp [hop, hlen]
      · simp [hop, hlen, wordAt_eq hlen, sliceFrom_eq (Nat.le_of_not_lt hlen)]
    · simp [hop]

theorem stop_le {pkt : Bytes} (h : ¬pkt.length < 4) :
    4 + ((pkt.drop 4).findIdx? (· == 0)).getD (pkt.length - 4) ≤ pkt.length := by
  cases hfind : (pkt.drop 4).findIdx? (· == 0) with
  | none =>
    rw [Option.getD_none]
    omega
  | some i =>
    obtain ⟨hi, -⟩ := List.findIdx?_eq_some_iff_getElem.mp hfind
    rw [List.length_drop] at hi
    rw [Option.getD_some]
    omega

theorem parseErrorPacketAt_eq : parseErrorPacketAt pkt = .ok (parseErrorPacket pkt) := by
  simp only [parseErrorPacketAt, opcodeAt_eq, parseErrorPacket, bind, Except.bind, pure,
    Except.pure]
  cases opcode pkt with
  | none => rfl
  | some op =>
    by_cases hop : op = opError
    · by_cases hlen : pkt.length < 4
      · simp [hop, hlen]
      · have hmsg := slice_eq (Nat.le_add_right 4 _) (stop_le hlen)
        rw [Nat.add_sub_cancel_left] at hmsg
        simp [hop, hlen, wordAt_eq hlen, sliceFrom_eq (Nat.le_of_not_lt hlen), hmsg]
    · simp [hop]

theorem pairsAt_eq {α : Type} (parts : List α) (i : ℕ) :
    pairsAt parts i = .ok (pairs (parts.drop i)) := by
  induction i using pairsAt.induct parts with
  | case1 i h ih =>
    rw [pairsAt, if_pos h, index_eq (by omega), index_eq h, ih,
      List.drop_eq_getElem_cons (by omega : i < parts.length), List.drop_eq_getElem_cons h]
    rfl
  | case2 i h =>
    rw [pairsAt, if_neg h]
    have hlen : (parts.drop i).length ≤ 1 := by
      rw [List.length_drop]
      omega
    match parts.drop i, hlen with
    | [], _ => rfl
    | [_], _ => rfl

theorem parseOackPacketAt_eq : parseOackPacketAt pkt = .ok (parseOackPacket pkt) := by
  simp only [parseOackPacketAt, opcodeAt_eq, parseOackPacket, bind, Except.bind, pure,
    Except.pure]
  cases hop : opcode pkt with
  | none => rfl
  | some op =>
    by_cases hoack : op = opOack
    · have hlen : 2 ≤ pkt.length := by
        rcases pkt with _ | ⟨hi, _ | ⟨lo, rest⟩⟩
        · cases hop
        · cases hop
        · simp
      simp [hoack, sliceFrom_eq hlen, pairsAt_eq]
    · simp [hoack]

end Bounds

/-- Every reply is decoded to what it was made of and by its own decoder only, and no decoder
reads outside a packet. -/
theorem reply_codecs :
    (∀ code msg, NulFree msg → parseErrorPacket (makeErrorPacket code msg) = some (code, msg)) ∧
    (∀ blockNum data, parseDataPacket (makeDataPacket blockNum data) = some (blockNum, data)) ∧
    (∀ block, parseAckPacket (makeAckPacket block) = some block) ∧
    (∀ options : List (String × String), (∀ o ∈ options, NulFree o.1 ∧ NulFree o.2) →
      parseOackPacket (makeOackPacket options) = some options) ∧
    (∀ p : Packet,
      (p.op ≠ opError → isErrorPacket p.encode = false ∧ parseErrorPacket p.encode = none) ∧
      (p.op ≠ opData → parseDataPacket p.encode = none) ∧
      (p.op ≠ opAck → parseAckPacket p.encode = none) ∧
      (p.op ≠ opOack → parseOackPacket p.encode = none) ∧
      (p.op ≠ opRrq → parseRrq p.encode = none)) ∧
    ∀ pkt : Bytes,
      opcodeAt pkt = .ok (opcode pkt) ∧
      isErrorPacketAt pkt = .ok (isErrorPacket pkt) ∧
      parseErrorPacketAt pkt = .ok (parseErrorPacket pkt) ∧
      parseDataPacketAt pkt = .ok (parseDataPacket pkt) ∧
      parseAckPacketAt pkt = .ok (parseAckPacket pkt) ∧
      parseOackPacketAt pkt = .ok (parseOackPacket pkt) := by
  refine ⟨parseErrorPacket_makeErrorPacket, parseDataPacket_makeDataPacket,
    parseAckPacket_makeAckPacket, parseOackPacket_makeOackPacket, fun p ↦ ?_, fun pkt ↦ ?_⟩
  · have hop {op : UInt16} (h : p.op ≠ op) : opcode p.encode ≠ some op := by
      rw [p.opcode_encode]
      exact fun heq ↦ h (Option.some.inj heq)
    exact ⟨fun h ↦ ⟨isErrorPacket_eq_false (hop h), parseErrorPacket_eq_none (hop h)⟩,
      fun h ↦ parseDataPacket_eq_none (hop h), fun h ↦ parseAckPacket_eq_none (hop h),
      fun h ↦ parseOackPacket_eq_none (hop h), fun h ↦ parseRrq_eq_none (hop h)⟩
  · exact ⟨opcodeAt_eq pkt, isErrorPacketAt_eq pkt, parseErrorPacketAt_eq pkt,
      parseDataPacketAt_eq pkt, parseAckPacketAt_eq pkt, parseOackPacketAt_eq pkt⟩

end BootyCall.Tftp.ReplyCodec
