import BootyCall.Tftp.WindowInvariant
import Mathlib.Logic.Relation

namespace BootyCall.Tftp.Agreement

open Lib.Blocks Wire Request DataLoop WindowInvariant

/-- A client that accepts only the next block in order, and stops at the first short one. -/
structure Client where
  blocks : List Bytes := []
  finished : Bool := false

def Client.accept (n : Negotiated) (c : Client) (pkt : Bytes) : Client :=
  if c.finished then c
  else
    match parseDataPacket pkt with
    | some (block, data) =>
      if block = wireOf (c.blocks.length + 1) then
        { blocks := c.blocks ++ [data], finished := decide (data.length < n.blksize) }
      else c
    | none => c

def Client.bytes (c : Client) : Bytes := c.blocks.flatten

def Client.ack (c : Client) : Bytes := makeAckPacket (wireOf c.blocks.length)

/-- A packet in flight, stamped with the sender's `base` at the moment it was sent. -/
structure Flying where
  stamp : ℕ
  bytes : Bytes
  deriving DecidableEq

structure System where
  transfer : Transfer := {}
  client : Client := {}
  toClient : List Flying := []
  toServer : List Flying := []

/-- How far `base` may advance before a packet still in flight is gone for good. -/
def lifetime : ℕ := 65000

def System.fresh (s : System) (p : Flying) : Prop :=
  s.transfer.window.base < p.stamp + lifetime

instance (s : System) (p : Flying) : Decidable (s.fresh p) := Nat.decLt _ _

def System.serve (n : Negotiated) (file : Bytes) (s : System) (e : Env) : System :=
  let t := step n file s.transfer e
  { s with
    transfer := t
    toClient := s.toClient ++
      (t.sent.drop s.transfer.sent.length).map fun p ↦ ⟨s.transfer.window.base, p.2⟩ }

/-- Packets stay in flight after a delivery, so the network may lose, repeat, delay and reorder
them in any way; the client may acknowledge what it holds at any moment. -/
inductive Step (n : Negotiated) (file : Bytes) : System → System → Prop
  | serve (s : System) (e : Env)
      (h : ∀ pkt, e.recv = .packet pkt → ∃ p ∈ s.toServer, s.fresh p ∧ p.bytes = pkt) :
      Step n file s (s.serve n file e)
  | deliver (s : System) (p : Flying) (hp : p ∈ s.toClient) (h : s.fresh p) :
      Step n file s { s with client := s.client.accept n p.bytes }
  | acknowledge (s : System) :
      Step n file s { s with
        toServer := s.toServer ++ [⟨s.transfer.window.base, s.client.ack⟩] }

def Reachable (n : Negotiated) (file : Bytes) (s : System) : Prop :=
  Relation.ReflTransGen (Step n file) {} s

variable {n : Negotiated} {file : Bytes}

/-- The joint invariant. Sender, client and every packet in flight stay within one turn of the
block counter, so a wire number identifies its block. -/
structure Agree (n : Negotiated) (file : Bytes) (s : System) : Prop where
  sender : Inv n file s.transfer
  blocks : s.client.blocks = (List.range' 1 s.client.blocks.length).map (dataOf n file)
  base_le : s.transfer.window.base ≤ s.client.blocks.length + 1
  held_le : s.client.blocks.length ≤ s.transfer.blocksRead.length
  finished : s.client.finished = true ↔ finalBlock n file ≤ s.client.blocks.length
  data : ∀ p ∈ s.toClient, p.stamp ≤ s.transfer.window.base ∧
    ∃ k, p.bytes = dataPacket n file k ∧ 1 ≤ k ∧ p.stamp ≤ k ∧ k ≤ s.transfer.blocksRead.length
  acks : ∀ p ∈ s.toServer, p.stamp ≤ s.transfer.window.base ∧
    ∃ a, p.bytes = makeAckPacket (wireOf a) ∧ p.stamp ≤ a + 1 ∧ a ≤ s.client.blocks.length

theorem agree_init : Agree n file {} where
  sender := inv_init n file
  blocks := rfl
  base_le := le_rfl
  held_le := le_rfl
  finished := by simp [finalBlock, lastIndex]
  data := by simp
  acks := by simp

theorem agree_deliver {s : System} (h : Agree n file s) {p : Flying} (hp : p ∈ s.toClient)
    (hfresh : s.fresh p) : Agree n file { s with client := s.client.accept n p.bytes } := by
  obtain ⟨hstamp, k, hbytes, hpos, hlow, hhigh⟩ := h.data p hp
  rw [hbytes, Client.accept]
  split
  · exact h
  · next hopen =>
    rw [dataPacket, parseDataPacket_makeDataPacket]
    dsimp only
    split
    · next hwire =>
      -- the wire number is the expected one, and both blocks lie within one turn
      have hwin := h.sender.read_lt_window
      have hW := n.windowsize_le_32
      have hbase := h.base_le
      have hheld := h.held_le
      rw [System.fresh, lifetime] at hfresh
      obtain rfl : k = s.client.blocks.length + 1 :=
        eq_of_wireOf_eq hwire (by omega) (by omega)
      have hlen : (s.client.blocks ++ [dataOf n file (s.client.blocks.length + 1)]).length =
          s.client.blocks.length + 1 := by simp
      exact
        { sender := h.sender
          blocks := by
            dsimp only
            rw [hlen, List.range'_1_concat, List.map_append, ← h.blocks, Nat.add_comm 1]
            rfl
          base_le := by dsimp only; omega
          held_le := by dsimp only; omega
          finished := by
            dsimp only
            rw [hlen, decide_eq_true_iff]
            exact block_length_lt_iff n.blksize_pos file hpos
          data := h.data
          acks := fun q hq ↦ by
            obtain ⟨hq, a, ha, hlo, hle⟩ := h.acks q hq
            exact ⟨hq, a, ha, hlo, by dsimp only; omega⟩ }
    · exact h

theorem agree_serve {s : System} (h : Agree n file s) (e : Env)
    (he : ∀ pkt, e.recv = .packet pkt → ∃ p ∈ s.toServer, s.fresh p ∧ p.bytes = pkt) :
    Agree n file (s.serve n file e) := by
  have hinv := inv_step h.sender e
  have hgrow := grows_step h.sender e
  have hread := hgrow.read_le
  have hmono := hgrow.base_le
  obtain ⟨new, hsent, hnew⟩ := hgrow.sent
  refine
    { sender := hinv
      blocks := h.blocks
      base_le := ?_
      held_le := h.held_le.trans hread
      finished := h.finished
      data := ?_
      acks := fun p hp ↦ ⟨(h.acks p hp).1.trans hmono, (h.acks p hp).2⟩ }
  · rcases base_step h.sender e with hb | ⟨pkt, abs, hpkt, hack, hlo, hhi, hb⟩
    · exact hb.le.trans h.base_le
    · obtain ⟨p, hp, hfresh, rfl⟩ := he pkt hpkt
      obtain ⟨hstamp, a, ha, hlow, hhigh⟩ := h.acks p hp
      have hwire : wireOf a = wireOf abs := by
        rw [ha, makeAckPacket_take, parseAckPacket_makeAckPacket] at hack
        exact Option.some.inj hack
      have hwin := h.sender.next_le_window
      have hread := h.sender.read_lt_window
      have hW := n.windowsize_le_32
      have hheld := h.held_le
      rw [System.fresh, lifetime] at hfresh
      obtain rfl : a = abs := eq_of_wireOf_eq hwire (by omega) (by omega)
      exact hb.le.trans (by dsimp only [System.serve]; omega)
  · intro p hp
    simp only [System.serve, hsent, List.drop_left, List.mem_append, List.mem_map] at hp
    rcases hp with hp | ⟨q, hq, rfl⟩
    · obtain ⟨hstamp, k, hk, hpos, hlow, hhigh⟩ := h.data p hp
      exact ⟨hstamp.trans hmono, k, hk, hpos, hlow, hhigh.trans hread⟩
    · obtain ⟨hpos, hhigh, hbytes⟩ := hinv.sent q (by rw [hsent]; exact List.mem_append_right _ hq)
      exact ⟨hmono, q.1, hbytes, hpos, hnew q hq, hhigh⟩

theorem agree_step {s s' : System} (h : Agree n file s) (hs : Step n file s s') :
    Agree n file s' := by
  cases hs with
  | serve e he => exact agree_serve h e he
  | deliver p hp hfresh => exact agree_deliver h hp hfresh
  | acknowledge =>
    refine { h with acks := fun p hp ↦ ?_ }
    rcases List.mem_append.mp hp with hp | hp
    · exact h.acks p hp
    · obtain rfl := List.mem_singleton.mp hp
      exact ⟨le_rfl, _, rfl, h.base_le, le_rfl⟩

theorem agree_reachable {s : System} (h : Reachable n file s) : Agree n file s := by
  induction h with
  | refl => exact agree_init
  | tail _ hs ih => exact agree_step ih hs

/-- The client holds a prefix of the file that covers everything acknowledged, and all of it
once the sender has left the loop with success. -/
theorem windowed_transfer_agrees {s : System} (h : Reachable n file s) :
    s.transfer.window.base - 1 ≤ s.client.blocks.length ∧
      s.client.bytes <+: file ∧
      (s.transfer.exit = some .completed → s.client.bytes = file) := by
  have hagree := agree_reachable h
  have hbase := hagree.base_le
  have hbytes : s.client.bytes =
      ((List.range' 1 s.client.blocks.length).map (dataOf n file)).flatten := by
    rw [Client.bytes, ← hagree.blocks]
  refine ⟨by omega, ?_, fun hdone ↦ ?_⟩
  · rw [hbytes]
    exact flatten_prefix _ _ _
  · have hall := hagree.sender.finished hdone
    have hheld := hagree.held_le
    have hread := hagree.sender.read_le
    have hlen : s.client.blocks.length = finalBlock n file := by omega
    rw [hbytes, hlen]
    exact flatten_all n.blksize_pos file

def System.deliver (n : Negotiated) (s : System) (p : Flying) : System :=
  { s with client := s.client.accept n p.bytes }

def System.acknowledge (s : System) : System :=
  { s with toServer := s.toServer ++ [⟨s.transfer.window.base, s.client.ack⟩] }

theorem Reachable.serve {s : System} (h : Reachable n file s) {e : Env}
    (he : ∀ pkt, e.recv = .packet pkt → ∃ p ∈ s.toServer, s.fresh p ∧ p.bytes = pkt) :
    Reachable n file (s.serve n file e) :=
  h.tail (.serve s e he)

theorem Reachable.deliver {s : System} (h : Reachable n file s) {p : Flying}
    (hp : p ∈ s.toClient ∧ s.fresh p) : Reachable n file (s.deliver n p) :=
  h.tail (.deliver s p hp.1 hp.2)

theorem Reachable.acknowledge {s : System} (h : Reachable n file s) :
    Reachable n file s.acknowledge :=
  h.tail (.acknowledge s)

def twoBlocks : Bytes := List.replicate 512 7 ++ [9]

def pairs : Negotiated :=
  negotiate { filename := "a", mode := "octet", windowsize := some 2 }

def first : Flying := ⟨1, makeDataPacket 1 (List.replicate 512 7)⟩

def second : Flying := ⟨1, makeDataPacket 2 [9]⟩

def filling : Env := { reads := fun _ ↦ some 511 }

def answered (ack : UInt16) : Env := { recv := .packet (makeAckPacket ack) }

def bothSent : System := (({} : System).serve pairs twoBlocks filling).serve pairs twoBlocks filling

/-- The second block overtakes the first, which arrives twice. -/
def reordered : System :=
  (((bothSent.deliver pairs second).deliver pairs first).deliver pairs first).acknowledge

def caughtUp : System :=
  ((reordered.serve pairs twoBlocks (answered 1)).deliver pairs second).acknowledge

def completed : System :=
  (caughtUp.serve pairs twoBlocks filling).serve pairs twoBlocks (answered 2)

theorem bothSent_reachable : Reachable pairs twoBlocks bothSent :=
  (Reachable.serve .refl (by simp [filling])).serve (by simp [filling])

theorem reordered_reachable : Reachable pairs twoBlocks reordered :=
  (((bothSent_reachable.deliver (by decide +kernel)).deliver (by decide +kernel)).deliver
    (by decide +kernel)).acknowledge

theorem caughtUp_reachable : Reachable pairs twoBlocks caughtUp := by
  have hacked : Reachable pairs twoBlocks (reordered.serve pairs twoBlocks (answered 1)) :=
    reordered_reachable.serve fun pkt hpkt ↦
      ⟨⟨1, makeAckPacket 1⟩, by decide +kernel, by decide +kernel, Recv.packet.inj hpkt⟩
  exact (hacked.deliver (by decide +kernel)).acknowledge

theorem completed_reachable : Reachable pairs twoBlocks completed := by
  have hrepeated : Reachable pairs twoBlocks (caughtUp.serve pairs twoBlocks filling) :=
    caughtUp_reachable.serve (by simp [filling])
  exact hrepeated.serve fun pkt hpkt ↦
    ⟨⟨2, makeAckPacket 2⟩, by decide +kernel, by decide +kernel, Recv.packet.inj hpkt⟩

theorem windowed_transfer_agrees_reordered :
    completed.transfer.window.base - 1 ≤ completed.client.blocks.length ∧
      completed.client.bytes <+: twoBlocks ∧ completed.client.bytes = twoBlocks :=
  have h := windowed_transfer_agrees completed_reachable
  ⟨h.1, h.2.1, h.2.2 (by decide +kernel)⟩

end BootyCall.Tftp.Agreement
