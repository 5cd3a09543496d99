import BootyCall.Tftp.Recovery

namespace BootyCall.Tftp.LossOutcome

open Lib.Blocks Lib.Iterate Wire Request DataLoop WindowInvariant LossyRun Recovery

variable {sc : Scenario} (num : Numbering)

theorem exit_tick (s : Net) (x : Exit) (h : s.transfer.exit = some x) :
    (Net.tick sc num s).transfer.exit = some x := by
  simp [Net.tick, h]

theorem recovers_of_done {s : Net} (hr : Reaches (Net.tick sc num) {} s) (hs : Done sc s) :
    Recovers sc num := by
  refine ⟨?_, fun k hk ↦ ?_⟩
  · obtain ⟨k, rfl⟩ := hr
    exact ⟨k, hs.completed, hs.received⟩
  · have := hr.latched (g := fun s : Net ↦ s.transfer.exit) (exit_tick num) hs.completed k hk
    contradiction

variable {τ r c v : ℕ} {s : Net}

theorem server_timer (h : Stage sc τ r 0 (top sc 0 + 1) 0 [] s) (hr : r < maxRetries)
    (hτ : τ < transferDeadline) (hc : c ≤ s.serverAt sc) :
    ({ s with now := s.serverAt sc, clientSince := c }.serve sc .timedOut).transfer.sent =
        s.transfer.sent ∧
      Stage sc (s.serverAt sc) (r + 1) 0 1 0 []
        ({ s with now := s.serverAt sc, clientSince := c }.serve sc .timedOut) := by
  have hstep : step sc.negotiated sc.file s.transfer (s.env sc .timedOut) =
      { s.transfer with
        window := { s.transfer.window with
          retries := s.transfer.window.retries + 1
          nextToSend := s.transfer.window.base }
        exit := none } := by
    have hg : givesUp s.expired s.transfer.window = false := not_givesUp h hr hτ
    simp only [step, h.running, not_wantsFill h, await, Net.env, hg, receive]
    rfl
  have hinv := inv_step h.inv (s.env sc .timedOut)
  rw [hstep] at hinv
  have hserve : { s with now := s.serverAt sc, clientSince := c }.serve sc .timedOut =
      { s with
        transfer := step sc.negotiated sc.file s.transfer (s.env sc .timedOut)
        now := s.serverAt sc
        serverSince := s.serverAt sc
        clientSince := c } := by
    have henv : Net.env sc { s with now := s.serverAt sc, clientSince := c } .timedOut =
        s.env sc .timedOut := rfl
    simp only [Net.serve, henv, hstep, List.drop_length, List.filter_nil, List.map_nil,
      List.append_nil]
  rw [hserve, hstep]
  exact ⟨rfl, hinv, rfl, h.base, h.base, congrArg (· + 1) h.retries, h.toClient, h.toServer, le_rfl,
    h.receiver, rfl, rfl, hc⟩

theorem silent (h : Stage sc τ r 0 (top sc 0 + 1) 0 [] s) (hr : r < maxRetries)
    (hτ : τ < transferDeadline) (hc : c ≤ s.serverAt sc) :
    ∃ s', Reaches (Net.tick sc num) { s with now := v, clientSince := c } s' ∧
      s'.transfer.sent = s.transfer.sent ∧ Stage sc (s.serverAt sc) (r + 1) 0 1 0 [] s' := by
  have hwait := sc.wait_pos
  induction hk : s.serverAt sc - c using Nat.strong_induction_on generalizing c v with
  | _ k ih =>
    have hquiet : s.receiver.onTimeout num = (s.receiver, []) := by
      rw [h.receiver]
      cases num <;> rfl
    have hbusy : s.busy sc = false := not_busy h hr hτ
    have hidle := idle_tick sc num { s with now := v, clientSince := c } h.running
      hbusy h.toClient h.toServer (by rw [h.receiver]; rfl)
    have hat : Net.clientAt sc { s with now := v, clientSince := c } = c + sc.wait := rfl
    have hat' : Net.serverAt sc { s with now := v, clientSince := c } = s.serverAt sc := rfl
    rw [hat, hat'] at hidle
    by_cases hfirst : c + sc.wait ≤ s.serverAt sc
    · have htick : Net.tick sc num { s with now := v, clientSince := c } =
          { s with now := c + sc.wait, clientSince := c + sc.wait } := by
        rw [hidle, if_pos hfirst, hquiet, Net.consume, List.append_nil]
      obtain ⟨s', hr', hs'⟩ := ih (s.serverAt sc - (c + sc.wait)) (by omega) hfirst rfl
      exact ⟨s', .head htick hr', hs'⟩
    · rw [if_neg hfirst] at hidle
      have hserve := server_timer h hr hτ hc
      exact ⟨_, .one hidle, hserve⟩

theorem recovers_first (h : sc.lost = 1)
    (hnum : num = .plain → finalBlock sc.negotiated sc.file ≤ 65535) : Recovers sc num := by
  have hlost := sc.lost_le
  have hwait := sc.wait_pos
  obtain ⟨s, hr, hd, hs⟩ := loss_window sc num (fun hp ↦ by have := hnum hp; omega)
  simp only [h, Nat.sub_self, Nat.zero_div, Nat.zero_mul] at hs
  have htimeout : sc.negotiated.timeout ≤ 10 := sc.negotiated.timeout_le
  have hsince := hs.serverSince
  have hdue : s.serverAt sc < transferDeadline := by
    rw [Net.serverAt, hsince, transferDeadline]
    omega
  have hcl := hs.clientSince
  obtain ⟨s', hr', hsent, hs'⟩ := silent num hs (by decide) (by decide)
    (c := s.clientSince) (v := s.now) (by omega)
  obtain ⟨s'', hr'', hs''⟩ := finish num hs' (by decide) hdue (Nat.succ_pos _)
    (by rwa [LossDone, hsent]) hnum
  exact recovers_of_done num (hr.trans (hr'.trans hr'')) hs''

theorem recovers_inside (h : ¬sc.negotiated.windowsize ∣ sc.lost - 1)
    (hnum : num = .plain → finalBlock sc.negotiated sc.file ≤ 65535) : Recovers sc num := by
  have hlost := sc.lost_le
  obtain ⟨s, hr, hd, hs⟩ := loss_window sc num (fun hp ↦ by have := hnum hp; omega)
  have hdiv := Nat.div_mul_le_self (sc.lost - 1) sc.negotiated.windowsize
  have hne : (sc.lost - 1) / sc.negotiated.windowsize * sc.negotiated.windowsize ≠
      sc.lost - 1 := fun heq ↦ h (Dvd.intro_left _ heq)
  have htop : sc.lost - 1 ≤
      top sc ((sc.lost - 1) / sc.negotiated.windowsize * sc.negotiated.windowsize) := by
    have hlt := Nat.lt_div_mul_add sc.negotiated.windowsize_ge (a := sc.lost - 1)
    simp only [top]
    omega
  generalize (sc.lost - 1) / sc.negotiated.windowsize * sc.negotiated.windowsize = m at *
  obtain ⟨τ, hτ, hs₁, hd₁⟩ := nudge num hs (by decide) (by decide) (by omega)
    (fun hp ↦ by have := hnum hp; omega)
  obtain ⟨hs₂, hd₂⟩ := ack_partial num hs₁ (by decide) (by omega) htop (by omega)
  have hdue : τ < transferDeadline := by
    rw [transferDeadline]
    omega
  obtain ⟨s₃, hr₃, hs₃⟩ := finish num hs₂ (by decide) hdue (by omega)
    (hd₂.mpr (hd₁.mpr hd)) hnum
  exact recovers_of_done num ((hr.trans (.one rfl)).trans (.head rfl hr₃)) hs₃

theorem gives_up {m : ℕ} (h : Stage sc τ maxRetries m (top sc m + 1) m [] s) :
    (Net.tick sc num s).transfer.exit = some .gaveUp := by
  have hg (b : Bool) : givesUp b s.transfer.window = true := by
    simp [givesUp, h.retries]
  have hw := not_wantsFill h
  simp [Net.tick, h.running, Net.busy, hg, Net.serve, step, hw, await]

theorem stale_run {m : ℕ} (hm : 1 ≤ m) (hnum : num = .plain → m ≤ 65535) (j : ℕ)
    (hj : j ≤ maxRetries) (h : Stage sc 0 0 m (top sc m + 1) m [] s) :
    ∃ s' τ', τ' ≤ j * 10000 ∧ Reaches (Net.tick sc num) s s' ∧
      Stage sc τ' j m (top sc m + 1) m [] s' := by
  induction j with
  | zero => exact ⟨s, 0, le_rfl, .refl _ _, h⟩
  | succ j ih =>
    simp only [maxRetries] at hj
    obtain ⟨s₁, τ₁, hτ₁, hr₁, hs₁⟩ := ih (by simp only [maxRetries]; omega)
    have hr : j < maxRetries := by simp only [maxRetries]; omega
    have hdue : τ₁ < transferDeadline := by simp only [transferDeadline]; omega
    obtain ⟨τ₂, hτ₂, hs₂, -⟩ := nudge num hs₁ hr hdue hm hnum
    exact ⟨_, τ₂, by omega, hr₁.trans (.head rfl (.one rfl)), ack_stale num hs₂ hr⟩

theorem not_recovers_boundary (hk : sc.lost ≠ 1) (h : sc.negotiated.windowsize ∣ sc.lost - 1)
    (hnum : num = .plain → sc.lost ≤ 65536) : ¬Recovers sc num := by
  have hpos := sc.lost_pos
  obtain ⟨s, hr, -, hs⟩ := loss_window sc num hnum
  rw [Nat.div_mul_cancel h] at hs
  obtain ⟨s', τ', -, hr', hs'⟩ := stale_run num (by omega)
    (fun hp ↦ by have := hnum hp; omega) maxRetries le_rfl hs
  obtain ⟨k, hk⟩ := hr.trans (hr'.trans (.one rfl))
  exact fun hrec ↦ hrec.2 k (by rw [hk]; exact gives_up num hs')

/-- With plain numbering the client never gets past block 65535, and the acknowledgements on
their way are recent enough for the server to read them as what they are. -/
structure Stuck (sc : Scenario) (s : Net) : Prop where
  inv : Inv sc.negotiated sc.file s.transfer
  unfinished : s.transfer.exit ≠ some .completed
  expected_pos : 1 ≤ s.receiver.expected
  expected_le : s.receiver.expected ≤ 65536
  base_le : s.transfer.window.base ≤ s.receiver.expected
  last : s.receiver.lastInOrder = wireOf (s.receiver.expected - 1)
  acks : ∃ as : List ℕ, s.toServer = as.map (fun a ↦ makeAckPacket (wireOf a)) ∧
    as.Pairwise (· ≤ ·) ∧
      ∀ a ∈ as, s.transfer.window.base ≤ a + 1 ∧ a + 1 ≤ s.receiver.expected

theorem stuck_init : Stuck sc {} where
  inv := inv_init _ _
  unfinished := by simp
  expected_pos := le_rfl
  expected_le := by decide
  base_le := le_rfl
  last := by simp [wireOf]
  acks := ⟨[], rfl, .nil, by simp⟩

theorem stuck_serve_timedOut (h : Stuck sc s) (hrun : s.transfer.exit = none) :
    Stuck sc (s.serve sc .timedOut) := by
  have hbase : (step sc.negotiated sc.file s.transfer (s.env sc .timedOut)).window.base =
      s.transfer.window.base :=
    (base_step h.inv _).resolve_right fun ⟨_, _, he, _⟩ ↦ by simp [Net.env] at he
  refine ⟨inv_step h.inv _, fun hdone ↦ ?_, h.expected_pos, h.expected_le, ?_, h.last, ?_⟩
  · obtain ⟨_, he, -⟩ := completed_step h.inv hrun _ hdone
    simp [Net.env] at he
  · exact hbase.trans_le h.base_le
  · obtain ⟨as, hq, hsorted, hrange⟩ := h.acks
    exact ⟨as, hq, hsorted, fun a ha ↦ ⟨hbase.trans_le (hrange a ha).1, (hrange a ha).2⟩⟩

theorem stuck_serve_ack (h : Stuck sc s) (hrun : s.transfer.exit = none)
    (hfinal : 65536 ≤ finalBlock sc.negotiated sc.file) {pkt : Bytes} {rest : List Bytes}
    (hq : s.toServer = pkt :: rest) :
    Stuck sc ({ s with toServer := rest }.serve sc (.packet pkt)) := by
  obtain ⟨as, has, hsorted, hrange⟩ := h.acks
  rw [hq] at has
  obtain ⟨a, as, rfl, rfl, rfl⟩ := List.map_eq_cons_iff.mp has.symm
  obtain ⟨hmin, hsorted⟩ := List.pairwise_cons.mp hsorted
  obtain ⟨hlo, hhi⟩ := hrange a List.mem_cons_self
  have hexp := h.expected_le
  have hwin := h.inv.next_le_window
  have hW := sc.negotiated.windowsize_le_32
  have hread {pkt : Bytes} {abs : ℕ} (he : Recv.packet (makeAckPacket (wireOf a)) = .packet pkt)
      (hp : parseAckPacket (pkt.take ackBufLen) = some (wireOf abs))
      (hb : s.transfer.window.base ≤ abs) (hn : abs < s.transfer.window.nextToSend) :
      abs = a := by
    obtain rfl := Recv.packet.inj he
    rw [makeAckPacket_take, parseAckPacket_makeAckPacket] at hp
    exact (eq_of_wireOf_eq (Option.some.inj hp) (by omega) (by omega)).symm
  have hbase : (step sc.negotiated sc.file s.transfer
      (s.env sc (.packet (makeAckPacket (wireOf a))))).window.base ≤ a + 1 := by
    rcases base_step h.inv (s.env sc (.packet (makeAckPacket (wireOf a)))) with
      hbase | ⟨pkt, abs, he, hp, hb, hn, hbase⟩
    · exact hbase.trans_le hlo
    · rw [hbase, hread he hp hb hn]
  refine ⟨inv_step h.inv _, fun hdone ↦ ?_, h.expected_pos, h.expected_le, hbase.trans hhi,
    h.last, as, rfl, hsorted, fun b hb ↦ ⟨hbase.trans (Nat.succ_le_succ (hmin b hb)),
      (hrange b (List.mem_cons_of_mem _ hb)).2⟩⟩
  obtain ⟨pkt, he, -, hp, hb, hn⟩ := completed_step h.inv hrun _ hdone
  have := hread he hp hb hn
  omega

/-- What a receiver does that knows how far it has counted: it keeps counting up to 65536 and
acknowledges at most its last in-order block. -/
structure Counts (r : Receiver) (out : Receiver × List Bytes) : Prop where
  acks : out.2 = [] ∨ out.2 = [makeAckPacket out.1.lastInOrder]
  last : out.1.lastInOrder = wireOf (out.1.expected - 1)
  expected_le : out.1.expected ≤ 65536
  grows : r.expected ≤ out.1.expected

theorem Counts.unchanged {r : Receiver} (hlast : r.lastInOrder = wireOf (r.expected - 1))
    (hexp : r.expected ≤ 65536) : Counts r (r, []) :=
  ⟨.inl rfl, hlast, hexp, le_rfl⟩

theorem counts_onPacket (n : Negotiated) {r : Receiver}
    (hlast : r.lastInOrder = wireOf (r.expected - 1)) (hexp : r.expected ≤ 65536)
    (pkt : Bytes) : Counts r (r.onPacket n .plain pkt) := by
  rw [Receiver.onPacket]
  split
  · exact .unchanged hlast hexp
  · next block data _ =>
    split
    · next hexpects =>
      have hblock : block.toNat = r.expected := by
        simpa [Receiver.expects] using hexpects
      have hlt := block.toNat_lt
      have hwire : block = wireOf r.expected := by
        apply UInt16.toNat_inj.mp
        rw [wireOf_toNat, hblock]
        omega
      refine ⟨?_, hwire, Nat.succ_le_of_lt (hblock ▸ hlt), Nat.le_succ _⟩
      dsimp only
      split
      · exact .inr rfl
      · exact .inl rfl
    · exact .unchanged hlast hexp

theorem counts_onTimeout {r : Receiver} (hlast : r.lastInOrder = wireOf (r.expected - 1))
    (hexp : r.expected ≤ 65536) : Counts r (r.onTimeout .plain) := by
  rw [Receiver.onTimeout]
  split
  · exact ⟨.inr rfl, hlast, hexp, le_rfl⟩
  · exact .unchanged hlast hexp

theorem stuck_consume (h : Stuck sc s) {out : Receiver × List Bytes}
    (hout : Counts s.receiver out) : Stuck sc (s.consume out) := by
  have hpos := h.expected_pos
  have hbase := h.base_le
  have hgrow := hout.grows
  obtain ⟨as, hq, hsorted, hrange⟩ := h.acks
  have hold (a : ℕ) (ha : a ∈ as) : (s.consume out).transfer.window.base ≤ a + 1 ∧
      a + 1 ≤ (s.consume out).receiver.expected :=
    ⟨(hrange a ha).1, (hrange a ha).2.trans hgrow⟩
  refine ⟨h.inv, h.unfinished, hpos.trans hgrow, hout.expected_le, hbase.trans hgrow,
    hout.last, ?_⟩
  rcases hout.acks with hacks | hacks
  · exact ⟨as, by simp [Net.consume, hq, hacks], hsorted, hold⟩
  · refine ⟨as ++ [out.1.expected - 1], by simp [Net.consume, hq, hacks, hout.last], ?_, ?_⟩
    · refine List.pairwise_append.mpr ⟨hsorted, List.pairwise_singleton _ _, fun a ha b hb ↦ ?_⟩
      obtain rfl := List.mem_singleton.mp hb
      have := (hrange a ha).2
      omega
    · intro a ha
      rcases List.mem_append.mp ha with ha | ha
      · exact hold a ha
      · obtain rfl := List.mem_singleton.mp ha
        dsimp only [Net.consume]
        omega

theorem stuck_tick (h : Stuck sc s) (hfinal : 65536 ≤ finalBlock sc.negotiated sc.file) :
    Stuck sc (Net.tick sc .plain s) := by
  rw [Net.tick]
  split
  · exact h
  · next hexit =>
    have hrun : s.transfer.exit = none := by simpa using hexit
    split
    · exact stuck_serve_timedOut h hrun
    · split
      · next pkt rest _ =>
        have h' : Stuck sc { s with toClient := rest } :=
          ⟨h.inv, h.unfinished, h.expected_pos, h.expected_le, h.base_le, h.last, h.acks⟩
        split
        · exact h'
        · exact stuck_consume h' (counts_onPacket _ h.last h.expected_le pkt)
      · next pkt rest hq hs => exact stuck_serve_ack h hrun hfinal hs
      · have h' (now : ℕ) : Stuck sc { s with now } :=
          ⟨h.inv, h.unfinished, h.expected_pos, h.expected_le, h.base_le, h.last, h.acks⟩
        split
        · exact stuck_consume (h' _) (counts_onTimeout h.last h.expected_le)
        · exact stuck_serve_timedOut (h' _) hrun

theorem not_recovers_long (h : 65536 ≤ finalBlock sc.negotiated sc.file) :
    ¬Recovers sc .plain := fun ⟨⟨k, hdone, _⟩, _⟩ ↦
  (invariant_iterate (fun _ hs ↦ stuck_tick hs h) stuck_init k).unfinished hdone

/-- A single loss is recovered from exactly when it is not at the start of a later window, and
the client can count as far as the file goes. -/
theorem single_loss_recovery (sc : Scenario) (num : Numbering) :
    Recovers sc num ↔
      (sc.lost = 1 ∨ ¬sc.negotiated.windowsize ∣ sc.lost - 1) ∧
        (num = .plain → finalBlock sc.negotiated sc.file ≤ 65535) := by
  by_cases hnum : num = .plain → finalBlock sc.negotiated sc.file ≤ 65535
  · rw [and_iff_left hnum]
    constructor
    · intro hrec
      by_contra hno
      have hlost := sc.lost_le
      obtain ⟨hne, hdvd⟩ := not_or.mp hno
      exact not_recovers_boundary num hne (not_not.mp hdvd)
        (fun hp ↦ by have := hnum hp; omega) hrec
    · rintro (hfirst | hinside)
      · exact recovers_first num hfirst hnum
      · exact recovers_inside num hinside hnum
  · refine iff_of_false (fun hrec ↦ hnum fun hp ↦ ?_) fun h ↦ hnum h.2
    subst hp
    by_contra hlong
    exact not_recovers_long (by omega) hrec

def secondBlockLost : Scenario where
  negotiated := negotiate { filename := "", mode := "octet" }
  file := List.replicate 512 0
  chunks := fun _ _ ↦ 0
  lost := 2
  wait := 250
  lost_pos := by decide
  lost_le := by
    rw [finalBlock, lastIndex, List.length_replicate]
    exact le_rfl
  wait_pos := by decide
  wait_lt := by decide

theorem secondBlockLost_gives_up : ¬Recovers secondBlockLost .plain :=
  not_recovers_boundary .plain (by decide) (one_dvd _) (fun _ ↦ by decide)

end BootyCall.Tftp.LossOutcome
