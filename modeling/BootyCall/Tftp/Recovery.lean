import BootyCall.Tftp.LossyRun

namespace BootyCall.Tftp.Recovery

open Lib.Blocks Lib.Iterate Wire Request DataLoop WindowInvariant LossyRun

theorem step_ack {n : Negotiated} {file : Bytes} {t : Transfer} {e : Env} (hrun : t.exit = none)
    (hw : wantsFill n t.window = false) (hg : givesUp e.expired t.window = false) {a : ℕ}
    (he : e.recv = .packet (makeAckPacket (wireOf a))) (hlo : t.window.base ≤ a)
    (hhi : a < t.window.nextToSend) (h : Inv n file t) :
    step n file t e =
      { t with window := (advance t.window a).1, exit := (advance t.window a).2 } := by
  have hwin := h.next_le_window
  have hW := n.windowsize_le_32
  simp only [step, hrun, Option.isSome_none, Bool.false_eq_true, if_false, hw, await, hg, he,
    receive_ack, findAcked_wireOf hlo hhi (by omega)]

theorem step_stale {n : Negotiated} {file : Bytes} {t : Transfer} {e : Env} (hrun : t.exit = none)
    (hw : wantsFill n t.window = false) (hg : givesUp e.expired t.window = false) {a : ℕ}
    (he : e.recv = .packet (makeAckPacket (wireOf a))) (ha : t.window.base = a + 1)
    (h : Inv n file t) :
    step n file t e =
      { t with window := { t.window with retries := t.window.retries + 1 }, exit := none } := by
  have hwin := h.next_le_window
  have hW := n.windowsize_le_32
  simp only [step, hrun, Option.isSome_none, Bool.false_eq_true, if_false, hw, await, hg, he,
    receive_ack, findAcked_stale (show a < t.window.base by omega) (by omega)]

theorem advance_open {n : Negotiated} {file : Bytes} {t : Transfer} (h : Inv n file t) {a : ℕ}
    (hhi : a < t.window.nextToSend) (ha : a < finalBlock n file) :
    (advance t.window a).2 = none ∧ (advance t.window a).1.base = a + 1 ∧
      (advance t.window a).1.nextToSend = a + 1 ∧ (advance t.window a).1.retries = 0 := by
  have hl : ¬(t.window.lastBlock.any fun lb ↦ decide (lb < a + 1)) = true := fun hl ↦ by
    have := ((last_lt_iff h _).mp hl).2
    omega
  rw [advance, if_neg hl]
  split
  · exact ⟨rfl, rfl, rfl, rfl⟩
  · exact ⟨rfl, rfl, by dsimp only; omega, rfl⟩

theorem advance_final {n : Negotiated} {file : Bytes} {t : Transfer} (h : Inv n file t)
    (hhi : finalBlock n file < t.window.nextToSend) :
    (advance t.window (finalBlock n file)).2 = some .completed := by
  have hnext := h.next_le_read
  rw [advance, if_pos ((last_lt_iff h _).mpr ⟨by omega, by omega⟩)]

variable (sc : Scenario) (num : Numbering)

def top (m : ℕ) : ℕ := min (m + sc.negotiated.windowsize) (finalBlock sc.negotiated sc.file)

def packets (k j : ℕ) : List Bytes :=
  (List.range' k j).map (dataPacket sc.negotiated sc.file)

theorem packets_succ (k j : ℕ) :
    packets sc k (j + 1) = dataPacket sc.negotiated sc.file k :: packets sc (k + 1) j := by
  simp only [packets, List.range'_succ, List.map_cons]

def holding (i c : ℕ) : Receiver where
  received := sc.file.take (i * sc.negotiated.blksize)
  expected := i + 1
  count := c
  lastInOrder := wireOf i
  finished := false

def LossDone (s : Net) : Prop := sc.lost ∈ s.transfer.sent.map Prod.fst

/-- `m` blocks are acknowledged, the server transmits block `next` next, the client holds `i`
blocks, and the packets `q` are on their way to it. -/
structure Stage (τ r m next i : ℕ) (q : List Bytes) (s : Net) : Prop where
  inv : Inv sc.negotiated sc.file s.transfer
  running : s.transfer.exit = none
  base : s.transfer.window.base = m + 1
  next : s.transfer.window.nextToSend = next
  retries : s.transfer.window.retries = r
  toClient : s.toClient = q
  toServer : s.toServer = []
  held : m ≤ i
  receiver : s.receiver = holding sc i (i - m)
  now : s.now = τ
  serverSince : s.serverSince = τ
  clientSince : s.clientSince ≤ τ

theorem stage_init : Stage sc 0 0 0 1 0 [] {} where
  inv := inv_init _ _
  running := rfl
  base := rfl
  next := rfl
  retries := rfl
  toClient := rfl
  toServer := rfl
  held := le_rfl
  receiver := by simp [holding, wireOf]
  now := rfl
  serverSince := rfl
  clientSince := le_rfl

variable {sc} {τ r m next i : ℕ} {q : List Bytes} {s : Net}

theorem arrives_iff (s : Net) (p : ℕ × Bytes) :
    s.arrives sc p = true ↔ p.1 ≠ sc.lost ∨ LossDone sc s := by
  simp [Net.arrives, LossDone]

theorem fill_tick (h : Stage sc τ r m next i q s)
    (hw : next < m + 1 + sc.negotiated.windowsize) (hl : next ≤ finalBlock sc.negotiated sc.file) :
    Stage sc τ r m (next + 1) i
        (q ++ if s.arrives sc (next, []) then [dataPacket sc.negotiated sc.file next] else [])
        (Net.tick sc num s) ∧
      (LossDone sc (Net.tick sc num s) ↔ LossDone sc s ∨ next = sc.lost) := by
  have hfill : wantsFill sc.negotiated s.transfer.window = true :=
    (wantsFill_iff h.inv).mpr ⟨by rw [h.next, h.base]; exact hw, by rw [h.next]; exact hl⟩
  have htick : Net.tick sc num s = s.serve sc .timedOut := by
    simp [Net.tick, h.running, Net.busy, hfill]
  obtain ⟨hexit, hbase, hnext, hretries, hsent⟩ :=
    fill_spec h.inv h.running hfill (e := s.env sc .timedOut) (by simp [Net.env]) rfl
  rw [h.next] at hnext hsent
  rw [htick]
  refine ⟨⟨inv_step h.inv _, hexit, hbase.trans h.base, hnext, hretries.trans h.retries, ?_,
    h.toServer, h.held, h.receiver, h.now, h.now, h.clientSince⟩, ?_⟩
  · simp only [Net.serve, hsent, List.drop_left, h.toClient]
    have harr : s.arrives sc (next, dataPacket sc.negotiated sc.file next) =
        s.arrives sc (next, []) := rfl
    cases hc : s.arrives sc (next, []) <;> simp [harr, hc]
  · simp only [LossDone, Net.serve, hsent, List.map_append, List.mem_append, List.map_cons,
      List.map_nil, List.mem_singleton, eq_comm]

theorem fill_run (j : ℕ) (h : Stage sc τ r m next i q s) (htop : next + j ≤ top sc m + 1)
    (hok : LossDone sc s ∨ sc.lost < next ∨ next + j ≤ sc.lost) :
    ∃ s', Reaches (Net.tick sc num) s s' ∧
      Stage sc τ r m (next + j) i (q ++ packets sc next j) s' ∧
      (LossDone sc s' ↔ LossDone sc s) := by
  induction j generalizing next q s with
  | zero => exact ⟨s, .refl _ _, by simpa [packets] using h, Iff.rfl⟩
  | succ j ih =>
    simp only [top] at htop
    obtain ⟨hs, hloss⟩ := fill_tick num h (by omega) (by omega)
    have hne : LossDone sc s ∨ next ≠ sc.lost := by
      rcases hok with hd | hok
      · exact .inl hd
      · exact .inr (by omega)
    have harr : s.arrives sc (next, []) = true := (arrives_iff s _).mpr hne.symm
    have hloss' : LossDone sc (Net.tick sc num s) ↔ LossDone sc s := by
      rw [hloss]
      constructor
      · rintro (hd | rfl)
        · exact hd
        · exact hne.resolve_right (by simp)
      · exact .inl
    rw [harr, if_pos rfl] at hs
    obtain ⟨s', hr, hs', hd⟩ := ih hs (by simp only [top]; omega)
      (hok.imp hloss'.mpr fun hok ↦ by omega)
    have hnext : next + 1 + j = next + (j + 1) := by omega
    refine ⟨s', .head rfl hr, ?_, hd.trans hloss'⟩
    rw [hnext, List.append_assoc] at hs'
    rw [packets_succ]
    exact hs'

theorem fill_lossy (h : Stage sc τ r m (m + 1) i [] s) (hnew : ¬LossDone sc s)
    (hlo : m + 1 ≤ sc.lost) (hhi : sc.lost ≤ top sc m) :
    ∃ s', Reaches (Net.tick sc num) s s' ∧ LossDone sc s' ∧
      Stage sc τ r m (top sc m + 1) i
        (packets sc (m + 1) (sc.lost - (m + 1)) ++
          packets sc (sc.lost + 1) (top sc m - sc.lost)) s' := by
  have htop : top sc m ≤ m + sc.negotiated.windowsize ∧
      top sc m ≤ finalBlock sc.negotiated sc.file := ⟨Nat.min_le_left _ _, Nat.min_le_right _ _⟩
  obtain ⟨s₁, hr₁, hs₁, hd₁⟩ := fill_run num (sc.lost - (m + 1)) h (by omega) (.inr (by omega))
  have hnext : m + 1 + (sc.lost - (m + 1)) = sc.lost := by omega
  rw [hnext, List.nil_append] at hs₁
  obtain ⟨hs₂, hd₂⟩ := fill_tick num hs₁ (by omega) (by omega)
  have harr : s₁.arrives sc (sc.lost, []) = false := by
    rw [← Bool.not_eq_true, arrives_iff, hd₁]
    rintro (hne | hd)
    · exact hne rfl
    · exact hnew hd
  rw [harr, if_neg (by simp), List.append_nil] at hs₂
  obtain ⟨s₃, hr₃, hs₃, hd₃⟩ := fill_run num (top sc m - sc.lost) hs₂ (by omega)
    (.inl (hd₂.mpr (.inr rfl)))
  have hend : sc.lost + 1 + (top sc m - sc.lost) = top sc m + 1 := by omega
  rw [hend] at hs₃
  exact ⟨s₃, hr₁.trans (.head rfl hr₃), hd₃.mpr (hd₂.mpr (.inr rfl)), hs₃⟩

theorem not_wantsFill (h : Stage sc τ r m (top sc m + 1) i q s) :
    wantsFill sc.negotiated s.transfer.window = false := by
  rw [← Bool.not_eq_true, wantsFill_iff h.inv, h.next, h.base, top]
  omega

theorem not_givesUp (h : Stage sc τ r m next i q s) (hr : r < maxRetries)
    (hτ : τ < transferDeadline) : givesUp s.expired s.transfer.window = false := by
  simp [givesUp, Net.expired, h.retries, h.serverSince, hr, hτ]

theorem not_busy (h : Stage sc τ r m (top sc m + 1) i q s) (hr : r < maxRetries)
    (hτ : τ < transferDeadline) : s.busy sc = false := by
  rw [Net.busy, not_wantsFill h, not_givesUp h hr hτ, Bool.or_false]

theorem expects_iff (k : ℕ) (r : Receiver) :
    r.expects num (wireOf k) = true ↔
      wireOf k = wireOf r.expected ∧ (num = .plain → r.expected ≤ 65535) := by
  cases num with
  | plain =>
    simp only [Receiver.expects, beq_iff_eq, wireOf_toNat, wireOf_eq_iff, forall_const]
    omega
  | wrapping => simp [Receiver.expects]

theorem onPacket_accept (h : num = .plain → i + 1 ≤ 65535) (c : ℕ) :
    (holding sc i c).onPacket sc.negotiated num (dataPacket sc.negotiated sc.file (i + 1)) =
      if c + 1 = sc.negotiated.windowsize ∨ finalBlock sc.negotiated sc.file ≤ i + 1 then
        ({ holding sc (i + 1) 0 with
            finished := decide (finalBlock sc.negotiated sc.file ≤ i + 1) },
          [makeAckPacket (wireOf (i + 1))])
      else (holding sc (i + 1) (c + 1), []) := by
  have hexp : (holding sc i c).expects num (wireOf (i + 1)) = true :=
    (expects_iff num _ _).mpr ⟨rfl, h⟩
  have hshort : decide ((dataOf sc.negotiated sc.file (i + 1)).length < sc.negotiated.blksize) =
      decide (finalBlock sc.negotiated sc.file ≤ i + 1) :=
    decide_eq_decide.mpr
      (block_length_lt_iff sc.negotiated.blksize_pos sc.file (Nat.le_add_left 1 i))
  have hbytes : sc.file.take (i * sc.negotiated.blksize) ++
      dataOf sc.negotiated sc.file (i + 1) =
      sc.file.take ((i + 1) * sc.negotiated.blksize) := by
    rw [Nat.succ_mul, List.take_add]
    rfl
  simp only [Receiver.onPacket, dataPacket, parseDataPacket_makeDataPacket, hexp, if_true, hshort]
  simp only [holding, hbytes]
  by_cases hf : finalBlock sc.negotiated sc.file ≤ i + 1
  · simp [hf]
  · by_cases hW : c + 1 = sc.negotiated.windowsize <;> simp [hf, hW]

theorem onPacket_discard (c : ℕ) {a : ℕ} (hlo : i + 1 < a) (hhi : a < i + 1 + 65536) :
    (holding sc i c).onPacket sc.negotiated num (dataPacket sc.negotiated sc.file a) =
      (holding sc i c, []) := by
  have hexp : (holding sc i c).expects num (wireOf a) = false := by
    rw [← Bool.not_eq_true, expects_iff]
    rintro ⟨hw, -⟩
    have : a = i + 1 := eq_of_wireOf_eq hw (by omega) (by omega)
    omega
  simp [Receiver.onPacket, dataPacket, parseDataPacket_makeDataPacket, hexp]

theorem client_tick {pkt : Bytes} (h : Stage sc τ r m (top sc m + 1) i (pkt :: q) s)
    (hr : r < maxRetries) (hτ : τ < transferDeadline) :
    Net.tick sc num s =
      { s with toClient := q }.consume
        ((holding sc i (i - m)).onPacket sc.negotiated num pkt) := by
  simp only [Net.tick, h.running, not_busy h hr hτ, h.toClient, h.receiver]
  rfl

theorem accept_run (j : ℕ) (h : Stage sc τ r m (top sc m + 1) i (packets sc (i + 1) j ++ q) s)
    (hr : r < maxRetries) (hτ : τ < transferDeadline) (hj : i + j < top sc m)
    (hnum : num = .plain → i + j ≤ 65535) :
    ∃ s', Reaches (Net.tick sc num) s s' ∧ s'.transfer = s.transfer ∧
      Stage sc τ r m (top sc m + 1) (i + j) q s' := by
  induction j generalizing i s with
  | zero => exact ⟨s, .refl _ _, rfl, by simpa [packets] using h⟩
  | succ j ih =>
    rw [packets_succ, List.cons_append] at h
    have hheld := h.held
    have htick := client_tick num h hr hτ
    simp only [top] at hj
    rw [onPacket_accept num (fun hp ↦ by have := hnum hp; omega), if_neg (by omega)] at htick
    have hs : Stage sc τ r m (top sc m + 1) (i + 1) (packets sc (i + 1 + 1) j ++ q)
        (Net.tick sc num s) := by
      rw [htick]
      exact ⟨h.inv, h.running, h.base, h.next, h.retries, rfl,
        by simp [Net.consume, h.toServer], by omega,
        by rw [Nat.succ_sub hheld]; rfl, h.now, h.serverSince, h.now.le⟩
    have htop : i + 1 + j < top sc m := by simp only [top]; omega
    obtain ⟨s', hr', ht', hs'⟩ := ih hs htop (fun hp ↦ by have := hnum hp; omega)
    refine ⟨s', .head rfl hr', ht'.trans (by rw [htick]; rfl), ?_⟩
    have heq : i + 1 + j = i + (j + 1) := by omega
    rwa [heq] at hs'

theorem discard_run (j : ℕ) {a : ℕ}
    (h : Stage sc τ r m (top sc m + 1) i (packets sc a j ++ q) s)
    (hr : r < maxRetries) (hτ : τ < transferDeadline) (hlo : i + 1 < a)
    (hhi : a + j ≤ i + 1 + 65536) :
    ∃ s', Reaches (Net.tick sc num) s s' ∧ s'.transfer = s.transfer ∧
      Stage sc τ r m (top sc m + 1) i q s' := by
  induction j generalizing a s with
  | zero => exact ⟨s, .refl _ _, rfl, by simpa [packets] using h⟩
  | succ j ih =>
    rw [packets_succ, List.cons_append] at h
    have htick := client_tick num h hr hτ
    rw [onPacket_discard num _ hlo (by omega)] at htick
    have hs : Stage sc τ r m (top sc m + 1) i (packets sc (a + 1) j ++ q)
        (Net.tick sc num s) := by
      rw [htick]
      exact ⟨h.inv, h.running, h.base, h.next, h.retries, rfl,
        by simp [Net.consume, h.toServer], h.held, rfl, h.now, h.serverSince, h.now.le⟩
    obtain ⟨s', hr', ht', hs'⟩ := ih hs (by omega) (by omega)
    exact ⟨s', .head rfl hr', ht'.trans (by rw [htick]; rfl), hs'⟩

structure Done (sc : Scenario) (s : Net) : Prop where
  completed : s.transfer.exit = some .completed
  received : s.receiver.received = sc.file

theorem take_final : sc.file.take (finalBlock sc.negotiated sc.file * sc.negotiated.blksize) =
    sc.file := by
  apply List.take_of_length_le
  have hdiv := Nat.div_add_mod' sc.file.length sc.negotiated.blksize
  have hmod := Nat.mod_lt sc.file.length sc.negotiated.blksize_pos
  rw [finalBlock, lastIndex, Nat.succ_mul]
  omega

structure Answered (sc : Scenario) (τ r m i : ℕ) (fin : Bool) (s : Net) : Prop where
  inv : Inv sc.negotiated sc.file s.transfer
  running : s.transfer.exit = none
  base : s.transfer.window.base = m + 1
  next : s.transfer.window.nextToSend = top sc m + 1
  retries : s.transfer.window.retries = r
  toClient : s.toClient = []
  toServer : s.toServer = [makeAckPacket (wireOf i)]
  receiver : s.receiver = { holding sc i 0 with finished := fin }
  now : s.now = τ
  inTime : s.serverSince < transferDeadline
  clientSince : s.clientSince ≤ τ

variable {fin : Bool}

theorem answered_waits (h : Answered sc τ r m i fin s) (hr : r < maxRetries) :
    wantsFill sc.negotiated s.transfer.window = false ∧
      givesUp s.expired s.transfer.window = false := by
  constructor
  · rw [← Bool.not_eq_true, wantsFill_iff h.inv, h.next, h.base, top]
    omega
  · simp [givesUp, Net.expired, h.retries, hr, h.inTime]

theorem answered_tick (h : Answered sc τ r m i fin s) (hr : r < maxRetries) :
    Net.tick sc num s =
      { s with toServer := [] }.serve sc (.packet (makeAckPacket (wireOf i))) := by
  obtain ⟨hw, hg⟩ := answered_waits h hr
  simp [Net.tick, h.running, Net.busy, hw, hg, h.toClient, h.toServer]

theorem tick_of_step {t : Transfer} {pkt : Bytes}
    (ht : step sc.negotiated sc.file s.transfer (s.env sc (.packet pkt)) = t)
    (hsent : t.sent = s.transfer.sent) :
    { s with toServer := [] }.serve sc (.packet pkt) =
      { s with transfer := t, toServer := [], serverSince := s.now } := by
  have ht' : step sc.negotiated sc.file s.transfer
      (Net.env sc { s with toServer := [] } (.packet pkt)) = t := ht
  simp [Net.serve, ht', hsent]

theorem ack_partial (h : Answered sc τ r m i false s) (hr : r < maxRetries) (hlo : m < i)
    (hhi : i ≤ top sc m) (hi : i < finalBlock sc.negotiated sc.file) :
    Stage sc τ 0 i (i + 1) i [] (Net.tick sc num s) ∧
      (LossDone sc (Net.tick sc num s) ↔ LossDone sc s) := by
  obtain ⟨hw, hg⟩ := answered_waits h hr
  have hnext : i < s.transfer.window.nextToSend := by rw [h.next]; omega
  have hstep := step_ack h.running hw (e := s.env sc (.packet (makeAckPacket (wireOf i)))) hg rfl
    (by rw [h.base]; omega) hnext h.inv
  obtain ⟨hexit, hbase, hnext', hretries⟩ := advance_open h.inv hnext hi
  have hinv := inv_step h.inv (s.env sc (.packet (makeAckPacket (wireOf i))))
  rw [hstep] at hinv
  rw [answered_tick num h hr, tick_of_step hstep rfl]
  exact ⟨⟨hinv, hexit, hbase, hnext', hretries, h.toClient, rfl, le_rfl,
    by rw [Nat.sub_self]; exact h.receiver, h.now, h.now, h.clientSince⟩, Iff.rfl⟩

theorem ack_final (h : Answered sc τ r m (finalBlock sc.negotiated sc.file) fin s)
    (hr : r < maxRetries) (hm : m < finalBlock sc.negotiated sc.file)
    (hhi : finalBlock sc.negotiated sc.file ≤ top sc m) : Done sc (Net.tick sc num s) := by
  obtain ⟨hw, hg⟩ := answered_waits h hr
  have hnext : finalBlock sc.negotiated sc.file < s.transfer.window.nextToSend := by
    rw [h.next]; omega
  have hstep := step_ack h.running hw (e := s.env sc (.packet (makeAckPacket (wireOf _)))) hg rfl
    (by rw [h.base]; omega) hnext h.inv
  rw [answered_tick num h hr, tick_of_step hstep rfl]
  refine ⟨advance_final h.inv hnext, ?_⟩
  dsimp only
  rw [h.receiver]
  exact take_final

theorem ack_stale (h : Answered sc τ r m m false s) (hr : r < maxRetries) :
    Stage sc τ (r + 1) m (top sc m + 1) m [] (Net.tick sc num s) := by
  obtain ⟨hw, hg⟩ := answered_waits h hr
  have hstep := step_stale h.running hw (e := s.env sc (.packet (makeAckPacket (wireOf m)))) hg
    rfl h.base h.inv
  have hinv := inv_step h.inv (s.env sc (.packet (makeAckPacket (wireOf m))))
  rw [hstep] at hinv
  rw [answered_tick num h hr, tick_of_step hstep rfl]
  exact ⟨hinv, rfl, h.base, h.next, congrArg (· + 1) h.retries, h.toClient, rfl, le_rfl,
    by rw [Nat.sub_self]; exact h.receiver, h.now, h.now, h.clientSince⟩

theorem close_window (h : Stage sc τ r m (top sc m + 1) i (packets sc (i + 1) 1) s)
    (hr : r < maxRetries) (hτ : τ < transferDeadline) (hi : i + 1 = top sc m)
    (hnum : num = .plain → i + 1 ≤ 65535) :
    Answered sc τ r m (i + 1) (decide (finalBlock sc.negotiated sc.file ≤ i + 1))
        (Net.tick sc num s) ∧
      (LossDone sc (Net.tick sc num s) ↔ LossDone sc s) := by
  have hheld := h.held
  have htick := client_tick num h hr hτ
  have hacks : i - m + 1 = sc.negotiated.windowsize ∨
      finalBlock sc.negotiated sc.file ≤ i + 1 := by
    simp only [top] at hi
    omega
  rw [onPacket_accept num hnum, if_pos hacks] at htick
  rw [htick]
  exact ⟨⟨h.inv, h.running, h.base, h.next, h.retries, rfl, by simp [Net.consume, h.toServer],
    rfl, h.now, h.serverSince.trans_lt hτ, h.now.le⟩, Iff.rfl⟩

variable (sc) in
theorem idle_tick (s : Net) (hrun : s.transfer.exit = none) (hbusy : s.busy sc = false)
    (hclient : s.toClient = []) (hserver : s.toServer = []) (hopen : s.receiver.finished = false) :
    Net.tick sc num s =
      if s.clientAt sc ≤ s.serverAt sc then
        { s with now := s.clientAt sc }.consume (s.receiver.onTimeout num)
      else { s with now := s.serverAt sc }.serve sc .timedOut := by
  simp [Net.tick, hrun, hbusy, hclient, hserver, hopen]

theorem nudge (h : Stage sc τ r m (top sc m + 1) i [] s) (hr : r < maxRetries)
    (hτ : τ < transferDeadline) (hi : 1 ≤ i) (hnum : num = .plain → i ≤ 65535) :
    ∃ τ', τ' ≤ τ + 10000 ∧ Answered sc τ' r m i false (Net.tick sc num s) ∧
      (LossDone sc (Net.tick sc num s) ↔ LossDone sc s) := by
  have hwait := sc.wait_lt
  have htimeout : sc.negotiated.timeout ≤ 10 := sc.negotiated.timeout_le
  have hsince := h.clientSince
  have hnudge : (holding sc i (i - m)).nudges num = true := by
    cases num with
    | plain =>
      have hi' := hnum rfl
      have hne : wireOf i ≠ wireOf 0 := by
        rw [Ne, wireOf_eq_iff]
        omega
      exact bne_iff_ne.mpr hne
    | wrapping => exact decide_eq_true (Nat.lt_succ_of_le hi)
  have hfirst : s.clientAt sc ≤ s.serverAt sc := by
    rw [Net.clientAt, Net.serverAt, h.serverSince]
    omega
  have hrepeat : s.receiver.onTimeout num =
      ({ holding sc i (i - m) with count := 0 }, [makeAckPacket (wireOf i)]) := by
    rw [h.receiver, Receiver.onTimeout, if_pos hnudge]
    rfl
  rw [idle_tick sc num s h.running (not_busy h hr hτ) h.toClient h.toServer (by rw [h.receiver]; rfl),
    if_pos hfirst, hrepeat]
  refine ⟨s.clientAt sc, ?_, ⟨h.inv, h.running, h.base, h.next, h.retries, h.toClient,
    by simp [Net.consume, h.toServer], rfl, rfl, h.serverSince.trans_lt hτ, le_rfl⟩, Iff.rfl⟩
  rw [Net.clientAt]
  omega

theorem lt_top (hm : m < finalBlock sc.negotiated sc.file) : m < top sc m := by
  have hW : 1 ≤ sc.negotiated.windowsize := sc.negotiated.windowsize_ge
  simp only [top]
  omega

theorem top_le : top sc m ≤ finalBlock sc.negotiated sc.file := Nat.min_le_right _ _

theorem window_answered (h : Stage sc τ r m (m + 1) m [] s) (hr : r < maxRetries)
    (hτ : τ < transferDeadline) (hm : m < finalBlock sc.negotiated sc.file)
    (hok : LossDone sc s ∨ top sc m < sc.lost) (hnum : num = .plain → top sc m ≤ 65535) :
    ∃ s', Reaches (Net.tick sc num) s s' ∧ (LossDone sc s' ↔ LossDone sc s) ∧
      Answered sc τ r m (top sc m) (decide (finalBlock sc.negotiated sc.file ≤ top sc m)) s' := by
  have hlo := lt_top hm
  have hnext : m + 1 + (top sc m - m) = top sc m + 1 := by omega
  obtain ⟨s₁, hr₁, hs₁, hd₁⟩ := fill_run num (top sc m - m) h (by omega)
    (hok.imp_right fun hlt ↦ .inr (by omega))
  have hsplit : packets sc (m + 1) (top sc m - m) =
      packets sc (m + 1) (top sc m - m - 1) ++ packets sc (top sc m - 1 + 1) 1 := by
    have hcount : top sc m - m = top sc m - m - 1 + 1 := by omega
    have hkey : top sc m - 1 + 1 = m + 1 + (top sc m - m - 1) := by omega
    rw [hkey, packets, packets, packets, hcount, Nat.add_sub_cancel, ← List.map_append,
      List.range'_append_1]
  rw [hnext, List.nil_append, hsplit] at hs₁
  obtain ⟨s₂, hr₂, ht₂, hs₂⟩ := accept_run num (top sc m - m - 1) hs₁ hr hτ (by omega)
    (fun hp ↦ by have := hnum hp; omega)
  have hheld : m + (top sc m - m - 1) = top sc m - 1 := by omega
  rw [hheld] at hs₂
  obtain ⟨hs₃, hd₃⟩ := close_window num hs₂ hr hτ (by omega)
    (fun hp ↦ by have := hnum hp; omega)
  have hlast : top sc m - 1 + 1 = top sc m := by omega
  have hd₂ : LossDone sc s₂ ↔ LossDone sc s₁ := by rw [LossDone, LossDone, ht₂]
  rw [hlast] at hs₃
  exact ⟨_, (hr₁.trans hr₂).trans (.one rfl), (hd₃.trans hd₂).trans hd₁, hs₃⟩

theorem window_clean (h : Stage sc τ r m (m + 1) m [] s) (hr : r < maxRetries)
    (hτ : τ < transferDeadline) (hm : top sc m < finalBlock sc.negotiated sc.file)
    (hok : LossDone sc s ∨ top sc m < sc.lost) (hnum : num = .plain → top sc m ≤ 65535) :
    ∃ s', Reaches (Net.tick sc num) s s' ∧ (LossDone sc s' ↔ LossDone sc s) ∧
      Stage sc τ 0 (top sc m) (top sc m + 1) (top sc m) [] s' := by
  have hm' : m < finalBlock sc.negotiated sc.file := by
    simp only [top] at hm
    omega
  obtain ⟨s₁, hr₁, hd₁, hs₁⟩ := window_answered num h hr hτ hm' hok hnum
  rw [decide_eq_false (by omega)] at hs₁
  obtain ⟨hs₂, hd₂⟩ := ack_partial num hs₁ hr (lt_top hm') le_rfl hm
  exact ⟨_, hr₁.trans (.one rfl), hd₂.trans hd₁, hs₂⟩

theorem finish (h : Stage sc τ r m (m + 1) m [] s) (hr : r < maxRetries)
    (hτ : τ < transferDeadline) (hm : m < finalBlock sc.negotiated sc.file)
    (hd : LossDone sc s) (hnum : num = .plain → finalBlock sc.negotiated sc.file ≤ 65535) :
    ∃ s', Reaches (Net.tick sc num) s s' ∧ Done sc s' := by
  induction hk : finalBlock sc.negotiated sc.file - m using Nat.strong_induction_on
    generalizing r m s with
  | _ k ih =>
    have hnum' : num = .plain → top sc m ≤ 65535 := fun hp ↦ top_le.trans (hnum hp)
    have hlo := lt_top hm
    rcases (top_le : top sc m ≤ _).lt_or_eq with hlt | heq
    · obtain ⟨s', hr', hd', hs'⟩ := window_clean num h hr hτ hlt (.inl hd) hnum'
      obtain ⟨s'', hr'', hs''⟩ := ih _ (by omega) hs' (by decide) hlt (hd'.mpr hd) rfl
      exact ⟨s'', hr'.trans hr'', hs''⟩
    · obtain ⟨s', hr', -, hs'⟩ := window_answered num h hr hτ hm (.inl hd) hnum'
      rw [heq] at hs'
      exact ⟨_, hr'.trans (.one rfl), ack_final num hs' hr hm heq.ge⟩

variable (sc) in
theorem approach (j : ℕ) (hj : j * sc.negotiated.windowsize < sc.lost)
    (hnum : num = .plain → j * sc.negotiated.windowsize ≤ 65535) :
    ∃ s, Reaches (Net.tick sc num) {} s ∧ ¬LossDone sc s ∧
      Stage sc 0 0 (j * sc.negotiated.windowsize) (j * sc.negotiated.windowsize + 1)
        (j * sc.negotiated.windowsize) [] s := by
  induction j with
  | zero =>
    rw [Nat.zero_mul]
    exact ⟨{}, .refl _ _, by simp [LossDone], stage_init sc⟩
  | succ j ih =>
    have hlost := sc.lost_le
    rw [Nat.succ_mul] at hj hnum ⊢
    obtain ⟨s, hr, hd, hs⟩ := ih (by omega) fun hp ↦ by have := hnum hp; omega
    have htop : top sc (j * sc.negotiated.windowsize) =
        j * sc.negotiated.windowsize + sc.negotiated.windowsize := by
      rw [top]
      omega
    obtain ⟨s', hr', hd', hs'⟩ := window_clean num hs (by decide) (by decide) (by omega)
      (.inr (by omega)) (by rwa [htop])
    rw [htop] at hs'
    exact ⟨s', hr.trans hr', fun h ↦ hd (hd'.mp h), hs'⟩

variable (sc) in
theorem loss_window (hnum : num = .plain → sc.lost ≤ 65536) :
    ∃ s, Reaches (Net.tick sc num) {} s ∧ LossDone sc s ∧
      Stage sc 0 0 ((sc.lost - 1) / sc.negotiated.windowsize * sc.negotiated.windowsize)
        (top sc ((sc.lost - 1) / sc.negotiated.windowsize * sc.negotiated.windowsize) + 1)
        (sc.lost - 1) [] s := by
  have hpos := sc.lost_pos
  have hlost := sc.lost_le
  have hW : 0 < sc.negotiated.windowsize := sc.negotiated.windowsize_ge
  have hW' := sc.negotiated.windowsize_le_32
  have hdiv := Nat.div_add_mod' (sc.lost - 1) sc.negotiated.windowsize
  have hmod := Nat.mod_lt (sc.lost - 1) hW
  obtain ⟨s₁, hr₁, hd₁, hs₁⟩ := approach sc num
    ((sc.lost - 1) / sc.negotiated.windowsize) (by omega) (fun hp ↦ by have := hnum hp; omega)
  generalize (sc.lost - 1) / sc.negotiated.windowsize * sc.negotiated.windowsize = m at *
  have htop : sc.lost ≤ top sc m ∧ top sc m ≤ m + sc.negotiated.windowsize := by
    simp only [top]
    omega
  obtain ⟨s₂, hr₂, hd₂, hs₂⟩ := fill_lossy num hs₁ hd₁ (by omega) htop.1
  obtain ⟨s₃, hr₃, ht₃, hs₃⟩ := accept_run num _ hs₂ (by decide) (by decide) (by omega)
    (fun hp ↦ by have := hnum hp; omega)
  have hheld : m + (sc.lost - (m + 1)) = sc.lost - 1 := by omega
  rw [hheld, ← List.append_nil (packets sc (sc.lost + 1) _)] at hs₃
  obtain ⟨s₄, hr₄, ht₄, hs₄⟩ := discard_run num _ hs₃ (by decide) (by decide) (by omega)
    (by omega)
  refine ⟨s₄, hr₁.trans (hr₂.trans (hr₃.trans hr₄)), ?_, hs₄⟩
  rwa [LossDone, ht₄, ht₃]

end BootyCall.Tftp.Recovery
