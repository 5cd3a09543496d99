import BootyCall.Tftp.DataLoop

namespace BootyCall.Tftp.WindowInvariant

open Lib.Blocks Wire Request DataLoop

variable (n : Negotiated) (file : Bytes)

def finalBlock : ℕ := lastIndex n.blksize file

def dataOf (k : ℕ) : Bytes := block n.blksize file k

def dataPacket (k : ℕ) : Bytes := makeDataPacket (wireOf k) (dataOf n file k)

/-- What holds between any two steps of the DATA loop. The read frontier is the number of
blocks read so far, and every loop variable is fixed by it, `base` and `nextToSend`. -/
structure Inv (t : Transfer) : Prop where
  base_pos : 1 ≤ t.window.base
  base_le : t.window.base ≤ t.window.nextToSend
  next_le_window : t.window.nextToSend ≤ t.window.base + n.windowsize
  next_le_read : t.window.nextToSend ≤ t.blocksRead.length + 1
  read_lt_window : t.blocksRead.length < t.window.base + n.windowsize
  read_order : t.blocksRead = List.range' 1 t.blocksRead.length
  read_le : t.blocksRead.length ≤ finalBlock n file
  file_pos : t.window.filePos = min (t.blocksRead.length * n.blksize) file.length
  buffer : t.window.buffered =
    interval (dataOf n file) t.window.base (t.blocksRead.length + 1 - t.window.base)
  last : t.window.lastBlock =
    if finalBlock n file ≤ t.blocksRead.length then some (finalBlock n file) else none
  sent : ∀ p ∈ t.sent, 1 ≤ p.1 ∧ p.1 ≤ t.blocksRead.length ∧ p.2 = dataPacket n file p.1
  unfinished : t.exit ≠ some .completed → t.window.base ≤ finalBlock n file
  finished : t.exit = some .completed → t.window.base = finalBlock n file + 1

theorem inv_init : Inv n file {} where
  base_pos := le_rfl
  base_le := le_rfl
  next_le_window := Nat.le_add_right _ _
  next_le_read := le_rfl
  read_lt_window := by simp only [List.length_nil]; omega
  read_order := rfl
  read_le := Nat.zero_le _
  file_pos := by simp
  buffer := rfl
  last := by simp [finalBlock, lastIndex]
  sent := by simp
  unfinished := fun _ ↦ by simp [finalBlock, lastIndex]
  finished := by simp

variable {n file} {t : Transfer}

theorem last_lt_iff (h : Inv n file t) (m : ℕ) :
    (t.window.lastBlock.any fun lb ↦ decide (lb < m)) = true ↔
      finalBlock n file ≤ t.blocksRead.length ∧ finalBlock n file < m := by
  rw [h.last]
  split <;> simp_all

theorem wantsFill_iff (h : Inv n file t) :
    wantsFill n t.window = true ↔
      t.window.nextToSend < t.window.base + n.windowsize ∧
        t.window.nextToSend ≤ finalBlock n file := by
  have hnext := h.next_le_read
  have hread := h.read_le
  rw [wantsFill, Bool.and_eq_true, decide_eq_true_iff, Bool.not_eq_true',
    ← Bool.not_eq_true, last_lt_iff h]
  omega

theorem lookup_next (h : Inv n file t) :
    t.window.buffered.lookup t.window.nextToSend =
      if t.window.nextToSend ≤ t.blocksRead.length then some (dataOf n file t.window.nextToSend)
      else none := by
  have hbase := h.base_le
  rw [h.buffer]
  split
  · exact lookup_interval_of_mem _ hbase (by omega)
  · exact lookup_interval_of_ge _ (by omega)

theorem readFill_frontier (h : Inv n file t) (reads : Reads)
    (hr : t.blocksRead.length < finalBlock n file) {r : Bytes × Bool}
    (hread : readFill file reads t.window.filePos n.blksize = some r) :
    r.1 = dataOf n file (t.blocksRead.length + 1) ∧
      ((r.2 || decide (r.1.length < n.blksize)) = true ↔
        finalBlock n file = t.blocksRead.length + 1) := by
  have hb := n.blksize_pos
  have hle : t.blocksRead.length * n.blksize ≤ file.length :=
    (Nat.mul_le_mul_right _ (Nat.lt_succ_iff.mp hr)).trans (Nat.div_mul_le_self _ _)
  have hpos : t.window.filePos = t.blocksRead.length * n.blksize := by
    rw [h.file_pos]; omega
  obtain ⟨hbytes, heof⟩ := readLoop_spec file reads _ _ _ _ le_rfl (by omega) hread
  have hdata : r.1 = dataOf n file (t.blocksRead.length + 1) := by
    rw [hbytes, hpos]; rfl
  have hshort := block_length_lt_iff hb file (Nat.le_add_left 1 t.blocksRead.length)
  have hlen := block_length n.blksize file (t.blocksRead.length + 1)
  rw [Nat.add_sub_cancel] at hlen
  refine ⟨hdata, ?_⟩
  rw [Bool.or_eq_true, decide_eq_true_iff, heof, hdata, hpos]
  simp only [dataOf, finalBlock] at hr hshort ⊢
  constructor
  · rintro (h' | h')
    · have := hshort.mp (by omega)
      omega
    · have := hshort.mp h'
      omega
  · intro h'
    exact .inr (hshort.mpr (by omega))

def readOn (n : Negotiated) (file : Bytes) (t : Transfer) : Window :=
  { t.window with
    filePos := min ((t.blocksRead.length + 1) * n.blksize) file.length
    lastBlock :=
      if finalBlock n file ≤ t.blocksRead.length + 1 then some (finalBlock n file) else none
    buffered := interval (dataOf n file) t.window.base (t.blocksRead.length + 2 - t.window.base) }

theorem readFill_window (h : Inv n file t) {reads : Reads} {r : Bytes × Bool}
    (hfront : t.window.nextToSend = t.blocksRead.length + 1)
    (hmore : t.blocksRead.length < finalBlock n file)
    (hr : readFill file reads t.window.filePos n.blksize = some r) :
    { t.window with
      filePos := t.window.filePos + r.1.length
      lastBlock :=
        if r.2 || decide (r.1.length < n.blksize) then some t.window.nextToSend
        else t.window.lastBlock
      buffered := t.window.buffered ++ [(t.window.nextToSend, r.1)] } = readOn n file t := by
  have hbase := h.base_le
  obtain ⟨hdata, hlast⟩ := readFill_frontier h reads hmore hr
  have hlen := block_length n.blksize file (t.blocksRead.length + 1)
  have hpos : t.window.filePos + r.1.length =
      min ((t.blocksRead.length + 1) * n.blksize) file.length := by
    rw [h.file_pos, hdata, dataOf, hlen, Nat.add_sub_cancel, Nat.succ_mul]
    omega
  have hbuf : t.window.buffered ++ [(t.window.nextToSend, r.1)] =
      interval (dataOf n file) t.window.base (t.blocksRead.length + 2 - t.window.base) := by
    have hkey : t.blocksRead.length + 1 =
        t.window.base + (t.blocksRead.length + 1 - t.window.base) := by omega
    have hsucc : t.blocksRead.length + 2 - t.window.base =
        t.blocksRead.length + 1 - t.window.base + 1 := by omega
    rw [h.buffer, hdata, hfront, hsucc, ← interval_concat, ← hkey]
  have hlb : (if r.2 || decide (r.1.length < n.blksize) then some t.window.nextToSend
      else t.window.lastBlock) =
      if finalBlock n file ≤ t.blocksRead.length + 1 then some (finalBlock n file) else none := by
    by_cases hc : (r.2 || decide (r.1.length < n.blksize)) = true
    · rw [if_pos hc, if_pos (hlast.mp hc).le, hlast.mp hc, hfront]
    · have hmore' : ¬finalBlock n file ≤ t.blocksRead.length + 1 := fun hle ↦
        hc (hlast.mpr (by omega))
      rw [if_neg hc, if_neg hmore', h.last, if_neg (by omega)]
  rw [readOn, hpos, hbuf, hlb]

theorem nextBlock_spec (h : Inv n file t) (hw : wantsFill n t.window = true) (reads : Reads)
    {w : Window} {d : Bytes} (hn : nextBlock n file reads t.window = some (w, d)) :
    d = dataOf n file t.window.nextToSend ∧
      (t.window.nextToSend ≤ t.blocksRead.length ∧ w = t.window ∨
        t.window.nextToSend = t.blocksRead.length + 1 ∧ w = readOn n file t) := by
  have hfill := (wantsFill_iff h).mp hw
  have hnext := h.next_le_read
  rw [nextBlock, lookup_next h] at hn
  split at hn
  · next d' hd' =>
    split at hd'
    · next hle =>
      obtain ⟨rfl, rfl⟩ := Prod.mk.inj (Option.some.inj hn)
      exact ⟨(Option.some.inj hd').symm, .inl ⟨hle, rfl⟩⟩
    · contradiction
  · next hd' =>
    split at hd'
    · contradiction
    · have hfront : t.window.nextToSend = t.blocksRead.length + 1 := by omega
      have hmore : t.blocksRead.length < finalBlock n file := by omega
      obtain ⟨r, hr, heq⟩ := Option.map_eq_some_iff.mp hn
      obtain ⟨rfl, rfl⟩ := Prod.mk.inj heq
      refine ⟨?_, .inr ⟨hfront, readFill_window h hfront hmore hr⟩⟩
      rw [hfront]
      exact (readFill_frontier h reads hmore hr).1

theorem inv_exit (h : Inv n file t) (hrun : t.exit = none) {x : Exit} (hx : x ≠ .completed) :
    Inv n file { t with exit := some x } :=
  { h with
    unfinished := fun _ ↦ h.unfinished (by simp [hrun])
    finished := fun hc ↦ absurd (Option.some.inj hc) hx }

theorem inv_read (h : Inv n file t) (hfront : t.window.nextToSend = t.blocksRead.length + 1)
    (hwin : t.window.nextToSend < t.window.base + n.windowsize)
    (hmore : t.blocksRead.length < finalBlock n file) :
    Inv n file { t with
      window := readOn n file t
      blocksRead := t.blocksRead ++ [t.window.nextToSend] } := by
  have hlen : (t.blocksRead ++ [t.window.nextToSend]).length = t.blocksRead.length + 1 := by
    simp
  have horder : t.blocksRead ++ [t.window.nextToSend] =
      List.range' 1 (t.blocksRead.length + 1) := by
    rw [List.range'_1_concat, ← h.read_order, hfront, Nat.add_comm]
  exact
    { base_pos := h.base_pos
      base_le := h.base_le
      next_le_window := h.next_le_window
      next_le_read := by dsimp only [readOn]; omega
      read_lt_window := by dsimp only [readOn]; omega
      read_order := by dsimp only; rw [hlen, horder]
      read_le := by dsimp only; omega
      file_pos := by dsimp only [readOn]; rw [hlen]
      buffer := by dsimp only [readOn]; rw [hlen]
      last := by dsimp only [readOn]; rw [hlen]
      sent := fun p hp ↦ by
        have hs := h.sent p hp
        exact ⟨hs.1, by dsimp only; omega, hs.2.2⟩
      unfinished := h.unfinished
      finished := h.finished }

theorem inv_transmit (h : Inv n file t) (hrun : t.exit = none)
    (hwin : t.window.nextToSend < t.window.base + n.windowsize)
    (hread : t.window.nextToSend ≤ t.blocksRead.length) :
    Inv n file
      { window := { t.window with nextToSend := t.window.nextToSend + 1 }
        exit := none
        sent := t.sent ++ [(t.window.nextToSend, dataPacket n file t.window.nextToSend)]
        blocksRead := t.blocksRead } := by
  have hbase := h.base_le
  refine { h with
    base_le := by dsimp only; omega
    next_le_window := by dsimp only; omega
    next_le_read := by dsimp only; omega
    sent := ?_
    unfinished := fun _ ↦ h.unfinished (by simp [hrun])
    finished := by simp }
  intro p hp
  rcases List.mem_append.mp hp with hp | hp
  · exact h.sent p hp
  · obtain rfl := List.mem_singleton.mp hp
    exact ⟨h.base_pos.trans hbase, hread, rfl⟩

theorem inv_fill (h : Inv n file t) (hrun : t.exit = none) (hw : wantsFill n t.window = true)
    (e : Env) : Inv n file (fill n file e t) := by
  have hfill := (wantsFill_iff h).mp hw
  rw [fill]
  split
  · exact inv_exit h hrun (by simp)
  · next w d hn =>
    obtain ⟨rfl, hcase⟩ := nextBlock_spec h hw e.reads hn
    rw [lookup_next h]
    rcases hcase with ⟨hle, rfl⟩ | ⟨hfront, rfl⟩
    · simp only [if_pos hle, Option.isSome_some, if_true]
      split
      · exact inv_transmit h hrun hfill.1 hle
      · exact inv_exit h hrun (by simp)
    · have hkeep := inv_read h hfront hfill.1 (by omega)
      have hread : (readOn n file t).nextToSend ≤
          (t.blocksRead ++ [t.window.nextToSend]).length := by
        simp only [readOn, List.length_append, List.length_singleton]
        omega
      simp only [if_neg (show ¬t.window.nextToSend ≤ t.blocksRead.length by omega),
        Option.isSome_none, Bool.false_eq_true, if_false]
      split
      · exact inv_transmit hkeep hrun hfill.1 hread
      · exact inv_exit hkeep hrun (by simp)

theorem makeAckPacket_take (block : UInt16) :
    (makeAckPacket block).take ackBufLen = makeAckPacket block :=
  List.take_of_length_le (by rw [makeAckPacket_length]; decide)

theorem findAcked_spec {s : Window} {ackedWire : UInt16} {abs : ℕ}
    (h : findAcked s ackedWire = some abs) :
    s.base ≤ abs ∧ abs < s.nextToSend ∧ wireOf abs = ackedWire := by
  obtain ⟨hw, hmem, -⟩ := List.find?_range'_eq_some.mp h
  have hmem := List.mem_range'_1.mp hmem
  exact ⟨hmem.1, by omega, by simpa using hw⟩

/-- A cumulative acknowledgement retires a prefix of the window, and ends the transfer exactly
when it covers the final block. -/
theorem inv_advance (h : Inv n file t) {abs : ℕ}
    (hlo : t.window.base ≤ abs) (hhi : abs < t.window.nextToSend) :
    Inv n file { t with
      window := (advance t.window abs).1
      exit := (advance t.window abs).2 } := by
  have hwin := h.next_le_window
  have hnext := h.next_le_read
  have hread := h.read_le
  have hlt := h.read_lt_window
  have hbuf : (t.window.buffered.filter fun p ↦ decide (abs + 1 ≤ p.1)) =
      interval (dataOf n file) (abs + 1) (t.blocksRead.length + 1 - (abs + 1)) := by
    rw [h.buffer, filter_interval _ (by omega) (by omega)]
    congr 1
    omega
  have hkeep (next : ℕ) (x : Option Exit) (hn : abs + 1 ≤ next) (hn' : next ≤ t.window.nextToSend)
      (hx : x = some .completed ↔ finalBlock n file < abs + 1) :
      Inv n file { t with
        window := { t.window with
          base := abs + 1
          nextToSend := next
          buffered := t.window.buffered.filter fun p ↦ decide (abs + 1 ≤ p.1)
          retries := 0 }
        exit := x } :=
    { h with
      base_pos := Nat.le_add_left _ _
      base_le := hn
      next_le_window := by dsimp only; omega
      next_le_read := by dsimp only; omega
      read_lt_window := by dsimp only; omega
      buffer := hbuf
      unfinished := fun hc ↦ by
        have hmore : ¬finalBlock n file < abs + 1 := fun hf ↦ hc (hx.mpr hf)
        dsimp only
        omega
      finished := fun hc ↦ by
        have := hx.mp hc
        dsimp only
        omega }
  rw [advance]
  split
  · next hl =>
    exact hkeep _ _ (by omega) le_rfl (by simpa using ((last_lt_iff h _).mp hl).2)
  · next hl =>
    have hmore : ¬finalBlock n file < abs + 1 := fun hf ↦
      hl ((last_lt_iff h _).mpr ⟨by omega, hf⟩)
    split
    · exact hkeep _ _ le_rfl (by omega) (by simpa using hmore)
    · exact hkeep _ _ (by omega) le_rfl (by simpa using hmore)

inductive Received (recv : Recv) (s : Window) : Window × Option Exit → Prop
  | left (x : Exit) (hx : x ≠ .completed) : Received recv s (s, some x)
  | rewound : Received recv s ({ s with retries := s.retries + 1, nextToSend := s.base }, none)
  | ignored : Received recv s ({ s with retries := s.retries + 1 }, none)
  | acked (pkt : Bytes) (abs : ℕ) (hrecv : recv = .packet pkt)
      (hparse : parseAckPacket (pkt.take ackBufLen) = some (wireOf abs))
      (hlo : s.base ≤ abs) (hhi : abs < s.nextToSend) : Received recv s (advance s abs)

theorem received (recv : Recv) (s : Window) : Received recv s (receive recv s) := by
  cases recv with
  | failed => exact .left _ (by simp)
  | timedOut => exact .rewound
  | packet bytes =>
    simp only [receive]
    split
    · exact .left _ (by simp)
    · split
      · next abs ha =>
        obtain ⟨acked, hacked, ha⟩ := Option.bind_eq_some_iff.mp ha
        obtain ⟨hlo, hhi, hwire⟩ := findAcked_spec ha
        exact .acked bytes abs rfl (by rw [hacked, hwire]) hlo hhi
      · exact .ignored

theorem inv_receive (h : Inv n file t) (hrun : t.exit = none) (recv : Recv) :
    Inv n file { t with
      window := (receive recv t.window).1
      exit := (receive recv t.window).2 } := by
  have hopen := h.unfinished (by simp [hrun])
  have hretry : Inv n file { t with
      window := { t.window with retries := t.window.retries + 1 }
      exit := none } :=
    { h with unfinished := fun _ ↦ hopen, finished := by simp }
  have hreceived := received recv t.window
  generalize receive recv t.window = r at hreceived ⊢
  cases hreceived with
  | left x hx => exact inv_exit h hrun hx
  | rewound =>
    exact { hretry with
      base_le := le_rfl
      next_le_window := Nat.le_add_right _ _
      next_le_read := h.base_le.trans h.next_le_read }
  | ignored => exact hretry
  | acked pkt abs hrecv hparse hlo hhi => exact inv_advance h hlo hhi

theorem inv_step (h : Inv n file t) (e : Env) : Inv n file (step n file t e) := by
  rw [step]
  split
  · exact h
  · next hexit =>
    have hrun : t.exit = none := by simpa using hexit
    split
    · next hw => exact inv_fill h hrun hw e
    · rw [await]
      split
      · exact inv_exit h hrun (by simp)
      · exact inv_receive h hrun e.recv

def run (n : Negotiated) (file : Bytes) (es : List Env) : Transfer :=
  es.foldl (step n file) {}

theorem inv_foldl (h : Inv n file t) (es : List Env) : Inv n file (es.foldl (step n file) t) :=
  List.foldlRecOn es (step n file) h fun _ hb e _ ↦ inv_step hb e

theorem inv_run (es : List Env) : Inv n file (run n file es) := inv_foldl (inv_init n file) es

structure Grows (t t' : Transfer) : Prop where
  base_le : t.window.base ≤ t'.window.base
  read_le : t.blocksRead.length ≤ t'.blocksRead.length
  sent : ∃ new, t'.sent = t.sent ++ new ∧ ∀ p ∈ new, t.window.base ≤ p.1

theorem Grows.refl (t : Transfer) : Grows t t := ⟨le_rfl, le_rfl, [], by simp⟩

theorem Grows.trans {t t' t'' : Transfer} (h : Grows t t') (h' : Grows t' t'') : Grows t t'' := by
  obtain ⟨new, hs, hn⟩ := h.sent
  obtain ⟨new', hs', hn'⟩ := h'.sent
  refine ⟨h.base_le.trans h'.base_le, h.read_le.trans h'.read_le, new ++ new', ?_, ?_⟩
  · rw [hs', hs, List.append_assoc]
  · intro p hp
    rcases List.mem_append.mp hp with hp | hp
    · exact hn p hp
    · exact h.base_le.trans (hn' p hp)

theorem grows_fill (h : Inv n file t) (hw : wantsFill n t.window = true) (e : Env) :
    t.blocksRead.length ≤ (fill n file e t).blocksRead.length ∧
      ∃ new, (fill n file e t).sent = t.sent ++ new ∧ ∀ p ∈ new, t.window.base ≤ p.1 := by
  have hbase := h.base_le
  rw [fill]
  split
  · exact ⟨le_rfl, [], by simp⟩
  · next w d hn =>
    obtain ⟨-, hcase⟩ := nextBlock_spec h hw e.reads hn
    have hnext : w.nextToSend = t.window.nextToSend := by
      rcases hcase with ⟨-, rfl⟩ | ⟨-, rfl⟩ <;> rfl
    have hlen : t.blocksRead.length ≤
        (if (t.window.buffered.lookup t.window.nextToSend).isSome then t.blocksRead
          else t.blocksRead ++ [t.window.nextToSend]).length := by
      split <;> simp
    dsimp only
    split
    · refine ⟨hlen, _, rfl, ?_⟩
      intro p hp
      obtain rfl := List.mem_singleton.mp hp
      exact hbase.trans hnext.ge
    · exact ⟨hlen, [], by simp⟩

theorem advance_base (s : Window) (abs : ℕ) : (advance s abs).1.base = abs + 1 := by
  rw [advance]
  split
  · rfl
  · split <;> rfl

theorem base_receive (recv : Recv) (s : Window) :
    (receive recv s).1.base = s.base ∨
      ∃ pkt abs, recv = .packet pkt ∧ parseAckPacket (pkt.take ackBufLen) = some (wireOf abs) ∧
        s.base ≤ abs ∧ abs < s.nextToSend ∧ (receive recv s).1.base = abs + 1 := by
  have hreceived := received recv s
  generalize receive recv s = r at hreceived ⊢
  cases hreceived with
  | left x hx => exact .inl rfl
  | rewound => exact .inl rfl
  | ignored => exact .inl rfl
  | acked pkt abs hrecv hparse hlo hhi =>
    exact .inr ⟨pkt, abs, hrecv, hparse, hlo, hhi, advance_base s abs⟩

theorem base_fill (h : Inv n file t) (hw : wantsFill n t.window = true) (e : Env) :
    (fill n file e t).window.base = t.window.base := by
  rw [fill]
  split
  · rfl
  · next w d hn =>
    obtain ⟨-, hcase⟩ := nextBlock_spec h hw e.reads hn
    have hbase : w.base = t.window.base := by
      rcases hcase with ⟨-, rfl⟩ | ⟨-, rfl⟩ <;> rfl
    dsimp only
    split <;> exact hbase

theorem base_step (h : Inv n file t) (e : Env) :
    (step n file t e).window.base = t.window.base ∨
      ∃ pkt abs, e.recv = .packet pkt ∧
        parseAckPacket (pkt.take ackBufLen) = some (wireOf abs) ∧
        t.window.base ≤ abs ∧ abs < t.window.nextToSend ∧
        (step n file t e).window.base = abs + 1 := by
  rw [step]
  split
  · exact .inl rfl
  · split
    · next hw => exact .inl (base_fill h hw e)
    · rw [await]
      split
      · exact .inl rfl
      · exact base_receive e.recv t.window

theorem grows_step (h : Inv n file t) (e : Env) : Grows t (step n file t e) := by
  have hbase : t.window.base ≤ (step n file t e).window.base := by
    rcases base_step h e with hb | ⟨_, abs, -, -, hlo, -, hb⟩ <;> omega
  have hrest : t.blocksRead.length ≤ (step n file t e).blocksRead.length ∧
      ∃ new, (step n file t e).sent = t.sent ++ new ∧ ∀ p ∈ new, t.window.base ≤ p.1 := by
    rw [step]
    split
    · exact ⟨le_rfl, [], by simp⟩
    · split
      · next hw => exact grows_fill h hw e
      · rw [await]
        split <;> exact ⟨le_rfl, [], by simp⟩
  exact ⟨hbase, hrest.1, hrest.2⟩

theorem grows_foldl (h : Inv n file t) (es : List Env) :
    Grows t (es.foldl (step n file) t) := by
  induction es generalizing t with
  | nil => exact Grows.refl _
  | cons e es ih => exact (grows_step h e).trans (ih (inv_step h e))

theorem fill_not_completed (e : Env) (t : Transfer) :
    (fill n file e t).exit ≠ some .completed := by
  rw [fill]
  split
  · simp
  · cases e.sendOk <;> simp

theorem completed_step (h : Inv n file t) (hrun : t.exit = none) (e : Env)
    (hdone : (step n file t e).exit = some .completed) :
    ∃ pkt, e.recv = .packet pkt ∧ t.window.lastBlock = some (finalBlock n file) ∧
      parseAckPacket (pkt.take ackBufLen) = some (wireOf (finalBlock n file)) ∧
      t.window.base ≤ finalBlock n file ∧ finalBlock n file < t.window.nextToSend := by
  simp only [step, hrun, Option.isSome_none, Bool.false_eq_true, if_false] at hdone
  split at hdone
  · exact absurd hdone (fill_not_completed e t)
  · rw [await] at hdone
    split at hdone
    · simp at hdone
    · have hreceived := received e.recv t.window
      generalize receive e.recv t.window = r at hreceived hdone
      cases hreceived with
      | left x hx => exact absurd (Option.some.inj hdone) hx
      | rewound => simp at hdone
      | ignored => simp at hdone
      | acked pkt abs hrecv hparse hlo hhi =>
        rw [advance] at hdone
        split at hdone
        · next hl =>
          obtain ⟨hread, hlt⟩ := (last_lt_iff h _).mp hl
          have hnext := h.next_le_read
          have hle := h.read_le
          obtain rfl : abs = finalBlock n file := by omega
          exact ⟨pkt, hrecv, by rw [h.last, if_pos hread], hparse, hlo, hhi⟩
        · split at hdone <;> simp at hdone

theorem fill_spec (h : Inv n file t) (hrun : t.exit = none) (hw : wantsFill n t.window = true)
    {e : Env} (hreads : ∀ i, e.reads i ≠ none) (hsend : e.sendOk = true) :
    (step n file t e).exit = none ∧
      (step n file t e).window.base = t.window.base ∧
      (step n file t e).window.nextToSend = t.window.nextToSend + 1 ∧
      (step n file t e).window.retries = t.window.retries ∧
      (step n file t e).sent =
        t.sent ++ [(t.window.nextToSend, dataPacket n file t.window.nextToSend)] := by
  have hstep : step n file t e = fill n file e t := by simp [step, hrun, hw]
  rw [hstep, fill]
  split
  · next hn =>
    exfalso
    rw [nextBlock] at hn
    split at hn
    · contradiction
    · exact readLoop_ne_none file e.reads _ _ _ _ hreads (Option.map_eq_none_iff.mp hn)
  · next w d hn =>
    obtain ⟨rfl, hcase⟩ := nextBlock_spec h hw e.reads hn
    simp only [hsend, if_true]
    rcases hcase with ⟨-, rfl⟩ | ⟨-, rfl⟩ <;> exact ⟨trivial, rfl, rfl, rfl, rfl⟩

theorem findAcked_wireOf {s : Window} {abs : ℕ} (hlo : s.base ≤ abs) (hhi : abs < s.nextToSend)
    (hturn : s.nextToSend ≤ s.base + 65536) : findAcked s (wireOf abs) = some abs := by
  refine List.find?_range'_eq_some.mpr ⟨by simp, List.mem_range'_1.mpr (by omega), ?_⟩
  intro j hj hlt
  have hne : wireOf j ≠ wireOf abs := fun hw ↦ by
    have := eq_of_wireOf_eq hw (by omega) (by omega)
    omega
  simpa using hne

theorem findAcked_stale {s : Window} {abs : ℕ} (hlo : abs < s.base)
    (hturn : s.nextToSend ≤ abs + 65536) : findAcked s (wireOf abs) = none := by
  refine List.find?_eq_none.mpr fun j hj hw ↦ ?_
  have hj := List.mem_range'_1.mp hj
  have := eq_of_wireOf_eq (beq_iff_eq.mp hw) (by omega) (by omega)
  omega

theorem receive_ack (abs : ℕ) (s : Window) :
    receive (.packet (makeAckPacket (wireOf abs))) s =
      match findAcked s (wireOf abs) with
      | some abs => advance s abs
      | none => ({ s with retries := s.retries + 1 }, none) := by
  cases hfound : findAcked s (wireOf abs) <;>
    simp only [receive, makeAckPacket_take, isErrorPacket_makeAckPacket, parseAckPacket_makeAckPacket,
      Bool.false_eq_true, if_false, Option.bind_some, hfound]

/-- What the DATA loop guarantees in every state, in the terms of the file and the block size. -/
structure Sound (n : Negotiated) (file : Bytes) (t : Transfer) : Prop where
  sent_bytes : ∀ p ∈ t.sent, p.2 = makeDataPacket (wireOf p.1)
    (file.extract ((p.1 - 1) * n.blksize) (min (p.1 * n.blksize) file.length))
  sent_range : ∀ p ∈ t.sent, 1 ≤ p.1 ∧ p.1 ≤ file.length / n.blksize + 1
  final_length : ∀ p ∈ t.sent, p.1 = file.length / n.blksize + 1 →
    p.2.length = 4 + file.length % n.blksize
  base_le_next : t.window.base ≤ t.window.nextToSend
  next_le_window : t.window.nextToSend ≤ t.window.base + n.windowsize
  read_once : t.blocksRead = List.range' 1 t.blocksRead.length
  buffered_keys : t.window.buffered.map Prod.fst =
    List.range' t.window.base (t.blocksRead.length + 1 - t.window.base)
  buffered_bytes : ∀ p ∈ t.window.buffered,
    p.2 = file.extract ((p.1 - 1) * n.blksize) (min (p.1 * n.blksize) file.length)
  buffered_le : t.window.buffered.length ≤ n.windowsize
  kept : ∀ es : List Env, ∀ p ∈ (es.foldl (step n file) t).sent.drop t.sent.length,
    p.1 ∈ t.blocksRead → p.1 ∈ t.window.buffered.map Prod.fst
  last_block : ∀ lb, t.window.lastBlock = some lb → lb = file.length / n.blksize + 1
  success : ∀ e : Env, t.exit = none → (step n file t e).exit = some .completed →
    ∃ pkt lb, e.recv = .packet pkt ∧ t.window.lastBlock = some lb ∧
      parseAckPacket (pkt.take ackBufLen) = some (wireOf lb) ∧
      t.window.base ≤ lb ∧ lb < t.window.nextToSend

theorem dataPacket_final_length :
    (dataPacket n file (finalBlock n file)).length = 4 + file.length % n.blksize := by
  have hmod := Nat.mod_lt file.length n.blksize_pos
  have hdiv := Nat.div_add_mod' file.length n.blksize
  have hlen := block_length n.blksize file (finalBlock n file)
  simp only [finalBlock, lastIndex, Nat.add_sub_cancel] at hlen
  simp only [dataPacket, dataOf, makeDataPacket, toBeBytes, List.length_append, List.length_cons,
    List.length_nil, finalBlock, lastIndex, hlen]
  omega

theorem data_loop_sound (n : Negotiated) (file : Bytes) (es : List Env) :
    Sound n file (run n file es) := by
  have h : Inv n file (run n file es) := inv_run es
  have hbase := h.base_pos
  have hread := h.read_lt_window
  refine
    { sent_bytes := ?_
      sent_range := fun p hp ↦ ⟨(h.sent p hp).1, (h.sent p hp).2.1.trans h.read_le⟩
      final_length := ?_
      base_le_next := h.base_le
      next_le_window := h.next_le_window
      read_once := h.read_order
      buffered_keys := by rw [h.buffer, interval_keys]
      buffered_bytes := ?_
      buffered_le := by rw [h.buffer, interval_length]; omega
      kept := ?_
      last_block := ?_
      success := ?_ }
  · intro p hp
    obtain ⟨hpos, -, hbytes⟩ := h.sent p hp
    rw [hbytes, dataPacket, dataOf, block_eq_extract _ _ hpos]
  · intro p hp hk
    obtain ⟨-, -, hbytes⟩ := h.sent p hp
    rw [hbytes, hk]
    exact dataPacket_final_length
  · intro p hp
    rw [h.buffer, mem_interval] at hp
    rw [hp.2, dataOf, block_eq_extract _ _ (by omega)]
  · intro es' p hp hmem
    obtain ⟨new, hnew, hlow⟩ := (grows_foldl h es').sent
    rw [hnew, List.drop_left] at hp
    have hlow := hlow p hp
    rw [h.read_order, List.mem_range'_1] at hmem
    rw [h.buffer, interval_keys, List.mem_range'_1]
    omega
  · intro lb hlb
    rw [h.last] at hlb
    split at hlb
    · exact (Option.some.inj hlb).symm
    · contradiction
  · intro e hrun hdone
    obtain ⟨pkt, hpkt, hlast, hwire, hlo, hhi⟩ := completed_step h hrun e hdone
    exact ⟨pkt, _, hpkt, hlast, hwire, hlo, hhi⟩

end BootyCall.Tftp.WindowInvariant
