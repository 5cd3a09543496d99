import BootyCall.Tftp.Handling

namespace BootyCall.Tftp.Effort

open Wire Request DataLoop WindowInvariant
open Handling (Stage awaitOack)

def receives (n : Negotiated) (t : Transfer) (e : Env) : Bool :=
  t.exit.isNone && !wantsFill n t.window && !givesUp e.expired t.window

/-- The DATA loop with its receives, and the packets sent since the last of them, counted. -/
structure Tally where
  transfer : Transfer := {}
  received : ℕ := 0
  sinceReceive : ℕ := 0

variable (n : Negotiated) (file : Bytes)

def Tally.next (s : Tally) (e : Env) : Tally where
  transfer := step n file s.transfer e
  received := if receives n s.transfer e then s.received + 1 else s.received
  sinceReceive :=
    if receives n s.transfer e then 0
    else s.sinceReceive + ((step n file s.transfer e).sent.length - s.transfer.sent.length)

def tally (es : ℕ → Env) : ℕ → Tally
  | 0 => {}
  | k + 1 => (tally es k).next n file (es k)

variable {n file} {t : Transfer}

inductive Round (n : Negotiated) (file : Bytes) (t : Transfer) (e : Env) : Prop
  | ended (h : t.exit.isSome = true) (hs : step n file t e = t) (hr : receives n t e = false)
  | sends (h : t.exit = none) (hr : receives n t e = false)
      (hx : (step n file t e).exit = none)
      (hsent : (step n file t e).sent.length = t.sent.length + 1)
      (hbase : (step n file t e).window.base = t.window.base)
      (hnext : (step n file t e).window.nextToSend = t.window.nextToSend + 1)
      (hretries : (step n file t e).window.retries = t.window.retries)
  | stops (h : t.exit = none) (hr : receives n t e = false)
      (hx : (step n file t e).exit.isSome = true)
      (hsent : (step n file t e).sent = t.sent)
  | receives (h : t.exit = none) (hr : receives n t e = true) (hretries : t.window.retries < 5)
      (hs : step n file t e = { t with
        window := (receive e.recv t.window).1
        exit := (receive e.recv t.window).2 })

theorem round (h : Inv n file t) (e : Env) : Round n file t e := by
  cases hx : t.exit with
  | some x => exact .ended (by simp [hx]) (by simp [step, hx]) (by simp [Effort.receives, hx])
  | none =>
    by_cases hw : wantsFill n t.window = true
    · have hr : Effort.receives n t e = false := by simp [Effort.receives, hw]
      have hstep : step n file t e = fill n file e t := by simp [step, hx, hw]
      cases hn : nextBlock n file e.reads t.window with
      | none => exact .stops hx hr (by simp [hstep, fill, hn]) (by simp [hstep, fill, hn])
      | some r =>
        obtain ⟨w, d⟩ := r
        cases hsend : e.sendOk with
        | false =>
          exact .stops hx hr (by simp [hstep, fill, hn, hsend])
            (by simp [hstep, fill, hn, hsend])
        | true =>
          obtain ⟨-, hcase⟩ := nextBlock_spec h hw e.reads hn
          have hwin : w.base = t.window.base ∧ w.nextToSend = t.window.nextToSend ∧
              w.retries = t.window.retries := by
            rcases hcase with ⟨-, rfl⟩ | ⟨-, rfl⟩ <;> exact ⟨rfl, rfl, rfl⟩
          obtain ⟨hbase, hnext, hretries⟩ := hwin
          exact .sends hx hr (by simp [hstep, fill, hn, hsend]) (by simp [hstep, fill, hn, hsend])
            (by simp [hstep, fill, hn, hsend, hbase]) (by simp [hstep, fill, hn, hsend, hnext])
            (by simp [hstep, fill, hn, hsend, hretries])
    · have hstep : step n file t e = await e t := by simp [step, hx, hw]
      cases hg : givesUp e.expired t.window with
      | true =>
        exact .stops hx (by simp [Effort.receives, hg]) (by simp [hstep, await, hg])
          (by simp [hstep, await, hg])
      | false =>
        have hretries : t.window.retries < 5 := by
          simp only [givesUp, Bool.or_eq_false_iff] at hg
          exact Nat.not_le.mp (of_decide_eq_false hg.1)
        exact .receives hx (by simp [Effort.receives, hx, hw, hg]) hretries
          (by simp [hstep, await, hg])

theorem advance_retries (w : Window) (abs : ℕ) : (advance w abs).1.retries = 0 := by
  rw [advance]
  dsimp only
  split
  · rfl
  · split <;> rfl

/-- A receive either advances the window or is charged to the retry budget. -/
theorem receive_effort (recv : Recv) (w : Window) (hrun : (receive recv w).2 = none) :
    (receive recv w).1.base = w.base ∧ (receive recv w).1.retries = w.retries + 1 ∨
      w.base < (receive recv w).1.base ∧ (receive recv w).1.retries = 0 := by
  have hreceived := received recv w
  generalize receive recv w = r at hreceived hrun ⊢
  cases hreceived with
  | left x hx => cases hrun
  | rewound => exact .inl ⟨rfl, rfl⟩
  | ignored => exact .inl ⟨rfl, rfl⟩
  | acked pkt abs hrecv hparse hlo hhi =>
    exact .inr ⟨by rw [advance_base]; omega, advance_retries w abs⟩

/-- The budget after `k` rounds. While the loop runs, five receives are paid for by every block
acknowledged and one by every retry; the window pays for the packets between two receives. -/
structure Budget (n : Negotiated) (file : Bytes) (k : ℕ) (s : Tally) : Prop where
  inv : Inv n file s.transfer
  received_le : s.received ≤ 5 * finalBlock n file
  since_le : s.sinceReceive ≤ n.windowsize
  sent_le : s.transfer.sent.length ≤ n.windowsize * s.received + s.sinceReceive
  running : s.transfer.exit = none →
    s.received + 5 ≤ s.transfer.window.retries + 5 * s.transfer.window.base ∧
      s.transfer.window.retries ≤ 5 ∧
      s.sinceReceive + s.transfer.window.base ≤ s.transfer.window.nextToSend ∧
      k ≤ s.received * (n.windowsize + 1) + s.sinceReceive

theorem budget_init : Budget n file 0 {} where
  inv := inv_init n file
  received_le := Nat.zero_le _
  since_le := Nat.zero_le _
  sent_le := Nat.zero_le _
  running := fun _ ↦ ⟨le_rfl, by decide, le_rfl, Nat.zero_le _⟩

theorem budget_next {k : ℕ} {s : Tally} (h : Budget n file k s) (e : Env) :
    Budget n file (k + 1) (s.next n file e) := by
  have hinv := inv_step h.inv e
  have hsince := h.since_le
  have hsent := h.sent_le
  cases round h.inv e with
  | ended hx hs hr =>
    have hnext : s.next n file e = s := by
      simp [Tally.next, hs, hr]
    rw [hnext]
    exact { h with running := fun hrun ↦ by simp [hrun] at hx }
  | sends hx hr hx' hsent' hbase hnext hretries =>
    obtain ⟨hpaid, hbudget, hfresh, hk⟩ := h.running hx
    have hwin := hinv.next_le_window
    have hadd : (step n file s.transfer e).sent.length - s.transfer.sent.length = 1 := by omega
    have htally : s.next n file e =
        ⟨step n file s.transfer e, s.received, s.sinceReceive + 1⟩ := by
      simp [Tally.next, hr, hadd]
    rw [htally]
    refine ⟨hinv, h.received_le, ?_, ?_, fun _ ↦ ⟨?_, ?_, ?_, ?_⟩⟩ <;> dsimp only <;> omega
  | stops hx hr hx' hsent' =>
    have htally : s.next n file e = ⟨step n file s.transfer e, s.received, s.sinceReceive⟩ := by
      simp [Tally.next, hr, hsent']
    rw [htally]
    refine ⟨hinv, h.received_le, hsince, ?_, fun hrun ↦ ?_⟩
    · dsimp only
      rw [hsent']
      exact hsent
    · dsimp only at hrun
      simp [hrun] at hx'
  | receives hx hr hretries hs =>
    obtain ⟨hpaid, hbudget, hfresh, hk⟩ := h.running hx
    have hopen := h.inv.unfinished (by simp [hx])
    have htally : s.next n file e = ⟨step n file s.transfer e, s.received + 1, 0⟩ := by
      simp [Tally.next, hr]
    have hmul : n.windowsize * (s.received + 1) = n.windowsize * s.received + n.windowsize :=
      Nat.mul_succ _ _
    have hmul' : (s.received + 1) * (n.windowsize + 1) =
        s.received * (n.windowsize + 1) + (n.windowsize + 1) := Nat.succ_mul _ _
    rw [htally]
    refine ⟨hinv, ?_, Nat.zero_le _, ?_, fun hrun ↦ ?_⟩
    · dsimp only
      omega
    · dsimp only
      rw [hs]
      dsimp only
      omega
    · dsimp only at hrun ⊢
      have hnext := hinv.base_le
      rw [hs] at hrun hnext ⊢
      dsimp only at hrun hnext ⊢
      rcases receive_effort e.recv s.transfer.window hrun with ⟨hb, hr'⟩ | ⟨hb, hr'⟩
      · refine ⟨?_, ?_, ?_, ?_⟩ <;> omega
      · refine ⟨?_, ?_, ?_, ?_⟩ <;> omega

theorem budget_tally (es : ℕ → Env) (k : ℕ) : Budget n file k (tally n file es k) := by
  induction k with
  | zero => exact budget_init
  | succ k ih => exact budget_next ih (es k)

theorem tally_over (es : ℕ → Env) {k : ℕ}
    (hk : (5 * finalBlock n file + 1) * (n.windowsize + 1) ≤ k) :
    (tally n file es k).transfer.exit.isSome = true := by
  have h : Budget n file k (tally n file es k) := budget_tally es k
  by_contra hrun
  obtain ⟨-, -, -, hle⟩ := h.running (Option.not_isSome_iff_eq_none.mp hrun)
  have hreceived := Nat.mul_le_mul_right (n.windowsize + 1) h.received_le
  have hsince := h.since_le
  rw [Nat.succ_mul] at hk
  omega

/-- `send_and_await_ack`: the stage of the exchange, and the sends it has tried. -/
structure Exchange where
  stage : Stage
  sends : ℕ := 0

def Exchange.next (s : Exchange) (e : Env) : Exchange :=
  match s.stage with
  | .oack file packet retries =>
    { stage := (awaitOack file packet retries e).stage
      sends := if givesUp e.expired { retries } then s.sends else s.sends + 1 }
  | _ => s

def exchange (file packet : Bytes) (es : ℕ → Env) : ℕ → Exchange
  | 0 => { stage := .oack file packet 0 }
  | k + 1 => (exchange file packet es k).next (es k)

def Stage.retries : Stage → Option ℕ
  | .oack _ _ retries => some retries
  | _ => none

theorem awaitOack_retries (file packet : Bytes) (retries : ℕ) (e : Env) :
    givesUp e.expired { retries } = true ∧
        Stage.retries (awaitOack file packet retries e).stage = none ∨
      givesUp e.expired { retries } = false ∧ retries < 5 ∧
        ∀ r, Stage.retries (awaitOack file packet retries e).stage = some r → r = retries + 1 := by
  rw [awaitOack]
  by_cases hg : givesUp e.expired { retries } = true
  · exact .inl ⟨hg, by simp [hg, Stage.retries]⟩
  · have hlt : retries < 5 := by
      simp only [givesUp, Bool.or_eq_true, not_or] at hg
      exact Nat.not_le.mp fun hle ↦ hg.1 (decide_eq_true hle)
    refine .inr ⟨Bool.not_eq_true _ ▸ hg, hlt, fun r hr ↦ ?_⟩
    rw [if_neg hg] at hr
    split at hr
    · split at hr
      · cases hr
      · exact (Option.some.inj hr).symm
      · split at hr
        · cases hr
        · split at hr
          · cases hr
          · exact (Option.some.inj hr).symm
    · cases hr

theorem exchange_sends (file packet : Bytes) (es : ℕ → Env) (k : ℕ) :
    (exchange file packet es k).sends ≤ 5 ∧
      ∀ r, Stage.retries (exchange file packet es k).stage = some r →
        r = k ∧ (exchange file packet es k).sends = k := by
  induction k with
  | zero => exact ⟨Nat.zero_le _, fun r hr ↦ ⟨(Option.some.inj hr).symm, rfl⟩⟩
  | succ k ih =>
    obtain ⟨hle, hstage⟩ := ih
    rw [exchange, Exchange.next]
    split
    · next file' packet' retries hoack =>
      obtain ⟨rfl, hsends⟩ := hstage retries (by rw [hoack]; rfl)
      rcases awaitOack_retries file' packet' retries (es retries) with
        ⟨hg, hnone⟩ | ⟨hg, hlt, hr⟩
      · simp only [hg, if_true]
        exact ⟨hle, fun r hr ↦ by simp [hnone] at hr⟩
      · simp only [hg, Bool.false_eq_true, if_false, hsends]
        exact ⟨hlt, fun r h ↦ ⟨hr r h, trivial⟩⟩
    · next hne =>
      refine ⟨hle, fun r hr ↦ ?_⟩
      rw [Stage.retries] at hr
      · cases hr
      · exact hne

/-- Whatever the client sends, a transfer is over after bounded effort: five receives for each
block, a window of packets for each receive, and five sends of the option acknowledgement. -/
theorem bounded_effort (n : Negotiated) (file : Bytes) (es : ℕ → Env) :
    (∃ k, ∀ j ≥ k, (tally n file es j).transfer.exit.isSome = true) ∧
    (∀ k, (tally n file es k).received ≤ 5 * finalBlock n file ∧
      (tally n file es k).sinceReceive ≤ n.windowsize ∧
      (tally n file es k).transfer.sent.length ≤
        n.windowsize + n.windowsize * (tally n file es k).received) ∧
    (∀ recv w, (receive recv w).2 = none → (receive recv w).1.base = w.base →
      (receive recv w).1.retries = w.retries + 1) ∧
    ∀ packet, (∀ k, (exchange file packet es k).sends ≤ 5) ∧
      ∀ k ≥ 6, Stage.retries (exchange file packet es k).stage = none := by
  refine ⟨⟨_, fun j hj ↦ tally_over es hj⟩, fun k ↦ ?_, fun recv w hrun hbase ↦ ?_,
    fun packet ↦ ⟨fun k ↦ (exchange_sends file packet es k).1, fun k hk ↦ ?_⟩⟩
  · have h : Budget n file k (tally n file es k) := budget_tally es k
    have hsince := h.since_le
    have hsent := h.sent_le
    exact ⟨h.received_le, hsince, by omega⟩
  · rcases receive_effort recv w hrun with ⟨-, hr⟩ | ⟨hb, -⟩
    · exact hr
    · omega
  · obtain ⟨hle, hstage⟩ := exchange_sends file packet es k
    cases hr : Stage.retries (exchange file packet es k).stage with
    | none => rfl
    | some r =>
      have := (hstage r hr).2
      omega

end BootyCall.Tftp.Effort
