import BootyCall.Tftp.Effort

namespace BootyCall.Tftp.Slots

open BootyCall.Core Path State Wire Request DataLoop WindowInvariant Listener
open Handling (Answer OpenError Outcome Session Stage awaitOack react)

/-- A slot is taken with the permit and given back at the end of the transfer. -/
def holdsSlot (s : Session) : Bool :=
  match s.stage with
  | .bind | .connect | .permit | .ended => false
  | .opening | .metadata _ | .oack _ _ _ | .data _ _ => true

/-- The requests that were taken up, as they came, and what the listener itself has answered. -/
structure Listening where
  sessions : List Session := []
  replies : List Bytes := []

def Listening.held (l : Listening) : ℕ := l.sessions.countP holdsSlot

/-- A datagram, with what the listener reads and what the sockets say to it. -/
structure Arrival where
  config : Config
  fs : FileSystem
  hosts : List HostState
  clientIp : String
  datagram : Bytes
  bindOk : Bool
  connectOk : Bool

def Arrival.reaction (arrival : Arrival) : Reaction :=
  onPacket arrival.config arrival.fs arrival.hosts arrival.clientIp arrival.datagram

inductive Event
  | datagram (arrival : Arrival)
  | session (i : ℕ) (a : Answer)

/-- What a request meets before its transfer is spawned; there is a permit as long as fewer slots
are held than there are. -/
def setUp (arrival : Arrival) (free : Bool) : List Answer :=
  [{ bindOk := arrival.bindOk }, { connectOk := arrival.connectOk }, { permit := free }]

variable (limit : ℕ)

/-- `run_tftp_server_with_limit` at a datagram, or one of the spawned transfers at its next step. -/
def step (l : Listening) : Event → Listening
  | .datagram arrival =>
    match arrival.reaction with
    | .ignored => l
    | .reply packet => { l with replies := l.replies ++ [packet] }
    | .refused packet => if arrival.bindOk then { l with replies := l.replies ++ [packet] } else l
    | .start job =>
      { l with
        sessions := l.sessions ++ [Handling.run job (setUp arrival (decide (l.held < limit)))] }
  | .session i a => { l with sessions := l.sessions.modify i (Handling.step · a) }

def run (events : List Event) : Listening := events.foldl (step limit) {}

def Event.answerTo (i : ℕ) : Event → Option Answer
  | .session j a => if j = i then some a else none
  | .datagram _ => none

def answersTo (i : ℕ) (events : List Event) : List Answer := events.filterMap (Event.answerTo i)

def dataEffort (size : ℕ) : ℕ := 33 * (5 * (size / 512 + 1) + 2)

/-- As many steps as a transfer of so many bytes can take. -/
def effort (size : ℕ) : ℕ := dataEffort size + 8

variable {limit} {l : Listening} {s : Session} {arrival : Arrival}

theorem stage_setUp (job : Job) (arrival : Arrival) (free : Bool) :
    (Handling.run job (setUp arrival free)).stage =
      if arrival.bindOk ∧ arrival.connectOk ∧ free then .opening else .ended := by
  cases hbind : arrival.bindOk <;> cases hconnect : arrival.connectOk <;> cases free <;>
    simp [Handling.run, Handling.start, Handling.step, react, setUp, hbind, hconnect]

theorem replies_setUp (job : Job) (hbind : arrival.bindOk = true)
    (hconnect : arrival.connectOk = true) : (Handling.run job (setUp arrival false)).replies =
      [makeErrorPacket 0 "Server busy"] := by
  simp [Handling.run, Handling.start, Handling.step, react, setUp, hbind, hconnect]

theorem awaitOack_stage (file packet : Bytes) (retries : ℕ) (e : Env) :
    (awaitOack file packet retries e).stage = .ended ∨
      (awaitOack file packet retries e).stage = .data file {} ∨
      retries < 5 ∧ (awaitOack file packet retries e).stage = .oack file packet (retries + 1) := by
  rw [awaitOack]
  split
  · exact .inl rfl
  · next hgiven =>
    have hlt : retries < 5 := by
      simp only [givesUp, Bool.or_eq_true, not_or] at hgiven
      exact Nat.not_le.mp fun hle ↦ hgiven.1 (decide_eq_true hle)
    split
    · split
      · exact .inl rfl
      · exact .inr (.inr ⟨hlt, rfl⟩)
      · split
        · exact .inl rfl
        · split
          · exact .inr (.inl rfl)
          · exact .inr (.inr ⟨hlt, rfl⟩)
    · exact .inl rfl

/-- The stages of a request that has its slot; a file has at most `size` bytes. -/
inductive Serving (size : ℕ) (request : RrqRequest) : Stage → Prop
  | opening : Serving size request .opening
  | metadata (file : Bytes) (h : file.length ≤ size) : Serving size request (.metadata file)
  | oack (file packet : Bytes) (retries : ℕ) (h : file.length ≤ size) (hretries : retries ≤ 5) :
      Serving size request (.oack file packet retries)
  | data (file : Bytes) (t : Transfer) (h : file.length ≤ size)
      (hinv : Inv (negotiate request) file t) (hrun : t.exit = none)
      (hretries : t.window.retries ≤ 5) : Serving size request (.data file t)

def dataLeft (n : Negotiated) (file : Bytes) (t : Transfer) : ℕ :=
  (5 * finalBlock n file + 6 - (5 * t.window.base + t.window.retries)) * (n.windowsize + 1) +
    (t.window.base + n.windowsize - t.window.nextToSend)

def left (size : ℕ) (request : RrqRequest) : Stage → ℕ
  | .opening => effort size
  | .metadata _ => dataEffort size + 7
  | .oack _ _ retries => dataEffort size + (6 - retries)
  | .data file t => dataLeft (negotiate request) file t + 1
  | .bind | .connect | .permit | .ended => 0

theorem dataLeft_start {size : ℕ} (n : Negotiated) {file : Bytes} (h : file.length ≤ size) :
    dataLeft n file {} + 1 ≤ dataEffort size := by
  have hblocks : finalBlock n file ≤ size / 512 + 1 := by
    have hblksize : 512 ≤ n.blksize := n.blksize_ge
    exact Nat.succ_le_succ (Nat.div_le_div h hblksize (by decide))
  have hwindow : n.windowsize + 1 ≤ 33 := Nat.succ_le_succ n.windowsize_le_32
  have hleft : dataLeft n file {} =
      (5 * finalBlock n file + 1) * (n.windowsize + 1) + n.windowsize := by
    have hroom : 1 + n.windowsize - 1 = n.windowsize := by omega
    have hretries : 5 * finalBlock n file + 6 - (5 * 1 + 0) = 5 * finalBlock n file + 1 := by omega
    rw [dataLeft, hretries, hroom]
  have hmul : (5 * finalBlock n file + 1) * (n.windowsize + 1) ≤
      (5 * (size / 512 + 1) + 1) * 33 := Nat.mul_le_mul (by omega) hwindow
  rw [hleft, dataEffort]
  omega

theorem dataLeft_step {n : Negotiated} {file : Bytes} {t : Transfer} (hinv : Inv n file t)
    (hrun : t.exit = none) (hretries : t.window.retries ≤ 5) (e : Env)
    (hx : (DataLoop.step n file t e).exit = none) :
    (DataLoop.step n file t e).window.retries ≤ 5 ∧
      dataLeft n file (DataLoop.step n file t e) < dataLeft n file t := by
  have hnext := inv_step hinv e
  cases Effort.round hinv e with
  | ended hended => simp [hrun] at hended
  | stops _ _ hended => simp [hx] at hended
  | sends _ _ _ _ hbase hsent hsame =>
    have hroom := hnext.next_le_window
    rw [dataLeft, dataLeft, hsame, hbase, hsent]
    rw [hbase, hsent] at hroom
    exact ⟨hretries, by omega⟩
  | receives _ _ hlt hs =>
    have hroom := hnext.base_le
    have hbase := hinv.unfinished (by simp [hrun])
    -- A receive is paid for with a retry or with blocks acknowledged, whatever is sent again.
    have hpaid : 5 * t.window.base + t.window.retries + 1 ≤
        5 * (DataLoop.step n file t e).window.base + (DataLoop.step n file t e).window.retries ∧
          (DataLoop.step n file t e).window.retries ≤ 5 := by
      rw [hs] at hx ⊢
      rcases Effort.receive_effort e.recv t.window hx with ⟨hb, hr⟩ | ⟨hb, hr⟩
      · exact ⟨by dsimp only; omega, by dsimp only; omega⟩
      · exact ⟨by dsimp only; omega, by dsimp only; omega⟩
    refine ⟨hpaid.2, ?_⟩
    generalize DataLoop.step n file t e = t' at hroom hpaid ⊢
    have hmul : (5 * finalBlock n file + 6 - (5 * t'.window.base + t'.window.retries) + 1) *
        (n.windowsize + 1) ≤
          (5 * finalBlock n file + 6 - (5 * t.window.base + t.window.retries)) *
            (n.windowsize + 1) := Nat.mul_le_mul_right _ (by omega)
    rw [Nat.succ_mul] at hmul
    rw [dataLeft, dataLeft]
    omega

theorem react_left {size : ℕ} {request : RrqRequest} {stage : Stage}
    (h : Serving size request stage) (a : Answer)
    (ha : ∀ file, a.opened = .ok file → file.length ≤ size) :
    (react request stage a).stage = .ended ∨
      Serving size request (react request stage a).stage ∧
        left size request (react request stage a).stage < left size request stage := by
  cases h with
  | opening =>
    rw [react]
    split
    · split
      · exact .inl rfl
      · next file hopened =>
        exact .inr ⟨.metadata file (ha file hopened), Nat.lt_succ_self _⟩
    · exact .inl rfl
  | metadata file hfile =>
    have hstart := dataLeft_start (negotiate request) hfile
    rw [react]
    split
    · exact .inl rfl
    · next fileSize hsize =>
      dsimp only
      split
      · refine .inr ⟨.data file {} hfile (inv_init _ _) rfl (Nat.zero_le _), ?_⟩
        rw [left, left]
        omega
      · exact .inr ⟨.oack file _ 0 hfile (Nat.zero_le _), Nat.lt_succ_self _⟩
  | oack file packet retries hfile hretries =>
    have hstart := dataLeft_start (negotiate request) hfile
    rw [react]
    rcases awaitOack_stage file packet retries a.net with hended | hdata | ⟨hlt, hagain⟩
    · exact .inl hended
    · right
      rw [hdata, left, left]
      exact ⟨.data file {} hfile (inv_init _ _) rfl (Nat.zero_le _), by omega⟩
    · right
      rw [hagain, left, left]
      exact ⟨.oack file packet _ hfile hlt, by omega⟩
  | data file t hfile hinv hrun hretries =>
    simp only [react]
    split
    · next hx =>
      obtain ⟨hretries', hleft⟩ := dataLeft_step hinv hrun hretries a.net hx
      exact .inr ⟨.data file _ hfile (inv_step hinv a.net) hx hretries', Nat.succ_lt_succ hleft⟩
    · exact .inl rfl

theorem step_ended (h : s.stage = .ended) (a : Answer) : Handling.step s a = s := by
  obtain ⟨job, stage, replies, marks⟩ := s
  obtain rfl : stage = .ended := h
  simp [Handling.step, react]

theorem foldl_ended (h : s.stage = .ended) (answers : List Answer) :
    answers.foldl Handling.step s = s := by
  induction answers with
  | nil => rfl
  | cons a answers ih => rw [List.foldl_cons, step_ended h, ih]

theorem serving_foldl {size : ℕ} (h : Serving size s.job.request s.stage) (answers : List Answer)
    (hfiles : ∀ a ∈ answers, ∀ file, a.opened = .ok file → file.length ≤ size) :
    (answers.foldl Handling.step s).stage = .ended ∨
      Serving size s.job.request (answers.foldl Handling.step s).stage ∧
        left size s.job.request (answers.foldl Handling.step s).stage + answers.length ≤
          left size s.job.request s.stage := by
  induction answers generalizing s with
  | nil => exact .inr ⟨h, le_rfl⟩
  | cons a answers ih =>
    obtain ⟨hfile, hfiles⟩ := List.forall_mem_cons.mp hfiles
    rcases react_left h a hfile with hended | ⟨hserving, hleft⟩
    · left
      rw [List.foldl_cons, foldl_ended hended]
      exact hended
    · have hnext : Serving size (Handling.step s a).job.request (Handling.step s a).stage :=
        hserving
      rcases ih hnext hfiles with hended | ⟨hserving', hleft'⟩
      · exact .inl hended
      · refine .inr ⟨hserving', ?_⟩
        rw [List.length_cons]
        exact Nat.succ_le_of_lt (Nat.lt_of_le_of_lt hleft' hleft)

theorem holdsSlot_of_ended (h : s.stage = .ended) : holdsSlot s = false := by
  rw [holdsSlot, h]

theorem left_pos {size : ℕ} {request : RrqRequest} {stage : Stage}
    (h : Serving size request stage) : 0 < left size request stage := by
  cases h with
  | opening | metadata _ _ | data _ _ _ _ _ _ => exact Nat.succ_pos _
  | oack _ _ retries _ hretries =>
    rw [left]
    omega

theorem run_concat (events : List Event) (e : Event) :
    run limit (events ++ [e]) = step limit (run limit events) e := by
  rw [run, run, List.foldl_append]
  rfl

theorem run_append (before after : List Event) :
    run limit (before ++ after) = after.foldl (step limit) (run limit before) := by
  rw [run, run, List.foldl_append]

def Settled (s : Session) : Prop := s.stage = .ended ∨ holdsSlot s = true

theorem holdsSlot_setUp (job : Job) (arrival : Arrival) (free : Bool) :
    holdsSlot (Handling.run job (setUp arrival free)) =
      decide (arrival.bindOk ∧ arrival.connectOk ∧ free) := by
  rw [holdsSlot, stage_setUp]
  by_cases h : arrival.bindOk ∧ arrival.connectOk ∧ free
  · rw [if_pos h, decide_eq_true h]
  · rw [if_neg h, decide_eq_false h]

theorem settled_setUp (job : Job) (arrival : Arrival) (free : Bool) :
    Settled (Handling.run job (setUp arrival free)) := by
  rw [Settled, holdsSlot_setUp, stage_setUp, decide_eq_true_eq]
  split
  · exact .inr ‹_›
  · exact .inl rfl

theorem settled_step (h : Settled s) (a : Answer) : Settled (Handling.step s a) := by
  rw [Settled, holdsSlot, Handling.step]
  dsimp only
  rcases h with hended | hholds
  · rw [hended]
    exact .inl rfl
  · rw [holdsSlot] at hholds
    cases hstage : s.stage with
    | bind | connect | permit | ended =>
      rw [hstage] at hholds
      cases hholds
    | opening =>
      rw [react]
      split
      · split
        · exact .inl rfl
        · exact .inr rfl
      · exact .inl rfl
    | metadata file =>
      rw [react]
      split
      · exact .inl rfl
      · dsimp only
        split
        · exact .inr rfl
        · exact .inr rfl
    | oack file packet retries =>
      rw [react]
      rcases awaitOack_stage file packet retries a.net with hended | hdata | ⟨-, hagain⟩
      · exact .inl hended
      · rw [hdata]
        exact .inr rfl
      · rw [hagain]
        exact .inr rfl
    | data file t =>
      simp only [react]
      split
      · exact .inr rfl
      · exact .inl rfl

theorem holdsSlot_step (h : Settled s) (a : Answer) (hstep : holdsSlot (Handling.step s a) = true) :
    holdsSlot s = true := by
  rcases h with hended | hholds
  · rw [step_ended hended] at hstep
    exact hstep
  · exact hholds

theorem countP_modify_le {α : Type} {p : α → Bool} {f : α → α} {as : List α}
    (h : ∀ a ∈ as, p (f a) = true → p a = true) (i : ℕ) :
    (as.modify i f).countP p ≤ as.countP p := by
  induction as generalizing i with
  | nil => simp
  | cons a as ih =>
    obtain ⟨ha, has⟩ := List.forall_mem_cons.mp h
    cases i with
    | zero =>
      rw [List.modify_zero_cons, List.countP_cons, List.countP_cons]
      split <;> split <;> grind
    | succ i =>
      rw [List.modify_succ_cons, List.countP_cons, List.countP_cons]
      exact Nat.add_le_add_right (ih has i) _

structure Kept (limit : ℕ) (l : Listening) : Prop where
  settled : ∀ s ∈ l.sessions, Settled s
  held : l.held ≤ limit

theorem kept_step (h : Kept limit l) (e : Event) : Kept limit (step limit l e) := by
  cases e with
  | datagram arrival =>
    rw [step]
    split
    · exact h
    · exact ⟨h.settled, h.held⟩
    · split
      · exact ⟨h.settled, h.held⟩
      · exact h
    · next job _ =>
      constructor
      · intro s hs
        rcases List.mem_append.mp hs with hs | hs
        · exact h.settled s hs
        · rw [List.mem_singleton.mp hs]
          exact settled_setUp job arrival _
      · rw [Listening.held, List.countP_append, List.countP_singleton]
        have hheld := h.held
        rw [Listening.held] at hheld
        split
        · next hslot =>
          rw [holdsSlot_setUp, decide_eq_true_eq, decide_eq_true_eq] at hslot
          exact hslot.2.2
        · exact hheld
  | session i a =>
    constructor
    · intro s hs
      obtain ⟨j, hj⟩ := List.getElem?_of_mem hs
      rw [step, List.getElem?_modify] at hj
      obtain ⟨s', hs', rfl⟩ := Option.map_eq_some_iff.mp hj
      split
      · exact settled_step (h.settled s' (List.mem_of_getElem? hs')) a
      · exact h.settled s' (List.mem_of_getElem? hs')
    · have hle := countP_modify_le (p := holdsSlot)
        (fun s hs ↦ holdsSlot_step (h.settled s hs) a) i
      exact hle.trans h.held

theorem kept_run (events : List Event) : Kept limit (run limit events) := by
  induction events using List.reverseRecOn with
  | nil => exact ⟨nofun, Nat.zero_le _⟩
  | append_singleton events e ih =>
    rw [run_concat]
    exact kept_step ih e

theorem session_foldl {i : ℕ} (hs : l.sessions[i]? = some s) (events : List Event) :
    (events.foldl (step limit) l).sessions[i]? =
      some ((answersTo i events).foldl Handling.step s) := by
  induction events generalizing l s with
  | nil => exact hs
  | cons e events ih =>
    cases e with
    | datagram arrival =>
      have hkept : (step limit l (.datagram arrival)).sessions[i]? = some s := by
        rw [step]
        split
        · exact hs
        · exact hs
        · split <;> exact hs
        · exact List.getElem?_append_left (List.getElem?_eq_some_iff.mp hs).1 ▸ hs
      exact ih hkept
    | session j a =>
      by_cases hj : j = i
      · subst hj
        have hnext : (step limit l (.session j a)).sessions[j]? = some (Handling.step s a) := by
          rw [step, List.getElem?_modify_eq, hs]
          rfl
        have hanswer : Event.answerTo j (.session j a) = some a := if_pos rfl
        rw [answersTo, List.filterMap_cons_some hanswer]
        exact ih hnext
      · have hkept : (step limit l (.session j a)).sessions[i]? = some s := by
          rw [step, List.getElem?_modify_ne _ _ hj, hs]
        have hanswer : Event.answerTo i (.session j a) = none := if_neg hj
        rw [answersTo, List.filterMap_cons_none hanswer]
        exact ih hkept

/-- Never more than `limit` slots are held, and a request gets one exactly if there is a free one.
Whatever the other requests do, it then goes through its own steps alone, and gives the slot back
after at most `effort` of them. -/
theorem slots_come_back (limit : ℕ) (before after : List Event) (arrival : Arrival) (job : Job)
    (hstart : arrival.reaction = .start job) :
    (run limit (before ++ .datagram arrival :: after)).held ≤ limit ∧
      ∃ session, (run limit (before ++ .datagram arrival :: after)).sessions[
          (run limit before).sessions.length]? = some session ∧
        session = Handling.run job (setUp arrival (decide ((run limit before).held < limit)) ++
          answersTo (run limit before).sessions.length after) ∧
        (arrival.bindOk = true → arrival.connectOk = true → (run limit before).held = limit →
          session.replies = [makeErrorPacket 0 "Server busy"] ∧ holdsSlot session = false) ∧
        ∀ size, (∀ a ∈ answersTo (run limit before).sessions.length after, ∀ file,
            a.opened = .ok file → file.length ≤ size) →
          effort size ≤ (answersTo (run limit before).sessions.length after).length →
            holdsSlot session = false := by
  have hentered : (run limit (before ++ [.datagram arrival])).sessions[
      (run limit before).sessions.length]? =
        some (Handling.run job (setUp arrival (decide ((run limit before).held < limit)))) := by
    rw [run_concat, step, hstart]
    exact List.getElem?_concat_length
  have hrun : ∀ first rest, Handling.run job (first ++ rest) =
      rest.foldl Handling.step (Handling.run job first) := fun first rest ↦ List.foldl_append
  refine ⟨(kept_run _).held, _, ?_, rfl, fun hbind hconnect hfull ↦ ?_, fun size hfiles hlength ↦ ?_⟩
  · rw [← List.singleton_append, ← List.append_assoc, run_append, session_foldl hentered, hrun]
  · have hbusy : decide ((run limit before).held < limit) = false := by simp [hfull]
    have hended : (Handling.run job (setUp arrival false)).stage = .ended := by
      rw [stage_setUp, if_neg fun h ↦ Bool.false_ne_true h.2.2]
    rw [hbusy, hrun, foldl_ended hended]
    exact ⟨replies_setUp job hbind hconnect, holdsSlot_of_ended hended⟩
  · rw [hrun]
    generalize decide ((run limit before).held < limit) = free
    have hstage := stage_setUp job arrival free
    split at hstage
    · have hserving : Serving size (Handling.run job (setUp arrival free)).job.request
          (Handling.run job (setUp arrival free)).stage := hstage ▸ .opening
      rcases serving_foldl hserving _ hfiles with hended | ⟨hserving', hleft⟩
      · exact holdsSlot_of_ended hended
      · have hpos := left_pos hserving'
        rw [hstage, left] at hleft
        omega
    · rw [foldl_ended hstage]
      exact holdsSlot_of_ended hstage

section Sample

def sampleArrival : Arrival where
  config :=
    { server :=
        { httpBind := "0.0.0.0:8080"
          tftpBind := "0.0.0.0:69"
          tftpRoot := .ofString "/srv"
          proxyDhcpBind := "0.0.0.0:4011"
          defaultBootloaderAmd64 := "boot"
          defaultBootloaderArm64 := "arm64.efi" }
      hosts := [] }
  fs := sample
  hosts := []
  clientIp := "10.0.0.5"
  datagram := makeRrqPacket "boot" "octet" []
  bindOk := true
  connectOk := true

theorem slots_come_back_busy : ∃ session,
    (run 1 ([.datagram sampleArrival] ++ [.datagram sampleArrival])).sessions[1]? = some session ∧
      session.replies = [makeErrorPacket 0 "Server busy"] := by
  have hstart : sampleArrival.reaction = .start
      ⟨{ filename := "boot", mode := "octet" }, .ofString "/srv/boot", none⟩ := by decide +kernel
  have hfull : (run 1 [.datagram sampleArrival]).held = 1 := by decide +kernel
  obtain ⟨-, session, hsession, -, hbusy, -⟩ :=
    slots_come_back 1 [.datagram sampleArrival] [] sampleArrival _ hstart
  exact ⟨session, hsession, (hbusy rfl rfl hfull).1⟩

end Sample

end BootyCall.Tftp.Slots
