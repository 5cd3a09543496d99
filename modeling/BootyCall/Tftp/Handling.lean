import BootyCall.Tftp.Listener
import BootyCall.Tftp.WindowInvariant

namespace BootyCall.Tftp.Handling

open BootyCall.Core Path State Wire Request DataLoop WindowInvariant Listener

inductive OpenError
  | notFound
  | permissionDenied
  | other
  deriving DecidableEq

def OpenError.packet : OpenError → Bytes
  | .notFound => makeErrorPacket 1 "File not found"
  | .permissionDenied => makeErrorPacket 2 "Access violation"
  | .other => makeErrorPacket 0 "File open failed"

structure Mark where
  status : HostStatus
  level : String
  message : String
  deriving DecidableEq

def bootingMark (job : Job) : Mark :=
  ⟨.booting, "INFO", "Starting TFTP bootloader transfer: " ++ job.request.filename ++
    " (mapped to " ++ display job.filePath ++ ")"⟩

def failedMark (reason : String) : Mark := ⟨.failed, "ERROR", "TFTP transfer failed: " ++ reason⟩

def completedMark (s : Window) : Mark :=
  ⟨.completed, "INFO",
    "TFTP transfer completed: " ++ toString (s.lastBlock.getD 0) ++ " blocks sent"⟩

inductive Stage
  | bind
  | connect
  | permit
  | opening
  | metadata (file : Bytes)
  | oack (file packet : Bytes) (retries : ℕ)
  | data (file : Bytes) (t : Transfer)
  | ended
  deriving DecidableEq

/-- What the environment answers; each stage uses only what it asks for. -/
structure Answer where
  bindOk : Bool := true
  connectOk : Bool := true
  permit : Bool := true
  opened : Except OpenError Bytes := .ok []
  size : Option ℕ := some 0
  net : Env := {}

structure Outcome where
  stage : Stage
  reply : Option Bytes := none
  mark : Option Mark := none

def awaitOack (file packet : Bytes) (retries : ℕ) (e : Env) : Outcome :=
  if givesUp e.expired { retries } then
    { stage := .ended, mark := failedMark "OACK negotiation timed out" }
  else if e.sendOk then
    match e.recv with
    | .failed =>
      { stage := .ended, reply := packet, mark := failedMark "I/O error during OACK negotiation" }
    | .timedOut => { stage := .oack file packet (retries + 1), reply := packet }
    | .packet bytes =>
      if isErrorPacket (bytes.take ackBufLen) then
        { stage := .ended, reply := packet
          mark := failedMark "client aborted during OACK negotiation" }
      else if parseAckPacket (bytes.take ackBufLen) = some 0 then
        { stage := .data file {}, reply := packet }
      else { stage := .oack file packet (retries + 1), reply := packet }
  else { stage := .ended, mark := failedMark "I/O error during OACK negotiation" }

/-- The status write of each way out of the DATA loop; a failing read has none. -/
def exitMark (s : Window) : Exit → Option Mark
  | .completed => completedMark s
  | .clientError => failedMark "client aborted during data transfer"
  | .gaveUp => failedMark "timed out waiting for data ACK"
  | .sendFailed | .recvFailed => failedMark "I/O error during data transfer"
  | .readFailed => none

def react (request : RrqRequest) (stage : Stage) (a : Answer) : Outcome :=
  match stage with
  | .bind => { stage := if a.bindOk then .connect else .ended }
  | .connect => { stage := if a.connectOk then .permit else .ended }
  | .permit =>
    if a.permit then { stage := .opening }
    else { stage := .ended, reply := makeErrorPacket 0 "Server busy" }
  | .opening =>
    if eqIgnoreAsciiCase request.mode "octet" then
      match a.opened with
      | .error e => { stage := .ended, reply := e.packet }
      | .ok file => { stage := .metadata file }
    else
      { stage := .ended
        reply := makeErrorPacket 4 "Illegal TFTP operation (only octet mode supported)" }
  | .metadata file =>
    match a.size with
    | none => { stage := .ended }
    | some size =>
      let options := oackOptions request size
      if options = [] then { stage := .data file {} }
      else { stage := .oack file (makeOackPacket options) 0 }
  | .oack file packet retries => awaitOack file packet retries a.net
  | .data file t =>
    let t' := DataLoop.step (negotiate request) file t a.net
    match t'.exit with
    | none => { stage := .data file t' }
    | some x => { stage := .ended, mark := exitMark t'.window x }
  | .ended => { stage := .ended }

/-- The handling of one accepted request, with the packets it sent besides DATA and the status
writes it made, oldest first. -/
structure Session where
  job : Job
  stage : Stage
  replies : List Bytes
  marks : List Mark

def start (job : Job) : Session where
  job := job
  stage := .bind
  replies := []
  marks := if job.mac.isSome then [bootingMark job] else []

def step (s : Session) (a : Answer) : Session :=
  let o := react s.job.request s.stage a
  { s with
    stage := o.stage
    replies := s.replies ++ o.reply.toList
    marks := s.marks ++ if s.job.mac.isSome then o.mark.toList else [] }

def run (job : Job) (answers : List Answer) : Session := answers.foldl step (start job)

/-- The ways the code leaves a request without a status write: a refused socket, slot, mode or
file, and a read that fails in the middle of the transfer. -/
def leavesSilently (request : RrqRequest) (stage : Stage) (a : Answer) : Bool :=
  match stage with
  | .bind => !a.bindOk
  | .connect => !a.connectOk
  | .permit => !a.permit
  | .opening => !eqIgnoreAsciiCase request.mode "octet" || a.opened.toOption.isNone
  | .metadata _ => a.size.isNone
  | .data file t =>
    wantsFill (negotiate request) t.window &&
      (nextBlock (negotiate request) file a.net.reads t.window).isNone
  | .oack _ _ _ | .ended => false

def Mark.Terminal (m : Mark) : Prop := m.status = .completed ∨ m.status = .failed

instance (m : Mark) : Decidable m.Terminal := instDecidableOr

def AcksFinal (request : RrqRequest) (stage : Stage) (a : Answer) : Prop :=
  ∃ file t pkt, stage = .data file t ∧ a.net.recv = .packet pkt ∧
    parseAckPacket (pkt.take ackBufLen) = some (wireOf (finalBlock (negotiate request) file)) ∧
    t.window.base ≤ finalBlock (negotiate request) file ∧
    finalBlock (negotiate request) file < t.window.nextToSend

def Stage.Open (request : RrqRequest) : Stage → Prop
  | .data file t => Inv (negotiate request) file t ∧ t.exit = none
  | .ended => False
  | _ => True

inductive Reacts (request : RrqRequest) (silent : Bool) (acked : Prop) (o : Outcome) : Prop
  | goesOn (h : o.stage.Open request) (hm : o.mark = none) (hs : silent = false)
  | marked (m : Mark) (h : o.stage = .ended) (hm : o.mark = some m) (ht : m.Terminal)
      (hc : m.status = .completed → acked) (hs : silent = false)
  | silently (h : o.stage = .ended) (hm : o.mark = none) (hs : silent = true)

theorem awaitOack_reacts (request : RrqRequest) (acked : Prop) (file packet : Bytes)
    (retries : ℕ) (e : Env) : Reacts request false acked (awaitOack file packet retries e) := by
  have hdata : (Stage.data file {}).Open request := ⟨inv_init _ _, rfl⟩
  rw [awaitOack]
  split
  · exact .marked _ rfl rfl (.inr rfl) (by simp [failedMark]) rfl
  · split
    · split
      · exact .marked _ rfl rfl (.inr rfl) (by simp [failedMark]) rfl
      · exact .goesOn trivial rfl rfl
      · split
        · exact .marked _ rfl rfl (.inr rfl) (by simp [failedMark]) rfl
        · split
          · exact .goesOn hdata rfl rfl
          · exact .goesOn trivial rfl rfl
    · exact .marked _ rfl rfl (.inr rfl) (by simp [failedMark]) rfl

theorem receive_exit_ne (recv : Recv) (s : Window) : (receive recv s).2 ≠ some .readFailed := by
  cases recv with
  | failed => simp [receive]
  | timedOut => simp [receive]
  | packet bytes =>
    simp only [receive]
    split
    · simp
    · split
      · rw [advance]
        split
        · simp
        · split <;> simp
      · simp

theorem readFailed_iff (n : Negotiated) (file : Bytes) {t : Transfer} (hrun : t.exit = none)
    (e : Env) :
    (DataLoop.step n file t e).exit = some .readFailed ↔
      (wantsFill n t.window && (nextBlock n file e.reads t.window).isNone) = true := by
  simp only [DataLoop.step, hrun, Option.isSome_none, Bool.false_eq_true, if_false]
  split
  · next hw =>
    rw [fill]
    split
    · next hn => simp [hw, hn]
    · next hn =>
      dsimp only
      split <;> simp [hn]
  · next hw =>
    have hno : (await e t).exit ≠ some .readFailed := by
      rw [await]
      split
      · simp
      · exact receive_exit_ne e.recv t.window
    simp [hw, hno]

theorem exitMark_terminal {s : Window} {x : Exit} (hx : x ≠ .readFailed) :
    ∃ m, exitMark s x = some m ∧ m.Terminal ∧ (m.status = .completed → x = .completed) := by
  cases x with
  | completed => exact ⟨_, rfl, .inl rfl, fun _ ↦ rfl⟩
  | readFailed => exact absurd rfl hx
  | _ => exact ⟨_, rfl, .inr rfl, by simp [failedMark]⟩

theorem data_reacts {request : RrqRequest} {file : Bytes} {t : Transfer}
    (h : (Stage.data file t).Open request) (a : Answer) :
    Reacts request (leavesSilently request (.data file t) a)
      (AcksFinal request (.data file t) a) (react request (.data file t) a) := by
  obtain ⟨hinv, hrun⟩ := h
  have hread := readFailed_iff (negotiate request) file hrun a.net
  cases hx : (DataLoop.step (negotiate request) file t a.net).exit with
  | none =>
    rw [hx] at hread
    have hopen : (react request (.data file t) a).stage =
        .data file (DataLoop.step (negotiate request) file t a.net) := by simp [react, hx]
    refine .goesOn ?_ (by simp [react, hx]) ?_
    · rw [hopen]
      exact ⟨inv_step hinv _, hx⟩
    · rw [← Bool.not_eq_true]
      exact fun hs ↦ by simpa using hread.mpr hs
  | some x =>
    rw [hx] at hread
    by_cases hr : x = .readFailed
    · subst hr
      exact .silently (by simp [react, hx]) (by simp [react, hx, exitMark]) (hread.mp rfl)
    · obtain ⟨m, hm, ht, hc⟩ := exitMark_terminal
        (s := (DataLoop.step (negotiate request) file t a.net).window) hr
      refine .marked m (by simp [react, hx]) (by simp [react, hx, hm]) ht (fun hdone ↦ ?_) ?_
      · rw [hc hdone] at hx
        obtain ⟨pkt, hpkt, -, hack, hlo, hhi⟩ := completed_step hinv hrun a.net hx
        exact ⟨file, t, pkt, rfl, hpkt, hack, hlo, hhi⟩
      · rw [← Bool.not_eq_true]
        exact fun hs ↦ hr (Option.some.inj (hread.mpr hs))

theorem reacts_of_stage {request : RrqRequest} {acked : Prop} {ok : Bool} {stage : Stage}
    {reply : Option Bytes} (h : stage.Open request) :
    Reacts request (!ok) acked { stage := if ok then stage else .ended, reply } := by
  cases ok with
  | true => exact .goesOn h rfl rfl
  | false => exact .silently rfl rfl rfl

theorem react_reacts {request : RrqRequest} {stage : Stage} (h : stage.Open request)
    (a : Answer) :
    Reacts request (leavesSilently request stage a) (AcksFinal request stage a)
      (react request stage a) := by
  cases stage with
  | bind => exact reacts_of_stage trivial
  | connect => exact reacts_of_stage trivial
  | permit =>
    simp only [react, leavesSilently]
    cases a.permit with
    | true => exact .goesOn trivial rfl rfl
    | false => exact .silently rfl rfl rfl
  | opening =>
    simp only [react, leavesSilently]
    cases eqIgnoreAsciiCase request.mode "octet" with
    | false => exact .silently rfl rfl rfl
    | true =>
      cases a.opened with
      | error e => exact .silently rfl rfl rfl
      | ok file => exact .goesOn trivial rfl rfl
  | metadata file =>
    simp only [react, leavesSilently]
    cases a.size with
    | none => exact .silently rfl rfl rfl
    | some size =>
      dsimp only
      split
      · exact .goesOn ⟨inv_init _ _, rfl⟩ rfl rfl
      · exact .goesOn trivial rfl rfl
  | oack file packet retries => exact awaitOack_reacts request _ file packet retries a.net
  | data file t => exact data_reacts h a
  | ended => exact h.elim

variable {job : Job}

theorem run_concat (answers : List Answer) (a : Answer) :
    run job (answers ++ [a]) = step (run job answers) a := by
  rw [run, run, List.foldl_append]
  rfl

theorem run_job (answers : List Answer) : (run job answers).job = job := by
  induction answers using List.reverseRecOn with
  | nil => rfl
  | append_singleton answers a ih =>
    rw [run_concat]
    exact ih

def SomeStep (job : Job) (answers : List Answer) (p : Stage → Answer → Prop) : Prop :=
  ∃ before a after, answers = before ++ a :: after ∧ p (run job before).stage a

theorem someStep_concat (answers : List Answer) (a : Answer) (p : Stage → Answer → Prop) :
    SomeStep job (answers ++ [a]) p ↔
      SomeStep job answers p ∨ p (run job answers).stage a := by
  constructor
  · rintro ⟨before, b, after, heq, hp⟩
    rcases List.eq_nil_or_concat after with rfl | ⟨after, c, rfl⟩
    · obtain ⟨rfl, hb⟩ := List.append_inj' heq rfl
      obtain rfl := (List.cons.inj hb).1
      exact .inr hp
    · rw [List.concat_eq_append, ← List.cons_append, ← List.append_assoc] at heq
      exact .inl ⟨before, b, after, (List.append_inj' heq rfl).1, hp⟩
  · rintro (⟨before, b, after, rfl, hp⟩ | hp)
    · exact ⟨before, b, after ++ [a], by simp, hp⟩
    · exact ⟨answers, a, [], rfl, hp⟩

inductive Progress (job : Job) (s : Session) (silent acked : Prop) : Prop
  | going (h : s.stage.Open job.request) (hm : s.marks = [bootingMark job]) (hs : ¬silent)
  | marked (m : Mark) (h : s.stage = .ended) (hm : s.marks = [bootingMark job, m])
      (ht : m.Terminal) (hc : m.status = .completed → acked) (hs : ¬silent)
  | silently (h : s.stage = .ended) (hm : s.marks = [bootingMark job]) (hs : silent)

theorem run_progress (hmac : job.mac.isSome = true) (answers : List Answer) :
    Progress job (run job answers)
      (SomeStep job answers fun stage a ↦ leavesSilently job.request stage a = true)
      (SomeStep job answers (AcksFinal job.request)) := by
  induction answers using List.reverseRecOn with
  | nil =>
    refine .going trivial (by simp [run, start, hmac]) ?_
    rintro ⟨before, a, after, heq, -⟩
    simp at heq
  | append_singleton answers a ih =>
    simp only [someStep_concat, run_concat]
    have hjob : (run job answers).job = job := run_job answers
    generalize run job answers = s at ih hjob ⊢
    subst hjob
    have hmarks : (step s a).marks =
        s.marks ++ (react s.job.request s.stage a).mark.toList := by simp [step, hmac]
    cases ih with
    | going h hm hs =>
      rw [hm] at hmarks
      cases react_reacts h a with
      | goesOn ho hn hq => exact .going ho (by simpa [hn] using hmarks) (by simp [hs, hq])
      | marked m ho hn ht hc hq =>
        exact .marked m ho (by simpa [hn] using hmarks) ht (fun hd ↦ .inr (hc hd))
          (by simp [hs, hq])
      | silently ho hn hq => exact .silently ho (by simpa [hn] using hmarks) (.inr hq)
    | marked m h hm ht hc hs =>
      rw [hm, h] at hmarks
      exact .marked m (by simp [step, h, react]) (by simpa [react] using hmarks) ht
        (fun hd ↦ .inl (hc hd)) (fun hor ↦ hor.elim hs fun hq ↦ by rw [h] at hq; cases hq)
    | silently h hm hs =>
      rw [hm, h] at hmarks
      exact .silently (by simp [step, h, react]) (by simpa [react] using hmarks) (.inl hs)

/-- A request of a known host that has been left has written a final status exactly when no
step left it silently, and that status is `Completed` only when the final block was
acknowledged. -/
theorem ended_marked (job : Job) (hmac : job.mac.isSome = true) (answers : List Answer)
    (hend : (run job answers).stage = .ended) :
    ((∃ m, (run job answers).marks.getLast? = some m ∧ m.Terminal) ↔
      ∀ before a after, answers = before ++ a :: after →
        leavesSilently job.request (run job before).stage a = false) ∧
    ∀ m, (run job answers).marks.getLast? = some m → m.status = .completed →
      ∃ before a after, answers = before ++ a :: after ∧
        AcksFinal job.request (run job before).stage a := by
  have hall : (∀ before a after, answers = before ++ a :: after →
      leavesSilently job.request (run job before).stage a = false) ↔
      ¬SomeStep job answers fun stage a ↦ leavesSilently job.request stage a = true := by
    simp [SomeStep]
  rw [hall]
  cases run_progress hmac answers with
  | going h hm hs =>
    rw [hend] at h
    exact h.elim
  | marked m h hm ht hc hs =>
    rw [hm]
    refine ⟨⟨fun _ ↦ hs, fun _ ↦ ⟨m, rfl, ht⟩⟩, fun m' hm' hd ↦ ?_⟩
    obtain rfl := Option.some.inj hm'
    exact hc hd
  | silently h hm hs =>
    rw [hm]
    refine ⟨⟨fun ⟨m, hm', ht⟩ ↦ ?_, fun hno ↦ absurd hs hno⟩, fun m hm' hd ↦ ?_⟩
    · obtain rfl := Option.some.inj hm'
      rcases ht with ht | ht <;> simp [bootingMark] at ht
    · obtain rfl := Option.some.inj hm'
      simp [bootingMark] at hd

def sampleJob (mode : String) : Job where
  request := { filename := "ipxe.efi", mode }
  filePath := .ofString "/srv/tftp/ipxe.efi"
  mac := some "aa:bb:cc:dd:ee:ff"

def sampleAnswers : List Answer :=
  [{}, {}, {}, {}, {}, {}, { net := { recv := .packet (makeAckPacket 1) } }]

theorem ended_marked_sample :
    (∃ m, (run (sampleJob "octet") sampleAnswers).marks.getLast? = some m ∧ m.Terminal) ↔
      ∀ before a after, sampleAnswers = before ++ a :: after →
        leavesSilently (sampleJob "octet").request (run (sampleJob "octet") before).stage a =
          false :=
  (ended_marked (sampleJob "octet") (by decide) sampleAnswers (by decide)).1

/-- A known host that asks for a transfer mode other than octet stays in `Booting`. -/
theorem netascii_stays_booting :
    (run (sampleJob "netascii") [{}, {}, {}, {}]).stage = .ended ∧
      (run (sampleJob "netascii") [{}, {}, {}, {}]).marks.getLast?.map Mark.status =
        some .booting := by
  decide

end BootyCall.Tftp.Handling
