import BootyCall.Tftp.Negotiation

namespace BootyCall.Tftp.Announcement

open Lib.Blocks Wire Request DataLoop WindowInvariant Listener Handling ReplyCodec RequestCodec
  Negotiation

section FirstBlock

variable (n : Negotiated) (file : Bytes)

/-- The loop has not begun, it was left before anything was sent, or block 1 went out first. -/
inductive Begun : Transfer → Prop
  | waiting : Begun {}
  | left {t : Transfer} (x : Exit) (hx : t.exit = some x) (hsent : t.sent = []) : Begun t
  | first {t : Transfer} (rest : List (ℕ × Bytes))
      (hsent : t.sent = (1, dataPacket n file 1) :: rest) : Begun t

variable {n file}

theorem begun_step (e : Env) : Begun n file (DataLoop.step n file {} e) := by
  have hinv : Inv n file {} := inv_init n file
  have hwants : wantsFill n ({} : Window) = true := by
    have hpos := n.windowsize_ge
    rw [wantsFill_iff (t := {}) hinv, finalBlock, lastIndex]
    exact ⟨by dsimp only; omega, Nat.le_add_left _ _⟩
  have hfill : DataLoop.step n file {} e = fill n file e {} := by simp [DataLoop.step, hwants]
  rw [hfill, fill]
  split
  · exact .left .readFailed rfl rfl
  · next w d hnext =>
    obtain ⟨rfl, hwindow⟩ := nextBlock_spec hinv hwants e.reads hnext
    have hone : w.nextToSend = 1 := by
      rcases hwindow with ⟨-, rfl⟩ | ⟨-, rfl⟩ <;> rfl
    dsimp only
    split
    · apply Begun.first []
      rw [hone]
      rfl
    · exact .left .sendFailed rfl rfl

theorem begun_run (es : List Env) : Begun n file (WindowInvariant.run n file es) := by
  induction es using List.reverseRecOn with
  | nil => exact .waiting
  | append_singleton es e ih =>
    have hinv : Inv n file (WindowInvariant.run n file es) := inv_run es
    rw [dataLoop_concat]
    generalize WindowInvariant.run n file es = t at ih hinv ⊢
    cases ih with
    | waiting => exact begun_step e
    | left x hx hsent =>
      apply Begun.left x
      · rw [DataLoop.step, hx]
        exact hx
      · rw [DataLoop.step, hx]
        exact hsent
    | first rest hsent =>
      obtain ⟨new, hnew, -⟩ := (grows_step hinv e).sent
      rw [hsent] at hnew
      exact .first (rest ++ new) hnew

end FirstBlock

def announced (name : String) (options : List (String × String)) : Option ℕ :=
  (options.lookup name).bind (parseUnsigned 64)

def Recognised (packet : Bytes) : Prop :=
  (requestedBlksize packet).isSome ∨ (requestedTimeout packet).isSome ∨
    Requested packet "tsize" ∨ (requestedWindowsize packet).isSome

structure Announces (packet : Bytes) (size : ℕ) (options : List (String × String)) : Prop where
  recognised : options ≠ [] ↔ Recognised packet
  blksize : announced "blksize" options =
    (requestedBlksize packet).map (clamp defaultBlksize maxBlksize)
  timeout : announced "timeout" options =
    (requestedTimeout packet).map (clamp minTimeoutSecs maxTimeoutSecs)
  tsize : ∀ v, announced "tsize" options = some v ↔ Requested packet "tsize" ∧ v = size
  windowsize : announced "windowsize" options =
    (requestedWindowsize packet).map (clamp 1 maxWindowsize)

/-- What the transfer of a file does, in the terms of the announced values. -/
structure Kept (blksize windowsize : ℕ) (tsize : Option ℕ) (file : Bytes) (t : Transfer) :
    Prop where
  last : ∀ lb, t.window.lastBlock = some lb → lb = lastIndex blksize file
  payload : ∀ p ∈ t.sent, 1 ≤ p.1 ∧ p.1 ≤ lastIndex blksize file ∧
    parseDataPacket p.2 = some (wireOf p.1, block blksize file p.1)
  full : ∀ k, 1 ≤ k → k < lastIndex blksize file → (block blksize file k).length = blksize
  short : (block blksize file (lastIndex blksize file)).length < blksize
  window : ∀ p ∈ t.sent, p.1 ≤ t.window.base - 1 + windowsize
  total : ∀ v, tsize = some v →
    v = ((List.range' 1 (lastIndex blksize file)).map fun k ↦ (block blksize file k).length).sum
  first : t.sent = [] ∨ ∃ p rest, t.sent = p :: rest ∧ p.1 = 1

section Announced

variable {packet : Bytes} {request : RrqRequest} {size : ℕ}

theorem lookup_oackOptions (request : RrqRequest) (size : ℕ) :
    (oackOptions request size).lookup "blksize" =
        request.blksize.map (fun b ↦ toString (clamp defaultBlksize maxBlksize b)) ∧
      (oackOptions request size).lookup "timeout" =
        request.timeout.map (fun t ↦ toString (clamp minTimeoutSecs maxTimeoutSecs t)) ∧
      (oackOptions request size).lookup "tsize" =
        (if request.tsizeRequested then some (toString size) else none) ∧
      (oackOptions request size).lookup "windowsize" =
        request.windowsize.map (fun w ↦ toString (clamp 1 maxWindowsize w)) := by
  obtain ⟨filename, mode, blksize, timeout, tsizeRequested, windowsize⟩ := request
  cases blksize <;> cases timeout <;> cases tsizeRequested <;> cases windowsize <;>
    exact ⟨rfl, rfl, rfl, rfl⟩

theorem oackOptions_ne_nil : oackOptions request size ≠ [] ↔
    request.blksize.isSome ∨ request.timeout.isSome ∨ request.tsizeRequested = true ∨
      request.windowsize.isSome := by
  obtain ⟨filename, mode, blksize, timeout, tsizeRequested, windowsize⟩ := request
  cases blksize <;> cases timeout <;> cases tsizeRequested <;> cases windowsize <;>
    simp [oackOptions]

theorem announced_map {name : String} {requested : Option ℕ} {lo hi : ℕ} (hlo : lo ≤ hi)
    (hhi : hi < 2 ^ 64) {options : List (String × String)}
    (h : options.lookup name = requested.map fun v ↦ toString (clamp lo hi v)) :
    announced name options = requested.map (clamp lo hi) := by
  rw [announced, h]
  cases requested with
  | none => rfl
  | some v => exact parseUnsigned_toString ((clamp_le hlo v).trans_lt hhi)

theorem announces_oackOptions (h : parseRrq packet = some request) (hsize : size < 2 ^ 64) :
    Announces packet size (oackOptions request size) := by
  obtain ⟨hblksize, htimeout, htsize, hwindow⟩ := parseRrq_fields h
  obtain ⟨hlb, hlt, hls, hlw⟩ := lookup_oackOptions request size
  rw [hblksize] at hlb
  rw [htimeout] at hlt
  rw [hwindow] at hlw
  refine
    { recognised := by
        rw [oackOptions_ne_nil, hblksize, htimeout, hwindow, htsize, Recognised]
      blksize := announced_map (by decide) (by decide) hlb
      timeout := announced_map (by decide) (by decide) hlt
      tsize := ?_
      windowsize := announced_map (by decide) (by decide) hlw }
  intro v
  rw [announced, hls, ← htsize]
  split
  · next hyes =>
    rw [Option.bind_some, parseUnsigned_toString hsize]
    simp [hyes, eq_comm]
  · next hno => simp [hno]

theorem announced_negotiated (h : parseRrq packet = some request)
    {options : List (String × String)} (hann : Announces packet size options) :
    (announced "blksize" options).getD 512 = (negotiate request).blksize ∧
      (announced "windowsize" options).getD 1 = (negotiate request).windowsize := by
  obtain ⟨hblksize, -, -, hwindow⟩ := parseRrq_fields h
  rw [hann.blksize, hann.windowsize, ← hblksize, ← hwindow]
  exact ⟨rfl, rfl⟩

theorem sum_payloads {b : ℕ} (hb : 0 < b) (file : Bytes) :
    ((List.range' 1 (lastIndex b file)).map fun k ↦ (block b file k).length).sum = file.length := by
  have hall := congrArg List.length (flatten_all hb file)
  rw [List.length_flatten, List.map_map] at hall
  exact hall

theorem kept_run (n : Negotiated) (file : Bytes) (es : List Env) {tsize : Option ℕ}
    (htsize : ∀ v, tsize = some v → v = file.length) :
    Kept n.blksize n.windowsize tsize file (WindowInvariant.run n file es) := by
  have h : Inv n file (WindowInvariant.run n file es) := inv_run es
  have hpos := h.base_pos
  have hwindow := h.read_lt_window
  refine
    { last := ?_
      payload := ?_
      full := ?_
      short := (block_length_lt_iff n.blksize_pos file (Nat.le_add_left _ _)).mpr le_rfl
      window := ?_
      total := ?_
      first := ?_ }
  · intro lb hlb
    rw [h.last] at hlb
    split at hlb
    · exact (Option.some.inj hlb).symm
    · cases hlb
  · intro p hp
    obtain ⟨hone, hread, hbytes⟩ := h.sent p hp
    refine ⟨hone, hread.trans h.read_le, ?_⟩
    rw [hbytes, dataPacket, parseDataPacket_makeDataPacket]
    rfl
  · intro k hk hlt
    exact block_full n.blksize_pos file hk hlt
  · intro p hp
    obtain ⟨-, hread, -⟩ := h.sent p hp
    omega
  · intro v hv
    rw [htsize v hv, sum_payloads n.blksize_pos]
  · have hbegun : Begun n file (WindowInvariant.run n file es) := begun_run es
    generalize WindowInvariant.run n file es = t at hbegun
    cases hbegun with
    | waiting => exact .inl rfl
    | left x hx hsent => exact .inl hsent
    | first rest hsent => exact .inr ⟨_, rest, hsent, rfl⟩

/-- The size that the file system reports is a 64-bit number, and the length of the file. -/
def sizeReported (stage : Stage) (a : Answer) : Bool :=
  match stage with
  | .metadata file => a.size.all fun size ↦ decide (size < 2 ^ 64) && decide (size = file.length)
  | _ => true

def sizesReported (s : Session) : List Answer → Bool
  | [] => true
  | a :: rest => sizeReported s.stage a && sizesReported (Handling.step s a) rest

theorem sizesReported_split (s : Session) (before after : List Answer) (a : Answer)
    (h : sizesReported s (before ++ a :: after) = true) :
    sizeReported (before.foldl Handling.step s).stage a = true := by
  induction before generalizing s with
  | nil =>
    rw [List.nil_append, sizesReported, Bool.and_eq_true] at h
    exact h.1
  | cons b before ih =>
    rw [List.cons_append, sizesReported, Bool.and_eq_true] at h
    exact ih _ h.2

theorem reported_size {job : Job} {answers : List Answer}
    (h : sizesReported (start job) answers = true) (before : List Answer) (a : Answer)
    (after : List Answer) (file : Bytes) (size : ℕ) (heq : answers = before ++ a :: after)
    (hstage : (Handling.run job before).stage = .metadata file) (hsize : a.size = some size) :
    size < 2 ^ 64 ∧ size = file.length := by
  subst heq
  have hreported := sizesReported_split _ before after a h
  rw [← Handling.run, hstage, sizeReported, hsize] at hreported
  simpa using hreported

/-- In every run that handles an accepted request: every OACK decodes to the announced options,
and it is sent exactly when an option was recognised. From the first DATA packet on, block sizes,
window and total length are the announced ones. -/
theorem announcement_kept (packet : Bytes) (job : Job) (h : parseRrq packet = some job.request)
    (answers : List Answer) (hsize : sizesReported (start job) answers = true) :
    (∀ reply ∈ (Handling.run job answers).replies, opcode reply = some opOack →
      ∃ options size, parseOackPacket reply = some options ∧ Recognised packet ∧
        Announces packet size options) ∧
    ∀ file t, (Handling.run job answers).stage = .data file t →
      ∃ options, Announces packet file.length options ∧
        ((Handling.run job answers).replies = [] ↔ ¬Recognised packet) ∧
        (∀ reply ∈ (Handling.run job answers).replies, parseOackPacket reply = some options) ∧
        Kept ((announced "blksize" options).getD 512) ((announced "windowsize" options).getD 1)
          (announced "tsize" options) file t := by
  have htalk := talk_run _ job answers (reported_size hsize)
  generalize Handling.run job answers = s at htalk
  obtain ⟨_, stage, replies, _⟩ := s
  have hoack {size : ℕ} (hlt : size < 2 ^ 64) (hne : oackOptions job.request size ≠ []) :
      ∃ options size', parseOackPacket (makeOackPacket (oackOptions job.request size)) =
        some options ∧ Recognised packet ∧ Announces packet size' options := by
    have hann := announces_oackOptions h hlt
    exact ⟨_, size, parseOackPacket_oackOptions _ _, hann.recognised.mp hne, hann⟩
  refine ⟨?_, ?_⟩
  · intro reply hreply hop
    cases htalk with
    | bind | connect | permit | opening | metadata => cases hreply
    | oack retries hsize hne hall =>
      rw [hall reply hreply]
      exact hoack hsize.1 hne
    | data es hrun hsize hnone hall =>
      rw [hall reply hreply]
      apply hoack hsize.1
      intro hempty
      obtain rfl := hnone.mp hempty
      cases hreply
    | ended hall =>
      rcases hall reply hreply with herror | ⟨file, size, hsize, hne, rfl⟩
      · rw [hop] at herror
        cases herror
      · exact hoack hsize.1 hne
  · rintro file t rfl
    cases htalk with
    | data es hrun hsize hnone hall =>
      obtain ⟨hlt, rfl⟩ := hsize
      have hann := announces_oackOptions h hlt
      refine ⟨_, hann, ?_, ?_, ?_⟩
      · rw [← hann.recognised, not_not]
        exact hnone.symm
      · intro reply hreply
        rw [hall reply hreply]
        exact parseOackPacket_oackOptions _ _
      · obtain ⟨hblksize, hwindow⟩ := announced_negotiated h hann
        rw [hblksize, hwindow]
        exact kept_run _ _ _ fun v hv ↦ ((hann.tsize v).mp hv).2

def sampleRequest : Bytes :=
  makeRrqPacket "a" "octet" [("blksize", "1024"), ("tsize", "0"), ("windowsize", "4")]

def sampleJob : Job where
  request :=
    { filename := "a"
      mode := "octet"
      blksize := some 1024
      tsizeRequested := true
      windowsize := some 4 }
  filePath := .ofString "/srv/tftp/a"
  mac := none

def sampleAnswers : List Answer :=
  [{}, {}, {}, { opened := .ok [1, 2, 3] }, { size := some 3 },
    { net := { recv := .packet (makeAckPacket 0) } }, {}]

theorem announcement_kept_sample :
    ∃ t options, (Handling.run sampleJob sampleAnswers).stage = .data [1, 2, 3] t ∧
      Announces sampleRequest 3 options ∧
      Kept ((announced "blksize" options).getD 512) ((announced "windowsize" options).getD 1)
        (announced "tsize" options) [1, 2, 3] t := by
  have hstage : (Handling.run sampleJob sampleAnswers).stage = .data [1, 2, 3]
      (WindowInvariant.run (negotiate sampleJob.request) [1, 2, 3] [{}]) := by
    decide +kernel
  obtain ⟨options, hann, -, -, hkept⟩ := (announcement_kept sampleRequest sampleJob
    (by decide +kernel) sampleAnswers (by decide +kernel)).2 _ _ hstage
  exact ⟨_, options, hstage, hann, hkept⟩

end Announced

end BootyCall.Tftp.Announcement
