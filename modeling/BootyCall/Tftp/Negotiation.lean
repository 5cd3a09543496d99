import BootyCall.Tftp.Handling
import BootyCall.Tftp.RequestCodec

namespace BootyCall.Tftp.Negotiation

open Wire Request DataLoop WindowInvariant Listener Handling ReplyCodec RequestCodec

section Requested

def optionPairs : List Bytes → Option (List (String × String))
  | k :: v :: rest => do
    let name ← fromUtf8 k
    let val ← fromUtf8 v
    let more ← optionPairs rest
    return (name, val) :: more
  | _ => some []

/-- The names and values that follow the file name and the mode in a request packet. -/
def requestedOptions (packet : Bytes) : List (String × String) :=
  (optionPairs ((splitNul (packet.drop 2) []).drop 2)).getD []

def Requested (packet : Bytes) (name : String) : Prop :=
  ∃ o ∈ requestedOptions packet, toLowercase o.1 = name

def requestedBlksize (packet : Bytes) : Option ℕ :=
  lastValue "blksize" 64 (requestedOptions packet)

def requestedTimeout (packet : Bytes) : Option ℕ :=
  lastValue "timeout" 64 (requestedOptions packet)

def requestedWindowsize (packet : Bytes) : Option ℕ :=
  lastValue "windowsize" 16 (requestedOptions packet)

variable {packet : Bytes} {req : RrqRequest}

theorem parseOptions_eq (parts : List Bytes) (req : RrqRequest) :
    parseOptions parts req = (optionPairs parts).map (applyAll req) := by
  induction parts using optionPairs.induct generalizing req with
  | case1 k v rest ih =>
    rw [parseOptions, optionPairs]
    cases fromUtf8 k with
    | none => rfl
    | some name =>
      cases fromUtf8 v with
      | none => rfl
      | some val =>
        refine (ih _).trans ?_
        cases optionPairs rest <;> rfl
  | case2 parts h =>
    rw [parseOptions, optionPairs]
    · rfl
    · exact h
    · exact h

theorem parseRrq_some (h : parseRrq packet = some req) :
    req = decoded req.filename req.mode (requestedOptions packet) := by
  rw [parseRrq] at h
  split at h
  · cases h
  · split at h
    · next f m rest hsplit =>
      obtain ⟨filename, -, h⟩ := Option.bind_eq_some_iff.mp h
      obtain ⟨mode, -, h⟩ := Option.bind_eq_some_iff.mp h
      rw [parseOptions_eq] at h
      obtain ⟨options, hoptions, h⟩ := Option.map_eq_some_iff.mp h
      have hrequested : requestedOptions packet = options := by
        rw [requestedOptions, hsplit]
        exact congrArg (Option.getD · []) hoptions
      rw [applyAll_decoded] at h
      rw [hrequested, ← h]
      rfl
    · cases h

theorem parseRrq_fields (h : parseRrq packet = some req) :
    req.blksize = requestedBlksize packet ∧ req.timeout = requestedTimeout packet ∧
      (req.tsizeRequested = true ↔ Requested packet "tsize") ∧
      req.windowsize = requestedWindowsize packet := by
  have hreq := parseRrq_some h
  refine ⟨congrArg RrqRequest.blksize hreq, congrArg RrqRequest.timeout hreq, ?_,
    congrArg RrqRequest.windowsize hreq⟩
  rw [congrArg RrqRequest.tsizeRequested hreq]
  simp [decoded, Requested]

theorem requested_of_lastValue {name : String} {bits v : ℕ}
    (h : lastValue name bits (requestedOptions packet) = some v) : Requested packet name := by
  obtain ⟨o, ho, hv⟩ := List.exists_of_findSome?_eq_some h
  refine ⟨o, List.mem_reverse.mp ho, ?_⟩
  by_contra hne
  rw [if_neg hne] at hv
  cases hv

end Requested

section Conversation

/-- What the code has sent besides DATA when it reaches a stage. The reported size is one that the
environment may report for the file. -/
inductive Talk (request : RrqRequest) (reports : Bytes → ℕ → Prop) : Stage → List Bytes → Prop
  | bind : Talk request reports .bind []
  | connect : Talk request reports .connect []
  | permit : Talk request reports .permit []
  | opening : Talk request reports .opening []
  | metadata (file : Bytes) : Talk request reports (.metadata file) []
  | oack {file : Bytes} {size : ℕ} (retries : ℕ) {replies : List Bytes}
      (hsize : reports file size) (hne : oackOptions request size ≠ [])
      (hall : ∀ reply ∈ replies, reply = makeOackPacket (oackOptions request size)) :
      Talk request reports (.oack file (makeOackPacket (oackOptions request size)) retries) replies
  | data {file : Bytes} {size : ℕ} (es : List Env) {replies : List Bytes}
      (hrun : (WindowInvariant.run (negotiate request) file es).exit = none)
      (hsize : reports file size) (hnone : oackOptions request size = [] ↔ replies = [])
      (hall : ∀ reply ∈ replies, reply = makeOackPacket (oackOptions request size)) :
      Talk request reports (.data file (WindowInvariant.run (negotiate request) file es)) replies
  | ended {replies : List Bytes}
      (hall : ∀ reply ∈ replies, opcode reply = some opError ∨ ∃ file size, reports file size ∧
        oackOptions request size ≠ [] ∧ reply = makeOackPacket (oackOptions request size)) :
      Talk request reports .ended replies

variable {request : RrqRequest} {reports : Bytes → ℕ → Prop} {replies : List Bytes}

theorem opcode_makeErrorPacket (code : UInt16) (msg : String) :
    opcode (makeErrorPacket code msg) = some opError :=
  (Packet.error code msg).opcode_encode

theorem talk_error (code : UInt16) (msg : String) :
    Talk request reports .ended [makeErrorPacket code msg] := by
  apply Talk.ended
  intro reply hreply
  rw [List.mem_singleton.mp hreply]
  exact .inl (opcode_makeErrorPacket code msg)

theorem talk_silent : Talk request reports .ended [] := .ended (by simp)

theorem talk_awaitOack {file : Bytes} {size : ℕ} (retries : ℕ) (e : Env)
    (hsize : reports file size) (hne : oackOptions request size ≠ [])
    (hall : ∀ reply ∈ replies, reply = makeOackPacket (oackOptions request size)) :
    let o := awaitOack file (makeOackPacket (oackOptions request size)) retries e
    Talk request reports o.stage (replies ++ o.reply.toList) := by
  have hmore : ∀ reply ∈ replies ++ [makeOackPacket (oackOptions request size)],
      reply = makeOackPacket (oackOptions request size) := by
    intro reply hreply
    rcases List.mem_append.mp hreply with hreply | hreply
    · exact hall reply hreply
    · exact List.mem_singleton.mp hreply
  have hend {replies : List Bytes}
      (h : ∀ reply ∈ replies, reply = makeOackPacket (oackOptions request size)) :
      Talk request reports .ended replies :=
    .ended fun reply hreply ↦ .inr ⟨file, size, hsize, hne, h reply hreply⟩
  dsimp only
  rw [awaitOack]
  split
  · rw [Option.toList_none, List.append_nil]
    exact hend hall
  · split
    · split
      · exact hend hmore
      · exact .oack _ hsize hne hmore
      · split
        · exact hend hmore
        · split
          · exact .data [] rfl hsize (by simp [hne]) hmore
          · exact .oack _ hsize hne hmore
    · rw [Option.toList_none, List.append_nil]
      exact hend hall

theorem dataLoop_concat (n : Negotiated) (file : Bytes) (es : List Env) (e : Env) :
    WindowInvariant.run n file (es ++ [e]) =
      DataLoop.step n file (WindowInvariant.run n file es) e := by
  rw [WindowInvariant.run, WindowInvariant.run, List.foldl_append]
  rfl

theorem talk_data {file : Bytes} {size : ℕ} (es : List Env) (a : Answer)
    (hsize : reports file size) (hnone : oackOptions request size = [] ↔ replies = [])
    (hall : ∀ reply ∈ replies, reply = makeOackPacket (oackOptions request size)) :
    let o := react request (.data file (WindowInvariant.run (negotiate request) file es)) a
    Talk request reports o.stage (replies ++ o.reply.toList) := by
  dsimp only
  rw [react, ← dataLoop_concat]
  split
  · next hrun =>
    rw [Option.toList_none, List.append_nil]
    exact .data _ hrun hsize hnone hall
  · rw [Option.toList_none, List.append_nil]
    apply Talk.ended
    intro reply hreply
    refine .inr ⟨file, size, hsize, ?_, hall reply hreply⟩
    intro hempty
    rw [hnone.mp hempty] at hreply
    cases hreply

theorem talk_react {stage : Stage} (h : Talk request reports stage replies) (a : Answer)
    (hreports : ∀ file size, stage = .metadata file → a.size = some size → reports file size) :
    Talk request reports (react request stage a).stage
      (replies ++ (react request stage a).reply.toList) := by
  cases h with
  | bind =>
    rw [react]
    cases a.bindOk with
    | true => exact .connect
    | false => exact talk_silent
  | connect =>
    rw [react]
    cases a.connectOk with
    | true => exact .permit
    | false => exact talk_silent
  | permit =>
    rw [react]
    cases a.permit with
    | true => exact .opening
    | false => exact talk_error _ _
  | opening =>
    rw [react]
    split
    · split
      · next e _ => cases e <;> exact talk_error _ _
      · exact .metadata _
    · exact talk_error _ _
  | metadata file =>
    rw [react]
    split
    · exact talk_silent
    · next size hsize =>
      dsimp only
      split
      · next hnone =>
        exact .data [] rfl (hreports file size rfl hsize) (by simp [hnone]) (by simp)
      · next hne => exact .oack 0 (hreports file size rfl hsize) hne (by simp)
  | oack retries hsize hne hall => exact talk_awaitOack retries a.net hsize hne hall
  | data es hrun hsize hnone hall => exact talk_data es a hsize hnone hall
  | ended hall =>
    rw [react, Option.toList_none, List.append_nil]
    exact .ended hall

theorem talk_run (reports : Bytes → ℕ → Prop) (job : Job) (answers : List Answer)
    (hreports : ∀ before a after file size, answers = before ++ a :: after →
      (Handling.run job before).stage = .metadata file → a.size = some size →
      reports file size) :
    Talk job.request reports (Handling.run job answers).stage
      (Handling.run job answers).replies := by
  induction answers using List.reverseRecOn with
  | nil => exact .bind
  | append_singleton answers a ih =>
    have hbefore := ih fun before b after file size heq ↦
      hreports before b (after ++ [a]) file size (by simp [heq])
    have hstep := talk_react hbefore a fun file size ↦ hreports answers a [] file size rfl
    have hjob : (Handling.run job answers).job = job := run_job answers
    rw [Handling.run_concat, Handling.step, hjob]
    exact hstep

end Conversation

section Decimal

theorem toString_toList (n : ℕ) : (toString n).toList = Nat.toDigits 10 n := by
  rw [Nat.toString_eq_ofList_toDigits, String.toList_ofList]

theorem digit_of_mem {n : ℕ} {c : Char} (h : c ∈ Nat.toDigits 10 n) : c.isDigit = true :=
  Nat.isDigit_of_mem_toDigits (by decide) le_rfl h

theorem parseUnsigned_toString {bits n : ℕ} (h : n < 2 ^ bits) :
    parseUnsigned bits (toString n) = some n := by
  have hne : ¬(Nat.toDigits 10 n = [] ∨ (Nat.toDigits 10 n).all Char.isDigit = false) := by
    rw [not_or, Bool.not_eq_false, List.all_eq_true]
    exact ⟨Nat.toDigits_ne_nil, fun c hc ↦ digit_of_mem hc⟩
  have hvalue : (Nat.toDigits 10 n).foldl (fun n c ↦ n * 10 + (c.toNat - 48)) 0 = n := by
    have hdigits := Nat.ofDigitChars_ten_toDigits (n := n)
    rw [Nat.ofDigitChars_eq_foldl] at hdigits
    simpa only [Nat.mul_comm, Char.reduceToNat] using hdigits
  unfold parseUnsigned
  rw [toString_toList]
  split
  · next digits rest heq =>
    have hplus := digit_of_mem (n := n) (heq ▸ List.mem_cons_self)
    cases hplus
  · exact (if_neg hne).trans (by rw [hvalue]; exact if_pos h)

theorem nulFree_toString (n : ℕ) : NulFree (toString n) := by
  intro hmem
  rw [toString_toList] at hmem
  cases digit_of_mem hmem

end Decimal

section Granted

variable {packet : Bytes} {request : RrqRequest} {size : ℕ} {o : String × String}

theorem mem_oackOptions : o ∈ oackOptions request size ↔
    (∃ b, request.blksize = some b ∧
      o = ("blksize", toString (clamp defaultBlksize maxBlksize b))) ∨
    (∃ t, request.timeout = some t ∧
      o = ("timeout", toString (clamp minTimeoutSecs maxTimeoutSecs t))) ∨
    (request.tsizeRequested = true ∧ o = ("tsize", toString size)) ∨
    (∃ w, request.windowsize = some w ∧
      o = ("windowsize", toString (clamp 1 maxWindowsize w))) := by
  simp only [oackOptions, negotiate, List.mem_append, List.mem_ite_nil_right, List.mem_singleton,
    Option.isSome_iff_exists, or_assoc]
  refine or_congr ?_ (or_congr ?_ (or_congr Iff.rfl ?_))
  · cases request.blksize <;> simp
  · cases request.timeout <;> simp
  · cases request.windowsize <;> simp

theorem nulFree_oackOptions : ∀ o ∈ oackOptions request size, NulFree o.1 ∧ NulFree o.2 := by
  intro o ho
  have hnames : o.1 ∈ ["blksize", "timeout", "tsize", "windowsize"] ∧ NulFree o.2 := by
    rcases mem_oackOptions.mp ho with ⟨b, -, rfl⟩ | ⟨t, -, rfl⟩ | ⟨-, rfl⟩ | ⟨w, -, rfl⟩
    all_goals exact ⟨by simp, nulFree_toString _⟩
  have hall : ∀ name ∈ ["blksize", "timeout", "tsize", "windowsize"], NulFree name := by decide
  exact ⟨hall _ hnames.1, hnames.2⟩

theorem parseOackPacket_oackOptions (request : RrqRequest) (size : ℕ) :
    parseOackPacket (makeOackPacket (oackOptions request size)) = some (oackOptions request size) :=
  parseOackPacket_makeOackPacket _ nulFree_oackOptions

theorem clamp_le_self {lo hi n : ℕ} (h : lo ≤ n) : clamp lo hi n ≤ n :=
  Nat.max_le.mpr ⟨h, Nat.min_le_left _ _⟩

theorem clamp_of_mem {lo hi n : ℕ} (h : lo ≤ n) (h' : n ≤ hi) : clamp lo hi n = n := by
  rw [clamp, Nat.min_eq_left h', Nat.max_eq_right h]

theorem parseUnsigned_clamp {lo hi : ℕ} (hlo : lo ≤ hi) (hhi : hi < 2 ^ 64) (n : ℕ) :
    parseUnsigned 64 (toString (clamp lo hi n)) = some (clamp lo hi n) :=
  parseUnsigned_toString ((clamp_le hlo n).trans_lt hhi)

/-- An option that the server acknowledges was asked for, and a client reads in it the requested
value brought into the range that the server supports. -/
structure Granted (packet : Bytes) (o : String × String) : Prop where
  requested : Requested packet o.1
  known : o.1 ∈ ["blksize", "timeout", "tsize", "windowsize"]
  blksize : o.1 = "blksize" → ∃ b v, requestedBlksize packet = some b ∧
    parseUnsigned 64 o.2 = some v ∧ v = clamp defaultBlksize maxBlksize b ∧
    (defaultBlksize ≤ b → v ≤ b)
  timeout : o.1 = "timeout" → ∃ t v, requestedTimeout packet = some t ∧
    parseUnsigned 64 o.2 = some v ∧ v = clamp minTimeoutSecs maxTimeoutSecs t ∧
    (minTimeoutSecs ≤ t → t ≤ maxTimeoutSecs → v = t)
  windowsize : o.1 = "windowsize" → ∃ w v, requestedWindowsize packet = some w ∧
    parseUnsigned 64 o.2 = some v ∧ v = clamp 1 maxWindowsize w ∧ (1 ≤ w → v ≤ w)

theorem granted_oackOptions (h : parseRrq packet = some request)
    (ho : o ∈ oackOptions request size) : Granted packet o := by
  obtain ⟨hblksize, htimeout, htsize, hwindow⟩ := parseRrq_fields h
  rcases mem_oackOptions.mp ho with ⟨b, hb, rfl⟩ | ⟨t, ht, rfl⟩ | ⟨hany, rfl⟩ | ⟨w, hw, rfl⟩
  · rw [hblksize] at hb
    refine ⟨requested_of_lastValue hb, by simp, fun _ ↦ ?_, by simp, by simp⟩
    exact ⟨b, _, hb, parseUnsigned_clamp (by decide) (by decide) b, rfl, clamp_le_self⟩
  · rw [htimeout] at ht
    refine ⟨requested_of_lastValue ht, by simp, by simp, fun _ ↦ ?_, by simp⟩
    exact ⟨t, _, ht, parseUnsigned_clamp (by decide) (by decide) t, rfl, clamp_of_mem⟩
  · exact ⟨htsize.mp hany, by simp, by simp, by simp, by simp⟩
  · rw [hwindow] at hw
    refine ⟨requested_of_lastValue hw, by simp, by simp, by simp, fun _ ↦ ?_⟩
    exact ⟨w, _, hw, parseUnsigned_clamp (by decide) (by decide) w, rfl, clamp_le_self⟩

theorem negotiate_blksize_le (h : parseRrq packet = some request) :
    (negotiate request).blksize ≤ max ((requestedBlksize packet).getD 0) defaultBlksize := by
  rw [← (parseRrq_fields h).1]
  dsimp only [negotiate]
  cases request.blksize with
  | none => exact Nat.le_max_right _ _
  | some b =>
    refine Nat.max_le.mpr ⟨Nat.le_max_right _ _, ?_⟩
    exact (Nat.min_le_left _ _).trans (Nat.le_max_left _ _)

theorem payload_le {n : Negotiated} {file : Bytes} (es : List Env) {p : ℕ × Bytes}
    (hp : p ∈ (WindowInvariant.run n file es).sent) {block : UInt16} {data : Bytes}
    (hdata : parseDataPacket p.2 = some (block, data)) : data.length ≤ n.blksize := by
  obtain ⟨-, -, hbytes⟩ := (inv_run es).sent p hp
  rw [hbytes, dataPacket, parseDataPacket_makeDataPacket] at hdata
  obtain rfl := congrArg Prod.snd (Option.some.inj hdata)
  exact (Lib.Blocks.block_length _ _ _).trans_le (Nat.min_le_left _ _)

/-- In every run that handles an accepted request, whatever is sent besides DATA is an error or
acknowledges only options that were asked for. Block size, timeout and window size are the requested
ones brought into the supported ranges: the block size never exceeds a requested one of at least
512, the window size never exceeds a requested one of at least 1, and a timeout of 1 to 10 seconds
is acknowledged as it is. No DATA payload is longer than the requested block size and 512, whichever
is greater. -/
theorem oack_within_request (packet : Bytes) (job : Job)
    (h : parseRrq packet = some job.request) (answers : List Answer) :
    (∀ reply ∈ (Handling.run job answers).replies, opcode reply = some opError ∨
      ∃ options, parseOackPacket reply = some options ∧ ∀ o ∈ options, Granted packet o) ∧
    ∀ file t, (Handling.run job answers).stage = .data file t → ∀ p ∈ t.sent, ∀ block data,
      parseDataPacket p.2 = some (block, data) →
      data.length ≤ max ((requestedBlksize packet).getD 0) defaultBlksize := by
  have htalk := talk_run (fun _ _ ↦ True) job answers (by simp)
  generalize Handling.run job answers = s at htalk
  obtain ⟨_, stage, replies, _⟩ := s
  have hgranted {size : ℕ} {reply : Bytes}
      (hreply : reply = makeOackPacket (oackOptions job.request size)) :
      ∃ options, parseOackPacket reply = some options ∧ ∀ o ∈ options, Granted packet o := by
    rw [hreply]
    exact ⟨_, parseOackPacket_oackOptions _ _, fun o ho ↦ granted_oackOptions h ho⟩
  refine ⟨?_, ?_⟩
  · intro reply hreply
    cases htalk with
    | bind | connect | permit | opening | metadata => cases hreply
    | oack retries hsize hne hall => exact .inr (hgranted (hall reply hreply))
    | data es hrun hsize hnone hall => exact .inr (hgranted (hall reply hreply))
    | ended hall =>
      rcases hall reply hreply with herror | ⟨_, size, -, -, hoack⟩
      · exact .inl herror
      · exact .inr (hgranted hoack)
  · rintro file t rfl p hp block data hdata
    cases htalk with
    | data es hrun hsize hnone hall =>
      exact (payload_le es hp hdata).trans (negotiate_blksize_le h)

end Granted

section Sample

def smallBlocks : Bytes := makeRrqPacket "a" "octet" [("blksize", "8")]

def smallBlocksJob : Job where
  request := { filename := "a", mode := "octet", blksize := some 8 }
  filePath := .ofString "/srv/tftp/a"
  mac := none

def smallBlocksAnswers : List Answer :=
  [{}, {}, {}, { opened := .ok (List.replicate 9 7) }, { size := some 9 },
    { net := { recv := .packet (makeAckPacket 0) } }, {}]

theorem smallBlocks_accepted : parseRrq smallBlocks = some smallBlocksJob.request := by
  decide +kernel

theorem oack_within_request_smallBlocks :
    ∃ options, parseOackPacket (makeOackPacket [("blksize", "512")]) = some options ∧
      ∀ o ∈ options, Granted smallBlocks o := by
  have hreply : makeOackPacket [("blksize", "512")] ∈
      (Handling.run smallBlocksJob smallBlocksAnswers).replies := by decide +kernel
  have hoack := oack_within_request smallBlocks smallBlocksJob smallBlocks_accepted
    smallBlocksAnswers
  exact (hoack.1 _ hreply).resolve_left (by decide +kernel)

/-- A request for blocks of 8 bytes is answered with blocks of 512, and 9 bytes arrive in one. -/
theorem smallBlocks_exceeded :
    parseRrq smallBlocks = some smallBlocksJob.request ∧ requestedBlksize smallBlocks = some 8 ∧
      (Handling.run smallBlocksJob smallBlocksAnswers).replies =
        [makeOackPacket [("blksize", "512")]] ∧
      parseOackPacket (makeOackPacket [("blksize", "512")]) = some [("blksize", "512")] ∧
      ∃ t, (Handling.run smallBlocksJob smallBlocksAnswers).stage =
          .data (List.replicate 9 7) t ∧
        t.sent = [(1, makeDataPacket 1 (List.replicate 9 7))] := by
  refine ⟨smallBlocks_accepted, by decide +kernel, by decide +kernel, by decide +kernel, ?_⟩
  exact ⟨WindowInvariant.run (negotiate smallBlocksJob.request) (List.replicate 9 7) [{}],
    by decide +kernel, by decide +kernel⟩

end Sample

end BootyCall.Tftp.Negotiation
