import BootyCall.Core.Spelling
import BootyCall.Http.Menu
import BootyCall.Lib.Skeleton

namespace BootyCall.Http.PollScript

open BootyCall.Core Mac State Spelling Server Scripts Menu Lib.Lines Lib.Skeleton

structure Response where
  status : ℕ
  body : String
  deriving DecidableEq

def retryScript (hostHdr mac : String) : String :=
  "#!ipxe\nprompt --key 0x02 --timeout 4000 " ++
    "BootyCall: Press Ctrl-B for manual override... \\\n" ++
    "  && chain --autofree http://" ++ hostHdr ++ "/ipxemenu \\\n" ++
    "  || chain --autofree http://" ++ hostHdr ++ "/poll/" ++ mac ++ "\n"

def respond (hostHdr mac : String) : PollOutcome → Response
  | .boot script _ => ⟨200, script⟩
  | .renderFailed => ⟨500, "#!ipxe\necho BootyCall: internal error rendering boot script\n"⟩
  | .poll => ⟨200, retryScript hostHdr mac⟩

/-- `poll_handler`, with its response; `registered` says whether there is a boot template. -/
def pollHandler (registered : Bool) (config : Config) (now : SystemTime)
    (clientIp segment : String) (host : Option (List UInt8)) (store : StateStore) :
    StateStore × Response :=
  let hostHdr := hostHeader host
  let mac := normalizeMac segment
  if isValidMac mac then
    if registered then
      let outcome := decidePollOutcome (bootTemplate hostHdr) config store mac
      (recordPoll now clientIp mac outcome store, respond hostHdr mac outcome)
    else (store, ⟨500, "Internal server error\n"⟩)
  else (store, ⟨400, "Invalid MAC address\n"⟩)

/-- What a client brings into a script. -/
inductive Hole
  | server
  | mac
  deriving DecidableEq

def filling (hostHdr mac : String) : Hole → List Char
  | .server => hostHdr.toList
  | .mac => mac.toList

/-- What is served, and for which host. -/
inductive Branch
  | boot (host : HostConfig)
  | override (host : HostConfig)
  | retry
  deriving DecidableEq

def branchOf (config : Config) (store : StateStore) (mac : String) : Branch :=
  match config.findHost mac with
  | some host => .boot host
  | none =>
    match assignedTarget config store mac with
    | some target => .override target
    | none => .retry

namespace Branch

def text (s : String) : Piece Hole := .text s.toList

def kernel (host : HostConfig) : List (Piece Hole) :=
  [text "kernel http://", .hole .server, text "/cache/", text host.mac, text "/kernel ",
    text (host.cmdline.getD "")]

def initrd (host : HostConfig) : List (Piece Hole) :=
  [text "initrd http://", .hole .server, text "/cache/", text host.mac, text "/initrd"]

def ended : Branch → List (List (Piece Hole))
  | boot host =>
    [[text "#!ipxe"], [text "echo Booting ", text host.name, text "..."], kernel host, initrd host]
  | override host =>
    [[text "#!ipxe"], [text "echo Booting target ", text host.name, text " for host ", .hole .mac,
      text "..."], kernel host, initrd host]
  | retry =>
    [[text "#!ipxe"],
      [text "prompt --key 0x02 --timeout 4000 ",
        text "BootyCall: Press Ctrl-B for manual override... \\"],
      [text "  && chain --autofree http://", .hole .server, text "/ipxemenu \\"],
      [text "  || chain --autofree http://", .hole .server, text "/poll/", .hole .mac]]

def rest : Branch → List (Piece Hole)
  | boot _ | override _ => [text "boot"]
  | retry => []

def lines (branch : Branch) : List (List (Piece Hole)) :=
  branch.ended ++ if branch.rest = [] then [] else [branch.rest]

/-- The command word of each line, with what comes before it. -/
def words : Branch → List String
  | boot _ | override _ => ["#!ipxe", "echo ", "kernel ", "initrd ", "boot"]
  | retry => ["#!ipxe", "prompt ", "  && chain ", "  || chain "]

def script (hostHdr mac : String) (branch : Branch) : String :=
  String.ofList (fill (filling hostHdr mac) (joined branch.ended branch.rest))

end Branch

variable {hostHdr mac : String} {host : HostConfig} {config : Config} {store : StateStore}

theorem pollHandler_store (registered : Bool) (now : SystemTime) (clientIp segment : String)
    (header : Option (List UInt8)) :
    (pollHandler registered config now clientIp segment header store).1 =
      (poll (if registered then some (bootTemplate (hostHeader header)) else none) config now
        clientIp segment store).1 := by
  simp only [pollHandler, poll]
  by_cases hmac : isValidMac (normalizeMac segment) = true
  · rw [if_pos hmac, if_pos hmac]
    cases registered <;> rfl
  · rw [if_neg hmac, if_neg hmac]

theorem fill_kernel : fill (filling hostHdr mac) (Branch.kernel host) =
    kernelLine hostHdr host.mac (host.cmdline.getD "").toList := by
  delta kernelLine
  simp only [Branch.kernel, Branch.text, filling, fill_text, fill_hole, fill_nil,
    List.append_assoc, List.append_nil]

theorem fill_initrd : fill (filling hostHdr mac) (Branch.initrd host) =
    initrdLine hostHdr host.mac := by
  delta initrdLine
  simp only [Branch.initrd, Branch.text, filling, fill_text, fill_hole, fill_nil,
    List.append_assoc, List.append_nil]

theorem bootLines_boot (mac : String) : bootLines hostHdr host none =
    (Branch.boot host).ended.map (fill (filling hostHdr mac)) := by
  rw [bootLines, Branch.ended, List.map_cons, List.map_cons, List.map_cons, List.map_cons,
    fill_kernel, fill_initrd]
  delta echoLine
  simp only [Branch.text, fill_text, fill_nil, List.append_assoc, List.append_nil, List.map_nil]

theorem bootLines_override : bootLines hostHdr host (some mac) =
    (Branch.override host).ended.map (fill (filling hostHdr mac)) := by
  rw [bootLines, Branch.ended, List.map_cons, List.map_cons, List.map_cons, List.map_cons,
    fill_kernel, fill_initrd]
  delta echoLine
  simp only [Branch.text, filling, fill_text, fill_hole, fill_nil, List.append_assoc,
    List.append_nil, List.map_nil]

theorem script_boot (mac : String) :
    bootScript hostHdr host none = (Branch.boot host).script hostHdr mac := by
  rw [bootScript, Branch.script, fill_joined, bootLines_boot mac]
  rfl

theorem script_override :
    bootScript hostHdr host (some mac) = (Branch.override host).script hostHdr mac := by
  rw [bootScript, Branch.script, fill_joined, bootLines_override]
  rfl

theorem script_retry : retryScript hostHdr mac = Branch.retry.script hostHdr mac := by
  have hfirst : "#!ipxe\nprompt --key 0x02 --timeout 4000 ".toList =
      "#!ipxe".toList ++ '\n' :: "prompt --key 0x02 --timeout 4000 ".toList := by decide
  have hprompt : "BootyCall: Press Ctrl-B for manual override... \\\n".toList =
      "BootyCall: Press Ctrl-B for manual override... \\".toList ++ ['\n'] := by decide
  have hmenu : "/ipxemenu \\\n".toList = "/ipxemenu \\".toList ++ ['\n'] := by decide
  have hend : "\n".toList = ['\n'] := by decide
  rw [← String.toList_inj, Branch.script, String.toList_ofList]
  delta retryScript
  simp only [String.toList_append, hfirst, hprompt, hmenu, hend, joined, Branch.ended,
    Branch.rest, Branch.text, filling, List.flatMap_cons, List.flatMap_nil, List.cons_append,
    List.nil_append, fill_text, fill_hole, fill_nil, List.append_assoc, List.append_nil,
    -String.reduceToList, -String.reduceAppend]

theorem respond_branch (hmac : isValidMac mac = true) (config : Config) (store : StateStore) :
    respond hostHdr mac (decidePollOutcome (bootTemplate hostHdr) config store mac) =
      ⟨200, (branchOf config store mac).script hostHdr mac⟩ := by
  have hne : some mac ≠ some "" := by
    intro hempty
    rw [Option.some.inj hempty] at hmac
    exact absurd hmac (by decide)
  rw [decidePollOutcome, branchOf]
  cases config.findHost mac with
  | some host =>
    simp only [rendered, bootTemplate_eq hostHdr host (Option.some_ne_none "").symm, respond,
      script_boot mac]
  | none =>
    cases assignedTarget config store mac with
    | some target =>
      simp only [rendered, bootTemplate_eq hostHdr target hne, respond, script_override]
    | none => simp only [respond, script_retry]

def Branch.Unbroken : Branch → Prop
  | boot host | override host => Menu.Unbroken host
  | retry => True

theorem unbroken_branchOf (h : ∀ host ∈ config.hosts, Menu.Unbroken host) :
    (branchOf config store mac).Unbroken := by
  rw [branchOf]
  cases hfind : config.findHost mac with
  | some host => exact h host (List.mem_of_find?_eq_some hfind)
  | none =>
    cases htarget : assignedTarget config store mac with
    | some target =>
      obtain ⟨_, -, htarget⟩ := Option.bind_eq_some_iff.mp htarget
      obtain ⟨_, -, htarget⟩ := Option.bind_eq_some_iff.mp htarget
      exact h target (List.mem_of_find?_eq_some htarget)
    | none => trivial

theorem unbroken_ended {branch : Branch} (h : branch.Unbroken) (hserver : '\n' ∉ hostHdr.toList)
    (hmac : '\n' ∉ mac.toList) :
    ∀ l ∈ branch.ended.map (fill (filling hostHdr mac)), '\n' ∉ l := by
  cases branch with
  | boot host =>
    rw [← bootLines_boot]
    exact unbroken_bootLines h hserver (by simp)
  | override host =>
    rw [← bootLines_override]
    exact unbroken_bootLines h hserver fun m hm ↦ Option.some.inj hm ▸ hmac
  | retry =>
    have hhole : ∀ hole, '\n' ∉ filling hostHdr mac hole := by
      intro hole
      cases hole with
      | server => exact hserver
      | mac => exact hmac
    have htext : ∀ line ∈ Branch.retry.ended, ∀ piece ∈ line, piece.lacks '\n' = true := by
      decide
    intro l hl
    obtain ⟨line, hline, rfl⟩ := List.mem_map.mp hl
    exact not_mem_fill (htext line hline) hhole

theorem textLines_script {branch : Branch} (h : branch.Unbroken)
    (hserver : '\n' ∉ hostHdr.toList) (hmac : '\n' ∉ mac.toList) :
    textLines (branch.script hostHdr mac).toList =
      branch.lines.map (fill (filling hostHdr mac)) := by
  have hrest : '\n' ∉ fill (filling hostHdr mac) branch.rest := by
    cases branch with
    | boot host | override host => exact (by decide : '\n' ∉ "boot".toList)
    | retry => exact List.not_mem_nil
  rw [Branch.script, String.toList_ofList, fill_joined,
    textLines_unlines (unbroken_ended h hserver hmac) hrest, Branch.lines, List.map_append]
  congr 1
  cases branch <;> rfl

theorem words_lines (branch : Branch) :
    List.Forall₂ (fun word line ↦ word.toList <+: line) branch.words
      (branch.lines.map (fill (filling hostHdr mac))) := by
  cases branch with
  | boot host =>
    refine .cons (prefix_fill ?_ _) (.cons (prefix_fill ?_ _) (.cons (prefix_fill ?_ _)
      (.cons (prefix_fill ?_ _) (.cons (prefix_fill ?_ _) .nil)))) <;> decide
  | override host =>
    refine .cons (prefix_fill ?_ _) (.cons (prefix_fill ?_ _) (.cons (prefix_fill ?_ _)
      (.cons (prefix_fill ?_ _) (.cons (prefix_fill ?_ _) .nil)))) <;> decide
  | retry =>
    refine .cons (prefix_fill ?_ _) (.cons (prefix_fill ?_ _) (.cons (prefix_fill ?_ _)
      (.cons (prefix_fill ?_ _) .nil))) <;> decide

/-- A poll for no MAC is refused and leaves the store alone. Any other gets the lines of its branch,
in which the client chooses the server address and the six bytes of the MAC and nothing else. -/
theorem poll_adds_no_command (printable : Char → Bool) (fromStr : String → Option Config)
    (content : Option String) (config : Config)
    (hload : Config.load printable fromStr content = .ok config)
    (htexts : ∀ host ∈ config.hosts, '\n' ∉ host.name.toList ∧
      ∀ cmdline, host.cmdline = some cmdline → '\n' ∉ cmdline.toList) :
    ∀ now clientIp segment header store,
      (∀ bytes, ¬Spells bytes segment) ∧
        pollHandler true config now clientIp segment header store =
          (store, ⟨400, "Invalid MAC address\n"⟩) ∨
      ∃ bytes branch script, Spells bytes segment ∧
        branch = branchOf config store (formatMac bytes) ∧
        (pollHandler true config now clientIp segment header store).2 = ⟨200, script⟩ ∧
        textLines script.toList =
          branch.lines.map (fill (filling (hostHeader header) (formatMac bytes))) ∧
        List.Forall₂ (fun word line ↦ word.toList <+: line) branch.words
          (textLines script.toList) ∧
        ∀ now' clientIp' segment' header' store' bytes', Spells bytes' segment' →
          branchOf config store' (formatMac bytes') = branch →
          ∃ pieces,
            script.toList = fill (filling (hostHeader header) (formatMac bytes)) pieces ∧
            (pollHandler true config now' clientIp' segment' header' store').2 = ⟨200,
              String.ofList (fill (filling (hostHeader header') (formatMac bytes')) pieces)⟩ := by
  have hunbroken : ∀ host ∈ config.hosts, Menu.Unbroken host := by
    obtain ⟨_, _, _, _, _, hvalid⟩ := (Config.load_ok printable).mp hload
    intro host hhost
    exact ⟨unbroken_mac (hvalid.macs host hhost), htexts host hhost⟩
  have hanswer : ∀ now clientIp segment header store bytes, Spells bytes segment →
      (pollHandler true config now clientIp segment header store).2 = ⟨200,
        (branchOf config store (formatMac bytes)).script (hostHeader header)
          (formatMac bytes)⟩ := by
    intro now clientIp segment header store bytes hspells
    have hvalid := isValidMac_formatMac bytes
    simp only [pollHandler, normalizeMac_iff.mpr hspells, hvalid, if_true]
    exact respond_branch hvalid config store
  intro now clientIp segment header store
  by_cases hvalid : isValidMac (normalizeMac segment) = true
  · right
    obtain ⟨bytes, hbytes⟩ := isValidMac_iff.mp hvalid
    have hspells := normalizeMac_iff.mp hbytes
    have hbranch : (branchOf config store (formatMac bytes)).Unbroken :=
      unbroken_branchOf hunbroken
    have hlines := textLines_script hbranch (unbroken_hostHeader header)
      (unbroken_mac (isValidMac_formatMac bytes))
    refine ⟨bytes, _, _, hspells, rfl, hanswer _ _ _ _ _ _ hspells, hlines, ?_, ?_⟩
    · rw [hlines]
      exact words_lines _
    · intro now' clientIp' segment' header' store' bytes' hspells' hbranch
      refine ⟨_, String.toList_ofList, ?_⟩
      rw [hanswer _ _ _ _ _ _ hspells', hbranch, Branch.script]
  · left
    constructor
    · intro bytes hspells
      rw [normalizeMac_iff.mpr hspells] at hvalid
      exact hvalid (isValidMac_formatMac bytes)
    · simp only [pollHandler, if_neg hvalid]

theorem poll_adds_no_command_rack :
    ∃ script, (pollHandler true (rackConfig (some "quiet")) 0 "10.0.0.5" "AA-BB-CC-DD-EE-FF" none
        {}).2 = ⟨200, script⟩ ∧
      (textLines script.toList).length = 5 := by
  have hbytes : normalizeMac "AA-BB-CC-DD-EE-FF" =
      formatMac #v[0xaa, 0xbb, 0xcc, 0xdd, 0xee, 0xff] := by decide
  have hload : Config.load (fun _ ↦ true) (Config.reads rackYaml (rackConfig (some "quiet")))
      (some rackYaml) = .ok (rackConfig (some "quiet")) :=
    Config.load_reads _ _ _
  have hbranch : (branchOf (rackConfig (some "quiet")) {}
      (formatMac #v[0xaa, 0xbb, 0xcc, 0xdd, 0xee, 0xff])).lines.length = 5 := by
    rw [← hbytes]
    decide +kernel
  rcases poll_adds_no_command _ _ _ _ hload (by decide) 0 "10.0.0.5" "AA-BB-CC-DD-EE-FF" none {}
    with ⟨hnone, -⟩ | ⟨bytes, branch, script, hspells, hbranch', hscript, hlines, -⟩
  · exact absurd (normalizeMac_iff.mp hbytes) (hnone _)
  · have hsame : bytes = #v[0xaa, 0xbb, 0xcc, 0xdd, 0xee, 0xff] :=
      formatMac_injective ((normalizeMac_iff.mpr hspells).symm.trans hbytes)
    refine ⟨script, hscript, ?_⟩
    rw [hlines, List.length_map, hbranch', hsame, hbranch]

end BootyCall.Http.PollScript
