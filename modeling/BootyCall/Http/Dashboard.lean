import BootyCall.Core.State
import BootyCall.Lib.Markup

namespace BootyCall.Http.Dashboard

open BootyCall.Core Mac State Lib.Markup

/-- An absent value and the empty text count as false. -/
def truthy (x : Option String) : Option String := x.filter fun s ↦ s != ""

/-- `x || d`. -/
def orElse (x : Option String) (d : String) : String := (truthy x).getD d

def toLowerCase (s : String) : String := String.ofList (s.toList.map Char.toLower)

def statusName : HostStatus → String
  | .polling => "Polling"
  | .booting => "Booting"
  | .completed => "Completed"
  | .failed => "Failed"

/-- What `Date` makes of milliseconds, or of no number, is printed as the locale has it. -/
def formatTime (toLocaleTimeString : Option ℤ → String) (timestamp : SystemTime) : String :=
  let secs := timestamp / 1000000000
  toLocaleTimeString (if secs = 0 then none else some (secs * 1000))

section Rows

def noHosts : Literal where
  lines :=
    ["", "                <tr class=\"empty-row\">",
      "                    <td colspan=\"5\">Scanning network for PXE boot requests...</td>",
      "                </tr>", "            "]
  settled_lines := settled_chars (by repeat' constructor) (by decide)

def rowStart : Literal where
  lines := ["", "                <tr>", "                    <td><span class=\"mac-cell\">"]
  settled_lines := settled_chars (by repeat' constructor) (by decide)

def rowName : Literal where
  lines :=
    ["</span></td>", "                    <td>",
      "                        <div class=\"host-info\">",
      "                            <span class=\"host-name\">"]
  settled_lines := settled_chars (by repeat' constructor) (by decide)

def rowTarget : Literal where
  lines := [" &rarr; "]
  settled_lines := settled_chars (by repeat' constructor) (by decide)

def rowIp : Literal where
  lines := ["</span>", "                            <span class=\"host-ip\">"]
  settled_lines := settled_chars (by repeat' constructor) (by decide)

def rowArch : Literal where
  lines :=
    ["</span>", "                        </div>", "                    </td>",
      "                    <td>"]
  settled_lines := settled_chars (by repeat' constructor) (by decide)

def rowClass : Literal where
  lines := ["</td>", "                    <td><span class=\"status-badge "]
  settled_lines := settled_chars (by repeat' constructor) (by decide)

def rowStatus : Literal where
  lines := ["\">"]
  settled_lines := settled_chars (by repeat' constructor) (by decide)

def rowButton : Literal where
  lines :=
    ["</span></td>", "                    <td>",
      "                        <button class=\"btn btn-primary btn-sm\" onclick=\"openOverrideModal('"]
  settled_lines := settled_chars (by repeat' constructor) (by decide)

def rowEnd : Literal where
  lines :=
    ["')\">", "                            Assign Target", "                        </button>",
      "                    </td>", "                </tr>", "            "]
  settled_lines := settled_chars (by repeat' constructor) (by decide)

end Rows

def statusClass (status : String) : String :=
  if status = "booting" then "booting"
  else if status = "completed" then "completed"
  else if status = "failed" then "failed"
  else "polling"

def hostRow (host : HostState) : List Piece :=
  let name := orElse host.name "Unrecognised Host"
  let ip := orElse host.clientIp "No Lease IP"
  let arch := orElse host.architecture "Unknown"
  let status := toLowerCase (orElse (some (statusName host.status)) "polling")
  let target := match truthy host.assignedTarget with
    | some target => [.lit rowTarget, .slot target]
    | none => []
  [.lit rowStart, .slot host.mac, .lit rowName, .slot name] ++ target ++
    [.lit rowIp, .slot ip, .lit rowArch, .slot arch, .lit rowClass, .slot (statusClass status),
      .lit rowStatus, .slot status, .lit rowButton, .slot host.mac, .lit rowEnd]

/-- What `updateStatus` assigns to the table of the hosts. -/
def updateStatus (hosts : List HostState) : List Piece :=
  if hosts = [] then [.lit noHosts] else hosts.flatMap hostRow

section Entries

def noLogs : Literal where
  lines := ["<div class=\"log-entry system\">No events logged yet.</div>"]
  settled_lines := settled_chars (by repeat' constructor) (by decide)

def macStart : Literal where
  lines := ["<span class=\"log-mac\">["]
  settled_lines := settled_chars (by repeat' constructor) (by decide)

def macEnd : Literal where
  lines := ["]</span>"]
  settled_lines := settled_chars (by repeat' constructor) (by decide)

def entryStart : Literal where
  lines := ["", "                <div class=\"log-entry "]
  settled_lines := settled_chars (by repeat' constructor) (by decide)

def entryTime : Literal where
  lines := ["\">", "                    <span class=\"log-time\">"]
  settled_lines := settled_chars (by repeat' constructor) (by decide)

def entryMac : Literal where
  lines := ["</span>", "                    "]
  settled_lines := settled_chars (by repeat' constructor) (by decide)

def entryMessage : Literal where
  lines := ["", "                    <span class=\"log-message\">"]
  settled_lines := settled_chars (by repeat' constructor) (by decide)

def entryEnd : Literal where
  lines := ["</span>", "                </div>", "            "]
  settled_lines := settled_chars (by repeat' constructor) (by decide)

end Entries

def logEntry (toLocaleTimeString : Option ℤ → String) (entry : LogEvent) : List Piece :=
  let time := formatTime toLocaleTimeString entry.timestamp
  let level := toLowerCase (orElse (some entry.level) "info")
  let mac := match truthy entry.mac with
    | some mac => [.lit macStart, .slot mac, .lit macEnd]
    | none => []
  [.lit entryStart, .slot level, .lit entryTime, .slot time, .lit entryMac] ++ mac ++
    [.lit entryMessage, .slot entry.message, .lit entryEnd]

/-- What `updateLogs` assigns to the list of the events, newest first. -/
def updateLogs (toLocaleTimeString : Option ℤ → String) (logs : List LogEvent) : List Piece :=
  if logs = [] then [.lit noLogs]
  else logs.reverse.flatMap (logEntry toLocaleTimeString)

def literalTags (ls : List Literal) : List (List Char) :=
  ls.flatMap fun l ↦ tags (Lib.Lines.chars l.lines)

def rowTags : List (List Char) :=
  literalTags [rowStart, rowName, rowIp, rowArch, rowClass, rowStatus, rowButton, rowEnd]

def entryTags (mac : Bool) : List (List Char) :=
  literalTags ([entryStart, entryTime, entryMac] ++ (if mac then [macStart, macEnd] else []) ++
    [entryMessage, entryEnd])

def statusTags (n : ℕ) : List (List Char) :=
  if n = 0 then literalTags [noHosts] else (List.replicate n rowTags).flatten

/-- The tags of the templates for so many events, each of which names a host. -/
def logsTags (n : ℕ) : List (List Char) :=
  if n = 0 then literalTags [noLogs] else (List.replicate n (entryTags true)).flatten

structure CleanHost (host : HostState) : Prop where
  mac : Clean host.mac
  name : ∀ t ∈ host.name, Clean t
  assignedTarget : ∀ t ∈ host.assignedTarget, Clean t
  clientIp : ∀ t ∈ host.clientIp, Clean t
  architecture : ∀ t ∈ host.architecture, Clean t

structure CleanEntry (entry : LogEvent) : Prop where
  level : Clean entry.level
  mac : ∀ mac ∈ entry.mac, Clean mac
  message : Clean entry.message

theorem mem_of_truthy {x : Option String} {s : String} (h : truthy x = some s) : s ∈ x :=
  (Option.filter_eq_some_iff.mp h).1

theorem clean_orElse {x : Option String} {d : String} (hx : ∀ t ∈ x, Clean t) (hd : Clean d) :
    Clean (orElse x d) := by
  rw [orElse]
  cases h : truthy x with
  | none => exact hd
  | some s => exact hx s (mem_of_truthy h)

theorem clean_toLowerCase {s : String} (h : Clean s) : Clean (toLowerCase s) := by
  rw [Clean, toLowerCase, String.toList_ofList, List.mem_map]
  rintro ⟨c, hc, hlower⟩
  have hnat := toLower_toNat c
  rw [hlower] at hnat
  obtain rfl : c = '<' := by
    apply Char.toNat_inj.mp
    have hlt : '<'.toNat = 60 := rfl
    rw [hlt] at hnat ⊢
    split_ifs at hnat <;> omega
  exact h hc

theorem clean_statusName (status : HostStatus) : Clean (statusName status) := by
  cases status <;> decide

theorem clean_statusClass (status : String) : Clean (statusClass status) := by
  rw [statusClass]
  split_ifs <;> decide

theorem inert_hostRow {host : HostState} (h : CleanHost host) : ∀ p ∈ hostRow host, p.Inert := by
  have hname := clean_orElse h.name (d := "Unrecognised Host") (by decide)
  have hip := clean_orElse h.clientIp (d := "No Lease IP") (by decide)
  have harch := clean_orElse h.architecture (d := "Unknown") (by decide)
  have hstatus : Clean (toLowerCase (orElse (some (statusName host.status)) "polling")) := by
    apply clean_toLowerCase
    exact clean_orElse (by simpa using clean_statusName host.status) (by decide)
  rw [hostRow]
  cases htarget : truthy host.assignedTarget with
  | none =>
    simp [Piece.Inert, h.mac, hname, hip, harch, hstatus, clean_statusClass]
  | some target =>
    have ht := h.assignedTarget target (mem_of_truthy htarget)
    simp [Piece.Inert, h.mac, hname, hip, harch, hstatus, clean_statusClass, ht]

theorem inert_updateStatus {hosts : List HostState} (h : ∀ host ∈ hosts, CleanHost host) :
    ∀ p ∈ updateStatus hosts, p.Inert := by
  intro p hp
  rw [updateStatus] at hp
  split at hp
  · obtain rfl := List.mem_singleton.mp hp
    trivial
  · obtain ⟨host, hhost, hrow⟩ := List.mem_flatMap.mp hp
    exact inert_hostRow (h host hhost) p hrow

variable {toLocaleTimeString : Option ℤ → String}

theorem inert_logEntry (htime : ∀ ms, Clean (toLocaleTimeString ms)) {entry : LogEvent}
    (h : CleanEntry entry) : ∀ p ∈ logEntry toLocaleTimeString entry, p.Inert := by
  have hlevel : Clean (toLowerCase (orElse (some entry.level) "info")) := by
    apply clean_toLowerCase
    exact clean_orElse (by simpa using h.level) (by decide)
  have htime' : Clean (formatTime toLocaleTimeString entry.timestamp) := htime _
  rw [logEntry]
  cases hmac : truthy entry.mac with
  | none => simp [Piece.Inert, hlevel, htime', h.message]
  | some mac =>
    have hm := h.mac mac (mem_of_truthy hmac)
    simp [Piece.Inert, hlevel, htime', h.message, hm]

theorem inert_updateLogs (htime : ∀ ms, Clean (toLocaleTimeString ms)) {logs : List LogEvent}
    (h : ∀ entry ∈ logs, CleanEntry entry) :
    ∀ p ∈ updateLogs toLocaleTimeString logs, p.Inert := by
  intro p hp
  rw [updateLogs] at hp
  split at hp
  · obtain rfl := List.mem_singleton.mp hp
    trivial
  · obtain ⟨entry, hentry, hrow⟩ := List.mem_flatMap.mp hp
    exact inert_logEntry htime (h entry (List.mem_reverse.mp hentry)) p hrow

theorem tags_hostRow (host : HostState) : (hostRow host).flatMap Piece.tags = rowTags := by
  have htarget : tags (Lib.Lines.chars rowTarget.lines) = [] := by decide
  rw [hostRow]
  cases truthy host.assignedTarget with
  | none => simp [Piece.tags, rowTags, literalTags]
  | some target => simp [Piece.tags, rowTags, literalTags, htarget]

theorem tags_logEntry (entry : LogEvent) :
    (logEntry toLocaleTimeString entry).flatMap Piece.tags =
      entryTags (truthy entry.mac).isSome := by
  rw [logEntry]
  cases truthy entry.mac with
  | none => simp [Piece.tags, entryTags, literalTags]
  | some mac => simp [Piece.tags, entryTags, literalTags]

theorem flatMap_eq_flatten_replicate {α β : Type} {f : α → List β} {t : List β} {as : List α}
    (h : ∀ a ∈ as, f a = t) : as.flatMap f = (List.replicate as.length t).flatten := by
  rw [List.flatMap_def, List.eq_replicate_of_mem (l := as.map f) (a := t), List.length_map]
  intro b hb
  obtain ⟨a, ha, rfl⟩ := List.mem_map.mp hb
  exact h a ha

theorem tags_updateStatus {hosts : List HostState} (h : ∀ host ∈ hosts, CleanHost host) :
    tags (text (updateStatus hosts)) = statusTags hosts.length := by
  rw [tags_text (inert_updateStatus h), updateStatus, statusTags]
  simp only [List.length_eq_zero_iff]
  split
  · simp [literalTags, Piece.tags]
  · rw [List.flatMap_assoc]
    exact flatMap_eq_flatten_replicate fun host _ ↦ tags_hostRow host

theorem tags_updateLogs (htime : ∀ ms, Clean (toLocaleTimeString ms)) {logs : List LogEvent}
    (h : ∀ entry ∈ logs, CleanEntry entry)
    (hmac : ∀ entry ∈ logs, (truthy entry.mac).isSome = true) :
    tags (text (updateLogs toLocaleTimeString logs)) = logsTags logs.length := by
  rw [tags_text (inert_updateLogs htime h), updateLogs, logsTags]
  simp only [List.length_eq_zero_iff]
  split
  · simp [literalTags, Piece.tags]
  · rw [List.flatMap_assoc, flatMap_eq_flatten_replicate (t := entryTags true),
      List.length_reverse]
    intro entry hentry
    rw [tags_logEntry, hmac entry (List.mem_reverse.mp hentry)]

end BootyCall.Http.Dashboard
