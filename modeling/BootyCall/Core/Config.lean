import BootyCall.Core.Mac
import BootyCall.Core.Path
import BootyCall.Lib.Net

namespace BootyCall.Core

open Mac BootyCall.Core.Path

structure ServerConfig where
  httpBind : String
  tftpBind : String
  tftpRoot : PathBuf
  proxyDhcpBind : String
  defaultBootloaderAmd64 : String
  defaultBootloaderArm64 : String
  defaultBootloaderBios : String := "boot/x64/undionly.kpxe"
  apiToken : Option String := none
  maxArtifactBytes : Option ℕ := none

structure HostConfig where
  mac : String
  name : String
  imagePath : String
  bootloader : Option String
  kernelPath : Option String
  initrdPath : Option String
  cmdline : Option String
  deriving DecidableEq

structure Config where
  server : ServerConfig
  hosts : List HostConfig

/-- What the file system, the YAML decoder and the validator report. -/
inductive CoreError
  | io
  | yaml
  | invalidConfig (msg : String)
  deriving DecidableEq

/-- One character of a text printed with `{:?}`; `printable` is the Unicode table of those that
stand for themselves. -/
def escapeDebug (printable : Char → Bool) (c : Char) : List Char :=
  if c = Char.ofNat 0 then ['\\', '0']
  else if c = '\t' then ['\\', 't']
  else if c = '\r' then ['\\', 'r']
  else if c = '\n' then ['\\', 'n']
  else if c = '"' ∨ c = '\\' then ['\\', c]
  else if printable c then [c]
  else ['\\', 'u', '\x7b'] ++ Nat.toDigits 16 c.toNat ++ ['\x7d']

def debugStr (printable : Char → Bool) (s : String) : String :=
  String.ofList ('"' :: s.toList.flatMap (escapeDebug printable) ++ ['"'])

def blank (s : String) : Bool := (trim s.toList).isEmpty

namespace Config

variable (printable : Char → Bool)

def checkBind (field value : String) : Except CoreError Unit :=
  if (Lib.Net.parse value).isNone then
    .error (.invalidConfig ("server." ++ field ++ " = " ++ debugStr printable value ++
      " is not a valid socket address (expected e.g. \"0.0.0.0:69\")"))
  else .ok ()

def checkBootloader (field value : String) : Except CoreError Unit :=
  if blank value then .error (.invalidConfig ("server." ++ field ++ " must not be empty"))
  else .ok ()

def checkApiToken (apiToken : Option String) : Except CoreError Unit :=
  if apiToken = some "" then
    .error (.invalidConfig
      "server.api_token is set but empty; unset it to disable auth or provide a real secret")
  else .ok ()

def checkMaxArtifactBytes (maxArtifactBytes : Option ℕ) : Except CoreError Unit :=
  if maxArtifactBytes = some 0 then
    .error (.invalidConfig
      "server.max_artifact_bytes is 0 (rejects all artifacts); unset it for unbounded")
  else .ok ()

def checkHosts (seenMacs seenNames : List String) : List HostConfig → Except CoreError Unit
  | [] => .ok ()
  | host :: rest =>
    if !isValidMac host.mac then
      .error (.invalidConfig ("host " ++ debugStr printable host.name ++
        " has an invalid MAC address " ++ debugStr printable host.mac ++
        " (expected aa:bb:cc:dd:ee:ff)"))
    else if host.mac ∈ seenMacs then
      .error (.invalidConfig ("duplicate host MAC " ++ debugStr printable host.mac ++
        " (each host MAC must be unique)"))
    else if blank host.name then .error (.invalidConfig "a host has an empty name")
    else if host.name ∈ seenNames then
      .error (.invalidConfig ("duplicate host name " ++ debugStr printable host.name ++
        " (each host name must be unique)"))
    else checkHosts (host.mac :: seenMacs) (host.name :: seenNames) rest

def validate (config : Config) : Except CoreError Unit := do
  checkBind printable "http_bind" config.server.httpBind
  checkBind printable "tftp_bind" config.server.tftpBind
  checkBind printable "proxy_dhcp_bind" config.server.proxyDhcpBind
  checkBootloader "default_bootloader_amd64" config.server.defaultBootloaderAmd64
  checkBootloader "default_bootloader_arm64" config.server.defaultBootloaderArm64
  checkBootloader "default_bootloader_bios" config.server.defaultBootloaderBios
  checkApiToken config.server.apiToken
  checkMaxArtifactBytes config.server.maxArtifactBytes
  checkHosts printable [] [] config.hosts

def normalizeMacs (config : Config) : Config :=
  { config with hosts := config.hosts.map fun host ↦ { host with mac := normalizeMac host.mac } }

/-- `content` is the text of the file, if it can be read, and `fromStr` the YAML decoder. -/
def load (fromStr : String → Option Config) (content : Option String) : Except CoreError Config :=
  match content with
  | none => .error .io
  | some fileContent =>
    match fromStr fileContent with
    | none => .error .yaml
    | some config => do
      config.normalizeMacs.validate printable
      .ok config.normalizeMacs

def findHost (config : Config) (mac : String) : Option HostConfig :=
  config.hosts.find? fun h ↦ h.mac == normalizeMac mac

theorem findHost_normalizeMac (config : Config) (mac : String) :
    config.findHost (normalizeMac mac) = config.findHost mac := by
  rw [findHost, findHost, normalizeMac_idem]

structure Valid (config : Config) : Prop where
  binds : ∀ v ∈ [config.server.httpBind, config.server.tftpBind, config.server.proxyDhcpBind],
    (Lib.Net.parse v).isSome
  bootloaders : ∀ v ∈ [config.server.defaultBootloaderAmd64,
    config.server.defaultBootloaderArm64, config.server.defaultBootloaderBios], blank v = false
  apiToken : config.server.apiToken ≠ some ""
  maxArtifactBytes : config.server.maxArtifactBytes ≠ some 0
  macs : ∀ h ∈ config.hosts, isValidMac h.mac = true
  distinctMacs : (config.hosts.map HostConfig.mac).Nodup
  names : ∀ h ∈ config.hosts, blank h.name = false
  distinctNames : (config.hosts.map HostConfig.name).Nodup

theorem guard_ok {c : Prop} [Decidable c] {e : CoreError} {x : Except CoreError Unit} :
    (if c then Except.error e else x) = .ok () ↔ ¬c ∧ x = .ok () := by
  by_cases hc : c <;> simp [hc]

theorem seq_ok {α : Type} {x : Except CoreError Unit} {y : Except CoreError α} {a : α} :
    (do x; y) = .ok a ↔ x = .ok () ∧ y = .ok a := by
  cases x with
  | error e =>
    constructor
    · intro h
      cases h
    · intro h
      cases h.1
  | ok u => exact ⟨fun h ↦ ⟨rfl, h⟩, fun h ↦ h.2⟩

theorem checkBind_ok {field value : String} :
    checkBind printable field value = .ok () ↔ (Lib.Net.parse value).isSome = true := by
  rw [checkBind, guard_ok]
  cases Lib.Net.parse value <;> simp

theorem checkBootloader_ok {field value : String} :
    checkBootloader field value = .ok () ↔ blank value = false := by
  rw [checkBootloader, guard_ok]
  simp

theorem checkHosts_ok {seenMacs seenNames : List String} {hosts : List HostConfig} :
    checkHosts printable seenMacs seenNames hosts = .ok () ↔
      (∀ h ∈ hosts, isValidMac h.mac = true ∧ h.mac ∉ seenMacs ∧ blank h.name = false ∧
        h.name ∉ seenNames) ∧
      (hosts.map HostConfig.mac).Nodup ∧ (hosts.map HostConfig.name).Nodup := by
  induction hosts generalizing seenMacs seenNames with
  | nil => simp [checkHosts]
  | cons host rest ih =>
    rw [checkHosts, guard_ok, guard_ok, guard_ok, guard_ok, ih]
    simp only [List.mem_cons, List.map_cons, List.nodup_cons, List.mem_map, not_or]
    constructor
    · rintro ⟨hmac, hseen, hname, hseen', hall, hmacs, hnames⟩
      refine ⟨?_, ⟨?_, hmacs⟩, ?_, hnames⟩
      · rintro h (rfl | hmem)
        · exact ⟨by simpa using hmac, hseen, by simpa using hname, hseen'⟩
        · obtain ⟨h₁, h₂, h₃, h₄⟩ := hall h hmem
          exact ⟨h₁, h₂.2, h₃, h₄.2⟩
      · rintro ⟨h, hmem, heq⟩
        exact (hall h hmem).2.1.1 heq
      · rintro ⟨h, hmem, heq⟩
        exact (hall h hmem).2.2.2.1 heq
    · rintro ⟨hall, ⟨hmac, hmacs⟩, hname, hnames⟩
      obtain ⟨h₁, h₂, h₃, h₄⟩ := hall host (.inl rfl)
      refine ⟨by simp [h₁], h₂, by simp [h₃], h₄, fun h hmem ↦ ?_, hmacs, hnames⟩
      obtain ⟨h₁, h₂, h₃, h₄⟩ := hall h (.inr hmem)
      exact ⟨h₁, ⟨fun heq ↦ hmac ⟨h, hmem, heq⟩, h₂⟩, h₃, fun heq ↦ hname ⟨h, hmem, heq⟩, h₄⟩

theorem validate_ok {config : Config} : config.validate printable = .ok () ↔ config.Valid := by
  simp only [validate, seq_ok, checkBind_ok, checkBootloader_ok, checkApiToken,
    checkMaxArtifactBytes, guard_ok, checkHosts_ok, and_true]
  constructor
  · rintro ⟨h₁, h₂, h₃, h₄, h₅, h₆, h₇, h₈, hall, hmacs, hnames⟩
    refine ⟨?_, ?_, h₇, h₈, fun h hm ↦ (hall h hm).1, hmacs, fun h hm ↦ (hall h hm).2.2.1, hnames⟩
    · simpa using ⟨h₁, h₂, h₃⟩
    · simpa using ⟨h₄, h₅, h₆⟩
  · rintro ⟨hbinds, hboot, h₇, h₈, hmac, hmacs, hname, hnames⟩
    simp only [List.mem_cons, List.not_mem_nil, or_false, forall_eq_or_imp, forall_eq]
      at hbinds hboot
    obtain ⟨h₁, h₂, h₃⟩ := hbinds
    obtain ⟨h₄, h₅, h₆⟩ := hboot
    exact ⟨h₁, h₂, h₃, h₄, h₅, h₆, h₇, h₈,
      fun h hm ↦ ⟨hmac h hm, List.not_mem_nil, hname h hm, List.not_mem_nil⟩, hmacs, hnames⟩

theorem load_ok {fromStr : String → Option Config} {content : Option String} {config : Config} :
    load printable fromStr content = .ok config ↔
      ∃ text raw, content = some text ∧ fromStr text = some raw ∧ config = raw.normalizeMacs ∧
        config.Valid := by
  cases content with
  | none => simp [load]
  | some text =>
    cases hraw : fromStr text with
    | none => simp [load, hraw]
    | some raw =>
      simp only [load, hraw, seq_ok, validate_ok, Option.some.injEq, Except.ok.injEq]
      constructor
      · rintro ⟨hvalid, rfl⟩
        exact ⟨text, raw, rfl, hraw, rfl, hvalid⟩
      · rintro ⟨_, _, rfl, h, rfl, hvalid⟩
        obtain rfl := Option.some.inj (hraw.symm.trans h)
        exact ⟨hvalid, rfl⟩

/-- The decoder on one file: it takes `text` for `raw` and knows no other text. -/
def reads (text : String) (raw : Config) (content : String) : Option Config :=
  if content = text then some raw else none

theorem load_reads (text : String) (raw : Config) :
    load printable (reads text raw) (some text) =
      (do raw.normalizeMacs.validate printable; .ok raw.normalizeMacs) := by
  simp only [load, reads, if_pos]

def serverYaml (root amd64 arm64 : String) : String :=
  "server:\n  http_bind: 0.0.0.0:8080\n  tftp_bind: 0.0.0.0:69\n  tftp_root: " ++ root ++
    "\n  proxy_dhcp_bind: 0.0.0.0:4011\n  cache_dir: /cache\n  default_bootloader_amd64: " ++
    amd64 ++ "\n  default_bootloader_arm64: " ++ arm64 ++ "\n"

def hostYaml (mac name imagePath : String) : String :=
  "  - mac: \"" ++ mac ++ "\"\n    name: " ++ name ++ "\n    image_path: " ++ imagePath ++ "\n"

end Config

end BootyCall.Core
