import BootyCall.Dhcp.Server
import BootyCall.Lib.Utf8

namespace BootyCall.Fleet.Handout

open BootyCall.Core Mac Path State Dhcp.Server

/-- The part of `safe_join` that looks at the text of the request only. -/
def lexicallyAccepted (name : String) : Bool :=
  !(PathBuf.ofString (normalize name)).components.any rejected

/-- No slash in front and no `..` between slashes, a backslash counting as a slash. -/
def Plain (name : String) : Prop :=
  let cs := (normalize name).toList
  cs.head? ≠ some '/' ∧ ['.', '.'] ∉ cs.splitOn '/'

theorem safeJoin_refused {name : String} (h : lexicallyAccepted name = false) (fs : FileSystem)
    (root : PathBuf) : safeJoin fs root name = none := by
  rw [lexicallyAccepted, Bool.not_eq_false'] at h
  simp only [safeJoin, h, if_true]

theorem osString_eq_nil {cs : List Char} : osString cs = [] ↔ cs = [] := by
  cases cs <;> simp [osString]

theorem osString_eq_dotDot {cs : List Char} : osString cs = dotDot ↔ cs = ['.', '.'] := by
  have hdot : ('.').toNat < 128 := by decide
  constructor
  · intro h
    match cs with
    | [] => cases h
    | [c] => exact absurd (Lib.Utf8.eq_of_ascii_append hdot h).2 (by simp)
    | c :: d :: rest =>
      obtain ⟨rfl, h'⟩ := Lib.Utf8.eq_of_ascii_append hdot h
      obtain ⟨rfl, h''⟩ := Lib.Utf8.eq_of_ascii_append hdot h'
      rw [osString_eq_nil.mp h'']
  · rintro rfl
    rfl

theorem component_rejected {n : OsString} {c : Component} (h : PathBuf.component n = some c) :
    rejected c = decide (n = dotDot) := by
  rw [PathBuf.component] at h
  split_ifs at h with hcur hup
  · obtain rfl := Option.some.inj h
    simp [rejected, hup]
  · obtain rfl := Option.some.inj h
    simp [rejected, hup]

theorem isAbsolute_ofString (s : String) :
    (PathBuf.ofString s).isAbsolute = decide (s.toList.head? = some '/') := by
  rw [PathBuf.isAbsolute, PathBuf.ofString, decide_eq_decide]
  cases hs : s.toList with
  | nil => simp [osString]
  | cons c cs =>
    have hne : (cs.splitOn '/').map osString ≠ [] := by simp [List.splitOn_ne_nil]
    rw [List.splitOn_cons_eq_if_modifyHead]
    by_cases hc : c = '/'
    · simp [hc, hne, osString]
    · obtain ⟨piece, pieces, hsplit⟩ := List.exists_cons_of_ne_nil (List.splitOn_ne_nil '/' cs)
      simp [hc, hsplit, osString_eq_nil]

theorem any_rejected (p : PathBuf) :
    p.components.any rejected = (p.isAbsolute || p.pieces.any fun n ↦ decide (n = dotDot)) := by
  rw [PathBuf.components, List.any_append, List.any_filterMap]
  congr 1
  · cases p.isAbsolute with
    | true => rfl
    | false =>
      rw [if_neg Bool.false_ne_true]
      split <;> rfl
  · congr 1
    funext n
    cases hn : PathBuf.component n with
    | some c => exact component_rejected hn
    | none =>
      rw [PathBuf.component] at hn
      split_ifs at hn with hcur
      rcases hcur with rfl | rfl <;> rfl

theorem lexicallyAccepted_iff (name : String) : lexicallyAccepted name = true ↔ Plain name := by
  rw [lexicallyAccepted, any_rejected, isAbsolute_ofString, Plain]
  simp [PathBuf.ofString, osString_eq_dotDot, List.forall_mem_ne']

def configuredNames (config : Config) : List String :=
  [config.server.defaultBootloaderAmd64, config.server.defaultBootloaderArm64,
    config.server.defaultBootloaderBios] ++ config.hosts.filterMap HostConfig.bootloader

theorem selectDefaultBootloader_mem (server : ServerConfig) (arch : Option UInt16) :
    selectDefaultBootloader server arch ∈ [server.defaultBootloaderAmd64,
      server.defaultBootloaderArm64, server.defaultBootloaderBios] := by
  rw [selectDefaultBootloader]
  split_ifs <;> simp

theorem bootloaderPath_mem (config : Config) (mac : String) (arch : Option UInt16) :
    bootloaderPath config mac arch ∈ configuredNames config := by
  rw [bootloaderPath]
  split
  · next custom ho =>
    obtain ⟨host, hfind, hcustom⟩ := Option.bind_eq_some_iff.mp ho
    exact List.mem_append_right _
      (List.mem_filterMap.mpr ⟨host, List.mem_of_find?_eq_some hfind, hcustom⟩)
  · exact List.mem_append_left _ (selectDefaultBootloader_mem config.server arch)

theorem onMessage_reply {config : Config} {now : SystemTime} {src : Option Ipv4Addr}
    {ourIp : Ipv4Addr} {request : Message} {store : StateStore} {reply : Reply}
    (h : (onMessage config now src ourIp request store).2 = some reply) :
    ∃ mac, clientMac request = some mac ∧
      reply.bootfileName = bootloaderPath config mac request.architecture := by
  rw [onMessage] at h
  split at h
  · next mac msgType hmac _ =>
    obtain rfl := Option.some.inj h
    exact ⟨mac, hmac, rfl⟩
  · cases h

/-- A reply names the override of the client's host, or else the default of its architecture,
which is not blank. The validator does not look at paths: the name is one that the TFTP server
takes exactly if it neither is absolute nor climbs. -/
theorem handed_names (printable : Char → Bool) (fromStr : String → Option Config)
    (content : Option String) (config : Config)
    (h : Config.load printable fromStr content = .ok config) (now : SystemTime)
    (src : Option Ipv4Addr) (ourIp : Ipv4Addr) (request : Message) (store : StateStore)
    (reply : Reply) (hr : (onMessage config now src ourIp request store).2 = some reply) :
    ∃ mac, clientMac request = some mac ∧
      (∀ custom, (config.findHost mac).bind HostConfig.bootloader = some custom →
        reply.bootfileName = custom) ∧
      ((config.findHost mac).bind HostConfig.bootloader = none →
        reply.bootfileName = selectDefaultBootloader config.server request.architecture ∧
          blank reply.bootfileName = false) ∧
      reply.bootfileName ∈ configuredNames config ∧
      (lexicallyAccepted reply.bootfileName = true ↔ Plain reply.bootfileName) ∧
      (lexicallyAccepted reply.bootfileName = false →
        ∀ fs, safeJoin fs config.server.tftpRoot reply.bootfileName = none) := by
  obtain ⟨_, _, _, _, _, hvalid⟩ := (Config.load_ok printable).mp h
  obtain ⟨mac, hmac, hname⟩ := onMessage_reply hr
  refine ⟨mac, hmac, fun custom ho ↦ ?_, fun ho ↦ ?_, ?_, lexicallyAccepted_iff _,
    fun hrefused fs ↦ safeJoin_refused hrefused fs _⟩
  · rw [hname, bootloaderPath, ho]
  · have hdefault : reply.bootfileName =
        selectDefaultBootloader config.server request.architecture := by
      rw [hname, bootloaderPath, ho]
    refine ⟨hdefault, ?_⟩
    rw [hdefault]
    exact hvalid.bootloaders _ (selectDefaultBootloader_mem _ _)
  · rw [hname]
    exact bootloaderPath_mem config mac _

def siblingConfig : Config where
  server :=
    { httpBind := "0.0.0.0:8080"
      tftpBind := "0.0.0.0:69"
      tftpRoot := .ofString "/srv"
      proxyDhcpBind := "0.0.0.0:4011"
      defaultBootloaderAmd64 := "../ipxe.efi"
      defaultBootloaderArm64 := "boot/arm64/ipxe.efi" }
  hosts := []

def siblingYaml : String :=
  Config.serverYaml "/srv" "../ipxe.efi" "boot/arm64/ipxe.efi" ++ "hosts: []\n"

def discover (arch : UInt16) : Message where
  codes := ⟨7, 9⟩
  chaddr := [0x52, 0x54, 0, 0x10, 0x10, 0x10]
  ciaddr := unspecified
  classIdentifier := some (Tftp.Wire.asBytes "PXEClient")
  architecture := some arch
  msgType := some .discover

theorem handed_names_arm64 : blank "boot/arm64/ipxe.efi" = false := by
  obtain ⟨mac, -, -, hdefault, -⟩ := handed_names (fun _ ↦ true)
    (Config.reads siblingYaml siblingConfig) (some siblingYaml) siblingConfig
    (Config.load_reads _ _ _) 0 none unspecified (discover archArm64) {}
    ⟨.offer, unspecified, "boot/arm64/ipxe.efi"⟩ rfl
  exact (hdefault rfl).2

/-- A default that climbs passes validation and is handed out, but not served. -/
theorem sibling_refused :
    Config.load (fun _ ↦ true) (Config.reads siblingYaml siblingConfig) (some siblingYaml) =
        .ok siblingConfig ∧
      ((onMessage siblingConfig 0 none unspecified (discover 7) {}).2.map
        Reply.bootfileName) = some "../ipxe.efi" ∧
      lexicallyAccepted "../ipxe.efi" = false :=
  ⟨Config.load_reads _ _ _, by decide, by decide⟩

end BootyCall.Fleet.Handout
