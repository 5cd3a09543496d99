import BootyCall.Dhcp.Server
import BootyCall.Tftp.Listener

namespace BootyCall.Fleet.BootName

open BootyCall.Core Mac Path State Dhcp.Server Tftp.Listener

variable (config : Config) (fs : FileSystem) (hosts : List HostState)

def override (mac : String) : Option String := (config.findHost mac).bind HostConfig.bootloader

def handedFile (mac : String) (arch : Option UInt16) : Option PathBuf :=
  safeJoin fs config.server.tftpRoot (bootloaderPath config mac arch)

/-- TFTP resolves both the name handed out and the default of the client's architecture to the
file that belongs to the name handed out. -/
def Agrees (clientIp mac : String) (arch : Option UInt16) : Prop :=
  resolvedFilePath config fs hosts clientIp (bootloaderPath config mac arch) =
      handedFile config fs mac arch ∧
    resolvedFilePath config fs hosts clientIp (selectDefaultBootloader config.server arch) =
      handedFile config fs mac arch

variable {config fs hosts} {hs : HostState} {mac clientIp : String}

theorem customBootloader_eq (hmac : hs.mac = normalizeMac mac) :
    customBootloader config hs = override config mac := by
  rw [customBootloader, override, hmac, Config.findHost_normalizeMac]

theorem finalFilename_none (hmac : hs.mac = normalizeMac mac) (ho : override config mac = none)
    (filename : String) : finalFilename config (some hs) filename = filename := by
  rw [finalFilename, Option.bind_some, customBootloader_eq hmac, ho]

theorem finalFilename_some (hmac : hs.mac = normalizeMac mac) {custom : String}
    (ho : override config mac = some custom) (filename : String) :
    finalFilename config (some hs) filename =
      if isDefaultRequest config filename then custom else filename := by
  rw [finalFilename, Option.bind_some, customBootloader_eq hmac, ho]

theorem isDefaultRequest_select (config : Config) (arch : Option UInt16) :
    isDefaultRequest config (selectDefaultBootloader config.server arch) = true ↔
      arch ≠ some archBiosX86 ∨
        config.server.defaultBootloaderBios = config.server.defaultBootloaderAmd64 ∨
        config.server.defaultBootloaderBios = config.server.defaultBootloaderArm64 := by
  have harm : archArm64 ≠ archBiosX86 := by decide
  rw [selectDefaultBootloader, isDefaultRequest, Bool.or_eq_true, beq_iff_eq, beq_iff_eq]
  split
  · next h => simp [h, harm]
  · split
    · next h => simp [h]
    · next h => simp [h]

theorem agrees_none (hip : hostByIp hosts clientIp = some hs) (hmac : hs.mac = normalizeMac mac)
    (ho : override config mac = none) (arch : Option UInt16) :
    Agrees config fs hosts clientIp mac arch := by
  have hpath : bootloaderPath config mac arch = selectDefaultBootloader config.server arch := by
    rw [override] at ho
    rw [bootloaderPath, ho]
  rw [Agrees, resolvedFilePath, resolvedFilePath, hip, finalFilename_none hmac ho,
    finalFilename_none hmac ho, handedFile, hpath]
  exact ⟨rfl, rfl⟩

theorem agrees_some (hip : hostByIp hosts clientIp = some hs) (hmac : hs.mac = normalizeMac mac)
    {custom : String} (ho : override config mac = some custom) (arch : Option UInt16) :
    Agrees config fs hosts clientIp mac arch ↔
      isDefaultRequest config (selectDefaultBootloader config.server arch) = true ∨
        safeJoin fs config.server.tftpRoot (selectDefaultBootloader config.server arch) =
          safeJoin fs config.server.tftpRoot custom := by
  have hpath : bootloaderPath config mac arch = custom := by
    rw [override] at ho
    rw [bootloaderPath, ho]
  have hsame : (if isDefaultRequest config custom then custom else custom) = custom :=
    ite_self _
  rw [Agrees, resolvedFilePath, resolvedFilePath, hip, finalFilename_some hmac ho,
    finalFilename_some hmac ho, handedFile, hpath, hsame]
  by_cases hdef : isDefaultRequest config (selectDefaultBootloader config.server arch) = true
  · simp [hdef]
  · simp [hdef]

theorem redirected_iff (hmac : hs.mac = normalizeMac mac) {custom : String}
    (ho : override config mac = some custom) :
    (∀ arch, finalFilename config (some hs) (selectDefaultBootloader config.server arch) =
        custom) ↔
      config.server.defaultBootloaderBios = config.server.defaultBootloaderAmd64 ∨
        config.server.defaultBootloaderBios = config.server.defaultBootloaderArm64 ∨
        config.server.defaultBootloaderBios = custom := by
  have hbios : selectDefaultBootloader config.server (some archBiosX86) =
      config.server.defaultBootloaderBios := rfl
  simp only [finalFilename_some hmac ho]
  constructor
  · intro hall
    have hb := hall (some archBiosX86)
    have hdef := (isDefaultRequest_select config (some archBiosX86)).mp
    rw [hbios] at hb hdef
    split at hb
    · next h =>
      rcases hdef h with h | h | h
      · exact absurd rfl h
      · exact .inl h
      · exact .inr (.inl h)
    · exact .inr (.inr hb)
  · intro hknown arch
    split
    · rfl
    · next hdef =>
      obtain ⟨harch, hne⟩ := not_or.mp (mt (isDefaultRequest_select config arch).mpr hdef)
      obtain ⟨hne₁, hne₂⟩ := not_or.mp hne
      rw [not_not.mp harch, hbios]
      exact (hknown.resolve_left hne₁).resolve_left hne₂

/-- DHCP and TFTP agree on the file of a host with its own bootloader unless the client is a
legacy BIOS one and its default is unknown to the TFTP server; without one, no request is
redirected. -/
theorem bootloader_agreement (config : Config) (fs : FileSystem) (hosts : List HostState)
    (clientIp mac : String) (hs : HostState) (hip : hostByIp hosts clientIp = some hs)
    (hmac : hs.mac = normalizeMac mac) :
    (∀ arch, Agrees config fs hosts clientIp mac arch ↔
      ∀ custom, override config mac = some custom → arch = some archBiosX86 →
        config.server.defaultBootloaderBios = config.server.defaultBootloaderAmd64 ∨
        config.server.defaultBootloaderBios = config.server.defaultBootloaderArm64 ∨
        safeJoin fs config.server.tftpRoot config.server.defaultBootloaderBios =
          safeJoin fs config.server.tftpRoot custom) ∧
    (∀ custom, override config mac = some custom →
      ((∀ arch, finalFilename config (some hs) (selectDefaultBootloader config.server arch) =
          custom) ↔
        config.server.defaultBootloaderBios = config.server.defaultBootloaderAmd64 ∨
        config.server.defaultBootloaderBios = config.server.defaultBootloaderArm64 ∨
        config.server.defaultBootloaderBios = custom)) ∧
    (override config mac = none →
      ∀ filename, finalFilename config (some hs) filename = filename) := by
  refine ⟨fun arch ↦ ?_, fun custom ho ↦ redirected_iff hmac ho,
    fun ho ↦ finalFilename_none hmac ho⟩
  cases ho : override config mac with
  | none => simp [agrees_none hip hmac ho]
  | some custom =>
    have hbios : selectDefaultBootloader config.server (some archBiosX86) =
        config.server.defaultBootloaderBios := rfl
    rw [agrees_some hip hmac ho, isDefaultRequest_select]
    by_cases harch : arch = some archBiosX86
    · subst harch
      rw [hbios]
      simp [or_assoc]
    · simp [harch]

def biosHostConfig : HostConfig where
  mac := "aa:bb:cc:dd:ee:ff"
  name := "rack1"
  imagePath := "/img"
  bootloader := some "boot"
  kernelPath := none
  initrdPath := none
  cmdline := none

def biosConfig : Config where
  server :=
    { httpBind := "0.0.0.0:8080"
      tftpBind := "0.0.0.0:69"
      tftpRoot := .ofString "/srv"
      proxyDhcpBind := "0.0.0.0:4011"
      defaultBootloaderAmd64 := "ipxe.efi"
      defaultBootloaderArm64 := "arm64.efi"
      defaultBootloaderBios := "undionly.kpxe" }
  hosts := [biosHostConfig]

def biosHost : HostState :=
  { HostState.fresh 0 "aa:bb:cc:dd:ee:ff" .polling with clientIp := some "10.0.0.9" }

theorem bootloader_agreement_amd64 :
    Agrees biosConfig sample [biosHost] "10.0.0.9" "AA-BB-CC-DD-EE-FF" (some 7) :=
  ((bootloader_agreement biosConfig sample [biosHost] "10.0.0.9" "AA-BB-CC-DD-EE-FF" biosHost
    rfl (by decide)).1 (some 7)).mpr fun _ _ h ↦ absurd h (by decide)

theorem bios_default_not_redirected :
    ¬Agrees biosConfig sample [biosHost] "10.0.0.9" "aa:bb:cc:dd:ee:ff" (some archBiosX86) := by
  rw [Agrees]
  decide

end BootyCall.Fleet.BootName
