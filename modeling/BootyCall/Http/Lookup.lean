import BootyCall.Core.Spelling
import BootyCall.Http.Server

namespace BootyCall.Http.Lookup

open BootyCall.Core Mac State Config Spelling Server

/-- A list of hosts as the file has it, in which MACs and names tell the hosts apart. -/
structure Unambiguous (hosts : List HostConfig) : Prop where
  macs : ∀ h ∈ hosts, ∃ bytes, normalizeMac h.mac = formatMac bytes
  distinctMacs : (hosts.map fun h ↦ normalizeMac h.mac).Nodup
  names : ∀ h ∈ hosts, ∃ c ∈ h.name.toList, isWhitespace c = false
  distinctNames : (hosts.map HostConfig.name).Nodup

def normalized (h : HostConfig) : HostConfig := { h with mac := normalizeMac h.mac }

variable {printable : Char → Bool} {raw : Config} {h : HostConfig} {s : String}

theorem hosts_normalizeMacs (raw : Config) : raw.normalizeMacs.hosts = raw.hosts.map normalized :=
  rfl

@[simp]
theorem normalized_mac (h : HostConfig) : (normalized h).mac = normalizeMac h.mac := rfl

@[simp]
theorem normalized_name (h : HostConfig) : (normalized h).name = h.name := rfl

theorem map_mac_normalized (hosts : List HostConfig) :
    (hosts.map normalized).map HostConfig.mac = hosts.map fun h ↦ normalizeMac h.mac := by
  simp only [List.map_map, Function.comp_def, normalized_mac]

theorem map_name_normalized (hosts : List HostConfig) :
    (hosts.map normalized).map HostConfig.name = hosts.map HostConfig.name := by
  simp only [List.map_map, Function.comp_def, normalized_name]

theorem blank_iff {s : String} : blank s = true ↔ ∀ c ∈ s.toList, isWhitespace c = true := by
  rw [blank, List.isEmpty_iff]
  constructor
  · intro h
    obtain ⟨before, after, hsplit, hspace⟩ := trim_split s.toList
    rw [h, List.append_nil] at hsplit
    rw [hsplit]
    exact hspace
  · intro h
    rw [trim, List.dropWhile_eq_nil_iff.mpr h, List.rdropWhile_nil]

theorem blank_eq_false {s : String} :
    blank s = false ↔ ∃ c ∈ s.toList, isWhitespace c = false := by
  rw [← Bool.not_eq_true, blank_iff]
  simp only [not_forall, exists_prop, Bool.not_eq_true]

theorem checkHosts_iff :
    checkHosts printable [] [] raw.normalizeMacs.hosts = .ok () ↔ Unambiguous raw.hosts := by
  rw [checkHosts_ok, hosts_normalizeMacs, map_mac_normalized, map_name_normalized]
  constructor
  · rintro ⟨hall, hmacs, hnames⟩
    refine ⟨?_, hmacs, ?_, hnames⟩
    · intro h hh
      have hmac := (hall (normalized h) (List.mem_map_of_mem hh)).1
      rwa [normalized_mac, isValidMac_iff] at hmac
    · intro h hh
      have hname := (hall (normalized h) (List.mem_map_of_mem hh)).2.2.1
      rwa [normalized_name, blank_eq_false] at hname
  · intro h
    refine ⟨?_, h.distinctMacs, h.distinctNames⟩
    intro host hhost
    obtain ⟨g, hg, rfl⟩ := List.mem_map.mp hhost
    rw [normalized_mac, normalized_name, isValidMac_iff, blank_eq_false]
    exact ⟨h.macs g hg, List.not_mem_nil, h.names g hg, List.not_mem_nil⟩

theorem validate_iff :
    raw.validate printable = .ok () ↔
      ({ raw with hosts := [] } : Config).validate printable = .ok () ∧
        checkHosts printable [] [] raw.hosts = .ok () := by
  simp only [validate, seq_ok, checkHosts, and_true, and_assoc]

theorem load_isOk_iff {fromStr : String → Option Config} {text : String}
    (hraw : fromStr text = some raw) :
    (∃ config, load printable fromStr (some text) = .ok config) ↔
      ({ raw with hosts := [] } : Config).validate printable = .ok () ∧
        Unambiguous raw.hosts := by
  have hvalidate : raw.normalizeMacs.validate printable = .ok () ↔
      ({ raw with hosts := [] } : Config).validate printable = .ok () ∧
        Unambiguous raw.hosts := validate_iff.trans (and_congr_right fun _ ↦ checkHosts_iff)
  simp only [load, hraw, seq_ok]
  rw [← hvalidate]
  constructor
  · rintro ⟨config, h, -⟩
    exact h
  · intro h
    exact ⟨raw.normalizeMacs, h, rfl⟩

theorem find?_of_nodup {α β : Type} [DecidableEq β] {l : List α} {key : α → β}
    (hl : (l.map key).Nodup) {a : α} (ha : a ∈ l) :
    l.find? (fun b ↦ key b == key a) = some a := by
  cases hfind : l.find? fun b ↦ key b == key a with
  | none => exact absurd (List.find?_eq_none.mp hfind a ha) (by simp)
  | some b =>
    have hkey : key b = key a := by simpa using List.find?_some hfind
    rw [List.inj_on_of_nodup_map hl (List.mem_of_find?_eq_some hfind) ha hkey]

theorem findHost_of_spelling (hhosts : Unambiguous raw.hosts) (hh : h ∈ raw.hosts)
    (hs : normalizeMac s = normalizeMac h.mac) :
    raw.normalizeMacs.findHost s = some (normalized h) := by
  have hmacs : (raw.normalizeMacs.hosts.map HostConfig.mac).Nodup := by
    rw [hosts_normalizeMacs, map_mac_normalized]
    exact hhosts.distinctMacs
  rw [findHost, hs, ← normalized_mac]
  exact find?_of_nodup hmacs (List.mem_map_of_mem hh)

theorem findHost_of_unknown (hs : ∀ h ∈ raw.hosts, normalizeMac s ≠ normalizeMac h.mac) :
    raw.normalizeMacs.findHost s = none := by
  rw [findHost, List.find?_eq_none, hosts_normalizeMacs]
  intro host hhost
  obtain ⟨h, hh, rfl⟩ := List.mem_map.mp hhost
  rw [normalized_mac, beq_iff_eq]
  exact (hs h hh).symm

theorem find_name (hhosts : Unambiguous raw.hosts) (hh : h ∈ raw.hosts) :
    raw.normalizeMacs.hosts.find? (fun g ↦ g.name == h.name) = some (normalized h) := by
  have hnames : (raw.normalizeMacs.hosts.map HostConfig.name).Nodup := by
    rw [hosts_normalizeMacs, map_name_normalized]
    exact hhosts.distinctNames
  rw [← normalized_name]
  exact find?_of_nodup hnames (List.mem_map_of_mem hh)

/-- Beyond the checks of the server section a parsed file is accepted exactly if its MACs and
names tell the hosts apart, and then every lookup by MAC or by name finds the host meant. -/
theorem lookup_unambiguous (printable : Char → Bool) (fromStr : String → Option Config)
    (text : String) (raw : Config) (hraw : fromStr text = some raw) :
    (checkHosts printable [] [] raw.normalizeMacs.hosts = .ok () ↔ Unambiguous raw.hosts) ∧
    ((∃ config, load printable fromStr (some text) = .ok config) ↔
      ({ raw with hosts := [] } : Config).validate printable = .ok () ∧
        Unambiguous raw.hosts) ∧
    ∀ config, load printable fromStr (some text) = .ok config →
      (∀ s, (∀ h ∈ raw.hosts, normalizeMac s ≠ normalizeMac h.mac) → config.findHost s = none) ∧
      ∀ h ∈ raw.hosts,
        (∀ s, normalizeMac s = normalizeMac h.mac →
          config.findHost s = some { h with mac := normalizeMac h.mac }) ∧
        config.hosts.find? (fun g ↦ g.name == h.name) =
          some { h with mac := normalizeMac h.mac } ∧
        ∀ store mac hs, store.getHost mac = some hs → hs.assignedTarget = some h.name →
          assignedTarget config store mac = some { h with mac := normalizeMac h.mac } := by
  refine ⟨checkHosts_iff, load_isOk_iff hraw, ?_⟩
  intro config hload
  obtain ⟨-, hhosts⟩ := (load_isOk_iff hraw).mp ⟨config, hload⟩
  obtain ⟨_, raw', htext, hraw', rfl, -⟩ := (load_ok printable).mp hload
  obtain rfl := Option.some.inj htext
  obtain rfl := Option.some.inj (hraw.symm.trans hraw')
  refine ⟨fun s hs ↦ findHost_of_unknown hs, ?_⟩
  intro h hh
  have hname := find_name hhosts hh
  refine ⟨fun s hs ↦ findHost_of_spelling hhosts hh hs, hname, ?_⟩
  intro store mac hs hget htarget
  simp only [assignedTarget, hget, htarget, Option.bind_eq_bind, Option.bind_some]
  exact hname

def sampleHost (mac name : String) : HostConfig where
  mac := mac
  name := name
  imagePath := "/img"
  bootloader := none
  kernelPath := none
  initrdPath := none
  cmdline := none

def sampleConfig : Config where
  server :=
    { httpBind := "0.0.0.0:8080"
      tftpBind := "0.0.0.0:69"
      tftpRoot := .ofString "/srv"
      proxyDhcpBind := "0.0.0.0:4011"
      defaultBootloaderAmd64 := "ipxe.efi"
      defaultBootloaderArm64 := "arm64.efi" }
  hosts := [sampleHost "AA-BB-CC-00-00-01" "rack", sampleHost " aa:bb:cc:00:00:02" "shelf"]

def sampleYaml : String :=
  serverYaml "/srv" "ipxe.efi" "arm64.efi" ++ "hosts:\n" ++
    hostYaml "AA-BB-CC-00-00-01" "rack" "/img" ++ hostYaml " aa:bb:cc:00:00:02" "shelf" "/img"

theorem lookup_unambiguous_sample :
    sampleConfig.normalizeMacs.findHost "aa:BB:cc:00-00-02 " =
        some (sampleHost "aa:bb:cc:00:00:02" "shelf") ∧
      sampleConfig.normalizeMacs.findHost "aa:bb:cc:00:00:03" = none := by
  obtain ⟨-, -, hload⟩ := lookup_unambiguous (fun _ ↦ true)
    (reads sampleYaml sampleConfig) sampleYaml sampleConfig (if_pos rfl)
  obtain ⟨hnone, hsome⟩ := hload sampleConfig.normalizeMacs (load_reads _ _ _)
  have hshelf := (hsome (sampleHost " aa:bb:cc:00:00:02" "shelf")
    (List.mem_cons_of_mem _ List.mem_cons_self)).1 "aa:BB:cc:00-00-02 " (by decide +kernel)
  have hmac : normalizeMac (sampleHost " aa:bb:cc:00:00:02" "shelf").mac =
      "aa:bb:cc:00:00:02" := by decide +kernel
  rw [hmac] at hshelf
  exact ⟨hshelf, hnone "aa:bb:cc:00:00:03" (by decide +kernel)⟩

end BootyCall.Http.Lookup
