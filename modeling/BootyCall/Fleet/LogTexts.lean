import BootyCall.Core.Lossy
import BootyCall.Fleet.Handout
import BootyCall.Http.Server
import BootyCall.Lib.Markup
import BootyCall.Tftp.Handling

namespace BootyCall.Fleet.LogTexts

open BootyCall.Core Mac Path State Lib.Markup Lib.FileTree Dhcp.Server Http.Server Tftp.Listener
  Tftp.Handling

def lessThan : UInt8 := 60

def CleanPath (p : PathBuf) : Prop := ∀ n ∈ p.pieces, lessThan ∉ n

def CleanNames (fs : FileSystem) : Prop := ∀ node ∈ fs.tree.nodes, ∀ n ∈ node.1, lessThan ∉ n

/-- The operator's texts have no less-than sign. -/
structure CleanConfig (config : Config) : Prop where
  bootloaders : ∀ name ∈ Handout.configuredNames config, Clean name
  tftpRoot : CleanPath config.server.tftpRoot

structure CleanMark (m : Mark) : Prop where
  level : Clean m.level
  message : Clean m.message

theorem mem_intercalate {α : Type} {a : α} {sep : List α} {ls : List (List α)}
    (h : a ∈ sep.intercalate ls) : a ∈ sep ∨ ∃ l ∈ ls, a ∈ l := by
  induction ls with
  | nil => cases h
  | cons l ls ih =>
    cases ls with
    | nil =>
      rw [List.intercalate_singleton] at h
      exact .inr ⟨l, List.mem_cons_self, h⟩
    | cons l' ls =>
      rw [List.intercalate_cons_cons, List.mem_append, List.mem_append] at h
      rcases h with (h | h) | h
      · exact .inr ⟨l, List.mem_cons_self, h⟩
      · exact .inl h
      · rcases ih h with h | ⟨l₀, hl₀, h⟩
        · exact .inl h
        · exact .inr ⟨l₀, List.mem_cons_of_mem _ hl₀, h⟩

theorem mem_intercalate_of_mem {α : Type} {a : α} {sep l : List α} {ls : List (List α)}
    (hl : l ∈ ls) (h : a ∈ l) : a ∈ sep.intercalate ls := by
  induction ls with
  | nil => cases hl
  | cons l' ls ih =>
    cases ls with
    | nil =>
      obtain rfl := List.mem_singleton.mp hl
      rwa [List.intercalate_singleton]
    | cons l'' ls =>
      rw [List.intercalate_cons_cons, List.mem_append, List.mem_append]
      rcases List.mem_cons.mp hl with rfl | hl
      · exact .inl (.inl h)
      · exact .inr (ih hl)

theorem clean_toString (n : ℕ) : Clean (toString n) := by
  rw [Clean, Nat.toString_eq_repr, Nat.toList_repr]
  intro h
  have hdigit := Nat.isDigit_of_mem_toDigits (by decide) (by decide) h
  exact absurd hdigit (by decide)

theorem clean_ipString (ip : Ipv4Addr) : Clean (ipString ip) := by
  rw [Clean, ipString, String.toList_intercalate]
  intro h
  rcases mem_intercalate h with h | ⟨l, hl, h⟩
  · exact absurd h (by decide)
  · obtain ⟨s, hs, rfl⟩ := List.mem_map.mp hl
    obtain ⟨b, -, rfl⟩ := List.mem_map.mp hs
    exact clean_toString b.toNat h

theorem clean_archStr (codes : ArchCodes) (arch : Option UInt16) :
    Clean (archStr codes arch) := by
  cases arch with
  | none =>
    simp only [archStr]
    decide
  | some a =>
    simp only [archStr]
    split_ifs <;> decide

theorem clean_info : Clean "INFO" := by decide

theorem clean_error : Clean "ERROR" := by decide

theorem clean_of_isValidMac {mac : String} (h : isValidMac mac = true) : Clean mac := by
  intro hmem
  have hbounds := toNat_of_isValidMac h hmem
  have hlt : '<'.toNat = 60 := rfl
  omega

section Paths

variable {fs : FileSystem} {p q root : PathBuf} {s : String}

theorem clean_display (h : CleanPath p) : Clean (display p) := by
  rw [Clean, display, String.toList_ofList]
  intro hmem
  have hbyte := Lossy.mem_of_mem_fromUtf8Lossy (by decide) hmem
  rcases mem_intercalate hbyte with hsep | ⟨n, hn, hbyte⟩
  · exact absurd hsep (by decide)
  · exact h n hn hbyte

theorem mem_of_mem_osString {cs : List Char} (h : lessThan ∈ osString cs) : '<' ∈ cs := by
  obtain ⟨c, hc, hbyte⟩ := List.mem_flatMap.mp h
  have hnat := Lib.Utf8.toNat_of_mem_utf8EncodeChar (by decide) hbyte
  obtain rfl : c = '<' := Char.toNat_inj.mp hnat
  exact hc

theorem cleanPath_ofString (h : Clean s) : CleanPath (.ofString s) := by
  intro n hn hbyte
  obtain ⟨cs, hcs, rfl⟩ := List.mem_map.mp hn
  have hmem : '<' ∈ ['/'].intercalate (s.toList.splitOn '/') :=
    mem_intercalate_of_mem hcs (mem_of_mem_osString hbyte)
  rw [List.intercalate_splitOn] at hmem
  exact h hmem

theorem clean_normalize (h : Clean s) : Clean (normalize s) := by
  rw [Clean, Path.normalize, String.toList_ofList, List.mem_map]
  rintro ⟨c, hc, heq⟩
  split at heq
  · exact absurd heq (by decide)
  · exact h (heq ▸ hc)

theorem cleanPath_join (hp : CleanPath p) (hq : CleanPath q) : CleanPath (p.join q) := by
  intro n hn
  rw [PathBuf.join] at hn
  split_ifs at hn
  · exact hq n hn
  · rcases List.mem_append.mp hn with hn | hn
    · exact hp n (List.dropLast_subset _ hn)
    · exact hq n hn
  · rcases List.mem_append.mp hn with hn | hn
    · exact hp n hn
    · exact hq n hn

theorem cleanPath_pathOf (h : CleanNames fs) {l : Loc OsString} (hl : fs.tree.Real l) :
    CleanPath (FileSystem.pathOf l) := by
  obtain ⟨e, he⟩ : ∃ e, fs.tree.entry l = some e := hl.elim (fun h ↦ ⟨_, h⟩) fun h ↦ ⟨_, h⟩
  have hnames := h _ (DirTree.mem_nodes_of_entry he)
  intro n hn
  rw [FileSystem.pathOf] at hn
  split at hn
  · have hnil : n = [] := by simpa using hn
    rw [hnil]
    exact List.not_mem_nil
  · rcases List.mem_cons.mp hn with rfl | hn
    · exact List.not_mem_nil
    · exact hnames n (List.mem_reverse.mp hn)

theorem cleanPath_safeJoin (hfs : CleanNames fs) (hroot : CleanPath root) {requested : String}
    (hs : Clean requested) (h : safeJoin fs root requested = some p) : CleanPath p := by
  obtain ⟨_, -, ⟨l, hl, -, rfl⟩ | ⟨rfl, -⟩⟩ := safeJoin_cases h
  · exact cleanPath_pathOf hfs hl
  · exact cleanPath_join hroot (cleanPath_ofString (clean_normalize hs))

end Paths

section Messages

variable {config : Config}

theorem clean_finalFilename (h : CleanConfig config) (host : Option HostState)
    {filename : String} (hf : Clean filename) : Clean (finalFilename config host filename) := by
  rw [finalFilename]
  split
  · next custom hcustom =>
    split
    · obtain ⟨hs, -, hcustom⟩ := Option.bind_eq_some_iff.mp hcustom
      obtain ⟨hc, hfind, hboot⟩ := Option.bind_eq_some_iff.mp hcustom
      exact h.bootloaders custom (List.mem_append_right _
        (List.mem_filterMap.mpr ⟨hc, List.mem_of_find?_eq_some hfind, hboot⟩))
    · exact hf
  · exact hf

theorem clean_bootingMark (h : CleanConfig config) {fs : FileSystem} (hfs : CleanNames fs)
    {hosts : List HostState} {clientIp : String} {datagram : Tftp.Wire.Bytes} {job : Job}
    (hjob : onPacket config fs hosts clientIp datagram = .start job)
    (hf : Clean job.request.filename) : CleanMark (bootingMark job) := by
  obtain ⟨-, hpath, -⟩ := onPacket_start hjob
  have hclean := cleanPath_safeJoin hfs h.tftpRoot
    (clean_finalFilename h (hostByIp hosts clientIp) hf) hpath
  refine ⟨clean_info, ?_⟩
  refine .append (.append (.append (.append ?_ hf) ?_) (clean_display hclean)) ?_ <;> decide

theorem clean_failedMark {reason : String} {m : Mark} (h : some (failedMark reason) = some m)
    (hr : Clean reason) : CleanMark m := by
  obtain rfl := Option.some.inj h
  exact ⟨clean_error, .append (by decide) hr⟩

theorem clean_exitMark {s : Tftp.DataLoop.Window} {x : Tftp.DataLoop.Exit} {m : Mark}
    (h : exitMark s x = some m) : CleanMark m := by
  cases x with
  | completed =>
    obtain rfl := Option.some.inj h
    refine ⟨clean_info, ?_⟩
    exact .append (.append (by decide) (clean_toString _)) (by decide)
  | readFailed => cases h
  | _ => exact clean_failedMark h (by decide)

theorem clean_awaitOack {file packet : Tftp.Wire.Bytes} {retries : ℕ} {e : Tftp.DataLoop.Env}
    {m : Mark} (h : (awaitOack file packet retries e).mark = some m) : CleanMark m := by
  rw [awaitOack] at h
  split at h
  · exact clean_failedMark h (by decide)
  · split at h
    · split at h
      · exact clean_failedMark h (by decide)
      · cases h
      · split at h
        · exact clean_failedMark h (by decide)
        · split at h <;> cases h
    · exact clean_failedMark h (by decide)

theorem clean_react {request : Tftp.Request.RrqRequest} {stage : Stage} {a : Answer} {m : Mark}
    (h : (react request stage a).mark = some m) : CleanMark m := by
  cases stage with
  | oack file packet retries => exact clean_awaitOack h
  | data file t =>
    simp only [react] at h
    split at h
    · cases h
    · exact clean_exitMark h
  | bind => cases h
  | connect => cases h
  | permit =>
    simp only [react] at h
    split at h <;> cases h
  | opening =>
    simp only [react] at h
    split at h
    · split at h <;> cases h
    · cases h
  | metadata file =>
    simp only [react] at h
    split at h
    · cases h
    · split at h <;> cases h
  | ended => cases h

end Messages

end BootyCall.Fleet.LogTexts
