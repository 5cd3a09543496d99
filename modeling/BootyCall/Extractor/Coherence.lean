import BootyCall.Extractor.Cache

namespace BootyCall.Extractor.Coherence

open BootyCall.Core Lib.FileOps Copy Readers Metadata Cache

/-- An extraction for the key into an empty directory succeeds and leaves these artifacts. -/
def Fresh (images : Images) (maxBytes : Option ℕ) (key : CacheMetadata)
    (kernel initrd : List UInt8) : Prop :=
  (extraction images maxBytes key).result = .ok () ∧
    run (fun _ ↦ none) (extraction images maxBytes key).ops .kernel = some kernel ∧
    run (fun _ ↦ none) (extraction images maxBytes key).ops .initrd = some initrd

/-- Artifacts that stand beside readable metadata are those of its key, extracted under one of
the caps. -/
def Coherent (serde : Serde) (images : Images) (caps : Option ℕ → Prop) (dir : HostDir) : Prop :=
  ∀ stored kernel initrd, readMetadata serde dir = some stored → dir .kernel = some kernel →
    dir .initrd = some initrd → ∃ cap, caps cap ∧ Fresh images cap stored kernel initrd

structure Call where
  host : HostConfig
  stat : Stat

def Call.sync (call : Call) (serde : Serde) (images : Images) (maxBytes : Option ℕ)
    (dir : HostDir) : Extraction Unit :=
  syncHostCache serde images maxBytes call.host call.stat dir

theorem Call.outcome (call : Call) (serde : Serde) (images : Images) (maxBytes : Option ℕ)
    (dir : HostDir) : SyncOutcome serde images maxBytes call.host call.stat dir
      (call.sync serde images maxBytes dir) := sync_outcome _ _ _ _ _ _

def syncs (serde : Serde) (images : Images) (maxBytes : Option ℕ) (dir : HostDir)
    (calls : List Call) : HostDir :=
  calls.foldl (fun dir call ↦ run dir (call.sync serde images maxBytes dir).ops) dir

variable {serde : Serde} {images : Images} {maxBytes : Option ℕ} {caps : Option ℕ → Prop}
  {dir : HostDir} {key stored : CacheMetadata} {kernel initrd : List UInt8} {call : Call}

theorem Fresh.congr (h : keyMatches stored key)
    (hfresh : Fresh images maxBytes stored kernel initrd) :
    Fresh images maxBytes key kernel initrd := by
  rw [Fresh, extraction_congr h] at hfresh
  exact hfresh

theorem extraction_leaves (h : (extraction images maxBytes key).result = .ok ()) :
    ∃ kernel initrd, Fresh images maxBytes key kernel initrd ∧
      Leaves .kernel kernel (extraction images maxBytes key).ops ∧
      Leaves .initrd initrd (extraction images maxBytes key).ops := by
  obtain ⟨tried, written, ⟨kernel, initrd, hwritten⟩, hops⟩ := extract_ok h
  have hops : (extraction images maxBytes key).ops = tried ++ written := hops
  have hkernel : Leaves .kernel kernel (extraction images maxBytes key).ops := by
    rw [hops, hwritten]
    apply Leaves.append_left
    apply (leaves_writeFile _ _).append_right
    rw [touches_writeFile]
    rfl
  have hinitrd : Leaves .initrd initrd (extraction images maxBytes key).ops := by
    rw [hops, hwritten]
    apply Leaves.append_left
    apply Leaves.append_left
    exact leaves_writeFile _ _
  exact ⟨kernel, initrd, ⟨h, hkernel _, hinitrd _⟩, hkernel, hinitrd⟩

theorem coherent_of_unreadable (h : readMetadata serde dir = none) :
    Coherent serde images caps dir := by
  intro stored kernel initrd hstored
  rw [h] at hstored
  cases hstored

theorem coherent_of_absent (h : dir .metadataJson = none) : Coherent serde images caps dir := by
  apply coherent_of_unreadable
  rw [readMetadata, h]
  rfl

theorem Coherent.run_of_unwritten {ops : List (Op CacheFile UInt8)}
    (h : Coherent serde images caps dir) (hmeta : touches .metadataJson ops = false)
    (hkernel : written .kernel ops = false) (hinitrd : written .initrd ops = false) :
    Coherent serde images caps (run dir ops) := by
  intro stored kernel initrd hstored hk hi
  rw [readMetadata, run_of_untouched hmeta] at hstored
  rw [Lib.FileOps.run_of_unwritten hkernel] at hk
  rw [Lib.FileOps.run_of_unwritten hinitrd] at hi
  apply h stored kernel initrd hstored
  · split at hk
    · cases hk
    · exact hk
  · split at hi
    · cases hi
    · exact hi

theorem coherent_of_extracted (hcap : caps maxBytes) (legacy : List (Op CacheFile UInt8))
    (hok : (extraction images maxBytes key).result = .ok ()) (content : List UInt8)
    (hcontent : content <+: serde.toStringPretty key) :
    Coherent serde images caps (run dir (legacy ++ ((extraction images maxBytes key).ops ++
      writeFile .metadataJson content))) := by
  obtain ⟨kernel, initrd, hfresh, hk, hi⟩ := extraction_leaves hok
  have hframe {file : CacheFile} (h : .metadataJson ≠ file) :
      touches file (writeFile .metadataJson content) = false := by
    rw [touches_writeFile]
    exact decide_eq_false h
  have hkernel := ((hk.append_right (hframe (by simp))).append_left legacy) dir
  have hinitrd := ((hi.append_right (hframe (by simp))).append_left legacy) dir
  have hmeta := (((leaves_writeFile .metadataJson content).append_left
    (extraction images maxBytes key).ops).append_left legacy) dir
  by_cases hwhole : content = serde.toStringPretty key
  · intro stored kernel' initrd' hstored hkernel' hinitrd'
    rw [readMetadata, hmeta, hwhole, Option.bind_some, serde.fromStr_toStringPretty] at hstored
    rw [hkernel] at hkernel'
    rw [hinitrd] at hinitrd'
    cases hstored
    cases hkernel'
    cases hinitrd'
    exact ⟨maxBytes, hcap, hfresh⟩
  · apply coherent_of_unreadable
    rw [readMetadata, hmeta, Option.bind_some]
    exact serde.fromStr_cut key content hcontent hwhole

theorem extraction_quiet {file : CacheFile} (hkernel : file ≠ .kernel) (hinitrd : file ≠ .initrd) :
    touches file (extraction images maxBytes key).ops = false :=
  extraction_within file (by simp [hkernel, hinitrd])

/-- Operations of a sync, possibly cut short, that have come to the metadata: what stands there
now is the metadata of the artifacts beside it, or nothing that can be read. -/
theorem coherent_of_renewed (hcap : caps maxBytes) {ops : List (Op CacheFile UInt8)}
    (hops : ops <+: (call.sync serde images maxBytes dir).ops)
    (hmeta : touches .metadataJson ops = true) : Coherent serde images caps (run dir ops) := by
  have hlegacy : touches .metadataJson (dropLegacy dir) = false := dropLegacy_touches (by simp)
  have hquiet {all : List (Op CacheFile UInt8)} (hall : touches .metadataJson all = false)
      (hcut : ops <+: all) : False := by
    rw [touches_cut hcut hall] at hmeta
    cases hmeta
  have houtcome := call.outcome serde images maxBytes dir
  generalize call.sync serde images maxBytes dir = x at hops houtcome
  cases houtcome with
  | unknown e hkey => exact (hquiet rfl hops).elim
  | hit key hkey hvalid => exact (hquiet hlegacy hops).elim
  | failed key hkey hvalid e herr =>
    -- Nothing is ever written to the metadata here, so it has been removed.
    have hunwritten : written .metadataJson (dropLegacy dir ++
        ((extraction images maxBytes key).ops ++ cleanup)) = false := by
      rw [written_append, written_append, written_of_untouched hlegacy,
        written_of_untouched (extraction_quiet (by simp) (by simp))]
      rfl
    apply coherent_of_absent
    rw [Lib.FileOps.run_of_unwritten (written_cut hops hunwritten), if_pos hmeta]
  | extracted key hkey hvalid hok =>
    rcases cut_append hops with hcut | ⟨rest, hrest, rfl⟩
    · exact (hquiet hlegacy hcut).elim
    · rw [touches_append, hlegacy, Bool.false_or] at hmeta
      rcases cut_append hrest with hcut | ⟨tail, htail, rfl⟩
      · rw [touches_cut hcut (extraction_quiet (by simp) (by simp))] at hmeta
        cases hmeta
      · rw [touches_append, extraction_quiet (by simp) (by simp), Bool.false_or] at hmeta
        rcases cut_writeFile htail with rfl | ⟨content, hcontent, rfl⟩
        · cases hmeta
        · exact coherent_of_extracted hcap _ hok content hcontent

theorem sync_settled (serde : Serde) (images : Images) (maxBytes : Option ℕ) (call : Call)
    (dir : HostDir) :
    (∀ file, file ≠ .metadataTxt →
        touches file (call.sync serde images maxBytes dir).ops = false) ∨
      touches .metadataJson (call.sync serde images maxBytes dir).ops = true := by
  have houtcome := call.outcome serde images maxBytes dir
  generalize call.sync serde images maxBytes dir = x at houtcome ⊢
  cases houtcome with
  | unknown e hkey => exact .inl fun _ _ ↦ rfl
  | hit key hkey hvalid => exact .inl fun _ ↦ dropLegacy_touches
  | failed key hkey hvalid e herr =>
    right
    rw [touches_append, touches_append]
    simp [touches, cleanup, Op.target]
  | extracted key hkey hvalid hok =>
    right
    rw [touches_append, touches_append, touches_writeFile]
    simp

theorem Coherent.sync (h : Coherent serde images caps dir) (hcap : caps maxBytes) (call : Call) :
    Coherent serde images caps (run dir (call.sync serde images maxBytes dir).ops) := by
  rcases sync_settled serde images maxBytes call dir with hquiet | hrenewed
  · exact h.run_of_unwritten (hquiet _ (by simp)) (written_of_untouched (hquiet _ (by simp)))
      (written_of_untouched (hquiet _ (by simp)))
  · exact coherent_of_renewed hcap List.prefix_rfl hrenewed

theorem Coherent.syncs (h : Coherent serde images caps dir) (hcap : caps maxBytes)
    (calls : List Call) : Coherent serde images caps (syncs serde images maxBytes dir calls) := by
  induction calls generalizing dir with
  | nil => exact h
  | cons call calls ih => exact ih (h.sync hcap call)

def Serves (images : Images) (caps : Option ℕ → Prop) (call : Call) (dir : HostDir) : Prop :=
  ∃ cap key kernel initrd, caps cap ∧ currentKey call.host call.stat = .ok key ∧
    Fresh images cap key kernel initrd ∧ dir .kernel = some kernel ∧ dir .initrd = some initrd

theorem sync_serves (hcap : caps maxBytes)
    (hok : (call.sync serde images maxBytes dir).result = .ok ())
    (hhit : ∀ key, currentKey call.host call.stat = .ok key → cacheValid serde dir key = true →
      Coherent serde images caps dir) :
    Serves images caps call (run dir (call.sync serde images maxBytes dir).ops) := by
  have houtcome := call.outcome serde images maxBytes dir
  generalize call.sync serde images maxBytes dir = x at hok houtcome ⊢
  cases houtcome with
  | unknown e hkey => cases hok
  | failed key hkey hvalid e herr => cases hok
  | hit key hkey hvalid =>
    obtain ⟨kernel, initrd, stored, hkernel, hinitrd, hstored, hmatch⟩ := cacheValid_eq_true hvalid
    obtain ⟨cap, hin, hfresh⟩ := hhit key hkey hvalid stored kernel initrd hstored hkernel hinitrd
    refine ⟨cap, key, kernel, initrd, hin, hkey, hfresh.congr hmatch, ?_⟩
    rw [run_of_untouched (dropLegacy_touches (by simp)),
      run_of_untouched (dropLegacy_touches (by simp))]
    exact ⟨hkernel, hinitrd⟩
  | extracted key hkey hvalid hresult =>
    obtain ⟨kernel, initrd, hfresh, hkernel, hinitrd⟩ := extraction_leaves hresult
    exact ⟨maxBytes, key, kernel, initrd, hcap, hkey, hfresh,
      ((hkernel.append_right (touches_writeFile _)).append_left _) dir,
      ((hinitrd.append_right (touches_writeFile _)).append_left _) dir⟩

theorem sync_cleans {e : ExtractorError} {file : CacheFile}
    (hkey : currentKey call.host call.stat = .ok key)
    (h : (call.sync serde images maxBytes dir).result = .error e) (hfile : file ≠ .metadataTxt) :
    run dir (call.sync serde images maxBytes dir).ops file = none := by
  have houtcome := call.outcome serde images maxBytes dir
  generalize call.sync serde images maxBytes dir = x at h houtcome ⊢
  cases houtcome with
  | unknown e' hkey' =>
    rw [hkey] at hkey'
    cases hkey'
  | hit key' hkey' hvalid => cases h
  | extracted key' hkey' hvalid hok => cases h
  | failed key' hkey' hvalid e' herr =>
    rw [run_append, run_append, Lib.FileOps.run_of_unwritten (by cases file <;> rfl)]
    apply if_pos
    cases file with
    | metadataTxt => exact absurd rfl hfile
    | kernel | initrd | metadataJson => rfl

/-- Over every sequence of syncs of a host under one cap, from a directory without metadata: a
sync that returns `Ok` leaves what a fresh extraction of the current image with the current
overrides yields. From any directory, a sync whose extraction fails leaves neither artifacts nor
metadata, and one that learns no modification time of its image leaves every file as it was. -/
theorem cache_coherence (serde : Serde) (images : Images) (maxBytes : Option ℕ) (start : HostDir)
    (hstart : start .metadataJson = none) (calls : List Call) (call : Call) :
    ((call.sync serde images maxBytes (syncs serde images maxBytes start calls)).result = .ok () →
      Serves images (· = maxBytes) call (syncs serde images maxBytes start (calls ++ [call]))) ∧
    ∀ dir e, (call.sync serde images maxBytes dir).result = .error e →
      (∀ key, currentKey call.host call.stat = .ok key → ∀ file, file ≠ .metadataTxt →
        run dir (call.sync serde images maxBytes dir).ops file = none) ∧
      (currentKey call.host call.stat = .error e → ∀ file,
        run dir (call.sync serde images maxBytes dir).ops file = dir file) := by
  refine ⟨?_, ?_⟩
  · intro hok
    have hcoherent : Coherent serde images (· = maxBytes) start := coherent_of_absent hstart
    rw [syncs, List.foldl_append]
    exact sync_serves rfl hok fun _ _ _ ↦ hcoherent.syncs rfl calls
  · intro dir e h
    refine ⟨?_, ?_⟩
    · intro key hkey file hfile
      exact sync_cleans hkey h hfile
    · intro hkey file
      rw [Call.sync, sync_stat_error hkey]
      rfl

section Sample

def sampleImage (kernel initrd : List (List UInt8))
    (hkernel : ∀ chunk ∈ kernel, chunk ≠ [] := by decide)
    (hinitrd : ∀ chunk ∈ initrd, chunk ≠ [] := by decide) : Image where
  openFile := .ok ()
  iso := .ok
    { root := 0
      contents := fun _ ↦ [.ok (.directory "." 0), .ok (.file "VMLINUZ" ⟨kernel, none, hkernel⟩),
        .ok (.file "initrd.img" ⟨initrd, none, hinitrd⟩)]
      openPath := fun _ ↦ .ok none }
  disk := .error "not a GPT disk"
  fat := fun _ _ ↦ none

def sampleImages : Images := fun path _ _ ↦
  if path = [.rootDir, .normal [97]] then sampleImage [[1, 2], [3]] [[4]]
  else sampleImage [[5, 6]] [[7]]

def sampleCall (path : String) (kernelPath : Option String) : Call where
  host :=
    { mac := "52:54:00:10:10:10"
      name := "host"
      imagePath := path
      bootloader := none
      kernelPath := kernelPath
      initrdPath := none
      cmdline := none }
  stat := .found (.ok 1700000000123456789) 4096

theorem cache_coherence_sample :
    Serves sampleImages (· = none) (sampleCall "/a" none)
      (syncs prettyJson sampleImages none (fun _ ↦ none)
        [sampleCall "/a" none, sampleCall "/b" none, sampleCall "/a" none]) ∧
    run (fun _ ↦ some [9]) ((sampleCall "/a" (some "boot/vmlinuz")).sync prettyJson sampleImages
      none (fun _ ↦ some [9])).ops .kernel = none ∧
    run (fun _ ↦ some [9]) (Call.sync ⟨(sampleCall "/a" none).host, .error ⟨.notFound, ""⟩⟩
      prettyJson sampleImages none (fun _ ↦ some [9])).ops .kernel = some [9] :=
  ⟨(cache_coherence prettyJson sampleImages none (fun _ ↦ none) rfl
      [sampleCall "/a" none, sampleCall "/b" none] (sampleCall "/a" none)).1
      (by decide +kernel),
    ((cache_coherence prettyJson sampleImages none (fun _ ↦ none) rfl [] _).2 _ _ rfl).1 _ rfl _
      (by decide),
    ((cache_coherence prettyJson sampleImages none (fun _ ↦ none) rfl [] _).2 _ _ rfl).2 rfl _⟩

end Sample

end BootyCall.Extractor.Coherence
