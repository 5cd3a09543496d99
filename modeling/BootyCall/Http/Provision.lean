import BootyCall.Http.BootChain

namespace BootyCall.Http.Provision

open BootyCall.Core Mac Path State Lib.FileTree Lib.FileOps Lib.Nested Lib.Independence
open Extractor.Copy Extractor.Metadata Extractor.Cache Extractor.Coherence Extractor.FleetSync
open Api Files Router BootChain

/-- A sync of the whole fleet, on start or on a reload, with what it meets. -/
structure Sweep where
  config : Config
  reader : ImageReader
  created : Except IoError Unit

namespace Sweep

variable (serde : Serde) (cacheDir : PathBuf)

def site (sweep : Sweep) : Site :=
  ⟨serde, sweep.reader, cacheDir, sweep.config.server.maxArtifactBytes⟩

def sync (sweep : Sweep) (files : Files) : Except ExtractorError (SyncSummary × Files) :=
  syncAllHostsCache serde sweep.reader cacheDir sweep.created sweep.config files

/-- A sweep that does not start is logged, and the service goes on. -/
def after (files : Files) (sweep : Sweep) : Files :=
  match sweep.sync serde cacheDir files with
  | .ok p => p.2
  | .error _ => files

end Sweep

/-- A sweep with an accepted configuration, whose images lie outside the cache directory. What an
image holds changes with its modification time or its size. -/
structure Sweep.Accepted (printable : Char → Bool) (cacheDir : PathBuf) (images : Images)
    (sweep : Sweep) : Prop where
  loaded : ∃ fromStr content, Config.load printable fromStr content = .ok sweep.config
  outside : ∀ host ∈ sweep.config.hosts, Outside sweep.reader cacheDir host.imagePath
  reads : ∀ host ∈ sweep.config.hosts, ∀ files,
    sweep.reader.images files (PathBuf.ofString host.imagePath).components =
      images (PathBuf.ofString host.imagePath).components

/-- The artifacts of a host are the files that are found in the cache, and may be opened. -/
structure Mirrors (disk : Disk) (cacheDir : PathBuf) (files : Files) (mac : String) : Prop where
  present : ∀ file ∈ [CacheFile.kernel, .initrd], ∀ content,
    files (cachePath cacheDir mac file) = some content →
      ∃ l, Names disk.fs cacheDir (cached mac (Extractor.FleetSync.fileName file)) l ∧
        disk.fs.tree.entry l = some .file ∧ disk.opens l = true ∧ disk.bytes l = content
  absent : ∀ file ∈ [CacheFile.kernel, .initrd], files (cachePath cacheDir mac file) = none →
    ∀ l, Names disk.fs cacheDir (cached mac (Extractor.FleetSync.fileName file)) l →
      disk.fs.tree.entry l ≠ some .file

def capOf (sweeps : List Sweep) (cap : Option ℕ) : Prop :=
  ∃ sweep ∈ sweeps, sweep.config.server.maxArtifactBytes = cap

def Yields (server : Server) (world : World) (path : String) (content : List UInt8) : Prop :=
  ∀ headers clientIp store, handle server world headers clientIp (.cacheFile path) store =
    (store, .of ok (.file "application/octet-stream" content))

def Withheld (server : Server) (world : World) (path : String) : Prop :=
  ∀ headers clientIp store contentType content,
    (handle server world headers clientIp (.cacheFile path) store).2 ≠
      .of ok (.file contentType content)

variable {printable : Char → Bool} {serde : Serde} {images : Images} {cacheDir : PathBuf}
  {caps : Option ℕ → Prop} {files : Files} {sweep : Sweep} {mac : String}

theorem view_runAll_of_ne {site : Site} {hosts : List HostConfig} (hmac : isValidMac mac = true)
    (h : ∀ host ∈ hosts, isValidMac host.mac = true ∧ host.mac ≠ mac) (files : Files) :
    view (cachePath site.cacheDir mac) (runAll site.after hosts files) =
      view (cachePath site.cacheDir mac) files := by
  induction hosts generalizing files with
  | nil => rfl
  | cons host hosts ih =>
    obtain ⟨⟨hvalid, hne⟩, hrest⟩ := List.forall_mem_cons.mp h
    rw [runAll_cons, ih hrest]
    exact view_run_outside (cachePath_ne hvalid hmac hne)

theorem syncHost_eq (h : sweep.Accepted printable cacheDir images) {host : HostConfig}
    (hhost : host ∈ sweep.config.hosts) (files : Files) :
    (sweep.site serde cacheDir).syncHost host files =
      Call.sync ⟨host, sweep.reader.stat files host.imagePath⟩ serde images
        sweep.config.server.maxArtifactBytes (view (cachePath cacheDir host.mac) files) :=
  syncHostCache_congr (h.reads host hhost files)

theorem sync_ok (h : sweep.Accepted printable cacheDir images) (hcreated : sweep.created = .ok ())
    (files : Files) : ∃ summary files', sweep.sync serde cacheDir files = .ok (summary, files') ∧
      (∀ host ∈ sweep.config.hosts, view (cachePath cacheDir host.mac) files' =
        run (view (cachePath cacheDir host.mac) files)
          ((sweep.site serde cacheDir).syncHost host files).ops) ∧
      (∀ mac, isValidMac mac = true → (∀ host ∈ sweep.config.hosts, host.mac ≠ mac) →
        view (cachePath cacheDir mac) files' = view (cachePath cacheDir mac) files) ∧
      ∀ host ∈ sweep.config.hosts, ∀ e, (host.name, e) ∈ summary.failed ↔
        ((sweep.site serde cacheDir).syncHost host files).result = .error e := by
  obtain ⟨fromStr, content, hload⟩ := h.loaded
  obtain ⟨_, _, _, _, _, hvalid⟩ := (Config.load_ok printable).mp hload
  have hsound : ∀ host ∈ sweep.config.hosts, Sound (sweep.site serde cacheDir) host :=
    fun host hhost ↦ ⟨hvalid.macs host hhost, h.outside host hhost⟩
  have hapart := pairwise_apart hsound hvalid.distinctMacs
  refine ⟨recordAll {} (alone (sweep.site serde cacheDir) files sweep.config.hosts),
    runAll (sweep.site serde cacheDir).after sweep.config.hosts files, ?_, ?_, ?_, ?_⟩
  · rw [Sweep.sync, hcreated]
    exact congrArg Except.ok (syncHosts_apart hapart files)
  · intro host hhost
    exact view_runAll hsound hvalid.distinctMacs hhost files
  · intro mac hmac hne
    exact @view_runAll_of_ne mac (sweep.site serde cacheDir) _ hmac
      (fun host hhost ↦ ⟨hvalid.macs host hhost, hne host hhost⟩) files
  · intro host hhost e
    rw [mem_failed]
    constructor
    · rintro ⟨other, hother, hname, hresult⟩
      obtain rfl := List.inj_on_of_nodup_map hvalid.distinctNames hother hhost hname
      exact hresult
    · intro hresult
      exact ⟨host, hhost, rfl, hresult⟩

def Settled (serde : Serde) (images : Images) (cacheDir : PathBuf) (caps : Option ℕ → Prop)
    (files : Files) : Prop :=
  ∀ mac, isValidMac mac = true →
    Coherent serde images caps (view (cachePath cacheDir mac) files)

theorem settled_after (h : sweep.Accepted printable cacheDir images)
    (hcap : caps sweep.config.server.maxArtifactBytes)
    (hsettled : Settled serde images cacheDir caps files) :
    Settled serde images cacheDir caps (sweep.after serde cacheDir files) := by
  intro mac hmac
  cases hcreated : sweep.created with
  | error e =>
    have hsync : sweep.sync serde cacheDir files = .error (.io e) := by
      rw [Sweep.sync, hcreated]
      rfl
    rw [Sweep.after, hsync]
    exact hsettled mac hmac
  | ok u =>
    obtain ⟨summary, files', hsync, hhosts, hothers, -⟩ := sync_ok h hcreated files
    rw [Sweep.after, hsync]
    by_cases hknown : ∃ host ∈ sweep.config.hosts, host.mac = mac
    · obtain ⟨host, hhost, rfl⟩ := hknown
      rw [hhosts host hhost, syncHost_eq h hhost]
      exact (hsettled host.mac hmac).sync hcap _
    · rw [hothers mac hmac fun host hhost hhostMac ↦ hknown ⟨host, hhost, hhostMac⟩]
      exact hsettled mac hmac

theorem settled_foldl {sweeps : List Sweep}
    (h : ∀ sweep ∈ sweeps, sweep.Accepted printable cacheDir images)
    (hcaps : ∀ sweep ∈ sweeps, caps sweep.config.server.maxArtifactBytes)
    (hsettled : Settled serde images cacheDir caps files) :
    Settled serde images cacheDir caps (sweeps.foldl (Sweep.after serde cacheDir) files) := by
  induction sweeps generalizing files with
  | nil => exact hsettled
  | cons sweep sweeps ih =>
    obtain ⟨hsweep, hsweeps⟩ := List.forall_mem_cons.mp h
    obtain ⟨hcap, hcaps⟩ := List.forall_mem_cons.mp hcaps
    exact ih hsweeps hcaps (settled_after hsweep hcap hsettled)

variable {server : Server} {world : World} {file : CacheFile} {artifact : String}
  {content : List UInt8}

theorem fileName_mem (hfile : file ∈ [CacheFile.kernel, .initrd]) :
    Extractor.FleetSync.fileName file ∈ artifacts := by
  rcases List.mem_pair.mp hfile with rfl | rfl
  · exact List.mem_cons_self
  · exact List.mem_cons_of_mem _ List.mem_cons_self

theorem yields_of_present (hmirrors : Mirrors world.disk server.cacheDir files mac)
    (hmac : isValidMac mac = true) (hfile : file ∈ [CacheFile.kernel, .initrd])
    (hartifact : Extractor.FleetSync.fileName file = artifact)
    (hcontent : files (cachePath server.cacheDir mac file) = some content) :
    Yields server world (cached mac artifact) content := by
  subst hartifact
  obtain ⟨l, hnames, hentry, hopens, hbytes⟩ := hmirrors.present file hfile content hcontent
  have hok := serveFileFromDir_ok.mpr ⟨descends_cached hmac (fileName_mem hfile),
    contentTypeFor_cached hmac (fileName_mem hfile), l, hnames, hentry, hopens, hbytes⟩
  intro headers clientIp store
  simp only [handle, serveFile, hok]
  rfl

theorem withheld_of_absent (hmirrors : Mirrors world.disk server.cacheDir files mac)
    (hfile : file ∈ [CacheFile.kernel, .initrd])
    (hartifact : Extractor.FleetSync.fileName file = artifact)
    (hcontent : files (cachePath server.cacheDir mac file) = none) :
    Withheld server world (cached mac artifact) := by
  subst hartifact
  intro headers clientIp store contentType content hanswer
  cases hserve : serveFileFromDir world.disk server.cacheDir
      (cached mac (Extractor.FleetSync.fileName file)) with
  | error status =>
    simp only [handle, serveFile, hserve] at hanswer
    cases hanswer
  | ok p =>
    obtain ⟨-, -, l, hnames, hentry, -⟩ := serveFileFromDir_ok.mp hserve
    exact hmirrors.absent file hfile hcontent l hnames hentry

theorem sync_yields {dir : HostDir} {maxBytes : Option ℕ} {key : CacheMetadata} (call : Call)
    (hcap : caps maxBytes) (hcoherent : Coherent serde images caps dir)
    (hkey : currentKey call.host call.stat = .ok key) :
    (call.sync serde images maxBytes dir).result = .ok () ∧
        (∃ cap kernel initrd, caps cap ∧ Fresh images cap key kernel initrd ∧
          run dir (call.sync serde images maxBytes dir).ops .kernel = some kernel ∧
          run dir (call.sync serde images maxBytes dir).ops .initrd = some initrd) ∨
      ∃ e, (call.sync serde images maxBytes dir).result = .error e ∧
        ∀ file ∈ [CacheFile.kernel, .initrd],
          run dir (call.sync serde images maxBytes dir).ops file = none := by
  cases hresult : (call.sync serde images maxBytes dir).result with
  | ok u =>
    obtain ⟨cap, key', kernel, initrd, hcap, hkey', hfresh, hkernel, hinitrd⟩ :=
      sync_serves hcap hresult fun _ _ _ ↦ hcoherent
    obtain rfl := Except.ok.inj (hkey.symm.trans hkey')
    exact .inl ⟨rfl, cap, kernel, initrd, hcap, hfresh, hkernel, hinitrd⟩
  | error e =>
    refine .inr ⟨e, rfl, fun file hfile ↦ sync_cleans hkey hresult ?_⟩
    rcases List.mem_pair.mp hfile with rfl | rfl <;> nofun

/-- After every sweep, whatever came before it, what is served for a host is what an extraction
from its image as it is now, with the overrides as they are now, yields. If its sync failed after
the image was found, nothing is served. -/
theorem never_stale (printable : Char → Bool) (serde : Serde) (images : Images)
    (cacheDir : PathBuf) (start : Files)
    (hstart : ∀ mac, isValidMac mac = true →
      start (cachePath cacheDir mac .metadataJson) = none)
    (sweeps : List Sweep) (last : Sweep)
    (haccepted : ∀ sweep ∈ sweeps ++ [last], sweep.Accepted printable cacheDir images)
    (hcreated : last.created = .ok ()) :
    ∃ summary files', last.sync serde cacheDir
        (sweeps.foldl (Sweep.after serde cacheDir) start) = .ok (summary, files') ∧
      ∀ server world, server.cacheDir = cacheDir →
        ∀ host ∈ last.config.hosts, Mirrors world.disk cacheDir files' host.mac →
          ∀ key, currentKey host (last.reader.stat
            (sweeps.foldl (Sweep.after serde cacheDir) start) host.imagePath) = .ok key →
          (∀ e, (host.name, e) ∉ summary.failed) ∧
              (∃ cap kernel initrd, capOf (sweeps ++ [last]) cap ∧
                Fresh images cap key kernel initrd ∧
                Yields server world (cached host.mac "kernel") kernel ∧
                Yields server world (cached host.mac "initrd") initrd) ∨
            (∃ e, (host.name, e) ∈ summary.failed) ∧
              ∀ artifact ∈ artifacts, Withheld server world (cached host.mac artifact) := by
  obtain ⟨hsweeps, hlast⟩ := List.forall_mem_append.mp haccepted
  rw [List.forall_mem_singleton] at hlast
  have hcap : capOf (sweeps ++ [last]) last.config.server.maxArtifactBytes :=
    ⟨last, List.mem_append_right _ (List.mem_singleton_self _), rfl⟩
  have hsettled : Settled serde images cacheDir (capOf (sweeps ++ [last]))
      (sweeps.foldl (Sweep.after serde cacheDir) start) :=
    settled_foldl hsweeps (fun sweep hsweep ↦ ⟨sweep, List.mem_append_left _ hsweep, rfl⟩)
      fun mac hmac ↦ coherent_of_absent (hstart mac hmac)
  obtain ⟨summary, files', hsync, hhosts, -, hfailed⟩ :=
    sync_ok hlast hcreated (sweeps.foldl (Sweep.after serde cacheDir) start)
  refine ⟨summary, files', hsync, ?_⟩
  rintro server world rfl host hhost hmirrors key hkey
  obtain ⟨fromStr, content, hload⟩ := hlast.loaded
  obtain ⟨_, _, _, _, _, hvalid⟩ := (Config.load_ok printable).mp hload
  have hmac := hvalid.macs host hhost
  have hkernelFile : CacheFile.kernel ∈ [CacheFile.kernel, .initrd] := List.mem_cons_self
  have hinitrdFile : CacheFile.initrd ∈ [CacheFile.kernel, .initrd] :=
    List.mem_cons_of_mem _ List.mem_cons_self
  have hview := hhosts host hhost
  have hresult := hfailed host hhost
  rw [syncHost_eq hlast hhost] at hview hresult
  have hshown (file : CacheFile) := congrFun hview file
  have houtcome := sync_yields
    ⟨host, last.reader.stat (sweeps.foldl (Sweep.after serde server.cacheDir) start)
      host.imagePath⟩ hcap (hsettled host.mac hmac) hkey
  rcases houtcome with
    ⟨hok, cap, kernel, initrd, hcap, hfresh, hkernel, hinitrd⟩ | ⟨e, herror, hnone⟩
  · left
    refine ⟨fun e he ↦ ?_, cap, kernel, initrd, hcap, hfresh, ?_, ?_⟩
    · have herror := (hresult e).mp he
      rw [hok] at herror
      cases herror
    · exact yields_of_present hmirrors hmac hkernelFile rfl ((hshown .kernel).trans hkernel)
    · exact yields_of_present hmirrors hmac hinitrdFile rfl ((hshown .initrd).trans hinitrd)
  · right
    refine ⟨⟨e, (hresult e).mpr herror⟩, fun artifact hartifact ↦ ?_⟩
    have hgone (file : CacheFile) (hfile : file ∈ [CacheFile.kernel, .initrd]) :=
      (hshown file).trans (hnone file hfile)
    rcases List.mem_pair.mp hartifact with rfl | rfl
    · exact withheld_of_absent hmirrors hkernelFile rfl (hgone _ hkernelFile)
    · exact withheld_of_absent hmirrors hinitrdFile rfl (hgone _ hinitrdFile)

section Sample

def sampleSweep : Sweep := ⟨sampleFleet, sampleReader, .ok ()⟩

def sampleMac : String := "52:54:00:10:10:11"

def filledTree : DirTree OsString where
  nodes := [([], .dir), ([name "cache"], .dir), ([name sampleMac, name "cache"], .dir),
    ([name "kernel", name sampleMac, name "cache"], .file),
    ([name "initrd", name sampleMac, name "cache"], .file)]
  root_dir := rfl
  parent_dir := by decide

def filled : World :=
  { stocked with
    disk :=
      { fs :=
          { tree := filledTree
            cwd := []
            maxLinks := 40
            valid := by
              simp only [ValidName]
              decide
            cwd_dir := rfl }
        bytes := fun l ↦ if l.head? = some (name "kernel") then [1, 2, 3] else [4]
        opens := fun _ ↦ true } }

theorem accepted_sampleSweep :
    sampleSweep.Accepted (fun _ ↦ true) rackServer.cacheDir sampleImages where
  loaded := ⟨Config.reads sampleYaml sampleFleet, some sampleYaml, Config.load_reads _ _ _⟩
  outside := fun _ _ _ _ _ ↦ ⟨rfl, rfl⟩
  reads := fun _ _ _ ↦ rfl

theorem never_stale_sample : ∃ kernel initrd key,
    Fresh sampleImages none key kernel initrd ∧
      Yields rackServer filled (cached sampleMac "kernel") kernel ∧
      Yields rackServer filled (cached sampleMac "initrd") initrd := by
  have haccepted : ∀ sweep ∈ [sampleSweep] ++ [sampleSweep],
      sweep.Accepted (fun _ ↦ true) rackServer.cacheDir sampleImages := by
    intro sweep hsweep
    rcases List.mem_pair.mp hsweep with rfl | rfl <;> exact accepted_sampleSweep
  obtain ⟨summary, files', hsync, hhosts⟩ := never_stale (fun _ ↦ true) prettyJson sampleImages
    rackServer.cacheDir (fun _ ↦ none) (fun _ _ ↦ rfl) [sampleSweep] sampleSweep haccepted rfl
  have hleft : ((sampleSweep.sync prettyJson rackServer.cacheDir
      ([sampleSweep].foldl (Sweep.after prettyJson rackServer.cacheDir) fun _ ↦ none)).toOption.map
        fun p ↦ (p.1.failed.map Prod.fst, p.2 (cachePath rackServer.cacheDir sampleMac .kernel),
          p.2 (cachePath rackServer.cacheDir sampleMac .initrd))) =
      some (["gone"], some [1, 2, 3], some [4]) := by
    decide +kernel
  rw [hsync] at hleft
  obtain ⟨hfailed, hkernel, hinitrd⟩ : summary.failed.map Prod.fst = ["gone"] ∧
      files' (cachePath rackServer.cacheDir sampleMac .kernel) = some [1, 2, 3] ∧
      files' (cachePath rackServer.cacheDir sampleMac .initrd) = some [4] := by
    simpa [Except.toOption] using hleft
  have hmirrors : Mirrors filled.disk rackServer.cacheDir files' sampleMac := by
    constructor
    · intro file hfile content hcontent
      rcases List.mem_pair.mp hfile with rfl | rfl
      · obtain rfl := Option.some.inj (hkernel.symm.trans hcontent)
        exact ⟨[name "kernel", name sampleMac, name "cache"],
          ⟨[name "cache"], by decide +kernel, by decide +kernel, ⟨[_, _], rfl⟩⟩, by decide +kernel,
          rfl, by decide +kernel⟩
      · obtain rfl := Option.some.inj (hinitrd.symm.trans hcontent)
        exact ⟨[name "initrd", name sampleMac, name "cache"],
          ⟨[name "cache"], by decide +kernel, by decide +kernel, ⟨[_, _], rfl⟩⟩, by decide +kernel,
          rfl, by decide +kernel⟩
    · intro file hfile hnone
      rcases List.mem_pair.mp hfile with rfl | rfl
      · cases hkernel.symm.trans hnone
      · cases hinitrd.symm.trans hnone
  have hkey : currentKey (sampleHost sampleMac "host" "/a")
      (sampleReader.stat (fun _ ↦ none) "/a") = .ok ⟨"/a", 1700000000, 4096, none, none⟩ := by
    decide +kernel
  have hhost : sampleHost sampleMac "host" "/a" ∈ sampleSweep.config.hosts :=
    List.mem_cons_of_mem _ (List.mem_singleton_self _)
  rcases hhosts rackServer filled rfl _ hhost hmirrors _ hkey with
    ⟨-, cap, kernel, initrd, ⟨sweep, hsweep, rfl⟩, hfresh, hserved⟩ | ⟨⟨e, he⟩, -⟩
  · obtain rfl : sweep = sampleSweep := by simpa using hsweep
    exact ⟨kernel, initrd, _, hfresh, hserved⟩
  · have hname := List.mem_map_of_mem (f := Prod.fst) he
    have hother : (sampleHost sampleMac "host" "/a").name ∉ ["gone"] := by decide
    rw [hfailed] at hname
    exact absurd hname hother

end Sample

end BootyCall.Http.Provision
