import BootyCall.Core.Config
import BootyCall.Extractor.Coherence
import BootyCall.Lib.Independence
import BootyCall.Lib.Nested
import BootyCall.Lib.Utf8

namespace BootyCall.Extractor.FleetSync

open BootyCall.Core Mac Path Lib Lib.FileOps Lib.Nested Independence Copy Metadata Cache

abbrev Files := Dir (List Component) UInt8

structure ImageReader where
  stat : Files → String → Stat
  images : Files → Images

structure Site where
  serde : Serde
  reader : ImageReader
  cacheDir : PathBuf
  maxArtifactBytes : Option ℕ

structure SyncSummary where
  succeeded : ℕ := 0
  failed : List (String × ExtractorError) := []

namespace SyncSummary

def total (summary : SyncSummary) : ℕ := summary.succeeded + summary.failed.length

def record (summary : SyncSummary) (host : HostConfig) : Except ExtractorError Unit → SyncSummary
  | .ok () => { summary with succeeded := summary.succeeded + 1 }
  | .error e => { summary with failed := summary.failed ++ [(host.name, e)] }

end SyncSummary

def fileName : CacheFile → String
  | .kernel => "kernel"
  | .initrd => "initrd"
  | .metadataJson => "metadata.json"
  | .metadataTxt => "metadata.txt"

def cachePath (cacheDir : PathBuf) (mac : String) (file : CacheFile) : List Component :=
  ((cacheDir.join (.ofString mac)).join (.ofString (fileName file))).components

namespace Site

def place (site : Site) (host : HostConfig) : CacheFile → List Component :=
  cachePath site.cacheDir host.mac

/-- `sync_host_cache`, on the directory of the host and the image as they are now. -/
def syncHost (site : Site) (host : HostConfig) (files : Files) : Extraction Unit :=
  syncHostCache site.serde (site.reader.images files) site.maxArtifactBytes host
    (site.reader.stat files host.imagePath) (view (site.place host) files)

def ops (site : Site) (host : HostConfig) (files : Files) : List (Op (List Component) UInt8) :=
  (site.syncHost host files).ops.map (moved (site.place host))

def result (site : Site) (host : HostConfig) (files : Files) : Except ExtractorError Unit :=
  (site.syncHost host files).result

def after (site : Site) (host : HostConfig) (files : Files) : Files :=
  run files (site.ops host files)

def syncHosts (site : Site) : List HostConfig → SyncSummary → Files → SyncSummary × Files
  | [], summary, files => (summary, files)
  | host :: rest, summary, files =>
    site.syncHosts rest (summary.record host (site.result host files)) (site.after host files)

end Site

/-- `created` is what becomes of the attempt to create the cache directory if it is missing. -/
def syncAllHostsCache (serde : Serde) (reader : ImageReader) (cacheDir : PathBuf)
    (created : Except IoError Unit) (config : Config) (files : Files) :
    Except ExtractorError (SyncSummary × Files) :=
  match created with
  | .error e => .error (.io e)
  | .ok () =>
    let site : Site := ⟨serde, reader, cacheDir, config.server.maxArtifactBytes⟩
    .ok (site.syncHosts config.hosts {} files)

/-- No change inside the cache directory changes what is read of the image. -/
def Outside (reader : ImageReader) (cacheDir : PathBuf) (imagePath : String) : Prop :=
  ∀ files files' : Files, (∀ p, ¬cacheDir.components <+: p → files' p = files p) →
    reader.stat files' imagePath = reader.stat files imagePath ∧
      reader.images files' (PathBuf.ofString imagePath).components =
        reader.images files (PathBuf.ofString imagePath).components

section Paths

theorem components_append (b : OsString) (bs : List OsString) {tail : List OsString}
    (h : tail ≠ []) :
    (PathBuf.mk (b :: bs ++ tail)).components =
      (if b = [] then [.rootDir] else if b = dot then [.curDir] else []) ++
        (b :: bs).filterMap PathBuf.component ++ tail.filterMap PathBuf.component := by
  rw [PathBuf.components, List.filterMap_append, List.append_assoc]
  congr 1
  simp [PathBuf.isAbsolute, h]

theorem components_join_name {n : OsString} (h : ValidName n) (p : PathBuf) :
    (p.join ⟨[n]⟩).components = p.components ++ [.normal n] := by
  have hn : n ≠ [] := h.1
  have hdot : n ≠ dot := h.2.1
  have hname : [n].filterMap PathBuf.component = [.normal n] := by simp [component_of_valid h]
  have hempty : [[]].filterMap PathBuf.component = [] := rfl
  have hsingle : (PathBuf.mk [n]).components = [.normal n] := by
    simp [PathBuf.components, PathBuf.isAbsolute, hn, hdot, component_of_valid h]
  have hrelative : (PathBuf.mk [n]).isAbsolute = false := by simp [PathBuf.isAbsolute, hn]
  rw [PathBuf.join, hrelative, if_neg Bool.false_ne_true]
  obtain ⟨pieces⟩ := p
  rcases List.eq_nil_or_concat pieces with rfl | ⟨before, last, rfl⟩
  · exact hsingle
  · rw [List.concat_eq_append, List.getLast?_concat, List.dropLast_concat]
    split
    · -- A trailing slash is not doubled.
      next hlast =>
      obtain rfl := Option.some.inj hlast
      cases before with
      | nil => exact hsingle
      | cons b bs =>
        rw [components_append b bs (List.cons_ne_nil _ _),
          components_append b bs (List.cons_ne_nil _ _), hname, hempty, List.append_nil]
    · next hlast =>
      have hlast : last ≠ [] := fun h ↦ hlast (congrArg some h)
      cases before with
      | nil =>
        rw [List.nil_append, components_append last [] (List.cons_ne_nil _ _), hname]
        simp [PathBuf.components, PathBuf.isAbsolute, hlast]
      | cons b bs =>
        rw [components_append b bs (List.cons_ne_nil _ _), List.append_assoc,
          components_append b bs (by simp), List.filterMap_append, hname, List.append_assoc,
          List.append_assoc, List.append_assoc]

theorem osString_injective : Function.Injective osString := by
  intro cs ds h
  have hbytes : (String.ofList cs).toByteArray.data.toList =
      (String.ofList ds).toByteArray.data.toList := by
    rw [Utf8.toByteArray_toList, Utf8.toByteArray_toList, String.toList_ofList,
      String.toList_ofList]
    exact h
  have htext := Utf8.fromUTF8_toByteArray (String.ofList cs)
  rw [hbytes, Utf8.fromUTF8_toByteArray] at htext
  have hlist := congrArg String.toList (Option.some.inj htext)
  rw [String.toList_ofList, String.toList_ofList] at hlist
  exact hlist.symm

theorem validName_osString {s : String} (hne : s.toList ≠ [])
    (h : ∀ c ∈ s.toList, 48 ≤ c.toNat ∧ c.toNat < 128) : ValidName (osString s.toList) := by
  have hbytes : osString s.toList = s.toList.map fun c ↦ UInt8.ofNat c.toNat := by
    rw [osString, List.map_eq_flatMap]
    exact List.flatMap_congr fun c hc ↦ Utf8.utf8EncodeChar_ascii (h c hc).2
  have hlow : ∀ b ∈ osString s.toList, 48 ≤ b.toNat := by
    intro b hb
    rw [hbytes] at hb
    obtain ⟨c, hc, rfl⟩ := List.mem_map.mp hb
    have hbounds := h c hc
    rw [UInt8.toNat_ofNat']
    omega
  have hout (b : UInt8) (hb : b.toNat < 48) : b ∉ osString s.toList := fun hmem ↦ by
    have := hlow b hmem
    omega
  refine ⟨by simpa [hbytes] using hne, ?_, ?_, hout 0 (by decide), hout 47 (by decide)⟩
  · intro hdot
    exact hout 46 (by decide) (by simp [hdot, dot])
  · intro hdots
    exact hout 46 (by decide) (by simp [hdots, dotDot])

theorem ofString_name {s : String} (h : '/' ∉ s.toList) :
    PathBuf.ofString s = ⟨[osString s.toList]⟩ := by
  rw [PathBuf.ofString, List.splitOn_eq_singleton h, List.map_singleton]

theorem validName_mac {mac : String} (h : isValidMac mac = true) :
    ValidName (osString mac.toList) ∧ '/' ∉ mac.toList := by
  have hlen : mac.toList.length = 17 := by
    rw [isValidMac_eq] at h
    exact of_decide_eq_true (Bool.and_eq_true_iff.mp h).1
  constructor
  · apply validName_osString
    · intro hnil
      rw [hnil] at hlen
      cases hlen
    · intro c hc
      have := toNat_of_isValidMac h hc
      omega
  · intro hslash
    exact absurd (toNat_of_isValidMac h hslash) (by decide)

theorem validName_fileName (file : CacheFile) :
    ValidName (osString (fileName file).toList) ∧ '/' ∉ (fileName file).toList := by
  rw [ValidName]
  cases file <;> decide

theorem fileName_injective : Function.Injective fun file ↦ osString (fileName file).toList := by
  intro file file' h
  cases file <;> cases file' <;> first | rfl | exact absurd h (by decide)

def hostDir (cacheDir : PathBuf) (mac : String) : List Component :=
  cacheDir.components ++ [.normal (osString mac.toList)]

variable {cacheDir : PathBuf} {mac mac' : String}

theorem cachePath_eq (h : isValidMac mac = true) (file : CacheFile) :
    cachePath cacheDir mac file =
      hostDir cacheDir mac ++ [.normal (osString (fileName file).toList)] := by
  obtain ⟨hmac, hslash⟩ := validName_mac h
  obtain ⟨hfile, hslash'⟩ := validName_fileName file
  rw [cachePath, ofString_name hslash, ofString_name hslash', components_join_name hfile,
    components_join_name hmac, hostDir]

theorem cachePath_injective (h : isValidMac mac = true) :
    Function.Injective (cachePath cacheDir mac) := by
  intro file file' heq
  rw [cachePath_eq h, cachePath_eq h] at heq
  apply fileName_injective
  simpa using heq

theorem cachePath_ne (h : isValidMac mac = true) (h' : isValidMac mac' = true) (hne : mac ≠ mac')
    (file file' : CacheFile) : cachePath cacheDir mac file ≠ cachePath cacheDir mac' file' := by
  intro heq
  rw [cachePath_eq h, cachePath_eq h', hostDir, hostDir] at heq
  have hdir := (List.append_inj' heq rfl).1
  have hname : osString mac.toList = osString mac'.toList := by simpa using hdir
  exact hne (String.toList_inj.mp (osString_injective hname))

theorem hostDir_below (h : isValidMac mac = true) (file : CacheFile) :
    hostDir cacheDir mac <+: cachePath cacheDir mac file := by
  rw [cachePath_eq h]
  exact List.prefix_append _ _

end Paths

theorem syncHostCache_congr {serde : Serde} {images images' : Images} {maxBytes : Option ℕ}
    {host : HostConfig} {stat : Stat} {dir : HostDir}
    (h : images' (PathBuf.ofString host.imagePath).components =
      images (PathBuf.ofString host.imagePath).components) :
    syncHostCache serde images' maxBytes host stat dir =
      syncHostCache serde images maxBytes host stat dir := by
  cases hkey : currentKey host stat with
  | error e => rw [sync_stat_error hkey, sync_stat_error hkey]
  | ok key =>
    have hpath : key.imagePath = host.imagePath := by
      cases stat with
      | error e =>
        rw [currentKey] at hkey
        split at hkey <;> cases hkey
      | found modified len =>
        cases modified with
        | error e => cases hkey
        | ok nanos =>
          simp only [currentKey] at hkey
          split at hkey
          · cases hkey
          · cases hkey
            rfl
    have himage : imageOf images' key = imageOf images key := by
      rw [imageOf, imageOf, hpath, h]
    have hextract : extraction images' maxBytes key = extraction images maxBytes key := by
      rw [extraction, extraction, himage]
    have hrefresh : refresh serde images' maxBytes key = refresh serde images maxBytes key := by
      rw [refresh, refresh, hextract]
    rw [syncHostCache, syncHostCache, hkey, Script.ofExcept_ok_bind, Script.ofExcept_ok_bind,
      hrefresh]

section Hosts

variable {site : Site} {host other : HostConfig} {files : Files}

/-- A host that the configuration may have: a canonical MAC, and an image that no sync writes. -/
structure Sound (site : Site) (host : HostConfig) : Prop where
  mac : isValidMac host.mac = true
  image : Outside site.reader site.cacheDir host.imagePath

theorem after_outside (h : isValidMac host.mac = true) {p : List Component}
    (hp : ¬hostDir site.cacheDir host.mac <+: p) : site.after host files p = files p := by
  apply run_outside
  rintro file rfl
  exact hp (hostDir_below h file)

theorem view_after_of_ne (h : isValidMac host.mac = true) (h' : isValidMac other.mac = true)
    (hne : host.mac ≠ other.mac) :
    view (site.place other) (site.after host files) = view (site.place other) files :=
  view_run_outside (cachePath_ne h h' hne)

theorem syncHost_after (h : isValidMac host.mac = true) (h' : Sound site other)
    (hne : host.mac ≠ other.mac) :
    site.syncHost other (site.after host files) = site.syncHost other files := by
  have hframe : ∀ p, ¬site.cacheDir.components <+: p → site.after host files p = files p := by
    intro p hp
    apply after_outside h
    intro hdir
    exact hp ((List.prefix_append _ _).trans hdir)
  obtain ⟨hstat, himage⟩ := h'.image files (site.after host files) hframe
  rw [Site.syncHost, Site.syncHost, view_after_of_ne h h'.mac hne, hstat,
    syncHostCache_congr himage]

theorem ops_after (h : isValidMac host.mac = true) (h' : Sound site other)
    (hne : host.mac ≠ other.mac) :
    site.ops other (site.after host files) = site.ops other files := by
  rw [Site.ops, Site.ops, syncHost_after h h' hne]

theorem result_after (h : isValidMac host.mac = true) (h' : Sound site other)
    (hne : host.mac ≠ other.mac) :
    site.result other (site.after host files) = site.result other files := by
  rw [Site.result, Site.result, syncHost_after h h' hne]

theorem after_after (h : isValidMac host.mac = true) (h' : Sound site other)
    (hne : host.mac ≠ other.mac) :
    site.after other (site.after host files) =
      run (run files (site.ops host files)) (site.ops other files) := by
  rw [Site.after, ops_after h h' hne, Site.after]

theorem apart (h : Sound site host) (h' : Sound site other) (hne : host.mac ≠ other.mac) :
    Apart site.after site.result host other where
  swaps := by
    intro files
    rw [after_after h.mac h' hne, after_after h'.mac h hne.symm]
    exact run_comm (cachePath_injective h.mac) (cachePath_injective h'.mac)
      (cachePath_ne h.mac h'.mac hne)
  blind := fun _ ↦ result_after h.mac h' hne
  blind' := fun _ ↦ result_after h'.mac h hne.symm

theorem view_after (h : isValidMac host.mac = true) :
    view (site.place host) (site.after host files) =
      run (view (site.place host) files) (site.syncHost host files).ops :=
  view_run (cachePath_injective h)

variable {hosts : List HostConfig}

def failure (p : HostConfig × Except ExtractorError Unit) : Option (String × ExtractorError) :=
  match p.2 with
  | .ok () => none
  | .error e => some (p.1.name, e)

def recordAll (summary : SyncSummary) (l : List (HostConfig × Except ExtractorError Unit)) :
    SyncSummary := l.foldl (fun summary p ↦ summary.record p.1 p.2) summary

theorem recordAll_eq (summary : SyncSummary)
    (l : List (HostConfig × Except ExtractorError Unit)) :
    (recordAll summary l).succeeded =
        summary.succeeded + l.countP (fun p ↦ (failure p).isNone) ∧
      (recordAll summary l).failed = summary.failed ++ l.filterMap failure := by
  induction l generalizing summary with
  | nil => simp [recordAll]
  | cons p l ih =>
    obtain ⟨hsucceeded, hfailed⟩ := ih (summary.record p.1 p.2)
    rw [recordAll, List.foldl_cons, ← recordAll, hsucceeded, hfailed]
    obtain ⟨host, result⟩ := p
    cases result with
    | ok u =>
      have hnone : failure (host, .ok u) = none := rfl
      rw [List.filterMap_cons_none hnone, List.countP_cons_of_pos (by rw [hnone]; rfl)]
      simp only [SyncSummary.record, and_true]
      omega
    | error e =>
      have hsome : failure (host, .error e) = some (host.name, e) := rfl
      rw [List.filterMap_cons_some hsome, List.countP_cons_of_neg (by rw [hsome]; nofun)]
      simp [SyncSummary.record]

theorem total_recordAll (summary : SyncSummary)
    (l : List (HostConfig × Except ExtractorError Unit)) :
    (recordAll summary l).total = summary.total + l.length := by
  induction l generalizing summary with
  | nil => rfl
  | cons p l ih =>
    have hone : (summary.record p.1 p.2).total = summary.total + 1 := by
      obtain ⟨host, result⟩ := p
      cases result with
      | ok u =>
        simp only [SyncSummary.total, SyncSummary.record]
        omega
      | error e =>
        simp only [SyncSummary.total, SyncSummary.record, List.length_append,
          List.length_singleton]
        omega
    rw [recordAll, List.foldl_cons, ← recordAll, ih, hone, List.length_cons]
    omega

theorem syncHosts_eq (summary : SyncSummary) (files : Files) :
    site.syncHosts hosts summary files =
      (recordAll summary (hosts.zip (results site.after site.result hosts files)),
        runAll site.after hosts files) := by
  induction hosts generalizing summary files with
  | nil => rfl
  | cons host hosts ih =>
    rw [Site.syncHosts, ih]
    rfl

theorem pairwise_apart (h : ∀ host ∈ hosts, Sound site host)
    (hdistinct : (hosts.map HostConfig.mac).Nodup) :
    hosts.Pairwise (Apart site.after site.result) := by
  rw [List.Nodup, List.pairwise_map] at hdistinct
  exact hdistinct.imp_of_mem fun ha hb hne ↦ apart (h _ ha) (h _ hb) hne

/-- What the syncs return is what each would return alone. -/
def alone (site : Site) (files : Files) (hosts : List HostConfig) :
    List (HostConfig × Except ExtractorError Unit) :=
  hosts.map fun host ↦ (host, site.result host files)

theorem syncHosts_apart (h : hosts.Pairwise (Apart site.after site.result)) (files : Files) :
    site.syncHosts hosts {} files =
      (recordAll {} (alone site files hosts), runAll site.after hosts files) := by
  rw [syncHosts_eq, results_eq h, ← List.map_prod_left_eq_zip, alone]

theorem mem_failed {name : String} {e : ExtractorError} :
    (name, e) ∈ (recordAll {} (alone site files hosts)).failed ↔
      ∃ host ∈ hosts, host.name = name ∧ site.result host files = .error e := by
  rw [(recordAll_eq _ _).2, List.nil_append, List.mem_filterMap]
  constructor
  · rintro ⟨p, hp, hfail⟩
    obtain ⟨host, hhost, rfl⟩ := List.mem_map.mp hp
    refine ⟨host, hhost, ?_⟩
    rw [failure] at hfail
    cases hresult : site.result host files with
    | ok u =>
      rw [hresult] at hfail
      cases hfail
    | error e' =>
      rw [hresult] at hfail
      cases hfail
      exact ⟨rfl, rfl⟩
  · rintro ⟨host, hhost, rfl, hresult⟩
    refine ⟨(host, site.result host files), List.mem_map_of_mem hhost, ?_⟩
    rw [failure, hresult]

theorem recordAll_perm {l l' : List (HostConfig × Except ExtractorError Unit)} (h : l.Perm l') :
    (recordAll {} l').succeeded = (recordAll {} l).succeeded ∧
      (recordAll {} l').failed.Perm (recordAll {} l).failed := by
  rw [(recordAll_eq _ l).1, (recordAll_eq _ l).2, (recordAll_eq _ l').1, (recordAll_eq _ l').2]
  exact ⟨congrArg _ (h.countP_eq _).symm, ((h.filterMap _).symm).append_left _⟩

theorem view_runAll (h : ∀ host ∈ hosts, Sound site host)
    (hdistinct : (hosts.map HostConfig.mac).Nodup) (hhost : host ∈ hosts) (files : Files) :
    view (site.place host) (runAll site.after hosts files) =
      run (view (site.place host) files) (site.syncHost host files).ops := by
  obtain ⟨others, hperm, hrun⟩ := runAll_first (pairwise_apart h hdistinct) hhost files
  rw [hrun, ← view_after (h host hhost).mac]
  rw [(hperm.map HostConfig.mac).nodup_iff, List.map_cons, List.nodup_cons] at hdistinct
  have hothers : ∀ other ∈ others, Sound site other ∧ other.mac ≠ host.mac := by
    intro other hother
    refine ⟨h other (hperm.mem_iff.mpr (List.mem_cons_of_mem _ hother)), ?_⟩
    intro hmac
    exact hdistinct.1 (hmac ▸ List.mem_map_of_mem hother)
  generalize site.after host files = files'
  clear hrun hperm hdistinct
  induction others generalizing files' with
  | nil => rfl
  | cons other others ih =>
    obtain ⟨⟨hother, hne⟩, hrest⟩ := List.forall_mem_cons.mp hothers
    rw [runAll_cons, ih hrest, view_after_of_ne hother.mac (h host hhost).mac hne]

theorem runAll_outside (h : ∀ host ∈ hosts, isValidMac host.mac = true) {p : List Component}
    (hp : ∀ host ∈ hosts, ¬hostDir site.cacheDir host.mac <+: p) (files : Files) :
    runAll site.after hosts files p = files p := by
  induction hosts generalizing files with
  | nil => rfl
  | cons host hosts ih =>
    obtain ⟨hmac, hmacs⟩ := List.forall_mem_cons.mp h
    obtain ⟨hdir, hdirs⟩ := List.forall_mem_cons.mp hp
    rw [runAll_cons, ih hmacs hdirs, after_outside hmac hdir]

end Hosts

theorem sound_of_load {printable : Char → Bool} {fromStr : String → Option Config}
    {content : Option String} {config : Config}
    (h : Config.load printable fromStr content = .ok config) (site : Site)
    (houtside : ∀ host ∈ config.hosts, Outside site.reader site.cacheDir host.imagePath) :
    (∀ host ∈ config.hosts, Sound site host) ∧ (config.hosts.map HostConfig.mac).Nodup := by
  obtain ⟨_, _, _, _, _, hvalid⟩ := (Config.load_ok printable).mp h
  exact ⟨fun host hhost ↦ ⟨hvalid.macs host hhost, houtside host hhost⟩, hvalid.distinctMacs⟩

/-- However the hosts of an accepted configuration are ordered, a sweep leaves the same files and
reports the same: what the sync of each host alone does and returns. A host's sync works on files
in its own directory only. -/
theorem sweeps_in_any_order (printable : Char → Bool) (fromStr : String → Option Config)
    (content : Option String) (config : Config)
    (hload : Config.load printable fromStr content = .ok config) (serde : Serde)
    (reader : ImageReader) (cacheDir : PathBuf)
    (houtside : ∀ host ∈ config.hosts, Outside reader cacheDir host.imagePath) (files : Files) :
    ∃ summary files',
      syncAllHostsCache serde reader cacheDir (.ok ()) config files = .ok (summary, files') ∧
      (∀ hosts, config.hosts.Perm hosts → ∃ summary',
        syncAllHostsCache serde reader cacheDir (.ok ()) { config with hosts := hosts } files =
            .ok (summary', files') ∧
          summary'.succeeded = summary.succeeded ∧ summary'.failed.Perm summary.failed) ∧
      summary.total = config.hosts.length ∧
      (∀ name e, (name, e) ∈ summary.failed ↔ ∃ host ∈ config.hosts, host.name = name ∧
        (syncHostCache serde (reader.images files) config.server.maxArtifactBytes host
          (reader.stat files host.imagePath) (view (cachePath cacheDir host.mac) files)).result =
            .error e) ∧
      (∀ host ∈ config.hosts, view (cachePath cacheDir host.mac) files' =
        run (view (cachePath cacheDir host.mac) files)
          (syncHostCache serde (reader.images files) config.server.maxArtifactBytes host
            (reader.stat files host.imagePath) (view (cachePath cacheDir host.mac) files)).ops) ∧
      (∀ host ∈ config.hosts, ∀ files₀,
        ∀ op ∈ Site.ops ⟨serde, reader, cacheDir, config.server.maxArtifactBytes⟩ host files₀,
          cacheDir.components ++ [.normal (osString host.mac.toList)] <+: op.target) ∧
      ∀ p, files' p ≠ files p → ∃ host ∈ config.hosts,
        cacheDir.components ++ [.normal (osString host.mac.toList)] <+: p := by
  let site : Site := ⟨serde, reader, cacheDir, config.server.maxArtifactBytes⟩
  obtain ⟨hsound, hdistinct⟩ := sound_of_load hload site houtside
  have hapart := pairwise_apart hsound hdistinct
  refine ⟨recordAll {} (alone site files config.hosts), runAll site.after config.hosts files,
    ?_, ?_, ?_, ?_, ?_, ?_, ?_⟩
  · exact congrArg Except.ok (syncHosts_apart hapart files)
  · intro hosts hperm
    have hapart' := hapart.perm hperm Apart.symm
    refine ⟨recordAll {} (alone site files hosts), ?_, recordAll_perm (hperm.map _)⟩
    rw [runAll_perm hapart hperm]
    exact congrArg Except.ok (syncHosts_apart hapart' files)
  · rw [total_recordAll, alone, List.length_map]
    exact Nat.zero_add _
  · intro name e
    exact mem_failed
  · intro host hhost
    exact view_runAll hsound hdistinct hhost files
  · intro host hhost files₀ op hop
    obtain ⟨op', -, rfl⟩ := List.mem_map.mp hop
    rw [target_moved]
    exact hostDir_below (hsound host hhost).mac op'.target
  · intro p
    contrapose!
    intro hp
    have hmacs : ∀ host ∈ config.hosts, isValidMac host.mac = true := fun host hhost ↦
      (hsound host hhost).mac
    exact @runAll_outside site config.hosts hmacs p hp files

section Sample

open Coherence

def sampleHost (mac name path : String) : HostConfig :=
  { (sampleCall path none).host with mac := mac, name := name }

def sampleFleet : Config where
  server :=
    { httpBind := "0.0.0.0:8080"
      tftpBind := "0.0.0.0:69"
      tftpRoot := .ofString "/srv"
      proxyDhcpBind := "0.0.0.0:4011"
      defaultBootloaderAmd64 := "ipxe.efi"
      defaultBootloaderArm64 := "arm64.efi" }
  hosts := [sampleHost "52:54:00:10:10:10" "gone" "/gone",
    sampleHost "52:54:00:10:10:11" "host" "/a"]

def sampleYaml : String :=
  Config.serverYaml "/srv" "ipxe.efi" "arm64.efi" ++ "hosts:\n" ++
    Config.hostYaml "52:54:00:10:10:10" "gone" "/gone" ++
    Config.hostYaml "52:54:00:10:10:11" "host" "/a"

def sampleReader : ImageReader where
  stat := fun _ path ↦
    if path = "/a" then (sampleCall path none).stat else .error ⟨.notFound, "not found"⟩
  images := fun _ ↦ sampleImages

theorem sweeps_in_any_order_reversed :
    ∃ summary files' summary',
      syncAllHostsCache prettyJson sampleReader (.ofString "/cache") (.ok ()) sampleFleet
        (fun _ ↦ none) = .ok (summary, files') ∧
      syncAllHostsCache prettyJson sampleReader (.ofString "/cache") (.ok ())
        { sampleFleet with hosts := sampleFleet.hosts.reverse } (fun _ ↦ none) =
          .ok (summary', files') ∧
      summary'.succeeded = summary.succeeded ∧ summary.total = 2 ∧
      ("gone", .imageNotFound "/gone") ∈ summary.failed := by
  obtain ⟨summary, files', hrun, hperm, htotal, hfailed, -⟩ := sweeps_in_any_order (fun _ ↦ true)
    (Config.reads sampleYaml sampleFleet) (some sampleYaml) sampleFleet (Config.load_reads _ _ _)
    prettyJson sampleReader (.ofString "/cache") (fun _ _ _ _ _ ↦ ⟨rfl, rfl⟩) (fun _ ↦ none)
  obtain ⟨summary', hrun', hsucceeded, -⟩ := hperm _ (List.reverse_perm _).symm
  refine ⟨summary, files', summary', hrun, hrun', hsucceeded, htotal, ?_⟩
  exact (hfailed _ _).mpr ⟨_, List.mem_cons_self, rfl, rfl⟩

end Sample

end BootyCall.Extractor.FleetSync
