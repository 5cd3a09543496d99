import BootyCall.Extractor.FleetSync
import BootyCall.Http.Router

namespace BootyCall.Http.BootChain

open BootyCall.Core Mac Path State Spelling Lib.FileTree Lib.Lines
open Api Files Scripts Menu Router

/-- The MAC of a network card as iPXE writes it for its `hexhyp` format. -/
def hexhyp (mac : Vector UInt8 6) : List Char := ['-'].intercalate (mac.toList.map hexByte)

def macSetting : List Char := "$\x7bmac:hexhyp\x7d".toList

def expand (mac : Vector UInt8 6) (path : List Char) : List Char :=
  if macSetting <:+ path then path.take (path.length - macSetting.length) ++ hexhyp mac else path

def urlPath (url : List Char) : List Char := (url.drop 7).dropWhile (· ≠ '/')

def urlOf (line : Line) : Option (List Char) :=
  (line.splitOn ' ').find? fun w ↦ decide ("http://".toList <+: w)

/-- The paths that the commands of a script fetch from the server. -/
def fetched (word script : String) : List (List Char) :=
  ((commands word.toList (linesOf script.toList)).filterMap urlOf).map urlPath

/-- A server address without anything that would end it in a URL. -/
def Authority (hostHdr : String) : Prop := ' ' ∉ hostHdr.toList ∧ '/' ∉ hostHdr.toList

/-- The decoding leaves alone what nothing is encoded in. -/
def Decodes (decode : List Char → Except StatusCode String) : Prop :=
  ∀ cs, '%' ∉ cs → decode cs = .ok (String.ofList cs)

def artifacts : List String := ["kernel", "initrd"]

def cached (mac artifact : String) : String := mac ++ "/" ++ artifact

/-- There is something in an artifact, wherever its path leads. -/
def Stored (disk : Disk) (cacheDir : PathBuf) (mac artifact : String) : Prop :=
  ∃ l, disk.fs.resolve ((cacheDir.join (.ofString mac)).join (.ofString artifact)) = some l ∧
    disk.fs.tree.entry l = some .file ∧ disk.bytes l ≠ []

/-- A request for a cached file is answered with the file, and there is something in it. -/
def Served (server : Server) (world : World) (path : String) : Prop :=
  ∃ file ≠ [], ∀ headers clientIp store,
    handle server world headers clientIp (.cacheFile path) store =
      (store, .of ok (.file "application/octet-stream" file))

/-- Whatever a request for a cached file leads to lies in the cache directory and may be opened. -/
def Fetchable (server : Server) (world : World) (path : String) : Prop :=
  ∀ l, world.disk.fs.resolve (server.cacheDir.join (.ofString (Path.normalize path))) = some l →
    Names world.disk.fs server.cacheDir path l ∧ world.disk.opens l = true

/-- From `/start` on a machine gets to the artifacts of a host, whatever else is asked for in
between. -/
def Boots (decode : List Char → Except StatusCode String) (server : Server) (world : World)
    (headers : HeaderMap) (clientIp : String) (store : StateStore) (mac : Vector UInt8 6)
    (host : HostConfig) : Prop :=
  ∃ start segment script,
    (∀ before, handle server world headers clientIp .start before =
      (before, .of ok (.text start))) ∧
    (fetched "chain" start).map (fun path ↦ routeOf decode (expand mac path)) =
      [some (.ok (.poll segment))] ∧
    (handle server world headers clientIp (.poll segment) store).2 = .of ok (.text script) ∧
    ∀ artifact ∈ artifacts,
      (fetched artifact script).map (routeOf decode) =
          [some (.ok (.cacheFile (cached host.mac artifact)))] ∧
        Served server world (cached host.mac artifact)

section Sample

def stockedTree : DirTree OsString where
  nodes := [([], .dir), ([name "cache"], .dir), ([name rack.mac, name "cache"], .dir),
    ([name "kernel", name rack.mac, name "cache"], .file),
    ([name "initrd", name rack.mac, name "cache"], .file)]
  root_dir := rfl
  parent_dir := by decide

def stocked : World where
  disk :=
    { fs :=
        { tree := stockedTree
          cwd := []
          maxLinks := 40
          valid := by
            simp only [ValidName]
            decide
          cwd_dir := rfl }
      bytes := fun _ ↦ [0x4d, 0x5a]
      opens := fun _ ↦ true }
  readDir := fun _ ↦ []
  random := 0
  now := 0
  listing := []

def rackServer : Server where
  config := rackConfig (some "quiet")
  cacheDir := .ofString "/cache"
  staticDir := .ofString "/srv"
  registered := true
  assets := fun _ ↦ none
  sha256 := fun _ ↦ .replicate 32 0

theorem fetchable_stocked : ∀ host ∈ rackServer.config.hosts, ∀ artifact ∈ artifacts,
    Fetchable rackServer stocked (cached host.mac artifact) := by
  have hplace : ∀ artifact ∈ artifacts, Names stocked.disk.fs rackServer.cacheDir
      (cached rack.mac artifact) [name artifact, name rack.mac, name "cache"] := by
    intro artifact hartifact
    refine ⟨[name "cache"], by decide +kernel, ?_, ⟨[_, _], rfl⟩⟩
    rcases List.mem_pair.mp hartifact with rfl | rfl <;> decide +kernel
  intro host hhost artifact hartifact l hl
  obtain rfl := List.mem_singleton.mp hhost
  have hnames := hplace artifact hartifact
  obtain ⟨_, -, hthere, -⟩ := id hnames
  obtain rfl := Option.some.inj (hthere.symm.trans hl)
  exact ⟨hnames, rfl⟩

end Sample

variable {server : Server} {world : World} {disk : Disk} {mac artifact : String} {dir : PathBuf}

theorem ofString_pair {a b : String} (ha : '/' ∉ a.toList) (hb : '/' ∉ b.toList) :
    PathBuf.ofString (a ++ "/" ++ b) = ⟨[osString a.toList, osString b.toList]⟩ := by
  have hsplit : (a ++ "/" ++ b).toList = a.toList ++ '/' :: b.toList := by
    simp
  rw [PathBuf.ofString, hsplit, List.splitOn_append_cons_self, List.splitOn_eq_singleton ha,
    List.splitOn_eq_singleton hb]
  rfl

theorem join_pair {m n : OsString} (hm : m ≠ []) (hn : n ≠ []) (dir : PathBuf) :
    dir.join ⟨[m, n]⟩ = (dir.join ⟨[m]⟩).join ⟨[n]⟩ := by
  have hpair : (PathBuf.mk [m, n]).isAbsolute = false := by simp [PathBuf.isAbsolute, hm]
  have hsingle {k : OsString} (hk : k ≠ []) : (PathBuf.mk [k]).isAbsolute = false := by
    simp [PathBuf.isAbsolute, hk]
  simp only [PathBuf.join, hpair, hsingle hm, hsingle hn, if_neg Bool.false_ne_true]
  split <;> simp [hm]

theorem normalize_of_plain {s : String} (h : '\\' ∉ s.toList) : Path.normalize s = s := by
  rw [Path.normalize, List.map_congr_left (g := id), List.map_id, String.ofList_toList]
  intro c hc
  rw [if_neg]
  · rfl
  · rintro rfl
    exact h hc

theorem digit_hexDigit {n : ℕ} (h : n < 16) : Digit (hexDigit n) := by
  have hall : ∀ n < 16, 48 ≤ (hexDigit n).toNat ∧ (hexDigit n).toNat ≤ 58 ∨
      97 ≤ (hexDigit n).toNat ∧ (hexDigit n).toNat ≤ 102 := by decide
  exact hall n h

theorem hexhyp_bytes (a b c d e f : UInt8) : hexhyp #v[a, b, c, d, e, f] =
    hexByte a ++ '-' :: (hexByte b ++ '-' :: (hexByte c ++ '-' :: (hexByte d ++ '-' ::
      (hexByte e ++ '-' :: hexByte f)))) := rfl

theorem mem_hexhyp {mac : Vector UInt8 6} {c : Char} (h : c ∈ hexhyp mac) :
    c = '-' ∨ Digit c := by
  have hbyte (x : UInt8) : ∀ c ∈ hexByte x, Digit c := by
    have hx := x.toNat_lt
    intro c hc
    rcases List.mem_pair.mp hc with rfl | rfl
    · exact digit_hexDigit (by omega)
    · exact digit_hexDigit (by omega)
  obtain ⟨a, b, c', d, e, f, rfl⟩ := exists_bytes mac
  rw [hexhyp_bytes] at h
  simp only [List.mem_append, List.mem_cons] at h
  rcases h with h | rfl | h | rfl | h | rfl | h | rfl | h | rfl | h
  all_goals first | exact .inl rfl | exact .inr (hbyte _ _ h)

theorem hexhyp_lacks (mac : Vector UInt8 6) {c : Char} (hhyphen : c ≠ '-') (hdigit : ¬Digit c) :
    c ∉ hexhyp mac := fun hc ↦ (mem_hexhyp hc).elim hhyphen hdigit

theorem normalizeMac_hexhyp (mac : Vector UInt8 6) :
    normalizeMac (String.ofList (hexhyp mac)) = formatMac mac := by
  have hsame (d : Char) : Written d d := by
    rw [Written]
    split
    · exact .inl ‹_›
    · exact .inl rfl
  have hhyphen : Written ':' '-' := by decide
  rw [normalizeMac_iff]
  refine ⟨[], hexhyp mac, [], by simp, by simp, ?_⟩
  obtain ⟨a, b, c, d, e, f, rfl⟩ := exists_bytes mac
  rw [formatMac_bytes, hexhyp_bytes]
  simp [hexByte, hsame, hhyphen]

theorem plain_artifact (h : artifact ∈ artifacts) :
    '/' ∉ artifact.toList ∧ '\\' ∉ artifact.toList ∧ '%' ∉ artifact.toList ∧
      ' ' ∉ artifact.toList ∧ ValidName (osString artifact.toList) := by
  rw [artifacts] at h
  rcases List.mem_pair.mp h with rfl | rfl
  · rw [ValidName]
    decide
  · rw [ValidName]
    decide

theorem mac_lacks (hmac : isValidMac mac = true) {c : Char} (h : ¬Digit c) : c ∉ mac.toList :=
  fun hc ↦ h (toNat_of_isValidMac hmac hc)

section Artifact

variable (hmac : isValidMac mac = true) (hartifact : artifact ∈ artifacts)

include hmac hartifact

theorem normalize_cached : normalize (cached mac artifact) = cached mac artifact := by
  obtain ⟨-, hback, -⟩ := plain_artifact hartifact
  have hmacBack := mac_lacks hmac (c := '\\') (by rw [Digit]; decide)
  apply normalize_of_plain
  simp [cached, hback, hmacBack]

theorem ofString_cached : PathBuf.ofString (normalize (cached mac artifact)) =
    ⟨[osString mac.toList, osString artifact.toList]⟩ := by
  obtain ⟨hslash, -⟩ := plain_artifact hartifact
  rw [normalize_cached hmac hartifact, cached,
    ofString_pair (Extractor.FleetSync.validName_mac hmac).2 hslash]

theorem components_cached :
    (PathBuf.ofString (normalize (cached mac artifact))).components =
      [.normal (osString mac.toList), .normal (osString artifact.toList)] := by
  obtain ⟨-, -, -, -, hartifactName⟩ := plain_artifact hartifact
  have hmacName := (Extractor.FleetSync.validName_mac hmac).1
  have hstart :
      (PathBuf.mk [osString mac.toList, osString artifact.toList]).isAbsolute = false := by
    simp [PathBuf.isAbsolute, hmacName.1]
  have hdot : some (osString mac.toList) ≠ some dot := fun h ↦ hmacName.2.1 (Option.some.inj h)
  rw [ofString_cached hmac hartifact, PathBuf.components, hstart, if_neg Bool.false_ne_true,
    List.head?_cons, if_neg hdot]
  simp [component_of_valid hmacName, component_of_valid hartifactName]

theorem descends_cached : Descends (cached mac artifact) := by
  intro c hc
  rw [components_cached hmac hartifact] at hc
  rcases List.mem_pair.mp hc with rfl | rfl <;> rfl

theorem resolve_cached (fs : FileSystem) :
    fs.resolve (dir.join (.ofString (Path.normalize (cached mac artifact)))) =
      fs.resolve ((dir.join (.ofString mac)).join (.ofString artifact)) := by
  obtain ⟨hslash, -, -, -, hartifactName⟩ := plain_artifact hartifact
  have hmacName := Extractor.FleetSync.validName_mac hmac
  rw [ofString_cached hmac hartifact, join_pair hmacName.1.1 hartifactName.1,
    Extractor.FleetSync.ofString_name hmacName.2, Extractor.FleetSync.ofString_name hslash]

theorem names_cached {fs : FileSystem} {l : Loc OsString} :
    Names fs dir (cached mac artifact) l ↔ ∃ r, fs.resolve dir = some r ∧
      fs.resolve ((dir.join (.ofString mac)).join (.ofString artifact)) = some l ∧ r <:+ l := by
  rw [Names, resolve_cached hmac hartifact]

theorem contentTypeFor_cached :
    contentTypeFor (cached mac artifact) = "application/octet-stream" := by
  have hname : fileName (.ofString (cached mac artifact)) = some (osString artifact.toList) := by
    rw [← normalize_cached hmac hartifact, fileName, components_cached hmac hartifact]
    rfl
  have hext : (fileName (.ofString (cached mac artifact))).bind extension = none := by
    rw [hname, Option.bind_some]
    rw [artifacts] at hartifact
    rcases List.mem_pair.mp hartifact with rfl | rfl <;> decide
  rw [contentTypeFor, hext]
  decide

theorem served_iff : Served server world (cached mac artifact) ↔
    Stored world.disk server.cacheDir mac artifact ∧
      Fetchable server world (cached mac artifact) := by
  constructor
  · rintro ⟨file, hfile, hserved⟩
    have hanswer := congrArg Prod.snd (hserved [] "" {})
    have hok : serveFileFromDir world.disk server.cacheDir (cached mac artifact) =
        .ok ("application/octet-stream", file) := by
      simp only [handle, serveFile] at hanswer
      cases hserve : serveFileFromDir world.disk server.cacheDir (cached mac artifact) with
      | error status =>
        rw [hserve] at hanswer
        cases hanswer
      | ok p =>
        obtain ⟨contentType, served⟩ := p
        rw [hserve] at hanswer
        cases hanswer
        rfl
    obtain ⟨-, -, l, hnames, hentry, hopens, rfl⟩ := serveFileFromDir_ok.mp hok
    obtain ⟨_, -, hl, -⟩ := (names_cached hmac hartifact).mp hnames
    refine ⟨⟨l, hl, hentry, hfile⟩, fun l' hl' ↦ ?_⟩
    rw [resolve_cached hmac hartifact] at hl'
    obtain rfl := Option.some.inj (hl.symm.trans hl')
    exact ⟨hnames, hopens⟩
  · rintro ⟨⟨l, hl, hentry, hfile⟩, hfetchable⟩
    obtain ⟨hnames, hopens⟩ := hfetchable l ((resolve_cached hmac hartifact _).trans hl)
    have hok := serveFileFromDir_ok.mpr ⟨descends_cached hmac hartifact,
      contentTypeFor_cached hmac hartifact, l, hnames, hentry, hopens, rfl⟩
    refine ⟨_, hfile, fun headers clientIp store ↦ ?_⟩
    simp only [handle, serveFile, hok]
    rfl

end Artifact

theorem hostCacheReady_iff :
    hostCacheReady disk mac dir = true ↔ ∀ artifact ∈ artifacts, Stored disk dir mac artifact := by
  have hnonempty (name : String) : ((disk.fs.resolve ((dir.join (.ofString mac)).join
      (.ofString name))).any fun l ↦
        decide (disk.fs.tree.entry l = some .file ∧ 0 < (disk.bytes l).length)) = true ↔
      Stored disk dir mac name := by
    simp only [Option.any_eq_true, decide_eq_true_eq, Stored, List.length_pos_iff]
  rw [hostCacheReady, Bool.and_eq_true, hnonempty, hnonempty, artifacts]
  simp only [List.forall_mem_cons, List.not_mem_nil, IsEmpty.forall_iff, implies_true, and_true]

theorem status_apiHealth (headers : HeaderMap) (clientIp : String) (store : StateStore) :
    (handle server world headers clientIp .apiHealth store).2.status = ok ↔
      ∀ host ∈ server.config.hosts,
        hostCacheReady world.disk host.mac server.cacheDir = true := by
  have hstatus : serviceUnavailable ≠ ok := by decide
  simp only [handle, apiHealthHandler, Response.of, List.isEmpty_iff, List.map_eq_nil_iff]
  split
  · next hnone =>
    refine iff_of_true rfl fun host hhost ↦ ?_
    simpa using List.filter_eq_nil_iff.mp hnone host hhost
  · next hsome =>
    refine iff_of_false hstatus fun hall ↦ hsome (List.filter_eq_nil_iff.mpr fun host hhost ↦ ?_)
    simp [hall host hhost]

theorem urlOf_words {words : List Line} (hwords : ∀ w ∈ words, ' ' ∉ w ∧ ¬"http://".toList <+: w)
    {url after : Line} (hurl : ' ' ∉ url) (hscheme : "http://".toList <+: url)
    (hafter : after.head? = none ∨ after.head? = some ' ') :
    urlOf (words.flatMap (· ++ [' ']) ++ (url ++ after)) = some url := by
  induction words with
  | nil =>
    have hfirst : ∃ rest, (url ++ after).splitOn ' ' = url :: rest := by
      cases after with
      | nil => exact ⟨[], by rw [List.append_nil, List.splitOn_eq_singleton hurl]⟩
      | cons c after =>
        obtain rfl : c = ' ' := by simpa using hafter
        refine ⟨after.splitOn ' ', ?_⟩
        rw [List.splitOn_append_cons_self, List.splitOn_eq_singleton hurl]
        rfl
    obtain ⟨rest, hrest⟩ := hfirst
    rw [urlOf, List.flatMap_nil, List.nil_append, hrest, List.find?_cons_of_pos]
    exact decide_eq_true hscheme
  | cons word words ih =>
    obtain ⟨⟨hspace, hother⟩, hwords⟩ := List.forall_mem_cons.mp hwords
    have hsplit : (List.flatMap (· ++ [' ']) (word :: words) ++ (url ++ after)).splitOn ' ' =
        word :: (words.flatMap (· ++ [' ']) ++ (url ++ after)).splitOn ' ' := by
      rw [List.flatMap_cons, List.append_assoc, List.append_assoc, List.singleton_append,
        List.splitOn_append_cons_self, List.splitOn_eq_singleton hspace]
      rfl
    rw [urlOf, hsplit, List.find?_cons_of_neg]
    · exact ih hwords
    · exact mt of_decide_eq_true hother

theorem urlPath_http {authority path : List Char} (h : '/' ∉ authority) :
    urlPath ("http://".toList ++ (authority ++ '/' :: path)) = '/' :: path := by
  have hauthority : ∀ c ∈ authority, decide (c ≠ '/') = true := by
    intro c hc
    simp only [decide_eq_true_eq]
    rintro rfl
    exact h hc
  have hdrop : ("http://".toList ++ (authority ++ '/' :: path)).drop 7 = authority ++ '/' :: path :=
    List.drop_left' (by decide)
  rw [urlPath, hdrop, List.dropWhile_append_of_pos hauthority, List.dropWhile_cons_of_neg (by simp)]

theorem http_not_mem {c : Char} {authority path : List Char} (hscheme : c ∉ "http://".toList)
    (hauthority : c ∉ authority) (hpath : c ∉ path) :
    c ∉ "http://".toList ++ (authority ++ path) := by
  rw [List.mem_append, List.mem_append, not_or, not_or]
  exact ⟨hscheme, hauthority, hpath⟩

def startUrl (hostHdr : String) : Line :=
  "http://".toList ++ (hostHdr.toList ++ ("/poll/".toList ++ macSetting))

def startLines (hostHdr : String) : List Line :=
  ["#!ipxe".toList, "echo".toList ++ ' ' :: "BootyCall starting...".toList,
    "chain".toList ++ ' ' :: (["--autofree".toList, "--replace".toList].flatMap (· ++ [' ']) ++
      startUrl hostHdr)]

theorem startScript_eq (hostHdr : String) :
    (startScript hostHdr).toList = unlines (startLines hostHdr) := by
  delta startScript startLines startUrl macSetting
  simp [unlines]

theorem fetched_start (hauthority : Authority hostHdr) (hserver : '\n' ∉ hostHdr.toList) :
    fetched "chain" (startScript hostHdr) = ["/poll/".toList ++ macSetting] := by
  have hspace : ' ' ∉ startUrl hostHdr :=
    http_not_mem (by decide) hauthority.1 (by decide)
  have hbreak : '\n' ∉ startUrl hostHdr := http_not_mem (by decide) hserver (by decide)
  have hlines : linesOf (startScript hostHdr).toList = startLines hostHdr ++ [[]] := by
    rw [startScript_eq, ← List.append_nil (unlines _), linesOf_unlines]
    · rfl
    · rw [startLines]
      simp only [List.forall_mem_cons, List.not_mem_nil, IsEmpty.forall_iff, implies_true,
        and_true]
      refine ⟨by decide, by decide, ?_⟩
      rw [List.mem_append, List.mem_cons, List.mem_append, not_or, not_or, not_or]
      exact ⟨by decide, by decide, by decide, hbreak⟩
  have hcommands : commands "chain".toList (linesOf (startScript hostHdr).toList) =
      [["chain".toList, "--autofree".toList, "--replace".toList].flatMap (· ++ [' ']) ++
        (startUrl hostHdr ++ [])] := by
    have hshebang : commands "chain".toList ["#!ipxe".toList] = [] := by decide
    have hrest : commands "chain".toList [[]] = [] := by decide
    rw [hlines, startLines, ← List.singleton_append, List.append_assoc, commands_append,
      hshebang, List.nil_append, List.cons_append, commands_cons (by decide), if_neg (by decide),
      List.cons_append, commands_cons (by decide), if_pos rfl, List.nil_append, hrest,
      List.append_nil]
    simp only [List.flatMap_cons, List.append_assoc, List.cons_append, List.nil_append]
  rw [fetched, hcommands, List.filterMap_cons, urlOf_words (by decide) hspace
    (List.prefix_append ..) (.inl rfl)]
  exact congrArg ([·]) (urlPath_http hauthority.2)

theorem routeOf_poll {decode : List Char → Except StatusCode String} (hdecode : Decodes decode)
    (mac : Vector UInt8 6) : routeOf decode (expand mac ("/poll/".toList ++ macSetting)) =
      some (.ok (.poll (String.ofList (hexhyp mac)))) := by
  have hexpand : expand mac ("/poll/".toList ++ macSetting) = "/poll/".toList ++ hexhyp mac := by
    rw [expand, if_pos (List.suffix_append ..), List.length_append, Nat.add_sub_cancel,
      List.take_left]
  have hslash := hexhyp_lacks mac (c := '/') (by decide) (by rw [Digit]; decide)
  have hpercent := hexhyp_lacks mac (c := '%') (by decide) (by rw [Digit]; decide)
  have hlength : 0 < (hexhyp mac).length := by
    obtain ⟨a, b, c, d, e, f, rfl⟩ := exists_bytes mac
    exact Nat.succ_pos _
  rw [hexpand, routeOf]
  simp [hslash, hdecode _ hpercent, hlength, Except.map]

theorem routeOf_cached {decode : List Char → Except StatusCode String} (hdecode : Decodes decode)
    (hmac : isValidMac mac = true) (hartifact : artifact ∈ artifacts) :
    routeOf decode ("/cache/".toList ++ (cached mac artifact).toList) =
      some (.ok (.cacheFile (cached mac artifact))) := by
  have hpercent : '%' ∉ (cached mac artifact).toList := by
    obtain ⟨-, -, hpercent, -⟩ := plain_artifact hartifact
    have hmacPercent := mac_lacks hmac (c := '%') (by rw [Digit]; decide)
    simp [cached, hmacPercent, hpercent]
  have hlength : 0 < (cached mac artifact).toList.length :=
    List.length_pos_of_mem (a := '/') (by simp [cached])
  rw [routeOf]
  simp [hdecode _ hpercent, hlength, Except.map]

def artifactUrl (hostHdr mac artifact : String) : Line :=
  "http://".toList ++ (hostHdr.toList ++ ("/cache/".toList ++ (cached mac artifact).toList))

theorem command_artifact (hartifact : artifact ∈ artifacts) (hostHdr : String) (host : HostConfig)
    (targetOf : Option String) (cmdline : Line) :
    ∃ after : Line, (after.head? = none ∨ after.head? = some ' ') ∧
      commands artifact.toList (block hostHdr host targetOf cmdline) =
        [artifact.toList ++ ' ' :: (artifactUrl hostHdr host.mac artifact ++ after)] := by
  obtain ⟨hkernel, hinitrd⟩ := commands_block hostHdr host targetOf cmdline
  rcases List.mem_pair.mp hartifact with rfl | rfl
  · refine ⟨' ' :: cmdline, .inr rfl, hkernel.trans ?_⟩
    delta kernelLine artifactUrl cached
    simp
  · refine ⟨[], .inl rfl, hinitrd.trans ?_⟩
    delta initrdLine artifactUrl cached
    simp

theorem fetched_artifact (hauthority : Authority hostHdr) (hserver : '\n' ∉ hostHdr.toList)
    {host : HostConfig} (hhost : Unbroken host) (hmac : isValidMac host.mac = true)
    {targetOf : Option String} (htarget : ∀ m, targetOf = some m → '\n' ∉ m.toList)
    (hartifact : artifact ∈ artifacts) :
    fetched artifact (bootScript hostHdr host targetOf) =
      ["/cache/".toList ++ (cached host.mac artifact).toList] := by
  obtain ⟨-, -, -, hspace, -⟩ := plain_artifact hartifact
  have hmacSpace := mac_lacks hmac (c := ' ') (by rw [Digit]; decide)
  have hurl : ' ' ∉ artifactUrl hostHdr host.mac artifact :=
    http_not_mem (by decide) hauthority.1 (by simp [cached, hspace, hmacSpace])
  have hshebang : commands artifact.toList ["#!ipxe".toList] = [] := by
    rcases List.mem_pair.mp hartifact with rfl | rfl <;> decide
  have hword : ' ' ∉ artifact.toList ∧ ¬"http://".toList <+: artifact.toList := by
    rcases List.mem_pair.mp hartifact with rfl | rfl <;> decide
  obtain ⟨after, hafter, hcommand⟩ := command_artifact hartifact hostHdr host targetOf
    (host.cmdline.getD "").toList
  have hline : urlOf (artifact.toList ++ ' ' :: (artifactUrl hostHdr host.mac artifact ++ after)) =
      some (artifactUrl hostHdr host.mac artifact) := by
    have hwords : ∀ w ∈ [artifact.toList], ' ' ∉ w ∧ ¬"http://".toList <+: w := by
      simpa using hword
    simpa using urlOf_words hwords hurl (List.prefix_append ..) hafter
  rw [fetched, linesOf_boot hhost hserver htarget, ← List.singleton_append, commands_append,
    hshebang, List.nil_append, hcommand, List.filterMap_cons, hline]
  exact congrArg ([·]) (urlPath_http hauthority.2)

theorem chosenHost_mem {config : Config} {store : StateStore} {host : HostConfig}
    (h : chosenHost config store mac = some host) : host ∈ config.hosts := by
  rw [chosenHost] at h
  cases hfind : config.findHost mac with
  | some found =>
    rw [hfind] at h
    obtain rfl := Option.some.inj h
    exact List.mem_of_find?_eq_some hfind
  | none =>
    rw [hfind] at h
    obtain ⟨_, -, h⟩ := Option.bind_eq_some_iff.mp h
    obtain ⟨_, -, h⟩ := Option.bind_eq_some_iff.mp h
    exact List.mem_of_find?_eq_some h

/-- The probe names the hosts for which an artifact is missing or empty. The artifacts of another
host are served, if only the links on their paths stay in the cache and the files may be opened. -/
theorem healthy_iff_served (printable : Char → Bool) (fromStr : String → Option Config)
    (content : Option String) (config : Config)
    (hload : Config.load printable fromStr content = .ok config) (server : Server)
    (hconfig : server.config = config) (world : World) :
    ∃ notReady : List HostConfig, notReady.Sublist config.hosts ∧
      (∀ headers clientIp store, handle server world headers clientIp .apiHealth store =
        (store, .of (if notReady.isEmpty then ok else serviceUnavailable)
          (.health notReady.isEmpty config.hosts.length (notReady.map HostConfig.name)))) ∧
      (∀ host ∈ config.hosts, host ∈ notReady ↔
        ∃ artifact ∈ artifacts, ¬Stored world.disk server.cacheDir host.mac artifact) ∧
      ∀ host ∈ config.hosts,
        (∀ artifact ∈ artifacts, Served server world (cached host.mac artifact)) ↔
          host ∉ notReady ∧
            ∀ artifact ∈ artifacts, Fetchable server world (cached host.mac artifact) := by
  subst hconfig
  obtain ⟨_, _, _, _, _, hvalid⟩ := (Config.load_ok printable).mp hload
  have hlisted : ∀ host ∈ server.config.hosts, host ∉ (server.config.hosts.filter fun h ↦
      !hostCacheReady world.disk h.mac server.cacheDir) ↔
        ∀ artifact ∈ artifacts, Stored world.disk server.cacheDir host.mac artifact := by
    intro host hhost
    rw [List.mem_filter, ← hostCacheReady_iff]
    simp [hhost]
  refine ⟨server.config.hosts.filter fun h ↦ !hostCacheReady world.disk h.mac server.cacheDir,
    List.filter_sublist, fun headers clientIp store ↦ ?_, fun host hhost ↦ ?_, fun host hhost ↦ ?_⟩
  · simp only [handle, apiHealthHandler, List.isEmpty_map]
  · simpa using not_congr (hlisted host hhost)
  · rw [hlisted host hhost, ← forall₂_and]
    exact forall₂_congr fun artifact hartifact ↦ served_iff (hvalid.macs host hhost) hartifact

theorem healthy_iff_served_rack :
    Served rackServer stocked (cached rack.mac "kernel") ∧
      Served rackServer stocked (cached rack.mac "initrd") := by
  have hload : Config.load (fun _ ↦ true) (Config.reads rackYaml (rackConfig (some "quiet")))
      (some rackYaml) = .ok (rackConfig (some "quiet")) :=
    Config.load_reads _ _ _
  have hhost : rack ∈ (rackConfig (some "quiet")).hosts := List.mem_singleton_self _
  have hstatus : (apiHealthHandler rackServer stocked.disk).status = ok := by decide +kernel
  obtain ⟨notReady, -, hanswer, -, hserved⟩ := healthy_iff_served _ _ _ _ hload rackServer rfl stocked
  have hready : rack ∉ notReady := by
    intro hmem
    have hok := congrArg (fun p ↦ p.2.status) (hanswer [] "" {})
    cases notReady with
    | nil => cases hmem
    | cons host rest =>
      have hne : serviceUnavailable ≠ ok := by decide
      exact hne (hok.symm.trans hstatus)
  have hboth := (hserved rack hhost).mpr ⟨hready, fetchable_stocked rack hhost⟩
  exact ⟨hboth "kernel" (by decide), hboth "initrd" (by decide)⟩

/-- A machine boots from `/start` on if it is given a host, once the probe has found nothing
missing. -/
theorem boots_when_healthy (printable : Char → Bool) (fromStr : String → Option Config)
    (content : Option String) (config : Config)
    (hload : Config.load printable fromStr content = .ok config)
    (htexts : ∀ host ∈ config.hosts, '\n' ∉ host.name.toList ∧
      ∀ cmdline, host.cmdline = some cmdline → '\n' ∉ cmdline.toList)
    (server : Server) (hconfig : server.config = config) (hregistered : server.registered = true)
    (world : World)
    (hhealthy : ∃ headers clientIp store,
      (handle server world headers clientIp .apiHealth store).2.status = ok)
    (hfetchable : ∀ host ∈ config.hosts, ∀ artifact ∈ artifacts,
      Fetchable server world (cached host.mac artifact))
    (decode : List Char → Except StatusCode String) (hdecode : Decodes decode)
    (headers : HeaderMap) (hauthority : Authority (hostHeader (headers.lookup "host")))
    (clientIp : String) (store : StateStore) (mac : Vector UInt8 6) (host : HostConfig)
    (hchosen : chosenHost config store (formatMac mac) = some host) :
    Boots decode server world headers clientIp store mac host := by
  subst hconfig
  obtain ⟨_, _, _, _, _, hvalid⟩ := (Config.load_ok printable).mp hload
  obtain ⟨_, _, _, hready⟩ := hhealthy
  rw [status_apiHealth] at hready
  have hhost : host ∈ server.config.hosts := chosenHost_mem hchosen
  have hmac := hvalid.macs host hhost
  have hbytes := isValidMac_formatMac mac
  have hserver := unbroken_hostHeader (headers.lookup "host")
  obtain ⟨targetOf, htarget, houtcome⟩ :=
    Menu.decidePollOutcome_chosen (hostHeader (headers.lookup "host")) hbytes hchosen
  refine ⟨startScript (hostHeader (headers.lookup "host")), String.ofList (hexhyp mac),
    bootScript (hostHeader (headers.lookup "host")) host targetOf, fun _ ↦ rfl, ?_, ?_,
    fun artifact hartifact ↦ ⟨?_, ?_⟩⟩
  · rw [fetched_start hauthority hserver, List.map_singleton, routeOf_poll hdecode]
  · simp only [handle, PollScript.pollHandler, normalizeMac_hexhyp, hbytes, hregistered, if_true,
      houtcome, PollScript.respond]
    rfl
  · rw [fetched_artifact hauthority hserver ⟨unbroken_mac hmac, htexts host hhost⟩ hmac
      (fun m hm ↦ htarget m hm ▸ unbroken_mac hbytes) hartifact, List.map_singleton,
      routeOf_cached hdecode hmac hartifact]
  · exact (served_iff hmac hartifact).mpr ⟨hostCacheReady_iff.mp (hready host hhost) artifact
      hartifact, hfetchable host hhost artifact hartifact⟩

theorem boots_when_healthy_rack :
    Boots (fun cs ↦ .ok (String.ofList cs)) rackServer stocked [] "10.0.0.5" {}
      #v[0xaa, 0xbb, 0xcc, 0xdd, 0xee, 0xff] rack := by
  have hload : Config.load (fun _ ↦ true) (Config.reads rackYaml (rackConfig (some "quiet")))
      (some rackYaml) = .ok (rackConfig (some "quiet")) :=
    Config.load_reads _ _ _
  have hauthority : Authority (hostHeader none) := by
    rw [Authority]
    decide
  exact boots_when_healthy _ _ _ _ hload (by decide) rackServer rfl rfl stocked
    ⟨[], "", {}, by decide +kernel⟩ fetchable_stocked _ (fun _ _ ↦ rfl) [] hauthority _ _ _ _
    (by decide +kernel)

end BootyCall.Http.BootChain
