import BootyCall.Http.Files
import BootyCall.Http.PollScript

namespace BootyCall.Http.Router

open BootyCall.Core Mac Path State Lib.FileTree Api Files Scripts

structure WallpaperQuery where
  width : Option ℕ
  height : Option ℕ
  hdVideo : Option String

/-- What the router hands to a handler. The bodies are what the extractors make of a query and of
JSON before a handler runs. -/
inductive Route
  | root
  | ui (path : String)
  | staticFile (path : String)
  | cacheFile (path : String)
  | start
  | poll (mac : String)
  | ipxemenu
  | wallpaper (query : Except StatusCode WallpaperQuery)
  | apiStatus
  | apiLogs
  | apiHealth
  | apiOverride (body : Except StatusCode OverrideRequest)

inductive Body
  | empty
  | text (s : String)
  | file (contentType : String) (content : List UInt8)
  | hosts (hosts : List HostState) (configs : List HostConfig)
  | logs (entries : List LogEvent)
  | health (healthy : Bool) (hostsTotal : ℕ) (hostsNotReady : List String)
  | overridden

structure Response where
  status : StatusCode
  location : Option String
  body : Body

def ok : StatusCode := 200
def seeOther : StatusCode := 303
def serviceUnavailable : StatusCode := 503

def Response.of (status : StatusCode) (body : Body) : Response := ⟨status, none, body⟩

def Response.ofResult : Except StatusCode Body → Response
  | .ok body => .of Router.ok body
  | .error status => .of status .empty

/-- What a server works with; `assets` are the files it embeds. -/
structure Server where
  config : Config
  cacheDir : PathBuf
  staticDir : PathBuf
  registered : Bool
  assets : String → Option (List UInt8)
  sha256 : List UInt8 → Vector UInt8 32

/-- What a request meets: the disk, what reading a directory gives before its end or an error, a
random number, the clock, and the hosts in the order of the map. -/
structure World where
  disk : Disk
  readDir : PathBuf → List OsString
  random : ℕ
  now : SystemTime
  listing : List HostState

def serveAsset (assets : String → Option (List UInt8)) (path : String) : Response :=
  match assets path with
  | some content => .of ok (.file (contentTypeFor path) content)
  | none => .of notFound .empty

def serveFile (disk : Disk) (dir : PathBuf) (path : String) : Response :=
  .ofResult ((serveFileFromDir disk dir path).map fun p ↦ .file p.1 p.2)

def startScript (hostHdr : String) : String :=
  "#!ipxe\necho BootyCall starting...\nchain --autofree --replace http://" ++ hostHdr ++
    "/poll/$\x7bmac:hexhyp\x7d\n"

def maxWallpaperCandidates : ℕ := 1024

def isWallpaper (fileName : String) : Bool :=
  let lower := fileName.toList.map Char.toLower
  decide (".png".toList <:+ lower ∨ ".jpg".toList <:+ lower ∨ ".jpeg".toList <:+ lower)

def toStringLossy (n : OsString) : String := String.ofList (fromUtf8Lossy n.length n)

def collectFrom (candidates : List String) : List OsString → List String
  | [] => candidates
  | entry :: rest =>
    if candidates.length < maxWallpaperCandidates then
      let fileName := toStringLossy entry
      collectFrom (if isWallpaper fileName then candidates ++ [fileName] else candidates) rest
    else candidates

def collectWallpaperCandidates (world : World) (dir : PathBuf) : List String :=
  collectFrom [] (world.readDir dir)

def choose (world : World) (candidates : List String) : Option String :=
  candidates[world.random % candidates.length]?

def targetSize (query : WallpaperQuery) : Option ℕ × Option ℕ :=
  if query.hdVideo = some "true" then (some 1920, some 1080) else (query.width, query.height)

def selectedPath (staticDir : PathBuf) (world : World) (size : Option ℕ × Option ℕ) :
    Option String :=
  let wallpapersRoot := staticDir.join (.ofString "wallpapers")
  let fitting := do
    let w ← size.1
    let h ← size.2
    let resDirName := toString w ++ "x" ++ toString h
    let resPath ← safeJoin world.disk.fs wallpapersRoot resDirName
    let chosen ← choose world (collectWallpaperCandidates world resPath)
    some ("wallpapers/" ++ resDirName ++ "/" ++ chosen)
  fitting <|> do
    let chosen ← choose world (collectWallpaperCandidates world wallpapersRoot)
    some ("wallpapers/" ++ chosen)

def wallpaperScript (hostHdr : String) (size : Option ℕ × Option ℕ) (selected : Option String) :
    String :=
  let console := "#!ipxe\nconsole --x " ++ toString (size.1.getD 1024) ++ " --y " ++
    toString (size.2.getD 768)
  match selected with
  | some path =>
    console ++ " --picture http://" ++ hostHdr ++ "/static/" ++ path ++
      " --depth 32 --keep || exit\n"
  | none => console ++ " || exit\n"

def wallpaperHandler (staticDir : PathBuf) (world : World) (hostHdr : String)
    (query : WallpaperQuery) : Response :=
  let size := targetSize query
  .of ok (.text (wallpaperScript hostHdr size (selectedPath staticDir world size)))

/-- `host_cache_ready`, on the disk itself; links are followed. -/
def hostCacheReady (disk : Disk) (mac : String) (cacheDir : PathBuf) : Bool :=
  let hostCacheDir := cacheDir.join (.ofString mac)
  let nonempty (name : String) :=
    (disk.fs.resolve (hostCacheDir.join (.ofString name))).any fun l ↦
      decide (disk.fs.tree.entry l = some .file ∧ 0 < (disk.bytes l).length)
  nonempty "kernel" && nonempty "initrd"

def apiHealthHandler (server : Server) (disk : Disk) : Response :=
  let notReady := (server.config.hosts.filter fun h ↦
    !hostCacheReady disk h.mac server.cacheDir).map HostConfig.name
  let healthy := notReady.isEmpty
  .of (if healthy then ok else serviceUnavailable)
    (.health healthy server.config.hosts.length notReady)

def handle (server : Server) (world : World) (headers : HeaderMap) (clientIp : String)
    (route : Route) (store : StateStore) : StateStore × Response :=
  let host := headers.lookup "host"
  match route with
  | .root => (store, ⟨seeOther, some "/ui/index.html", .empty⟩)
  | .ui path => (store, serveAsset server.assets path)
  | .staticFile path => (store, serveFile world.disk server.staticDir path)
  | .cacheFile path => (store, serveFile world.disk server.cacheDir path)
  | .start => (store, .of ok (.text (startScript (hostHeader host))))
  | .poll mac =>
    let (store, answer) := PollScript.pollHandler server.registered server.config world.now clientIp
      mac host store
    (store, .of answer.status (.text answer.body))
  | .ipxemenu => (store, .of ok (.text (menu host server.config)))
  | .wallpaper (.error status) => (store, .of status .empty)
  | .wallpaper (.ok query) =>
    (store, wallpaperHandler server.staticDir world (hostHeader host) query)
  | .apiStatus =>
    (store, .ofResult ((apiStatusHandler server.sha256 server.config headers world.listing).map
      fun p ↦ .hosts p.1 p.2))
  | .apiLogs =>
    (store, .ofResult ((apiLogsHandler server.sha256 server.config headers store).map .logs))
  | .apiHealth => (store, apiHealthHandler server world.disk)
  | .apiOverride body =>
    let (store, result) :=
      apiOverrideHandler server.sha256 server.config world.now headers body store
    (store, .ofResult (result.map fun _ ↦ .overridden))

/-- The route of a path without a query; `decode` undoes the percent encoding of a part of it, and
refuses what is no text after that. -/
def routeOf (decode : List Char → Except StatusCode String) (path : List Char) :
    Option (Except StatusCode Route) :=
  if path = "/".toList then some (.ok .root)
  else if "/ui/".toList <+: path ∧ 4 < path.length then some ((decode (path.drop 4)).map .ui)
  else if "/static/".toList <+: path ∧ 8 < path.length then
    some ((decode (path.drop 8)).map .staticFile)
  else if "/cache/".toList <+: path ∧ 7 < path.length then
    some ((decode (path.drop 7)).map .cacheFile)
  else if path = "/start".toList then some (.ok .start)
  else if "/poll/".toList <+: path ∧ 6 < path.length ∧ '/' ∉ path.drop 6 then
    some ((decode (path.drop 6)).map .poll)
  else if path = "/ipxemenu".toList then some (.ok .ipxemenu)
  else if path = "/dynamic/wallpaper.ipxe".toList then
    some (.ok (.wallpaper (.ok ⟨none, none, none⟩)))
  else if path = "/api/status".toList then some (.ok .apiStatus)
  else if path = "/api/logs".toList then some (.ok .apiLogs)
  else if path = "/api/health".toList then some (.ok .apiHealth)
  else none

def Within (server : Server) (fs : FileSystem) (l : Loc OsString) : Prop :=
  ∃ dir ∈ [server.staticDir, server.cacheDir], ∃ r, fs.resolve dir = some r ∧ r <:+ l

variable {server : Server} {world : World} {disk : Disk} {bytes : Loc OsString → List UInt8}
  {opens : Loc OsString → Bool} {dir : PathBuf}

theorem serveFileFromDir_congr (h : ∀ r l, disk.fs.resolve dir = some r → r <:+ l →
      bytes l = disk.bytes l ∧ opens l = disk.opens l) (path : String) :
    serveFileFromDir { disk with bytes, opens } dir path = serveFileFromDir disk dir path := by
  by_cases hdescends : Descends path
  · cases hjoin : safeJoin disk.fs dir path with
    | none => simp only [serveFileFromDir, hjoin]
    | some p =>
      simp only [serveFileFromDir, hjoin, isFile, openFile, FileSystem.openFile]
      rcases Option.eq_none_or_eq_some (disk.fs.resolve p) with hl | ⟨l, hl⟩
      · simp only [hl, Option.bind_none]
      · obtain ⟨r, hr, -, hunder⟩ := (safeJoin_resolves hdescends).mp ⟨p, hjoin, hl⟩
        obtain ⟨hbytes, hopens⟩ := h r l hr hunder
        simp only [hl, Option.bind_some, hbytes, hopens]
  · simp only [serveFileFromDir, safeJoin_refused hdescends]

theorem hostCacheReady_congr (h : ∀ l, bytes l = [] ↔ disk.bytes l = []) (mac : String) :
    hostCacheReady { disk with bytes, opens } mac dir = hostCacheReady disk mac dir := by
  have hlength (l : Loc OsString) : 0 < (bytes l).length ↔ 0 < (disk.bytes l).length := by
    rw [List.length_pos_iff, List.length_pos_iff, Ne, h, ← Ne]
  simp only [hostCacheReady, hlength]

/-- However a request is made, nothing that a file outside the two directories holds gets into its
answer or into the store, but for the probe, which can tell whether a file is empty. -/
theorem handle_confined (server : Server) (world : World) (bytes : Loc OsString → List UInt8)
    (opens : Loc OsString → Bool)
    (hwithin : ∀ l, Within server world.disk.fs l →
      bytes l = world.disk.bytes l ∧ opens l = world.disk.opens l)
    (hempty : ∀ l, bytes l = [] ↔ world.disk.bytes l = [])
    (headers : HeaderMap) (clientIp : String) (route : Route) (store : StateStore) :
    handle server { world with disk := { world.disk with bytes, opens } } headers clientIp route
        store = handle server world headers clientIp route store := by
  have hserved (dir : PathBuf) (hdir : dir ∈ [server.staticDir, server.cacheDir])
      (path : String) :
      serveFileFromDir { world.disk with bytes, opens } dir path =
        serveFileFromDir world.disk dir path :=
    serveFileFromDir_congr (fun r l hr hunder ↦ hwithin l ⟨dir, hdir, r, hr, hunder⟩) path
  cases route with
  | staticFile path =>
    simp only [handle, serveFile, hserved server.staticDir List.mem_cons_self]
  | cacheFile path =>
    simp only [handle, serveFile, hserved server.cacheDir (by simp)]
  | apiHealth => simp only [handle, apiHealthHandler, hostCacheReady_congr hempty]
  | wallpaper query =>
    cases query with
    | error status => simp only [handle]
    | ok query =>
      simp only [handle, wallpaperHandler, selectedPath, choose, collectWallpaperCandidates]
  | root | ui _ | start | poll _ | ipxemenu | apiStatus | apiLogs | apiOverride _ =>
    simp only [handle]

def srvServer : Server where
  config := Menu.rackConfig none
  cacheDir := .ofString "/srv"
  staticDir := .ofString "/srv"
  registered := true
  assets := fun _ ↦ none
  sha256 := fun _ ↦ .replicate 32 0

def srvWorld : World where
  disk := ⟨sample, fun _ ↦ [0], fun _ ↦ true⟩
  readDir := fun _ ↦ []
  random := 0
  now := 0
  listing := []

theorem handle_confined_key :
    handle srvServer
        { srvWorld with
          disk := { srvWorld.disk with
            bytes := fun l ↦ if l = [sampleName "key"] then [1] else [0]
            opens := fun _ ↦ true } }
        [] "10.0.0.5" (.staticFile "leak") {} =
      handle srvServer srvWorld [] "10.0.0.5" (.staticFile "leak") {} := by
  refine handle_confined srvServer srvWorld _ _ ?_ ?_ [] "10.0.0.5" (.staticFile "leak") {}
  · rintro l ⟨dir, hdir, r, hr, hunder⟩
    have hresolve : sample.resolve (.ofString "/srv") = some [sampleName "srv"] := by
      decide +kernel
    obtain rfl : dir = .ofString "/srv" := by simpa [srvServer] using hdir
    obtain rfl := Option.some.inj (hresolve.symm.trans hr)
    have hne : l ≠ [sampleName "key"] := by
      rintro rfl
      exact absurd hunder (by decide)
    exact ⟨if_neg hne, rfl⟩
  · intro l
    split <;> simp [srvWorld]

end BootyCall.Http.Router
