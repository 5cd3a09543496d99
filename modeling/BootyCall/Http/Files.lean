import BootyCall.Core.Path
import BootyCall.Http.Api

namespace BootyCall.Http.Files

open BootyCall.Core Path Lib.FileTree Api

/-- A file system with what its files hold, and whether the server may open them. -/
structure Disk where
  fs : FileSystem
  bytes : Loc OsString → List UInt8
  opens : Loc OsString → Bool

def isFile (disk : Disk) (p : PathBuf) : Bool :=
  (disk.fs.resolve p).any fun l ↦ decide (disk.fs.tree.entry l = some .file)

def openFile (disk : Disk) (p : PathBuf) : Option (List UInt8) :=
  (disk.fs.openFile p).bind fun l ↦ if disk.opens l then some (disk.bytes l) else none

def forbidden : StatusCode := 403
def notFound : StatusCode := 404
def internalServerError : StatusCode := 500

def fileName (p : PathBuf) : Option OsString :=
  p.components.getLast?.bind fun
    | .normal n => some n
    | _ => none

/-- What follows the last dot of a name, unless there is nothing before it. -/
def extension (n : OsString) : Option OsString :=
  let after := n.rtakeWhile (· != 46)
  if n.length ≤ after.length + 1 then none else some after

/-- The names that are compared have no other letters than ASCII ones, and no k. -/
def lowercase (n : OsString) : OsString := n.map fun b ↦ if 65 ≤ b ∧ b ≤ 90 then b + 32 else b

def name (s : String) : OsString := osString s.toList

def contentTypeFor (path : String) : String :=
  let ext := lowercase (((fileName (.ofString path)).bind extension).getD [])
  if ext = name "ipxe" ∨ ext = name "txt" then "text/plain"
  else if ext = name "png" then "image/png"
  else if ext = name "jpg" ∨ ext = name "jpeg" then "image/jpeg"
  else if ext = name "gif" then "image/gif"
  else if ext = name "json" then "application/json"
  else if ext = name "css" then "text/css"
  else if ext = name "js" then "application/javascript"
  else if ext = name "html" then "text/html"
  else "application/octet-stream"

/-- The content type and the file, or the status of a refusal. -/
def serveFileFromDir (disk : Disk) (dir : PathBuf) (relativePath : String) :
    Except StatusCode (String × List UInt8) :=
  match safeJoin disk.fs dir relativePath with
  | none => .error forbidden
  | some fullPath =>
    if !disk.fs.pathExists fullPath || !isFile disk fullPath then .error notFound
    else
      match openFile disk fullPath with
      | none => .error internalServerError
      | some file => .ok (contentTypeFor relativePath, file)

/-- No part of the request climbs or starts at the root. -/
def Descends (relativePath : String) : Prop :=
  ∀ c ∈ (PathBuf.ofString (normalize relativePath)).components, rejected c = false

/-- What the request names lies at this place, and below the directory. -/
def Names (fs : FileSystem) (dir : PathBuf) (relativePath : String) (l : Loc OsString) : Prop :=
  ∃ r, fs.resolve dir = some r ∧
    fs.resolve (dir.join (.ofString (normalize relativePath))) = some l ∧ r <:+ l

variable {disk : Disk} {fs : FileSystem} {dir p : PathBuf} {relativePath : String}
  {l : Loc OsString}

theorem safeJoin_refused (h : ¬Descends relativePath) : safeJoin fs dir relativePath = none := by
  have hany : (PathBuf.ofString (normalize relativePath)).components.any rejected = true := by
    simpa [Descends, List.any_eq_true] using h
  rw [safeJoin, if_pos hany]

theorem safeJoin_resolves (h : Descends relativePath) :
    (∃ p, safeJoin fs dir relativePath = some p ∧ fs.resolve p = some l) ↔
      Names fs dir relativePath l := by
  constructor
  · rintro ⟨p, hp, hl⟩
    have hany : (PathBuf.ofString (normalize relativePath)).components.any rejected = false :=
      List.any_eq_false.mpr fun c hc ↦ by simp [h c hc]
    rw [safeJoin, hany, if_neg Bool.false_ne_true] at hp
    obtain ⟨_, hroot, hp⟩ := Option.bind_eq_some_iff.mp hp
    obtain ⟨r, hr, rfl⟩ := Option.map_eq_some_iff.mp hroot
    cases hcand : fs.resolve (dir.join (.ofString (normalize relativePath))) with
    | none =>
      -- What is not there is joined as it is, and does not lead anywhere.
      simp only [FileSystem.canonicalize, hcand, Option.map_none] at hp
      obtain ⟨_, -, hp⟩ := Option.bind_eq_some_iff.mp hp
      obtain ⟨_, -, hp⟩ := Option.bind_eq_some_iff.mp hp
      split at hp
      · obtain rfl := Option.some.inj hp
        rw [hcand] at hl
        cases hl
      · cases hp
    | some l' =>
      simp only [FileSystem.canonicalize, hcand, Option.map_some] at hp
      have hreal := resolve_real hcand
      split at hp
      · next hstarts =>
        obtain rfl := Option.some.inj hp
        obtain rfl := Option.some.inj ((resolve_pathOf hreal).symm.trans hl)
        exact ⟨r, hr, hcand, (pathOf_startsWith (valid_of_real hreal)
          (valid_of_real (resolve_real hr))).mp hstarts⟩
      · cases hp
  · rintro ⟨r, hr, hl, hunder⟩
    exact ⟨_, safeJoin_existing h hr hl hunder, resolve_pathOf (resolve_real hl)⟩

/-- A file is served exactly if the request names it below the directory and it can be opened. -/
theorem serveFileFromDir_ok {contentType : String} {file : List UInt8} :
    serveFileFromDir disk dir relativePath = .ok (contentType, file) ↔
      Descends relativePath ∧ contentTypeFor relativePath = contentType ∧
        ∃ l, Names disk.fs dir relativePath l ∧ disk.fs.tree.entry l = some .file ∧
          disk.opens l = true ∧ disk.bytes l = file := by
  by_cases hdescends : Descends relativePath
  · cases hjoin : safeJoin disk.fs dir relativePath with
    | none =>
      rw [serveFileFromDir, hjoin]
      refine iff_of_false nofun ?_
      rintro ⟨-, -, l, hnames, -⟩
      obtain ⟨p, hp, -⟩ := (safeJoin_resolves hdescends).mpr hnames
      rw [hjoin] at hp
      cases hp
    | some p =>
      have hnames (l : Loc OsString) :
          Names disk.fs dir relativePath l ↔ disk.fs.resolve p = some l := by
        rw [← safeJoin_resolves hdescends, hjoin]
        simp
      simp only [serveFileFromDir, hjoin, hnames, isFile, openFile, FileSystem.pathExists,
        FileSystem.openFile]
      rcases Option.eq_none_or_eq_some (disk.fs.resolve p) with hl | ⟨l, hl⟩
      · simp [hl]
      · by_cases hfile : disk.fs.tree.entry l = some .file
        · by_cases hopens : disk.opens l = true
          · simp [hl, hfile, hopens, hdescends]
          · simp [hl, hfile, hopens]
        · simp [hl, hfile]
  · rw [serveFileFromDir, safeJoin_refused hdescends]
    exact iff_of_false nofun fun h ↦ hdescends h.1

end BootyCall.Http.Files
