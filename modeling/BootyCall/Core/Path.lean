import BootyCall.Lib.FileTree
import Mathlib.Data.List.Infix

namespace BootyCall.Core.Path

open Lib.FileTree

/-- File names are byte strings; text is encoded in UTF-8. -/
abbrev OsString := List UInt8

def osString (cs : List Char) : OsString := cs.flatMap String.utf8EncodeChar

def dot : OsString := [46]
def dotDot : OsString := [46, 46]

def ValidName (n : OsString) : Prop :=
  n ≠ [] ∧ n ≠ dot ∧ n ≠ dotDot ∧ 0 ∉ n ∧ 47 ∉ n

/-- The text of a path, cut at its slashes: a leading empty piece makes it absolute. -/
structure PathBuf where
  pieces : List OsString
  deriving DecidableEq

inductive Component
  | rootDir
  | curDir
  | parentDir
  | normal (n : OsString)
  deriving DecidableEq

namespace PathBuf

def ofString (s : String) : PathBuf := ⟨(s.toList.splitOn '/').map osString⟩

def isAbsolute (p : PathBuf) : Bool := decide (p.pieces.head? = some [] ∧ p.pieces ≠ [[]])

def isEmpty (p : PathBuf) : Bool := decide (p.pieces = [] ∨ p.pieces = [[]])

def component (n : OsString) : Option Component :=
  if n = [] ∨ n = dot then none else if n = dotDot then some .parentDir else some (.normal n)

/-- Empty pieces and dots are dropped, but a dot at the very start of a path is kept. -/
def components (p : PathBuf) : List Component :=
  (if p.isAbsolute then [.rootDir] else if p.pieces.head? = some dot then [.curDir] else []) ++
    p.pieces.filterMap component

def ofComponents (cs : List Component) : PathBuf :=
  if cs = [] then ⟨[[]]⟩
  else if cs = [.rootDir] then ⟨[[], []]⟩
  else
    ⟨cs.map fun
      | .rootDir => []
      | .curDir => dot
      | .parentDir => dotDot
      | .normal n => n⟩

/-- `Path::join`: an absolute path replaces the one it is joined to. -/
def join (p q : PathBuf) : PathBuf :=
  if q.isAbsolute then q
  else if p.pieces.getLast? = some [] then ⟨p.pieces.dropLast ++ q.pieces⟩
  else ⟨p.pieces ++ q.pieces⟩

def startsWith (p q : PathBuf) : Bool := q.components.isPrefixOf p.components

def ancestors (p : PathBuf) : List PathBuf :=
  p :: ((p.components.dropLast.inits.reverse.filter fun cs ↦
    !(decide (cs = []) && (p.isAbsolute || p.components.isEmpty))).map ofComponents)

def step (n : OsString) : Step OsString :=
  if n = [] ∨ n = dot then .cur else if n = dotDot then .up else .name n

/-- The walk a path asks for: a doubled or trailing slash stays in the directory, as a dot does. -/
def route (p : PathBuf) : Route OsString := ⟨p.isAbsolute, p.pieces.map step⟩

def bytes (p : PathBuf) : List UInt8 := [47].intercalate p.pieces

end PathBuf

/-- The first character of a nonempty byte string and how many bytes it takes; the longest
piece that begins a character without completing it becomes the replacement character. -/
def decodeLossy (b : ℕ) (rest : List ℕ) : Char × ℕ :=
  let bad (n : ℕ) : Char × ℕ := ('\ufffd', n)
  let cont (n : ℕ) : Bool := decide (0x80 ≤ n ∧ n ≤ 0xBF)
  let second := rest.getD 0 0
  let third := rest.getD 1 0
  let fourth := rest.getD 2 0
  if b < 0x80 then (Char.ofNat b, 1)
  else if 0xC2 ≤ b ∧ b ≤ 0xDF then
    if cont second then (Char.ofNat (b % 32 * 64 + second % 64), 2) else bad 1
  else if 0xE0 ≤ b ∧ b ≤ 0xEF then
    if !cont second || decide (b = 0xE0 ∧ second < 0xA0 ∨ b = 0xED ∧ 0x9F < second) then bad 1
    else if !cont third then bad 2
    else (Char.ofNat (b % 16 * 4096 + second % 64 * 64 + third % 64), 3)
  else if 0xF0 ≤ b ∧ b ≤ 0xF4 then
    if !cont second || decide (b = 0xF0 ∧ second < 0x90 ∨ b = 0xF4 ∧ 0x8F < second) then bad 1
    else if !cont third then bad 2
    else if !cont fourth then bad 3
    else
      (Char.ofNat (b % 8 * 262144 + second % 64 * 4096 + third % 64 * 64 + fourth % 64), 4)
  else bad 1

/-- Every round consumes a byte, so as many rounds as there are bytes suffice. -/
def fromUtf8Lossy : ℕ → List UInt8 → List Char
  | _, [] => []
  | 0, _ => []
  | fuel + 1, b :: rest =>
    let c := decodeLossy b.toNat (rest.map UInt8.toNat)
    c.1 :: fromUtf8Lossy fuel (rest.drop (c.2 - 1))

def display (p : PathBuf) : String := String.ofList (fromUtf8Lossy p.bytes.length p.bytes)

/-- A file system as one process sees it, with its bound on the links of one resolution. -/
structure FileSystem where
  tree : DirTree OsString
  cwd : Loc OsString
  maxLinks : ℕ
  valid : ∀ p ∈ tree.nodes, ∀ n ∈ p.1, ValidName n
  cwd_dir : tree.entry cwd = some .dir

namespace FileSystem

variable (fs : FileSystem)

def resolve (p : PathBuf) : Option (Loc OsString) :=
  if p.isEmpty then none
  else fs.tree.walk fs.maxLinks (if p.isAbsolute then [] else fs.cwd) p.route.steps

def pathOf (l : Loc OsString) : PathBuf := if l = [] then ⟨[[], []]⟩ else ⟨[] :: l.reverse⟩

def canonicalize (p : PathBuf) : Option PathBuf := (fs.resolve p).map pathOf

def pathExists (p : PathBuf) : Bool := (fs.resolve p).isSome

def openFile (p : PathBuf) : Option (Loc OsString) := fs.resolve p

end FileSystem

def rejected : Component → Bool
  | .parentDir | .rootDir => true
  | .curDir | .normal _ => false

def normalize (requested : String) : String :=
  String.ofList (requested.toList.map fun c ↦ if c = '\\' then '/' else c)

def safeJoin (fs : FileSystem) (root : PathBuf) (requested : String) : Option PathBuf :=
  let requestedPath := PathBuf.ofString (normalize requested)
  if requestedPath.components.any rejected then none
  else do
    let candidate := root.join requestedPath
    let canonicalRoot ← fs.canonicalize root
    match fs.canonicalize candidate with
    | some canonicalCandidate =>
      if canonicalCandidate.startsWith canonicalRoot then some canonicalCandidate else none
    | none =>
      let existingAncestor ← candidate.ancestors.find? fs.pathExists
      let canonicalAncestor ← fs.canonicalize existingAncestor
      if canonicalAncestor.startsWith canonicalRoot then some candidate else none

variable {fs : FileSystem} {l r : Loc OsString}

theorem component_of_valid {n : OsString} (h : ValidName n) :
    PathBuf.component n = some (.normal n) := by
  obtain ⟨hne, hdot, hdots, -⟩ := h
  simp [PathBuf.component, hne, hdot, hdots]

theorem step_of_valid {n : OsString} (h : ValidName n) : PathBuf.step n = .name n := by
  obtain ⟨hne, hdot, hdots, -⟩ := h
  simp [PathBuf.step, hne, hdot, hdots]

theorem valid_of_real (h : fs.tree.Real l) : ∀ n ∈ l, ValidName n := by
  rcases h with h | h <;> exact fs.valid _ (DirTree.mem_nodes_of_entry h)

theorem pathOf_isAbsolute (l : Loc OsString) : (FileSystem.pathOf l).isAbsolute = true := by
  rw [FileSystem.pathOf]
  split
  · rfl
  · next hl => simp [PathBuf.isAbsolute, hl]

theorem pathOf_components (h : ∀ n ∈ l, ValidName n) :
    (FileSystem.pathOf l).components = .rootDir :: l.reverse.map .normal := by
  have hnames : l.reverse.filterMap PathBuf.component = l.reverse.map .normal := by
    rw [← List.filterMap_eq_map]
    exact List.filterMap_congr fun n hn ↦ component_of_valid (h n (List.mem_reverse.mp hn))
  rw [PathBuf.components, pathOf_isAbsolute, if_pos rfl, FileSystem.pathOf]
  split
  · next hl => subst hl; rfl
  · exact congrArg (.rootDir :: ·) hnames

theorem pathOf_startsWith (hl : ∀ n ∈ l, ValidName n) (hr : ∀ n ∈ r, ValidName n) :
    (FileSystem.pathOf l).startsWith (FileSystem.pathOf r) = true ↔ r <:+ l := by
  rw [PathBuf.startsWith, pathOf_components hl, pathOf_components hr, List.isPrefixOf_iff_prefix,
    List.prefix_cons_inj, List.prefix_map_iff_of_injective fun _ _ ↦ Component.normal.inj,
    List.reverse_prefix]

theorem resolve_real {p : PathBuf} (h : fs.resolve p = some l) : fs.tree.Real l := by
  rw [FileSystem.resolve] at h
  split at h
  · contradiction
  · refine DirTree.walk_real ?_ h
    split
    · exact DirTree.real_root
    · exact .inl fs.cwd_dir

theorem resolve_pathOf (h : fs.tree.Real l) : fs.resolve (FileSystem.pathOf l) = some l := by
  have hsteps : l.reverse.map PathBuf.step = l.reverse.map .name :=
    List.map_congr_left fun n hn ↦ step_of_valid (valid_of_real h n (List.mem_reverse.mp hn))
  have hroot := fs.tree.root_dir
  have habs := pathOf_isAbsolute l
  rw [FileSystem.resolve, if_neg, habs, if_pos rfl, PathBuf.route, FileSystem.pathOf]
  · split
    · next hl =>
      subst hl
      exact (DirTree.walk_cur hroot _ _).trans ((DirTree.walk_cur hroot _ _).trans
        (DirTree.walk_names h _))
    · rw [List.map_cons, hsteps]
      exact (DirTree.walk_cur hroot _ _).trans (DirTree.walk_names h _)
  · rw [FileSystem.pathOf]
    split
    · decide
    · next hl => simp [PathBuf.isEmpty, hl]

/-- The two ways a request is granted: the candidate exists below the canonical root, or it does
not exist and is returned as it was joined. -/
theorem safeJoin_cases {root : PathBuf} {requested : String} {p : PathBuf}
    (h : safeJoin fs root requested = some p) :
    ∃ r, fs.resolve root = some r ∧
      ((∃ l, fs.tree.Real l ∧ r <:+ l ∧ p = FileSystem.pathOf l) ∨
        p = root.join (.ofString (normalize requested)) ∧ fs.resolve p = none) := by
  rw [safeJoin] at h
  dsimp only at h
  split at h
  · cases h
  · obtain ⟨canonicalRoot, hroot, h⟩ := Option.bind_eq_some_iff.mp h
    obtain ⟨r, hr, rfl⟩ := Option.map_eq_some_iff.mp hroot
    refine ⟨r, hr, ?_⟩
    split at h
    · next canonicalCandidate hcand =>
      obtain ⟨l, hl, rfl⟩ := Option.map_eq_some_iff.mp hcand
      have hreal := resolve_real hl
      split at h
      · next hstarts =>
        have hunder := (pathOf_startsWith (valid_of_real hreal)
          (valid_of_real (resolve_real hr))).mp hstarts
        exact .inl ⟨l, hreal, hunder, (Option.some.inj h).symm⟩
      · cases h
    · next hcand =>
      -- A candidate that could not be canonicalised cannot be opened either.
      have hnone := Option.map_eq_none_iff.mp hcand
      obtain ⟨_, -, h⟩ := Option.bind_eq_some_iff.mp h
      obtain ⟨_, -, h⟩ := Option.bind_eq_some_iff.mp h
      split at h
      · obtain rfl := Option.some.inj h
        exact .inr ⟨rfl, hnone⟩
      · cases h

theorem safeJoin_existing {root : PathBuf} {requested : String}
    (hplain : ∀ c ∈ (PathBuf.ofString (normalize requested)).components, rejected c = false)
    (hroot : fs.resolve root = some r)
    (hcand : fs.resolve (root.join (PathBuf.ofString (normalize requested))) = some l)
    (hunder : r <:+ l) : safeJoin fs root requested = some (FileSystem.pathOf l) := by
  have hany : (PathBuf.ofString (normalize requested)).components.any rejected = false :=
    List.any_eq_false.mpr fun c hc ↦ by simp [hplain c hc]
  have hstarts := (pathOf_startsWith (valid_of_real (resolve_real hcand))
    (valid_of_real (resolve_real hroot))).mpr hunder
  simp only [safeJoin, hany, FileSystem.canonicalize, hroot, hcand]
  simp [hstarts]

/-- Whatever `safe_join` returns opens nothing outside the canonical root, and a request that
stays below the root is answered with the canonical path of what it names. -/
theorem safeJoin_confined (fs : FileSystem) (root : PathBuf) (requested : String) :
    (∀ p, safeJoin fs root requested = some p → ∀ l, fs.openFile p = some l →
      ∃ r, fs.resolve root = some r ∧ r <:+ l) ∧
    ∀ r l, (∀ c ∈ (PathBuf.ofString (normalize requested)).components, rejected c = false) →
      fs.resolve root = some r →
      fs.resolve (root.join (PathBuf.ofString (normalize requested))) = some l → r <:+ l →
      safeJoin fs root requested = some (FileSystem.pathOf l) := by
  refine ⟨fun p h l hopen ↦ ?_, fun r l ↦ safeJoin_existing⟩
  obtain ⟨r, hr, ⟨l', hreal, hunder, rfl⟩ | ⟨-, hnone⟩⟩ := safeJoin_cases h
  · obtain rfl : l' = l := Option.some.inj ((resolve_pathOf hreal).symm.trans hopen)
    exact ⟨r, hr, hunder⟩
  · exact absurd (hnone.symm.trans hopen) (by simp)

section Sample

def sampleName (s : String) : OsString := osString s.toList

def sampleTree : DirTree OsString where
  nodes := [([], .dir), ([sampleName "srv"], .dir), ([sampleName "key"], .file),
    ([sampleName "boot", sampleName "srv"], .file),
    ([sampleName "alias", sampleName "srv"], .link ⟨false, [.name (sampleName "boot")]⟩),
    ([sampleName "leak", sampleName "srv"], .link ⟨true, [.name (sampleName "key")]⟩)]
  root_dir := rfl
  parent_dir := by decide

def sample : FileSystem where
  tree := sampleTree
  cwd := []
  maxLinks := 40
  valid := by
    simp only [ValidName]
    decide
  cwd_dir := rfl

example : display (.ofString "/srv/grün€") = "/srv/grün€" := by decide

example : safeJoin sample (.ofString "/srv") "alias" = some (.ofString "/srv/boot") := by decide

example : safeJoin sample (.ofString "/srv") ".\\leak" = none := by decide

end Sample

end BootyCall.Core.Path
