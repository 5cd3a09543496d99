import BootyCall.Extractor.Readers
import BootyCall.Lib.DepthFirst
import Mathlib.Logic.Function.Basic

namespace BootyCall.Extractor.Walkers

open Lib.DepthFirst Copy Readers

variable {ε ε' : Type}

def depthExceeded (depth : ℕ) : Bool := decide (maxDirDepth ≤ depth)

section Iso

variable (debug : ε → String) (filter : String → Bool)

def isoEntries (descend : ℕ → Except ExtractorError (Option Source)) :
    List (Except ε DirectoryEntry) → Except ExtractorError (Option Source)
  | [] => .ok none
  | entryRes :: rest => do
    match ← entryRes.mapError fun e ↦ ExtractorError.iso (debug e) with
    | .file identifier file =>
      if filter identifier then return some file else isoEntries descend rest
    | .directory identifier subdir =>
      if identifier = "." ∨ identifier = ".." then isoEntries descend rest
      else
        match ← descend subdir with
        | some found => return some found
        | none => isoEntries descend rest

def findFileRecursiveBounded (contents : ℕ → List (Except ε DirectoryEntry)) (dir depth : ℕ) :
    Except ExtractorError (Option Source) :=
  if h : depthExceeded depth then .ok none
  else isoEntries debug filter (fun subdir ↦ findFileRecursiveBounded contents subdir (depth + 1))
    (contents dir)
termination_by maxDirDepth - depth
decreasing_by
  have hlt : depth < maxDirDepth := by simpa [depthExceeded] using h
  exact Nat.sub_lt_sub_left hlt (Nat.lt_succ_self depth)

end Iso

section Fat

def fileName : DirectoryEntry → String
  | .file name _ => name
  | .directory name _ => name

def isFile : DirectoryEntry → Bool
  | .file _ _ => true
  | .directory _ _ => false

def isDir (entry : DirectoryEntry) : Bool := !isFile entry

def toFile : (entry : DirectoryEntry) → isFile entry = true → Source
  | .file _ source, _ => source

def toDir : (entry : DirectoryEntry) → isDir entry = true → ℕ
  | .directory _ dir, _ => dir

variable (filter : String → Bool)

def fatEntries (descend : ℕ → Except ε (Option Source)) :
    List (Except ε DirectoryEntry) → Except ε (Option Source)
  | [] => .ok none
  | entryRes :: rest => do
    let entry ← entryRes
    let name := fileName entry
    if hfile : isFile entry then
      if filter name then return some (toFile entry hfile) else fatEntries descend rest
    else if hdir : isDir entry then
      if name = "." ∨ name = ".." then fatEntries descend rest
      else
        match ← descend (toDir entry hdir) with
        | some found => return some found
        | none => fatEntries descend rest
    else fatEntries descend rest

def findFileRecursiveFatBounded (contents : ℕ → List (Except ε DirectoryEntry)) (dir depth : ℕ) :
    Except ε (Option Source) :=
  if h : depthExceeded depth then .ok none
  else fatEntries filter (fun subdir ↦ findFileRecursiveFatBounded contents subdir (depth + 1))
    (contents dir)
termination_by maxDirDepth - depth
decreasing_by
  have hlt : depth < maxDirDepth := by simpa [depthExceeded] using h
  exact Nat.sub_lt_sub_left hlt (Nat.lt_succ_self depth)

end Fat

/-- An entry as a search for a file sees it: a matching file and an unreadable entry end it. -/
def node (filter : String → Bool) : Except ε DirectoryEntry → Node ℕ (Except ε Source)
  | .error e => .stop (.error e)
  | .ok (.file name source) => if filter name then .stop (.ok source) else .skip
  | .ok (.directory name dir) => if name = "." ∨ name = ".." then .skip else .descend dir

def tree (contents : ℕ → List (Except ε DirectoryEntry)) (filter : String → Bool) (dir : ℕ) :
    List (Node ℕ (Except ε Source)) :=
  (contents dir).map (node filter)

def answer : Option (Except ε Source) → Except ε (Option Source)
  | none => .ok none
  | some (.ok source) => .ok (some source)
  | some (.error e) => .error e

/-- What a walk reports: the first file that passes the filter or the first unreadable entry,
whichever the depth-first order of the entries meets first. A position counts the directories on
the way to its entry, so its length is one more than the depth of the directory it is in. -/
structure Reports (contents : ℕ → List (Except ε DirectoryEntry)) (filter : String → Bool)
    (dir : ℕ) (wrap : ε → ε') (result : Except ε' (Option Source)) : Prop where
  found : ∀ source, result = .ok (some source) ↔
    ∃ p, First (tree contents filter) maxDirDepth (tree contents filter dir) p (.ok source)
  failed : ∀ e', result = .error e' ↔ ∃ p e,
    First (tree contents filter) maxDirDepth (tree contents filter dir) p (.error e) ∧ wrap e = e'
  missed : result = .ok none ↔ ∀ p, p.length ≤ maxDirDepth →
    stopIn (tree contents filter) (tree contents filter dir) p = none

variable {debug : ε → String} {filter : String → Bool}
  {contents : ℕ → List (Except ε DirectoryEntry)}

/-- How a walk goes on after one entry, given what the entries after it come to. -/
def resume (wrap : ε → ε') (descend : ℕ → Except ε' (Option Source))
    (later : Except ε' (Option Source)) : Node ℕ (Except ε Source) → Except ε' (Option Source)
  | .skip => later
  | .stop (.ok source) => .ok (some source)
  | .stop (.error e) => .error (wrap e)
  | .descend dir => do
    match ← descend dir with
    | some found => return some found
    | none => later

structure Scans (filter : String → Bool) (wrap : ε → ε')
    (descend : ℕ → Except ε' (Option Source))
    (loop : List (Except ε DirectoryEntry) → Except ε' (Option Source)) : Prop where
  nil : loop [] = .ok none
  cons : ∀ entry rest,
    loop (entry :: rest) = resume wrap descend (loop rest) (node filter entry)

variable {wrap : ε → ε'} {descend : ℕ → Except ε' (Option Source)}

theorem Scans.eq {loop : List (Except ε DirectoryEntry) → Except ε' (Option Source)}
    (hloop : Scans filter wrap descend loop) {go : ℕ → Option (Except ε Source)}
    (hgo : ∀ dir, descend dir = (answer (go dir)).mapError wrap)
    (entries : List (Except ε DirectoryEntry)) :
    loop entries = (answer (scan go (entries.map (node filter)))).mapError wrap := by
  induction entries with
  | nil => exact hloop.nil
  | cons entry rest ih =>
    rw [hloop.cons, List.map_cons, ih]
    cases node filter entry with
    | skip => rfl
    | stop v => cases v <;> rfl
    | descend dir =>
      rw [resume, hgo, scan]
      rcases go dir with - | (e | source) <;> rfl

theorem resume_file (later : Except ε' (Option Source)) (name : String) (source : Source) :
    resume wrap descend later (node filter (.ok (.file name source))) =
      if filter name then .ok (some source) else later := by
  rw [node]
  split <;> rfl

theorem resume_directory (later : Except ε' (Option Source)) (name : String) (dir : ℕ) :
    resume wrap descend later (node filter (.ok (.directory name dir))) =
      if name = "." ∨ name = ".." then later else resume wrap descend later (.descend dir) := by
  rw [node]
  split <;> rfl

theorem isoEntries_scans (descend : ℕ → Except ExtractorError (Option Source)) :
    Scans filter (fun e ↦ .iso (debug e)) descend (isoEntries debug filter descend) where
  nil := rfl
  cons := by
    intro entry rest
    rw [isoEntries]
    match entry with
    | .error e => rfl
    | .ok (.file name source) => exact (resume_file _ name source).symm
    | .ok (.directory name dir) => exact (resume_directory _ name dir).symm

theorem fatEntries_scans (descend : ℕ → Except ε (Option Source)) :
    Scans filter id descend (fatEntries filter descend) where
  nil := rfl
  cons := by
    intro entry rest
    rw [fatEntries]
    match entry with
    | .error e => rfl
    | .ok (.file name source) => exact (resume_file _ name source).symm
    | .ok (.directory name dir) => exact (resume_directory _ name dir).symm

theorem scanEntries_scans (descend : ℕ → Except ε (Option Source)) :
    Scans filter id descend (scanEntries filter descend) where
  nil := rfl
  cons := by
    intro entry rest
    match entry with
    | .error e => rfl
    | .ok (.file name source) => exact (resume_file _ name source).symm
    | .ok (.directory name dir) =>
      rw [resume_directory, scanEntries]
      split
      · rfl
      · rw [resume]
        rcases descend dir with e | (- | found) <;> rfl

/-- A recursive walk whose loop scans each directory it enters, and which enters those above the
cap. -/
structure Walks (contents : ℕ → List (Except ε DirectoryEntry)) (filter : String → Bool)
    (wrap : ε → ε') (walk : ℕ → ℕ → Except ε' (Option Source)) : Prop where
  capped : ∀ dir, walk dir maxDirDepth = .ok none
  enters : ∀ dir depth, depth < maxDirDepth →
    ∃ loop, Scans filter wrap (fun subdir ↦ walk subdir (depth + 1)) loop ∧
      walk dir depth = loop (contents dir)

theorem Walks.eq {walk : ℕ → ℕ → Except ε' (Option Source)}
    (hwalk : Walks contents filter wrap walk) {room depth : ℕ} (h : depth + room = maxDirDepth)
    (dir : ℕ) :
    walk dir depth = (answer (search (tree contents filter) room dir)).mapError wrap := by
  induction room generalizing depth dir with
  | zero =>
    rw [Nat.add_zero] at h
    rw [h, hwalk.capped]
    rfl
  | succ room ih =>
    obtain ⟨loop, hloop, heq⟩ := hwalk.enters dir depth (by omega)
    have hdescend := fun subdir ↦ ih (by omega : depth + 1 + room = maxDirDepth) subdir
    rw [heq, hloop.eq hdescend]
    rfl

theorem iso_walks :
    Walks contents filter (fun e ↦ .iso (debug e))
      (findFileRecursiveBounded debug filter contents) where
  capped := by
    intro dir
    rw [findFileRecursiveBounded]
    rfl
  enters := by
    intro dir depth hdepth
    refine ⟨_, isoEntries_scans _, ?_⟩
    rw [findFileRecursiveBounded, dif_neg]
    simpa [depthExceeded] using hdepth

theorem fat_walks : Walks contents filter id (findFileRecursiveFatBounded filter contents) where
  capped := by
    intro dir
    rw [findFileRecursiveFatBounded]
    rfl
  enters := by
    intro dir depth hdepth
    refine ⟨_, fatEntries_scans _, ?_⟩
    rw [findFileRecursiveFatBounded, dif_neg]
    simpa [depthExceeded] using hdepth

theorem readers_walk :
    Walks contents filter id fun dir depth ↦
      findBounded contents filter (maxDirDepth - depth) dir where
  capped := by
    intro dir
    rw [Nat.sub_self, findBounded]
  enters := by
    intro dir depth hdepth
    obtain ⟨room, hroom⟩ := Nat.exists_eq_succ_of_ne_zero (Nat.sub_ne_zero_of_lt hdepth)
    have hnext : maxDirDepth - (depth + 1) = room := by omega
    refine ⟨_, scanEntries_scans _, ?_⟩
    rw [hroom, hnext, findBounded]

theorem findBounded_eq (dir : ℕ) :
    findBounded contents filter maxDirDepth dir =
      answer (search (tree contents filter) maxDirDepth dir) := by
  refine (readers_walk.eq (Nat.zero_add _) dir).trans ?_
  cases answer (search (tree contents filter) maxDirDepth dir) <;> rfl

theorem findFileRecursive_eq (iso : Iso) (filter : String → Bool) :
    findFileRecursive iso filter = findFileRecursiveBounded id filter iso.contents iso.root 0 := by
  rw [findFileRecursive, findBounded_eq, iso_walks.eq (Nat.zero_add _)]
  rfl

theorem findFileRecursiveFat_eq (fat : Fat) (filter : String → Bool) :
    findFileRecursiveFat fat filter =
      (findFileRecursiveFatBounded filter fat.contents fat.rootDir 0).mapError .io := by
  rw [findFileRecursiveFat, findBounded_eq, fat_walks.eq (Nat.zero_add _)]
  cases answer (search (tree fat.contents filter) maxDirDepth fat.rootDir) <;> rfl

theorem Walks.reports {walk : ℕ → ℕ → Except ε' (Option Source)}
    (hwalk : Walks contents filter wrap walk) (dir : ℕ) :
    Reports contents filter dir wrap (walk dir 0) := by
  rw [hwalk.eq (Nat.zero_add maxDirDepth)]
  have hsome := search_eq_some_iff (tree contents filter) maxDirDepth dir
  have hnone := search_eq_none_iff (tree contents filter) maxDirDepth dir
  constructor
  · intro source
    rw [← hsome]
    rcases search (tree contents filter) maxDirDepth dir with - | (e | found) <;>
      simp [answer, Except.mapError]
  · intro e'
    constructor
    · intro heq
      match hsearch : search (tree contents filter) maxDirDepth dir with
      | none | some (.ok source) =>
        rw [hsearch] at heq
        cases heq
      | some (.error e) =>
        rw [hsearch] at heq
        obtain ⟨p, hp⟩ := (hsome (.error e)).mp hsearch
        exact ⟨p, e, hp, Except.error.inj heq⟩
    · rintro ⟨p, e, hp, rfl⟩
      rw [(hsome (.error e)).mpr ⟨p, hp⟩]
      rfl
  · rw [← hnone]
    rcases search (tree contents filter) maxDirDepth dir with - | (e | found) <;>
      simp [answer, Except.mapError]

/-- A directory just above the cap is searched as if it had no subdirectories. -/
theorem Walks.cut {walk walk' : ℕ → ℕ → Except ε' (Option Source)} {dir : ℕ}
    {before after : List (Except ε DirectoryEntry)} {name : String} {subdir : ℕ}
    (hwalk : Walks (Function.update contents dir
      (before ++ .ok (.directory name subdir) :: after)) filter wrap walk)
    (hcut : Walks (Function.update contents dir (before ++ after)) filter wrap walk') :
    walk dir (maxDirDepth - 1) = walk' dir (maxDirDepth - 1) := by
  have hdepth : maxDirDepth - 1 + 1 = maxDirDepth := rfl
  rw [hwalk.eq hdepth, hcut.eq hdepth, search, search, tree, tree]
  rw [Function.update_self, Function.update_self]
  rw [List.map_append, List.map_append, List.map_cons, scan_append, scan_append, node]
  split <;> rfl

/-- The two walkers make the same search: of a directory with any entries, links back to the
directories above it among them, both report the first file that passes the filter in a directory
less than `maxDirDepth` deep, unless an entry before it cannot be read. The readers search with
them. -/
theorem walkers_agree (debug : ε → String) (filter : String → Bool)
    (contents : ℕ → List (Except ε DirectoryEntry)) (dir : ℕ) :
    Reports contents filter dir (fun e ↦ .iso (debug e))
        (findFileRecursiveBounded debug filter contents dir 0) ∧
      Reports contents filter dir id (findFileRecursiveFatBounded filter contents dir 0) ∧
      findFileRecursiveBounded debug filter contents dir 0 =
        (findFileRecursiveFatBounded filter contents dir 0).mapError (fun e ↦ .iso (debug e)) ∧
      (∀ before after name subdir,
        let whole := Function.update contents dir
          (before ++ .ok (.directory name subdir) :: after)
        let cut := Function.update contents dir (before ++ after)
        findFileRecursiveBounded debug filter whole dir (maxDirDepth - 1) =
            findFileRecursiveBounded debug filter cut dir (maxDirDepth - 1) ∧
          findFileRecursiveFatBounded filter whole dir (maxDirDepth - 1) =
            findFileRecursiveFatBounded filter cut dir (maxDirDepth - 1)) ∧
      (∀ iso : Iso, findFileRecursive iso filter =
        findFileRecursiveBounded id filter iso.contents iso.root 0) ∧
      ∀ fat : Fat, findFileRecursiveFat fat filter =
        (findFileRecursiveFatBounded filter fat.contents fat.rootDir 0).mapError .io := by
  refine ⟨iso_walks.reports dir, fat_walks.reports dir, ?_, ?_,
    fun iso ↦ findFileRecursive_eq iso filter, fun fat ↦ findFileRecursiveFat_eq fat filter⟩
  · rw [iso_walks.eq (Nat.zero_add _), fat_walks.eq (Nat.zero_add _)]
    cases answer (search (tree contents filter) maxDirDepth dir) <;> rfl
  · intro before after name subdir
    exact ⟨iso_walks.cut iso_walks, fat_walks.cut fat_walks⟩

end BootyCall.Extractor.Walkers
