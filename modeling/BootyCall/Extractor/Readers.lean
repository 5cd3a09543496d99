import BootyCall.Extractor.Copy

namespace BootyCall.Extractor.Readers

open Lib.FileOps Copy

/-- An entry of a directory, as either reader presents it; a directory is known by a handle, so
a directory may contain itself. -/
inductive DirectoryEntry
  | file (name : String) (source : Source)
  | directory (name : String) (dir : ℕ)
  deriving DecidableEq

def maxDirDepth : ℕ := 64

def lowercase (name : String) : List Char := name.toList.map Char.toLower

def isKernelName (name : String) : Bool :=
  lowercase name ∈ ["vmlinuz".toList, "bzimage".toList, "kernel".toList, "image".toList]

def isInitrdName (name : String) : Bool :=
  decide ("initrd".toList <:+: lowercase name ∨ "initramfs".toList <:+: lowercase name)

section Walk

variable {ε : Type} (contents : ℕ → List (Except ε DirectoryEntry)) (filter : String → Bool)

def scanEntries (descend : ℕ → Except ε (Option Source)) :
    List (Except ε DirectoryEntry) → Except ε (Option Source)
  | [] => .ok none
  | .error e :: _ => .error e
  | .ok (.file name source) :: rest =>
    if filter name then .ok (some source) else scanEntries descend rest
  | .ok (.directory name dir) :: rest =>
    if name = "." ∨ name = ".." then scanEntries descend rest
    else
      match descend dir with
      | .error e => .error e
      | .ok (some found) => .ok (some found)
      | .ok none => scanEntries descend rest

/-- The walk that both readers make; `room` is how much deeper it may still go. -/
def findBounded : ℕ → ℕ → Except ε (Option Source)
  | 0, _ => .ok none
  | room + 1, dir => scanEntries filter (findBounded room) (contents dir)

end Walk

structure Iso where
  root : ℕ
  contents : ℕ → List (Except String DirectoryEntry)
  openPath : String → Except String (Option DirectoryEntry)

structure Fat where
  rootDir : ℕ
  contents : ℕ → List (Except IoError DirectoryEntry)
  openFile : String → Except IoError Source

structure Partition where
  isUsed : Bool
  bytesStart : Except String ℕ
  bytesLen : Except String ℕ

/-- The readers' view of an image file's content. `fat` is the file system that starts at an
offset and has a given length, if there is one. -/
structure Image where
  openFile : Except IoError Unit
  iso : Except String Iso
  disk : Except String (List Partition)
  fat : ℕ → ℕ → Option Fat

def findFileRecursive (iso : Iso) (filter : String → Bool) :
    Except ExtractorError (Option Source) :=
  (findBounded iso.contents filter maxDirDepth iso.root).mapError .iso

def findFileRecursiveFat (fat : Fat) (filter : String → Bool) :
    Except ExtractorError (Option Source) :=
  (findBounded fat.contents filter maxDirDepth fat.rootDir).mapError .io

def resolveIso (iso : Iso) (override : Option String) (filter : String → Bool)
    (missing : ExtractorError) : Except ExtractorError Source :=
  match override with
  | some path =>
    match iso.openPath path with
    | .error e => .error (.iso e)
    | .ok (some (.file _ source)) => .ok source
    | .ok _ => .error missing
  | none => do
    match ← findFileRecursive iso filter with
    | some source => .ok source
    | none => .error missing

def extractFromIso (image : Image) (kernelOverride initrdOverride : Option String)
    (maxBytes : Option ℕ) : Extraction Unit := do
  .ofExcept (image.openFile.mapError .io)
  let iso ← .ofExcept (image.iso.mapError .iso)
  let kernelFile ← .ofExcept (resolveIso iso kernelOverride isKernelName .kernelNotFound)
  let initrdFile ← .ofExcept (resolveIso iso initrdOverride isInitrdName .initrdNotFound)
  copyCapped kernelFile .kernel maxBytes
  copyCapped initrdFile .initrd maxBytes

def resolveFat (fat : Fat) (override : Option String) (filter : String → Bool) :
    Except ExtractorError (Option Source) :=
  match override with
  | some path => .ok (fat.openFile path).toOption
  | none => findFileRecursiveFat fat filter

def extractFromFat (fat : Fat) (override : Option String) (filter : String → Bool)
    (out : CacheFile) (maxBytes : Option ℕ) : Extraction Bool := do
  match ← .ofExcept (resolveFat fat override filter) with
  | some source =>
    copyCapped source out maxBytes
    return true
  | none => return false

def openFat (image : Image) (partition : Partition) : Except ExtractorError (Option Fat) :=
  if !partition.isUsed then .ok none
  else
    match partition.bytesStart, partition.bytesLen with
    | .ok start, .ok len => do
      image.openFile.mapError .io
      return image.fat start len
    | _, _ => .ok none

def extractFromPartitions (image : Image) (kernelOverride initrdOverride : Option String)
    (maxBytes : Option ℕ) : List Partition → Extraction Unit
  | [] => throw .kernelNotFound
  | partition :: rest => do
    match ← .ofExcept (openFat image partition) with
    | none => extractFromPartitions image kernelOverride initrdOverride maxBytes rest
    | some fat =>
      if ← extractFromFat fat kernelOverride isKernelName .kernel maxBytes then
        if ← extractFromFat fat initrdOverride isInitrdName .initrd maxBytes then return ()
        else throw .initrdNotFound
      else extractFromPartitions image kernelOverride initrdOverride maxBytes rest

def extractFromDisk (image : Image) (kernelOverride initrdOverride : Option String)
    (maxBytes : Option ℕ) : Extraction Unit := do
  let partitions ←
    .ofExcept (image.disk.mapError fun e ↦ .disk ("Failed to open GPT disk: " ++ e))
  extractFromPartitions image kernelOverride initrdOverride maxBytes partitions

def extract (image : Image) (kernelOverride initrdOverride : Option String)
    (maxBytes : Option ℕ) : Extraction Unit :=
  tryCatch (extractFromIso image kernelOverride initrdOverride maxBytes) fun _ ↦
    extractFromDisk image kernelOverride initrdOverride maxBytes

variable {image : Image} {fat : Fat} {override kernelOverride initrdOverride : Option String}
  {filter : String → Bool} {out : CacheFile} {maxBytes : Option ℕ}

theorem extractFromFat_ok {found : Bool}
    (h : (extractFromFat fat override filter out maxBytes).result = .ok found) :
    if found then ∃ bytes, (extractFromFat fat override filter out maxBytes).ops =
      writeFile out bytes
    else (extractFromFat fat override filter out maxBytes).ops = [] := by
  rw [extractFromFat] at h ⊢
  obtain ⟨resolved, -, hrest, hnext⟩ := Script.ofExcept_bind_ok h
  rw [hnext]
  cases resolved with
  | none =>
    cases hrest
    rfl
  | some source =>
    obtain ⟨_, hcopy, hfound, hops⟩ := Script.bind_ok hrest
    cases hfound
    refine ⟨source.bytes, hops.trans ?_⟩
    rw [copyCapped_ok hcopy, Script.ops_pure, List.append_nil]

theorem extractFromFat_within :
    (extractFromFat fat override filter out maxBytes).Within [out] := by
  refine .bind (.ofExcept _) fun resolved ↦ ?_
  cases resolved with
  | none => exact .ofExcept _
  | some source => exact .bind copyCapped_within fun _ ↦ .ofExcept _

def WritesBoth (ops : List (Op CacheFile UInt8)) : Prop :=
  ∃ kernel initrd, ops = writeFile .kernel kernel ++ writeFile .initrd initrd

theorem extractFromIso_ok
    (h : (extractFromIso image kernelOverride initrdOverride maxBytes).result = .ok ()) :
    WritesBoth (extractFromIso image kernelOverride initrdOverride maxBytes).ops := by
  rw [extractFromIso] at h ⊢
  obtain ⟨_, -, h, hopen⟩ := Script.ofExcept_bind_ok h
  obtain ⟨iso, -, h, hiso⟩ := Script.ofExcept_bind_ok h
  obtain ⟨kernelFile, -, h, hkernel⟩ := Script.ofExcept_bind_ok h
  obtain ⟨initrdFile, -, h, hinitrd⟩ := Script.ofExcept_bind_ok h
  obtain ⟨_, hcopy, hcopy', hops⟩ := Script.bind_ok h
  rw [hopen, hiso, hkernel, hinitrd]
  exact ⟨kernelFile.bytes, initrdFile.bytes, by
    rw [hops, copyCapped_ok hcopy, copyCapped_ok hcopy']⟩

theorem extractFromPartitions_ok {partitions : List Partition}
    (h : (extractFromPartitions image kernelOverride initrdOverride maxBytes partitions).result =
      .ok ()) :
    WritesBoth
      (extractFromPartitions image kernelOverride initrdOverride maxBytes partitions).ops := by
  induction partitions with
  | nil => cases h
  | cons partition rest ih =>
    rw [extractFromPartitions] at h ⊢
    obtain ⟨opened, -, h, hnext⟩ := Script.ofExcept_bind_ok h
    rw [hnext]
    cases opened with
    | none => exact ih h
    | some fat =>
      obtain ⟨foundKernel, hkernel, h, hops⟩ := Script.bind_ok h
      have hkernelOps := extractFromFat_ok hkernel
      cases foundKernel with
      | false =>
        -- A partition without a kernel has written nothing.
        refine (congrArg WritesBoth (hops.trans ?_)).mpr (ih h)
        exact congrArg (· ++ _) hkernelOps
      | true =>
        obtain ⟨kernel, hkernelOps⟩ := hkernelOps
        obtain ⟨foundInitrd, hinitrd, h, hops'⟩ := Script.bind_ok h
        have hinitrdOps := extractFromFat_ok hinitrd
        cases foundInitrd with
        | false => cases h
        | true =>
          obtain ⟨initrd, hinitrdOps⟩ := hinitrdOps
          refine ⟨kernel, initrd, hops.trans ?_⟩
          refine congrArg₂ (· ++ ·) hkernelOps (hops'.trans ?_)
          rw [hinitrdOps]
          exact List.append_nil _

theorem extractFromPartitions_within {partitions : List Partition} :
    (extractFromPartitions image kernelOverride initrdOverride maxBytes partitions).Within
      [.kernel, .initrd] := by
  induction partitions with
  | nil => exact .ofExcept _
  | cons partition rest ih =>
    rw [extractFromPartitions]
    refine .bind (.ofExcept _) fun opened ↦ ?_
    cases opened with
    | none => exact ih
    | some fat =>
      refine .bind (extractFromFat_within.mono (by simp)) fun foundKernel ↦ ?_
      cases foundKernel with
      | false => exact ih
      | true =>
        refine .bind (extractFromFat_within.mono (by simp)) fun foundInitrd ↦ ?_
        cases foundInitrd <;> exact .ofExcept _

theorem extractFromIso_within :
    (extractFromIso image kernelOverride initrdOverride maxBytes).Within [.kernel, .initrd] := by
  rw [extractFromIso]
  refine .bind (.ofExcept _) fun _ ↦ .bind (.ofExcept _) fun _ ↦ .bind (.ofExcept _) fun _ ↦
    .bind (.ofExcept _) fun _ ↦ ?_
  exact .bind (copyCapped_within.mono (by simp)) fun _ ↦ copyCapped_within.mono (by simp)

theorem extract_within :
    (extract image kernelOverride initrdOverride maxBytes).Within [.kernel, .initrd] :=
  .tryCatch extractFromIso_within fun _ ↦
    .bind (.ofExcept _) fun _ ↦ extractFromPartitions_within

theorem extract_ok
    (h : (extract image kernelOverride initrdOverride maxBytes).result = .ok ()) :
    ∃ tried written, WritesBoth written ∧
      (extract image kernelOverride initrdOverride maxBytes).ops = tried ++ written := by
  rcases Script.tryCatch_ok h with ⟨hiso, hops⟩ | ⟨e, -, hdisk, hops⟩
  · exact ⟨[], _, extractFromIso_ok hiso, hops⟩
  · obtain ⟨partitions, -, hparts, hnext⟩ := Script.ofExcept_bind_ok hdisk
    exact ⟨_, _, extractFromPartitions_ok hparts, hops.trans (by rw [extractFromDisk, hnext])⟩

end BootyCall.Extractor.Readers
