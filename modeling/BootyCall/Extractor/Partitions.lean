import BootyCall.Extractor.Readers

namespace BootyCall.Extractor.Partitions

open Lib.FileOps Copy Readers

def usable (image : Image) (partition : Partition) : Option Fat :=
  match partition.isUsed, partition.bytesStart, partition.bytesLen with
  | true, .ok start, .ok len => image.fat start len
  | _, _, _ => none

def kernelIn (kernelOverride : Option String) (fat : Fat) :
    Except ExtractorError (Option Source) := resolveFat fat kernelOverride isKernelName

def initrdIn (initrdOverride : Option String) (fat : Fat) :
    Except ExtractorError (Option Source) := resolveFat fat initrdOverride isInitrdName

/-- The file system in which the kernel is found first: none of those before it has a kernel, and
the search for one has failed in none of them. -/
def CommitsTo (kernelOverride : Option String) (fats : List Fat) (fat : Fat) (kernel : Source) :
    Prop :=
  ∃ before after, fats = before ++ fat :: after ∧
    (∀ skipped ∈ before, kernelIn kernelOverride skipped = .ok none) ∧
    kernelIn kernelOverride fat = .ok (some kernel)

def settles (kernelOverride : Option String) (fat : Fat) :
    Option (Except ExtractorError (Fat × Source)) :=
  match kernelIn kernelOverride fat with
  | .ok none => none
  | .ok (some kernel) => some (.ok (fat, kernel))
  | .error e => some (.error e)

def copyBoth (initrdOverride : Option String) (maxBytes : Option ℕ) (fat : Fat) (kernel : Source) :
    Extraction Unit := do
  copyCapped kernel .kernel maxBytes
  match ← .ofExcept (initrdIn initrdOverride fat) with
  | some initrd => copyCapped initrd .initrd maxBytes
  | none => throw .initrdNotFound

def settle (initrdOverride : Option String) (maxBytes : Option ℕ) :
    Option (Except ExtractorError (Fat × Source)) → Extraction Unit
  | none => throw .kernelNotFound
  | some (.error e) => throw e
  | some (.ok (fat, kernel)) => copyBoth initrdOverride maxBytes fat kernel

variable {image : Image} {kernelOverride initrdOverride override : Option String}
  {maxBytes : Option ℕ} {filter : String → Bool} {fats : List Fat} {fat : Fat}
  {kernel initrd : Source}

theorem openFat_eq (hopen : image.openFile = .ok ()) (partition : Partition) :
    openFat image partition = .ok (usable image partition) := by
  rw [openFat, usable, hopen]
  match partition.isUsed, partition.bytesStart, partition.bytesLen with
  | false, _, _ => rfl
  | true, .ok start, .ok len => rfl
  | true, .error e, _ => rfl
  | true, .ok start, .error e => rfl

theorem settles_eq_none :
    settles kernelOverride fat = none ↔ kernelIn kernelOverride fat = .ok none := by
  rw [settles]
  split <;> simp_all

theorem settles_eq_ok {a : Fat} :
    settles kernelOverride a = some (.ok (fat, kernel)) ↔
      a = fat ∧ kernelIn kernelOverride a = .ok (some kernel) := by
  rw [settles]
  split <;> simp_all

theorem commitsTo_iff :
    CommitsTo kernelOverride fats fat kernel ↔
      fats.findSome? (settles kernelOverride) = some (.ok (fat, kernel)) := by
  simp only [List.findSome?_eq_some_iff, settles_eq_none, settles_eq_ok]
  constructor
  · rintro ⟨before, after, hfats, hbefore, hkernel⟩
    exact ⟨before, fat, after, hfats, ⟨rfl, hkernel⟩, hbefore⟩
  · rintro ⟨before, a, after, hfats, ⟨rfl, hkernel⟩, hbefore⟩
    exact ⟨before, after, hfats, hbefore, hkernel⟩

theorem extractFromFat_bind (fat : Fat) (override : Option String) (filter : String → Bool)
    (out : CacheFile) (maxBytes : Option ℕ) (next : Bool → Extraction Unit) :
    extractFromFat fat override filter out maxBytes >>= next =
      match resolveFat fat override filter with
      | .error e => throw e
      | .ok none => next false
      | .ok (some source) => copyCapped source out maxBytes >>= fun _ ↦ next true := by
  rw [extractFromFat]
  cases resolveFat fat override filter with
  | error e => rfl
  | ok resolved =>
    cases resolved with
    | none => rfl
    | some source =>
      rw [Script.ofExcept_ok_bind]
      exact Script.bind_assoc _ _ _

/-- The loop over the partitions commits to the first usable one that settles the extraction. -/
theorem extractFromPartitions_eq (hopen : image.openFile = .ok ()) (partitions : List Partition) :
    extractFromPartitions image kernelOverride initrdOverride maxBytes partitions =
      settle initrdOverride maxBytes
        ((partitions.filterMap (usable image)).findSome? (settles kernelOverride)) := by
  induction partitions with
  | nil => rfl
  | cons partition rest ih =>
    rw [extractFromPartitions, openFat_eq hopen, Script.ofExcept_ok_bind, List.filterMap_cons]
    cases usable image partition with
    | none => exact ih
    | some fat =>
      dsimp only
      rw [List.findSome?_cons, settles, kernelIn, extractFromFat_bind]
      rcases resolveFat fat kernelOverride isKernelName with e | (- | kernel)
      · rfl
      · exact ih
      · rw [settle, copyBoth, initrdIn]
        apply congrArg (copyCapped kernel .kernel maxBytes >>= ·)
        funext _
        rw [if_pos rfl, extractFromFat_bind]
        rcases resolveFat fat initrdOverride isInitrdName with e | (- | initrd)
        · rfl
        · rfl
        · exact Script.bind_unit _

theorem resolveFat_ne_error {e : ExtractorError} (hio : ∀ cause, e ≠ .io cause) :
    resolveFat fat override filter ≠ .error e := by
  cases override with
  | some path => nofun
  | none =>
    rw [resolveFat, findFileRecursiveFat]
    cases findBounded fat.contents filter maxDirDepth fat.rootDir with
    | ok source => nofun
    | error cause =>
      intro h
      exact hio cause (Except.error.inj h).symm

theorem copyBoth_result :
    (copyBoth initrdOverride maxBytes fat kernel).result =
      (copyCapped kernel .kernel maxBytes).result.bind fun _ ↦
        (initrdIn initrdOverride fat).bind fun
          | some initrd => (copyCapped initrd .initrd maxBytes).result
          | none => .error .initrdNotFound := by
  refine (Script.result_bind _ _).trans (congrArg (Except.bind _) (funext fun _ ↦ ?_))
  rcases initrdIn initrdOverride fat with e | (- | initrd) <;> rfl

theorem copyBoth_ok_iff :
    (copyBoth initrdOverride maxBytes fat kernel).result = .ok () ↔ kernel.Fits maxBytes ∧
      ∃ initrd, initrdIn initrdOverride fat = .ok (some initrd) ∧ initrd.Fits maxBytes := by
  rw [copyBoth_result, ← @copyCapped_ok_iff kernel .kernel]
  rcases (copyCapped kernel .kernel maxBytes).result with e | -
  · simp [Except.bind]
  · rcases initrdIn initrdOverride fat with e | (- | initrd) <;>
      simp [Except.bind, copyCapped_ok_iff]

theorem copyBoth_error_iff {e : ExtractorError} :
    (copyBoth initrdOverride maxBytes fat kernel).result = .error e ↔
      (copyCapped kernel .kernel maxBytes).result = .error e ∨
      kernel.Fits maxBytes ∧
        (initrdIn initrdOverride fat = .error e ∨
          initrdIn initrdOverride fat = .ok none ∧ e = .initrdNotFound ∨
          ∃ initrd, initrdIn initrdOverride fat = .ok (some initrd) ∧
            (copyCapped initrd .initrd maxBytes).result = .error e) := by
  rw [copyBoth_result, ← @copyCapped_ok_iff kernel .kernel]
  rcases (copyCapped kernel .kernel maxBytes).result with e' | -
  · simp [Except.bind]
  · rcases initrdIn initrdOverride fat with e' | (- | initrd) <;>
      simp [Except.bind, eq_comm]

theorem copyBoth_ops (h : (copyBoth initrdOverride maxBytes fat kernel).result = .ok ())
    (hinitrd : initrdIn initrdOverride fat = .ok (some initrd)) :
    (copyBoth initrdOverride maxBytes fat kernel).ops =
      writeFile .kernel kernel.bytes ++ writeFile .initrd initrd.bytes := by
  obtain ⟨_, hkernel, hrest, hops⟩ := Script.bind_ok h
  refine hops.trans ?_
  rw [hinitrd] at hrest ⊢
  exact congrArg₂ (· ++ ·) (copyCapped_ok hkernel) (copyCapped_ok hrest)

theorem extractFromDisk_eq {partitions : List Partition} (hopen : image.openFile = .ok ())
    (hdisk : image.disk = .ok partitions) :
    extractFromDisk image kernelOverride initrdOverride maxBytes =
      settle initrdOverride maxBytes
        ((partitions.filterMap (usable image)).findSome? (settles kernelOverride)) := by
  rw [extractFromDisk, hdisk, ← extractFromPartitions_eq hopen]
  rfl

theorem settles_ne_error {e : ExtractorError} (hio : ∀ cause, e ≠ .io cause) :
    fats.findSome? (settles kernelOverride) ≠ some (.error e) := by
  intro h
  obtain ⟨fat, -, hfat⟩ := List.exists_of_findSome?_eq_some h
  rw [settles] at hfat
  split at hfat
  · cases hfat
  · cases hfat
  · next hsearch =>
    cases hfat
    exact resolveFat_ne_error hio hsearch

theorem settle_ok_iff :
    (settle initrdOverride maxBytes (fats.findSome? (settles kernelOverride))).result = .ok () ↔
      ∃ fat kernel, CommitsTo kernelOverride fats fat kernel ∧
        (copyBoth initrdOverride maxBytes fat kernel).result = .ok () := by
  simp only [commitsTo_iff]
  rcases fats.findSome? (settles kernelOverride) with - | (e | ⟨fat, kernel⟩) <;>
    simp [settle, throw, throwThe, MonadExceptOf.throw]

theorem settle_error_iff {e : ExtractorError} :
    (settle initrdOverride maxBytes (fats.findSome? (settles kernelOverride))).result =
        .error e ↔
      (∀ fat ∈ fats, kernelIn kernelOverride fat = .ok none) ∧ e = .kernelNotFound ∨
      fats.findSome? (settles kernelOverride) = some (.error e) ∨
      ∃ fat kernel, CommitsTo kernelOverride fats fat kernel ∧
        (copyBoth initrdOverride maxBytes fat kernel).result = .error e := by
  simp only [commitsTo_iff, ← settles_eq_none, ← List.findSome?_eq_none_iff]
  rcases fats.findSome? (settles kernelOverride) with - | (e | ⟨fat, kernel⟩) <;>
    simp [settle, throw, throwThe, MonadExceptOf.throw, eq_comm]

/-- A file system that the disk reader commits to, with both artifacts in it and nothing that
keeps it from copying them. -/
structure Yields (kernelOverride initrdOverride : Option String) (maxBytes : Option ℕ)
    (fats : List Fat) (fat : Fat) (kernel initrd : Source) : Prop where
  commits : CommitsTo kernelOverride fats fat kernel
  initrdFound : initrdIn initrdOverride fat = .ok (some initrd)
  kernelFits : kernel.Fits maxBytes
  initrdFits : initrd.Fits maxBytes

theorem copyBoth_initrdNotFound :
    (copyBoth initrdOverride maxBytes fat kernel).result = .error .initrdNotFound ↔
      kernel.Fits maxBytes ∧ initrdIn initrdOverride fat = .ok none := by
  have hcopy (reader : Source) (out : CacheFile) :
      (copyCapped reader out maxBytes).result ≠ .error .initrdNotFound :=
    copyCapped_ne_error nofun nofun
  have hsearch : initrdIn initrdOverride fat ≠ .error .initrdNotFound := resolveFat_ne_error nofun
  rw [copyBoth_error_iff]
  simp [hcopy, hsearch]

theorem copyBoth_ne_kernelNotFound :
    (copyBoth initrdOverride maxBytes fat kernel).result ≠ .error .kernelNotFound := by
  have hcopy (reader : Source) (out : CacheFile) :
      (copyCapped reader out maxBytes).result ≠ .error .kernelNotFound :=
    copyCapped_ne_error nofun nofun
  have hsearch : initrdIn initrdOverride fat ≠ .error .kernelNotFound := resolveFat_ne_error nofun
  rw [Ne, copyBoth_error_iff]
  simp [hcopy, hsearch]

/-- The disk reader works on one partition: the first usable one in which the kernel resolves.
It succeeds exactly if that has the initrd too and both can be copied, then with the artifacts of
this partition, and the partitions after it do not count. -/
theorem disk_commits {image : Image} {partitions : List Partition}
    (hopen : image.openFile = .ok ()) (hdisk : image.disk = .ok partitions)
    (kernelOverride initrdOverride : Option String) (maxBytes : Option ℕ) :
    let fats := partitions.filterMap (usable image)
    let x := extractFromDisk image kernelOverride initrdOverride maxBytes
    (x.result = .ok () ↔ ∃ fat kernel initrd,
      Yields kernelOverride initrdOverride maxBytes fats fat kernel initrd) ∧
    (∀ fat kernel initrd, Yields kernelOverride initrdOverride maxBytes fats fat kernel initrd →
      Leaves .kernel kernel.bytes x.ops ∧ Leaves .initrd initrd.bytes x.ops) ∧
    (x.result = .error .initrdNotFound ↔ ∃ fat kernel,
      CommitsTo kernelOverride fats fat kernel ∧ kernel.Fits maxBytes ∧
        initrdIn initrdOverride fat = .ok none) ∧
    (x.result = .error .kernelNotFound ↔
      ∀ fat ∈ fats, kernelIn kernelOverride fat = .ok none) := by
  dsimp only
  rw [extractFromDisk_eq hopen hdisk]
  generalize partitions.filterMap (usable image) = fats
  refine ⟨?_, ?_, ?_, ?_⟩
  · rw [settle_ok_iff]
    constructor
    · rintro ⟨fat, kernel, hcommits, hboth⟩
      obtain ⟨hkernel, initrd, hinitrd, hfits⟩ := copyBoth_ok_iff.mp hboth
      exact ⟨fat, kernel, initrd, hcommits, hinitrd, hkernel, hfits⟩
    · rintro ⟨fat, kernel, initrd, h⟩
      exact ⟨fat, kernel, h.commits,
        copyBoth_ok_iff.mpr ⟨h.kernelFits, initrd, h.initrdFound, h.initrdFits⟩⟩
  · intro fat kernel initrd h
    have hboth := copyBoth_ok_iff.mpr ⟨h.kernelFits, initrd, h.initrdFound, h.initrdFits⟩
    rw [commitsTo_iff.mp h.commits, settle, copyBoth_ops hboth h.initrdFound]
    refine ⟨?_, (leaves_writeFile _ _).append_left _⟩
    exact (leaves_writeFile _ _).append_right (touches_writeFile _)
  · rw [settle_error_iff]
    simp [settles_ne_error, copyBoth_initrdNotFound]
  · rw [settle_error_iff]
    simp [settles_ne_error, copyBoth_ne_kernelNotFound]

section Sample

def sampleFat (files : List (String × UInt8)) : Fat where
  rootDir := 0
  contents := fun _ ↦ files.map fun file ↦
    .ok (.file file.1 { chunks := [[file.2]], nonempty := by simp })
  openFile := fun _ ↦ .error ⟨.notFound, "No such file or directory"⟩

def sampleDisk : Image where
  openFile := .ok ()
  iso := .error "not an ISO9660 image"
  disk := .ok [⟨false, .ok 0, .ok 1⟩, ⟨true, .ok 1, .ok 1⟩, ⟨true, .ok 2, .ok 1⟩,
    ⟨true, .ok 3, .ok 1⟩]
  fat := fun start _ ↦
    if start = 1 then some (sampleFat [("initrd.img", 9)])
    else some (sampleFat [("vmlinuz", 1), ("initrd.img", start.toUInt8)])

theorem disk_commits_sample :
    Leaves .initrd [2] (extractFromDisk sampleDisk none none (some 1)).ops :=
  ((disk_commits rfl rfl none none (some 1)).2.1 (sampleFat [("vmlinuz", 1), ("initrd.img", 2)])
    { chunks := [[1]] } { chunks := [[2]] }
    { commits := ⟨[sampleFat [("initrd.img", 9)]],
        [sampleFat [("vmlinuz", 1), ("initrd.img", 3)]], rfl, by decide +kernel, by decide +kernel⟩
      initrdFound := by decide +kernel
      kernelFits := ⟨rfl, by simp [Source.bytes]⟩
      initrdFits := ⟨rfl, by simp [Source.bytes]⟩ }).2

end Sample

end BootyCall.Extractor.Partitions
