import BootyCall.Extractor.Partitions

namespace BootyCall.Extractor.Located

open Lib.FileOps Copy Readers Partitions

/-- The search of the ISO reader, which is over before it copies anything. -/
def isoLocate (image : Image) (kernelOverride initrdOverride : Option String) :
    Except ExtractorError (Source × Source) := do
  image.openFile.mapError .io
  let iso ← image.iso.mapError .iso
  let kernel ← resolveIso iso kernelOverride isKernelName .kernelNotFound
  let initrd ← resolveIso iso initrdOverride isInitrdName .initrdNotFound
  return (kernel, initrd)

/-- The disk reader gets to both artifacts, in one of the image's partitions. -/
structure DiskLocates (image : Image) (kernelOverride initrdOverride : Option String)
    (kernel initrd : Source) : Prop where
  opens : image.openFile = .ok ()
  finds : ∃ partitions fat, image.disk = .ok partitions ∧
    CommitsTo kernelOverride (partitions.filterMap (usable image)) fat kernel ∧
    initrdIn initrdOverride fat = .ok (some initrd)

/-- What an extraction takes from an image: the artifacts of the ISO reader where it can copy both
of its own, else those of the disk reader. -/
inductive Extracts (image : Image) (kernelOverride initrdOverride : Option String)
    (maxBytes : Option ℕ) (kernel initrd : Source) : Prop
  | iso (h : isoLocate image kernelOverride initrdOverride = .ok (kernel, initrd))
      (hkernel : kernel.Fits maxBytes) (hinitrd : initrd.Fits maxBytes)
  | disk (hiso : ∀ kernel' initrd',
        isoLocate image kernelOverride initrdOverride = .ok (kernel', initrd') →
        ¬(kernel'.Fits maxBytes ∧ initrd'.Fits maxBytes))
      (h : DiskLocates image kernelOverride initrdOverride kernel initrd)
      (hkernel : kernel.Fits maxBytes) (hinitrd : initrd.Fits maxBytes)

variable {image : Image} {kernelOverride initrdOverride : Option String} {maxBytes : Option ℕ}
  {partitions : List Partition} {kernel initrd : Source}

theorem Extracts.fits
    (h : Extracts image kernelOverride initrdOverride maxBytes kernel initrd) :
    kernel.Fits maxBytes ∧ initrd.Fits maxBytes := by
  cases h with
  | iso h hkernel hinitrd => exact ⟨hkernel, hinitrd⟩
  | disk hiso h hkernel hinitrd => exact ⟨hkernel, hinitrd⟩

def copyPair (maxBytes : Option ℕ) (pair : Source × Source) : Extraction Unit := do
  copyCapped pair.1 .kernel maxBytes
  copyCapped pair.2 .initrd maxBytes

theorem copyPair_ok_iff :
    (copyPair maxBytes (kernel, initrd)).result = .ok () ↔
      kernel.Fits maxBytes ∧ initrd.Fits maxBytes := by
  rw [copyPair, Script.result_bind, ← @copyCapped_ok_iff kernel .kernel,
    ← @copyCapped_ok_iff initrd .initrd]
  rcases (copyCapped kernel .kernel maxBytes).result with e | -
  · simp [bind, Except.bind]
  · simp [bind, Except.bind]

theorem copyPair_ops (h : (copyPair maxBytes (kernel, initrd)).result = .ok ()) :
    (copyPair maxBytes (kernel, initrd)).ops =
      writeFile .kernel kernel.bytes ++ writeFile .initrd initrd.bytes := by
  obtain ⟨_, hkernel, hinitrd, hops⟩ := Script.bind_ok h
  rw [copyPair, hops, copyCapped_ok hkernel, copyCapped_ok hinitrd]

theorem extractFromIso_eq :
    extractFromIso image kernelOverride initrdOverride maxBytes =
      .ofExcept (isoLocate image kernelOverride initrdOverride) >>= copyPair maxBytes := by
  simp only [extractFromIso, isoLocate, Script.ofExcept_bind, Script.bind_assoc]
  rfl

theorem extractFromIso_ok_iff :
    (extractFromIso image kernelOverride initrdOverride maxBytes).result = .ok () ↔
      ∃ kernel initrd, isoLocate image kernelOverride initrdOverride = .ok (kernel, initrd) ∧
        kernel.Fits maxBytes ∧ initrd.Fits maxBytes := by
  rw [extractFromIso_eq]
  rcases isoLocate image kernelOverride initrdOverride with e | ⟨kernel, initrd⟩
  · simp
  · simp [copyPair_ok_iff]

theorem extractFromPartitions_unopened {cause : IoError} (h : image.openFile = .error cause)
    (partitions : List Partition) :
    (extractFromPartitions image kernelOverride initrdOverride maxBytes partitions).result =
        .error .kernelNotFound ∨
      (extractFromPartitions image kernelOverride initrdOverride maxBytes partitions).result =
        .error (.io cause) := by
  induction partitions with
  | nil => exact .inl rfl
  | cons partition rest ih =>
    rw [extractFromPartitions, openFat, h]
    split
    · exact ih
    · split
      · exact .inr rfl
      · exact ih

theorem extractFromDisk_opened
    (h : ∀ e, (extractFromDisk image kernelOverride initrdOverride maxBytes).result = .error e →
      ∃ limit, e = .artifactTooLarge limit) :
    image.openFile = .ok () ∧ ∃ partitions, image.disk = .ok partitions := by
  rw [extractFromDisk] at h
  cases hdisk : image.disk with
  | error e =>
    rw [hdisk] at h
    obtain ⟨limit, he⟩ := h _ rfl
    cases he
  | ok partitions =>
    refine ⟨?_, partitions, rfl⟩
    cases hopen : image.openFile with
    | ok u => rfl
    | error cause =>
      rw [hdisk] at h
      rcases extractFromPartitions_unopened hopen partitions with hresult | hresult
      · obtain ⟨limit, he⟩ := h _ hresult
        cases he
      · obtain ⟨limit, he⟩ := h _ hresult
        cases he

theorem extractFromDisk_ok_iff :
    (extractFromDisk image kernelOverride initrdOverride maxBytes).result = .ok () ↔
      ∃ kernel initrd, DiskLocates image kernelOverride initrdOverride kernel initrd ∧
        kernel.Fits maxBytes ∧ initrd.Fits maxBytes := by
  constructor
  · intro hok
    obtain ⟨hopen, partitions, hdisk⟩ := extractFromDisk_opened fun e he ↦ by
      rw [hok] at he
      cases he
    rw [extractFromDisk_eq hopen hdisk, settle_ok_iff] at hok
    obtain ⟨fat, kernel, hcommits, hboth⟩ := hok
    obtain ⟨hkernel, initrd, hinitrd, hfits⟩ := copyBoth_ok_iff.mp hboth
    exact ⟨kernel, initrd, ⟨hopen, partitions, fat, hdisk, hcommits, hinitrd⟩, hkernel, hfits⟩
  · rintro ⟨kernel, initrd, ⟨hopen, partitions, fat, hdisk, hcommits, hinitrd⟩, hfits⟩
    rw [extractFromDisk_eq hopen hdisk, settle_ok_iff]
    exact ⟨fat, kernel, hcommits, copyBoth_ok_iff.mpr ⟨hfits.1, initrd, hinitrd, hfits.2⟩⟩

theorem extractFromDisk_ops (h : DiskLocates image kernelOverride initrdOverride kernel initrd)
    (hkernel : kernel.Fits maxBytes) (hinitrd : initrd.Fits maxBytes) :
    (extractFromDisk image kernelOverride initrdOverride maxBytes).ops =
      writeFile .kernel kernel.bytes ++ writeFile .initrd initrd.bytes := by
  obtain ⟨hopen, partitions, fat, hdisk, hcommits, hfound⟩ := h
  rw [extractFromDisk_eq hopen hdisk, commitsTo_iff.mp hcommits, settle]
  exact copyBoth_ops (copyBoth_ok_iff.mpr ⟨hkernel, initrd, hfound, hinitrd⟩) hfound

/-- The disk reader is stopped by the cap: at the kernel of the partition it commits to, or at the
initrd there after that kernel was copied. -/
def StopsAtCap (image : Image) (kernelOverride initrdOverride : Option String) (limit : ℕ) :
    Prop :=
  image.openFile = .ok () ∧ ∃ partitions fat kernel, image.disk = .ok partitions ∧
    CommitsTo kernelOverride (partitions.filterMap (usable image)) fat kernel ∧
    (limit < kernel.bytes.length ∨ kernel.Fits (some limit) ∧
      ∃ initrd, initrdIn initrdOverride fat = .ok (some initrd) ∧ limit < initrd.bytes.length)

theorem copyBoth_tooLarge_iff {fat : Fat} {limit : ℕ} :
    (copyBoth initrdOverride (some limit) fat kernel).result = .error (.artifactTooLarge limit) ↔
      limit < kernel.bytes.length ∨ kernel.Fits (some limit) ∧
        ∃ initrd, initrdIn initrdOverride fat = .ok (some initrd) ∧
          limit < initrd.bytes.length := by
  have hsearch : initrdIn initrdOverride fat ≠ .error (.artifactTooLarge limit) :=
    resolveFat_ne_error nofun
  rw [copyBoth_error_iff]
  simp [copyCapped_tooLarge_iff, hsearch]

theorem extractFromDisk_tooLarge_iff {limit : ℕ} :
    (extractFromDisk image kernelOverride initrdOverride (some limit)).result =
        .error (.artifactTooLarge limit) ↔
      StopsAtCap image kernelOverride initrdOverride limit := by
  constructor
  · intro h
    obtain ⟨hopen, partitions, hdisk⟩ := extractFromDisk_opened fun e he ↦ by
      rw [h] at he
      exact ⟨limit, (Except.error.inj he).symm⟩
    rw [extractFromDisk_eq hopen hdisk, settle_error_iff] at h
    rcases h with ⟨-, he⟩ | herror | ⟨fat, kernel, hcommits, hboth⟩
    · cases he
    · exact absurd herror (settles_ne_error nofun)
    · exact ⟨hopen, partitions, fat, kernel, hdisk, hcommits, copyBoth_tooLarge_iff.mp hboth⟩
  · rintro ⟨hopen, partitions, fat, kernel, hdisk, hcommits, hover⟩
    rw [extractFromDisk_eq hopen hdisk, settle_error_iff]
    exact .inr (.inr ⟨fat, kernel, hcommits, copyBoth_tooLarge_iff.mpr hover⟩)

theorem extract_of_iso (h : isoLocate image kernelOverride initrdOverride = .ok (kernel, initrd))
    (hkernel : kernel.Fits maxBytes) (hinitrd : initrd.Fits maxBytes) :
    extract image kernelOverride initrdOverride maxBytes =
      ⟨writeFile .kernel kernel.bytes ++ writeFile .initrd initrd.bytes, .ok ()⟩ := by
  have hok := extractFromIso_ok_iff.mpr ⟨kernel, initrd, h, hkernel, hinitrd⟩
  have hpair := copyPair_ok_iff.mpr ⟨hkernel, hinitrd⟩
  rw [extract, Script.tryCatch_of_ok hok, extractFromIso_eq, h, Script.ofExcept_ok_bind]
  exact congrArg₂ Script.mk (copyPair_ops hpair) hpair

theorem extract_of_disk
    (h : ∀ kernel initrd, isoLocate image kernelOverride initrdOverride = .ok (kernel, initrd) →
      ¬(kernel.Fits maxBytes ∧ initrd.Fits maxBytes)) :
    extract image kernelOverride initrdOverride maxBytes =
      ⟨(extractFromIso image kernelOverride initrdOverride maxBytes).ops ++
        (extractFromDisk image kernelOverride initrdOverride maxBytes).ops,
        (extractFromDisk image kernelOverride initrdOverride maxBytes).result⟩ := by
  cases hresult : (extractFromIso image kernelOverride initrdOverride maxBytes).result with
  | error e => rw [extract, Script.tryCatch_of_error hresult]
  | ok u =>
    obtain ⟨kernel, initrd, hlocate, hfits⟩ := extractFromIso_ok_iff.mp hresult
    exact absurd hfits (h kernel initrd hlocate)

theorem extract_ok_iff :
    (extract image kernelOverride initrdOverride maxBytes).result = .ok () ↔
      ∃ kernel initrd, Extracts image kernelOverride initrdOverride maxBytes kernel initrd := by
  by_cases hiso : ∃ kernel initrd,
      isoLocate image kernelOverride initrdOverride = .ok (kernel, initrd) ∧
        kernel.Fits maxBytes ∧ initrd.Fits maxBytes
  · obtain ⟨kernel, initrd, hlocate, hkernel, hinitrd⟩ := hiso
    rw [extract_of_iso hlocate hkernel hinitrd]
    exact ⟨fun _ ↦ ⟨kernel, initrd, .iso hlocate hkernel hinitrd⟩, fun _ ↦ rfl⟩
  · have hfails : ∀ kernel initrd,
        isoLocate image kernelOverride initrdOverride = .ok (kernel, initrd) →
          ¬(kernel.Fits maxBytes ∧ initrd.Fits maxBytes) :=
      fun kernel initrd hlocate hfits ↦ hiso ⟨kernel, initrd, hlocate, hfits⟩
    rw [extract_of_disk hfails, extractFromDisk_ok_iff]
    constructor
    · rintro ⟨kernel, initrd, hlocate, hkernel, hinitrd⟩
      exact ⟨kernel, initrd, .disk hfails hlocate hkernel hinitrd⟩
    · rintro ⟨kernel, initrd, hextracts⟩
      cases hextracts with
      | iso hlocate hkernel hinitrd => exact absurd ⟨hkernel, hinitrd⟩ (hfails _ _ hlocate)
      | disk _ hlocate hkernel hinitrd => exact ⟨kernel, initrd, hlocate, hkernel, hinitrd⟩

theorem Extracts.leaves
    (h : Extracts image kernelOverride initrdOverride maxBytes kernel initrd) :
    Leaves .kernel kernel.bytes (extract image kernelOverride initrdOverride maxBytes).ops ∧
      Leaves .initrd initrd.bytes (extract image kernelOverride initrdOverride maxBytes).ops := by
  have hkernel : Leaves CacheFile.kernel kernel.bytes
      (writeFile .kernel kernel.bytes ++ writeFile .initrd initrd.bytes) :=
    (leaves_writeFile _ _).append_right (touches_writeFile _)
  have hinitrd : Leaves CacheFile.initrd initrd.bytes
      (writeFile .kernel kernel.bytes ++ writeFile .initrd initrd.bytes) :=
    (leaves_writeFile _ _).append_left _
  cases h with
  | iso hlocate hfitsKernel hfitsInitrd =>
    rw [extract_of_iso hlocate hfitsKernel hfitsInitrd]
    exact ⟨hkernel, hinitrd⟩
  | disk hfails hlocate hfitsKernel hfitsInitrd =>
    rw [extract_of_disk hfails, extractFromDisk_ops hlocate hfitsKernel hfitsInitrd]
    exact ⟨hkernel.append_left _, hinitrd.append_left _⟩

end BootyCall.Extractor.Located
