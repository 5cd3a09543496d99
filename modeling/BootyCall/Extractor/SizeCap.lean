import BootyCall.Extractor.Rounds
import BootyCall.Lib.Runs

namespace BootyCall.Extractor.SizeCap

open BootyCall.Core Lib.FileOps Lib.Runs Copy Readers Partitions Located Metadata Cache Coherence
open Rounds

def WithinCap (limit : ℕ) (dir : HostDir) : Prop :=
  ∀ file ∈ [CacheFile.kernel, .initrd], ∃ content, dir file = some content ∧ content.length ≤ limit

def KeepsCap (serde : Serde) (round : Round) (dir : HostDir) : Prop :=
  ∀ limit, round.maxBytes = some limit → (round.sync serde dir).result = .ok () →
    WithinCap limit (round.after serde dir)

/-- The artifacts that the last extraction of a run took from an image, or those that the directory
started with if there was none. -/
inductive Origin (serde : Serde) (start : HostDir) :
    List Round → List UInt8 → List UInt8 → Prop
  | start {kernel initrd : List UInt8} (hkernel : start .kernel = some kernel)
      (hinitrd : start .initrd = some initrd) : Origin serde start [] kernel initrd
  | extracted {before : List Round} {round : Round} {key : CacheMetadata} {kernel initrd : Source}
      (hkey : round.key = .ok key)
      (hmiss : cacheValid serde (before.foldl (Round.after serde) start) key = false)
      (h : round.Extracts key kernel initrd) :
      Origin serde start (before ++ [round]) kernel.bytes initrd.bytes
  | kept {before : List Round} {round : Round} {kernel initrd : List UInt8}
      (h : Origin serde start before kernel initrd)
      (hhit : ∀ key, round.key = .ok key →
        cacheValid serde (before.foldl (Round.after serde) start) key = true) :
      Origin serde start (before ++ [round]) kernel initrd

/-- Whenever a sync under a cap takes the cache for valid, what was last extracted fits that cap,
whatever cap it was extracted under. -/
def HitsFit (serde : Serde) (start : HostDir) (rounds : List Round) : Prop :=
  ∀ before round after, rounds = before ++ round :: after → ∀ limit key,
    round.maxBytes = some limit → round.key = .ok key →
      cacheValid serde (before.foldl (Round.after serde) start) key = true →
        ∀ kernel initrd, Origin serde start before kernel initrd →
          kernel.length ≤ limit ∧ initrd.length ≤ limit

def AtMost (limit : ℕ) (maxBytes : Option ℕ) : Prop := ∃ cap ≤ limit, maxBytes = some cap

variable {serde : Serde} {key : CacheMetadata} {kernel initrd : Source} {dir : HostDir}
  {round : Round} {limit : ℕ}

theorem WithinCap.congr {dir dir' : HostDir} (hkernel : dir' .kernel = dir .kernel)
    (hinitrd : dir' .initrd = dir .initrd) (h : WithinCap limit dir) : WithinCap limit dir' := by
  simpa [WithinCap, hkernel, hinitrd] using h

theorem withinCap_of_extracts (hkey : round.key = .ok key)
    (hmiss : cacheValid serde dir key = false) (h : round.Extracts key kernel initrd)
    (hcap : AtMost limit round.maxBytes) : WithinCap limit (round.after serde dir) := by
  obtain ⟨cap, hle, hcap⟩ := hcap
  obtain ⟨-, hkernel, hinitrd⟩ := Round.sync_extracts hkey hmiss h
  obtain ⟨hfitsKernel, hfitsInitrd⟩ := h.fits
  intro file hfile
  rcases List.mem_pair.mp hfile with rfl | rfl
  · exact ⟨_, hkernel, (hfitsKernel.2 cap hcap).trans hle⟩
  · exact ⟨_, hinitrd, (hfitsInitrd.2 cap hcap).trans hle⟩

theorem Origin.cached {start : HostDir} {before : List Round} {k i : List UInt8}
    (h : Origin serde start before k i) :
    before.foldl (Round.after serde) start .kernel = some k ∧
      before.foldl (Round.after serde) start .initrd = some i := by
  induction h with
  | start hkernel hinitrd => exact ⟨hkernel, hinitrd⟩
  | extracted hkey hmiss h =>
    rw [List.foldl_append]
    exact (Round.sync_extracts hkey hmiss h).2
  | @kept before round k i h hhit ih =>
    rw [List.foldl_append, List.foldl_cons, List.foldl_nil]
    cases hkey : round.key with
    | error e =>
      rw [Round.after_unknown hkey]
      exact ih
    | ok key =>
      obtain ⟨hkernel, hinitrd⟩ := Round.after_hit hkey (hhit key hkey)
      rw [hkernel, hinitrd]
      exact ih

theorem origin_of_valid {start : HostDir} (before : List Round)
    (hvalid : cacheValid serde (before.foldl (Round.after serde) start) key = true) :
    ∃ k i, Origin serde start before k i := by
  induction before using List.reverseRecOn generalizing key with
  | nil =>
    obtain ⟨k, i, -, hkernel, hinitrd, -⟩ := cacheValid_eq_true hvalid
    exact ⟨k, i, .start hkernel hinitrd⟩
  | append_singleton before round ih =>
    rw [List.foldl_append, List.foldl_cons, List.foldl_nil] at hvalid
    cases hkey : round.key with
    | error e =>
      rw [Round.after_unknown hkey] at hvalid
      obtain ⟨k, i, horigin⟩ := ih hvalid
      refine ⟨k, i, horigin.kept fun key hkey' ↦ ?_⟩
      rw [hkey] at hkey'
      cases hkey'
    | ok key' =>
      cases hhit : cacheValid serde (before.foldl (Round.after serde) start) key' with
      | true =>
        obtain ⟨k, i, horigin⟩ := ih hhit
        refine ⟨k, i, horigin.kept fun key hkey' ↦ ?_⟩
        obtain rfl := Except.ok.inj (hkey.symm.trans hkey')
        exact hhit
      | false =>
        cases hresult : (round.sync serde (before.foldl (Round.after serde) start)).result with
        | error e =>
          have hgone : round.after serde (before.foldl (Round.after serde) start) .metadataJson =
              none := sync_cleans hkey hresult (by simp)
          rw [cacheValid, hgone] at hvalid
          cases hvalid
        | ok u =>
          obtain ⟨key, hkey', hvalid' | ⟨-, kernel, initrd, h⟩⟩ := Round.sync_ok hresult
          · obtain rfl := Except.ok.inj (hkey.symm.trans hkey')
            rw [hhit] at hvalid'
            cases hvalid'
          · obtain rfl := Except.ok.inj (hkey.symm.trans hkey')
            exact ⟨_, _, .extracted hkey hhit h⟩

theorem withinCap_iff {k i : List UInt8} (hkernel : dir .kernel = some k)
    (hinitrd : dir .initrd = some i) :
    WithinCap limit dir ↔ k.length ≤ limit ∧ i.length ≤ limit := by
  simp [WithinCap, hkernel, hinitrd]

/-- Over every sequence of syncs, each under any cap and with any images: those that succeed under
a cap all leave a cache within it exactly if at every hit under a cap the artifacts of the last
extraction fit it. -/
theorem cap_kept_iff (serde : Serde) (start : HostDir) (rounds : List Round) :
    Throughout (Round.after serde) start rounds (KeepsCap serde) ↔
      HitsFit serde start rounds := by
  constructor
  · intro h before round after hsplit limit key hlimit hkey hvalid k i horigin
    have hok := congrArg Script.result (Round.sync_hit hkey hvalid)
    have hwithin := h before round after hsplit limit hlimit hok
    obtain ⟨hkernel, hinitrd⟩ := Round.after_hit hkey hvalid
    rw [← withinCap_iff horigin.cached.1 horigin.cached.2]
    exact hwithin.congr hkernel.symm hinitrd.symm
  · intro h before round after hsplit limit hlimit hok
    obtain ⟨key, hkey, hvalid | ⟨hmiss, kernel, initrd, hextracts⟩⟩ := Round.sync_ok hok
    · obtain ⟨k, i, horigin⟩ := origin_of_valid before hvalid
      obtain ⟨hkernel, hinitrd⟩ := Round.after_hit hkey hvalid
      refine WithinCap.congr hkernel hinitrd ?_
      rw [withinCap_iff horigin.cached.1 horigin.cached.2]
      exact h before round after hsplit limit key hlimit hkey hvalid k i horigin
    · exact withinCap_of_extracts hkey hmiss hextracts ⟨limit, le_rfl, hlimit⟩

def sampleRound (maxBytes : Option ℕ) : Round := ⟨sampleCall "/a" none, sampleImages, maxBytes⟩

theorem loweredCap_exceeded :
    ¬Throughout (Round.after prettyJson) (fun _ ↦ none) [sampleRound none, sampleRound (some 1)]
      (KeepsCap prettyJson) := by
  intro h
  have hkeeps := h [sampleRound none] (sampleRound (some 1)) [] rfl
  obtain ⟨content, hcontent, hlength⟩ :=
    hkeeps 1 rfl (by decide +kernel) .kernel List.mem_cons_self
  have hkernel : Round.after prettyJson ([sampleRound none].foldl (Round.after prettyJson)
      fun _ ↦ none) (sampleRound (some 1)) .kernel = some [1, 2, 3] := by decide +kernel
  rw [hkernel] at hcontent
  cases hcontent
  exact absurd hlength (by decide)

section Rising

theorem cachedWithin_rounds {rounds : List Round}
    (h : Round.Cached serde (WithinCap limit) dir)
    (hcaps : ∀ round ∈ rounds, AtMost limit round.maxBytes) :
    Round.Cached serde (WithinCap limit) (rounds.foldl (Round.after serde) dir) := by
  induction rounds generalizing dir with
  | nil => exact h
  | cons round rest ih =>
    rw [List.forall_mem_cons] at hcaps
    refine ih (h.after WithinCap.congr ?_) hcaps.2
    intro key kernel initrd hkey hmiss hextracts
    exact withinCap_of_extracts hkey hmiss hextracts hcaps.1

/-- From a directory without metadata, whatever was extracted fits the cap of every later hit as
long as the cap is never lowered. -/
theorem hitsFit_of_rising {start : HostDir} (hstart : start .metadataJson = none)
    {rounds : List Round}
    (hcaps : rounds.Pairwise fun earlier later ↦
      ∀ limit, later.maxBytes = some limit → AtMost limit earlier.maxBytes) :
    HitsFit serde start rounds := by
  intro before round after hsplit limit key hlimit _ hvalid k i horigin
  rw [hsplit, List.pairwise_append] at hcaps
  have hearlier (earlier : Round) (hmem : earlier ∈ before) : AtMost limit earlier.maxBytes :=
    hcaps.2.2 earlier hmem round List.mem_cons_self limit hlimit
  rw [← withinCap_iff horigin.cached.1 horigin.cached.2]
  exact cachedWithin_rounds (Round.cached_of_absent hstart) hearlier key hvalid

end Rising

section Refusal

/-- The artifacts of the reader that gets to both of them, the ISO reader before the disk reader. -/
inductive LocatedIn (image : Image) (kernelOverride initrdOverride : Option String)
    (kernel initrd : Source) : Prop
  | iso (h : isoLocate image kernelOverride initrdOverride = .ok (kernel, initrd))
  | disk (hiso : ∀ pair, isoLocate image kernelOverride initrdOverride ≠ .ok pair)
      (h : DiskLocates image kernelOverride initrdOverride kernel initrd)

def Refuses (serde : Serde) (round : Round) (limit : ℕ) (dir : HostDir) : Prop :=
  (round.sync serde dir).result = .error (.artifactTooLarge limit) ∧
    ∀ file, file ≠ .metadataTxt → round.after serde dir file = none

/-- The ISO reader's word that an artifact is over the cap is lost: the disk reader has the last. -/
theorem extract_of_overlong {image : Image} {kernelOverride initrdOverride : Option String}
    (h : LocatedIn image kernelOverride initrdOverride kernel initrd)
    (hover : limit < kernel.bytes.length ∨ limit < initrd.bytes.length) :
    (extract image kernelOverride initrdOverride (some limit)).result =
      (extractFromDisk image kernelOverride initrdOverride (some limit)).result := by
  have hunfit : ¬(kernel.Fits (some limit) ∧ initrd.Fits (some limit)) := by
    rintro ⟨hkernel, hinitrd⟩
    have hkernel := hkernel.2 limit rfl
    have hinitrd := hinitrd.2 limit rfl
    omega
  rw [extract_of_disk]
  intro kernel' initrd' hlocate
  cases h with
  | disk hiso h => exact absurd hlocate (hiso _)
  | iso h =>
    rw [h] at hlocate
    cases hlocate
    exact hunfit

/-- On a cache miss with an artifact over the cap: the sync refuses it exactly if the cap is what
stops the disk reader, also where the artifact was found by the ISO reader. -/
theorem refuses_iff (serde : Serde) (round : Round) (dir : HostDir)
    (hcap : round.maxBytes = some limit)
    (hkey : round.key = .ok key)
    (hmiss : cacheValid serde dir key = false)
    (hlocated : LocatedIn (imageOf round.images key) key.kernelOverride key.initrdOverride
      kernel initrd)
    (hover : limit < kernel.bytes.length ∨ limit < initrd.bytes.length) :
    Refuses serde round limit dir ↔
      StopsAtCap (imageOf round.images key) key.kernelOverride key.initrdOverride limit := by
  have hresult : (extraction round.images round.maxBytes key).result =
      (extractFromDisk (imageOf round.images key) key.kernelOverride key.initrdOverride
        (some limit)).result := by
    rw [hcap]
    exact extract_of_overlong hlocated hover
  rw [← extractFromDisk_tooLarge_iff, ← hresult, ← Round.sync_miss_error_iff hkey hmiss]
  constructor
  · intro hrefuses
    exact hrefuses.1
  · intro herror
    exact ⟨herror, fun file hfile ↦ sync_cleans hkey herror hfile⟩

def overlongFat : Fat where
  rootDir := 0
  contents := fun _ ↦ [.ok (.file "vmlinuz" { chunks := [[1, 2], [3, 4]] }),
    .ok (.file "initrd.img" { chunks := [[5]] })]
  openFile := fun _ ↦ .error ⟨.notFound, "No such file or directory"⟩

def overlongRound : Round :=
  ⟨sampleCall "/a" none, fun _ _ _ ↦ { sampleDisk with fat := fun _ _ ↦ some overlongFat }, some 1⟩

theorem refuses_iff_overlong :
    (overlongRound.sync prettyJson fun _ ↦ none).result = .error (.artifactTooLarge 1) :=
  have hlocates : CommitsTo none [overlongFat, overlongFat, overlongFat] overlongFat
      { chunks := [[1, 2], [3, 4]] } :=
    ⟨[], [overlongFat, overlongFat], rfl, by simp, by decide +kernel⟩
  ((refuses_iff prettyJson overlongRound (fun _ ↦ none) rfl rfl (by decide +kernel)
    (.disk nofun ⟨rfl, _, overlongFat, rfl, hlocates, (by decide +kernel :
      initrdIn none overlongFat = .ok (some { chunks := [[5]] }))⟩) (.inl (by decide))).mpr
    ⟨rfl, _, overlongFat, _, rfl, hlocates, .inl (by decide)⟩).1

def hybridImage : Image :=
  { sampleDisk with iso := (sampleImages [.rootDir, .normal [97]] 0 0).iso }

def hybridRound : Round := ⟨sampleCall "/a" none, fun _ _ _ ↦ hybridImage, some 1⟩

theorem hybrid_substituted :
    hybridRound.key = .ok ⟨"/a", 1700000000, 4096, none, none⟩ ∧
      cacheValid prettyJson (fun _ ↦ none) ⟨"/a", 1700000000, 4096, none, none⟩ = false ∧
      LocatedIn hybridImage none none { chunks := [[1, 2], [3]] } { chunks := [[4]] } ∧
      1 < (Source.bytes { chunks := [[1, 2], [3]] }).length ∧
      ¬Refuses prettyJson hybridRound 1 (fun _ ↦ none) ∧
      (hybridRound.sync prettyJson fun _ ↦ none).result = .ok () ∧
      hybridRound.after prettyJson (fun _ ↦ none) .kernel = some [1] := by
  have hok : (hybridRound.sync prettyJson fun _ ↦ none).result = .ok () := by decide +kernel
  refine ⟨by decide +kernel, by decide +kernel, .iso (by decide +kernel), by decide, ?_, hok,
    by decide +kernel⟩
  intro hrefuses
  rw [Refuses, hok] at hrefuses
  cases hrefuses.1

end Refusal

end BootyCall.Extractor.SizeCap
