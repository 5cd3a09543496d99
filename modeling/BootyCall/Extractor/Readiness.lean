import BootyCall.Extractor.Rounds
import BootyCall.Lib.Runs

namespace BootyCall.Extractor.Readiness

open BootyCall.Core Lib.FileOps Lib.Runs Copy Readers Located Metadata Cache Coherence Rounds

def nonempty (dir : HostDir) (file : CacheFile) : Bool :=
  (dir file).any fun content ↦ decide (0 < content.length)

def hostCacheReady (dir : HostDir) : Bool := nonempty dir .kernel && nonempty dir .initrd

/-- A sync that succeeds leaves a cache that the health probe takes for ready. -/
def ReadyWhenOk (serde : Serde) (round : Round) (dir : HostDir) : Prop :=
  (round.sync serde dir).result = .ok () → hostCacheReady (round.after serde dir) = true

def ExtractsContent (serde : Serde) (round : Round) (dir : HostDir) : Prop :=
  ∀ key kernel initrd, round.key = .ok key → cacheValid serde dir key = false →
    round.Extracts key kernel initrd → kernel.bytes ≠ [] ∧ initrd.bytes ≠ []

variable {serde : Serde} {start dir : HostDir} {rounds : List Round} {round : Round}
  {key : CacheMetadata} {kernel initrd : Source}

theorem hostCacheReady_congr {dir dir' : HostDir} (hkernel : dir' .kernel = dir .kernel)
    (hinitrd : dir' .initrd = dir .initrd) (h : hostCacheReady dir = true) :
    hostCacheReady dir' = true := by
  rw [hostCacheReady, nonempty, nonempty, hkernel, hinitrd]
  exact h

theorem hostCacheReady_iff {k i : List UInt8} (hkernel : dir .kernel = some k)
    (hinitrd : dir .initrd = some i) : hostCacheReady dir = true ↔ k ≠ [] ∧ i ≠ [] := by
  rw [hostCacheReady, nonempty, nonempty, hkernel, hinitrd]
  simp [List.length_pos_iff]

theorem ready_of_extracts (hkey : round.key = .ok key) (hmiss : cacheValid serde dir key = false)
    (h : round.Extracts key kernel initrd) :
    hostCacheReady (round.after serde dir) = true ↔ kernel.bytes ≠ [] ∧ initrd.bytes ≠ [] := by
  obtain ⟨-, hkernel, hinitrd⟩ := Round.sync_extracts hkey hmiss h
  exact hostCacheReady_iff hkernel hinitrd

theorem extractsContent_of_ready (h : ReadyWhenOk serde round dir) :
    ExtractsContent serde round dir := by
  intro key kernel initrd hkey hmiss hextracts
  rw [← ready_of_extracts hkey hmiss hextracts]
  exact h (Round.sync_extracts hkey hmiss hextracts).1

/-- What is cached is ready as long as nothing empty is extracted, so that a hit is as good as an
extraction. -/
theorem readyWhenOk_of_cached (hcached : Round.Cached serde (hostCacheReady · = true) dir)
    (h : ExtractsContent serde round dir) : ReadyWhenOk serde round dir := by
  intro hok
  obtain ⟨key, hkey, hvalid | ⟨hmiss, kernel, initrd, hextracts⟩⟩ := Round.sync_ok hok
  · obtain ⟨hkernel, hinitrd⟩ := Round.after_hit hkey hvalid
    exact hostCacheReady_congr hkernel hinitrd (hcached key hvalid)
  · exact (ready_of_extracts hkey hmiss hextracts).mpr (h key kernel initrd hkey hmiss hextracts)

theorem Cached.ready (hcached : Round.Cached serde (hostCacheReady · = true) dir)
    (h : ExtractsContent serde round dir) :
    Round.Cached serde (hostCacheReady · = true) (round.after serde dir) := by
  refine hcached.after hostCacheReady_congr ?_
  intro key kernel initrd hkey hmiss hextracts
  exact (ready_of_extracts hkey hmiss hextracts).mpr (h key kernel initrd hkey hmiss hextracts)

/-- Over every sequence of syncs, each with any configuration and images, from a directory without
metadata: the health probe agrees with every sync that succeeds exactly if no empty file is ever
extracted. -/
theorem ready_iff (serde : Serde) (start : HostDir) (hstart : start .metadataJson = none)
    (rounds : List Round) :
    Throughout (Round.after serde) start rounds (ReadyWhenOk serde) ↔
      Throughout (Round.after serde) start rounds (ExtractsContent serde) := by
  constructor
  · intro h
    exact h.mono fun _ _ ↦ extractsContent_of_ready
  · intro h
    have hcached := h.invariant (Round.Cached serde (hostCacheReady · = true))
      (Round.cached_of_absent hstart) fun _ _ ↦ Cached.ready
    exact (hcached.and h).mono fun _ _ hboth ↦ readyWhenOk_of_cached hboth.1 hboth.2

section Sample

def sampleRound : Round :=
  ⟨sampleCall "/a" none, fun _ ↦ sampleImages [.rootDir, .normal [97]], none⟩

theorem sample_extractsContent (serde : Serde) (dir : HostDir) :
    ExtractsContent serde sampleRound dir := by
  intro key kernel initrd hkey _ hextracts
  cases hkey
  have hlocate : isoLocate (sampleImages [.rootDir, .normal [97]] 0 0) none none =
      .ok ({ chunks := [[1, 2], [3]] }, { chunks := [[4]] }) := by decide +kernel
  cases hextracts with
  | iso h hkernel hinitrd =>
    cases hlocate.symm.trans h
    exact ⟨by decide, by decide⟩
  | disk hiso h hkernel hinitrd => exact absurd ⟨⟨rfl, nofun⟩, ⟨rfl, nofun⟩⟩ (hiso _ _ hlocate)

theorem ready_iff_sample :
    Throughout (Round.after prettyJson) (fun _ ↦ none) [sampleRound, sampleRound]
      (ReadyWhenOk prettyJson) := by
  apply (ready_iff prettyJson (fun _ ↦ none) rfl _).mpr
  apply throughout_of_forall
  intro round hround dir
  rcases List.mem_pair.mp hround with rfl | rfl
  · exact sample_extractsContent prettyJson dir
  · exact sample_extractsContent prettyJson dir

def emptyKernel : Round := ⟨sampleCall "/a" none, fun _ _ _ ↦ sampleImage [] [[6]], none⟩

theorem emptyKernel_unready :
    ¬Throughout (Round.after prettyJson) (fun _ ↦ none) [emptyKernel] (ReadyWhenOk prettyJson) := by
  intro h
  have hready := h [] emptyKernel [] rfl (by decide +kernel)
  exact absurd hready (by decide +kernel)

end Sample

end BootyCall.Extractor.Readiness
