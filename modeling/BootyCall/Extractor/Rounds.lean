import BootyCall.Extractor.Coherence
import BootyCall.Extractor.Located

namespace BootyCall.Extractor.Rounds

open BootyCall.Core Lib.FileOps Copy Readers Located Metadata Cache Coherence

/-- A sync with the configuration and the images of its time; all of them may have been changed
since the one before. -/
structure Round where
  call : Call
  images : Images
  maxBytes : Option ℕ

namespace Round

def sync (serde : Serde) (round : Round) (dir : HostDir) : Extraction Unit :=
  round.call.sync serde round.images round.maxBytes dir

def after (serde : Serde) (dir : HostDir) (round : Round) : HostDir :=
  run dir (round.sync serde dir).ops

def key (round : Round) : Except ExtractorError CacheMetadata :=
  currentKey round.call.host round.call.stat

def Extracts (round : Round) (key : CacheMetadata) (kernel initrd : Source) : Prop :=
  Located.Extracts (imageOf round.images key) key.kernelOverride key.initrdOverride round.maxBytes
    kernel initrd

variable {serde : Serde} {round : Round} {dir : HostDir} {key : CacheMetadata}
  {kernel initrd : Source}

theorem outcome (serde : Serde) (round : Round) (dir : HostDir) :
    SyncOutcome serde round.images round.maxBytes round.call.host round.call.stat dir
      (round.sync serde dir) := round.call.outcome serde round.images round.maxBytes dir

theorem after_unknown {e : ExtractorError} (hkey : round.key = .error e) :
    round.after serde dir = dir := by
  rw [after, sync, Call.sync, sync_stat_error hkey]
  rfl

theorem sync_hit (hkey : round.key = .ok key) (hvalid : cacheValid serde dir key = true) :
    round.sync serde dir = ⟨dropLegacy dir, .ok ()⟩ := Cache.sync_hit hkey hvalid

theorem after_hit (hkey : round.key = .ok key) (hvalid : cacheValid serde dir key = true) :
    round.after serde dir .kernel = dir .kernel ∧ round.after serde dir .initrd = dir .initrd := by
  rw [after, sync_hit hkey hvalid]
  exact ⟨run_of_untouched (dropLegacy_touches (by simp)),
    run_of_untouched (dropLegacy_touches (by simp))⟩

theorem sync_miss_error_iff {e : ExtractorError} (hkey : round.key = .ok key)
    (hmiss : cacheValid serde dir key = false) :
    (round.sync serde dir).result = .error e ↔
      (extraction round.images round.maxBytes key).result = .error e := by
  rw [sync, Call.sync, sync_miss hkey hmiss]
  cases hresult : (extraction round.images round.maxBytes key).result with
  | error e' => rw [refresh_error hresult]
  | ok u => simp [refresh_ok hresult]

theorem sync_extracts (hkey : round.key = .ok key) (hmiss : cacheValid serde dir key = false)
    (h : round.Extracts key kernel initrd) :
    (round.sync serde dir).result = .ok () ∧
      round.after serde dir .kernel = some kernel.bytes ∧
      round.after serde dir .initrd = some initrd.bytes := by
  have hresult : (extraction round.images round.maxBytes key).result = .ok () :=
    extract_ok_iff.mpr ⟨kernel, initrd, h⟩
  obtain ⟨hkernel, hinitrd⟩ := h.leaves
  rw [after, sync, Call.sync, sync_miss hkey hmiss, refresh_ok hresult]
  exact ⟨rfl, ((hkernel.append_right (touches_writeFile _)).append_left _) dir,
    ((hinitrd.append_right (touches_writeFile _)).append_left _) dir⟩

/-- A sync succeeds in one of two ways: by what it finds cached, or by an extraction. -/
theorem sync_ok (h : (round.sync serde dir).result = .ok ()) :
    ∃ key, round.key = .ok key ∧ (cacheValid serde dir key = true ∨
      cacheValid serde dir key = false ∧ ∃ kernel initrd, round.Extracts key kernel initrd) := by
  have houtcome := round.outcome serde dir
  generalize round.sync serde dir = x at h houtcome
  cases houtcome with
  | unknown e hkey => cases h
  | failed key hkey hvalid e herr => cases h
  | hit key hkey hvalid => exact ⟨key, hkey, .inl hvalid⟩
  | extracted key hkey hvalid hresult =>
    exact ⟨key, hkey, .inr ⟨hvalid, extract_ok_iff.mp hresult⟩⟩

theorem sync_error {e : ExtractorError} (h : (round.sync serde dir).result = .error e) :
    round.after serde dir = dir ∨ round.after serde dir .metadataJson = none := by
  rw [after]
  have houtcome := round.outcome serde dir
  generalize round.sync serde dir = x at h houtcome ⊢
  cases houtcome with
  | unknown e hkey => exact .inl rfl
  | hit key hkey hvalid => cases h
  | extracted key hkey hvalid hresult => cases h
  | failed key hkey hvalid e herr =>
    right
    rw [run_append, run_append, run_of_unwritten rfl]
    exact if_pos rfl

/-- What may be taken for a valid cache of some image satisfies `G`. -/
def Cached (serde : Serde) (G : HostDir → Prop) (dir : HostDir) : Prop :=
  ∀ key, cacheValid serde dir key = true → G dir

theorem cached_of_absent {G : HostDir → Prop} (h : dir .metadataJson = none) :
    Cached serde G dir := by
  intro key hvalid
  rw [cacheValid, h] at hvalid
  cases hvalid

theorem Cached.after {G : HostDir → Prop} (h : Cached serde G dir)
    (hcongr : ∀ {dir dir' : HostDir}, dir' .kernel = dir .kernel → dir' .initrd = dir .initrd →
      G dir → G dir')
    (hextracts : ∀ key kernel initrd, round.key = .ok key → cacheValid serde dir key = false →
      round.Extracts key kernel initrd → G (round.after serde dir)) :
    Cached serde G (round.after serde dir) := by
  cases hresult : (round.sync serde dir).result with
  | error e =>
    rcases sync_error hresult with hsame | habsent
    · rw [hsame]
      exact h
    · exact cached_of_absent habsent
  | ok u =>
    intro key' hvalid'
    obtain ⟨key, hkey, hvalid | ⟨hmiss, kernel, initrd, hwritten⟩⟩ := sync_ok hresult
    · obtain ⟨hkernel, hinitrd⟩ := after_hit hkey hvalid
      exact hcongr hkernel hinitrd (h key hvalid)
    · exact hextracts key kernel initrd hkey hmiss hwritten

end Round

end BootyCall.Extractor.Rounds
