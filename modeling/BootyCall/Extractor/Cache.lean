import BootyCall.Extractor.Metadata
import BootyCall.Extractor.Readers

namespace BootyCall.Extractor.Cache

open BootyCall.Core Path Lib.FileOps Copy Readers Metadata

/-- What `fs::metadata` says about the image; the time is in nanoseconds from the Unix epoch. -/
inductive Stat
  | error (e : IoError)
  | found (modified : Except IoError ℤ) (len : ℕ)

def currentKey (host : HostConfig) : Stat → Except ExtractorError CacheMetadata
  | .error e =>
    if e.kind = .notFound then .error (.imageNotFound host.imagePath) else .error (.io e)
  | .found modified len =>
    match modified with
    | .error e => .error (.io e)
    | .ok nanos =>
      if nanos < 0 then .error (.io ⟨.other, "second time provided was later than self"⟩)
      else .ok ⟨host.imagePath, nanos.toNat / 1000000000, len, host.kernelPath, host.initrdPath⟩

abbrev Images := List Component → ℕ → ℕ → Image

def imageOf (images : Images) (key : CacheMetadata) : Image :=
  images (PathBuf.ofString key.imagePath).components key.mtimeSecs key.size

def extraction (images : Images) (maxBytes : Option ℕ) (key : CacheMetadata) : Extraction Unit :=
  extract (imageOf images key) key.kernelOverride key.initrdOverride maxBytes

def keyMatches (stored key : CacheMetadata) : Prop :=
  samePath stored.imagePath key.imagePath ∧ stored.mtimeSecs = key.mtimeSecs ∧
    stored.size = key.size ∧ stored.kernelOverride = key.kernelOverride ∧
    stored.initrdOverride = key.initrdOverride

instance (stored key : CacheMetadata) : Decidable (keyMatches stored key) :=
  inferInstanceAs (Decidable (_ ∧ _))

def readMetadata (serde : Serde) (dir : HostDir) : Option CacheMetadata :=
  (dir .metadataJson).bind serde.fromStr

def cacheValid (serde : Serde) (dir : HostDir) (key : CacheMetadata) : Bool :=
  (dir .metadataJson).isSome && (dir .kernel).isSome && (dir .initrd).isSome &&
    (readMetadata serde dir).any fun stored ↦ decide (keyMatches stored key)

def dropLegacy (dir : HostDir) : List (Op CacheFile UInt8) :=
  if (dir .metadataTxt).isSome then [.remove .metadataTxt] else []

def cleanup : List (Op CacheFile UInt8) :=
  [.remove .kernel, .remove .initrd, .remove .metadataJson]

def refresh (serde : Serde) (images : Images) (maxBytes : Option ℕ) (key : CacheMetadata) :
    Extraction Unit := do
  tryCatch (extraction images maxBytes key) fun e ↦ do
    .emit cleanup
    throw e
  .emit (writeFile .metadataJson (serde.toStringPretty key))

/-- A sync decides by the host's directory as it finds it and then works on its files. -/
def syncHostCache (serde : Serde) (images : Images) (maxBytes : Option ℕ) (host : HostConfig)
    (stat : Stat) (dir : HostDir) : Extraction Unit := do
  let key ← .ofExcept (currentKey host stat)
  .emit (dropLegacy dir)
  if cacheValid serde dir key then return ()
  else refresh serde images maxBytes key

variable {serde : Serde} {images : Images} {maxBytes : Option ℕ} {host : HostConfig}
  {stat : Stat} {dir : HostDir} {key stored : CacheMetadata}

theorem imageOf_congr (h : keyMatches stored key) : imageOf images stored = imageOf images key := by
  obtain ⟨hpath, hmtime, hsize, -⟩ := h
  rw [imageOf, imageOf, show _ = _ from hpath, hmtime, hsize]

theorem extraction_congr (h : keyMatches stored key) :
    extraction images maxBytes stored = extraction images maxBytes key := by
  rw [extraction, extraction, imageOf_congr h, h.2.2.2.1, h.2.2.2.2]

theorem cacheValid_eq_true (h : cacheValid serde dir key = true) :
    ∃ kernel initrd stored, dir .kernel = some kernel ∧ dir .initrd = some initrd ∧
      readMetadata serde dir = some stored ∧ keyMatches stored key := by
  simp only [cacheValid, Bool.and_eq_true, Option.isSome_iff_exists] at h
  obtain ⟨⟨⟨-, kernel, hkernel⟩, initrd, hinitrd⟩, hkey⟩ := h
  obtain ⟨stored, hstored, hmatch⟩ := (Option.any_eq_true _ _).mp hkey
  exact ⟨kernel, initrd, stored, hkernel, hinitrd, hstored, of_decide_eq_true hmatch⟩

theorem extraction_within : (extraction images maxBytes key).Within [.kernel, .initrd] :=
  extract_within

theorem dropLegacy_touches {file : CacheFile} (h : file ≠ .metadataTxt) :
    touches file (dropLegacy dir) = false := by
  rw [dropLegacy]
  split
  · simp [touches, Op.target, h.symm]
  · rfl

theorem sync_stat_error {e : ExtractorError} (h : currentKey host stat = .error e) :
    syncHostCache serde images maxBytes host stat dir = ⟨[], .error e⟩ := by
  rw [syncHostCache, h, Script.ofExcept_error_bind]

theorem sync_hit (h : currentKey host stat = .ok key) (hvalid : cacheValid serde dir key = true) :
    syncHostCache serde images maxBytes host stat dir = ⟨dropLegacy dir, .ok ()⟩ := by
  rw [syncHostCache, h, Script.ofExcept_ok_bind, Script.emit_bind, if_pos hvalid]
  exact congrArg (Script.mk · (.ok ())) (List.append_nil _)

theorem sync_miss (h : currentKey host stat = .ok key)
    (hvalid : cacheValid serde dir key = false) :
    syncHostCache serde images maxBytes host stat dir =
      ⟨dropLegacy dir ++ (refresh serde images maxBytes key).ops,
        (refresh serde images maxBytes key).result⟩ := by
  rw [syncHostCache, h, Script.ofExcept_ok_bind, Script.emit_bind, hvalid,
    if_neg Bool.false_ne_true]

theorem refresh_ok (h : (extraction images maxBytes key).result = .ok ()) :
    refresh serde images maxBytes key =
      ⟨(extraction images maxBytes key).ops ++
        writeFile .metadataJson (serde.toStringPretty key), .ok ()⟩ := by
  rw [refresh, Script.tryCatch_of_ok h, Script.bind_of_ok h]
  rfl

theorem refresh_error {e : ExtractorError}
    (h : (extraction images maxBytes key).result = .error e) :
    refresh serde images maxBytes key =
      ⟨(extraction images maxBytes key).ops ++ cleanup, .error e⟩ := by
  rw [refresh, Script.tryCatch_of_error h]
  exact congrArg (fun ops ↦ Script.mk ((extraction images maxBytes key).ops ++ ops) _)
    (List.append_nil _)

/-- The four ways a sync goes, with all that it does to the files. -/
inductive SyncOutcome (serde : Serde) (images : Images) (maxBytes : Option ℕ) (host : HostConfig)
    (stat : Stat) (dir : HostDir) : Extraction Unit → Prop
  | unknown (e : ExtractorError) (hkey : currentKey host stat = .error e) :
      SyncOutcome serde images maxBytes host stat dir ⟨[], .error e⟩
  | hit (key : CacheMetadata) (hkey : currentKey host stat = .ok key)
      (hvalid : cacheValid serde dir key = true) :
      SyncOutcome serde images maxBytes host stat dir ⟨dropLegacy dir, .ok ()⟩
  | extracted (key : CacheMetadata) (hkey : currentKey host stat = .ok key)
      (hvalid : cacheValid serde dir key = false)
      (hok : (extraction images maxBytes key).result = .ok ()) :
      SyncOutcome serde images maxBytes host stat dir
        ⟨dropLegacy dir ++ ((extraction images maxBytes key).ops ++
          writeFile .metadataJson (serde.toStringPretty key)), .ok ()⟩
  | failed (key : CacheMetadata) (hkey : currentKey host stat = .ok key)
      (hvalid : cacheValid serde dir key = false) (e : ExtractorError)
      (herr : (extraction images maxBytes key).result = .error e) :
      SyncOutcome serde images maxBytes host stat dir
        ⟨dropLegacy dir ++ ((extraction images maxBytes key).ops ++ cleanup), .error e⟩

theorem sync_outcome (serde : Serde) (images : Images) (maxBytes : Option ℕ) (host : HostConfig)
    (stat : Stat) (dir : HostDir) : SyncOutcome serde images maxBytes host stat dir
      (syncHostCache serde images maxBytes host stat dir) := by
  cases hkey : currentKey host stat with
  | error e =>
    rw [sync_stat_error hkey]
    exact .unknown e hkey
  | ok key =>
    cases hvalid : cacheValid serde dir key with
    | true =>
      rw [sync_hit hkey hvalid]
      exact .hit key hkey hvalid
    | false =>
      rw [sync_miss hkey hvalid]
      cases hresult : (extraction images maxBytes key).result with
      | error e =>
        rw [refresh_error hresult]
        exact .failed key hkey hvalid e hresult
      | ok u =>
        rw [refresh_ok hresult]
        exact .extracted key hkey hvalid hresult

end BootyCall.Extractor.Cache
