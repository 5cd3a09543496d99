import BootyCall.Lib.FileOps
import Mathlib.Data.Nat.Notation

namespace BootyCall.Extractor.Copy

open Lib.FileOps

inductive ErrorKind
  | notFound
  | other
  deriving DecidableEq

structure IoError where
  kind : ErrorKind
  message : String
  deriving DecidableEq

inductive ExtractorError
  | io (e : IoError)
  | iso (message : String)
  | disk (message : String)
  | imageNotFound (path : String)
  | kernelNotFound
  | initrdNotFound
  | artifactTooLarge (limit : ℕ)
  deriving DecidableEq

inductive CacheFile
  | kernel
  | initrd
  | metadataJson
  | metadataTxt
  deriving DecidableEq

abbrev HostDir := Dir CacheFile UInt8

abbrev Extraction := Script CacheFile UInt8 ExtractorError

/-- What the successive reads of a file deliver, and the error that ends them if one does. -/
structure Source where
  chunks : List (List UInt8)
  failure : Option IoError := none
  nonempty : ∀ chunk ∈ chunks, chunk ≠ [] := by decide
  deriving DecidableEq

namespace Source

def bytes (reader : Source) : List UInt8 := reader.chunks.flatten

def finish (reader : Source) : Except ExtractorError Unit :=
  match reader.failure with
  | none => .ok ()
  | some e => .error (.io e)

end Source

def copyLoop (limit : ℕ) (out : CacheFile) (ending : Except ExtractorError Unit) :
    ℕ → List (List UInt8) → Extraction Unit
  | _, [] => .ofExcept ending
  | written, chunk :: rest =>
    if limit < written + chunk.length then throw (.artifactTooLarge limit)
    else do
      .emit (chunk.map (.append out))
      copyLoop limit out ending (written + chunk.length) rest

def copyCapped (reader : Source) (out : CacheFile) (maxBytes : Option ℕ) : Extraction Unit := do
  .emit [.create out]
  match maxBytes with
  | none =>
    .emit (reader.bytes.map (.append out))
    .ofExcept reader.finish
  | some limit => copyLoop limit out reader.finish 0 reader.chunks

section Counter

/-- The loop with the 64-bit counter of the source, as a release build adds. -/
def copyLoopU64 (limit : UInt64) (out : CacheFile) (ending : Except ExtractorError Unit) :
    UInt64 → List (List UInt8) → Extraction Unit
  | _, [] => .ofExcept ending
  | written, chunk :: rest =>
    if limit < written + UInt64.ofNat chunk.length then throw (.artifactTooLarge limit.toNat)
    else do
      .emit (chunk.map (.append out))
      copyLoopU64 limit out ending (written + UInt64.ofNat chunk.length) rest

/-- The counter does not wrap before 2 ^ 64 bytes, which no file has. -/
theorem copyLoopU64_eq (limit : UInt64) (out : CacheFile) (ending : Except ExtractorError Unit)
    {written : UInt64} {chunks : List (List UInt8)}
    (h : written.toNat + chunks.flatten.length < UInt64.size) :
    copyLoopU64 limit out ending written chunks =
      copyLoop limit.toNat out ending written.toNat chunks := by
  induction chunks generalizing written with
  | nil => rfl
  | cons chunk rest ih =>
    rw [List.flatten_cons, List.length_append, ← Nat.add_assoc] at h
    have hsize := (Nat.le_add_right _ _).trans_lt h
    have hsum : (written + UInt64.ofNat chunk.length).toNat = written.toNat + chunk.length := by
      rw [UInt64.toNat_add, UInt64.toNat_ofNat_of_lt' ((Nat.le_add_left _ _).trans_lt hsize)]
      exact Nat.mod_eq_of_lt hsize
    rw [copyLoopU64, copyLoop, ih (by rwa [hsum]), hsum]
    exact if_congr (by rw [UInt64.lt_iff_toNat_lt, hsum]) rfl rfl

end Counter

variable {reader : Source} {out : CacheFile} {maxBytes : Option ℕ}

theorem copyLoop_ok {limit written : ℕ} {ending : Except ExtractorError Unit}
    {chunks : List (List UInt8)} (h : (copyLoop limit out ending written chunks).result = .ok ()) :
    (copyLoop limit out ending written chunks).ops = chunks.flatten.map (.append out) := by
  induction chunks generalizing written with
  | nil => rfl
  | cons chunk rest ih =>
    rw [copyLoop] at h ⊢
    split at h
    · cases h
    · next hfits =>
      rw [if_neg hfits]
      obtain ⟨_, -, hrest, hops⟩ := Script.bind_ok h
      rw [hops, ih hrest, List.flatten_cons, List.map_append]
      rfl

theorem copyLoop_within {limit written : ℕ} {ending : Except ExtractorError Unit}
    {chunks : List (List UInt8)} : (copyLoop limit out ending written chunks).Within [out] := by
  induction chunks generalizing written with
  | nil => exact .ofExcept _
  | cons chunk rest ih =>
    rw [copyLoop]
    split
    · exact .ofExcept _
    · exact .bind (.emit (by simp [Op.target])) fun _ ↦ ih

theorem copyCapped_ok (h : (copyCapped reader out maxBytes).result = .ok ()) :
    (copyCapped reader out maxBytes).ops = writeFile out reader.bytes := by
  obtain ⟨_, -, hcopy, hops⟩ := Script.bind_ok h
  refine hops.trans ?_
  cases maxBytes with
  | none =>
    obtain ⟨_, -, -, hcopied⟩ := Script.bind_ok hcopy
    refine (congrArg ([Op.create out] ++ ·) hcopied).trans ?_
    simp [Script.emit, Script.ofExcept, writeFile]
  | some limit => exact congrArg ([Op.create out] ++ ·) (copyLoop_ok hcopy)

theorem copyCapped_within : (copyCapped reader out maxBytes).Within [out] := by
  refine .bind (.emit (by simp [Op.target])) fun _ ↦ ?_
  cases maxBytes with
  | none => exact .bind (.emit (by simp [Op.target])) fun _ ↦ .ofExcept _
  | some limit => exact copyLoop_within

section Exactness

/-- The source can be copied whole: no read fails, and it is no longer than the cap. -/
def Source.Fits (reader : Source) (maxBytes : Option ℕ) : Prop :=
  reader.failure = none ∧ ∀ c, maxBytes = some c → reader.bytes.length ≤ c

theorem copyLoop_result {limit written : ℕ} (h : written ≤ limit) (out : CacheFile)
    (ending : Except ExtractorError Unit) (chunks : List (List UInt8)) :
    (copyLoop limit out ending written chunks).result =
      if limit < written + chunks.flatten.length then .error (.artifactTooLarge limit)
      else ending := by
  induction chunks generalizing written with
  | nil =>
    rw [if_neg (by simpa using h)]
    rfl
  | cons chunk rest ih =>
    rw [copyLoop, List.flatten_cons, List.length_append, ← Nat.add_assoc]
    split
    · next hover =>
      rw [if_pos (by omega)]
      rfl
    · next hfits => exact ih (Nat.not_lt.mp hfits)

theorem copyLoop_ops {limit written : ℕ} (h : written ≤ limit) (out : CacheFile)
    (ending : Except ExtractorError Unit) (chunks : List (List UInt8)) :
    ∃ kept, kept <+: chunks.flatten ∧ written + kept.length ≤ limit ∧
      (copyLoop limit out ending written chunks).ops = kept.map (.append out) := by
  induction chunks generalizing written with
  | nil => exact ⟨[], List.nil_prefix, h, rfl⟩
  | cons chunk rest ih =>
    rw [copyLoop]
    split
    · exact ⟨[], List.nil_prefix, h, rfl⟩
    · next hfits =>
      obtain ⟨kept, hkept, hlen, hops⟩ := ih (Nat.not_lt.mp hfits)
      refine ⟨chunk ++ kept, (List.prefix_append_right_inj chunk).mpr hkept, ?_, ?_⟩
      · rw [List.length_append]
        omega
      · rw [List.map_append, ← hops]
        rfl

theorem copyCapped_result (reader : Source) (out : CacheFile) (maxBytes : Option ℕ) :
    (copyCapped reader out maxBytes).result =
      match maxBytes with
      | none => reader.finish
      | some limit =>
        if limit < reader.bytes.length then .error (.artifactTooLarge limit)
        else reader.finish := by
  cases maxBytes with
  | none => rfl
  | some limit =>
    have hloop := copyLoop_result (Nat.zero_le limit) out reader.finish reader.chunks
    rw [Nat.zero_add] at hloop
    exact hloop

theorem copyCapped_ops (reader : Source) (out : CacheFile) (maxBytes : Option ℕ) :
    ∃ kept, kept <+: reader.bytes ∧ (∀ c, maxBytes = some c → kept.length ≤ c) ∧
      (copyCapped reader out maxBytes).ops = writeFile out kept := by
  cases maxBytes with
  | none =>
    refine ⟨reader.bytes, List.prefix_rfl, by simp, ?_⟩
    exact congrArg (Op.create out :: ·) (List.append_nil _)
  | some limit =>
    obtain ⟨kept, hkept, hlen, hops⟩ :=
      copyLoop_ops (Nat.zero_le limit) out reader.finish reader.chunks
    refine ⟨kept, hkept, ?_, congrArg (Op.create out :: ·) hops⟩
    intro c hc
    cases hc
    omega

theorem finish_eq_ok : reader.finish = .ok () ↔ reader.failure = none := by
  rw [Source.finish]
  cases reader.failure <;> simp

theorem copyCapped_ok_iff :
    (copyCapped reader out maxBytes).result = .ok () ↔ reader.Fits maxBytes := by
  rw [copyCapped_result, Source.Fits]
  cases maxBytes with
  | none => simp [finish_eq_ok]
  | some limit =>
    dsimp only
    split
    · next hover => simp [Nat.not_le.mpr hover]
    · next hfits => simp [finish_eq_ok, Nat.not_lt.mp hfits]

theorem copyCapped_tooLarge_iff {limit : ℕ} :
    (copyCapped reader out maxBytes).result = .error (.artifactTooLarge limit) ↔
      maxBytes = some limit ∧ limit < reader.bytes.length := by
  have hfinish : reader.finish ≠ .error (.artifactTooLarge limit) := by
    rw [Source.finish]
    cases reader.failure <;> simp
  rw [copyCapped_result]
  cases maxBytes with
  | none => simp [hfinish]
  | some c =>
    dsimp only
    split
    · next hover =>
      rw [Except.error.injEq, ExtractorError.artifactTooLarge.injEq, Option.some.injEq]
      exact ⟨fun heq ↦ ⟨heq, heq ▸ hover⟩, And.left⟩
    · next hfits =>
      refine ⟨fun heq ↦ absurd heq hfinish, ?_⟩
      rintro ⟨heq, hover⟩
      cases heq
      exact absurd hover hfits

theorem copyCapped_ne_error {e : ExtractorError} (hio : ∀ cause, e ≠ .io cause)
    (hcap : ∀ limit, e ≠ .artifactTooLarge limit) :
    (copyCapped reader out maxBytes).result ≠ .error e := by
  have hfinish : reader.finish ≠ .error e := by
    rw [Source.finish]
    split
    · nofun
    · next cause _ =>
      intro h
      exact hio cause (Except.error.inj h).symm
  rw [copyCapped_result]
  split
  · exact hfinish
  · next limit =>
    split
    · intro h
      exact hcap limit (Except.error.inj h).symm
    · exact hfinish

/-- For every way a source delivers its bytes: the copy succeeds exactly for a source that ends
without an error and within the cap, it is cut off exactly when more than the cap was delivered,
and at every moment the output is a beginning of the source within the cap. -/
theorem copyCapped_exact (reader : Source) (out : CacheFile) (maxBytes : Option ℕ) :
    ((copyCapped reader out maxBytes).result = .ok () ↔ reader.Fits maxBytes) ∧
    ((copyCapped reader out maxBytes).result = .ok () →
      Leaves out reader.bytes (copyCapped reader out maxBytes).ops) ∧
    (∀ limit, (copyCapped reader out maxBytes).result = .error (.artifactTooLarge limit) ↔
      maxBytes = some limit ∧ limit < reader.bytes.length) ∧
    ∀ dir ops, ops <+: (copyCapped reader out maxBytes).ops → ops ≠ [] →
      ∃ content, run dir ops out = some content ∧ content <+: reader.bytes ∧
        ∀ c, maxBytes = some c → content.length ≤ c := by
  refine ⟨copyCapped_ok_iff, ?_, fun limit ↦ copyCapped_tooLarge_iff, ?_⟩
  · intro hok
    rw [copyCapped_ok hok]
    exact leaves_writeFile _ _
  · intro dir ops hcut hne
    obtain ⟨kept, hkept, hcap, hops⟩ := copyCapped_ops reader out maxBytes
    rw [hops] at hcut
    rcases cut_writeFile hcut with rfl | ⟨content, hcontent, rfl⟩
    · exact absurd rfl hne
    · refine ⟨content, run_writeFile content, hcontent.trans hkept, ?_⟩
      intro c hc
      exact hcontent.length_le.trans (hcap c hc)

end Exactness

end BootyCall.Extractor.Copy
