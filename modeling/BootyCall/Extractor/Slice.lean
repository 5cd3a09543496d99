import BootyCall.Lib.ByteStore

namespace BootyCall.Extractor.Slice

open Lib.ByteStore Store

variable {ε σ α : Type}

/-- What an overflow of `+` or `-` does: it panics in a debug build and wraps in a release build. -/
inductive Overflow
  | panics
  | wraps
  deriving DecidableEq

def addU64 (mode : Overflow) (a b : UInt64) : Option UInt64 :=
  if 2 ^ 64 ≤ a.toNat + b.toNat ∧ mode = .panics then none else some (a + b)

def subU64 (mode : Overflow) (a b : UInt64) : Option UInt64 :=
  if a.toNat < b.toNat ∧ mode = .panics then none else some (a - b)

inductive IoFailure (ε : Type)
  | invalidInput (message : String)
  | writeZero (message : String)
  | store (e : ε)
  deriving DecidableEq

structure PartitionSlice (σ : Type) where
  file : σ
  start : UInt64
  len : UInt64
  pos : UInt64

def PartitionSlice.new (file : σ) (start len : UInt64) : PartitionSlice σ :=
  { file, start, len, pos := 0 }

def transfer [Store ε σ] (mode : Overflow) (s : PartitionSlice σ) (offset : UInt64) (most : ℕ)
    (io : σ → ℕ → Except ε α × σ) (moved : α → ℕ) :
    Option (Except (IoFailure ε) α × PartitionSlice σ) :=
  match seekStart s.file offset with
  | (.error e, file) => some (.error (.store e), { s with file })
  | (.ok _, file) =>
    match io file most with
    | (.error e, file) => some (.error (.store e), { s with file })
    | (.ok a, file) =>
      (addU64 mode s.pos (UInt64.ofNat (moved a))).map fun pos ↦ (.ok a, { s with file, pos })

/-- A read or a write: `io` works on at most that many bytes of the store, at the offset that the
position stands for. No result means a panic. -/
def access [Store ε σ] (mode : Overflow) (s : PartitionSlice σ) (past : Except (IoFailure ε) α)
    (count : ℕ) (io : σ → ℕ → Except ε α × σ) (moved : α → ℕ) :
    Option (Except (IoFailure ε) α × PartitionSlice σ) :=
  if s.len ≤ s.pos then some (past, s)
  else do
    let most ← subU64 mode s.len s.pos
    let offset ← addU64 mode s.start s.pos
    transfer mode s offset (min count most.toNat) io moved

def read [Store ε σ] (mode : Overflow) (s : PartitionSlice σ) (n : ℕ) :
    Option (Except (IoFailure ε) (List UInt8) × PartitionSlice σ) :=
  access mode s (.ok []) n (fun file k ↦ Store.read file k) List.length

def write [Store ε σ] (mode : Overflow) (s : PartitionSlice σ) (data : List UInt8) :
    Option (Except (IoFailure ε) ℕ × PartitionSlice σ) :=
  access mode s (.error (.writeZero "Write exceeds partition boundary")) data.length
    (fun file k ↦ Store.write file (data.take k)) id

def i64TryFrom (n : UInt64) (message : String) : Except (IoFailure ε) ℤ :=
  if n.toNat < 2 ^ 63 then .ok n.toNat else .error (.invalidInput message)

def checkedAdd (a b : ℤ) (message : String) : Except (IoFailure ε) ℤ :=
  if -2 ^ 63 ≤ a + b ∧ a + b < 2 ^ 63 then .ok (a + b) else .error (.invalidInput message)

def newPos (s : PartitionSlice σ) : SeekFrom → Except (IoFailure ε) ℤ
  | .start offset => i64TryFrom offset "Seek offset too large"
  | .fromEnd offset => do
    let base ← i64TryFrom s.len "Partition length too large"
    checkedAdd base offset.toInt "Seek overflowed partition end"
  | .current offset => do
    let base ← i64TryFrom s.pos "Partition position too large"
    checkedAdd base offset.toInt "Seek overflowed current position"

def seek (s : PartitionSlice σ) (whence : SeekFrom) :
    Except (IoFailure ε) UInt64 × PartitionSlice σ :=
  match newPos s whence with
  | .error e => (.error e, s)
  | .ok target =>
    if target < 0 then (.error (.invalidInput "Invalid seek before start of partition"), s)
    else (.ok (UInt64.ofNat target.toNat), { s with pos := UInt64.ofNat target.toNat })

def report (f : α → Outcome (IoFailure ε)) : Except (IoFailure ε) α → Outcome (IoFailure ε)
  | .ok a => f a
  | .error e => .failed e

def call [Store ε σ] (mode : Overflow) (s : PartitionSlice σ) :
    Call → Option (Outcome (IoFailure ε) × PartitionSlice σ)
  | .read n => (read mode s n).map fun r ↦ (report .bytes r.1, r.2)
  | .write data => (write mode s data).map fun r ↦ (report .count r.1, r.2)
  | .seek whence =>
    let r : Except (IoFailure ε) UInt64 × PartitionSlice σ := seek s whence
    some (report (fun p ↦ .position p.toNat) r.1, r.2)

def run [Store ε σ] (mode : Overflow) (s : PartitionSlice σ) :
    List Call → Option (List (Outcome (IoFailure ε)) × PartitionSlice σ)
  | [] => some ([], s)
  | c :: rest =>
    (call mode s c).bind fun r ↦ (run mode r.2 rest).map fun q ↦ (r.1 :: q.1, q.2)

section Seek

variable {s : PartitionSlice σ} {whence : SeekFrom}

theorem base_add_checked {n : UInt64} {offset : Int64} {message message' : String} :
    ((do
      let base ← i64TryFrom n message
      checkedAdd base offset.toInt message') : Except (IoFailure ε) ℤ) =
      if n.toNat < 2 ^ 63 then checkedAdd n.toNat offset.toInt message'
      else .error (.invalidInput message) := by
  rw [i64TryFrom]
  split <;> rfl

theorem newPos_cases (s : PartitionSlice σ) (whence : SeekFrom) :
    ((newPos s whence : Except (IoFailure ε) ℤ) = .ok (whence.target s.len.toNat s.pos.toNat) ∧
      whence.base s.len.toNat s.pos.toNat < 2 ^ 63 ∧
      whence.target s.len.toNat s.pos.toNat < 2 ^ 63) ∨
    ((∃ message, (newPos s whence : Except (IoFailure ε) ℤ) = .error (.invalidInput message)) ∧
      ¬whence.Valid s.len.toNat s.pos.toNat) := by
  cases whence with
  | start offset =>
    simp only [newPos, i64TryFrom, SeekFrom.Valid, SeekFrom.target, SeekFrom.base, SeekFrom.offset,
      zero_add]
    split
    · exact .inl ⟨rfl, by omega, by omega⟩
    · exact .inr ⟨⟨_, rfl⟩, by omega⟩
  | fromEnd offset | current offset =>
    rw [newPos, base_add_checked]
    simp only [checkedAdd, SeekFrom.Valid, SeekFrom.target, SeekFrom.base, SeekFrom.offset]
    split
    · split
      · exact .inl ⟨rfl, by omega, by omega⟩
      · exact .inr ⟨⟨_, rfl⟩, by omega⟩
    · exact .inr ⟨⟨_, rfl⟩, by omega⟩

theorem seek_of_valid (h : whence.Valid s.len.toNat s.pos.toNat) :
    ∃ p : UInt64, (p.toNat : ℤ) = whence.target s.len.toNat s.pos.toNat ∧
      (seek s whence : Except (IoFailure ε) UInt64 × _) = (.ok p, { s with pos := p }) := by
  rcases newPos_cases (ε := ε) s whence with ⟨hnew, -, hhi⟩ | ⟨-, hinvalid⟩
  · have hlo := h.2.1
    refine ⟨UInt64.ofNat (whence.target s.len.toNat s.pos.toNat).toNat, ?_, ?_⟩
    · rw [UInt64.toNat_ofNat_of_lt' (by simp only [UInt64.size]; omega)]
      omega
    · rw [seek, hnew]
      exact if_neg (by omega)
  · exact absurd h hinvalid

theorem seek_of_invalid (h : ¬whence.Valid s.len.toNat s.pos.toNat) :
    ∃ message, (seek s whence : Except (IoFailure ε) UInt64 × _) =
      (.error (.invalidInput message), s) := by
  rcases newPos_cases (ε := ε) s whence with ⟨hnew, hbase, hhi⟩ | ⟨⟨message, hnew⟩, -⟩
  · have hneg : whence.target s.len.toNat s.pos.toNat < 0 := by
      by_contra hlo
      exact h ⟨hbase, Int.not_lt.mp hlo, hhi⟩
    refine ⟨"Invalid seek before start of partition", ?_⟩
    rw [seek, hnew]
    exact if_pos hneg
  · exact ⟨message, by rw [seek, hnew]⟩

end Seek

section Access

variable [Store ε σ] (mode : Overflow) {s : PartitionSlice σ}

theorem addU64_of_lt {a b : UInt64} (h : a.toNat + b.toNat < 2 ^ 64) :
    ∃ c, addU64 mode a b = some c ∧ c.toNat = a.toNat + b.toNat := by
  refine ⟨a + b, if_neg (by omega), ?_⟩
  rw [UInt64.toNat_add]
  exact Nat.mod_eq_of_lt h

theorem subU64_of_le {a b : UInt64} (h : b ≤ a) :
    ∃ c, subU64 mode a b = some c ∧ c.toNat = a.toNat - b.toNat := by
  refine ⟨a - b, if_neg ?_, UInt64.toNat_sub_of_le a b h⟩
  have hle := UInt64.le_iff_toNat_le.mp h
  omega

inductive Accessed (s : PartitionSlice σ) (past : Except (IoFailure ε) α) (count : ℕ)
    (io : σ → ℕ → Except ε α × σ) (moved : α → ℕ) :
    Except (IoFailure ε) α × PartitionSlice σ → Prop
  | past (h : s.len.toNat ≤ s.pos.toNat) : Accessed s past count io moved (past, s)
  | unreached (h : s.pos.toNat < s.len.toNat) (offset : UInt64) (e : ε)
      (hseek : (seekStart s.file offset).1 = .error e) :
      Accessed s past count io moved
        (.error (.store e), { s with file := (seekStart s.file offset).2 })
  | failed (h : s.pos.toNat < s.len.toNat) (offset : UInt64)
      (hseek : (seekStart s.file offset).1 = .ok ())
      (hoffset : offset.toNat = s.start.toNat + s.pos.toNat) (e : ε)
      (hio : (io (seekStart s.file offset).2 (min count (s.len.toNat - s.pos.toNat))).1 =
        .error e) :
      Accessed s past count io moved (.error (.store e),
        { s with
          file := (io (seekStart s.file offset).2 (min count (s.len.toNat - s.pos.toNat))).2 })
  | moved (h : s.pos.toNat < s.len.toNat) (offset : UInt64)
      (hseek : (seekStart s.file offset).1 = .ok ())
      (hoffset : offset.toNat = s.start.toNat + s.pos.toNat) (a : α)
      (hio : (io (seekStart s.file offset).2 (min count (s.len.toNat - s.pos.toNat))).1 = .ok a)
      (pos : UInt64) (hpos : pos.toNat = s.pos.toNat + moved a) :
      Accessed s past count io moved (.ok a,
        { s with
          file := (io (seekStart s.file offset).2 (min count (s.len.toNat - s.pos.toNat))).2
          pos := pos })

theorem transfer_accessed (past : Except (IoFailure ε) α) (count : ℕ)
    (io : σ → ℕ → Except ε α × σ) (moved : α → ℕ) (hpos : s.pos.toNat < s.len.toNat)
    {offset : UInt64} (hoffset : offset.toNat = s.start.toNat + s.pos.toNat)
    (hio : ∀ file k a, (io file k).1 = .ok a → moved a ≤ k) :
    ∃ r, transfer mode s offset (min count (s.len.toNat - s.pos.toNat)) io moved = some r ∧
      Accessed s past count io moved r := by
  rw [transfer]
  split
  · next e file hseek =>
    have hsought : (seekStart s.file offset).1 = .error e := congrArg Prod.fst hseek
    obtain rfl : (seekStart s.file offset).2 = file := congrArg Prod.snd hseek
    exact ⟨_, rfl, .unreached hpos offset e hsought⟩
  · next u file hseek =>
    have hsought : (seekStart s.file offset).1 = .ok () := congrArg Prod.fst hseek
    obtain rfl : (seekStart s.file offset).2 = file := congrArg Prod.snd hseek
    split
    · next e file hdone =>
      have hresult := congrArg Prod.fst hdone
      obtain rfl := congrArg Prod.snd hdone
      exact ⟨_, rfl, .failed hpos offset hsought hoffset e hresult⟩
    · next a file hdone =>
      have hresult := congrArg Prod.fst hdone
      obtain rfl := congrArg Prod.snd hdone
      have hmoved := hio _ _ a hresult
      have hlen := s.len.toNat_lt
      have hcount : (UInt64.ofNat (moved a)).toNat = moved a :=
        UInt64.toNat_ofNat_of_lt' (by simp only [UInt64.size]; omega)
      obtain ⟨pos, hadd, hpos'⟩ :=
        addU64_of_lt mode (a := s.pos) (b := UInt64.ofNat (moved a)) (by rw [hcount]; omega)
      rw [hadd]
      exact ⟨_, rfl, .moved hpos offset hsought hoffset a hresult pos (by rw [hpos', hcount])⟩

theorem access_accessed (past : Except (IoFailure ε) α) (count : ℕ)
    (io : σ → ℕ → Except ε α × σ) (moved : α → ℕ)
    (hrange : s.pos.toNat < s.len.toNat → s.start.toNat + s.pos.toNat < 2 ^ 64)
    (hio : ∀ file k a, (io file k).1 = .ok a → moved a ≤ k) :
    ∃ r, access mode s past count io moved = some r ∧ Accessed s past count io moved r := by
  rw [access]
  split
  · next h => exact ⟨_, rfl, .past (UInt64.le_iff_toNat_le.mp h)⟩
  · next h =>
    have hpos : s.pos.toNat < s.len.toNat := by
      rw [UInt64.le_iff_toNat_le] at h
      exact Nat.lt_of_not_le h
    obtain ⟨most, hmost, hmost'⟩ := subU64_of_le mode (UInt64.le_iff_toNat_le.mpr hpos.le)
    obtain ⟨offset, hoffset, hoffset'⟩ := addU64_of_lt mode (hrange hpos)
    obtain ⟨r, hr, haccessed⟩ := transfer_accessed mode past count io moved hpos hoffset' hio
    refine ⟨r, ?_, haccessed⟩
    rw [hmost, hoffset, ← hr, ← hmost']
    rfl

variable {past : Except (IoFailure ε) α} {count : ℕ} {io : σ → ℕ → Except ε α × σ} {moved : α → ℕ}
  {r : Except (IoFailure ε) α × PartitionSlice σ}

theorem Accessed.kept (h : Accessed s past count io moved r) :
    r.2.start = s.start ∧ r.2.len = s.len := by
  cases h <;> exact ⟨rfl, rfl⟩

theorem Accessed.confined {I : σ → Prop} (h : Accessed s past count io moved r)
    (hI : Confines s.start.toNat (s.start.toNat + s.len.toNat) I)
    (hio : ∀ file k, I file → s.start.toNat ≤ cursor file →
      cursor file + k ≤ s.start.toNat + s.len.toNat → I (io file k).2) (hfile : I s.file) :
    I r.2.file := by
  have hreached {offset : UInt64} (hpos : s.pos.toNat < s.len.toNat)
      (hseek : (seekStart s.file offset).1 = .ok ())
      (hoffset : offset.toNat = s.start.toNat + s.pos.toNat) :
      I (io (seekStart s.file offset).2 (min count (s.len.toNat - s.pos.toNat))).2 := by
    have hcursor := (cursor_seekStart s.file offset hseek).trans hoffset
    apply hio _ _ (hI.seek _ _ hfile)
    · omega
    · omega
  cases h with
  | past hpos => exact hfile
  | unreached hpos offset e hseek => exact hI.seek _ _ hfile
  | failed hpos offset hseek hoffset e hdone => exact hreached hpos hseek hoffset
  | moved hpos offset hseek hoffset a hdone pos hmoved => exact hreached hpos hseek hoffset

end Access

section Refinement

variable [Store ε σ] (mode : Overflow) {s : PartitionSlice σ}

def view (s : PartitionSlice σ) : View where
  bytes := shifted s.start.toNat (byteAt s.file)
  pos := s.pos.toNat

theorem view_congr {file : σ} (h : byteAt file = byteAt s.file) :
    view { s with file } = view s := by
  rw [view, view, h]

/-- What one call does: a step of the cursor, which stays inside the slice's part of the store. -/
structure Refines (s : PartitionSlice σ) (c : Call)
    (r : Outcome (IoFailure ε) × PartitionSlice σ) : Prop where
  step : Step s.len.toNat (view s) c r.1 (view r.2)
  start_eq : r.2.start = s.start
  len_eq : r.2.len = s.len
  confined : ∀ I, Confines s.start.toNat (s.start.toNat + s.len.toNat) I → I s.file → I r.2.file

theorem read_refines (hrange : s.start.toNat + s.len.toNat ≤ 2 ^ 64) (n : ℕ) :
    ∃ r, call mode s (.read n) = some r ∧ Refines s (.read n) r := by
  obtain ⟨r, hr, h⟩ := access_accessed mode (s := s) (.ok []) n
    (fun file k ↦ Store.read file k) List.length (fun hpos ↦ by omega)
    fun file k bytes hbytes ↦ (read_ok file k bytes hbytes).1
  refine ⟨(report .bytes r.1, r.2), ?_, ?_⟩
  · rw [call, read, hr]
    rfl
  · refine
      { step := ?_
        start_eq := h.kept.1
        len_eq := h.kept.2
        confined := fun I hI hfile ↦ h.confined hI hI.read hfile }
    cases h with
    | past hpos => exact .readPast hpos
    | unreached hpos offset e hseek =>
      rw [view_congr (byteAt_seekStart _ _)]
      exact .readFailed (v := view s) hpos _
    | failed hpos offset hseek hoffset e hdone =>
      rw [view_congr ((byteAt_read _ _).trans (byteAt_seekStart _ _))]
      exact .readFailed (v := view s) hpos _
    | moved hpos offset hseek hoffset bytes hdone pos hmoved =>
      obtain ⟨hle, hbytes⟩ := read_ok _ _ _ hdone
      have hcursor := (cursor_seekStart s.file offset hseek).trans hoffset
      rw [hcursor, byteAt_seekStart, ← window_shifted] at hbytes
      have hview : view { s with
          file := (Store.read (seekStart s.file offset).2 (min n (s.len.toNat - s.pos.toNat))).2
          pos := pos } = { view s with pos := s.pos.toNat + bytes.length } := by
        rw [view, byteAt_read, byteAt_seekStart, hmoved]
        rfl
      have hstep : Step s.len.toNat (view s) (.read n) (.bytes (window (shifted s.start.toNat
          (byteAt s.file)) s.pos.toNat bytes.length) : Outcome (IoFailure ε)) _ :=
        .read (v := view s) hpos bytes.length (by omega) (by dsimp only [view]; omega)
      rw [← hbytes] at hstep
      rw [hview]
      exact hstep

theorem write_refines (hrange : s.start.toNat + s.len.toNat ≤ 2 ^ 64) (data : List UInt8) :
    ∃ r, call mode s (.write data) = some r ∧ Refines s (.write data) r := by
  have htake (k : ℕ) : (data.take k).length ≤ k := List.length_take_le k data
  obtain ⟨r, hr, h⟩ := access_accessed mode (s := s)
    (.error (.writeZero "Write exceeds partition boundary")) data.length
    (fun file k ↦ Store.write file (data.take k)) id (fun hpos ↦ by omega)
    fun file k count hcount ↦ (write_ok file _ count hcount).1.trans (htake k)
  refine ⟨(report .count r.1, r.2), ?_, ?_⟩
  · rw [call, write, hr]
    rfl
  · refine
      { step := ?_
        start_eq := h.kept.1
        len_eq := h.kept.2
        confined := fun I hI hfile ↦ h.confined hI (fun file k hin hlo hhi ↦
          hI.write file _ hin hlo ((Nat.add_le_add_left (htake k) _).trans hhi)) hfile }
    cases h with
    | past hpos => exact .writePast hpos _
    | unreached hpos offset e hseek =>
      rw [view_congr (byteAt_seekStart _ _)]
      exact .writeFailed (v := view s) hpos _
    | failed hpos offset hseek hoffset e hdone =>
      rw [view_congr ((write_error _ _ _ hdone).trans (byteAt_seekStart _ _))]
      exact .writeFailed (v := view s) hpos _
    | moved hpos offset hseek hoffset k hdone pos hmoved =>
      obtain ⟨hle, hbytes⟩ := write_ok _ _ _ hdone
      have hcursor := (cursor_seekStart s.file offset hseek).trans hoffset
      rw [hcursor, byteAt_seekStart, List.take_take,
        Nat.min_eq_left (hle.trans (htake _))] at hbytes
      have hview : view { s with
          file := (Store.write (seekStart s.file offset).2
            (data.take (min data.length (s.len.toNat - s.pos.toNat)))).2
          pos := pos } =
          { bytes := overwrite (view s).bytes (view s).pos (data.take k)
            pos := (view s).pos + k } := by
        rw [view, hbytes, shifted_overwrite, hmoved]
        rfl
      have hcount := hle.trans (htake _)
      rw [hview]
      exact .write (v := view s) hpos k (by omega) (by dsimp only [view]; omega)

theorem seek_refines (whence : SeekFrom) :
    ∃ r, call mode s (.seek whence) = some r ∧ Refines s (.seek whence) r := by
  by_cases h : whence.Valid s.len.toNat s.pos.toNat
  · obtain ⟨p, hp, hseek⟩ := seek_of_valid (ε := ε) h
    refine ⟨(.position p.toNat, { s with pos := p }), ?_, ?_⟩
    · rw [call, hseek]
      rfl
    · exact
        { step := .seek (v := view s) h hp
          start_eq := rfl
          len_eq := rfl
          confined := fun I hI hfile ↦ hfile }
  · obtain ⟨message, hseek⟩ := seek_of_invalid (ε := ε) h
    refine ⟨(.failed (.invalidInput message), s), ?_, ?_⟩
    · rw [call, hseek]
      rfl
    · exact
        { step := .rejected (v := view s) h _
          start_eq := rfl
          len_eq := rfl
          confined := fun I hI hfile ↦ hfile }

theorem call_refines (hrange : s.start.toNat + s.len.toNat ≤ 2 ^ 64) (c : Call) :
    ∃ r, call mode s c = some r ∧ Refines s c r := by
  cases c with
  | read n => exact read_refines mode hrange n
  | write data => exact write_refines mode hrange data
  | seek whence => exact seek_refines mode whence

theorem run_refines (hrange : s.start.toNat + s.len.toNat ≤ 2 ^ 64) (calls : List Call) :
    ∃ outcomes s', run mode s calls = some (outcomes, s') ∧
      Steps s.len.toNat (view s) calls outcomes (view s') ∧
      ∀ I, Confines s.start.toNat (s.start.toNat + s.len.toNat) I → I s.file → I s'.file := by
  induction calls generalizing s with
  | nil => exact ⟨[], s, rfl, .nil _, fun I _ hfile ↦ hfile⟩
  | cons c rest ih =>
    obtain ⟨⟨outcome, mid⟩, hcall, hrefines⟩ := call_refines mode hrange c
    have hstart : mid.start = s.start := hrefines.start_eq
    have hlen : mid.len = s.len := hrefines.len_eq
    have hmid : mid.start.toNat + mid.len.toNat ≤ 2 ^ 64 := by
      rw [hstart, hlen]
      exact hrange
    obtain ⟨outcomes, s', hrun, hsteps, hconfined⟩ := ih hmid
    rw [hstart, hlen] at hconfined
    rw [hlen] at hsteps
    refine ⟨outcome :: outcomes, s', ?_, .cons hrefines.step hsteps, ?_⟩
    · rw [run, hcall, Option.bind_some, hrun]
      rfl
    · intro I hI hfile
      exact hconfined I hI (hrefines.confined I hI hfile)

end Refinement

section Recorded

variable [Store ε σ] (mode : Overflow)

end Recorded

end BootyCall.Extractor.Slice
