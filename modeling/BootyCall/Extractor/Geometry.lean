import BootyCall.Extractor.Slice

namespace BootyCall.Extractor.Geometry

open Lib.ByteStore Slice

/-- Whatever the store and the calls, debug and release builds do the same: nothing panics and
nothing wraps. A seek from or to what is not a nonnegative 63-bit number is an error. -/
structure Safe (start len : UInt64) : Prop where
  exact_runs : ∀ {ε σ : Type} [Store ε σ] (store : σ) (calls : List Call),
    ∃ r, run .panics (.new store start len) calls = some r ∧
      run .wraps (.new store start len) calls = some r
  refused : ∀ {ε σ : Type} (file : σ) (pos : UInt64) (whence : SeekFrom),
    ¬whence.Valid len.toNat pos.toNat → ∃ message,
      (seek ⟨file, start, len, pos⟩ whence : Except (IoFailure ε) UInt64 × _) =
        (.error (.invalidInput message), ⟨file, start, len, pos⟩)

section Agreement

variable {ε σ α : Type} [Store ε σ] {s : PartitionSlice σ}

theorem addU64_wraps {a b c : UInt64} (h : addU64 .panics a b = some c) :
    addU64 .wraps a b = some c := by
  rw [addU64] at h
  split at h
  · cases h
  · exact (if_neg (by simp)).trans h

theorem subU64_wraps {a b c : UInt64} (h : subU64 .panics a b = some c) :
    subU64 .wraps a b = some c := by
  rw [subU64] at h
  split at h
  · cases h
  · exact (if_neg (by simp)).trans h

theorem transfer_wraps {offset : UInt64} {most : ℕ} {io : σ → ℕ → Except ε α × σ} {moved : α → ℕ}
    {r : Except (IoFailure ε) α × PartitionSlice σ}
    (h : transfer .panics s offset most io moved = some r) :
    transfer .wraps s offset most io moved = some r := by
  rw [transfer] at h ⊢
  split at h
  · exact h
  · split at h
    · exact h
    · obtain ⟨pos, hpos, rfl⟩ := Option.map_eq_some_iff.mp h
      rw [addU64_wraps hpos]
      rfl

theorem access_wraps {past : Except (IoFailure ε) α} {count : ℕ} {io : σ → ℕ → Except ε α × σ}
    {moved : α → ℕ} {r : Except (IoFailure ε) α × PartitionSlice σ}
    (h : access .panics s past count io moved = some r) :
    access .wraps s past count io moved = some r := by
  rw [access] at h ⊢
  split at h
  · next hpast =>
    rw [if_pos hpast]
    exact h
  · next hpast =>
    obtain ⟨most, hmost, h⟩ := Option.bind_eq_some_iff.mp h
    obtain ⟨offset, hoffset, h⟩ := Option.bind_eq_some_iff.mp h
    rw [if_neg hpast, subU64_wraps hmost, addU64_wraps hoffset]
    exact transfer_wraps h

theorem call_wraps {c : Call} {r : Outcome (IoFailure ε) × PartitionSlice σ}
    (h : call .panics s c = some r) : call .wraps s c = some r := by
  cases c with
  | read n =>
    obtain ⟨r', hr', rfl⟩ := Option.map_eq_some_iff.mp h
    rw [call, Slice.read, access_wraps hr']
    rfl
  | write data =>
    obtain ⟨r', hr', rfl⟩ := Option.map_eq_some_iff.mp h
    rw [call, Slice.write, access_wraps hr']
    rfl
  | seek whence => exact h

theorem run_wraps {calls : List Call} {r : List (Outcome (IoFailure ε)) × PartitionSlice σ}
    (h : run .panics s calls = some r) : run .wraps s calls = some r := by
  induction calls generalizing s r with
  | nil => exact h
  | cons c rest ih =>
    obtain ⟨mid, hmid, h⟩ := Option.bind_eq_some_iff.mp h
    obtain ⟨r', hr', rfl⟩ := Option.map_eq_some_iff.mp h
    rw [run, call_wraps hmid, Option.bind_some, ih hr']
    rfl

theorem access_overflows {past : Except (IoFailure ε) α} {count : ℕ}
    {io : σ → ℕ → Except ε α × σ} {moved : α → ℕ} (hpos : s.pos.toNat < s.len.toNat)
    (hover : 2 ^ 64 ≤ s.start.toNat + s.pos.toNat) :
    access .panics s past count io moved = none := by
  have hpast : ¬s.len ≤ s.pos := by
    rw [UInt64.le_iff_toNat_le]
    omega
  have hadd : addU64 .panics s.start s.pos = none := if_pos ⟨hover, rfl⟩
  rw [access, if_neg hpast, hadd]
  cases subU64 .panics s.len s.pos <;> rfl

end Agreement

section Overflowing

def endless : Memory := { bytes := fun _ ↦ 0, size := 2 ^ 64 }

/-- Calls that drive the position to the first one whose offset is not representable: a seek as
far as seeks go, and a read over the rest. -/
def drive (start : UInt64) : List Call :=
  let target := 2 ^ 64 - start.toNat
  let sought := min target (2 ^ 63 - 1)
  [.seek (.start (UInt64.ofNat sought)), .read (target - sought), .read 1]

theorem run_seek_start (s : PartitionSlice Memory) {p : ℕ} (hp : p < 2 ^ 63) (rest : List Call) :
    ∃ pos : UInt64, pos.toNat = p ∧
      run .panics s (.seek (.start (UInt64.ofNat p)) :: rest) =
        (run .panics { s with pos := pos } rest).map fun q ↦ (.position p :: q.1, q.2) := by
  have hoffset : (UInt64.ofNat p).toNat = p :=
    UInt64.toNat_ofNat_of_lt' (by simp only [UInt64.size]; omega)
  have hvalid : (SeekFrom.start (UInt64.ofNat p)).Valid s.len.toNat s.pos.toNat := by
    simp only [SeekFrom.Valid, SeekFrom.target, SeekFrom.base, SeekFrom.offset, hoffset]
    omega
  obtain ⟨pos, hpos, hseek⟩ := seek_of_valid (ε := Empty) hvalid
  simp only [SeekFrom.target, SeekFrom.base, SeekFrom.offset, hoffset, zero_add] at hpos
  have hpos : pos.toNat = p := by exact_mod_cast hpos
  refine ⟨pos, hpos, ?_⟩
  rw [run, call, hseek, ← hpos]
  rfl

theorem run_read_panics (s : PartitionSlice Memory) (n : ℕ) (rest : List Call)
    (hpos : s.pos.toNat < s.len.toNat) (hover : 2 ^ 64 ≤ s.start.toNat + s.pos.toNat) :
    run .panics s (.read n :: rest) = none := by
  rw [run, call, Slice.read, access_overflows hpos hover]
  rfl

theorem run_read_on_panics (s : PartitionSlice Memory) (hfile : s.file.size = 2 ^ 64) {n : ℕ}
    (hn : s.start.toNat + (s.pos.toNat + n) = 2 ^ 64) (hpos : s.pos.toNat + n < s.len.toNat) :
    run .panics s [.read n, .read 1] = none := by
  by_cases hover : 2 ^ 64 ≤ s.start.toNat + s.pos.toNat
  · exact run_read_panics s n _ (by omega) hover
  · obtain ⟨r, hr, haccess⟩ := access_accessed .panics (s := s) (.ok []) n
      (fun file k ↦ Store.read file k) List.length (fun _ ↦ Nat.lt_of_not_le hover)
      fun file k bytes hbytes ↦ (Store.read_ok file k bytes hbytes).1
    rw [run, call, Slice.read, hr]
    cases haccess with
    | past h => omega
    | unreached h offset e => exact e.elim
    | failed h offset hseek hoffset e => exact e.elim
    | moved h offset hseek hoffset bytes hdone pos hmoved =>
      -- the store has all the bytes that the slice asks it for
      have hlen : bytes.length = n := by
        obtain rfl := Except.ok.inj hdone
        rw [window_length]
        change min (min n (s.len.toNat - s.pos.toNat)) (s.file.size - offset.toNat) = n
        omega
      have hnext : run .panics { s with
          file := (Store.read (Store.seekStart s.file offset).2 (min n (s.len.toNat - s.pos.toNat))).2
          pos := pos } [.read 1] = none :=
        run_read_panics _ 1 [] (by dsimp only; omega) (by dsimp only; omega)
      rw [Option.map_some, Option.bind_some, hnext]
      rfl

theorem drive_panics {start len : UInt64} (h : 2 ^ 64 < start.toNat + len.toNat) :
    run .panics (.new endless start len) (drive start) = none := by
  have hstart := start.toNat_lt
  have hlen := len.toNat_lt
  obtain ⟨pos, hpos, hrun⟩ := run_seek_start (.new endless start len)
    (p := min (2 ^ 64 - start.toNat) (2 ^ 63 - 1)) (by omega)
    [.read (2 ^ 64 - start.toNat - min (2 ^ 64 - start.toNat) (2 ^ 63 - 1)), .read 1]
  have hread := run_read_on_panics { PartitionSlice.new endless start len with pos := pos } rfl
    (n := 2 ^ 64 - start.toNat - min (2 ^ 64 - start.toNat) (2 ^ 63 - 1))
    (by dsimp only [PartitionSlice.new]; omega) (by dsimp only [PartitionSlice.new]; omega)
  rw [drive, hrun, hread]
  rfl

end Overflowing

/-- The arithmetic of a slice is exact on every store and for every sequence of calls if and only
if the offsets of all its bytes are representable. -/
theorem safe_iff (start len : UInt64) : Safe start len ↔ start.toNat + len.toNat ≤ 2 ^ 64 := by
  constructor
  · intro h
    by_contra hover
    obtain ⟨r, hr, -⟩ := h.exact_runs endless (drive start)
    rw [drive_panics (Nat.lt_of_not_le hover)] at hr
    cases hr
  · intro hrange
    refine
      { exact_runs := ?_
        refused := fun file pos whence hinvalid ↦ seek_of_invalid hinvalid }
    intro ε σ _ store calls
    obtain ⟨outcomes, s, hrun, -⟩ :=
      run_refines .panics (s := PartitionSlice.new store start len) hrange calls
    exact ⟨(outcomes, s), hrun, run_wraps hrun⟩

/-- A partition that starts at the last offset: in a debug build a read of its second byte panics,
in a release build it reads the first byte of the whole image. -/
theorem lastOffset_wraps :
    run .panics (.new endless (UInt64.ofNat (2 ^ 64 - 1)) 2) [.seek (.start 1), .read 1] = none ∧
      (run .wraps (.new { store := endless : Recorded Memory } (UInt64.ofNat (2 ^ 64 - 1)) 2)
        [.seek (.start 1), .read 1]).map (fun r ↦ r.2.file.accesses) = some [(0, 1)] := by
  decide +kernel

end BootyCall.Extractor.Geometry
