import Mathlib.Data.List.Range
import Mathlib.Data.List.GetD
import Mathlib.Algebra.Order.Ring.Int

namespace BootyCall.Lib.ByteStore

variable {ε σ τ α : Type}

def window (bytes : ℕ → UInt8) (pos k : ℕ) : List UInt8 :=
  (List.range k).map fun i ↦ bytes (pos + i)

def overwrite (bytes : ℕ → UInt8) (pos : ℕ) (data : List UInt8) : ℕ → UInt8 := fun j ↦
  if pos ≤ j ∧ j < pos + data.length then data.getD (j - pos) 0 else bytes j

def shifted (start : ℕ) (bytes : ℕ → UInt8) : ℕ → UInt8 := fun i ↦ bytes (start + i)

@[simp]
theorem window_length (bytes : ℕ → UInt8) (pos k : ℕ) : (window bytes pos k).length = k := by
  rw [window, List.length_map, List.length_range]

theorem window_shifted (start : ℕ) (bytes : ℕ → UInt8) (pos k : ℕ) :
    window (shifted start bytes) pos k = window bytes (start + pos) k := by
  simp only [window, shifted, Nat.add_assoc]

theorem shifted_overwrite (start : ℕ) (bytes : ℕ → UInt8) (pos : ℕ) (data : List UInt8) :
    shifted start (overwrite bytes (start + pos) data) =
      overwrite (shifted start bytes) pos data := by
  funext i
  have hrange : (start + pos ≤ start + i ∧ start + i < start + pos + data.length) ↔
      (pos ≤ i ∧ i < pos + data.length) := by omega
  rw [shifted, overwrite, overwrite, if_congr hrange (by rw [Nat.add_sub_add_left]) rfl]
  rfl

/-- A seekable store of bytes, with the contract of its operations: they may fail and they may
read or write fewer bytes than they are asked to, and an operation that fails changes no bytes. An
offset past the end holds a zero. -/
class Store (ε : outParam Type) (σ : Type) where
  byteAt : σ → ℕ → UInt8
  cursor : σ → ℕ
  seekStart : σ → UInt64 → Except ε Unit × σ
  read : σ → ℕ → Except ε (List UInt8) × σ
  write : σ → List UInt8 → Except ε ℕ × σ
  byteAt_seekStart : ∀ s offset, byteAt (seekStart s offset).2 = byteAt s
  cursor_seekStart : ∀ s offset, (seekStart s offset).1 = .ok () →
    cursor (seekStart s offset).2 = offset.toNat
  byteAt_read : ∀ s n, byteAt (read s n).2 = byteAt s
  read_ok : ∀ s n bytes, (read s n).1 = .ok bytes →
    bytes.length ≤ n ∧ bytes = window (byteAt s) (cursor s) bytes.length
  write_error : ∀ s data e, (write s data).1 = .error e → byteAt (write s data).2 = byteAt s
  write_ok : ∀ s data k, (write s data).1 = .ok k →
    k ≤ data.length ∧ byteAt (write s data).2 = overwrite (byteAt s) (cursor s) (data.take k)

open Store

/-- A property of stores that every operation keeps whose bytes lie between two offsets. -/
structure Confines [Store ε σ] (lo hi : ℕ) (I : σ → Prop) : Prop where
  seek : ∀ s offset, I s → I (seekStart s offset).2
  read : ∀ s n, I s → lo ≤ cursor s → cursor s + n ≤ hi → I (read s n).2
  write : ∀ s data, I s → lo ≤ cursor s → cursor s + data.length ≤ hi → I (write s data).2

structure Memory where
  bytes : ℕ → UInt8
  size : ℕ
  position : ℕ := 0

instance : Store Empty Memory where
  byteAt := Memory.bytes
  cursor := Memory.position
  seekStart s offset := (.ok (), { s with position := offset.toNat })
  read s n :=
    (.ok (window s.bytes s.position (min n (s.size - s.position))),
      { s with position := s.position + min n (s.size - s.position) })
  write s data :=
    (.ok (min data.length (s.size - s.position)),
      { s with
        bytes := overwrite s.bytes s.position (data.take (min data.length (s.size - s.position)))
        position := s.position + min data.length (s.size - s.position) })
  byteAt_seekStart _ _ := rfl
  cursor_seekStart _ _ _ := rfl
  byteAt_read _ _ := rfl
  read_ok s n bytes h := by
    cases h
    rw [window_length]
    exact ⟨Nat.min_le_left _ _, rfl⟩
  write_error s data e h := by cases h
  write_ok s data k h := by
    cases h
    exact ⟨Nat.min_le_left _ _, rfl⟩

section Recording

/-- A store with a record of where each read and each write began, and of how many bytes it was
asked for. -/
structure Recorded (σ : Type) where
  store : σ
  accesses : List (ℕ × ℕ) := []

instance [Store ε σ] : Store ε (Recorded σ) where
  byteAt s := byteAt s.store
  cursor s := cursor s.store
  seekStart s offset :=
    ((seekStart s.store offset).1, { s with store := (seekStart s.store offset).2 })
  read s n :=
    ((read s.store n).1,
      { store := (read s.store n).2, accesses := s.accesses ++ [(cursor s.store, n)] })
  write s data :=
    ((write s.store data).1,
      { store := (write s.store data).2
        accesses := s.accesses ++ [(cursor s.store, data.length)] })
  byteAt_seekStart s := byteAt_seekStart s.store
  cursor_seekStart s := cursor_seekStart s.store
  byteAt_read s := byteAt_read s.store
  read_ok s := read_ok s.store
  write_error s := write_error s.store
  write_ok s := write_ok s.store

end Recording

section Cursor

inductive SeekFrom
  | start (offset : UInt64)
  | fromEnd (offset : Int64)
  | current (offset : Int64)
  deriving DecidableEq

def SeekFrom.base (len pos : ℕ) : SeekFrom → ℤ
  | start _ => 0
  | fromEnd _ => len
  | current _ => pos

def SeekFrom.offset : SeekFrom → ℤ
  | start offset => offset.toNat
  | fromEnd offset | current offset => offset.toInt

def SeekFrom.target (len pos : ℕ) (whence : SeekFrom) : ℤ := whence.base len pos + whence.offset

def SeekFrom.Valid (len pos : ℕ) (whence : SeekFrom) : Prop :=
  whence.base len pos < 2 ^ 63 ∧ 0 ≤ whence.target len pos ∧ whence.target len pos < 2 ^ 63

inductive Call
  | read (n : ℕ)
  | write (data : List UInt8)
  | seek (whence : SeekFrom)

inductive Outcome (ε : Type)
  | bytes (bytes : List UInt8)
  | count (k : ℕ)
  | position (p : ℕ)
  | failed (e : ε)

/-- A view of bytes of a fixed length, with a position that may lie past its end. -/
structure View where
  bytes : ℕ → UInt8
  pos : ℕ

/-- A cursor over a view: reads and writes may be short or fail, and a call that fails changes
nothing. -/
inductive Step (len : ℕ) : View → Call → Outcome ε → View → Prop
  | readPast {v : View} {n : ℕ} (h : len ≤ v.pos) : Step len v (.read n) (.bytes []) v
  | read {v : View} {n : ℕ} (h : v.pos < len) (k : ℕ) (hk : k ≤ n) (hlen : v.pos + k ≤ len) :
      Step len v (.read n) (.bytes (window v.bytes v.pos k)) { v with pos := v.pos + k }
  | readFailed {v : View} {n : ℕ} (h : v.pos < len) (e : ε) : Step len v (.read n) (.failed e) v
  | writePast {v : View} {data : List UInt8} (h : len ≤ v.pos) (e : ε) :
      Step len v (.write data) (.failed e) v
  | write {v : View} {data : List UInt8} (h : v.pos < len) (k : ℕ) (hk : k ≤ data.length)
      (hlen : v.pos + k ≤ len) :
      Step len v (.write data) (.count k)
        { bytes := overwrite v.bytes v.pos (data.take k), pos := v.pos + k }
  | writeFailed {v : View} {data : List UInt8} (h : v.pos < len) (e : ε) :
      Step len v (.write data) (.failed e) v
  | seek {v : View} {whence : SeekFrom} (h : whence.Valid len v.pos) {p : ℕ}
      (hp : (p : ℤ) = whence.target len v.pos) :
      Step len v (.seek whence) (.position p) { v with pos := p }
  | rejected {v : View} {whence : SeekFrom} (h : ¬whence.Valid len v.pos) (e : ε) :
      Step len v (.seek whence) (.failed e) v

inductive Steps (len : ℕ) : View → List Call → List (Outcome ε) → View → Prop
  | nil (v : View) : Steps len v [] [] v
  | cons {v v' v'' : View} {call : Call} {outcome : Outcome ε} {calls : List Call}
      {outcomes : List (Outcome ε)} (h : Step len v call outcome v')
      (hrest : Steps len v' calls outcomes v'') :
      Steps len v (call :: calls) (outcome :: outcomes) v''

end Cursor

end BootyCall.Lib.ByteStore
