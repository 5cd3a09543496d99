import BootyCall.Tftp.Wire

namespace BootyCall.Tftp.Request

open Wire

structure RrqRequest where
  filename : String
  mode : String
  blksize : Option ℕ := none
  timeout : Option ℕ := none
  tsizeRequested : Bool := false
  windowsize : Option ℕ := none
  deriving DecidableEq, Repr

/-- The NUL-terminated strings of a byte sequence; an unterminated tail is dropped. -/
def splitNul : Bytes → Bytes → List Bytes
  | [], _ => []
  | b :: bs, current => if b = 0 then current :: splitNul bs [] else splitNul bs (current ++ [b])

def fromUtf8 (bs : Bytes) : Option String := String.fromUTF8? ⟨bs.toArray⟩

/-- Lower-casing as far as comparison with an ASCII name can see it: besides `A`-`Z` only the
Kelvin sign has an ASCII image, every other letter maps outside ASCII. -/
def lowerChar (c : Char) : Char := if c = '\u212a' then 'k' else c.toLower

def toLowercase (s : String) : String := String.ofList (s.toList.map lowerChar)

/-- Unsigned decimal parsing: an optional plus sign, then at least one digit, in range. -/
def parseUnsigned (bits : ℕ) (s : String) : Option ℕ :=
  let digits := match s.toList with
    | '+' :: rest => rest
    | cs => cs
  if digits = [] ∨ digits.all Char.isDigit = false then none
  else
    let n := digits.foldl (fun n c ↦ n * 10 + (c.toNat - 48)) 0
    if n < 2 ^ bits then some n else none

/-- One recognised option; a value that does not parse leaves the request as it was. -/
def applyOption (req : RrqRequest) (key val : String) : RrqRequest :=
  if key = "blksize" then
    match parseUnsigned 64 val with
    | some n => { req with blksize := some n }
    | none => req
  else if key = "timeout" then
    match parseUnsigned 64 val with
    | some n => { req with timeout := some n }
    | none => req
  else if key = "tsize" then { req with tsizeRequested := true }
  else if key = "windowsize" then
    match parseUnsigned 16 val with
    | some n => { req with windowsize := some n }
    | none => req
  else req

def parseOptions : List Bytes → RrqRequest → Option RrqRequest
  | k :: v :: rest, req => do
    let key ← fromUtf8 k
    let val ← fromUtf8 v
    parseOptions rest (applyOption req (toLowercase key) val)
  | _, req => some req

def parseRrq (packet : Bytes) : Option RrqRequest :=
  if packet.length < 4 ∨ opcode packet ≠ some opRrq then none
  else
    match splitNul (packet.drop 2) [] with
    | f :: m :: rest => do
      let filename ← fromUtf8 f
      let mode ← fromUtf8 m
      parseOptions rest { filename, mode }
    | _ => none

def eqIgnoreAsciiCase (a b : String) : Bool :=
  a.toList.map Char.toLower == b.toList.map Char.toLower

def maxWindowsize : ℕ := 32
def defaultBlksize : ℕ := 512
def maxBlksize : ℕ := 1432
def defaultTimeoutSecs : ℕ := 3
def minTimeoutSecs : ℕ := 1
def maxTimeoutSecs : ℕ := 10

def clamp (lo hi n : ℕ) : ℕ := max lo (min n hi)

theorem le_clamp (lo hi n : ℕ) : lo ≤ clamp lo hi n := Nat.le_max_left _ _

theorem clamp_le {lo hi : ℕ} (h : lo ≤ hi) (n : ℕ) : clamp lo hi n ≤ hi :=
  Nat.max_le.mpr ⟨h, Nat.min_le_right _ _⟩

/-- The parameters one transfer runs with, inside the ranges the server clamps them to. -/
structure Negotiated where
  blksize : ℕ
  timeout : ℕ
  windowsize : ℕ
  blksize_ge : defaultBlksize ≤ blksize
  blksize_le : blksize ≤ maxBlksize
  timeout_ge : minTimeoutSecs ≤ timeout
  timeout_le : timeout ≤ maxTimeoutSecs
  windowsize_ge : 1 ≤ windowsize
  windowsize_le : windowsize ≤ maxWindowsize

namespace Negotiated

variable (n : Negotiated)

theorem blksize_pos : 0 < n.blksize := by
  have h := n.blksize_ge
  simp only [defaultBlksize] at h
  omega

theorem windowsize_le_32 : n.windowsize ≤ 32 := n.windowsize_le

end Negotiated

def negotiate (req : RrqRequest) : Negotiated where
  blksize := (req.blksize.map (clamp defaultBlksize maxBlksize)).getD defaultBlksize
  timeout := (req.timeout.map (clamp minTimeoutSecs maxTimeoutSecs)).getD defaultTimeoutSecs
  windowsize := (req.windowsize.map (clamp 1 maxWindowsize)).getD 1
  blksize_ge := by cases req.blksize <;> simp [le_clamp]
  blksize_le := by
    cases req.blksize
    · simp [defaultBlksize, maxBlksize]
    · exact clamp_le (by decide) _
  timeout_ge := by
    cases req.timeout
    · simp [defaultTimeoutSecs, minTimeoutSecs]
    · exact le_clamp _ _ _
  timeout_le := by
    cases req.timeout
    · simp [defaultTimeoutSecs, maxTimeoutSecs]
    · exact clamp_le (by decide) _
  windowsize_ge := by cases req.windowsize <;> simp [le_clamp]
  windowsize_le := by
    cases req.windowsize
    · simp [maxWindowsize]
    · exact clamp_le (by decide) _

def oackOptions (req : RrqRequest) (fileSize : ℕ) : List (String × String) :=
  (if req.blksize.isSome then [("blksize", toString (negotiate req).blksize)] else []) ++
  (if req.timeout.isSome then [("timeout", toString (negotiate req).timeout)] else []) ++
  (if req.tsizeRequested then [("tsize", toString fileSize)] else []) ++
  (if req.windowsize.isSome then [("windowsize", toString (negotiate req).windowsize)] else [])

end BootyCall.Tftp.Request
