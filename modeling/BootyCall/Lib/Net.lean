import Mathlib.Data.Nat.Notation

namespace BootyCall.Lib.Net

/-- A reader takes what it reads off the front of the text, or fails and takes nothing. -/
abbrev Reader (α : Type) := List Char → Option (α × List Char)

def toDigit (radix : ℕ) (c : Char) : Option ℕ :=
  let n := c.toNat
  let digit :=
    if 48 ≤ n ∧ n ≤ 57 then n - 48
    else if 97 ≤ n ∧ n ≤ 102 then n - 87
    else if 65 ≤ n ∧ n ≤ 70 then n - 55
    else radix
  if digit < radix then some digit else none

def readGivenChar (target : Char) : Reader Unit
  | c :: rest => if c = target then some ((), rest) else none
  | [] => none

def digits (radix : ℕ) : List Char → List ℕ × List Char
  | c :: rest =>
    match toDigit radix c with
    | some d => (d :: (digits radix rest).1, (digits radix rest).2)
    | none => ([], c :: rest)
  | [] => ([], [])

/-- `bound` is the number of values of the result's type. -/
def readNumber (radix bound : ℕ) (maxDigits : Option ℕ) (allowZeroPrefix : Bool) : Reader ℕ :=
  fun s ↦
    let (ds, rest) := digits radix s
    let number := ds.foldl (fun n d ↦ n * radix + d) 0
    if ds = [] ∨ maxDigits.any (· < ds.length) ∨ bound ≤ number ∨
        (!allowZeroPrefix && ds.head? == some 0 && decide (1 < ds.length)) then none
    else some (number, rest)

def readSeparator {α : Type} (sep : Char) (index : ℕ) (inner : Reader α) : Reader α := fun s ↦
  if 0 < index then do
    let (_, s) ← readGivenChar sep s
    inner s
  else inner s

def readOctets : ℕ → ℕ → Reader (List ℕ)
  | 0, _, s => some ([], s)
  | n + 1, i, s => do
    let (octet, s) ← readSeparator '.' i (readNumber 10 256 (some 3) false) s
    let (octets, s) ← readOctets n (i + 1) s
    some (octet :: octets, s)

def readIpv4Addr : Reader (List ℕ) := readOctets 4 0

/-- The groups an IPv6 address starts with, at most `limit` more of them after the first `i`, and
whether an IPv4 address ends them. -/
def readGroups : ℕ → ℕ → List Char → List ℕ × Bool × List Char
  | 0, _, s => ([], false, s)
  | limit + 1, i, s =>
    match if 0 < limit then readSeparator ':' i readIpv4Addr s else none with
    | some (octets, s) =>
      ([octets.getD 0 0 * 256 + octets.getD 1 0, octets.getD 2 0 * 256 + octets.getD 3 0], true, s)
    | none =>
      match readSeparator ':' i (readNumber 16 65536 (some 4) true) s with
      | some (group, s) =>
        let (groups, ipv4, s) := readGroups limit (i + 1) s
        (group :: groups, ipv4, s)
      | none => ([], false, s)

/-- A `::` stands for the zero groups between those read before it and after it. -/
def readIpv6Addr : Reader (List ℕ) := fun s ↦
  let (head, headIpv4, s) := readGroups 8 0 s
  if head.length = 8 then some (head, s)
  else if headIpv4 then none
  else do
    let (_, s) ← readGivenChar ':' s
    let (_, s) ← readGivenChar ':' s
    let (tail, _, s) := readGroups (7 - head.length) 0 s
    some (head ++ List.replicate (8 - head.length - tail.length) 0 ++ tail, s)

def readPort : Reader ℕ := fun s ↦ do
  let (_, s) ← readGivenChar ':' s
  readNumber 10 65536 none true s

def readScopeId : Reader ℕ := fun s ↦ do
  let (_, s) ← readGivenChar '%' s
  readNumber 10 4294967296 none true s

inductive SocketAddr
  | v4 (octets : List ℕ) (port : ℕ)
  | v6 (groups : List ℕ) (scopeId port : ℕ)
  deriving DecidableEq

def readSocketAddrV4 : Reader SocketAddr := fun s ↦ do
  let (octets, s) ← readIpv4Addr s
  let (port, s) ← readPort s
  some (.v4 octets port, s)

def readSocketAddrV6 : Reader SocketAddr := fun s ↦ do
  let (_, s) ← readGivenChar '[' s
  let (groups, s) ← readIpv6Addr s
  let (scopeId, s) := (readScopeId s).getD (0, s)
  let (_, s) ← readGivenChar ']' s
  let (port, s) ← readPort s
  some (.v6 groups scopeId port, s)

/-- `str::parse::<SocketAddr>`, which reads the whole text. -/
def parse (s : String) : Option SocketAddr :=
  match readSocketAddrV4 s.toList <|> readSocketAddrV6 s.toList with
  | some (addr, []) => some addr
  | _ => none

example : parse "0.0.0.0:69" = some (.v4 [0, 0, 0, 0] 69) := by decide

example : parse "[::1%2]:080" = some (.v6 [0, 0, 0, 0, 0, 0, 0, 1] 2 80) := by decide

example : parse "10.0.0.01:69" = none := by decide

end BootyCall.Lib.Net
