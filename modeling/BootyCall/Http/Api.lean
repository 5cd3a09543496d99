import BootyCall.Http.Scripts
import BootyCall.Lib.Utf8

namespace BootyCall.Http.Api

open BootyCall.Core State Server Scripts

/-- The headers of a request, the first value of a name before the others; names are in lower
case. -/
abbrev HeaderMap := List (String × List UInt8)

abbrev StatusCode := ℕ

def unauthorized : StatusCode := 401
def badRequest : StatusCode := 400

structure OverrideRequest where
  mac : String
  target : String

def bytes (s : String) : List UInt8 := s.toByteArray.data.toList

/-- A missing header and one that is not text count as an empty token. -/
def provided (headers : HeaderMap) : String :=
  ((headers.lookup "x-api-token").bind toStr).getD ""

section Handlers

variable (sha256 : List UInt8 → Vector UInt8 32)

def constantTimeEq (a b : List UInt8) : Bool :=
  let diff := ((sha256 a).toList.zip (sha256 b).toList).foldl
    (fun diff p ↦ diff ||| (p.1 ^^^ p.2)) 0
  diff == 0

def checkApiToken (config : Config) (headers : HeaderMap) : Except StatusCode Unit :=
  match config.server.apiToken with
  | some expected =>
    if constantTimeEq sha256 (bytes (provided headers)) (bytes expected) then .ok ()
    else .error unauthorized
  | none => .ok ()

/-- `body` is what the JSON extractor makes of the request before the handler runs. -/
def apiOverrideHandler (config : Config) (now : SystemTime) (headers : HeaderMap)
    (body : Except StatusCode OverrideRequest) (store : StateStore) :
    StateStore × Except StatusCode Unit :=
  match body with
  | .error status => (store, .error status)
  | .ok payload =>
    match checkApiToken sha256 config headers with
    | .error status => (store, .error status)
    | .ok () =>
      match apiOverride true config now payload.mac payload.target store with
      | (store, true) => (store, .ok ())
      | (store, false) => (store, .error badRequest)

def apiStatusHandler (config : Config) (headers : HeaderMap) (hosts : List HostState) :
    Except StatusCode (List HostState × List HostConfig) :=
  match checkApiToken sha256 config headers with
  | .error status => .error status
  | .ok () => .ok (hosts, config.hosts)

def apiLogsHandler (config : Config) (headers : HeaderMap) (store : StateStore) :
    Except StatusCode (List LogEvent) :=
  match checkApiToken sha256 config headers with
  | .error status => .error status
  | .ok () => .ok store.listLogs

variable {sha256}

theorem foldl_diff (ps : List (UInt8 × UInt8)) (diff : UInt8) :
    ps.foldl (fun diff p ↦ diff ||| (p.1 ^^^ p.2)) diff = 0 ↔ diff = 0 ∧ ∀ p ∈ ps, p.1 = p.2 := by
  induction ps generalizing diff with
  | nil => simp
  | cons p ps ih =>
    rw [List.foldl_cons, ih, UInt8.or_eq_zero_iff, UInt8.xor_eq_zero_iff, List.forall_mem_cons,
      and_assoc]

theorem constantTimeEq_iff {a b : List UInt8} :
    constantTimeEq sha256 a b = true ↔ sha256 a = sha256 b := by
  have hlen : (sha256 a).toList.length = (sha256 b).toList.length := by simp
  rw [constantTimeEq, beq_iff_eq, foldl_diff, ← Vector.toList_inj]
  constructor
  · rintro ⟨-, h⟩
    have hall : List.Forall₂ (· = ·) (sha256 a).toList (sha256 b).toList :=
      List.forall₂_iff_zip.mpr ⟨hlen, fun {x y} hxy ↦ h (x, y) hxy⟩
    rwa [List.forall₂_eq_eq_eq] at hall
  · intro h
    rw [h, List.zip_eq_zipWith, List.zipWith_self]
    simp

theorem bytes_injective : Function.Injective bytes := by
  intro s t h
  have hs := Lib.Utf8.fromUTF8_toByteArray s
  have ht := Lib.Utf8.fromUTF8_toByteArray t
  rw [bytes, bytes] at h
  rw [h, ht] at hs
  exact (Option.some.inj hs).symm

theorem bytes_toStr {value : List UInt8} {s : String} (h : toStr value = some s) :
    bytes s = value := by
  rw [toStr] at h
  split at h
  · next hall =>
    obtain rfl := Option.some.inj h
    rw [bytes, Lib.Utf8.toByteArray_toList, String.toList_ofList, List.flatMap_map]
    refine (List.flatMap_congr fun b hb ↦ ?_).trans (List.flatMap_singleton' value)
    have hvisible := List.all_eq_true.mp hall b hb
    simp only [decide_eq_true_eq, UInt8.lt_iff_toNat_lt, ← UInt8.toNat_inj] at hvisible
    have hnat : (Char.ofNat b.toNat).toNat = b.toNat := by
      have hlt := b.toNat_lt
      exact Lib.Utf8.toNat_ofNat (by omega)
    have hascii : (Char.ofNat b.toNat).toNat < 128 := by
      rw [hnat]
      rcases hvisible with ⟨-, hlt⟩ | htab
      · exact Nat.lt_of_lt_of_le hlt (by decide)
      · rw [htab]
        decide
    rw [Lib.Utf8.utf8EncodeChar_ascii hascii, hnat, UInt8.ofNat_toNat]
  · cases h

theorem provided_ne {headers : HeaderMap} {token : String} (hne : token ≠ "")
    (hheader : headers.lookup "x-api-token" ≠ some (bytes token)) : provided headers ≠ token := by
  intro h
  rw [provided] at h
  cases hvalue : (headers.lookup "x-api-token").bind toStr with
  | none =>
    rw [hvalue] at h
    exact hne h.symm
  | some s =>
    rw [hvalue, Option.getD_some] at h
    obtain ⟨value, hlookup, hs⟩ := Option.bind_eq_some_iff.mp hvalue
    rw [hlookup, ← h, bytes_toStr hs] at hheader
    exact hheader rfl

/-- A request without the exact token is refused, as far as digests tell tokens apart. -/
theorem checkApiToken_refused {config : Config} {headers : HeaderMap} {token : String}
    (htoken : config.server.apiToken = some token) (hne : token ≠ "")
    (hheader : headers.lookup "x-api-token" ≠ some (bytes token))
    (hdigest : sha256 (bytes (provided headers)) = sha256 (bytes token) →
      bytes (provided headers) = bytes token) :
    checkApiToken sha256 config headers = .error unauthorized := by
  have hdiffer : ¬constantTimeEq sha256 (bytes (provided headers)) (bytes token) = true := by
    rw [constantTimeEq_iff]
    intro h
    exact provided_ne hne hheader (bytes_injective (hdigest h))
  simp only [checkApiToken, htoken]
  rw [if_neg hdiffer]

end Handlers

end BootyCall.Http.Api
