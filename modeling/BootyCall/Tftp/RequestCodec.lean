import BootyCall.Tftp.ReplyCodec

namespace BootyCall.Tftp.RequestCodec

open Lib.Utf8 Wire Request ReplyCodec

/-- The value of the last pair that names the option and parses. -/
def lastValue (name : String) (bits : ℕ) (options : List (String × String)) : Option ℕ :=
  options.reverse.findSome? fun o ↦
    if toLowercase o.1 = name then parseUnsigned bits o.2 else none

variable {name : String} {bits : ℕ} {options : List (String × String)}

theorem lastValue_concat (o : String × String) :
    lastValue name bits (options ++ [o]) =
      (if toLowercase o.1 = name then parseUnsigned bits o.2 else none).or
        (lastValue name bits options) := by
  rw [lastValue, List.reverse_append, List.reverse_singleton, List.singleton_append,
    List.findSome?_cons]
  split <;> simp_all [lastValue]

def decoded (filename mode : String) (options : List (String × String)) : RrqRequest where
  filename := filename
  mode := mode
  blksize := lastValue "blksize" 64 options
  timeout := lastValue "timeout" 64 options
  tsizeRequested := options.any fun o ↦ toLowercase o.1 == "tsize"
  windowsize := lastValue "windowsize" 16 options

theorem applyOption_eq (req : RrqRequest) (key val : String) :
    applyOption req key val =
      { req with
        blksize := (if key = "blksize" then parseUnsigned 64 val else none).or req.blksize
        timeout := (if key = "timeout" then parseUnsigned 64 val else none).or req.timeout
        tsizeRequested := req.tsizeRequested || key == "tsize"
        windowsize :=
          (if key = "windowsize" then parseUnsigned 16 val else none).or req.windowsize } := by
  rw [applyOption]
  split
  · next hk =>
    subst hk
    cases parseUnsigned 64 val <;> simp
  · split
    · next hk =>
      subst hk
      cases parseUnsigned 64 val <;> simp
    · split
      · next hk =>
        subst hk
        simp
      · next hne =>
        have htsize : (key == "tsize") = false := beq_false_of_ne hne
        split
        · next hk =>
          subst hk
          cases parseUnsigned 16 val <;> simp
        · simp [htsize]

def applyAll (req : RrqRequest) (options : List (String × String)) : RrqRequest :=
  options.foldl (fun req o ↦ applyOption req (toLowercase o.1) o.2) req

theorem applyAll_decoded (filename mode : String) (options : List (String × String)) :
    applyAll { filename, mode } options = decoded filename mode options := by
  induction options using List.reverseRecOn with
  | nil => rfl
  | append_singleton options o ih =>
    rw [applyAll] at ih ⊢
    rw [List.foldl_append, ih, List.foldl_cons, List.foldl_nil, applyOption_eq]
    simp only [decoded, lastValue_concat, List.any_append, List.any_cons, List.any_nil,
      Bool.or_false]

theorem fromUtf8_asBytes (s : String) : fromUtf8 (asBytes s) = some s := fromUTF8_toByteArray s

theorem parseOptions_flatten (options : List (String × String)) (req : RrqRequest) :
    parseOptions ((flatten options).map asBytes) req = some (applyAll req options) := by
  induction options generalizing req with
  | nil => rfl
  | cons o options ih =>
    rw [flatten, List.flatMap_cons, List.map_append, List.map_cons, List.map_singleton,
      List.cons_append, List.singleton_append, parseOptions, fromUtf8_asBytes, fromUtf8_asBytes]
    exact ih _

/-- Decoding undoes encoding: of repeated options the last that parses counts. -/
theorem parseRrq_makeRrqPacket (filename mode : String) (options : List (String × String))
    (hf : NulFree filename) (hm : NulFree mode)
    (ho : ∀ o ∈ options, NulFree o.1 ∧ NulFree o.2) :
    parseRrq (makeRrqPacket filename mode options) = some (decoded filename mode options) := by
  have hop : opcode (makeRrqPacket filename mode options) = some opRrq := by
    simp [makeRrqPacket, toBeBytes, opcode, fromBeBytes_toBeBytes]
  have hbody : (makeRrqPacket filename mode options).drop 2 =
      terminated (filename :: mode :: flatten options) := by
    rw [terminated, List.flatMap_cons, List.flatMap_cons]
    have h := terminated_flatten options
    rw [terminated] at h
    rw [h]
    simp [makeRrqPacket, toBeBytes]
  have hlen : ¬(makeRrqPacket filename mode options).length < 4 := by
    simp [makeRrqPacket, toBeBytes]
    omega
  have hnul : ∀ s ∈ filename :: mode :: flatten options, NulFree s := by
    intro s hs
    rcases List.mem_cons.mp hs with rfl | hs
    · exact hf
    · rcases List.mem_cons.mp hs with rfl | hs
      · exact hm
      · exact nulFree_flatten ho s hs
  rw [parseRrq, if_neg (by simp [hop, hlen]), hbody, splitNul_terminated _ hnul, List.map_cons,
    List.map_cons]
  dsimp only
  rw [fromUtf8_asBytes, fromUtf8_asBytes]
  exact (parseOptions_flatten options _).trans (congrArg some (applyAll_decoded _ _ _))

theorem parseRrq_makeRrqPacket_repeated :
    parseRrq (makeRrqPacket "boot" "octet"
      [("BlkSize", "1024"), ("tsize", ""), ("blksize", "512x"), ("", "")]) =
      some { filename := "boot", mode := "octet", blksize := some 1024, tsizeRequested := true } :=
  (parseRrq_makeRrqPacket "boot" "octet" _ (by decide) (by decide) (by decide)).trans (by decide)

end BootyCall.Tftp.RequestCodec
