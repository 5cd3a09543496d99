import BootyCall.Core.Config
import BootyCall.Lib.Json

namespace BootyCall.Extractor.Metadata

open BootyCall.Core Path Lib Codec Json

/-- The cache key of a host's artifacts. The path is the text that the config gives for it. -/
structure CacheMetadata where
  imagePath : String
  mtimeSecs : ℕ
  size : ℕ
  kernelOverride : Option String
  initrdOverride : Option String
  deriving DecidableEq

/-- `serde_json` for the metadata: a file that was written in part is not read as anything. -/
structure Serde where
  toStringPretty : CacheMetadata → List UInt8
  fromStr : List UInt8 → Option CacheMetadata
  fromStr_toStringPretty : ∀ m, fromStr (toStringPretty m) = some m
  fromStr_cut : ∀ m content, content <+: toStringPretty m → content ≠ toStringPretty m →
    fromStr content = none

/-- `PathBuf` compares paths by their components. -/
def samePath (p q : String) : Prop :=
  (PathBuf.ofString p).components = (PathBuf.ofString q).components

instance (p q : String) : Decidable (samePath p q) :=
  inferInstanceAs (Decidable ((PathBuf.ofString p).components = (PathBuf.ofString q).components))

def imagePathField : Format UInt8 String := text.after (ascii "\x7b\n  \"image_path\": ")

def mtimeField : Format UInt8 ℕ := (number 44 (by decide)).after (ascii ",\n  \"mtime_secs\": ")

def sizeField : Format UInt8 ℕ := (number 44 (by decide)).after (ascii "\n  \"size\": ")

def kernelField : Format UInt8 (Option String) :=
  nullableText.after (ascii "\n  \"kernel_override\": ")

def initrdField : Format UInt8 (Option String) :=
  (nullableText.after (ascii ",\n  \"initrd_override\": ")).before (ascii "\n\x7d")

def layout : Format UInt8 CacheMetadata :=
  (imagePathField.pair (mtimeField.pair (sizeField.pair (kernelField.pair initrdField)))).refine
    (fun m ↦ (m.imagePath, m.mtimeSecs, m.size, m.kernelOverride, m.initrdOverride))
    (fun p ↦ some ⟨p.1, p.2.1, p.2.2.1, p.2.2.2.1, p.2.2.2.2⟩) fun _ ↦ rfl

def prettyJson : Serde where
  toStringPretty := layout.print
  fromStr := layout.decode
  fromStr_toStringPretty := layout.decode_print
  fromStr_cut _ _ := layout.decode_prefix

example : layout.print ⟨"/a", 7, 10, none, some "b"⟩ = ascii ("\x7b\n  \"image_path\": \"/a\",\n" ++
    "  \"mtime_secs\": 7,\n  \"size\": 10,\n  \"kernel_override\": null,\n" ++
    "  \"initrd_override\": \"b\"\n\x7d") := by decide +kernel

end BootyCall.Extractor.Metadata
