import ReceiptScanner.Percent.Encoding

/-!
# Object paths

The path of an object is encoded once, signed, and requested as it is. Texts are bytes.
-/

namespace ReceiptScanner

namespace S3ImageStore

/-- What the path of an object depends on. -/
structure Config where
  bucket : List UInt8
  pathStyle : Bool

/-- The bytes of an ASCII text. -/
def ascii (text : String) : List UInt8 := text.toList.map fun c => UInt8.ofNat c.toNat

/-- `hex`. -/
def hex : List UInt8 := ascii "0123456789ABCDEF"

/-- A-Z a-z 0-9 - . _ ~ -/
def unreserved (c : UInt8) : Bool :=
  (65 ≤ c && c ≤ 90) || (97 ≤ c && c ≤ 122) || (48 ≤ c && c ≤ 57) || c == 45 || c == 46 ||
    c == 95 || c == 126

/-- AWS's UriEncode of a full path; the slash is kept. -/
def uriEncodePath (path : List UInt8) : List UInt8 :=
  path.flatMap fun c =>
    if unreserved c || c == 47 then [c]
    else [37, hex.getD (c >>> 4).toNat 0, hex.getD (c &&& 0x0F).toNat 0]

/-- The path of an object, signed and requested. -/
def canonicalUri (config : Config) (key : List UInt8) : List UInt8 :=
  uriEncodePath (if config.pathStyle then 47 :: config.bucket ++ 47 :: key else 47 :: key)

/-- Unreserved bytes and the slash stand for themselves. -/
def kept (c : UInt8) : Bool := unreserved c || c == 47

/-- The encoder writes percent escapes. -/
theorem uriEncodePath_eq (path : List UInt8) :
    uriEncodePath path = path.flatMap (Percent.escape kept) := by
  have digits : ∀ n : Fin 256, hex.getD (UInt8.ofNat n >>> 4).toNat 0 =
      Percent.hexDigit (n / 16) ∧ hex.getD (UInt8.ofNat n &&& 0x0F).toNat 0 =
      Percent.hexDigit (n % 16) := by decide +kernel
  have each : (fun c => if unreserved c || c == 47 then [c]
      else [37, hex.getD (c >>> 4).toNat 0, hex.getD (c &&& 0x0F).toNat 0]) =
      Percent.escape kept := by
    funext c
    have ofByte := digits ⟨c.toNat, c.toNat_lt⟩
    simp only [UInt8.ofNat_toNat] at ofByte
    rw [ofByte.1, ofByte.2]
    rfl
  rw [uriEncodePath, each]

/-- A path is encoded without loss. -/
structure LosslessPath (path : List UInt8) : Prop where
  escaped : Percent.Escaped kept (uriEncodePath path)
  decoded : Percent.decode (uriEncodePath path) = some path

theorem lossless (path : List UInt8) : LosslessPath path := by
  have percent : kept Percent.sign = false := by decide
  constructor
  · rw [uriEncodePath_eq]
    exact Percent.escaped_flatMap_escape path
  · rw [uriEncodePath_eq]
    exact Percent.decode_flatMap_escape percent path

/-- Paths are encoded without loss, so two keys never share one. -/
theorem paths_lossless : (∀ path, LosslessPath path) ∧
    ∀ config key other, canonicalUri config key = canonicalUri config other → key = other := by
  refine ⟨lossless, fun config key other same => ?_⟩
  rw [canonicalUri, canonicalUri, uriEncodePath_eq, uriEncodePath_eq] at same
  have paths := Percent.flatMap_escape_injective (by decide) same
  cases style : config.pathStyle with
  | true => simpa [style] using paths
  | false => simpa [style] using paths

end S3ImageStore

end ReceiptScanner
