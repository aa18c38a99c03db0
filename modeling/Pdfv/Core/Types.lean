import Pdfv.Basic.Bytes
import Pdfv.Basic.OrdMap
/-!
# Shared types

The types the parser shares with the rest of the library: bounded texts and identifiers, resource
limits, parser errors, object keys and the facts and warnings retained for validation. Machine
integers are natural numbers; the bounds that a value carries (`ObjectKey`) are fields.
-/

namespace Pdfv

/-- The largest value of a `u16`, `u32`, `u64` or 64-bit `usize`, plus one. -/
abbrev u8Size : Nat := 2 ^ 8
abbrev u16Size : Nat := 2 ^ 16
abbrev u32Size : Nat := 2 ^ 32
abbrev u64Size : Nat := 2 ^ 64

/-- `isize::MAX + 1`: no `Vec` holds this many bytes. -/
abbrev isizeSize : Nat := 2 ^ 63

/-- `u64::try_from(value).unwrap_or(u64::MAX)`, and the result of a saturating addition. -/
def saturateU64 (value : Nat) : Nat :=
  min value (u64Size - 1)

theorem saturateU64_of_lt {value : Nat} (h : value < u64Size) : saturateU64 value = value :=
  Nat.min_eq_left (Nat.le_sub_one_of_lt h)

theorem saturateU64_add (m n : Nat) : saturateU64 (saturateU64 m + n) = saturateU64 (m + n) := by
  unfold saturateU64
  omega

/-- Diagnostic text (`BoundedText::unchecked`). -/
structure BoundedText where
  text : String
deriving DecidableEq, Repr

/-- The shorthand `bounded` of the parser. -/
def bounded (value : String) : BoundedText :=
  ⟨value⟩

/-- Identifier text. -/
structure Identifier where
  text : String
deriving DecidableEq, Repr

def maxIdentifierBytes : Nat := 128

/-- The characters an identifier may contain: ASCII alphanumerics and `-`, `_`, `.`, `:`. -/
def isIdentifierByte (b : UInt8) : Bool :=
  isDigit b || (65 ≤ b && b ≤ 90) || (97 ≤ b && b ≤ 122) || b = 45 || b = 95 || b = 46 || b = 58

/-- `Identifier::new`: nothing where the source returns a `ConfigError`. -/
def Identifier.new (value : String) : Option Identifier :=
  let bytes := utf8 value
  if bytes.isEmpty || bytes.length > maxIdentifierBytes || !bytes.all isIdentifierByte then none
  else some ⟨value⟩

/-- A path of the operating system: its bytes. -/
structure PathBuf where
  bytes : Bytes
deriving DecidableEq, Repr

/-- `Path::display`. -/
def PathBuf.display (path : PathBuf) : String :=
  utf8Lossy path.bytes

/-- `std::io::ErrorKind`, as far as it is looked at. -/
inductive IoErrorKind where
  | alreadyExists
  | other
deriving DecidableEq, Repr

/-- `std::io::Error`: the kind and the displayed text. -/
structure IoError where
  kind : IoErrorKind
  text : String
deriving DecidableEq, Repr

/-- Parser-specific error. -/
inductive ParseError where
  | limitExceeded (limit : String)
  | arithmeticOverflow (context : String)
  | malformed (message : BoundedText)
  | missingObject (message : BoundedText)
  | unsupportedFilter (filter : BoundedText)
  | streamDecode (message : BoundedText)
deriving DecidableEq, Repr

/-- A malformed-syntax error with a fixed message. -/
def ParseError.bad (message : String) : ParseError :=
  .malformed (bounded message)

/-- Indirect object key: a non-zero `u32` object number and a `u16` generation. -/
structure ObjectKey where
  number : Nat
  generation : Nat
  number_pos : 0 < number
  number_lt : number < u32Size
  generation_lt : generation < u16Size
deriving DecidableEq, Repr

namespace ObjectKey

theorem one_lt_u32Size : 1 < u32Size := by
  decide

theorem u16Size_pos : 0 < u16Size := by
  decide

/-- The key `1 0`. -/
def first : ObjectKey :=
  ⟨1, 0, Nat.one_pos, one_lt_u32Size, u16Size_pos⟩

/-- The key of a number with generation 0; the first key when there is none. -/
def ofNumber (number : Nat) : ObjectKey :=
  if hpos : 0 < number then
    if hlt : number < u32Size then ⟨number, 0, hpos, hlt, u16Size_pos⟩ else first
  else first

/-- Keys are ordered by number, then by generation. -/
instance : Ord ObjectKey where
  compare := compareLex (compareOn ObjectKey.number) (compareOn ObjectKey.generation)

instance : Std.TransOrd ObjectKey :=
  inferInstanceAs (Std.TransCmp (compareLex (compareOn ObjectKey.number)
    (compareOn ObjectKey.generation)))

instance : Std.LawfulEqOrd ObjectKey where
  compare_self := Std.ReflCmp.compare_self
  eq_of_compare {a b} h := by
    obtain ⟨hn, hg⟩ := compareLex_eq_eq.mp h
    cases a
    cases b
    cases Std.compare_eq_iff_eq.mp hn
    cases Std.compare_eq_iff_eq.mp hg
    rfl

end ObjectKey

/-- Location of an object in the input or in the validation model. -/
structure ObjectLocation where
  object : Option ObjectKey
  offset : Option Nat
  path : Option BoundedText
deriving DecidableEq, Repr

/-- PDF version. -/
structure PdfVersion where
  major : Nat
  minor : Nat
deriving DecidableEq, Repr

/-- Cross-reference parser fact. -/
inductive XrefFact where
  | eolMarkersComply
  | malformedClassic
  | xrefStreamParsed (entries compressedEntries : Nat)
  | prevChain (offset : Nat)
  | hybridReference (offset : Nat)
  | objectStreamParsed
deriving DecidableEq, Repr

/-- Stream parser fact. -/
inductive StreamFact where
  | length (declared discovered : Nat)
  | keywordSpacing (streamKeywordCrlfCompliant endstreamKeywordEolCompliant : Bool)
  | decoded (bytes : Nat)
  | filterDecoded (filter : Identifier) (inputBytes outputBytes : Nat)
  | filterMetadataMode (filter : Identifier) (bytes : Nat)
deriving DecidableEq, Repr

/-- XMP parser fact. -/
inductive XmpFact where
  | packetParsed (bytes namespaces claims : Nat)
  | missingPacketWrapper
  | flavourClaim (family : Identifier) (part : Nat) (conformance : Option Identifier)
      (partPrefix : Identifier) (displayFlavour namespaceUri : BoundedText)
      (rev : Option BoundedText) (revPrefix conformancePrefix : Option Identifier)
  | packetHeader (bytes encoding : Option BoundedText) (actualEncoding : Identifier)
  | rdfProperty (namespaceUri : BoundedText) (namePrefix name : Identifier)
      (value : Option BoundedText) (arrayKind : Option Identifier) (xmlLang : Option BoundedText)
  | duplicateClaim (namespaceUri : BoundedText) (property : Identifier)
  | malformed (reason : BoundedText)
  | hostileXmlRejected (reason : BoundedText)
deriving DecidableEq, Repr

/-- Parser facts retained for validation. -/
inductive ParseFact where
  | header (offset : Nat) (version : PdfVersion) (hadLeadingBytes : Bool)
  | postEofData (bytes : Nat)
  | xref (section_ : ObjectLocation) (fact : XrefFact)
  | stream (object : ObjectKey) (fact : StreamFact)
  | encryption (encrypted : Bool) (handler : Option Identifier) (version revision : Option Nat)
      (algorithm : Option Identifier) (decrypted : Bool)
  | xmp (object : ObjectKey) (fact : XmpFact)
deriving DecidableEq, Repr

/-- Validation warning. -/
inductive ValidationWarning where
  | parseFactCapReached (cap : Nat)
  | incompatibleProfile (profileId : Identifier) (reason : BoundedText)
  | autoDetection (message : BoundedText)
  | general (message : BoundedText)
deriving DecidableEq, Repr

/-- Parser and validation resource limits. -/
structure ResourceLimits where
  maxFileBytes : Nat := 256 * 1024 * 1024
  maxObjects : Nat := 1000000
  maxObjectDepth : Nat := 128
  maxArrayLen : Nat := 65536
  maxDictEntries : Nat := 16384
  maxNameBytes : Nat := 127
  maxStringBytes : Nat := 1048576
  maxDecryptedStringBytes : Nat := 1048576
  maxStreamDeclaredBytes : Nat := 128 * 1024 * 1024
  maxStreamDecodeBytes : Nat := 256 * 1024 * 1024
  maxDecryptedStreamBytes : Nat := 256 * 1024 * 1024
  maxEncryptionDictEntries : Nat := 64
  memorySourceThresholdBytes : Nat := 16 * 1024 * 1024
  maxParseFacts : Nat := 100000
  maxXmpBytes : Nat := 4 * 1024 * 1024
  maxXmpElements : Nat := 50000
  maxXmpDepth : Nat := 32
  maxXmpAttributes : Nat := 64
  maxXmpNamespaces : Nat := 256
  maxXmpTextBytes : Nat := 4096
  maxXmpProcessingInstructions : Nat := 16
  maxXmpProperties : Nat := 10000
  maxContentStreamOps : Nat := 100000
  maxContentStreamOperandCount : Nat := 256
  maxContentStreamOperandBytes : Nat := 16 * 1024
  maxContentStreamOperatorNameBytes : Nat := 32
  maxInlineImageBytes : Nat := 8 * 1024 * 1024
  maxGraphicsStateDepth : Nat := 64
  maxResourceContexts : Nat := 10000
  maxStructureNodes : Nat := 100000
  maxStructureDepth : Nat := 128
  maxParentTreeEntries : Nat := 100000
deriving DecidableEq, Repr

end Pdfv
