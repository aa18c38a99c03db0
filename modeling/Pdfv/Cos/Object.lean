import Pdfv.Core.Types
import Pdfv.Basic.F64
/-!
# COS objects

The object model of a PDF file: names, strings, arrays, dictionaries, streams and references, the
object store and the trailers. A dictionary is a bare ordered list (`OrdList`), because the object
type nests it; the object store is an `OrdMap`.
-/

namespace Pdfv

/-- PDF name bytes after hash escape decoding. -/
structure PdfName where
  bytes : Bytes
deriving DecidableEq, Repr

namespace PdfName

/-- Names are ordered by their bytes. -/
instance : Ord PdfName where
  compare := compareOn PdfName.bytes

instance : Std.TransOrd PdfName :=
  inferInstanceAs (Std.TransCmp (compareOn PdfName.bytes))

instance : Std.LawfulEqOrd PdfName where
  compare_self := Std.ReflCmp.compare_self
  eq_of_compare {a b} h := by
    have hb : compare a.bytes b.bytes = .eq := h
    cases a
    cases b
    cases Std.compare_eq_iff_eq.mp hb
    rfl

/-- A name from a text, without a length check. -/
def fromStatic (value : String) : PdfName :=
  ⟨utf8 value⟩

/-- `PdfName::new`: the byte limit is checked. -/
def new (bytes : Bytes) (limits : ResourceLimits) : Except ParseError PdfName :=
  if bytes.length > limits.maxNameBytes then .error (.limitExceeded "max_name_bytes")
  else .ok ⟨bytes⟩

/-- `PdfName::matches`. -/
def matchesText (name : PdfName) (value : String) : Bool :=
  name.bytes = utf8 value

end PdfName

/-- PDF string bytes. -/
structure PdfString where
  bytes : Bytes
deriving DecidableEq, Repr

/-- `PdfString::new`: the byte limit is checked. -/
def PdfString.new (bytes : Bytes) (limits : ResourceLimits) : Except ParseError PdfString :=
  if bytes.length > limits.maxStringBytes then .error (.limitExceeded "max_string_bytes")
  else .ok ⟨bytes⟩

/-- Structured parameters for one stream filter. -/
structure DecodeParams where
  predictor : Nat := 1
  colors : Nat := 1
  bitsPerComponent : Nat := 8
  columns : Nat := 1
  earlyChange : Nat := 1
  cryptFilterName : Option PdfName := none
deriving DecidableEq, Repr

/-- Raw stream byte range in `rawSource`. -/
structure StreamRange where
  start : Nat
  stop : Nat
deriving DecidableEq, Repr

/-- Parsed stream object over the dictionary type `D`. `rawSource` is the shared buffer in which
`rawRange` lies. -/
structure StreamOf (D : Type) where
  dictionary : D
  rawRange : StreamRange
  declaredLength : Option Nat
  discoveredLength : Nat
  filters : List PdfName
  decodeParams : List DecodeParams
  rawSource : Bytes
  streamKeywordCrlfCompliant : Bool
  endstreamKeywordEolCompliant : Bool

/-- PDF COS object. -/
inductive CosObject where
  | null
  | boolean (value : Bool)
  | integer (value : Int)
  | real (value : F64)
  | name (value : PdfName)
  | string (value : PdfString)
  | array (values : List CosObject)
  | dictionary (entries : List (PdfName × CosObject))
  | stream (value : StreamOf (List (PdfName × CosObject)))
  | reference (key : ObjectKey)

/-- Induction over nested objects: a container gets the hypothesis for every value inside. -/
theorem CosObject.nestedInduction {P : CosObject → Prop} (hnull : P .null)
    (hboolean : ∀ b, P (.boolean b)) (hinteger : ∀ i, P (.integer i)) (hreal : ∀ r, P (.real r))
    (hname : ∀ n, P (.name n)) (hstring : ∀ s, P (.string s)) (hreference : ∀ k, P (.reference k))
    (harray : ∀ values, (∀ v ∈ values, P v) → P (.array values))
    (hdictionary : ∀ entries, (∀ e ∈ entries, P e.2) → P (.dictionary entries))
    (hstream : ∀ stream, (∀ e ∈ stream.dictionary, P e.2) → P (.stream stream))
    (object : CosObject) : P object := by
  refine @CosObject.rec P (fun values => ∀ v ∈ values, P v) (fun entries => ∀ e ∈ entries, P e.2)
    (fun stream => ∀ e ∈ stream.dictionary, P e.2) (fun entry => P entry.2)
    hnull hboolean hinteger hreal hname hstring harray hdictionary hstream hreference
    ?_ ?_ ?_ ?_ ?_ ?_ object
  · intro v hv
    cases hv
  · intro head tail hhead htail v hv
    rcases List.mem_cons.mp hv with rfl | hv
    · exact hhead
    · exact htail v hv
  · intro e he
    cases he
  · intro head tail hhead htail e he
    rcases List.mem_cons.mp he with rfl | he
    · exact hhead
    · exact htail e he
  · intro entries _ _ _ _ _ _ _ _ hentries
    exact hentries
  · intro name value hvalue
    exact hvalue

/-- PDF dictionary: entries in key order. -/
abbrev Dictionary := List (PdfName × CosObject)

/-- Parsed stream object. -/
abbrev StreamObject := StreamOf Dictionary

namespace Dictionary

/-- `Dictionary::insert`. -/
def insert (dictionary : Dictionary) (key : PdfName) (value : CosObject) : Dictionary :=
  OrdList.insert key value dictionary

/-- `Dictionary::get`. -/
def get (dictionary : Dictionary) (key : String) : Option CosObject :=
  OrdList.lookup (PdfName.fromStatic key) dictionary

end Dictionary

namespace CosObject

/-- `CosObject::as_dictionary`. -/
def asDictionary : CosObject → Option Dictionary
  | .dictionary entries => some entries
  | .stream value => some value.dictionary
  | _ => none

end CosObject

/-- Parsed indirect object. -/
structure IndirectObject where
  key : ObjectKey
  offset : Nat
  object : CosObject

/-- Parsed trailer dictionary. -/
structure Trailer where
  dictionary : Dictionary
  offset : Nat

/-- Indirect object storage keyed by object number and generation. -/
abbrev ObjectStore := OrdMap ObjectKey IndirectObject

namespace ObjectStore

/-- `ObjectStore::insert`. -/
def insertObject (objects : ObjectStore) (object : IndirectObject) : ObjectStore :=
  objects.insert object.key object

end ObjectStore

/-- Parsed PDF document. -/
structure ParsedDocument where
  version : PdfVersion
  catalog : Option ObjectKey
  objects : ObjectStore
  trailers : List Trailer
  parseFacts : List ParseFact
  warnings : List ValidationWarning

/-- `ParsedDocument::is_encrypted`. -/
def ParsedDocument.isEncrypted (doc : ParsedDocument) : Bool :=
  doc.parseFacts.any fun fact =>
    match fact with
    | .encryption true _ _ _ _ false => true
    | _ => false

/-! ## Reading dictionary entries -/

/-- `integer_from_dictionary`. -/
def integerFromDictionary (dictionary : Dictionary) (key : String) : Option Int :=
  match dictionary.get key with
  | some (.integer value) => some value
  | _ => none

/-- `u64::try_from(value)` for an `i64`. -/
def u64OfInt (value : Int) : Option Nat :=
  if 0 ≤ value then some value.toNat else none

/-- `non_negative_u64_from_dictionary`. -/
def nonNegativeU64FromDictionary (dictionary : Dictionary) (key : String) :
    Except ParseError Nat :=
  match integerFromDictionary dictionary key with
  | none => .error (.malformed ⟨s!"missing integer dictionary key {key}"⟩)
  | some value =>
    match u64OfInt value with
    | some value => .ok value
    | none => .error (.malformed ⟨s!"invalid non-negative dictionary key {key}"⟩)

/-- `optional_non_negative_offset`. -/
def optionalNonNegativeOffset (dictionary : Dictionary) (key : String) :
    Except ParseError (Option Nat) :=
  match integerFromDictionary dictionary key with
  | none => .ok none
  | some value =>
    match u64OfInt value with
    | some value => .ok (some value)
    | none => .error (.malformed ⟨s!"invalid xref offset dictionary key {key}"⟩)

/-- `object_ref_from_dictionary`. -/
def objectRefFromDictionary (dictionary : Dictionary) (key : String) : Option ObjectKey :=
  match dictionary.get key with
  | some (.reference key) => some key
  | _ => none

/-- Whether an entry is the given name, `matches!(.., Some(Name(n)) if n.matches(value))`. -/
def entryIsName (dictionary : Dictionary) (key value : String) : Bool :=
  match dictionary.get key with
  | some (.name name) => name.matchesText value
  | _ => false

end Pdfv
