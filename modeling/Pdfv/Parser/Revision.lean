import Pdfv.Parser.Reading
import Pdfv.Parser.Document
/-!
# Files made of revisions

The text of a file with incremental updates: a header, then one revision after the other, each with
its objects, an optional cross-reference section, a trailer, `startxref` and `%%EOF`. The layout is
spelled out; the texts of an object and of a trailer dictionary are those that the object parser reads
to their ends whatever stands around them.
-/

namespace Pdfv

/-- White space and comments between two parts of a file. -/
structure Gap where
  bytes : Bytes
  blank : Blank bytes

/-- A line end. -/
inductive Eol where
  | lf | cr | crlf

def Eol.bytes : Eol → Bytes
  | lf => [10]
  | cr => [13]
  | crlf => [13, 10]

/-- A non-empty run of digits. -/
structure Numeral where
  bytes : Bytes
  digits : ∀ b ∈ bytes, isDigit b = true
  ne : bytes ≠ []

def Numeral.value (numeral : Numeral) : Nat :=
  digitsValue numeral.bytes

/-! ## Cross-reference sections -/

/-- The two-byte end of a cross-reference entry. -/
inductive EntryEnd where
  | spaceCr | spaceLf | crlf

def EntryEnd.bytes : EntryEnd → Bytes
  | spaceCr => [32, 13]
  | spaceLf => [32, 10]
  | crlf => [13, 10]

/-- The twenty bytes `nnnnnnnnnn ggggg n` and their line end. -/
structure XrefEntryText where
  offset : Numeral
  offset_length : offset.bytes.length = 10
  generation : Numeral
  generation_length : generation.bytes.length = 5
  inUse : Bool
  ending : EntryEnd

/-- `n` or `f`. -/
def XrefEntryText.marker (entry : XrefEntryText) : UInt8 :=
  if entry.inUse then 110 else 102

def XrefEntryText.bytes (entry : XrefEntryText) : Bytes :=
  entry.offset.bytes ++ 32 :: (entry.generation.bytes ++ 32 :: entry.marker :: entry.ending.bytes)

/-- `first count`, a line end and `count` entries. -/
structure XrefSubsection where
  first : Numeral
  first_lt : first.value < u32Size
  count : Numeral
  entries : List XrefEntryText
  count_eq : count.value = entries.length
  count_lt : count.value < u32Size
  eol : Eol

def XrefSubsection.bytes (subsection : XrefSubsection) : Bytes :=
  subsection.first.bytes ++ 32 :: (subsection.count.bytes ++ (subsection.eol.bytes ++
    subsection.entries.flatMap XrefEntryText.bytes))

/-- `xref` and its subsections. -/
structure XrefSection where
  eol : Eol
  subsections : List XrefSubsection

def XrefSection.bytes (xref : XrefSection) : Bytes :=
  utf8 "xref" ++ (xref.eol.bytes ++ xref.subsections.flatMap XrefSubsection.bytes)

/-- The number of entries in all subsections. -/
def XrefSection.entryCount (xref : XrefSection) : Nat :=
  (xref.subsections.map fun subsection => subsection.entries.length).sum

/-! ## Objects, trailers and revisions -/

/-- The text of an indirect object that is no stream: from its number to `endobj`, read to its end as
the same object in every context. -/
structure ObjectText (limits : ResourceLimits) where
  bytes : Bytes
  key : ObjectKey
  value : CosObject
  plain : ∀ stream, value ≠ .stream stream
  starts : ∃ b rest, bytes = b :: rest ∧ isDigit b = true
  reads : ∀ pre post log,
    parseIndirectObject (.memory (pre ++ (bytes ++ post))) limits pre.length log
      = .ok (some (⟨key, pre.length, value⟩, pre.length + bytes.length, log))

/-- The text of an unencrypted trailer dictionary with `/Root`, read to its end as the same dictionary
in every context. Offsets in it are not negative. -/
structure TrailerText (limits : ResourceLimits) where
  bytes : Bytes
  dictionary : Dictionary
  starts : ∃ rest, bytes = 60 :: rest
  reads : ∀ pre post,
    (readerOf (pre ++ (bytes ++ post))).parseDictionary limits 0 pre.length
      = .ok (dictionary, pre.length + bytes.length)
  root : ObjectKey
  hasRoot : objectRefFromDictionary dictionary "Root" = some root
  unencrypted : dictionary.get "Encrypt" = none
  prev : ∀ value, integerFromDictionary dictionary "Prev" = some value → 0 ≤ value
  xrefStm : ∀ value, integerFromDictionary dictionary "XRefStm" = some value → 0 ≤ value

/-- One revision of a file. -/
structure Revision (limits : ResourceLimits) where
  objects : List (Gap × ObjectText limits)
  xref : Option (Gap × XrefSection)
  beforeTrailer : Gap
  afterTrailer : Gap
  trailer : TrailerText limits
  beforeStartxref : Gap
  startxrefEol : Eol
  startxref : Numeral
  eofEol : Eol
  ending : Option Eol

namespace Revision

variable {limits : ResourceLimits} (revision : Revision limits)

/-- From `startxref` to the end of the revision. -/
def endBytes : Bytes :=
  utf8 "startxref" ++ (revision.startxrefEol.bytes ++ (revision.startxref.bytes ++
    (revision.eofEol.bytes ++ (eofMarker ++ (revision.ending.map Eol.bytes).getD []))))

/-- From `trailer` to the end of the revision. -/
def trailerBytes : Bytes :=
  utf8 "trailer" ++ (revision.afterTrailer.bytes ++ (revision.trailer.bytes ++
    (revision.beforeStartxref.bytes ++ revision.endBytes)))

/-- The cross-reference section with the white space before it. -/
def xrefBytes : Bytes :=
  match revision.xref with
  | some (gap, xref) => gap.bytes ++ xref.bytes
  | none => []

def objectBytes : Bytes :=
  revision.objects.flatMap fun object => object.1.bytes ++ object.2.bytes

def bytes : Bytes :=
  revision.objectBytes ++ (revision.xrefBytes ++
    (revision.beforeTrailer.bytes ++ revision.trailerBytes))

/-- The object that a revision defines a key to be: its last one with that key. -/
def definition (key : ObjectKey) : Option CosObject :=
  (revision.objects.reverse.find? fun object => object.2.key = key).map fun object =>
    object.2.value

/-- The number of entries of the cross-reference section. -/
def entryCount : Nat :=
  match revision.xref with
  | some (_, xref) => xref.entryCount
  | none => 0

end Revision

/-- The header `%PDF-d.d`. -/
structure HeaderText where
  major : UInt8
  minor : UInt8
  major_digit : isDigit major = true
  minor_digit : isDigit minor = true

def HeaderText.bytes (header : HeaderText) : Bytes :=
  headerMarker ++ [header.major, 46, header.minor]

/-- A file: a header and at least one revision. -/
structure RevisedFile (limits : ResourceLimits) where
  header : HeaderText
  first : Revision limits
  later : List (Revision limits)

namespace RevisedFile

variable {limits : ResourceLimits} (file : RevisedFile limits)

def revisions : List (Revision limits) :=
  file.first :: file.later

/-- The concatenation of the revisions. -/
def bytes : Bytes :=
  file.header.bytes ++ (file.first.bytes ++ file.later.flatMap Revision.bytes)

/-- The object of the last revision that defines a key. -/
def latest (key : ObjectKey) : Option CosObject :=
  file.revisions.reverse.findSome? fun revision => revision.definition key

/-- The `/Root` of the last revision's trailer. -/
def latestRoot : ObjectKey :=
  (file.revisions.getLast (List.cons_ne_nil _ _)).trailer.root

/-- The limits hold the file: its bytes, the objects of its revisions and the entries of each
cross-reference section. -/
structure Fits : Prop where
  bytes_le : file.bytes.length ≤ limits.maxFileBytes
  objects_le : (file.revisions.map fun revision => revision.objects.length).sum ≤ limits.maxObjects
  entries_le : ∀ revision ∈ file.revisions, revision.entryCount ≤ limits.maxObjects

/-- What a parse of the file yields: every defined key has the object of the last revision that
defines it, and the catalog is the `/Root` of the last trailer. -/
def LatestWins (outcome : Except ParseError ParsedDocument) : Prop :=
  ∃ doc, outcome = .ok doc ∧
    (∀ key value, file.latest key = some value →
      ∃ object, doc.objects.get? key = some object ∧ object.object = value) ∧
    doc.catalog = some file.latestRoot

end RevisedFile

end Pdfv
