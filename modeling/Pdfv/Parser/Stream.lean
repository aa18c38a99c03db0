import Pdfv.Parser.Syntax
import Pdfv.Parser.Filters
/-!
# Streams and indirect objects

The log of parse facts and warnings, the stream payload reader and the reader of one indirect
object.
-/

namespace Pdfv

open Fallible

/-- The facts and warnings a parser has collected. -/
structure FactLog where
  parseFacts : List ParseFact
  warnings : List ValidationWarning

namespace FactLog

/-- Whether the warning that facts were dropped is present. -/
def capReached (log : FactLog) : Bool :=
  log.warnings.any fun warning =>
    match warning with
    | .parseFactCapReached _ => true
    | _ => false

/-- `push_fact`: above the cap a fact is dropped and one warning is kept. -/
def pushFact (log : FactLog) (limits : ResourceLimits) (fact : ParseFact) : FactLog :=
  if log.parseFacts.length ≥ limits.maxParseFacts then
    if log.capReached then log
    else { log with warnings := log.warnings ++ [.parseFactCapReached limits.maxParseFacts] }
  else { log with parseFacts := log.parseFacts ++ [fact] }

/-- Several facts in a row. -/
def pushFacts (log : FactLog) (limits : ResourceLimits) (facts : List ParseFact) : FactLog :=
  facts.foldl (fun log fact => log.pushFact limits fact) log

end FactLog

def streamMarker : Bytes := utf8 "stream"
def endstreamMarker : Bytes := utf8 "endstream"
def endobjMarker : Bytes := utf8 "endobj"

namespace ByteSource

variable (src : ByteSource)

/-- `has_eol_before`. -/
def hasEolBefore (pos : Nat) : Bool :=
  pos ≥ 1 && (src.byte (pos - 1)).any isEol

/-- `line_had_eol`. -/
def lineHadEol (lineStart : Nat) : Bool :=
  match src.findBytes [10] lineStart src.len with
  | none => (src.findBytes [13] lineStart src.len).isSome
  | some found => found ≥ lineStart

/-- `endstream_after_optional_eol`: where the keyword starts when at most one line end stands
before it. -/
def endstreamAfterOptionalEol (offset : Nat) : Option Nat :=
  if src.startsWith offset endstreamMarker then some offset
  else if src.startsWith offset ([13, 10] ++ endstreamMarker) then some (offset + 2)
  else if src.startsWith offset ([10] ++ endstreamMarker)
      || src.startsWith offset ([13] ++ endstreamMarker) then some (offset + 1)
  else none

/-- `trim_eol_before`. -/
def trimEolBefore (dataStart keywordPos : Nat) : Nat :=
  if keywordPos ≥ dataStart + 2 && src.startsWith (keywordPos - 2) [13, 10] then keywordPos - 2
  else if keywordPos > dataStart && (src.byte (keywordPos - 1)).any isEol then keywordPos - 1
  else keywordPos

/-- The line end after the `stream` keyword: CRLF, LF or CR, or none. -/
def skipStreamEol (pos : Nat) : Nat :=
  if src.startsWith pos [13, 10] then pos + 2
  else if src.startsWith pos [10] || src.startsWith pos [13] then pos + 1
  else pos

/-- The end of the stream data and the position of `endstream`: the declared length when the
keyword follows it, otherwise a bounded search for the keyword. -/
def streamExtent (limits : ResourceLimits) (dataStart : Nat) (declaredLength : Option Nat) :
    Except ParseError (Nat × Nat) :=
  let declaredEnd := declaredLength.map (dataStart + ·)
  match declaredEnd, declaredEnd.bind src.endstreamAfterOptionalEol with
  | some dataEnd, some keywordPos => .ok (dataEnd, keywordPos)
  | _, _ =>
    let scanEnd := min (dataStart + limits.maxStreamDeclaredBytes) src.len
    match src.findBytes endstreamMarker dataStart scanEnd with
    | some keywordPos => .ok (src.trimEolBefore dataStart keywordPos, keywordPos)
    | none => .error (.bad "missing endstream")

/-- `peek_stream_marker`. -/
def peekStreamMarker (pos : Nat) : Bool :=
  src.startsWith (src.skipWsAndComments pos) streamMarker

end ByteSource

/-- `is_identity_crypt_filter`. -/
def isIdentityCryptFilter (dictionary : Dictionary) (filterIndex : Nat) : Bool :=
  let filterIsCrypt := match dictionary.get "Filter" with
    | some (.name name) => name.matchesText "Crypt"
    | some (.array filters) =>
      match filters[filterIndex]? with
      | some (.name name) => name.matchesText "Crypt"
      | _ => false
    | _ => false
  filterIsCrypt &&
    match dictionary.get "DecodeParms" with
    | some (.dictionary params) => entryIsName params "Name" "Identity"
    | some (.array params) =>
      match params[filterIndex]? with
      | some (.dictionary params) => entryIsName params "Name" "Identity"
      | _ => false
    | _ => false

/-- `stream_filters`: identity crypt filters are left out. -/
def streamFilters (dictionary : Dictionary) : List PdfName :=
  match dictionary.get "Filter" with
  | some (.name name) => if isIdentityCryptFilter dictionary 0 then [] else [name]
  | some (.array values) =>
    values.zipIdx.filterMap fun
      | (.name name, index) => if isIdentityCryptFilter dictionary index then none else some name
      | _ => none
  | _ => []

/-- An entry that fits an unsigned type with `size` values, or the default. -/
def unsignedEntry (dictionary : Dictionary) (key : String) (size default : Nat) : Nat :=
  match integerFromDictionary dictionary key with
  | some value => if 0 ≤ value ∧ value < size then value.toNat else default
  | none => default

/-- `decode_params_from_dictionary`. -/
def decodeParamsFromDictionary (dictionary : Dictionary) : DecodeParams where
  predictor := unsignedEntry dictionary "Predictor" u16Size 1
  colors := unsignedEntry dictionary "Colors" u16Size 1
  bitsPerComponent := unsignedEntry dictionary "BitsPerComponent" u16Size 8
  columns := unsignedEntry dictionary "Columns" u32Size 1
  earlyChange := unsignedEntry dictionary "EarlyChange" u8Size 1
  cryptFilterName := match dictionary.get "Name" with
    | some (.name name) => some name
    | _ => none

/-- `stream_decode_params`. -/
def streamDecodeParams (dictionary : Dictionary) (filterCount : Nat) : List DecodeParams :=
  match dictionary.get "DecodeParms" with
  | some (.dictionary params) => [decodeParamsFromDictionary params]
  | some (.array values) =>
    (values.take filterCount).map fun
      | .dictionary params => decodeParamsFromDictionary params
      | _ => {}
  | _ => List.replicate filterCount {}

variable (storage : SourceStorage) (limits : ResourceLimits)

/-- `parse_stream`. -/
def parseStream (key : ObjectKey) (dictionary : Dictionary) (pos : Nat) (log : FactLog) :
    Except ParseError (StreamObject × Nat × FactLog) := do
  let src := storage.reader
  let pos ← src.consumeBytes streamMarker (src.skipWsAndComments pos)
  let streamKeywordCrlfCompliant := src.startsWith pos [13, 10]
  let dataStart := src.skipStreamEol pos
  let declaredLength := (integerFromDictionary dictionary "Length").bind u64OfInt
  failIf (declaredLength.any (· > limits.maxStreamDeclaredBytes))
    (.limitExceeded "max_stream_declared_bytes")
  let (dataEnd, endstreamPos) ← src.streamExtent limits dataStart declaredLength
  let endstreamKeywordEolCompliant := src.hasEolBefore endstreamPos
  let discoveredLength := dataEnd - dataStart
  let pos ← src.consumeBytes endstreamMarker endstreamPos
  let filters := streamFilters dictionary
  let log := log.pushFact limits
    (.stream key (.length (declaredLength.getD discoveredLength) discoveredLength))
  let log := log.pushFact limits
    (.stream key (.keywordSpacing streamKeywordCrlfCompliant endstreamKeywordEolCompliant))
  let decodeParams := streamDecodeParams dictionary filters.length
  let (rawSource, rawRange) ← storage.streamSource dataStart dataEnd
  return ({
    dictionary, rawRange, declaredLength, discoveredLength, filters, decodeParams, rawSource,
    streamKeywordCrlfCompliant, endstreamKeywordEolCompliant }, pos, log)

/-- The object of an indirect object: a dictionary followed by `stream` is a stream. -/
def parseIndirectValue (key : ObjectKey) (pos : Nat) (log : FactLog) :
    Except ParseError (CosObject × Nat × FactLog) := do
  let src := storage.reader
  let (object, pos) ← src.parseObject limits 0 pos
  match object with
  | .dictionary dictionary =>
    if src.peekStreamMarker pos then
      let (stream, pos, log) ← parseStream storage limits key dictionary pos log
      return (.stream stream, pos, log)
    else return (.dictionary dictionary, pos, log)
  | object => return (object, pos, log)

/-- The `number generation obj` header of `parse_indirect_object`. Nothing when there is none. -/
def parseObjectHeader (src : ByteSource) (start : Nat) :
    Except ParseError (Option (ObjectKey × Nat)) := do
  match ← src.parseUnsignedU32 start with
  | (none, _) => return none
  | (some number, pos) =>
    let pos ← src.skipRequiredWs pos
    match ← src.parseUnsignedU16 pos with
    | (none, _) => return none
    | (some generation, pos) =>
      let pos ← src.skipRequiredWs pos
      if src.startsWith pos (utf8 "obj") then
        let pos ← src.consumeBytes (utf8 "obj") pos
        if h : 0 < number ∧ number < u32Size ∧ generation < u16Size then
          return some (⟨number, generation, h.1, h.2.1, h.2.2⟩, pos)
        else .error (.bad "object number must be non-zero")
      else return none

/-- `parse_indirect_object`. Nothing when no `number generation obj` stands at the position; the
caller then moves on by one byte. -/
def parseIndirectObject (start : Nat) (log : FactLog) :
    Except ParseError (Option (IndirectObject × Nat × FactLog)) := do
  let src := storage.reader
  match ← parseObjectHeader src start with
  | none => return none
  | some (key, pos) =>
    let (object, pos, log) ← parseIndirectValue storage limits key pos log
    let pos := src.skipWsAndComments pos
    let pos := if src.startsWith pos endobjMarker then pos + endobjMarker.length else pos
    return some (⟨key, start, object⟩, pos, log)

end Pdfv
