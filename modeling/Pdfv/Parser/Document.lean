import Pdfv.Parser.Stream
import Pdfv.Parser.Encryption
/-!
# The document parser

The top-level scan over indirect objects, cross-reference sections and trailers, the encryption
gate, and the expansion of cross-reference and object streams.
-/

namespace Pdfv

open Loop Fallible

/-! ## Header, trailers and cross-reference sections -/

/-- `parse_version_digit`. -/
def parseVersionDigit (src : ByteSource) (pos : Nat) : Option Nat × Nat :=
  match src.byte pos with
  | some b => if isDigit b then (some (digitValue b), pos + 1) else (none, pos)
  | none => (none, pos)

/-- `b"%PDF-"`. -/
def headerMarker : Bytes := utf8 "%PDF-"

/-- `parse_header`: the offset of the marker, the version, the position after it and the warning
about a malformed version. -/
def parseHeader (src : ByteSource) :
    Except ParseError (Nat × PdfVersion × Nat × List ValidationWarning) :=
  match src.findBytes headerMarker 0 src.len with
  | none => .error (.bad "missing PDF header")
  | some headerPos =>
    let pos := headerPos + headerMarker.length
    let (major, pos) := parseVersionDigit src pos
    let dot := src.byte pos = some 46
    let pos := if dot then pos + 1 else pos
    let (minor, pos) := parseVersionDigit src pos
    let malformed := major.isNone || !dot || minor.isNone
    let warnings := if malformed then
        [.general ⟨"malformed PDF header version recovered as 1.4"⟩] else []
    .ok (headerPos, ⟨major.getD 1, minor.getD 4⟩, pos, warnings)

/-- `push_xref_chain_facts`. -/
def pushXrefChainFacts (limits : ResourceLimits) (object : Option ObjectKey) (offset : Nat)
    (dictionary : Dictionary) (log : FactLog) : Except ParseError FactLog := do
  let location : ObjectLocation := ⟨object, some offset, none⟩
  let prev ← optionalNonNegativeOffset dictionary "Prev"
  let log := match prev with
    | some prev => log.pushFact limits (.xref location (.prevChain prev))
    | none => log
  let hybrid ← optionalNonNegativeOffset dictionary "XRefStm"
  return match hybrid with
    | some hybrid => log.pushFact limits (.xref location (.hybridReference hybrid))
    | none => log

/-- The state of the top-level scan. -/
structure ScanState where
  pos : Nat
  log : FactLog
  objects : ObjectStore
  trailers : List Trailer

variable (storage : SourceStorage) (limits : ResourceLimits)

/-- `trailer` and its dictionary. -/
def parseTrailer (s : ScanState) : Except ParseError ScanState := do
  let src := storage.reader
  let pos ← src.consumeBytes (utf8 "trailer") s.pos
  let offset := src.skipWsAndComments pos
  let (dictionary, pos) ← src.parseDictionary limits 0 offset
  let log ← pushXrefChainFacts limits none offset dictionary s.log
  return { s with pos, log, trailers := s.trailers ++ [⟨dictionary, offset⟩] }

/-- The state of the subsection loop of `parse_xref_and_trailer`. -/
structure XrefState where
  pos : Nat
  compliant : Bool
  parsedEntries : Nat

/-- One entry of a cross-reference subsection. -/
def parseXrefEntry (src : ByteSource) (s : XrefState) : Except ParseError XrefState :=
  let lineStart := s.pos
  let (offset, pos) := src.parseFixedDigits 10 s.pos
  let pos := src.skipXrefSpaces pos
  let (generation, pos) := src.parseFixedDigits 5 pos
  let pos := src.skipXrefSpaces pos
  let marker := src.byte pos
  let pos := if marker.isSome then pos + 1 else pos
  let entryOk := offset.isSome && generation.isSome && (marker = some 110 || marker = some 102)
    && src.lineHadEol lineStart
  if s.parsedEntries + 1 > limits.maxObjects then .error (.limitExceeded "max_objects")
  else .ok ⟨src.skipLine pos, s.compliant && entryOk, s.parsedEntries + 1⟩

/-- `for _ in 0..count` over the entries of a subsection. -/
def parseXrefEntries (src : ByteSource) : Nat → XrefState → Except ParseError XrefState
  | 0, s => .ok s
  | count + 1, s => do
    let s ← parseXrefEntry limits src s
    parseXrefEntries src count s

/-- The subsection header and its entries. A line that does not start with two numbers is skipped
and makes the section non-compliant. -/
def parseXrefSubsection (src : ByteSource) (s : XrefState) : Except ParseError XrefState := do
  match ← src.parseUnsignedU32 s.pos with
  | (none, pos) => return { s with pos := src.skipLine pos, compliant := false }
  | (some _, pos) =>
    let pos ← src.skipRequiredWs pos
    match ← src.parseUnsignedU32 pos with
    | (none, pos) => return { s with pos := src.skipLine pos, compliant := false }
    | (some count, pos) => parseXrefEntries limits src count { s with pos := src.skipLine pos }

/-- One pass of the subsection loop of `parse_xref_and_trailer`. -/
def xrefStep (src : ByteSource) (s : XrefState) : Step XrefState (Except ParseError XrefState) :=
  let pos := src.skipWsAndComments s.pos
  if pos ≥ src.len || src.startsWith pos (utf8 "trailer") then .done (.ok { s with pos })
  else if src.startsWith pos (utf8 "startxref") || src.startsWith pos eofMarker then
    .done (.ok { s with pos })
  else
    match parseXrefSubsection limits src { s with pos } with
    | .ok s => .next s
    | .error e => .done (.error e)

/-- One pass of the loop of `parse_xref_and_trailer` that looks for the trailer. -/
def xrefTrailerStep (s : ScanState) : Step ScanState (Except ParseError ScanState) :=
  let src := storage.reader
  let pos := src.skipWsAndComments s.pos
  if pos ≥ src.len then .done (.ok { s with pos })
  else if src.startsWith pos (utf8 "trailer") then
    .done (parseTrailer storage limits { s with pos })
  else if src.startsWith pos (utf8 "startxref") || src.startsWith pos eofMarker then
    .done (.ok { s with pos })
  else .next { s with pos := src.skipLine pos }

/-- `parse_xref_and_trailer`. -/
def parseXrefAndTrailer (s : ScanState) : Except ParseError ScanState := do
  let src := storage.reader
  let sectionOffset := s.pos
  let pos ← src.consumeBytes (utf8 "xref") s.pos
  let xref ← runLoop (xrefStep limits src) (fun x => .ok x) (src.len - pos + 1) ⟨pos, true, 0⟩
  let log := s.log.pushFact limits (.xref ⟨none, some sectionOffset, none⟩
    (if xref.compliant then .eolMarkersComply else .malformedClassic))
  runLoop (xrefTrailerStep storage limits) (fun s => .ok s) (src.len - xref.pos + 1)
    { s with pos := xref.pos, log }

/-- `count_trailing_ws`. -/
def countTrailingWs (bytes : Bytes) : Nat :=
  (bytes.reverse.takeWhile isWs).length

/-- `parse_post_eof_fact`. -/
def parsePostEofFact (s : ScanState) : Except ParseError ScanState := do
  let src := storage.reader
  let pos ← src.consumeBytes eofMarker s.pos
  let rest ← src.slice pos src.len
  let remaining := src.len - pos - countTrailingWs rest
  let log := if remaining > 0 then s.log.pushFact limits (.postEofData remaining) else s.log
  return { s with pos, log }

/-! ## The top-level scan -/

/-- A scanned object enters the store under the object limit. -/
def insertScanned (s : ScanState) (object : IndirectObject) : Except ParseError ScanState :=
  if s.objects.size + 1 > limits.maxObjects then .error (.limitExceeded "max_objects")
  else .ok { s with objects := s.objects.insertObject object }

/-- A loop pass that goes on from a new state or ends with its error. -/
def scanNext (result : Except ParseError ScanState) :
    Step ScanState (Except ParseError ScanState) :=
  match result with
  | .ok s => .next s
  | .error e => .done (.error e)

/-- The last branch of `parse_top_level_objects`: an indirect object, or one byte skipped. -/
def scanObject (s : ScanState) : Except ParseError ScanState := do
  match ← parseIndirectObject storage limits s.pos s.log with
  | some (object, pos, log) => insertScanned limits { s with pos, log } object
  | none => return { s with pos := s.pos + 1 }

/-- One pass of `parse_top_level_objects`. The scan ends at the first `%%EOF`. -/
def scanStep (s : ScanState) : Step ScanState (Except ParseError ScanState) :=
  let src := storage.reader
  if s.pos < src.len then
    let s := { s with pos := src.skipWsAndComments s.pos }
    if src.startsWith s.pos eofMarker then .done (parsePostEofFact storage limits s)
    else if src.startsWith s.pos (utf8 "startxref") then .next { s with pos := src.skipLine s.pos }
    else if src.startsWith s.pos (utf8 "xref") then
      scanNext (parseXrefAndTrailer storage limits s)
    else if src.startsWith s.pos (utf8 "trailer") then scanNext (parseTrailer storage limits s)
    else scanNext (scanObject storage limits s)
  else .done (.ok s)

/-- `parse_top_level_objects`. -/
def parseTopLevelObjects (s : ScanState) : Except ParseError ScanState :=
  runLoop (scanStep storage limits) (fun s => .ok s) (storage.len - s.pos + 1) s

/-! ## Cross-reference streams and object streams -/

/-- `XrefStreamSummary`. -/
structure XrefStreamSummary where
  decodedBytes : Nat
  entries : Nat
  compressedEntries : Nat

/-- One entry of `/W`. -/
def xrefWidth : CosObject → Except ParseError Nat
  | .integer width =>
    if width < 0 then .error (.bad "xref stream W entry must be non-negative")
    else if width > 8 then .error (.bad "xref stream W entry exceeds supported width")
    else .ok width.toNat
  | _ => .error (.bad "xref stream W entry must be integer")

/-- `xref_widths`. -/
def xrefWidths (dictionary : Dictionary) : Except ParseError (Nat × Nat × Nat) :=
  match dictionary.get "W" with
  | some (.array [w0, w1, w2]) => do
    let w0 ← xrefWidth w0
    let w1 ← xrefWidth w1
    let w2 ← xrefWidth w2
    return (w0, w1, w2)
  | some (.array _) => .error (.bad "xref stream W array must have three entries")
  | _ => .error (.bad "xref stream missing W array")

/-- `integer_value`. -/
def integerValue (value : CosObject) (context : String) : Except ParseError Int :=
  match value with
  | .integer value => .ok value
  | _ => .error (.malformed ⟨s!"{context} must be integer"⟩)

/-- The pairs of `/Index`. -/
def xrefIndexPairs : List CosObject → Except ParseError (List (Nat × Nat))
  | first :: count :: rest => do
    let first ← integerValue first "xref stream Index first"
    let count ← integerValue count "xref stream Index count"
    failIf (first < 0) (.bad "xref stream Index first must be non-negative")
    failIf (count < 0) (.bad "xref stream Index count must be non-negative")
    failIf (first.toNat + count.toNat ≥ u64Size) (.arithmeticOverflow "xref stream Index")
    let rest ← xrefIndexPairs rest
    return (first.toNat, count.toNat) :: rest
  | _ => .ok []

/-- `xref_indexes`. -/
def xrefIndexes (dictionary : Dictionary) (size : Nat) : Except ParseError (List (Nat × Nat)) :=
  match dictionary.get "Index" with
  | none => .ok [(0, size)]
  | some (.array values) =>
    if values.length % 2 ≠ 0 then .error (.bad "xref stream Index must contain pairs")
    else xrefIndexPairs values
  | some _ => .error (.bad "xref stream Index must be an array")

/-- `read_be_uint`. -/
def readBeUint (bytes : Bytes) (pos width : Nat) : Except ParseError (Nat × Nat) :=
  match subrange bytes pos (pos + width) with
  | some field => do
    let value ← field.foldlM (fun value byte =>
      checkedU64 (value * 256 + byte.toNat) "xref stream field") 0
    return (value, pos + width)
  | none => .error (.bad "xref stream field out of bounds")

/-- One entry of a cross-reference stream: whether it is a compressed entry, and the position
after it. -/
def readXrefEntry (decoded : Bytes) (widths : Nat × Nat × Nat) (pos : Nat) :
    Except ParseError (Bool × Nat) := do
  let (w0, w1, w2) := widths
  let (entryType, pos) ← if w0 = 0 then pure (1, pos) else readBeUint decoded pos w0
  let (_, pos) ← readBeUint decoded pos w1
  let (_, pos) ← readBeUint decoded pos w2
  return (entryType = 2, pos)

/-- The entry loop of `parse_xref_stream`: `count` entries from `pos`, adding up the compressed
ones. -/
def readXrefEntries (decoded : Bytes) (widths : Nat × Nat × Nat) :
    Nat → Nat → Nat → Except ParseError Nat
  | 0, _, compressed => .ok compressed
  | count + 1, pos, compressed => do
    let (isCompressed, pos) ← readXrefEntry decoded widths pos
    let compressed ← checkedU64 (compressed + if isCompressed then 1 else 0)
      "compressed xref entries"
    readXrefEntries decoded widths count pos compressed

variable (registry : DecoderRegistry)

/-- `decode_stream`: decodes under the given registry and logs one fact per filter. -/
def decodeStream (key : ObjectKey) (stream : StreamObject) (log : FactLog) :
    Except ParseError (DecodedStream × FactLog) := do
  let decoded ← stream.decodedBytesWithRegistry limits registry
  return (decoded, log.pushFacts limits (decoded.facts.map (.stream key)))

/-- The sum of the subsection counts. -/
def totalEntries (indexes : List (Nat × Nat)) : Except ParseError Nat :=
  indexes.foldlM (fun sum index => checkedU64 (sum + index.2) "xref stream entries") 0

/-- `parse_xref_stream`. -/
def parseXrefStream (key : ObjectKey) (stream : StreamObject) (log : FactLog) :
    Except ParseError (XrefStreamSummary × FactLog) := do
  let size ← nonNegativeU64FromDictionary stream.dictionary "Size"
  failIf (size > limits.maxObjects) (.limitExceeded "max_objects")
  let widths ← xrefWidths stream.dictionary
  let indexes ← xrefIndexes stream.dictionary size
  let entryWidth := widths.1 + widths.2.1 + widths.2.2
  failIf (entryWidth = 0) (.bad "xref stream entry width must be non-zero")
  let (decoded, log) ← decodeStream limits registry key stream log
  let total ← totalEntries indexes
  failIf (total > limits.maxObjects) (.limitExceeded "max_objects")
  let requiredBytes ← checkedU64 (total * entryWidth) "xref stream bytes"
  failIf (decoded.bytes.length < requiredBytes)
    (.bad "xref stream data shorter than declared entries")
  let compressedEntries ← readXrefEntries decoded.bytes widths total 0 0
  return (⟨decoded.bytes.length, total, compressedEntries⟩, log)

/-- One `number offset` pair of an object stream header. -/
def parseObjectStreamPair (src : ByteSource) (pos : Nat) :
    Except ParseError ((ObjectKey × Nat) × Nat) := do
  match ← src.parseUnsignedU32 pos with
  | (none, _) => .error (.bad "object stream missing object number")
  | (some number, pos) =>
    let pos ← src.skipRequiredWs pos
    match ← src.parseUnsigned u64Size pos with
    | (none, _) => .error (.bad "object stream missing object offset")
    | (some relativeOffset, pos) =>
      if h : 0 < number ∧ number < u32Size then
        return ((⟨number, 0, h.1, h.2, ObjectKey.u16Size_pos⟩, relativeOffset), pos)
      else .error (.bad "object number must be non-zero")

/-- The header of an object stream: `count` pairs from `pos`. -/
def parseObjectStreamHeader (src : ByteSource) :
    Nat → Nat → Except ParseError (List (ObjectKey × Nat))
  | 0, _ => .ok []
  | count + 1, pos => do
    let (pair, pos) ← parseObjectStreamPair src pos
    let pairs ← parseObjectStreamHeader src count pos
    return pair :: pairs

/-- One object of an object stream. Its offset adds the position in the decoded bytes to the start
of the raw range. -/
def parseObjectStreamEntry (streamKey : ObjectKey) (stream : StreamObject) (decoded : Bytes)
    (first : Nat) (entry : ObjectKey × Nat) : Except ParseError IndirectObject := do
  let (key, relativeOffset) := entry
  failIf (first + relativeOffset ≥ u64Size) (.arithmeticOverflow "object stream offset")
  let objectPos := first + relativeOffset
  failIf (objectPos ≥ decoded.length) (.bad "object stream object offset exceeds decoded bytes")
  let (object, _) ← (SourceStorage.memory decoded).reader.parseObject limits 0 objectPos
  let offset ← checkedU64 (stream.rawRange.start + objectPos) "object stream object offset"
  failIf (key = streamKey) (.bad "object stream cannot contain itself")
  return ⟨key, offset, object⟩

/-- `parse_object_stream`. -/
def parseObjectStream (streamKey : ObjectKey) (stream : StreamObject) (decoded : Bytes) :
    Except ParseError (List IndirectObject) := do
  let count ← nonNegativeU64FromDictionary stream.dictionary "N"
  failIf (count > limits.maxObjects) (.limitExceeded "max_objects")
  let first ← nonNegativeU64FromDictionary stream.dictionary "First"
  failIf (first > decoded.length) (.bad "object stream first offset exceeds decoded bytes")
  failIf (count > 0 ∧ count > first / 4) (.bad "object stream header too short for object count")
  let headers ← parseObjectStreamHeader (SourceStorage.memory decoded).reader count 0
  headers.mapM (parseObjectStreamEntry limits streamKey stream decoded first)

/-- What the stream loop of `materialize_stream_backed_structures` collects. -/
structure MaterializeState where
  log : FactLog
  trailers : List Trailer
  expanded : List IndirectObject

/-- The `/Type /XRef` branch: the stream's dictionary becomes a trailer. -/
def materializeXref (key : ObjectKey) (offset : Nat) (stream : StreamObject)
    (s : MaterializeState) : Except ParseError MaterializeState := do
  let (summary, log) ← parseXrefStream limits registry key stream s.log
  let log := log.pushFact limits (.stream key (.decoded summary.decodedBytes))
  let log ← pushXrefChainFacts limits (some key) offset stream.dictionary log
  let log := log.pushFact limits (.xref ⟨some key, some offset, none⟩
    (.xrefStreamParsed summary.entries summary.compressedEntries))
  return { s with log, trailers := s.trailers ++ [⟨stream.dictionary, offset⟩] }

/-- The `/Type /ObjStm` branch. -/
def materializeObjStm (key : ObjectKey) (offset : Nat) (stream : StreamObject)
    (s : MaterializeState) : Except ParseError MaterializeState := do
  let (decoded, log) ← decodeStream limits registry key stream s.log
  let log := log.pushFact limits (.stream key (.decoded decoded.bytes.length))
  let objects ← parseObjectStream limits key stream decoded.bytes
  let log := log.pushFact limits (.xref ⟨some key, some offset, none⟩ .objectStreamParsed)
  return { s with log, expanded := s.expanded ++ objects }

/-- A branch that only streams of the given type take. -/
def whenType (stream : StreamObject) (type : String)
    (branch : MaterializeState → Except ParseError MaterializeState) (s : MaterializeState) :
    Except ParseError MaterializeState :=
  if entryIsName stream.dictionary "Type" type then branch s else .ok s

/-- One stream of `materialize_stream_backed_structures`. -/
def materializeStream (s : MaterializeState) (object : IndirectObject) :
    Except ParseError MaterializeState :=
  match object.object with
  | .stream stream => do
    let s ← whenType stream "XRef"
      (materializeXref limits registry object.key object.offset stream) s
    whenType stream "ObjStm"
      (materializeObjStm limits registry object.key object.offset stream) s
  | _ => .ok s

/-- The insertion of one expanded object: a key that is already present keeps its object. -/
def insertExpanded (objects : ObjectStore) (object : IndirectObject) :
    Except ParseError ObjectStore :=
  if (objects.get? object.key).isNone then
    if objects.size + 1 > limits.maxObjects then .error (.limitExceeded "max_objects")
    else .ok (objects.insertObject object)
  else .ok objects

/-- `materialize_stream_backed_structures`. -/
def materializeStreamBackedStructures (objects : ObjectStore) (trailers : List Trailer)
    (log : FactLog) : Except ParseError (ObjectStore × List Trailer × FactLog) := do
  let s ← objects.values.foldlM (materializeStream limits registry) ⟨log, trailers, []⟩
  let objects ← s.expanded.foldlM (insertExpanded limits) objects
  return (objects, s.trailers, s.log)

/-! ## The document -/

/-- `trailers.iter().rev().find_map(|trailer| object_ref_from_dictionary(.., "Root"))`. -/
def catalogOf (trailers : List Trailer) : Option ObjectKey :=
  trailers.reverse.findSome? fun trailer => objectRefFromDictionary trailer.dictionary "Root"

/-- The outcome of the encryption check: a finished document that stays encrypted, or the objects
with which parsing goes on. -/
inductive EncryptionGate where
  | finished (objects : ObjectStore) (log : FactLog)
  | proceed (objects : ObjectStore) (log : FactLog)

/-- The encryption check of `parse_document`, which sees the trailers of the top-level scan. -/
def encryptionGate (crates : Crates) (password : Option Bytes) (s : ScanState) :
    Except ParseError EncryptionGate :=
  if (encryptionReference s.trailers).isSome then
    let fact := encryptionFact s.objects s.trailers
    match classifyEncryption s.objects s.trailers limits with
    | .error error => .error error.intoParseError
    | .ok _ =>
      match password with
      | some password =>
        match decryptDocument crates limits s.objects s.trailers password with
        | (objects, .ok summary) =>
          .ok (.proceed objects (s.log.pushFact limits (summary.intoFact true)))
        | (objects, .error error) =>
          if error.isEncryptedStatus then
            let log := { s.log with
              warnings := s.log.warnings ++ [ValidationWarning.general ⟨error.safeMessage⟩] }
            .ok (.finished objects (log.pushFact limits (error.intoFact fact)))
          else .error error.intoParseError
      | none => .ok (.finished s.objects (s.log.pushFact limits fact))
  else .ok (.proceed s.objects s.log)

/-- The header and the top-level scan. -/
def scanDocument : Except ParseError (PdfVersion × ScanState) := do
  let (headerOffset, version, pos, warnings) ← parseHeader storage.reader
  let log := FactLog.pushFact ⟨[], warnings⟩ limits
    (.header headerOffset version (headerOffset ≠ 0))
  let s ← parseTopLevelObjects storage limits ⟨pos, log, OrdMap.empty, []⟩
  return (version, s)

/-- `parse_document`. -/
def parseDocument (crates : Crates) (password : Option Bytes) :
    Except ParseError ParsedDocument := do
  let (version, s) ← scanDocument storage limits
  match ← encryptionGate limits crates password s with
  | .finished objects log =>
    return ⟨version, catalogOf s.trailers, objects, s.trailers, log.parseFacts, log.warnings⟩
  | .proceed objects log =>
    let (objects, trailers, log) ←
      materializeStreamBackedStructures limits registry objects s.trailers log
    return ⟨version, catalogOf trailers, objects, trailers, log.parseFacts, log.warnings⟩

/-- `Parser`. -/
structure Parser where
  limits : ResourceLimits
  decoderRegistry : Option DecoderRegistry

/-- `Parser::default`. -/
def Parser.default : Parser :=
  ⟨{}, none⟩

/-- The registry that streams are decoded with: the parser's own, or the default one. -/
def Parser.activeRegistry (parser : Parser) (crates : Crates) : DecoderRegistry :=
  parser.decoderRegistry.getD (DecoderRegistry.new crates)

/-- `Parser::parse_with_options`, on a source given by its bytes. -/
def Parser.parseWithOptions (parser : Parser) (crates : Crates) (source : Bytes)
    (password : Option Bytes) : Except ParseError ParsedDocument :=
  if source.length > parser.limits.maxFileBytes then .error (.limitExceeded "max_file_bytes")
  else
    parseDocument (SourceStorage.fromSource source parser.limits.memorySourceThresholdBytes)
      parser.limits (parser.activeRegistry crates) crates password

/-- `Parser::parse`. -/
def Parser.parse (parser : Parser) (crates : Crates) (source : Bytes) :
    Except ParseError ParsedDocument :=
  parser.parseWithOptions crates source none

end Pdfv
