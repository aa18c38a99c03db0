import Pdfv.Xmp.Packet
import Pdfv.Profile.Builtin
import Pdfv.Profile.Evaluator
import Pdfv.Parser.Filters
/-!
# Identification claims and flavour detection

What the properties of a packet claim, the packet made of them, and the profiles that automatic
detection selects for the claims.
-/

namespace Pdfv

open Fallible

/-! ## Claims -/

/-- Recognized XMP identification schema kind. -/
inductive XmpIdentificationKind where
  | pdfA
  | pdfUa
  | wtpdf
deriving DecidableEq, Repr

/-- Recognized flavour claim. -/
structure FlavourClaim where
  kind : XmpIdentificationKind
  flavour : ValidationFlavour
  part : Nat
  conformance : Option Identifier
  partPrefix : Identifier
  displayFlavour : BoundedText
  namespaceUri : BoundedText
  property : Identifier
  rev : Option BoundedText
  revPrefix : Option Identifier
  conformancePrefix : Option Identifier
deriving DecidableEq, Repr

/-- `parse_nonzero_part`. -/
def parseNonzeroPart (value field : String) : Except PdfvError Nat :=
  match parseU32 value with
  | none =>
    .error (.profile (.invalidField field ⟨"XMP identification part is not numeric"⟩))
  | some number =>
    if number = 0 then
      .error (.profile (.invalidField field ⟨"XMP identification part is zero"⟩))
    else .ok number

/-- `claim_from_property`. -/
def claimFromProperty (kind : XmpIdentificationKind) (flavour : ValidationFlavour)
    (property : XmpProperty) (conformance rev : Option XmpProperty) :
    Except PdfvError FlavourClaim := do
  let claimed ← conformance.mapM fun property =>
    newIdentifier (String.ofList (property.value.text.toList.map Char.toUpper))
  let display ← Pdfv.displayFlavour flavour
  return {
    kind := kind
    flavour := flavour
    part := flavour.part
    conformance := claimed
    partPrefix := property.namePrefix
    displayFlavour := display
    namespaceUri := property.namespaceUri
    property := property.localName
    rev := rev.map XmpProperty.value
    revPrefix := rev.map XmpProperty.namePrefix
    conformancePrefix := conformance.map XmpProperty.namePrefix }

/-- The first claim of each displayed flavour, `claims.retain(|claim| seen.insert(..))`. -/
def retainDistinct (seen : List String) : List FlavourClaim → List FlavourClaim
  | [] => []
  | claim :: rest =>
    if claim.displayFlavour.text ∈ seen then retainDistinct seen rest
    else claim :: retainDistinct (claim.displayFlavour.text :: seen) rest

namespace PacketBuilder

variable (b : PacketBuilder)

/-- `PacketBuilder::pdfa_claim`. -/
def pdfaClaim : Except PdfvError (Option FlavourClaim) :=
  match b.property pdfAIdNs "part" with
  | none => .ok none
  | some part => do
    let number ← parseNonzeroPart part.value.text "PDF/A part"
    let conformance := b.property pdfAIdNs "conformance"
    let flavour ← ValidationFlavour.new "pdfa" number
      (conformance.elim "none" fun property =>
        String.ofList (property.value.text.toList.map Char.toLower))
    return some (← claimFromProperty .pdfA flavour part conformance (b.property pdfAIdNs "rev"))

/-- `PacketBuilder::pdfua_claim`. -/
def pdfuaClaim : Except PdfvError (Option FlavourClaim) :=
  match b.property pdfUaIdNs "part" with
  | none => .ok none
  | some part => do
    let number ← parseNonzeroPart part.value.text "PDF/UA part"
    let flavour ← ValidationFlavour.new "pdfua" number (if number = 2 then "iso32005" else "none")
    return some (← claimFromProperty .pdfUa flavour part none (b.property pdfUaIdNs "rev"))

/-- The WTPDF level that a declaration names. -/
def wtpdfLevel (value : String) : Option String :=
  if value = wtpdfAccessibilityDeclaration then some "accessibility"
  else if value = wtpdfReuseDeclaration then some "reuse"
  else none

/-- One property in `PacketBuilder::wtpdf_claims`. -/
def wtpdfClaim (property : XmpProperty) : Except PdfvError (Option FlavourClaim) :=
  match wtpdfLevel property.value.text with
  | none => .ok none
  | some level => do
    let flavour ← ValidationFlavour.new "wtpdf" 1 level
    return some (← claimFromProperty .wtpdf flavour property none none)

/-- The properties that declare conformance. -/
def declarations : List XmpProperty :=
  b.properties.filter fun property =>
    property.namespaceUri.text = pdfDNs && property.inPdfdDeclarations

/-- `PacketBuilder::wtpdf_claims`. -/
def wtpdfClaims : Except PdfvError (List FlavourClaim) := do
  let claims ← b.declarations.mapM wtpdfClaim
  return claims.filterMap id

/-- `PacketBuilder::claims`. -/
def claims : Except PdfvError (List FlavourClaim) := do
  let pdfa ← b.pdfaClaim
  let pdfua ← b.pdfuaClaim
  let wtpdf ← b.wtpdfClaims
  return retainDistinct [] (pdfa.toList ++ pdfua.toList ++ wtpdf)

end PacketBuilder

/-! ## The packet -/

/-- Namespace declaration retained from a packet. -/
structure NamespaceBinding where
  namePrefix : Identifier
  uri : BoundedText
deriving DecidableEq, Repr

/-- Parsed XMP packet summary. -/
structure XmpPacket where
  sourceObject : ObjectKey
  bytes : Nat
  namespaces : List NamespaceBinding
  identification : List FlavourClaim
  facts : List XmpFact
deriving DecidableEq, Repr

/-- The fact that reports a claim. -/
def FlavourClaim.fact (claim : FlavourClaim) : XmpFact :=
  .flavourClaim claim.flavour.family claim.part claim.conformance claim.partPrefix
    claim.displayFlavour claim.namespaceUri claim.rev claim.revPrefix claim.conformancePrefix

/-- The fact that reports a property. -/
def XmpProperty.fact (property : XmpProperty) : XmpFact :=
  .rdfProperty property.namespaceUri property.namePrefix property.localName (some property.value)
    property.arrayKind property.xmlLang

namespace PacketBuilder

variable (b : PacketBuilder)

/-- The declared namespaces under checked prefixes. -/
def namespaceBindings : Except PdfvError (List NamespaceBinding) :=
  b.namespaces.entries.mapM fun entry => do
    return ⟨← identifierAllowEmpty entry.1, entry.2⟩

/-- The facts of a packet with these claims. -/
def packetFacts (identification : List FlavourClaim) : List XmpFact :=
  b.facts ++ (if b.sawPacketWrapper then [] else [.missingPacketWrapper])
    ++ [.packetHeader b.packetBytes b.packetEncoding b.actualEncoding,
        .packetParsed b.byteLen b.namespaces.size identification.length]
    ++ identification.map FlavourClaim.fact ++ b.properties.map XmpProperty.fact

/-- `PacketBuilder::finish`. Lengths fit a `u64`. -/
def finish : Except PdfvError XmpPacket := do
  let identification ← b.claims
  let namespaces ← b.namespaceBindings
  return {
    sourceObject := b.sourceObject
    bytes := b.byteLen
    namespaces := namespaces
    identification := identification
    facts := b.packetFacts identification }

end PacketBuilder

/-! ## Decoding -/

/-- The functions of other crates behind the XMP parser. -/
structure XmlCrate where
  /-- `quick_xml::Reader::from_str` with `trim_text(true)`, read to the end. -/
  read : String → XmlReading
  /-- The displayed text of the `Utf8Error` of bytes that are not UTF-8. -/
  utf8Error : Bytes → String

/-- Bytes cut into groups of `size`, and the incomplete rest; `chunks_exact`. -/
def chunksExact (size : Nat) : Nat → Bytes → List Bytes × Bytes
  | 0, bytes => ([], bytes)
  | fuel + 1, bytes =>
    if bytes.length < size then ([], bytes)
    else
      let (chunks, remainder) := chunksExact size fuel (bytes.drop size)
      (bytes.take size :: chunks, remainder)

/-- The number whose big-endian digits are the bytes. -/
def bigEndian (chunk : Bytes) : Nat :=
  chunk.foldl (fun n b => n * 256 + b.toNat) 0

/-- The code units of two or four bytes each, in either byte order, and whether bytes are left
over. -/
def codeUnits (size : Nat) (little : Bool) (bytes : Bytes) : List Nat × Bool :=
  let (chunks, remainder) := chunksExact size bytes.length bytes
  (chunks.map fun chunk => bigEndian (if little then chunk.reverse else chunk),
    !remainder.isEmpty)

/-- The characters of a sequence of UTF-16 code units, or the unit that has no partner;
`char::decode_utf16`. -/
def utf16Chars : List Nat → Except Nat (List Char)
  | [] => .ok []
  | unit :: rest =>
    if unit < 0xD800 || 0xDFFF < unit then do return Char.ofNat unit :: (← utf16Chars rest)
    else if 0xDC00 ≤ unit then .error unit
    else
      match rest with
      | low :: rest =>
        if 0xDC00 ≤ low && low ≤ 0xDFFF then do
          return Char.ofNat (0x10000 + (unit - 0xD800) * 0x400 + (low - 0xDC00))
            :: (← utf16Chars rest)
        else .error unit
      | [] => .error unit

/-- `decode_utf16_text`. -/
def decodeUtf16Text (bytes : Bytes) (little : Bool) : Except PdfvError String :=
  let (units, incomplete) := codeUnits 2 little bytes
  if incomplete then .error (invalidXml ⟨"UTF-16 XMP has incomplete code unit"⟩)
  else
    match utf16Chars units with
    | .ok cs => .ok (String.ofList cs)
    | .error unit =>
      .error (invalidXml (boundedReason
        ("unpaired surrogate found: " ++ String.ofList (Nat.toDigits 16 unit))))

/-- `char::from_u32`. -/
def charFromU32 (value : Nat) : Option Char :=
  if h : value.isValidChar then some (Char.ofNatAux value h) else none

/-- `decode_utf32_text`. -/
def decodeUtf32Text (bytes : Bytes) (little : Bool) : Except PdfvError String :=
  let (points, incomplete) := codeUnits 4 little bytes
  match points.mapM charFromU32 with
  | none => .error (invalidXml ⟨"UTF-32 XMP has invalid code point"⟩)
  | some cs =>
    if incomplete then .error (invalidXml ⟨"UTF-32 XMP has incomplete code point"⟩)
    else .ok (String.ofList cs)

namespace XmlCrate

variable (xml : XmlCrate)

/-- `std::str::from_utf8`: the bytes are UTF-8 when the lossy reading of them loses nothing. -/
def fromUtf8 (bytes : Bytes) : Except String String :=
  if utf8 (utf8Lossy bytes) = bytes then .ok (utf8Lossy bytes) else .error (xml.utf8Error bytes)

/-- `decode_xmp_text`. -/
def decodeXmpText (bytes : Bytes) : Except PdfvError (String × Identifier) :=
  match bytes with
  | 0xEF :: 0xBB :: 0xBF :: body =>
    match xml.fromUtf8 body with
    | .ok text => .ok (text, ⟨"UTF-8"⟩)
    | .error error => .error (invalidXml (boundedReason error))
  | 0xFE :: 0xFF :: body => (decodeUtf16Text body false).map fun text => (text, ⟨"UTF-16BE"⟩)
  | 0xFF :: 0xFE :: 0x00 :: 0x00 :: body =>
    (decodeUtf32Text body true).map fun text => (text, ⟨"UTF-32LE"⟩)
  | 0x00 :: 0x00 :: 0xFE :: 0xFF :: body =>
    (decodeUtf32Text body false).map fun text => (text, ⟨"UTF-32BE"⟩)
  | 0xFF :: 0xFE :: body => (decodeUtf16Text body true).map fun text => (text, ⟨"UTF-16LE"⟩)
  | _ =>
    match xml.fromUtf8 bytes with
    | .ok text => .ok (text, ⟨"UTF-8"⟩)
    | .error error =>
      .error (invalidXml (match BoundedText.new error 512 with
        | .ok reason => reason
        | .error _ => ⟨"XMP is not UTF-8"⟩))

/-- `XmpParser::parse_packet` up to the end of the event loop. -/
def readPacket (sourceObject : ObjectKey) (bytes : Bytes) (limits : ResourceLimits) :
    Except PdfvError PacketBuilder := do
  failIf (limits.maxXmpBytes < bytes.length) (limitExceeded "max_xmp_bytes")
  let (text, actualEncoding) ← xml.decodeXmpText bytes
  (PacketBuilder.new sourceObject bytes.length actualEncoding limits).run (xml.read text)

/-- `XmpParser::parse_packet`. -/
def parsePacket (sourceObject : ObjectKey) (bytes : Bytes) (limits : ResourceLimits) :
    Except PdfvError XmpPacket := do
  (← xml.readPacket sourceObject bytes limits).finish

end XmlCrate

/-! ## The metadata stream of a document -/

/-- `catalog_xmp_bytes`: the metadata stream with its bytes, and the warnings. -/
def catalogXmpBytes (crates : Crates) (document : ParsedDocument) (limits : ResourceLimits) :
    Except PdfvError (Option (ObjectKey × Bytes) × List ValidationWarning) :=
  let metadata := do
    let catalog ← document.objects.get? (← document.catalog)
    let dictionary ← catalog.object.asDictionary
    let key ← objectRefFromDictionary dictionary "Metadata"
    return (key, ← document.objects.get? key)
  match metadata with
  | none => .ok (none, [])
  | some (key, metadata) =>
    match metadata.object with
    | .stream stream =>
      let xmpLimits := { limits with
        maxStreamDecodeBytes := min limits.maxStreamDecodeBytes limits.maxXmpBytes }
      match stream.decodedBytes crates xmpLimits with
      | .error error => .error (.parse error)
      | .ok bytes => do
        failIf (limits.maxXmpBytes < bytes.length) (limitExceeded "max_xmp_bytes")
        return (some (key, bytes), [])
    | _ => .ok (none, [.autoDetection ⟨"catalog metadata is not a stream"⟩])

/-- `looks_like_xml`. -/
def looksLikeXml (bytes : Bytes) : Bool :=
  (bytes.find? fun b => !isAsciiWhitespace b).any fun b => b = 60

/-- `malformed_fact`. -/
def malformedFact (reason : BoundedText) : XmpFact :=
  if ["DTD", "entity", "forbidden"].any fun word => (findText reason.text word).isSome then
    .hostileXmlRejected reason
  else .malformed reason

/-- The fact reports hostile XML. -/
def XmpFact.isHostile : XmpFact → Bool
  | hostileXmlRejected _ => true
  | _ => false

/-- The message a packet fact is warned of with. -/
def XmpFact.warning : XmpFact → Option String
  | .missingPacketWrapper => some "XMP packet wrapper is missing"
  | .malformed _ => some "XMP metadata has parser warnings"
  | .hostileXmlRejected _ => some "XMP metadata has parser warnings"
  | .duplicateClaim _ _ => some "XMP metadata contains duplicate identification claims"
  | .packetParsed _ _ _ => none
  | .flavourClaim _ _ _ _ _ _ _ _ _ => none
  | .packetHeader _ _ _ => none
  | .rdfProperty _ _ _ _ _ _ => none

/-- `packet_warnings`: every message is shorter than its bound. -/
def packetWarnings (packet : XmpPacket) : List ValidationWarning :=
  (packet.facts.filterMap XmpFact.warning).map fun message => .autoDetection ⟨message⟩

/-- `xmp_parse_facts`: the retained facts, and the warning of the cap. -/
def xmpParseFacts (packet : XmpPacket) (maxParseFacts : Nat) :
    List ParseFact × List ValidationWarning :=
  ((packet.facts.take maxParseFacts).map fun fact => .xmp packet.sourceObject fact,
    if maxParseFacts < packet.facts.length then [.parseFactCapReached maxParseFacts] else [])

/-- `XmpParseResult`. -/
structure XmpParseResult where
  packet : Option XmpPacket
  parseFacts : List ParseFact
  warnings : List ValidationWarning

/-- The reason under which a packet error is reported. -/
def packetErrorReason (error : PdfvError) : BoundedText :=
  match BoundedText.new error.display 512 with
  | .ok reason => reason
  | .error _ => ⟨"XMP parse failed"⟩

/-- The result for a packet that was refused. -/
def rejectedPacket (object : ObjectKey) (error : PdfvError) : XmpParseResult where
  packet := none
  parseFacts := [.xmp object (malformedFact (packetErrorReason error))]
  warnings := [.autoDetection (packetErrorReason error)]

/-- The result for a packet that was read. -/
def readResult (packet : XmpPacket) (limits : ResourceLimits) : XmpParseResult where
  packet := some packet
  parseFacts := (xmpParseFacts packet limits.maxParseFacts).1
  warnings := packetWarnings packet ++ (xmpParseFacts packet limits.maxParseFacts).2

/-- `parse_document_xmp`. -/
def parseDocumentXmp (crates : Crates) (xml : XmlCrate) (document : ParsedDocument)
    (limits : ResourceLimits) (reportAbsentMetadata : Bool) : Except PdfvError XmpParseResult := do
  match ← catalogXmpBytes crates document limits with
  | (none, warnings) =>
    return ⟨none, [], warnings ++ if reportAbsentMetadata then
      [.autoDetection ⟨"catalog metadata stream is missing"⟩] else []⟩
  | (some (object, bytes), warnings) =>
    if document.isEncrypted && !looksLikeXml bytes then return ⟨none, [], warnings⟩
    else
      match xml.parsePacket object bytes limits with
      | .ok packet => return readResult packet limits
      | .error (.parse (.limitExceeded limit)) => .error (limitExceeded limit)
      | .error error => return rejectedPacket object error

/-! ## Detection -/

/-- Auto flavour detection result. -/
structure DetectedFlavours where
  packet : Option XmpPacket
  profiles : List ValidationProfile
  parseFacts : List ParseFact
  warnings : List ValidationWarning

/-- The specification generation of `compatibility_group`. -/
inductive CompatibilityGroup where
  | pdf1
  | pdf2
deriving DecidableEq, Repr

/-- `compatibility_group`. -/
def compatibilityGroup (flavour : ValidationFlavour) : CompatibilityGroup :=
  if flavour.family.text = "pdfa" && 1 ≤ flavour.part && flavour.part ≤ 3 then .pdf1
  else if flavour.family.text = "pdfua" && flavour.part = 1 then .pdf1
  else .pdf2

def incompatibleReason : BoundedText :=
  ⟨"detected XMP claim is incompatible with the first selected PDF specification generation"⟩

/-- `select_compatible_profiles`: the profiles of the first one's group, and a warning for each
other. -/
def selectCompatibleProfiles : List ValidationProfile → List ValidationProfile × List ValidationWarning
  | [] => ([], [])
  | first :: rest =>
    let group := compatibilityGroup first.flavour
    ((first :: rest).filter fun profile => compatibilityGroup profile.flavour = group,
      ((first :: rest).filter fun profile => compatibilityGroup profile.flavour ≠ group).map
        fun profile => .incompatibleProfile profile.identity.id incompatibleReason)

namespace FlavourDetector

variable (profilesFor : ProfileRepository)

/-- `FlavourDetector::fallback`. -/
def fallback (default : Option ValidationFlavour) (reason : String) :
    Except PdfvError DetectedFlavours := do
  let profiles ← profilesFor (.auto default)
  return ⟨none, profiles, [], [.autoDetection ⟨reason⟩]⟩

/-- One claim in `FlavourDetector::detect`. -/
def selectClaim (s : List ValidationProfile × List ValidationWarning) (claim : FlavourClaim) :
    Except PdfvError (List ValidationProfile × List ValidationWarning) :=
  match profilesFor (.explicit claim.flavour) with
  | .ok selected => .ok (s.1 ++ selected, s.2)
  | .error error => do
    let profileId ← newIdentifier claim.displayFlavour.text
    let reason ← BoundedText.new error.display 512
    return (s.1, s.2 ++ [.incompatibleProfile profileId reason])

/-- `FlavourDetector::detect`. -/
def detect (crates : Crates) (xml : XmlCrate) (document : ParsedDocument)
    (default : Option ValidationFlavour) (limits : ResourceLimits) :
    Except PdfvError DetectedFlavours := do
  let parsedXmp ← parseDocumentXmp crates xml document limits true
  match parsedXmp.packet with
  | none => do
    let fallback ← fallback profilesFor default "catalog metadata stream is missing"
    return { fallback with
      parseFacts := parsedXmp.parseFacts
      warnings := parsedXmp.warnings }
  | some packet => do
    let (profiles, warnings) ←
      packet.identification.foldlM (selectClaim profilesFor) ([], parsedXmp.warnings)
    if profiles.isEmpty then
      let fallback ← fallback profilesFor default "XMP metadata contains no supported claims"
      return { fallback with
        packet := some packet
        parseFacts := fallback.parseFacts ++ parsedXmp.parseFacts
        warnings := fallback.warnings ++ warnings }
    else
      let (selected, incompatible) := selectCompatibleProfiles profiles
      return ⟨some packet, selected, parsedXmp.parseFacts, warnings ++ incompatible⟩

end FlavourDetector

end Pdfv
