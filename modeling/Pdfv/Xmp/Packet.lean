import Pdfv.Basic.Fallible
import Pdfv.Core.Errors
import Pdfv.Xml.Events
/-!
# XMP packets

The bounded XMP parser: the events an XML reader delivers go through a builder that keeps the open
elements, the namespace bindings in scope and the properties found. The reader itself is another
crate; its events are the input here.
-/

namespace Pdfv

open Fallible

/-! ## Text -/

/-- `bounded_reason`. -/
def boundedReason (value : String) : BoundedText :=
  match BoundedText.new value 512 with
  | .ok text => text
  | .error _ => ⟨"XMP XML error"⟩

/-- `ParseError::LimitExceeded`. -/
def limitExceeded (limit : String) : PdfvError :=
  .parse (.limitExceeded limit)

/-- `identifier_allow_empty`. -/
def identifierAllowEmpty (value : String) : Except PdfvError Identifier :=
  if value = "" then .ok ⟨""⟩ else newIdentifier value

/-- `split_xml_name`: the name is cut at its first colon. -/
def splitXmlName (name : String) : Except PdfvError (Identifier × Identifier) := do
  let before := name.toList.takeWhile (· ≠ ':')
  let rest := name.toList.drop before.length
  let (start, ending) := if rest.isEmpty then ("", name)
    else (String.ofList before, String.ofList (rest.drop 1))
  return (← identifierAllowEmpty start, ← newIdentifier ending)

/-- `namespace_decl_prefix`. -/
def namespaceDeclPrefix (key : String) : Option String :=
  if key = "xmlns" then some ""
  else if "xmlns:".toList.isPrefixOf key.toList then some (String.ofList (key.toList.drop 6))
  else none

/-! ## Names of the schemas -/

def pdfAIdNs : String := "http://www.aiim.org/pdfa/ns/id/"
def pdfUaIdNs : String := "http://www.aiim.org/pdfua/ns/id/"
def pdfDNs : String := "http://pdfa.org/declarations/"
def rdfNs : String := "http://www.w3.org/1999/02/22-rdf-syntax-ns#"
def xmlNs : String := "http://www.w3.org/XML/1998/namespace"
def wtpdfAccessibilityDeclaration : String := "http://pdfa.org/declarations/wtpdf#accessibility1.0"
def wtpdfReuseDeclaration : String := "http://pdfa.org/declarations/wtpdf#reuse1.0"

/-- `is_identification_property`. -/
def isIdentificationProperty (namespaceUri : BoundedText) (localName : Identifier) : Bool :=
  (namespaceUri.text = pdfAIdNs && ["part", "conformance", "rev"].contains localName.text)
    || (namespaceUri.text = pdfUaIdNs && ["part", "rev", "amd", "corr"].contains localName.text)
    || (namespaceUri.text = pdfDNs
      && ["conformsTo", "declarations", "value", "li"].contains localName.text)

/-- `Alt`, `Bag` or `Seq`. -/
def isArrayKind (localName : Identifier) : Bool :=
  ["Alt", "Bag", "Seq"].contains localName.text

/-- `is_rdf_property`. -/
def isRdfProperty (namespaceUri : BoundedText) (localName : Identifier) : Bool :=
  namespaceUri.text ≠ rdfNs && namespaceUri.text ≠ xmlNs && namespaceUri.text ≠ ""
    && !(["RDF", "Description", "Alt", "Bag", "Seq", "li"].contains localName.text)

/-! ## The builder -/

/-- `ElementFrame`. -/
structure ElementFrame where
  namespaceUri : BoundedText
  namePrefix : Identifier
  localName : Identifier
  arrayKind : Option Identifier
  xmlLang : Option BoundedText
  text : String
  previousNamespaces : OrdMap String BoundedText
  inPdfdDeclarations : Bool

/-- `XmpProperty`. -/
structure XmpProperty where
  namespaceUri : BoundedText
  namePrefix : Identifier
  localName : Identifier
  value : BoundedText
  arrayKind : Option Identifier
  xmlLang : Option BoundedText
  inPdfdDeclarations : Bool
deriving DecidableEq, Repr

/-- `PacketBuilder`. The last element of the source's `stack` is the first here, and `properties` and
`facts` keep the order of the source. -/
structure PacketBuilder where
  sourceObject : ObjectKey
  byteLen : Nat
  actualEncoding : Identifier
  limits : ResourceLimits
  depth : Nat
  elements : Nat
  processingInstructions : Nat
  namespaces : OrdMap String BoundedText
  currentNamespaces : OrdMap String BoundedText
  properties : List XmpProperty
  stack : List ElementFrame
  facts : List XmpFact
  sawPacketWrapper : Bool
  packetBytes : Option BoundedText
  packetEncoding : Option BoundedText

/-- `is_pdfd_declarations_context`. -/
def isPdfdDeclarationsContext (stack : List ElementFrame) (namespaceUri : BoundedText)
    (localName : Identifier) : Bool :=
  (namespaceUri.text = pdfDNs && localName.text = "declarations")
    || stack.any fun frame =>
      frame.namespaceUri.text = pdfDNs && frame.localName.text = "declarations"

/-- The attributes of an element in order; after them the error of the iterator, if any. -/
def XmlElement.eachAttribute {σ : Type} (element : XmlElement)
    (step : σ → XmlAttribute → Except PdfvError σ) (s : σ) : Except PdfvError σ := do
  let s ← element.attributes.foldlM step s
  match element.attributeError with
  | some error => .error (invalidXml (boundedReason error))
  | none => return s

/-- `xpacket_attr`. -/
def xpacketAttr (content name : String) (maxLen : Nat) : Except PdfvError (Option BoundedText) :=
  match Search.findWindow name.toList content.toList with
  | none => .ok none
  | some start =>
    let afterName := (content.toList.drop (start + name.length)).dropWhile isWhitespace
    match afterName with
    | '=' :: afterEq =>
      match afterEq.dropWhile isWhitespace with
      | quote :: rest =>
        if quote.toNat = 34 ∨ quote.toNat = 39 then
          let value := rest.takeWhile (· ≠ quote)
          if value.length < rest.length then do
            return some (← BoundedText.new (String.ofList value) maxLen)
          else .ok none
        else .ok none
      | [] => .ok none
    | _ => .ok none

namespace PacketBuilder

/-- `PacketBuilder::new`. -/
def new (sourceObject : ObjectKey) (byteLen : Nat) (actualEncoding : Identifier)
    (limits : ResourceLimits) : PacketBuilder where
  sourceObject := sourceObject
  byteLen := byteLen
  actualEncoding := actualEncoding
  limits := limits
  depth := 0
  elements := 0
  processingInstructions := 0
  namespaces := .empty
  currentNamespaces := .empty
  properties := []
  stack := []
  facts := []
  sawPacketWrapper := false
  packetBytes := none
  packetEncoding := none

variable (b : PacketBuilder)

/-- `PacketBuilder::resolve_prefix`. -/
def resolvePrefix (name : Identifier) : Except PdfvError BoundedText :=
  match b.currentNamespaces.get? name.text with
  | some uri => .ok uri
  | none =>
    if name.text = "" then .ok ⟨""⟩
    else
      .error (invalidXml
        (match BoundedText.new s!"unknown XMP namespace prefix {name.text}" 512 with
        | .ok reason => reason
        | .error _ => ⟨"unknown XMP namespace prefix"⟩))

/-- One attribute in `PacketBuilder::read_namespaces`, with the number of attributes so far. -/
def readNamespace (s : PacketBuilder × Nat) (attr : XmlAttribute) :
    Except PdfvError (PacketBuilder × Nat) := do
  let (b, attributes) := s
  failIf (b.limits.maxXmpAttributes < attributes + 1) (limitExceeded "max_xmp_attributes")
  match namespaceDeclPrefix attr.key with
  | some name => do
    failIf (b.limits.maxXmpNamespaces ≤ b.namespaces.size) (limitExceeded "max_xmp_namespaces")
    let value ← BoundedText.new attr.value 512
    return ({ b with
      currentNamespaces := b.currentNamespaces.insert name value
      namespaces := b.namespaces.insert name value }, attributes + 1)
  | none => return (b, attributes + 1)

/-- `PacketBuilder::read_namespaces`. -/
def readNamespaces (element : XmlElement) : Except PdfvError PacketBuilder := do
  let (b, _) ← element.eachAttribute readNamespace (b, 0)
  return b

/-- Whether an attribute name stands in the XML namespace. -/
def isXmlNamespace (name : Identifier) : Except PdfvError Bool :=
  if name.text = "xml" then .ok true
  else if name.text = "" then .ok false
  else (b.resolvePrefix name).map fun uri => uri.text = xmlNs

/-- `PacketBuilder::xml_lang`: the attributes up to the first language tag. -/
def xmlLangOf (attributeError : Option String) :
    List XmlAttribute → Except PdfvError (Option BoundedText)
  | [] =>
    match attributeError with
    | some error => .error (invalidXml (boundedReason error))
    | none => .ok none
  | attr :: rest =>
    if (namespaceDeclPrefix attr.key).isSome then xmlLangOf attributeError rest
    else do
      let (name, localName) ← splitXmlName attr.key
      let inXml ← b.isXmlNamespace name
      if inXml && localName.text = "lang" then
        return some (← BoundedText.new attr.value b.limits.maxXmpTextBytes)
      else xmlLangOf attributeError rest

/-- `PacketBuilder::xml_lang`. -/
def xmlLang (element : XmlElement) : Except PdfvError (Option BoundedText) :=
  b.xmlLangOf element.attributeError element.attributes

/-- `PacketBuilder::insert_property`. -/
def insertProperty (frame : ElementFrame) (value : String) : Except PdfvError PacketBuilder := do
  failIf (b.limits.maxXmpProperties ≤ b.properties.length) (limitExceeded "max_xmp_properties")
  let text ← BoundedText.new value b.limits.maxXmpTextBytes
  let duplicate := isIdentificationProperty frame.namespaceUri frame.localName
    && b.properties.any fun property =>
      property.namespaceUri = frame.namespaceUri ∧ property.localName = frame.localName
  return { b with
    facts := if duplicate then b.facts ++ [.duplicateClaim frame.namespaceUri frame.localName]
      else b.facts
    properties := b.properties ++ [{
      namespaceUri := frame.namespaceUri
      namePrefix := frame.namePrefix
      localName := frame.localName
      value := text
      arrayKind := frame.arrayKind
      xmlLang := frame.xmlLang
      inPdfdDeclarations := frame.inPdfdDeclarations }] }

/-- One attribute in `PacketBuilder::capture_attr_properties`. -/
def captureAttrProperty (b : PacketBuilder) (attr : XmlAttribute) :
    Except PdfvError PacketBuilder :=
  if (namespaceDeclPrefix attr.key).isSome then .ok b
  else do
    let (name, localName) ← splitXmlName attr.key
    if name.text = "xml" then return b
    let namespaceUri ← b.resolvePrefix name
    if isRdfProperty namespaceUri localName then
      b.insertProperty {
        namespaceUri := namespaceUri
        namePrefix := name
        localName := localName
        arrayKind := none
        xmlLang := none
        text := ""
        previousNamespaces := .empty
        inPdfdDeclarations := b.stack.head?.any ElementFrame.inPdfdDeclarations }
        (trimText attr.value)
    else return b

/-- `PacketBuilder::capture_attr_properties`. -/
def captureAttrProperties (element : XmlElement) : Except PdfvError PacketBuilder :=
  element.eachAttribute captureAttrProperty b

/-- The property whose array the frame opens, when it is an array inside a property. -/
def arrayContainer (frame : ElementFrame) : Option ElementFrame :=
  if frame.namespaceUri.text = rdfNs && isArrayKind frame.localName then
    match b.stack with
    | property :: _ =>
      if isRdfProperty property.namespaceUri property.localName then
        some {
          namespaceUri := property.namespaceUri
          namePrefix := property.namePrefix
          localName := property.localName
          arrayKind := some frame.localName
          xmlLang := none
          text := ""
          previousNamespaces := .empty
          inPdfdDeclarations := property.inPdfdDeclarations }
      else none
    | [] => none
  else none

/-- The part of `PacketBuilder::start` that records an array. -/
def recordContainer (frame : ElementFrame) : Except PdfvError PacketBuilder :=
  match b.arrayContainer frame with
  | some container => b.insertProperty container ""
  | none => .ok b

/-- `PacketBuilder::start`. The checked additions fail at or above the limits that follow them. -/
def start (element : XmlElement) : Except PdfvError PacketBuilder := do
  failIf (b.limits.maxXmpDepth < b.depth + 1) (limitExceeded "max_xmp_depth")
  failIf (b.limits.maxXmpElements < b.elements + 1) (limitExceeded "max_xmp_elements")
  let (name, localName) ← splitXmlName element.name
  let b' ← { b with depth := b.depth + 1, elements := b.elements + 1 }.readNamespaces element
  let namespaceUri ← b'.resolvePrefix name
  let frame : ElementFrame := {
    namespaceUri := namespaceUri
    namePrefix := name
    localName := localName
    arrayKind := none
    xmlLang := ← b'.xmlLang element
    text := ""
    previousNamespaces := b.currentNamespaces
    inPdfdDeclarations := isPdfdDeclarationsContext b.stack namespaceUri localName }
  let b' ← b'.captureAttrProperties element
  let b' ← b'.recordContainer frame
  return { b' with stack := frame :: b'.stack }

/-- `PacketBuilder::array_item_property`. -/
def arrayItemProperty (frame : ElementFrame) : Option ElementFrame :=
  if frame.namespaceUri.text = rdfNs && frame.localName.text = "li" then
    match b.stack with
    | array :: property :: _ =>
      if array.namespaceUri.text = rdfNs && isArrayKind array.localName
          && isRdfProperty property.namespaceUri property.localName then
        some {
          namespaceUri := property.namespaceUri
          namePrefix := property.namePrefix
          localName := property.localName
          arrayKind := some array.localName
          xmlLang := frame.xmlLang
          text := ""
          previousNamespaces := .empty
          inPdfdDeclarations := property.inPdfdDeclarations }
      else none
    | _ => none
  else none

/-- The frame under which the text of a closed element is recorded. -/
def recordedFrame (frame : ElementFrame) : Option ElementFrame :=
  match b.arrayItemProperty frame with
  | some property => some property
  | none => if isRdfProperty frame.namespaceUri frame.localName then some frame else none

/-- The part of `PacketBuilder::end` that records the text of a closed element. -/
def recordText (frame : ElementFrame) : Except PdfvError PacketBuilder :=
  if trimText frame.text = "" then .ok b
  else
    match b.recordedFrame frame with
    | some recorded => b.insertProperty recorded (trimText frame.text)
    | none => .ok b

/-- `PacketBuilder::end`. The depth is the number of open elements, so its subtraction never
fails. -/
def close : Except PdfvError PacketBuilder :=
  match b.stack with
  | [] => .error (invalidXml ⟨"XMP element depth underflow"⟩)
  | frame :: stack => do
    let b' ← { b with stack := stack }.recordText frame
    failIf (b'.depth = 0) (limitExceeded "max_xmp_depth")
    return { b' with
      currentNamespaces := frame.previousNamespaces
      depth := b'.depth - 1 }

/-- `PacketBuilder::text`. -/
def text (value : String) : Except PdfvError PacketBuilder :=
  match b.stack with
  | [] => .ok b
  | frame :: stack => do
    failIf (b.limits.maxXmpTextBytes < (utf8 frame.text).length + (utf8 value).length)
      (limitExceeded "max_xmp_text_bytes")
    return { b with stack := { frame with text := frame.text ++ value } :: stack }

/-- `PacketBuilder::processing_instruction`. -/
def processingInstruction (target content : String) : Except PdfvError PacketBuilder := do
  failIf (b.limits.maxXmpProcessingInstructions < b.processingInstructions + 1)
    (limitExceeded "max_xmp_processing_instructions")
  failIf (b.limits.maxXmpTextBytes < (utf8 content).length) (limitExceeded "max_xmp_text_bytes")
  let b := { b with processingInstructions := b.processingInstructions + 1 }
  if target = "xpacket" then
    return { b with
      sawPacketWrapper := true
      packetBytes := ← xpacketAttr content "bytes" b.limits.maxXmpTextBytes
      packetEncoding := ← xpacketAttr content "encoding" b.limits.maxXmpTextBytes }
  else return b

/-- The reason with which document types and references are refused. -/
def forbiddenReason : BoundedText :=
  ⟨"XMP DTD and entity processing are forbidden"⟩

/-- One turn of the event loop of `PacketBuilder::parse`. -/
def event (b : PacketBuilder) : XmlEvent → Except PdfvError PacketBuilder
  | .start element => b.start element
  | .empty element => do (← b.start element).close
  | .text value => b.text value
  | .close _ => b.close
  | .pi target content => b.processingInstruction target content
  | .cData value => b.text value
  | .decl => .ok b
  | .comment => .ok b
  | .docType => .error (invalidXml forbiddenReason)
  | .generalRef _ => .error (invalidXml forbiddenReason)

/-- The event loop of `PacketBuilder::parse`. -/
def run (reading : XmlReading) : Except PdfvError PacketBuilder := do
  let b ← reading.events.foldlM event b
  match reading.failure with
  | some error => .error (invalidXml (boundedReason error))
  | none => return b

/-- `PacketBuilder::property`. -/
def property (namespaceUri localName : String) : Option XmpProperty :=
  b.properties.find? fun property =>
    property.namespaceUri.text = namespaceUri && property.localName.text = localName

end PacketBuilder

end Pdfv
