import Pdfv.Profile.Builtin
import Pdfv.Profile.ExprParser
import Pdfv.Xml.Events
/-!
# Import of profile XML

`import_verapdf_profile_xml`: the events of the XML reader go through a loop that keeps the open
rule, the element whose text is collected and the text itself. What other crates do is a parameter:
the reader, and the decoding of character references.
-/

namespace Pdfv

open Fallible

def maxProfileXmlBytes : Nat := 8 * 1024 * 1024
def maxProfileXmlElements : Nat := 100000
def maxProfileXmlDepth : Nat := 32
def maxProfileXmlAttributes : Nat := 16
def maxProfileRules : Nat := 10000

/-- How an import ends without a profile: with an error, or because the parser of expressions
stopped. -/
inductive ImportStop where
  | failed (error : PdfvError)
  | expression (stop : ParseStop SlicePanic)

/-- The result of an import. -/
abbrev Import (α : Type) := Except ImportStop α

/-- An error of another part as an error of the import. -/
def imported {α : Type} (x : Except PdfvError α) : Import α :=
  x.mapError .failed

/-- `ProfileError::InvalidXml` with a constant reason. -/
def invalidProfileXml {α : Type} (reason : String) : Except PdfvError α :=
  .error (invalidXml ⟨reason⟩)

/-- `BoundedText::new(value, 512).unwrap_or_else(|_| BoundedText::unchecked(fallback))`. -/
def reasonOr (value fallback : String) : BoundedText :=
  match BoundedText.new value 512 with
  | .ok text => text
  | .error _ => ⟨fallback⟩

/-! ## Elements and attributes -/

/-- The elements of a profile. -/
def profileElements : List String :=
  ["profile", "details", "name", "description", "hash", "rules", "rule", "id", "test", "error",
   "message", "arguments", "argument", "references", "reference", "variables", "variable",
   "defaultValue", "value"]

/-- The attributes of an element. -/
def profileAttributes (element : String) : List String :=
  if element = "profile" then ["flavour", "xmlns"]
  else if element = "details" then ["creator", "created"]
  else if element = "rule" then ["object", "deferred", "tags"]
  else if element = "id" then ["specification", "clause", "testNumber"]
  else if element = "reference" then ["specification", "clause"]
  else if element = "variable" then ["name", "object"]
  else []

/-- `validate_attribute`. -/
def validateAttribute (element attr : String) : Except PdfvError Unit :=
  if attr ∈ profileAttributes element then .ok ()
  else .error (invalidXml (reasonOr ("unknown profile XML attribute " ++ attr)
    "unknown profile XML attribute"))

/-- The attributes one by one, with their number; after them the error of the iterator. -/
def validateAttributes (element : XmlElement) : Nat → List XmlAttribute → Except PdfvError Unit
  | _, [] =>
    match element.attributeError with
    | some error => .error (invalidXml (reasonOr error "XML attribute error"))
    | none => .ok ()
  | count, attr :: rest => do
    failIf (maxProfileXmlAttributes < count + 1)
      (invalidXml ⟨"profile XML exceeds attribute limit"⟩)
    validateAttribute element.name attr.key
    validateAttributes element (count + 1) rest

/-- `validate_element`. -/
def validateElement (element : XmlElement) : Except PdfvError Unit :=
  if element.name ∈ profileElements then validateAttributes element 0 element.attributes
  else .error (invalidXml (reasonOr ("unknown profile XML element " ++ element.name)
    "unknown profile XML element"))

/-- The first attribute of a name, or the error of the iterator before it. -/
def findAttr (element : XmlElement) (name : String) : Except PdfvError (Option String) :=
  match element.attributes.find? fun attr => attr.key = name with
  | some attr => .ok (some attr.value)
  | none =>
    match element.attributeError with
    | some error => .error (invalidXml (reasonOr error "XML attribute error"))
    | none => .ok none

/-- `required_attr`. -/
def requiredAttr (element : XmlElement) (name : String) : Except PdfvError String := do
  match ← findAttr element name with
  | some value => return value
  | none => invalidProfileXml "required XML attribute is missing"

/-- `optional_bool_attr`. -/
def optionalBoolAttr (element : XmlElement) (name : String) : Except PdfvError Bool := do
  match ← findAttr element name with
  | some value =>
    if value = "true" then return true
    else if value = "false" then return false
    else .error (.profile (.invalidField "deferred" ⟨"expected true or false"⟩))
  | none => return false

/-! ## Flavours -/

/-- `ProfileError::InvalidField` of the flavour. -/
def invalidFlavour {α : Type} (reason : String) : Except PdfvError α :=
  .error (.profile (.invalidField "flavour" ⟨reason⟩))

/-- The part of a flavour, or the reason why there is none. -/
def parseFlavourPart (parts : List String) (missing notNumeric zero : String) :
    Except PdfvError Nat :=
  match parts[1]? with
  | none => invalidFlavour missing
  | some text =>
    match parseU32 text with
    | none => invalidFlavour notNumeric
    | some part => if part = 0 then invalidFlavour zero else .ok part

/-- `str::to_ascii_lowercase`. -/
def toAsciiLowercase (value : String) : String :=
  String.ofList (value.toList.map Char.toLower)

/-- `parse_numbered_flavour`. -/
def parseNumberedFlavour (family : String) (parts : List String) (defaultConformance : String) :
    Except PdfvError ValidationFlavour := do
  let part ← parseFlavourPart parts "missing flavour part" "flavour part is not numeric"
    "flavour part is zero"
  ValidationFlavour.new family part (toAsciiLowercase (parts[2]?.getD defaultConformance))

/-- `parse_pdfua_xml_flavour`. -/
def parsePdfuaXmlFlavour (parts : List String) : Except PdfvError ValidationFlavour := do
  let part ← parseFlavourPart parts "missing PDF/UA part" "PDF/UA part is not numeric"
    "PDF/UA part is zero"
  ValidationFlavour.new "pdfua" part (if part = 2 then "iso32005" else "none")

/-- `parse_wtpdf_flavour`. -/
def parseWtpdfFlavour (parts : List String) : Except PdfvError ValidationFlavour :=
  match parts with
  | [_, "1", "0", level] => ValidationFlavour.new "wtpdf" 1 (toAsciiLowercase level)
  | _ => invalidFlavour "expected WTPDF_1_0_<level>"

/-- `parse_verapdf_flavour`; a split has a first part. -/
def parseVerapdfFlavour (value : String) : Except PdfvError ValidationFlavour :=
  let parts := (splitChars ['_'] value.length value.toList).map String.ofList
  match parts.head? with
  | none => invalidFlavour "profile flavour is empty"
  | some family =>
    if family = "PDFA" then parseNumberedFlavour "pdfa" parts "none"
    else if family = "PDFUA" then parsePdfuaXmlFlavour parts
    else if family = "WTPDF" then parseWtpdfFlavour parts
    else invalidFlavour "unsupported profile flavour family"

/-- `profile_flavour_attr`. -/
def profileFlavourAttr (element : XmlElement) : Except PdfvError (Option ValidationFlavour) := do
  match ← findAttr element "flavour" with
  | some value => return some (← parseVerapdfFlavour value)
  | none => return none

/-- `profile_id_for_flavour`. -/
def profileIdForFlavour (flavour : ValidationFlavour) : Except PdfvError Identifier := do
  let display ← displayFlavour flavour
  newIdentifier ("verapdf-" ++ display.text)

/-! ## Rules -/

/-- The families that stand for the types of veraPDF. -/
def verapdfObjectTypes : List (List String × Family) :=
  [(["CosDocument", "PDDocument", "CosXRef", "CosTrailer", "CosIndirect", "CosInfo"], .document),
   (["CosStream"], .stream),
   (["CosArray", "CosDict", "CosInteger", "CosName", "CosReal", "CosString", "CosTextString",
     "CosUnicodeName", "CosLang", "CosBBox", "CosActualText", "CosAlt", "CosBM",
     "CosRenderingIntent", "CosFileSpecification", "CosFilter", "CosIIFilter"], .object),
   (["GFCosMetadata", "PDMetadata", "Metadata", "PDFAIdentification", "PDFUAIdentification",
     "XMPPackage", "MainXMPPackage", "XMPProperty", "XMPLangAlt", "ExtensionSchemaValueType",
     "ExtensionSchemaDefinition", "ExtensionSchemaProperty", "ExtensionSchemaField",
     "ExtensionSchemasContainer", "ExtensionSchemaObject"], .metadata),
   (["PDCatalog", "Catalog"], .catalog),
   (["PDPage", "Page"], .page),
   (["PDFont", "Font", "PDSimpleFont", "PDTrueTypeFont", "PDType0Font", "PDType1Font",
     "PDCIDFont", "TrueTypeFontProgram", "Glyph"], .font),
   (["PDCMap", "PDReferencedCMap", "CMapFile"], .cMap),
   (["EmbeddedFile"], .embeddedFontFile),
   (["PDAnnotation", "Annotation", "PDAnnot", "PDWidgetAnnot", "PDLinkAnnot", "PDMarkupAnnot",
     "PDTrapNetAnnot", "PDPrinterMarkAnnot", "PDWatermarkAnnot", "PDSoundAnnot",
     "PDScreenAnnot", "PDPopupAnnot", "PDMovieAnnot", "PDFileAttachmentAnnot",
     "PDRubberStampAnnot", "PDRichMediaAnnot", "PD3DAnnot", "PDInkAnnot"], Family.annotation),
   (["PDAction", "PDNamedAction", "PDGoToAction", "PDAdditionalActions"], .action),
   (["PDAcroForm"], .acroForm),
   (["PDFormField", "PDTextField"], .formField),
   (["OutputIntents", "OutputIntent", "PDOutputIntent"], .outputIntent),
   (["PDXObject", "PD3DStream", "PDMediaClip", "PDRichMedia"], .xObject),
   (["PDXForm"], .formXObject),
   (["PDXImage", "JPEG2000", "PDMaskImage"], .image),
   (["PDContentStream", "Op_q_gsave"], .contentStream),
   (["Op_Undefined"], .undefinedOperator),
   (["PDOCConfig"], .optionalContentProperties),
   (["PDPerms"], .permissions),
   (["PDOutline"], .outline),
   (["PDDestination"], .destination),
   (["PDExtGState"], .extGState),
   (["PDDeviceN", "PDICCBasedCMYK", "PDDeviceRGB", "PDDeviceGray", "PDDeviceCMYK",
     "PDSeparation", "PDHalftone", "PDGroup"], .colorSpace),
   (["ICCProfile", "ICCOutputProfile", "ICCInputProfile"], .iccProfile),
   (["PDPattern", "PDTilingPattern", "PDShadingPattern"], .pattern),
   (["PDShading"], .shading),
   (["PDFunction"], .function),
   (["PDStructTreeRoot"], .structureTreeRoot),
   (["PDStructElem", "SEDocument", "SEDocumentFragment", "SEPart", "SEArt", "SESect", "SEDiv",
     "SEBlockQuote", "SECaption", "SETOC", "SETOCI", "SEIndex", "SENonStruct", "SEPrivate",
     "SEP", "SEH", "SEHn", "SEH1", "SEH2", "SEH3", "SEH4", "SEH5", "SEH6", "SEL", "SELI",
     "SELbl", "SELBody", "SETable", "SETR", "SETH", "SETD", "SETHead", "SETBody", "SETFoot",
     "SESpan", "SEQuote", "SENote", "SEReference", "SEBibEntry", "SECode", "SELink", "SEAnnot",
     "SERuby", "SEWarichu", "SEFigure", "SEFormula", "SEForm", "SEArtifact", "SEStrong",
     "SEEm", "SETitle", "SEFENote", "SEAside", "SESub", "SEMathMLStructElem",
     "SEMarkedContent", "SESimpleContentItem", "SEGraphicContentItem", "SETableCell",
     "SENonStandard", "SETextItem", "SEWT", "SEWP", "SERT", "SERP", "SERB"], .structureElement),
   (["PDSignature", "PDSigRef", "PKCSDataObject"], .signature),
   (["PDEncryption"], .security)]

/-- `map_verapdf_object_type`. -/
def mapVerapdfObjectType (value : String) :
    Except PdfvError (ObjectTypeName × Option BoundedText) :=
  match verapdfObjectTypes.find? fun row => row.1.contains value with
  | some row => .ok (.family row.2, none)
  | none => do
    let reason ← BoundedText.new ("unsupported veraPDF object type " ++ value) 512
    return (.family .document, some reason)

/-- `identifier_fragment`. -/
def identifierFragment (value : String) : String :=
  String.ofList (Trim.trim (· = '-')
    (value.toList.map fun c => if c.isAlphanum then c.toLower else '-'))

/-- `rule_id_from_attrs`. -/
def ruleIdFromAttrs (element : XmlElement) : Except PdfvError Identifier := do
  let specification ← requiredAttr element "specification"
  let clause ← requiredAttr element "clause"
  let testNumber ← requiredAttr element "testNumber"
  newIdentifier (identifierFragment specification ++ "-" ++ identifierFragment clause ++ "-"
    ++ identifierFragment testNumber)

/-- `reference_from_attrs`. -/
def referenceFromAttrs (element : XmlElement) : Except PdfvError SpecReference := do
  let specification ← BoundedText.new (← requiredAttr element "specification") 512
  let clause ← BoundedText.new (← requiredAttr element "clause") 512
  return ⟨specification, clause⟩

/-- `XmlRuleBuilder`. -/
structure XmlRuleBuilder where
  objectType : Option ObjectTypeName
  unsupportedReason : Option BoundedText
  deferred : Bool
  id : Option Identifier := none
  description : Option BoundedText := none
  test : Option BoundedText := none
  message : Option BoundedText := none
  references : List SpecReference := []

namespace XmlRuleBuilder

/-- `XmlRuleBuilder::from_rule_start`. -/
def fromRuleStart (element : XmlElement) : Except PdfvError XmlRuleBuilder := do
  let sourceObjectType ← requiredAttr element "object"
  let (objectType, unsupportedReason) ← mapVerapdfObjectType sourceObjectType
  let deferred ← optionalBoolAttr element "deferred"
  return { objectType := some objectType, unsupportedReason, deferred }

/-- The test of a rule: its text as an expression, or kept as unsupported. -/
def ruleTest (sourceTest : BoundedText) : Option BoundedText → Import RuleExpr
  | some reason => .ok (.unsupported sourceTest reason)
  | none =>
    match parseImportedExpr sourceTest.text with
    | .ok expr => .ok expr
    | .error (.invalid reason) => .ok (.unsupported sourceTest reason)
    | .error stop => .error (.expression stop)

/-- `XmlRuleBuilder::finish`. -/
def finish (builder : XmlRuleBuilder) : Import Rule :=
  match builder.id, builder.objectType, builder.test with
  | none, _, _ => imported (invalidProfileXml "rule id is missing")
  | some _, none, _ => imported (invalidProfileXml "rule object type is missing")
  | some _, some _, none => imported (invalidProfileXml "rule test is missing")
  | some id, some objectType, some sourceTest => do
    let description := builder.description.getD ⟨"Imported veraPDF rule"⟩
    let test ← ruleTest sourceTest builder.unsupportedReason
    return {
      id := id
      objectType := objectType
      deferred := builder.deferred
      description := description
      test := test
      errorMessage := builder.message.getD description
      references := builder.references }

end XmlRuleBuilder

/-! ## The event loop -/

/-- `XmlTextTarget`. -/
inductive XmlTextTarget where
  | none
  | profileName
  | ruleDescription
  | ruleTest
  | ruleMessage
deriving DecidableEq, Repr

/-- The variables of `import_verapdf_profile_xml_impl`. -/
structure ImportState where
  elements : Nat := 0
  depth : Nat := 0
  profileName : Option BoundedText := none
  flavour : Option ValidationFlavour := none
  rules : List Rule := []
  currentRule : Option XmlRuleBuilder := none
  currentText : XmlTextTarget := .none
  currentTextBuffer : String := ""

/-- The functions of the XML crate behind the import. -/
structure ProfileXml where
  /-- `quick_xml::Reader::from_str` with `trim_text(true)`, read to the end. -/
  read : String → XmlReading
  /-- `BytesRef::resolve_char_ref`, with the text of its error. -/
  resolveCharRef : String → Except String (Option Char)

/-- `decode_xml_general_ref`. -/
def ProfileXml.decodeXmlGeneralRef (xml : ProfileXml) (reference : String) :
    Except PdfvError String :=
  match xml.resolveCharRef reference with
  | .error error => .error (invalidXml (reasonOr error "XML reference decode error"))
  | .ok (some character) => .ok (String.ofList [character])
  | .ok none =>
    match predefinedEntity reference with
    | some character => .ok (String.ofList [character])
    | none => invalidProfileXml "unsupported XML general reference"

namespace ImportState

variable (s : ImportState)

/-- `append_xml_text`. -/
def appendXmlText (value : String) : Except PdfvError ImportState := do
  failIf (maxProfileStringBytes < (utf8 s.currentTextBuffer).length + (utf8 value).length)
    (invalidXml ⟨"profile XML text exceeds string limit"⟩)
  return { s with currentTextBuffer := s.currentTextBuffer ++ value }

/-- The text is collected from here on. -/
def collect (target : XmlTextTarget) : ImportState :=
  { s with currentText := target, currentTextBuffer := "" }

/-- One more element. -/
def countElement : Except PdfvError ImportState := do
  failIf (maxProfileXmlElements < s.elements + 1) (invalidXml ⟨"profile XML exceeds element limit"⟩)
  return { s with elements := s.elements + 1 }

/-- The part of `Event::Start` and `Event::Empty` about the `id` of a rule. -/
def readId (element : XmlElement) : Except PdfvError ImportState :=
  match s.currentRule with
  | some rule => do
    let id ← ruleIdFromAttrs element
    return { s with currentRule := some { rule with id := some id } }
  | none => .ok s

/-- The part of `Event::Start` and `Event::Empty` about a `reference` of a rule. -/
def readReference (element : XmlElement) : Except PdfvError ImportState :=
  match s.currentRule with
  | some rule => do
    let reference ← referenceFromAttrs element
    return { s with currentRule := some { rule with references := rule.references ++ [reference] } }
  | none => .ok s

/-- The `match` of `Event::Start` on the name of the element. -/
def openElement (element : XmlElement) : Except PdfvError ImportState :=
  if element.name = "profile" then do
    let flavour ← profileFlavourAttr element
    return { s with flavour := flavour }
  else if element.name = "rule" then do
    failIf (maxProfileRules ≤ s.rules.length) (invalidXml ⟨"profile XML exceeds rule limit"⟩)
    let rule ← XmlRuleBuilder.fromRuleStart element
    return { s with currentRule := some rule }
  else if element.name = "name" && s.currentRule.isNone then .ok (s.collect .profileName)
  else if element.name = "description" && s.currentRule.isSome then
    .ok (s.collect .ruleDescription)
  else if element.name = "test" && s.currentRule.isSome then .ok (s.collect .ruleTest)
  else if element.name = "message" && s.currentRule.isSome then .ok (s.collect .ruleMessage)
  else if element.name = "id" then s.readId element
  else if element.name = "reference" then s.readReference element
  else .ok s

/-- `Event::Start`. -/
def start (element : XmlElement) : Except PdfvError ImportState := do
  validateElement element
  failIf (maxProfileXmlDepth < s.depth + 1) (invalidXml ⟨"profile XML exceeds depth limit"⟩)
  let s ← { s with depth := s.depth + 1 }.countElement
  s.openElement element

/-- `Event::Empty`. -/
def empty (element : XmlElement) : Except PdfvError ImportState := do
  validateElement element
  let s ← s.countElement
  if element.name = "id" then s.readId element
  else if element.name = "reference" then s.readReference element
  else return s

/-- `Event::Text` and `Event::CData`; the text of a `&str` is decoded as it is. -/
def text (value : String) : Except PdfvError ImportState :=
  if s.currentText = .none then .ok s else s.appendXmlText value

/-- `Event::GeneralRef`. -/
def generalRef (xml : ProfileXml) (reference : String) : Except PdfvError ImportState :=
  if s.currentText = .none then .ok s
  else do
    let value ← xml.decodeXmlGeneralRef reference
    s.appendXmlText value

/-- The collected text goes to where it belongs. -/
def assign (value : BoundedText) : ImportState :=
  match s.currentText with
  | .none => s
  | .profileName => { s with profileName := some value }
  | .ruleDescription =>
    { s with currentRule := s.currentRule.map fun rule => { rule with description := some value } }
  | .ruleTest =>
    { s with currentRule := s.currentRule.map fun rule => { rule with test := some value } }
  | .ruleMessage =>
    { s with currentRule := s.currentRule.map fun rule => { rule with message := some value } }

/-- The `match` of `Event::End` on the name of the element. -/
def closeElement (name : String) : Import ImportState :=
  if name ∈ ["name", "description", "test", "message"] then do
    let bounded ← imported (BoundedText.new s.currentTextBuffer maxProfileStringBytes)
    return (s.assign bounded).collect .none
  else if name = "rule" then
    match s.currentRule with
    | none => imported (invalidProfileXml "closing rule without start")
    | some builder => do
      let rule ← builder.finish
      return { s with currentRule := none, rules := s.rules ++ [rule] }
  else .ok s

/-- `Event::End`. -/
def close (name : String) : Import ImportState := do
  let s ← s.closeElement name
  failIf (s.depth = 0) (.failed (invalidXml ⟨"profile XML depth underflow"⟩))
  return { s with depth := s.depth - 1 }

/-- One turn of the event loop. -/
def event (xml : ProfileXml) (s : ImportState) : XmlEvent → Import ImportState
  | .start element => imported (s.start element)
  | .empty element => imported (s.empty element)
  | .text value => imported (s.text value)
  | .cData value => imported (s.text value)
  | .generalRef reference => imported (s.generalRef xml reference)
  | .close name => s.close name
  | .pi _ _ => .ok s
  | .decl => .ok s
  | .comment => .ok s
  | .docType => .ok s

end ImportState

/-- `ProfileImportSummary`. -/
structure ProfileImportSummary where
  profile : ValidationProfile
  supportedRules : Nat
  unsupportedRules : Nat

namespace ProfileXml

variable (xml : ProfileXml)

/-- The event loop. -/
def readEvents (reading : XmlReading) : Import ImportState := do
  let s ← reading.events.foldlM (ImportState.event xml) {}
  match reading.failure with
  | some error => .error (.failed (invalidXml (reasonOr error "XML parser error")))
  | none => return s

/-- `import_verapdf_profile_xml`. -/
def importVerapdfProfileXml (text : String) : Import ProfileImportSummary := do
  failIf (maxProfileXmlBytes < (utf8 text).length)
    (.failed (invalidXml ⟨"profile XML exceeds byte limit"⟩))
  let s ← xml.readEvents (xml.read text)
  match s.flavour with
  | none => imported (invalidProfileXml "profile flavour is missing")
  | some flavour => do
    let id ← imported (profileIdForFlavour flavour)
    let version ← imported (newIdentifier "verapdf-xml")
    return {
      profile := {
        identity := ⟨id, s.profileName.getD ⟨"veraPDF profile"⟩, some version⟩
        flavour := flavour
        rules := s.rules }
      supportedRules := (s.rules.filter fun rule => !rule.test.isUnsupported).length
      unsupportedRules := (s.rules.filter fun rule => rule.test.isUnsupported).length }

end ProfileXml

end Pdfv
