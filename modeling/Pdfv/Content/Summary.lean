import Pdfv.Content.Tokenizer
/-!
# Content-stream summaries

`summarize_content_stream` reads the operators of a decoded content stream up to the operator cap
and retains a fact for each, the marked-content spans and the uses of named resources. The operator
dispatch is a table (`operatorKind`) and one definition for each kind of operator.
-/

namespace Pdfv

open Loop Fallible

/-- Content-stream resource family. -/
inductive ResourceFamily where
  | font
  | colorSpace
  | extGState
  | shading
  | xObject
deriving DecidableEq, Repr

/-- `ResourceFamily::as_str`. -/
def ResourceFamily.text : ResourceFamily → String
  | .font => "font"
  | .colorSpace => "colorSpace"
  | .extGState => "extGState"
  | .shading => "shading"
  | .xObject => "xObject"

/-- Redacted and bounded operator fact. -/
inductive OperatorFact where
  | textObject (op : OperatorName) (location : ObjectLocation)
  | textState (op : OperatorName) (location : ObjectLocation)
  | textPosition (op : OperatorName) (location : ObjectLocation)
  | textShow (op : OperatorName) (bytes : Nat) (location : ObjectLocation)
  | markedContent (tag : PdfName) (properties : Option ObjectKey) (location : ObjectLocation)
  | graphicsState (op : OperatorName) (location : ObjectLocation)
  | color (op : OperatorName) (operandCount operandBytes : Nat) (location : ObjectLocation)
  | xObjectInvoke (name : PdfName) (location : ObjectLocation)
  | inlineImage (width height : Option Nat) (colorSpace : Option PdfName)
      (bitsPerComponent : Option Nat) (filters : List PdfName) (location : ObjectLocation)
  | path (op : OperatorName) (location : ObjectLocation)
  | compatibility (op : OperatorName) (location : ObjectLocation)
  | unknown (op : OperatorName) (operandCount : Nat) (location : ObjectLocation)
deriving DecidableEq, Repr

namespace OperatorFact

/-- `OperatorFact::op_name`. -/
def opName : OperatorFact → String
  | textObject op _ | textState op _ | textPosition op _ | textShow op _ _ | graphicsState op _
  | color op _ _ _ | path op _ | compatibility op _ | unknown op _ _ => op.text
  | markedContent _ _ _ => "markedContent"
  | xObjectInvoke _ _ => "Do"
  | inlineImage _ _ _ _ _ _ => "BI"

/-- `OperatorFact::family`. -/
def family : OperatorFact → String
  | textObject _ _ | textState _ _ | textPosition _ _ => "text"
  | textShow _ _ _ => "textShow"
  | markedContent _ _ _ => "markedContent"
  | graphicsState _ _ => "graphicsState"
  | color _ _ _ _ => "color"
  | xObjectInvoke _ _ => "xObject"
  | inlineImage _ _ _ _ _ _ => "inlineImage"
  | path _ _ => "path"
  | compatibility _ _ => "compatibility"
  | unknown _ _ _ => "unknown"

/-- `OperatorFact::location`. -/
def location : OperatorFact → ObjectLocation
  | textObject _ l | textState _ l | textPosition _ l | textShow _ _ l | markedContent _ _ l
  | graphicsState _ l | color _ _ _ l | xObjectInvoke _ l | inlineImage _ _ _ _ _ l | path _ l
  | compatibility _ l | unknown _ _ l => l

/-- `OperatorFact::is_unknown`. -/
def isUnknown : OperatorFact → Bool
  | unknown _ _ _ => true
  | _ => false

/-- `matches!(fact, OperatorFact::InlineImage { .. })`. -/
def isInlineImage : OperatorFact → Bool
  | inlineImage _ _ _ _ _ _ => true
  | _ => false

/-- The facts `ContentStreamSummary::has_text` looks for. -/
def isText : OperatorFact → Bool
  | textObject _ _ | textState _ _ | textPosition _ _ | textShow _ _ _ => true
  | _ => false

/-- `OperatorFact::operand_count`. -/
def operandCount : OperatorFact → Nat
  | unknown _ count _ => count
  | color _ count _ _ => count
  | _ => 0

end OperatorFact

/-- Marked-content span summary. -/
structure MarkedContentSpan where
  tag : PdfName
  nestingDepth : Nat
  mcid : Option Int
  properties : Option ObjectKey
  propertiesName : Option PdfName
  hasText : Bool
  hasImage : Bool
  location : ObjectLocation
deriving DecidableEq, Repr

/-- A named resource referenced by an operator. -/
structure ResourceUse where
  family : ResourceFamily
  name : PdfName
  operator : OperatorName
  location : ObjectLocation
deriving DecidableEq, Repr

/-- Bounded parsed summary for one decoded content stream. -/
structure ContentStreamSummary where
  source : ObjectKey
  operatorsSeen : Nat
  facts : List OperatorFact
  markedContent : List MarkedContentSpan
  resourceUses : List ResourceUse
  warnings : List ValidationWarning
  truncated : Bool
deriving DecidableEq, Repr

namespace ContentStreamSummary

def hasText (summary : ContentStreamSummary) : Bool :=
  summary.facts.any OperatorFact.isText

def hasMarkedContent (summary : ContentStreamSummary) : Bool :=
  !summary.markedContent.isEmpty

def hasInlineImage (summary : ContentStreamSummary) : Bool :=
  summary.facts.any OperatorFact.isInlineImage

def hasUnknownOperators (summary : ContentStreamSummary) : Bool :=
  summary.facts.any OperatorFact.isUnknown

end ContentStreamSummary

/-! ## Operands -/

/-- The name in an operand. -/
def Operand.asName : Operand → Option PdfName
  | .name value => some value
  | _ => none

/-- `first_name_operand`. -/
def firstNameOperand (operands : List Operand) : Option PdfName :=
  operands.findSome? Operand.asName

/-- `properties_name`: the second name among the operands. -/
def propertiesName (operands : List Operand) : Option PdfName :=
  (operands.filterMap Operand.asName)[1]?

/-- `parse_mcid_from_dictionary`. -/
def parseMcidFromDictionary (bytes : Bytes) : Option Int := do
  let start ← findBytes bytes (utf8 "/MCID") 0
  let rest := (bytes.drop (start + 5)).dropWhile isAsciiWhitespace
  let sign := if rest.head? = some 45 then [45] else []
  let digits := (rest.drop sign.length).takeWhile isDigit
  if digits.isEmpty then none else parseI64 (sign ++ digits)

/-- The identifier in an inline property dictionary. -/
def Operand.mcid : Operand → Option Int
  | .composite slice => parseMcidFromDictionary slice
  | _ => none

/-- `inline_mcid`. -/
def inlineMcid (operands : List Operand) : Option Int :=
  operands.findSome? Operand.mcid

/-- `u32::try_from(number)` and `NonZeroU32::new`, `u16::try_from(generation)`. -/
def objectKeyOfInts (number generation : Int) : Option ObjectKey :=
  if h : 0 < number ∧ number < u32Size ∧ 0 ≤ generation ∧ generation < u16Size then
    some ⟨number.toNat, generation.toNat, by omega, by omega, by omega⟩
  else none

/-- `properties_reference`: the last three operands are `number generation R`. -/
def propertiesReference (operands : List Operand) : Option ObjectKey :=
  match operands.reverse with
  | .keyword keyword :: .integer generation :: .integer number :: _ =>
    if keyword = utf8 "R" then objectKeyOfInts number generation else none
  | _ => none

/-! ## Operators -/

/-- The arms of `classify_operator`. -/
inductive OperatorKind where
  | inlineImage
  | textObject
  | textState
  | textPosition
  | textShow
  | markedContent
  | endMarkedContent
  | save
  | restore
  | graphicsState
  | extGState
  | colorSpace
  | color
  | shading
  | xObject
  | path
  | compatibility
  | unknown
deriving DecidableEq, Repr

/-- The operators of each arm of `classify_operator`. -/
def operatorTable : List (OperatorKind × List String) :=
  [(.inlineImage, ["BI"]), (.textObject, ["BT", "ET"]),
   (.textState, ["Tc", "Tw", "Tz", "TL", "Tf", "Tr", "Ts"]),
   (.textPosition, ["Td", "TD", "Tm", "T*"]), (.textShow, ["Tj", "TJ", "'", "\""]),
   (.markedContent, ["BMC", "BDC", "MP", "DP"]), (.endMarkedContent, ["EMC"]), (.save, ["q"]),
   (.restore, ["Q"]), (.graphicsState, ["cm", "w", "J", "j", "M", "d", "ri", "i"]),
   (.extGState, ["gs"]), (.colorSpace, ["CS", "cs"]),
   (.color, ["SC", "SCN", "sc", "scn", "G", "g", "RG", "rg", "K", "k"]), (.shading, ["sh"]),
   (.xObject, ["Do"]),
   (.path, ["m", "l", "c", "v", "y", "h", "re", "S", "s", "f", "F", "f*", "B", "B*", "b", "b*",
     "n", "W", "W*"]),
   (.compatibility, ["BX", "EX"])]

def operatorKind (op : String) : OperatorKind :=
  match operatorTable.find? fun row => row.2.contains op with
  | some row => row.1
  | none => .unknown

/-- The state of the operator loop of `summarize_content_stream`. -/
structure SummaryState where
  pos : Nat
  operands : List Operand
  operandBytes : Nat
  graphicsDepth : Nat
  markedDepth : Nat
  markedStack : List Nat
  summary : ContentStreamSummary

namespace SummaryState

def pushFact (s : SummaryState) (fact : OperatorFact) : SummaryState :=
  { s with summary := { s.summary with facts := s.summary.facts ++ [fact] } }

def warn (s : SummaryState) (message : String) : SummaryState :=
  { s with summary :=
      { s.summary with warnings := s.summary.warnings ++ [.general ⟨message⟩] } }

def pushUse (s : SummaryState) (resourceUse : ResourceUse) : SummaryState :=
  { s with summary := { s.summary with resourceUses := s.summary.resourceUses ++ [resourceUse] } }

/-- The use of the first name operand, when there is one. -/
def pushNamedUse (s : SummaryState) (family : ResourceFamily) (op : OperatorName)
    (location : ObjectLocation) : SummaryState :=
  match firstNameOperand s.operands with
  | some name => s.pushUse ⟨family, name, op, location⟩
  | none => s

/-- `mark_active_spans`: sets a flag on every open span. -/
def markActiveSpans (s : SummaryState) (mark : MarkedContentSpan → MarkedContentSpan) :
    SummaryState :=
  { s with summary :=
      { s.summary with
        markedContent := s.markedStack.foldl (fun spans index => spans.modify index mark)
          s.summary.markedContent } }

/-- `push_color_fact`. -/
def pushColorFact (s : SummaryState) (op : OperatorName) (location : ObjectLocation) :
    Except ParseError SummaryState :=
  if s.operands.length < u16Size then
    .ok (s.pushFact (.color op s.operands.length s.operandBytes location))
  else .error (.limitExceeded "max_content_stream_operand_count")

/-- `push_unknown`. -/
def pushUnknown (s : SummaryState) (op : OperatorName) (location : ObjectLocation) :
    Except ParseError SummaryState :=
  if s.operands.length < u16Size then .ok (s.pushFact (.unknown op s.operands.length location))
  else .error (.limitExceeded "max_content_stream_operand_count")

/-- `push_operand`. -/
def pushOperand (s : SummaryState) (limits : ResourceLimits) (operand : Operand) :
    Except ParseError SummaryState :=
  let nextBytes := s.operandBytes + operand.byteLen
  if nextBytes ≥ u64Size then .error (.arithmeticOverflow "content stream operand bytes")
  else if s.operands.length ≥ limits.maxContentStreamOperandCount
      || nextBytes > limits.maxContentStreamOperandBytes then
    .ok ({ s with operands := [], operandBytes := 0 }.warn "content stream operand cap reached")
  else .ok { s with operands := s.operands ++ [operand], operandBytes := nextBytes }

/-- `BMC`, `BDC`, `MP` and `DP`; the first two open a span. -/
def beginMarkedContent (s : SummaryState) (limits : ResourceLimits) (op : OperatorName)
    (location : ObjectLocation) : Except ParseError SummaryState := do
  let unknownName ← match firstNameOperand s.operands with
    | some tag => .ok tag
    | none => PdfName.new (utf8 "Unknown") limits
  let tag := unknownName
  let properties := propertiesReference s.operands
  let depth := s.markedDepth + 1
  let span : MarkedContentSpan :=
    ⟨tag, depth, inlineMcid s.operands, properties, propertiesName s.operands, false, false,
      location⟩
  let opened : SummaryState :=
    if op.text = "BMC" ∨ op.text = "BDC" then
      { s with
        markedDepth := depth, markedStack := s.summary.markedContent.length :: s.markedStack,
        summary := { s.summary with markedContent := s.summary.markedContent ++ [span] } }
    else s
  return opened.pushFact (.markedContent tag properties location)

end SummaryState

/-- `classify_operator`, with the position after the operator. -/
def classifyOperator (bytes : Bytes) (limits : ResourceLimits) (op : OperatorName)
    (location : ObjectLocation) (s : SummaryState) : Except ParseError SummaryState :=
  match operatorKind op.text with
  | .inlineImage => do
    let (inline, pos) ← ContentTokenizer.parseInlineImage bytes limits s.pos
    let s := s.markActiveSpans fun span => { span with hasImage := true }
    return { s with pos }.pushFact (.inlineImage inline.width inline.height inline.colorSpace
      inline.bitsPerComponent inline.filters location)
  | .textObject => .ok (s.pushFact (.textObject op location))
  | .textState =>
    let s := if op.text = "Tf" then s.pushNamedUse .font op location else s
    .ok (s.pushFact (.textState op location))
  | .textPosition => .ok (s.pushFact (.textPosition op location))
  | .textShow =>
    let s := s.markActiveSpans fun span => { span with hasText := true }
    .ok (s.pushFact (.textShow op s.operandBytes location))
  | .markedContent => s.beginMarkedContent limits op location
  | .endMarkedContent => do
    let tag ← PdfName.new (utf8 "EMC") limits
    return { s with markedDepth := s.markedDepth - 1, markedStack := s.markedStack.tail }.pushFact
      (.markedContent tag none location)
  | .save =>
    let s := if s.graphicsDepth ≥ limits.maxGraphicsStateDepth then
        s.warn "graphics state depth cap reached"
      else { s with graphicsDepth := s.graphicsDepth + 1 }
    .ok (s.pushFact (.graphicsState op location))
  | .restore =>
    .ok ({ s with graphicsDepth := s.graphicsDepth - 1 }.pushFact (.graphicsState op location))
  | .graphicsState => .ok (s.pushFact (.graphicsState op location))
  | .extGState =>
    .ok ((s.pushNamedUse .extGState op location).pushFact (.graphicsState op location))
  | .colorSpace => (s.pushNamedUse .colorSpace op location).pushColorFact op location
  | .color => s.pushColorFact op location
  | .shading => (s.pushNamedUse .shading op location).pushColorFact op location
  | .xObject =>
    match firstNameOperand s.operands with
    | some name =>
      let s := s.markActiveSpans fun span => { span with hasImage := true }
      .ok ((s.pushUse ⟨.xObject, name, op, location⟩).pushFact (.xObjectInvoke name location))
    | none => s.pushUnknown op location
  | .path => .ok (s.pushFact (.path op location))
  | .compatibility => .ok (s.pushFact (.compatibility op location))
  | .unknown => s.pushUnknown op location

/-- `operator_location`. -/
def operatorLocation (source : ObjectKey) (locationPath : String) (ordinal offset : Nat) :
    ObjectLocation :=
  ⟨some source, some offset, some ⟨s!"{locationPath}/operator[{ordinal}]"⟩⟩

section Summarize

variable (source : ObjectKey) (locationPath : String) (bytes : Bytes) (limits : ResourceLimits)

/-- An operator below the cap: it is counted and classified, and its operands are dropped. -/
def acceptOperator (op : OperatorName) (offset : Nat) (s : SummaryState) :
    Except ParseError SummaryState := do
  let seen := s.summary.operatorsSeen + 1
  failIf (seen ≥ u64Size) (.arithmeticOverflow "content stream operator count")
  let s := { s with summary := { s.summary with operatorsSeen := seen } }
  let s ← classifyOperator bytes limits op (operatorLocation source locationPath seen offset) s
  return { s with operands := [], operandBytes := 0 }

/-- Continues a loop with the state a computation yields, or stops with its error. -/
def continueState (next : Except ParseError SummaryState) :
    Step SummaryState (Except ParseError SummaryState) :=
  match next with
  | .ok s => .next s
  | .error e => .done (.error e)

/-- One token of the stream. -/
def summarizeStep (s : SummaryState) : Step SummaryState (Except ParseError SummaryState) :=
  match ContentTokenizer.nextToken bytes limits s.pos with
  | .error e => .done (.error e)
  | .ok (none, _) => .done (.ok s)
  | .ok (some (.operand operand), pos) =>
    continueState ({ s with pos }.pushOperand limits operand)
  | .ok (some (.operator op offset), pos) =>
    if s.summary.operatorsSeen ≥ limits.maxContentStreamOps then
      let s := s.warn "content stream operator cap reached"
      .done (.ok { s with pos, summary := { s.summary with truncated := true } })
    else continueState (acceptOperator source locationPath bytes limits op offset { s with pos })

/-- The state before the first token. -/
def SummaryState.initial : SummaryState :=
  ⟨0, [], 0, 0, 0, [], ⟨source, 0, [], [], [], [], false⟩⟩

/-- `summarize_content_stream`. -/
def summarizeContentStream : Except ParseError ContentStreamSummary := do
  let s ← runLoop (summarizeStep source locationPath bytes limits) (fun s => .ok s)
    (bytes.length + 1) (SummaryState.initial source)
  let s := if s.operands.isEmpty then s else s.warn "content stream ended with dangling operands"
  return s.summary

end Summarize

end Pdfv
