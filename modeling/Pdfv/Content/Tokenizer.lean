import Pdfv.Cos.Object
import Pdfv.Basic.Fallible
/-!
# Content-stream tokens

`ContentTokenizer`: the operands and operators of a decoded content stream. A reader takes the
position it starts at and returns the position it stops at. The loops move forward through the
bytes, so `bytes.length + 1` passes are enough.
-/

namespace Pdfv

open Loop Fallible

/-- Bounded operator name. -/
structure OperatorName where
  text : String
deriving DecidableEq, Repr

/-- `OperatorName::new`. -/
def OperatorName.new (bytes : Bytes) (limits : ResourceLimits) : Except ParseError OperatorName :=
  if bytes.isEmpty || bytes.length > limits.maxContentStreamOperatorNameBytes then
    .error (.limitExceeded "max_content_stream_operator_name_bytes")
  else .ok ⟨utf8Lossy bytes⟩

/-- Operand of a content-stream operator. -/
inductive Operand where
  | name (value : PdfName)
  | integer (value : Int)
  | bytes (count : Nat)
  | composite (bytes : Bytes)
  | keyword (bytes : Bytes)
deriving DecidableEq, Repr

/-- `Operand::byte_len`. -/
def Operand.byteLen : Operand → Nat
  | .name value => value.bytes.length
  | .integer value => (toString value).length
  | Operand.bytes count => count
  | .composite slice | .keyword slice => slice.length

/-- One token of a content stream; an operator keeps its offset. -/
inductive Token where
  | operand (operand : Operand)
  | operator (op : OperatorName) (offset : Nat)

/-! ## Numbers -/

/-- `parse_integer`. -/
def parseInteger (token : Bytes) : Option Int :=
  if (splitSign token).2.all isDigit then parseI64 token else none

/-- The digits of an exponent and its sign, after the `e` of a decimal number. -/
def exponentPart : Bytes → Option Int
  | [] => some 0
  | e :: rest =>
    let (neg, digits) := splitSign rest
    if (e = 101 || e = 69) && !digits.isEmpty && digits.all isDigit then
      some (if neg then -(digitsValue digits : Int) else digitsValue digits)
    else none

/-- Whether `m * 10 ^ e` rounds to a finite double: it is below `2 ^ 1024 - 2 ^ 970`. -/
def decimalIsFinite (m : Nat) (e : Int) : Bool :=
  if m = 0 || e < 0 && m < 2 ^ 1023 then true
  else if e ≥ 0 then decide (e ≤ 309 ∧ m * 10 ^ e.toNat < 2 ^ 1024 - 2 ^ 970)
  else decide (m < (2 ^ 1024 - 2 ^ 970) * 10 ^ (-e).toNat)

/-- `is_number_like`: the token parses as a finite `f64`. -/
def isNumberLike (token : Bytes) : Bool :=
  let (_, body) := splitSign token
  let whole := body.takeWhile isDigit
  let afterWhole := body.drop whole.length
  let (fraction, rest) := match afterWhole with
    | 46 :: tail => (tail.takeWhile isDigit, tail.dropWhile isDigit)
    | _ => ([], afterWhole)
  match exponentPart rest with
  | some e => !(whole ++ fraction).isEmpty
      && decimalIsFinite (digitsValue (whole ++ fraction)) (e - fraction.length)
  | none => false

/-- `is_keyword_operand`. -/
def isKeywordOperand (token : Bytes) : Bool :=
  token = utf8 "true" || token = utf8 "false" || token = utf8 "null" || token = utf8 "R"

/-! ## Names -/

/-- `decode_name`: `#xx` escapes are decoded, any other byte stands for itself. -/
def decodeNameBytes : Bytes → Bytes
  | 35 :: high :: low :: rest =>
    match decodeHexPair high low with
    | some byte => byte :: decodeNameBytes rest
    | none => 35 :: decodeNameBytes (high :: low :: rest)
  | byte :: rest => byte :: decodeNameBytes rest
  | [] => []

def decodeName (bytes : Bytes) (limits : ResourceLimits) : Except ParseError Bytes := do
  let decoded := decodeNameBytes bytes
  failIf (decoded.length > limits.maxNameBytes) (.limitExceeded "max_name_bytes")
  return decoded

namespace ContentTokenizer

variable (bytes : Bytes) (limits : ResourceLimits)

/-- One pass of a loop that moves over the bytes with a property. -/
def consumeWhileStep (p : UInt8 → Bool) (pos : Nat) : Step Nat Nat :=
  match bytes[pos]? with
  | some b => if p b then .next (pos + 1) else .done pos
  | none => .done pos

def consumeWhile (p : UInt8 → Bool) (pos : Nat) : Nat :=
  runLoop (consumeWhileStep bytes p) id (bytes.length + 1) pos

/-- `consume_until_delimiter`. -/
def consumeUntilDelimiter (pos : Nat) : Nat :=
  consumeWhile bytes (fun b => !isWs b && !isDelimiter b) pos

def skipWsAndCommentsStep (pos : Nat) : Step Nat Nat :=
  let pos := consumeWhile bytes isWs pos
  if bytes[pos]? = some 37 then .next (consumeWhile bytes (fun b => !isEol b) pos) else .done pos

/-- `skip_ws_and_comments`. -/
def skipWsAndComments (pos : Nat) : Nat :=
  runLoop (skipWsAndCommentsStep bytes) id (bytes.length + 1) pos

def literalStringStep (s : Nat × Nat) : Step (Nat × Nat) (Except ParseError Nat) :=
  let (pos, depth) := s
  match bytes[pos]? with
  | none => .done (.error (.bad "unterminated literal string in content stream"))
  | some 92 => .next (pos + 2, depth)
  | some 40 =>
    if depth + 1 < u32Size then .next (pos + 1, depth + 1)
    else .done (.error (.arithmeticOverflow "literal string depth"))
  | some 41 => if depth - 1 = 0 then .done (.ok (pos + 1)) else .next (pos + 1, depth - 1)
  | some _ => .next (pos + 1, depth)

/-- `consume_literal_string`: the position after the closing parenthesis. -/
def consumeLiteralString (pos : Nat) : Except ParseError Nat :=
  runLoop (literalStringStep bytes)
    (fun _ => .error (.bad "unterminated literal string in content stream"))
    (bytes.length + 1) (pos + 1, 1)

def hexStringStep (pos : Nat) : Step Nat (Except ParseError Nat) :=
  match bytes[pos]? with
  | none => .done (.error (.bad "unterminated hex string in content stream"))
  | some 62 => .done (.ok (pos + 1))
  | some _ => .next (pos + 1)

/-- `consume_hex_string`: the position after `>`. -/
def consumeHexString (pos : Nat) : Except ParseError Nat :=
  runLoop (hexStringStep bytes) (fun _ => .error (.bad "unterminated hex string in content stream"))
    (bytes.length + 1) (pos + 1)

/-- The depth check at the end of a pass of `consume_composite_range`. -/
def compositeNext (pos : Nat) (stack : Bytes) : Step (Nat × Bytes) (Except ParseError Nat) :=
  if stack.length > limits.maxObjectDepth then .done (.error (.limitExceeded "max_object_depth"))
  else .next (pos, stack)

/-- A closing delimiter: it must match the innermost open one. -/
def compositeClose (close : UInt8) (message : String) (pos : Nat) (stack : Bytes) :
    Step (Nat × Bytes) (Except ParseError Nat) :=
  if stack.head? = some close then
    if stack.tail.isEmpty then .done (.ok pos) else compositeNext limits pos stack.tail
  else .done (.error (.bad message))

def compositeStep (s : Nat × Bytes) : Step (Nat × Bytes) (Except ParseError Nat) :=
  let (pos, stack) := s
  let next := bytes[pos + 1]?
  match bytes[pos]? with
  | none => .done (.error (.bad "unterminated composite operand"))
  | some b =>
    if b = 91 then compositeNext limits (pos + 1) (93 :: stack)
    else if b = 60 ∧ next = some 60 then compositeNext limits (pos + 2) (62 :: stack)
    else if b = 93 then compositeClose limits 93 "mismatched array delimiter" (pos + 1) stack
    else if b = 62 ∧ next = some 62 then
      compositeClose limits 62 "mismatched dictionary delimiter" (pos + 2) stack
    else if b = 40 then
      match consumeLiteralString bytes pos with
      | .ok pos => compositeNext limits pos stack
      | .error e => .done (.error e)
    else if b = 60 then
      match consumeHexString bytes pos with
      | .ok pos => compositeNext limits pos stack
      | .error e => .done (.error e)
    else compositeNext limits (pos + 1) stack

/-- `consume_composite_range`: the position after the matching closing delimiter. -/
def consumeCompositeRange (pos : Nat) : Except ParseError Nat :=
  runLoop (compositeStep bytes limits) (fun _ => .error (.bad "unterminated composite operand"))
    (bytes.length + 1) (pos, [])

/-- `consume_composite_bytes`. -/
def consumeCompositeBytes (pos : Nat) : Except ParseError (Bytes × Nat) := do
  let stop ← consumeCompositeRange bytes limits pos
  failIf (stop - pos > limits.maxContentStreamOperandBytes)
    (.limitExceeded "max_content_stream_operand_bytes")
  match subrange bytes pos stop with
  | some slice => return (slice, stop)
  | none => .error (.arithmeticOverflow "dictionary operand bounds")

/-- `consume_regular_token`. -/
def consumeRegularToken (start : Nat) : Except ParseError (Token × Nat) :=
  let stop := consumeUntilDelimiter bytes start
  let slice := (bytes.drop start).take (stop - start)
  if isKeywordOperand slice then .ok (.operand (.keyword slice), stop)
  else
    match parseInteger slice with
    | some integer => .ok (.operand (.integer integer), stop)
    | none =>
      if isNumberLike slice then .ok (.operand (.bytes slice.length), stop)
      else do
        let op ← OperatorName.new slice limits
        return (.operator op start, stop)

/-- `next_token`. -/
def nextToken (pos : Nat) : Except ParseError (Option Token × Nat) := do
  let start := skipWsAndComments bytes pos
  let next := bytes[start + 1]?
  match bytes[start]? with
  | none => return (none, start)
  | some b =>
    if b = 47 then
      let stop := consumeUntilDelimiter bytes (start + 1)
      let name ← decodeName ((bytes.drop (start + 1)).take (stop - (start + 1))) limits
      let name ← PdfName.new name limits
      return (some (.operand (.name name)), stop)
    else if b = 40 then
      let stop ← consumeLiteralString bytes start
      return (some (.operand (.bytes (stop - start))), stop)
    else if b = 60 ∧ next ≠ some 60 then
      let stop ← consumeHexString bytes start
      return (some (.operand (.bytes (stop - start))), stop)
    else if b = 91 then
      let stop ← consumeCompositeRange bytes limits start
      return (some (.operand (.bytes (stop - start))), stop)
    else if b = 60 then
      let (slice, stop) ← consumeCompositeBytes bytes limits start
      return (some (.operand (.composite slice)), stop)
    else
      let (token, stop) ← consumeRegularToken bytes limits start
      return (some token, stop)

/-! ## Inline images -/

/-- The entries of an inline image read so far and a key that waits for its value. -/
structure InlineState where
  pos : Nat
  values : List (String × Operand)
  key : Option PdfName

/-- `values.insert(key, operand)` for a waiting key. A later entry hides an earlier one. -/
def InlineState.take (s : InlineState) (pos : Nat) (operand : Operand) : InlineState :=
  match s.key with
  | some name => ⟨pos, (utf8Lossy name.bytes, operand) :: s.values, none⟩
  | none => { s with pos }

def inlineStep (s : InlineState) : Step InlineState (Except ParseError InlineState) :=
  match nextToken bytes limits s.pos with
  | .error e => .done (.error e)
  | .ok (none, pos) => .done (.ok { s with pos })
  | .ok (some (.operator op _), pos) =>
    if op.text = "ID" then .done (.ok { s with pos })
    else .next (s.take pos (.keyword (utf8 op.text)))
  | .ok (some (.operand operand), pos) =>
    match operand, s.key with
    | .name name, none => .next { s with pos, key := some name }
    | _, _ => .next (s.take pos operand)

def inlineDataStep (start pos : Nat) : Step Nat (Except ParseError Nat) :=
  if bytes.length ≤ pos then .done (.error (.bad "inline image missing EI terminator"))
  else if pos - start > limits.maxInlineImageBytes then
    .done (.error (.limitExceeded "max_inline_image_bytes"))
  else if bytes[pos]? = some 69 ∧ bytes[pos + 1]? = some 73 ∧ 1 ≤ pos
      ∧ (bytes[pos - 1]?).any isWs
      ∧ (bytes[pos + 2]?).all (fun b => isWs b || isDelimiter b) then .done (.ok (pos + 2))
  else .next (pos + 1)

/-- `consume_inline_image_data`: the position after `EI`. -/
def consumeInlineImageData (pos : Nat) : Except ParseError Nat :=
  let start := if (bytes[pos]?).any isWs then pos + 1 else pos
  runLoop (inlineDataStep bytes limits start)
    (fun _ => .error (.bad "inline image missing EI terminator")) (bytes.length + 1) start

/-- Summary of an inline image dictionary. -/
structure InlineImageSummary where
  width : Option Nat
  height : Option Nat
  colorSpace : Option PdfName
  bitsPerComponent : Option Nat
  filters : List PdfName

/-- `inline_u64`. -/
def inlineU64 (values : List (String × Operand)) (key : String) : Option Nat :=
  match values.lookup key with
  | some (.integer value) => u64OfInt value
  | _ => none

/-- `inline_name`. -/
def inlineName (values : List (String × Operand)) (key : String) : Option PdfName :=
  match values.lookup key with
  | some (.name value) => some value
  | _ => none

/-- `parse_inline_image`. -/
def parseInlineImage (pos : Nat) : Except ParseError (InlineImageSummary × Nat) := do
  let s ← runLoop (inlineStep bytes limits) (fun s => .ok s) (bytes.length + 1) ⟨pos, [], none⟩
  let pos ← consumeInlineImageData bytes limits s.pos
  let summary : InlineImageSummary :=
    { width := (inlineU64 s.values "W").or (inlineU64 s.values "Width")
      height := (inlineU64 s.values "H").or (inlineU64 s.values "Height")
      colorSpace := (inlineName s.values "CS").or (inlineName s.values "ColorSpace")
      bitsPerComponent := (inlineU64 s.values "BPC").or (inlineU64 s.values "BitsPerComponent")
      filters := ["F", "Filter"].filterMap (inlineName s.values) }
  return (summary, pos)

end ContentTokenizer

end Pdfv
