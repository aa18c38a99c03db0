import Pdfv.Parser.Source
import Pdfv.Basic.Fallible
/-!
# Token readers

The readers of `ByteParser` that only move the position: white space and comments, unsigned
numbers, names, strings and number tokens. Each takes the position it starts at and returns the
position it stops at. A `while` loop of the source is a step function run by `Loop.runLoop`; every
pass consumes a byte, so `src.len + 1` passes are enough.
-/

namespace Pdfv

open Loop Fallible

/-- `b"%%EOF"`. -/
def eofMarker : Bytes := utf8 "%%EOF"

namespace ByteSource

variable (src : ByteSource)

/-- One pass of a loop that moves over the bytes with a property. -/
def skipWhileStep (p : UInt8 → Bool) (pos : Nat) : Step Nat Nat :=
  match src.byte pos with
  | some b => if p b then .next (pos + 1) else .done pos
  | none => .done pos

/-- Moves over the bytes with a property. -/
def skipWhile (p : UInt8 → Bool) (pos : Nat) : Nat :=
  runLoop (src.skipWhileStep p) id (src.len - pos + 1) pos

def skipLineStep (pos : Nat) : Step Nat Nat :=
  match src.byte pos with
  | some b => if isEol b then .done (pos + 1) else .next (pos + 1)
  | none => .done pos

/-- `skip_line`: moves past the next LF or CR. -/
def skipLine (pos : Nat) : Nat :=
  runLoop src.skipLineStep id (src.len - pos + 1) pos

def skipWsAndCommentsStep (pos : Nat) : Step Nat Nat :=
  let pos := src.skipWhile isWs pos
  if src.startsWith pos eofMarker then .done pos
  else if src.byte pos = some 37 then .next (src.skipLine pos)
  else .done pos

/-- `skip_ws_and_comments`: stops at `%%EOF`, which is not a comment here. -/
def skipWsAndComments (pos : Nat) : Nat :=
  runLoop src.skipWsAndCommentsStep id (src.len - pos + 1) pos

/-- `skip_xref_spaces`. -/
def skipXrefSpaces (pos : Nat) : Nat :=
  src.skipWhile (fun b => b = 9 || b = 32) pos

/-- `skip_required_ws`. -/
def skipRequiredWs (pos : Nat) : Except ParseError Nat :=
  let stop := src.skipWhile isWs pos
  if stop = pos then .error (.bad "expected whitespace") else .ok stop

/-- `unexpected token at ..`. -/
def unexpectedToken (pos : Nat) : ParseError :=
  .malformed ⟨s!"unexpected token at {pos}"⟩

/-- `consume_bytes`. -/
def consumeBytes (expected : Bytes) (pos : Nat) : Except ParseError Nat :=
  if src.startsWith pos expected then .ok (pos + expected.length) else .error (unexpectedToken pos)

/-- `parse_unsigned::<T>` for an unsigned type with `size` values: white space and comments, then a
run of digits. Nothing when there is no digit. -/
def parseUnsigned (size pos : Nat) : Except ParseError (Option Nat × Nat) := do
  let start := src.skipWsAndComments pos
  let stop := src.skipWhile isDigit start
  if start = stop then return (none, stop)
  else
    let token ← src.slice start stop
    failIf (digitsValue token ≥ size) (.bad "unsigned integer out of range")
    return (some (digitsValue token), stop)

/-- `parse_unsigned_u32`. -/
def parseUnsignedU32 (pos : Nat) : Except ParseError (Option Nat × Nat) :=
  src.parseUnsigned u32Size pos

/-- `parse_unsigned_u16`. -/
def parseUnsignedU16 (pos : Nat) : Except ParseError (Option Nat × Nat) :=
  src.parseUnsigned u16Size pos

/-- `parse_fixed_digits`: exactly `count` digits; the position stays where it is when there are
not. -/
def parseFixedDigits (count pos : Nat) : Option Nat × Nat :=
  match src.slice pos (pos + count) with
  | .ok digits =>
    if digits.all isDigit then (some (digitsValue digits), pos + count) else (none, pos)
  | .error _ => (none, pos)

/-! ## Names and strings -/

variable (limits : ResourceLimits)

/-- What a name or string loop ends with: the bytes read and the position after them. -/
abbrev BytesResult := Except ParseError (Bytes × Nat)

/-- The name limit check at the end of each pass of the `parse_name` loop. -/
def checkNameLen (bytes : Bytes) (pos : Nat) : Step (Bytes × Nat) BytesResult :=
  if bytes.length > limits.maxNameBytes then .done (.error (.limitExceeded "max_name_bytes"))
  else .next (bytes, pos)

def parseNameStep (s : Bytes × Nat) : Step (Bytes × Nat) BytesResult :=
  let (bytes, pos) := s
  match src.byte pos with
  | none => .done (.ok (bytes, pos))
  | some b =>
    if isDelimiter b || isWs b then .done (.ok (bytes, pos))
    else if b = 35 then
      match src.byte (pos + 1), src.byte (pos + 2) with
      | some high, some low =>
        match decodeHexPair high low with
        | some decoded => checkNameLen limits (bytes ++ [decoded]) (pos + 3)
        | none => .done (.error (.bad "invalid name escape"))
      | _, _ => .done (.error (.bad "truncated name escape"))
    else checkNameLen limits (bytes ++ [b]) (pos + 1)

/-- `parse_name`. -/
def parseName (pos : Nat) : Except ParseError (PdfName × Nat) := do
  let pos ← src.consumeBytes [47] pos
  let (bytes, pos) ← runLoop (src.parseNameStep limits) (fun s => .ok s) (src.len - pos + 1)
    ([], pos)
  let name ← PdfName.new bytes limits
  return (name, pos)

/-- The byte that a one-letter escape stands for. -/
def unescape (b : UInt8) : UInt8 :=
  if b = 110 then 10 else if b = 114 then 13 else if b = 116 then 9 else if b = 98 then 8
  else if b = 102 then 12 else b

/-- The string limit check at the end of each pass of the `parse_literal_string` loop. -/
def checkStringLen (depth : Nat) (bytes : Bytes) (pos : Nat) :
    Step (Nat × Bytes × Nat) BytesResult :=
  if bytes.length > limits.maxStringBytes then .done (.error (.limitExceeded "max_string_bytes"))
  else .next (depth, bytes, pos)

def parseLiteralStringStep (s : Nat × Bytes × Nat) : Step (Nat × Bytes × Nat) BytesResult :=
  let (depth, bytes, pos) := s
  match src.byte pos with
  | none => .done (.error (.bad "unterminated literal string"))
  | some b =>
    if b = 92 then
      match src.byte (pos + 1) with
      | none => .done (.error (.bad "truncated string escape"))
      | some escaped => checkStringLen limits depth (bytes ++ [unescape escaped]) (pos + 2)
    else if b = 40 then
      if depth + 1 < u32Size then checkStringLen limits (depth + 1) (bytes ++ [b]) (pos + 1)
      else .done (.error (.arithmeticOverflow "string nesting"))
    else if b = 41 then
      if depth - 1 = 0 then .done (.ok (bytes, pos + 1))
      else checkStringLen limits (depth - 1) (bytes ++ [b]) (pos + 1)
    else checkStringLen limits depth (bytes ++ [b]) (pos + 1)

/-- `parse_literal_string`. -/
def parseLiteralString (pos : Nat) : Except ParseError (PdfString × Nat) := do
  let pos ← src.consumeBytes [40] pos
  let (bytes, pos) ← runLoop (src.parseLiteralStringStep limits)
    (fun _ => .error (.bad "unterminated literal string")) (src.len - pos + 1) (1, [], pos)
  let string ← PdfString.new bytes limits
  return (string, pos)

def hexNibblesStep (s : Bytes × Nat) : Step (Bytes × Nat) (Bytes × Nat) :=
  let (nibbles, pos) := s
  match src.byte pos with
  | none => .done (nibbles, pos)
  | some b =>
    if b = 62 then .done (nibbles, pos + 1)
    else .next (if isWs b then nibbles else nibbles ++ [b], pos + 1)

/-- The bytes that pairs of hexadecimal digits spell; a missing last digit is `0`. -/
def decodeHexPairs : Bytes → Option Bytes
  | [] => some []
  | [high] => (decodeHexPair high 48).map ([·])
  | high :: low :: rest => do
    let b ← decodeHexPair high low
    let rest ← decodeHexPairs rest
    return b :: rest

/-- `parse_hex_string`: an unterminated string ends with the input. -/
def parseHexString (pos : Nat) : Except ParseError (PdfString × Nat) := do
  let pos ← src.consumeBytes [60] pos
  let (nibbles, pos) := runLoop src.hexNibblesStep id (src.len - pos + 1) ([], pos)
  match decodeHexPairs nibbles with
  | some bytes =>
    let string ← PdfString.new bytes limits
    return (string, pos)
  | none => .error (.bad "invalid hex string")

/-! ## Numbers and references -/

/-- `NumberToken`. -/
inductive NumberToken where
  | integer (value : Int)
  | real (value : F64)

/-- The object of a number token. -/
def NumberToken.toObject : NumberToken → CosObject
  | integer value => .integer value
  | real value => .real value

/-- `parse_number_token`: an optional sign, then digits and dots. -/
def parseNumberToken (pos : Nat) : Except ParseError (NumberToken × Nat) := do
  let start := src.skipWsAndComments pos
  let body := if src.byte start = some 43 || src.byte start = some 45 then start + 1 else start
  let stop := src.skipWhile (fun b => b = 46 || isDigit b) body
  let token ← src.slice start stop
  if token.contains 46 then
    match parseF64 token with
    | .invalid => .error (.bad "invalid real number")
    | .infinite => .error (.bad "non-finite real number")
    | .finite value => return (.real value, stop)
  else
    match parseI64 token with
    | none => .error (.bad "invalid integer")
    | some value => return (.integer value, stop)

/-- The part of `parse_number_or_reference` that looks for `generation R` after a first integer
that ends at `pos`. Nothing when the integer is a plain number; a generation that does not fit
`u16` is an error. -/
def parseReferenceTail (firstInteger : Int) (pos : Nat) :
    Except ParseError (Option (ObjectKey × Nat)) :=
  match src.skipRequiredWs pos with
  | .error _ => .ok none
  | .ok pos => do
    let (generation, pos) ← src.parseUnsignedU16 pos
    match generation with
    | none => return none
    | some generation =>
      match src.skipRequiredWs pos with
      | .error _ => return none
      | .ok pos =>
        if src.startsWith pos [82] then
          let pos ← src.consumeBytes [82] pos
          if 0 ≤ firstInteger ∧ firstInteger < u32Size then
            if h : 0 < firstInteger.toNat ∧ firstInteger.toNat < u32Size ∧ generation < u16Size then
              return some (⟨firstInteger.toNat, generation, h.1, h.2.1, h.2.2⟩, pos)
            else return none
          else .error (.bad "reference object number out of range")
        else return none

/-- The reference that a first number token starts; a real starts none. -/
def parseReferenceAfter (first : NumberToken) (pos : Nat) :
    Except ParseError (Option (ObjectKey × Nat)) :=
  match first with
  | .integer firstInteger => src.parseReferenceTail firstInteger pos
  | .real _ => .ok none

/-- `parse_number_or_reference`: a number that starts no reference is read again. -/
def parseNumberOrReference (pos : Nat) : Except ParseError (CosObject × Nat) := do
  let (first, afterFirst) ← src.parseNumberToken pos
  match ← src.parseReferenceAfter first afterFirst with
  | some (key, pos) => return (.reference key, pos)
  | none =>
    let (token, pos) ← src.parseNumberToken pos
    return (token.toObject, pos)

end ByteSource

end Pdfv
