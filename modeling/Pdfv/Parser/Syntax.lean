import Pdfv.Parser.Tokens
/-!
# The object parser

`parse_object`, `parse_dictionary` and `parse_array` call each other; here they share one amount of
fuel. A nested object is reached through at most three calls per byte consumed, so
`objectFuel src` calls are enough for every object of the source.
-/

namespace Pdfv

namespace ByteSource

variable (src : ByteSource) (limits : ResourceLimits)

/-- `depth.saturating_add(1)` on a `u32`. -/
def deeper (depth : Nat) : Nat :=
  min (depth + 1) (u32Size - 1)

/-- The branches of `parse_object` without nested objects, which look at the next byte. -/
def parseScalar (b : UInt8) (pos : Nat) : Except ParseError (CosObject × Nat) :=
  if b = 47 then do
    let (name, pos) ← src.parseName limits pos
    return (.name name, pos)
  else if b = 40 then do
    let (string, pos) ← src.parseLiteralString limits pos
    return (.string string, pos)
  else if b = 60 then do
    let (string, pos) ← src.parseHexString limits pos
    return (.string string, pos)
  else if b = 116 && src.startsWith pos (utf8 "true") then do
    let pos ← src.consumeBytes (utf8 "true") pos
    return (.boolean true, pos)
  else if b = 102 && src.startsWith pos (utf8 "false") then do
    let pos ← src.consumeBytes (utf8 "false") pos
    return (.boolean false, pos)
  else if b = 110 && src.startsWith pos (utf8 "null") then do
    let pos ← src.consumeBytes (utf8 "null") pos
    return (.null, pos)
  else if b = 45 || b = 43 || b = 46 || isDigit b then src.parseNumberOrReference pos
  else .error (unexpectedToken pos)

mutual

/-- `parse_object`. -/
def parseObjectWith : Nat → Nat → Nat → Except ParseError (CosObject × Nat)
  | 0, _, pos => .error (unexpectedToken pos)
  | fuel + 1, depth, pos =>
    if depth > limits.maxObjectDepth then .error (.limitExceeded "max_object_depth")
    else
      let pos := src.skipWsAndComments pos
      if src.startsWith pos [60, 60] then do
        let (entries, pos) ← parseDictionaryWith fuel depth pos
        return (.dictionary entries, pos)
      else if src.startsWith pos [91] then do
        let (values, pos) ← parseArrayWith fuel depth pos
        return (.array values, pos)
      else
        match src.byte pos with
        | none => .error (unexpectedToken pos)
        | some b => src.parseScalar limits b pos

/-- `parse_dictionary`. -/
def parseDictionaryWith : Nat → Nat → Nat → Except ParseError (Dictionary × Nat)
  | 0, _, pos => .error (unexpectedToken pos)
  | fuel + 1, depth, pos => do
    let pos ← src.consumeBytes [60, 60] pos
    parseEntriesWith fuel depth [] pos

/-- The loop of `parse_dictionary`. -/
def parseEntriesWith : Nat → Nat → Dictionary → Nat → Except ParseError (Dictionary × Nat)
  | 0, _, _, pos => .error (unexpectedToken pos)
  | fuel + 1, depth, dictionary, pos =>
    let pos := src.skipWsAndComments pos
    if src.startsWith pos [62, 62] then do
      let pos ← src.consumeBytes [62, 62] pos
      return (dictionary, pos)
    else do
      let (key, pos) ← src.parseName limits pos
      let (value, pos) ← parseObjectWith fuel (deeper depth) pos
      if dictionary.length + 1 > limits.maxDictEntries then
        .error (.limitExceeded "max_dict_entries")
      else parseEntriesWith fuel depth (dictionary.insert key value) pos

/-- `parse_array`. -/
def parseArrayWith : Nat → Nat → Nat → Except ParseError (List CosObject × Nat)
  | 0, _, pos => .error (unexpectedToken pos)
  | fuel + 1, depth, pos => do
    let pos ← src.consumeBytes [91] pos
    parseElementsWith fuel depth [] pos

/-- The loop of `parse_array`. -/
def parseElementsWith :
    Nat → Nat → List CosObject → Nat → Except ParseError (List CosObject × Nat)
  | 0, _, _, pos => .error (unexpectedToken pos)
  | fuel + 1, depth, values, pos =>
    let pos := src.skipWsAndComments pos
    if src.startsWith pos [93] then do
      let pos ← src.consumeBytes [93] pos
      return (values, pos)
    else do
      let (value, pos) ← parseObjectWith fuel (deeper depth) pos
      if values.length + 1 > limits.maxArrayLen then .error (.limitExceeded "max_array_len")
      else parseElementsWith fuel depth (values ++ [value]) pos

end

/-- Enough calls for every object of the source. -/
def objectFuel : Nat :=
  3 * src.len + 6

/-- `parse_object(depth)`. -/
def parseObject (depth pos : Nat) : Except ParseError (CosObject × Nat) :=
  src.parseObjectWith limits src.objectFuel depth pos

/-- `parse_dictionary(depth)`. -/
def parseDictionary (depth pos : Nat) : Except ParseError (Dictionary × Nat) :=
  src.parseDictionaryWith limits src.objectFuel depth pos

end ByteSource

end Pdfv
