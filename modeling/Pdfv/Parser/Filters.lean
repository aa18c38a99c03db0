import Pdfv.Core.Crates
import Pdfv.Cos.Object
import Pdfv.Basic.Fallible
/-!
# Stream filters

The stream decoders of the parser (ASCIIHex, ASCII85, RunLength, LZW, Flate, Crypt and the
byte-preserving metadata mode), the TIFF and PNG predictors, and the chain of filters of one stream
(`decodedBytesWithRegistry`). Every decoder checks its output length against
`max_stream_decode_bytes` before it appends.
-/

namespace Pdfv

open Loop Fallible

/-- `DecoderOutput`. -/
structure DecoderOutput where
  bytes : Bytes
  metadataMode : Bool

/-- `StreamDecoder::decode`. -/
abbrev StreamDecoder := Bytes → DecodeParams → ResourceLimits → Except ParseError DecoderOutput

/-- Registry mapping PDF filter names to decoders. -/
abbrev DecoderRegistry := OrdMap PdfName StreamDecoder

/-- A failed stream decode with a fixed message. -/
def decodeError (message : String) : ParseError :=
  .streamDecode (bounded message)

/-- `enforce_decoded_len`. -/
def enforceDecodedLen (len maxDecodeBytes : Nat) : Except ParseError Unit :=
  if len > maxDecodeBytes then .error (.limitExceeded "max_stream_decode_bytes") else .ok ()

/-- `push_limited_byte`. -/
def pushLimitedByte (output : Bytes) (byte : UInt8) (maxDecodeBytes : Nat) :
    Except ParseError Bytes := do
  enforceDecodedLen (output.length + 1) maxDecodeBytes
  return output ++ [byte]

/-- `extend_limited`. -/
def extendLimited (output bytes : Bytes) (maxDecodeBytes : Nat) : Except ParseError Bytes := do
  enforceDecodedLen (output.length + bytes.length) maxDecodeBytes
  return output ++ bytes

/-! ## ASCIIHex -/

/-- The end of `AsciiHexDecoder::decode`: a last single digit is a high nibble. -/
def asciiHexFinish (output : Bytes) (high : Option UInt8) (maxDecodeBytes : Nat) :
    Except ParseError Bytes :=
  match high with
  | some previous => pushLimitedByte output (previous * 16) maxDecodeBytes
  | none => .ok output

/-- The loop of `AsciiHexDecoder::decode`. -/
def asciiHexLoop (maxDecodeBytes : Nat) :
    Bytes → Bytes → Option UInt8 → Except ParseError Bytes
  | [], output, high => asciiHexFinish output high maxDecodeBytes
  | b :: rest, output, high =>
    if isWs b then asciiHexLoop maxDecodeBytes rest output high
    else if b = 62 then asciiHexFinish output high maxDecodeBytes
    else
      match decodeHexDigit b with
      | none => .error (decodeError "invalid ASCIIHex digit")
      | some nibble =>
        match high with
        | some previous => do
          let output ← pushLimitedByte output (previous * 16 + nibble) maxDecodeBytes
          asciiHexLoop maxDecodeBytes rest output none
        | none => asciiHexLoop maxDecodeBytes rest output (some nibble)

/-- `AsciiHexDecoder`. -/
def asciiHexDecoder : StreamDecoder := fun input _ limits => do
  let output ← asciiHexLoop limits.maxStreamDecodeBytes input [] none
  return ⟨output, false⟩

/-! ## ASCII85 -/

/-- The `u32` value of five base-85 digits, most significant first. -/
def ascii85Value (group : Bytes) : Except ParseError Nat :=
  group.foldlM (fun value digit =>
    let next := value * 85 + digit.toNat
    if next < u32Size then .ok next else .error (decodeError "ASCII85 group overflows")) 0

/-- `u32::to_be_bytes`. -/
def toBeBytes32 (value : Nat) : Bytes :=
  [UInt8.ofNat (value / 2 ^ 24), UInt8.ofNat (value / 2 ^ 16), UInt8.ofNat (value / 2 ^ 8),
    UInt8.ofNat value]

/-- `append_ascii85_group`. -/
def appendAscii85Group (output group : Bytes) (outputBytes maxDecodeBytes : Nat) :
    Except ParseError Bytes := do
  let value ← ascii85Value group
  match subrange (toBeBytes32 value) 0 outputBytes with
  | some bytes => extendLimited output bytes maxDecodeBytes
  | none => .error (decodeError "invalid ASCII85 group length")

/-- The end of `Ascii85Decoder::decode`: a partial group is padded with the digit `u`. -/
def ascii85Finish (output group : Bytes) (maxDecodeBytes : Nat) : Except ParseError Bytes :=
  if group.isEmpty then .ok output
  else appendAscii85Group output (group ++ List.replicate (5 - group.length) 84)
    (group.length - 1) maxDecodeBytes

/-- The loop of `Ascii85Decoder::decode`. -/
def ascii85Loop (maxDecodeBytes : Nat) : Bytes → Bytes → Bytes → Except ParseError Bytes
  | [], output, group => ascii85Finish output group maxDecodeBytes
  | b :: rest, output, group =>
    if isWs b then ascii85Loop maxDecodeBytes rest output group
    else if b = 126 && rest.head? = some 62 then ascii85Finish output group maxDecodeBytes
    else if b = 122 then
      if !group.isEmpty then .error (decodeError "ASCII85 z inside a partial group")
      else do
        let output ← extendLimited output [0, 0, 0, 0] maxDecodeBytes
        ascii85Loop maxDecodeBytes rest output group
    else if !(33 ≤ b && b ≤ 117) then .error (decodeError "invalid ASCII85 digit")
    else
      let group := group ++ [b - 33]
      if group.length = 5 then do
        let output ← appendAscii85Group output group 4 maxDecodeBytes
        ascii85Loop maxDecodeBytes rest output []
      else ascii85Loop maxDecodeBytes rest output group

/-- `Ascii85Decoder`. -/
def ascii85Decoder : StreamDecoder := fun input _ limits => do
  let output ← ascii85Loop limits.maxStreamDecodeBytes input [] []
  return ⟨output, false⟩

/-! ## RunLength -/

/-- `for _ in 0..count { push_limited_byte(..)? }`. -/
def pushRepeated (byte : UInt8) (maxDecodeBytes : Nat) : Nat → Bytes → Except ParseError Bytes
  | 0, output => .ok output
  | count + 1, output => do
    let output ← pushLimitedByte output byte maxDecodeBytes
    pushRepeated byte maxDecodeBytes count output

/-- A loop pass that goes on with a new output or ends with its error. -/
def continueWith (output : Except ParseError Bytes) (pos : Nat) :
    Step (Bytes × Nat) (Except ParseError Bytes) :=
  match output with
  | .ok output => .next (output, pos)
  | .error e => .done (.error e)

/-- One segment of `RunLengthDecoder::decode`. -/
def runLengthStep (input : Bytes) (maxDecodeBytes : Nat) (s : Bytes × Nat) :
    Step (Bytes × Nat) (Except ParseError Bytes) :=
  let (output, pos) := s
  match input[pos]? with
  | none => .done (.ok output)
  | some length =>
    let pos := pos + 1
    if length = 128 then .done (.ok output)
    else if length < 128 then
      let stop := pos + (length.toNat + 1)
      match subrange input pos stop with
      | none => .done (.error (decodeError "RunLength literal exceeds input"))
      | some literal => continueWith (extendLimited output literal maxDecodeBytes) stop
    else
      match input[pos]? with
      | none => .done (.error (decodeError "RunLength repeat missing byte"))
      | some value =>
        continueWith (pushRepeated value maxDecodeBytes (257 - length.toNat) output) (pos + 1)

/-- `RunLengthDecoder`. -/
def runLengthDecoder : StreamDecoder := fun input _ limits => do
  let output ← runLoop (runLengthStep input limits.maxStreamDecodeBytes) (fun s => .ok s.1)
    (input.length + 1) ([], 0)
  return ⟨output, false⟩

/-! ## Predictors -/

/-- `checked_mul` and `checked_add` on a `u64`. -/
def checkedU64 (value : Nat) (context : String) : Except ParseError Nat :=
  if value < u64Size then .ok value else .error (.arithmeticOverflow context)

/-- `predictor_geometry`: the bytes of a row and the bytes of a pixel. -/
def predictorGeometry (params : DecodeParams) : Except ParseError (Nat × Nat) := do
  if params.colors = 0 || params.bitsPerComponent = 0 || params.columns = 0 then
    .error (decodeError "invalid predictor geometry")
  else
    let bitsPerRow ← checkedU64 (params.colors * params.bitsPerComponent * params.columns)
      "predictor row size"
    let rowBits ← checkedU64 (bitsPerRow + 7) "predictor row size"
    let pixelBits ← checkedU64 (params.colors * params.bitsPerComponent) "predictor pixel size"
    let pixelBits ← checkedU64 (pixelBits + 7) "predictor pixel size"
    return (rowBits / 8, max (pixelBits / 8) 1)

/-- The rows of a buffer whose length is a multiple of the row length. -/
def rowsOf (rowBytes : Nat) (bytes : Bytes) : List Bytes :=
  (List.range (bytes.length / rowBytes)).map fun row => (bytes.drop (row * rowBytes)).take rowBytes

/-- The in-place additions of `apply_tiff_predictor` along one row; `done` is the part of the row
already rewritten. -/
def tiffRowLoop (bytesPerPixel : Nat) : Bytes → Bytes → Bytes
  | done, [] => done
  | done, b :: rest =>
    let left := if bytesPerPixel ≤ done.length then (done[done.length - bytesPerPixel]?).getD 0 else 0
    tiffRowLoop bytesPerPixel (done ++ [b + left]) rest

/-- `apply_tiff_predictor`. -/
def applyTiffPredictor (bytes : Bytes) (params : DecodeParams) (maxDecodeBytes : Nat) :
    Except ParseError Bytes := do
  enforceDecodedLen bytes.length maxDecodeBytes
  let (rowBytes, bytesPerPixel) ← predictorGeometry params
  if rowBytes = 0 || bytes.length % rowBytes ≠ 0 then
    .error (decodeError "TIFF predictor row length mismatch")
  else return (rowsOf rowBytes bytes).flatMap (tiffRowLoop bytesPerPixel [])

/-- `paeth_predictor`. -/
def paethPredictor (left up upLeft : UInt8) : UInt8 :=
  let estimate : Int := left.toNat + up.toNat - upLeft.toNat
  let leftDistance := (estimate - left.toNat).natAbs
  let upDistance := (estimate - up.toNat).natAbs
  let upLeftDistance := (estimate - upLeft.toNat).natAbs
  if leftDistance ≤ upDistance ∧ leftDistance ≤ upLeftDistance then left
  else if upDistance ≤ upLeftDistance then up
  else upLeft

/-- `png_predictor_value`. -/
def pngPredictorValue (filter raw left up upLeft : UInt8) : Except ParseError UInt8 :=
  if filter = 0 then .ok raw
  else if filter = 1 then .ok (raw + left)
  else if filter = 2 then .ok (raw + up)
  else if filter = 3 then .ok (raw + UInt8.ofNat ((left.toNat + up.toNat) / 2))
  else if filter = 4 then .ok (raw + paethPredictor left up upLeft)
  else .error (decodeError "invalid PNG predictor filter")

/-- The byte `distance` places before the one that is written next. The position is an unchecked
subtraction in the source; a distance past the start of the output finds no byte. -/
def backByte (output : Bytes) (distance : Nat) (missing : String) : Except ParseError UInt8 :=
  if distance ≤ output.length then
    match output[output.length - distance]? with
    | some byte => .ok byte
    | none => .error (decodeError missing)
  else .error (decodeError missing)

/-- A neighbour of the byte that is written next: zero outside the image. -/
def neighbourByte (inside : Bool) (output : Bytes) (distance : Nat) (missing : String) :
    Except ParseError UInt8 :=
  if inside then backByte output distance missing else .ok 0

/-- The inner loop of `apply_png_predictor`: `output` ends just before the byte at `index` of the
row being decoded. -/
def pngRowLoop (filter : UInt8) (rowBytes bytesPerPixel : Nat) (firstRow : Bool) :
    Nat → Bytes → Bytes → Except ParseError Bytes
  | _, [], output => .ok output
  | index, raw :: rest, output => do
    let left ← neighbourByte (bytesPerPixel ≤ index) output bytesPerPixel
      "PNG predictor left byte missing"
    let up ← neighbourByte (!firstRow) output rowBytes "PNG predictor upper byte missing"
    let upLeft ← neighbourByte (!firstRow && bytesPerPixel ≤ index) output (rowBytes + bytesPerPixel)
      "PNG predictor upper-left byte missing"
    let value ← pngPredictorValue filter raw left up upLeft
    pngRowLoop filter rowBytes bytesPerPixel firstRow (index + 1) rest (output ++ [value])

/-- The outer loop of `apply_png_predictor` over the encoded rows. -/
def pngRowsLoop (rowBytes bytesPerPixel : Nat) :
    List Bytes → Bool → Bytes → Except ParseError Bytes
  | [], _, output => .ok output
  | row :: rows, firstRow, output =>
    match row with
    | [] => .error (decodeError "PNG predictor filter byte missing")
    | filter :: encoded => do
      let output ← pngRowLoop filter rowBytes bytesPerPixel firstRow 0 encoded output
      pngRowsLoop rowBytes bytesPerPixel rows false output

/-- `apply_png_predictor`. -/
def applyPngPredictor (bytes : Bytes) (params : DecodeParams) (maxDecodeBytes : Nat) :
    Except ParseError Bytes := do
  let (rowBytes, bytesPerPixel) ← predictorGeometry params
  let encodedRow := rowBytes + 1
  if bytes.length % encodedRow ≠ 0 then .error (decodeError "PNG predictor row length mismatch")
  else
    enforceDecodedLen (bytes.length / encodedRow * rowBytes) maxDecodeBytes
    pngRowsLoop rowBytes bytesPerPixel (rowsOf encodedRow bytes) true []

/-- `apply_predictor`. -/
def applyPredictor (bytes : Bytes) (params : DecodeParams) (maxDecodeBytes : Nat) :
    Except ParseError Bytes :=
  if params.predictor = 1 then .ok bytes
  else if params.predictor = 2 then applyTiffPredictor bytes params maxDecodeBytes
  else if 10 ≤ params.predictor ∧ params.predictor ≤ 15 then
    applyPngPredictor bytes params maxDecodeBytes
  else .error (decodeError "unsupported predictor")

/-! ## LZW -/

/-- Bit `pos` of a buffer, most significant bit of each byte first. -/
def bitAt (input : Bytes) (pos : Nat) : Nat :=
  ((input[pos / 8]?).getD 0).toNat / 2 ^ (7 - pos % 8) % 2

/-- `MsbBitReader::read_bits`: nothing when fewer than `bits` bits remain. -/
def readBits (input : Bytes) (bitPos bits : Nat) : Option Nat :=
  if input.length * 8 - bitPos < bits then none
  else some ((List.range bits).foldl (fun value i => value * 2 + bitAt input (bitPos + i)) 0)

/-- `initial_lzw_dictionary`: the 256 single bytes and two unused codes. -/
def initialLzwDictionary : List Bytes :=
  (List.range 256).map (fun b => [UInt8.ofNat b]) ++ [[], []]

/-- The local variables of `decode_lzw`. -/
structure LzwState where
  bitPos : Nat
  dictionary : List Bytes
  codeBits : Nat
  nextCode : Nat
  previous : Option Bytes
  output : Bytes

/-- The dictionary growth after an entry was written. -/
def lzwGrow (earlyChange : Nat) (previousEntry : Bytes) (first : UInt8) (s : LzwState) : LzwState :=
  if s.dictionary.length < 4096 then
    let nextCode := s.nextCode + 1
    let threshold := 2 ^ s.codeBits - min earlyChange 1
    { s with
      dictionary := s.dictionary ++ [previousEntry ++ [first]]
      nextCode
      codeBits := if nextCode ≥ threshold ∧ s.codeBits < 12 then s.codeBits + 1 else s.codeBits }
  else s

/-- The entry a code stands for: a dictionary entry, or the one about to be added. -/
def lzwEntry (s : LzwState) (code : Nat) : Except ParseError Bytes :=
  match s.dictionary[code]? with
  | some value => .ok value
  | none =>
    if code = s.nextCode then
      match s.previous with
      | none => .error (decodeError "LZW missing previous entry")
      | some [] => .error (decodeError "LZW empty previous entry")
      | some (first :: rest) => .ok (first :: rest ++ [first])
    else .error (decodeError "invalid LZW code")

/-- The `_` arm of `decode_lzw`: write the entry of `code`, then grow the dictionary. -/
def lzwData (earlyChange maxDecodeBytes : Nat) (s : LzwState) (code : Nat) :
    Except ParseError LzwState := do
  let entry ← lzwEntry s code
  let output ← extendLimited s.output entry maxDecodeBytes
  let s := { s with output }
  match s.previous with
  | none => return { s with previous := some entry }
  | some previousEntry =>
    match entry with
    | [] => .error (decodeError "LZW empty entry")
    | first :: _ => return { lzwGrow earlyChange previousEntry first s with previous := some entry }

/-- One code of `decode_lzw`. -/
def lzwStep (input : Bytes) (earlyChange maxDecodeBytes : Nat) (s : LzwState) :
    Step LzwState (Except ParseError Bytes) :=
  match readBits input s.bitPos s.codeBits with
  | none => .done (.ok s.output)
  | some code =>
    let s := { s with bitPos := s.bitPos + s.codeBits }
    if code = 256 then
      .next { s with
        dictionary := initialLzwDictionary, codeBits := 9, nextCode := 258, previous := none }
    else if code = 257 then .done (.ok s.output)
    else
      match lzwData earlyChange maxDecodeBytes s code with
      | .ok s => .next s
      | .error e => .done (.error e)

/-- `decode_lzw`. -/
def decodeLzw (input : Bytes) (earlyChange maxDecodeBytes : Nat) : Except ParseError Bytes :=
  runLoop (lzwStep input earlyChange maxDecodeBytes) (fun s => .ok s.output)
    (input.length * 8 + 1) ⟨0, initialLzwDictionary, 9, 258, none, []⟩

/-- `LzwDecoder`. -/
def lzwDecoder : StreamDecoder := fun input params limits => do
  let decoded ← decodeLzw input params.earlyChange limits.maxStreamDecodeBytes
  let bytes ← applyPredictor decoded params limits.maxStreamDecodeBytes
  return ⟨bytes, false⟩

/-! ## Flate, Crypt and metadata mode -/

/-- The pieces of a `read_limited` loop. -/
def readPieces (maxDecodeBytes : Nat) (failure : Option String) :
    List Bytes → Bytes → Except ParseError Bytes
  | [], output =>
    match failure with
    | none => .ok output
    | some message => .error (.streamDecode ⟨message⟩)
  | piece :: pieces, output =>
    if output.length + piece.length > maxDecodeBytes then
      .error (.limitExceeded "max_stream_decode_bytes")
    else readPieces maxDecodeBytes failure pieces (output ++ piece)

/-- `read_limited`. -/
def readLimited (reader : ReadRun) (maxDecodeBytes : Nat) : Except ParseError Bytes :=
  readPieces maxDecodeBytes reader.failure reader.pieces []

/-- `decode_flate_limited`: zlib, and raw deflate when zlib fails in any way. -/
def decodeFlateLimited (crates : Crates) (bytes : Bytes) (maxDecodeBytes : Nat) :
    Except ParseError Bytes :=
  match readLimited (crates.zlib bytes) maxDecodeBytes with
  | .ok output => .ok output
  | .error _ => readLimited (crates.deflate bytes) maxDecodeBytes

/-- `FlateDecoder`. -/
def flateDecoder (crates : Crates) : StreamDecoder := fun input params limits => do
  let decoded ← decodeFlateLimited crates input limits.maxStreamDecodeBytes
  let bytes ← applyPredictor decoded params limits.maxStreamDecodeBytes
  return ⟨bytes, false⟩

/-- `CryptDecoder`: only the identity crypt filter. -/
def cryptDecoder : StreamDecoder := fun input params _ =>
  match params.cryptFilterName with
  | none => .ok ⟨input, false⟩
  | some name =>
    if name.matchesText "Identity" then .ok ⟨input, false⟩
    else .error (.unsupportedFilter ⟨"Crypt"⟩)

/-- `MetadataModeDecoder`. -/
def metadataModeDecoder : StreamDecoder := fun input _ _ => .ok ⟨input, true⟩

/-! ## The registry and the filter chain -/

/-- `DecoderRegistry::register_many`. -/
def DecoderRegistry.registerMany (registry : DecoderRegistry) (names : List String)
    (decoder : StreamDecoder) : DecoderRegistry :=
  names.foldl (fun registry name => registry.insert (PdfName.fromStatic name) decoder) registry

/-- `DecoderRegistry::new`, the default registry. -/
def DecoderRegistry.new (crates : Crates) : DecoderRegistry :=
  let registry : DecoderRegistry := OrdMap.empty
  let registry := registry.registerMany ["FlateDecode", "Fl"] (flateDecoder crates)
  let registry := registry.registerMany ["ASCIIHexDecode", "AHx"] asciiHexDecoder
  let registry := registry.registerMany ["ASCII85Decode", "A85"] ascii85Decoder
  let registry := registry.registerMany ["RunLengthDecode", "RL"] runLengthDecoder
  let registry := registry.registerMany ["LZWDecode", "LZW"] lzwDecoder
  let registry := registry.registerMany ["Crypt"] cryptDecoder
  registry.registerMany ["DCTDecode", "JPXDecode", "JBIG2Decode", "CCITTFaxDecode"]
    metadataModeDecoder

/-- `filter_identifier`. -/
def filterIdentifier (filter : PdfName) : Except ParseError Identifier :=
  match Identifier.new (utf8Lossy filter.bytes) with
  | some identifier => .ok identifier
  | none => .error (.bad "stream filter name is not a valid identifier")

/-- `DecodedStream`. -/
structure DecodedStream where
  bytes : Bytes
  facts : List StreamFact

namespace StreamOf

variable {D : Type}

/-- `StreamObject::raw_bytes`. -/
def rawBytes (stream : StreamOf D) : Except ParseError Bytes :=
  match subrange stream.rawSource stream.rawRange.start stream.rawRange.stop with
  | some bytes => .ok bytes
  | none => .error (.bad "stream raw range out of bounds")

/-- `StreamObject::remove_crypt_filters`. -/
def removeCryptFilters (stream : StreamOf D) : StreamOf D :=
  let kept := stream.filters.zipIdx.filter fun f => !f.1.matchesText "Crypt"
  { stream with
    filters := kept.map Prod.fst
    decodeParams := kept.map fun f => (stream.decodeParams[f.2]?).getD {} }

end StreamOf

/-- One filter of `decoded_bytes_with_registry`. -/
def applyFilter (registry : DecoderRegistry) (limits : ResourceLimits) (filter : PdfName)
    (params : DecodeParams) (decoded : DecodedStream) : Except ParseError DecodedStream := do
  match registry.get? filter with
  | none => .error (.unsupportedFilter ⟨utf8Lossy filter.bytes⟩)
  | some decoder =>
    let output ← decoder decoded.bytes params limits
    enforceDecodedLen output.bytes.length limits.maxStreamDecodeBytes
    let identifier ← filterIdentifier filter
    let fact := if output.metadataMode then
        StreamFact.filterMetadataMode identifier output.bytes.length
      else .filterDecoded identifier decoded.bytes.length output.bytes.length
    return ⟨output.bytes, decoded.facts ++ [fact]⟩

/-- The loop of `decoded_bytes_with_registry`; `index` is the position of the next filter. -/
def applyFilters (registry : DecoderRegistry) (limits : ResourceLimits)
    (decodeParams : List DecodeParams) :
    Nat → List PdfName → DecodedStream → Except ParseError DecodedStream
  | _, [], decoded => .ok decoded
  | index, filter :: filters, decoded => do
    let params := (decodeParams[index]?).getD {}
    let decoded ← applyFilter registry limits filter params decoded
    applyFilters registry limits decodeParams (index + 1) filters decoded

/-- `decoded_bytes_with_registry`. -/
def StreamOf.decodedBytesWithRegistry {D : Type} (stream : StreamOf D) (limits : ResourceLimits)
    (registry : DecoderRegistry) : Except ParseError DecodedStream := do
  let raw ← stream.rawBytes
  let decoded ← applyFilters registry limits stream.decodeParams 0 stream.filters ⟨raw, []⟩
  enforceDecodedLen decoded.bytes.length limits.maxStreamDecodeBytes
  return decoded

/-- `StreamObject::decoded_bytes`: the default registry decodes. -/
def StreamOf.decodedBytes {D : Type} (crates : Crates) (stream : StreamOf D)
    (limits : ResourceLimits) : Except ParseError Bytes :=
  (stream.decodedBytesWithRegistry limits (DecoderRegistry.new crates)).map DecodedStream.bytes

end Pdfv
