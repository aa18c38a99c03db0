import Pdfv.Basic.Stages
import Pdfv.Content.Spelling
import Pdfv.Parser.Ascii85
import Pdfv.Parser.FilterParams
import Pdfv.Parser.LzwInverse
import Pdfv.Parser.RunLength
import Pdfv.Parser.TiffPredictor
/-!
# Chains of stream filters

What a writer may store for data under one filter (`FilterText`): any text of each encoding, under
either name of the filter, with any predictor. Decoding a stream whose raw bytes were coded through
any chain of filters gives the data back and one fact for each filter
(`decodedBytesWithRegistry_inverts`).
-/

namespace Pdfv

open Fallible Loop Positional Rows Stages

/-! ## ASCIIHex -/

/-- The end of the data: `>` with whatever follows it, or the end of the input. -/
def asciiHexEnd : Option Bytes → Bytes
  | some rest => 62 :: rest
  | none => []

section AsciiHex

variable {maxDecodeBytes : Nat}

theorem decodeHexDigit_class {b d : UInt8} (h : decodeHexDigit b = some d) :
    isWs b = false ∧ b ≠ 62 := by
  constructor
  · by_contra hws
    simp only [isWs, Bool.or_eq_true, decide_eq_true_eq, Bool.not_eq_false] at hws
    rcases hws with ((((rfl | rfl) | rfl) | rfl) | rfl) | rfl <;> cases h
  · rintro rfl
    cases h

/-- Whitespace between the digits makes no difference. -/
theorem asciiHexLoop_spaced (spaced rest output : Bytes) (high : Option UInt8) :
    asciiHexLoop maxDecodeBytes (spaced ++ rest) output high
      = asciiHexLoop maxDecodeBytes ((spaced.filter fun b => !isWs b) ++ rest) output high := by
  induction spaced generalizing output high with
  | nil => rfl
  | cons b spaced ih =>
    by_cases hws : isWs b
    · simp [asciiHexLoop, hws, ih]
    · simp [asciiHexLoop, hws, ih]

theorem asciiHexLoop_end (tail : Option Bytes) (output : Bytes) (high : Option UInt8) :
    asciiHexLoop maxDecodeBytes (asciiHexEnd tail) output high
      = asciiHexFinish output high maxDecodeBytes := by
  cases tail with
  | none => rfl
  | some rest => simp [asciiHexEnd, asciiHexLoop, isWs]

theorem asciiHexLoop_digit {b d : UInt8} (h : decodeHexDigit b = some d) (rest output : Bytes) :
    asciiHexLoop maxDecodeBytes (b :: rest) output none
      = asciiHexLoop maxDecodeBytes rest output (some d) := by
  obtain ⟨hws, hend⟩ := decodeHexDigit_class h
  simp [asciiHexLoop, hws, hend, h]

theorem pushLimitedByte_fits {output : Bytes} (byte : UInt8)
    (hfits : output.length + 1 ≤ maxDecodeBytes) :
    pushLimitedByte output byte maxDecodeBytes = .ok (output ++ [byte]) :=
  (pushLimitedByte_eq output byte).trans (extendLimited_eq hfits)

theorem asciiHexLoop_pair {b d high : UInt8} (h : decodeHexDigit b = some d) (rest : Bytes)
    {output : Bytes} (hfits : output.length + 1 ≤ maxDecodeBytes) :
    asciiHexLoop maxDecodeBytes (b :: rest) output (some high)
      = asciiHexLoop maxDecodeBytes rest (output ++ [high * 16 + d]) none := by
  obtain ⟨hws, hend⟩ := decodeHexDigit_class h
  simp [asciiHexLoop, hws, hend, h, pushLimitedByte_fits _ hfits]

/-- Digits are read as the bytes their pairs spell; the nibble `0` stands for a missing last one. -/
theorem asciiHexLoop_digits {digits bytes output : Bytes} (tail : Option Bytes)
    (h : ByteSource.decodeHexPairs digits = some bytes)
    (hfits : output.length + bytes.length ≤ maxDecodeBytes) :
    asciiHexLoop maxDecodeBytes (digits ++ asciiHexEnd tail) output none
      = .ok (output ++ bytes) := by
  fun_induction ByteSource.decodeHexPairs digits generalizing output bytes with
  | case1 =>
    cases h
    rw [List.nil_append, asciiHexLoop_end, List.append_nil]
    rfl
  | case2 high =>
    obtain ⟨b, hpair, rfl⟩ := Option.map_eq_some_iff.mp h
    obtain ⟨nibble, hhigh, hpair⟩ := Option.bind_eq_some_iff.mp hpair
    cases hpair
    rw [List.singleton_append, asciiHexLoop_digit hhigh, asciiHexLoop_end, UInt8.sub_self,
      UInt8.add_zero]
    exact pushLimitedByte_fits _ hfits
  | case3 high low rest ih =>
    obtain ⟨b, hpair, h⟩ := Option.bind_eq_some_iff.mp h
    obtain ⟨bytes, hrest, h⟩ := Option.bind_eq_some_iff.mp h
    obtain ⟨nibble, hhigh, hpair⟩ := Option.bind_eq_some_iff.mp hpair
    obtain ⟨nibble', hlow, hpair⟩ := Option.bind_eq_some_iff.mp hpair
    cases hpair
    cases h
    rw [List.length_cons] at hfits
    rw [List.cons_append, List.cons_append, asciiHexLoop_digit hhigh,
      asciiHexLoop_pair hlow _ (by omega), ih hrest (by simp; omega), List.append_assoc,
      List.singleton_append]

/-- ASCIIHex decoding reads any text of the data: digits of either case, spaces anywhere, the last
digit left out when it is `0`, and an end mark or none. -/
theorem asciiHexDecoder_text {bytes text : Bytes} (h : HexText bytes text) (tail : Option Bytes)
    (params : DecodeParams) {limits : ResourceLimits}
    (hfits : bytes.length ≤ limits.maxStreamDecodeBytes) :
    asciiHexDecoder (text ++ asciiHexEnd tail) params limits = .ok ⟨bytes, false⟩ := by
  have hloop : asciiHexLoop limits.maxStreamDecodeBytes (text ++ asciiHexEnd tail) [] none
      = .ok ([] ++ bytes) := by
    rw [asciiHexLoop_spaced]
    exact asciiHexLoop_digits tail h.2 (by simpa using hfits)
  unfold asciiHexDecoder
  rw [hloop]
  rfl

end AsciiHex

/-! ## ASCII85 and RunLength -/

theorem ascii85Decoder_text {bytes text spaced : Bytes} (htext : Ascii85Text bytes text)
    (hspaced : (spaced.filter fun b => !isWs b) = text) (rest : Bytes) (params : DecodeParams)
    {limits : ResourceLimits} (hfits : bytes.length ≤ limits.maxStreamDecodeBytes) :
    ascii85Decoder (spaced ++ 126 :: 62 :: rest) params limits = .ok ⟨bytes, false⟩ := by
  have htilde : ∀ b ∈ spaced, b ≠ 126 := by
    rintro b hb rfl
    exact htext.ne_tilde 126 (hspaced ▸ List.mem_filter.mpr ⟨hb, by decide⟩) rfl
  have hloop := htext.loop (by simpa using hfits : ([] : Bytes).length + bytes.length ≤ _) rest
  rw [← hspaced, ← ascii85Loop_spaced htilde] at hloop
  unfold ascii85Decoder
  rw [hloop]
  rfl

theorem runLengthDecoder_text (segments : List RunSegment) (tail : Option Bytes)
    (params : DecodeParams) {limits : ResourceLimits}
    (hfits : (segments.flatMap RunSegment.bytes).length ≤ limits.maxStreamDecodeBytes) :
    runLengthDecoder (segments.flatMap RunSegment.encode ++ runLengthEnd tail) params limits
      = .ok ⟨segments.flatMap RunSegment.bytes, false⟩ := by
  obtain ⟨result, hends, hresult⟩ := runLengthDecoder_eq
    (segments.flatMap RunSegment.encode ++ runLengthEnd tail) params limits
  have hsegments := @runLength_finishes limits.maxStreamDecodeBytes segments tail [] []
    (Nat.zero_le _)
  rw [List.nil_append, List.nil_append, limitedOutput, if_pos hfits] at hsegments
  rw [hresult, hends.unique hsegments]
  rfl

/-! ## LZW -/

/-- The codes of a writer that keeps to the table of the format but may choose any entry that its
data begins with, and may clear the table at any time; it has to when the table is full. -/
inductive LzwText (earlyChange : Nat) : List Bytes → Bytes → List LzwCode → Prop where
  | ended (table : List Bytes) :
    LzwText earlyChange table [] [((lzwScheme earlyChange).width table.length, 257)]
  | clear {table : List Bytes} {input : Bytes} {codes : List LzwCode}
    (rest : LzwText earlyChange initialLzwDictionary input codes) :
    LzwText earlyChange table input (((lzwScheme earlyChange).width table.length, 256) :: codes)
  | number {table : List Bytes} {input entry : Bytes} {number : Nat} {codes : List LzwCode}
    (found : LzwMatch table input entry number) (room : table.length < 4096)
    (rest : LzwText earlyChange (table ++ [entry ++ (input.drop entry.length).take 1])
      (input.drop entry.length) codes) :
    LzwText earlyChange table input (((lzwScheme earlyChange).width table.length, number) :: codes)

section Lzw

variable {earlyChange : Nat} {table : List Bytes} {input : Bytes} {codes : List LzwCode}

theorem LzwText.width_pos (h : LzwText earlyChange table input codes) :
    ∀ code ∈ codes, 0 < code.1 := by
  have hwidth : ∀ size, 0 < (lzwScheme earlyChange).width size := fun size => by
    rw [width_eq]
    omega
  induction h with
  | ended table => exact List.forall_mem_singleton.mpr (hwidth _)
  | clear _ ih => exact List.forall_mem_cons.mpr ⟨hwidth _, ih⟩
  | number _ _ _ ih => exact List.forall_mem_cons.mpr ⟨hwidth _, ih⟩

/-- The decoder writes the data, one pass for each code. -/
theorem LzwText.endsIn {maxDecodeBytes : Nat} {bytes : Bytes} {s : LzwState}
    (h : LzwText earlyChange table input codes) (hmatches : LzwMatches earlyChange table input s)
    (hahead : Ahead bytes s.bitPos (codeBits codes))
    (hfits : s.output.length + input.length ≤ maxDecodeBytes) :
    EndsIn (lzwStep bytes earlyChange maxDecodeBytes) codes.length s (.ok (s.output ++ input)) := by
  induction h generalizing s with
  | ended table =>
    rw [List.append_nil]
    exact .done (endCode_step maxDecodeBytes hmatches hahead)
  | clear _ ih =>
    obtain ⟨s', hstep, hrest, houtput, hmatches'⟩ := clearCode_step maxDecodeBytes hmatches hahead
    rw [← houtput] at hfits ⊢
    exact .next hstep (ih hmatches' hrest hfits)
  | @number table input entry number codes found room _ ih =>
    have hlonger := found.begins.length_le
    obtain ⟨s', hstep, hrest, houtput, hmatches'⟩ :=
      number_step maxDecodeBytes hmatches found room (by omega) hahead
    have hdata : s'.output ++ input.drop entry.length = s.output ++ input := by
      rw [houtput, List.append_assoc]
      exact congrArg (s.output ++ ·) (List.prefix_append_drop found.begins).symm
    rw [← hdata]
    refine .next hstep (ih hmatches' hrest ?_)
    rw [houtput, List.length_append, List.length_drop]
    omega

/-- LZW decoding reads the codes of any such writer. -/
theorem decodeLzw_text {maxDecodeBytes : Nat}
    (h : LzwText earlyChange initialLzwDictionary input codes)
    (hfits : input.length ≤ maxDecodeBytes) :
    decodeLzw (packBits (codeBits codes)) earlyChange maxDecodeBytes = .ok input := by
  have hstart : LzwMatches earlyChange initialLzwDictionary input
      ⟨0, initialLzwDictionary, 9, 258, none, []⟩ := LzwMatches.cleared input rfl rfl rfl rfl
  have hlength : codes.length ≤ (packBits (codeBits codes)).length * 8 :=
    (length_le_codeBits h.width_pos).trans (length_packBits _)
  have hends := h.endsIn hstart (Ahead.packBits (codeBits_lt codes))
    (by simpa using hfits : ([] : Bytes).length + input.length ≤ maxDecodeBytes)
  unfold decodeLzw
  exact hends.runLoop (by omega) _

end Lzw

/-! ## Predictors -/

/-- What a writer stores for data under the predictor of the parameters: the data itself, the
differences of the bytes of each row, or each row under a PNG filter of its own. -/
inductive PredictedText (params : DecodeParams) : Bytes → Bytes → Prop where
  | none (plain : Bytes) (predictor : params.predictor = 1) : PredictedText params plain plain
  | tiff {rows : List Bytes} (predictor : params.predictor = 2) (geometry : params.Geometry)
    (whole : params.bitsPerComponent = 8) (width : ∀ row ∈ rows, row.length = params.rowBytes) :
    PredictedText params rows.flatten (rows.flatMap (byteDifferences params.pixelBytes))
  | png {rows : List Bytes} (filters : Nat → PngFilter)
    (predictor : 10 ≤ params.predictor ∧ params.predictor ≤ 15) (geometry : params.Geometry)
    (width : ∀ row ∈ rows, row.length = params.rowBytes) :
    PredictedText params rows.flatten (pngFiltered params rows filters)

section Predictors

variable {params : DecodeParams} {maxDecodeBytes : Nat}

theorem enforceDecodedLen_fits {length : Nat} (h : length ≤ maxDecodeBytes) :
    enforceDecodedLen length maxDecodeBytes = .ok () :=
  if_neg (Nat.not_lt.mpr h)

theorem length_byteDifferences (distance : Nat) (bytes : Bytes) :
    (byteDifferences distance bytes).length = bytes.length :=
  List.length_mapIdx

theorem applyTiffPredictor_text (geometry : params.Geometry) {rows : List Bytes}
    (width : ∀ row ∈ rows, row.length = params.rowBytes)
    (hfits : rows.flatten.length ≤ maxDecodeBytes) :
    applyTiffPredictor (rows.flatMap (byteDifferences params.pixelBytes)) params maxDecodeBytes
      = .ok rows.flatten := by
  have hcoded : Uniform params.rowBytes (rows.map (byteDifferences params.pixelBytes)) := by
    intro coded hmem
    obtain ⟨row, hrow, rfl⟩ := List.mem_map.mp hmem
    rw [length_byteDifferences, width row hrow]
  have hlength : (rows.map (byteDifferences params.pixelBytes)).flatten.length
      = rows.length * params.rowBytes := by
    rw [hcoded.length_flatten, List.length_map]
  have hpos := geometry.rowBytes_pos
  unfold applyTiffPredictor
  rw [List.flatMap_def, hlength, enforceDecodedLen_fits (by rwa [← Uniform.length_flatten width]),
    ok_bind, geometry.predictorGeometry_eq, ok_bind]
  dsimp only
  rw [if_neg (by simp [hpos.ne']), rowsOf_flatten hpos hcoded, pure_eq_ok, List.flatMap_map]
  refine (List.flatMap_congr fun row _ => ?_).trans List.flatMap_id
  exact (tiffRowLoop_eq_iff geometry.pixelBytes_pos).mpr rfl

theorem applyPngPredictor_text (geometry : params.Geometry) {rows : List Bytes}
    (filters : Nat → PngFilter) (width : ∀ row ∈ rows, row.length = params.rowBytes)
    (hfits : rows.flatten.length ≤ maxDecodeBytes) :
    applyPngPredictor (pngFiltered params rows filters) params maxDecodeBytes
      = .ok rows.flatten := by
  have hfiltered : Uniform (params.rowBytes + 1) ((List.range rows.length).map fun row =>
      pngFilteredRow params rows (filters row) row) := by
    intro row hrow
    obtain ⟨i, -, rfl⟩ := List.mem_map.mp hrow
    simp [pngFilteredRow]
  have hlength : (pngFiltered params rows filters).length
      = rows.length * (params.rowBytes + 1) := by
    rw [pngFiltered, hfiltered.length_flatten, List.length_map, List.length_range]
  have hrun := pngRowsLoop_rows width geometry filters rows.length 0 (Nat.zero_add _)
  rw [Nat.zero_mul, List.take_zero, ← List.range_eq_range'] at hrun
  unfold applyPngPredictor
  rw [geometry.predictorGeometry_eq, ok_bind]
  dsimp only
  rw [hlength, if_neg (by simp), Nat.mul_div_cancel _ (Nat.succ_pos _),
    enforceDecodedLen_fits (by rwa [← Uniform.length_flatten width]), ok_bind, pngFiltered,
    rowsOf_flatten (Nat.succ_pos _) hfiltered]
  exact hrun

theorem applyPredictor_text {plain text : Bytes} (h : PredictedText params plain text)
    (hfits : plain.length ≤ maxDecodeBytes) :
    applyPredictor text params maxDecodeBytes = .ok plain := by
  unfold applyPredictor
  cases h with
  | none _ predictor => rw [if_pos predictor]
  | tiff predictor geometry _ width =>
    rw [if_neg (by omega), if_pos predictor]
    exact applyTiffPredictor_text geometry width hfits
  | png filters predictor geometry width =>
    rw [if_neg (by omega), if_neg (by omega), if_pos predictor]
    exact applyPngPredictor_text geometry filters width hfits

end Predictors

/-! ## Flate -/

/-- Data that the crate reads back: as zlib, or as raw deflate where zlib fails. -/
inductive FlateText (crates : Crates) : Bytes → Bytes → Prop where
  | zlib {text : Bytes} (ends : (crates.zlib text).failure = none) :
    FlateText crates (crates.zlib text).pieces.flatten text
  | deflate {text : Bytes} (fails : (crates.zlib text).failure.isSome)
    (ends : (crates.deflate text).failure = none) :
    FlateText crates (crates.deflate text).pieces.flatten text

section Flate

variable {maxDecodeBytes : Nat}

theorem readPieces_fits {pieces : List Bytes} {output : Bytes}
    (hfits : output.length + pieces.flatten.length ≤ maxDecodeBytes) :
    readPieces maxDecodeBytes none pieces output = .ok (output ++ pieces.flatten) := by
  induction pieces generalizing output with
  | nil => simp [readPieces]
  | cons piece pieces ih =>
    rw [List.flatten_cons, List.length_append] at hfits
    rw [readPieces, if_neg (by omega), ih (by rw [List.length_append]; omega), List.flatten_cons,
      List.append_assoc]

theorem readPieces_fails (message : String) (pieces : List Bytes) (output : Bytes) :
    ∃ e, readPieces maxDecodeBytes (some message) pieces output = .error e := by
  induction pieces generalizing output with
  | nil => exact ⟨_, rfl⟩
  | cons piece pieces ih =>
    rw [readPieces]
    split
    · exact ⟨_, rfl⟩
    · exact ih _

theorem readLimited_fits {run : ReadRun} (hends : run.failure = none)
    (hfits : run.pieces.flatten.length ≤ maxDecodeBytes) :
    readLimited run maxDecodeBytes = .ok run.pieces.flatten := by
  unfold readLimited
  rw [hends]
  exact readPieces_fits (by simpa using hfits)

theorem decodeFlateLimited_text {crates : Crates} {plain text : Bytes}
    (h : FlateText crates plain text) (hfits : plain.length ≤ maxDecodeBytes) :
    decodeFlateLimited crates text maxDecodeBytes = .ok plain := by
  unfold decodeFlateLimited
  cases h with
  | zlib ends => rw [readLimited_fits ends hfits]
  | deflate fails ends =>
    obtain ⟨message, hmessage⟩ := Option.isSome_iff_exists.mp fails
    obtain ⟨e, he⟩ := @readPieces_fails maxDecodeBytes message (crates.zlib text).pieces []
    have hzlib : readLimited (crates.zlib text) maxDecodeBytes = .error e := by
      unfold readLimited
      rw [hmessage, he]
    rw [hzlib]
    exact readLimited_fits ends hfits

end Flate

/-! ## One filter -/

/-- The filters that leave the data of an image alone. -/
def imageFilters : List String :=
  ["DCTDecode", "JPXDecode", "JBIG2Decode", "CCITTFaxDecode"]

/-- What may be stored for data under a filter with its parameters. What a predictor makes of the
data fits the limit as well. -/
inductive FilterText (crates : Crates) (limit : Nat) (params : DecodeParams) :
    PdfName → Bytes → Bytes → Prop where
  | asciiHex {name : String} (registered : name ∈ ["ASCIIHexDecode", "AHx"]) {plain text : Bytes}
    (digits : HexText plain text) (tail : Option Bytes) :
    FilterText crates limit params (PdfName.fromStatic name) plain (text ++ asciiHexEnd tail)
  | ascii85 {name : String} (registered : name ∈ ["ASCII85Decode", "A85"])
    {plain text spaced : Bytes} (digits : Ascii85Text plain text)
    (spaces : (spaced.filter fun b => !isWs b) = text)
    (rest : Bytes) :
    FilterText crates limit params (PdfName.fromStatic name) plain (spaced ++ 126 :: 62 :: rest)
  | runLength {name : String} (registered : name ∈ ["RunLengthDecode", "RL"])
    (segments : List RunSegment) (tail : Option Bytes) :
    FilterText crates limit params (PdfName.fromStatic name) (segments.flatMap RunSegment.bytes)
      (segments.flatMap RunSegment.encode ++ runLengthEnd tail)
  | lzw {name : String} (registered : name ∈ ["LZWDecode", "LZW"]) {plain predicted : Bytes}
    {codes : List LzwCode} (predictor : PredictedText params plain predicted)
    (fits : predicted.length ≤ limit)
    (text : LzwText params.earlyChange initialLzwDictionary predicted codes) :
    FilterText crates limit params (PdfName.fromStatic name) plain (packBits (codeBits codes))
  | flate {name : String} (registered : name ∈ ["FlateDecode", "Fl"]) {plain predicted text : Bytes}
    (predictor : PredictedText params plain predicted) (fits : predicted.length ≤ limit)
    (deflated : FlateText crates predicted text) :
    FilterText crates limit params (PdfName.fromStatic name) plain text
  | crypt (identity : ∀ name, params.cryptFilterName = some name → name.matchesText "Identity")
    (plain : Bytes) : FilterText crates limit params (PdfName.fromStatic "Crypt") plain plain
  | image {name : String} (registered : name ∈ imageFilters) (plain : Bytes) :
    FilterText crates limit params (PdfName.fromStatic name) plain plain

/-- The fact on one filter that was undone. -/
def filterFact (undone : Undone (PdfName × DecodeParams) Bytes) : StreamFact :=
  let identifier := Identifier.mk (utf8Lossy undone.stage.1.bytes)
  if imageFilters.any undone.stage.1.matchesText then
    .filterMetadataMode identifier undone.plain.length
  else .filterDecoded identifier undone.code.length undone.plain.length

theorem registerMany_get? (registry : DecoderRegistry) (names : List String)
    (decoder : StreamDecoder) (filter : PdfName) :
    (registry.registerMany names decoder).get? filter
      = if filter ∈ names.map PdfName.fromStatic then some decoder else registry.get? filter := by
  unfold DecoderRegistry.registerMany
  induction names generalizing registry with
  | nil => simp
  | cons name names ih =>
    rw [List.foldl_cons, ih, OrdMap.get?_insert]
    by_cases hmem : filter ∈ names.map PdfName.fromStatic
    · rw [if_pos hmem, List.map_cons, if_pos (List.mem_cons_of_mem _ hmem)]
    · simp only [hmem, if_false, List.map_cons, List.mem_cons, or_false]

/-- The default registry, filter by filter; the last registration of a name counts. -/
theorem DecoderRegistry.new_get? (crates : Crates) (filter : PdfName) :
    (DecoderRegistry.new crates).get? filter =
      if filter ∈ imageFilters.map PdfName.fromStatic then some metadataModeDecoder
      else if filter ∈ ["Crypt"].map PdfName.fromStatic then some cryptDecoder
      else if filter ∈ ["LZWDecode", "LZW"].map PdfName.fromStatic then some lzwDecoder
      else if filter ∈ ["RunLengthDecode", "RL"].map PdfName.fromStatic then some runLengthDecoder
      else if filter ∈ ["ASCII85Decode", "A85"].map PdfName.fromStatic then some ascii85Decoder
      else if filter ∈ ["ASCIIHexDecode", "AHx"].map PdfName.fromStatic then some asciiHexDecoder
      else if filter ∈ ["FlateDecode", "Fl"].map PdfName.fromStatic then some (flateDecoder crates)
      else none := by
  unfold DecoderRegistry.new
  simp only [registerMany_get?, OrdMap.get?_empty]
  rfl

/-- The names that the default registry knows. -/
def standardFilters : List String :=
  imageFilters ++ ["Crypt", "LZWDecode", "LZW", "RunLengthDecode", "RL", "ASCII85Decode", "A85",
    "ASCIIHexDecode", "AHx", "FlateDecode", "Fl"]

/-- Every known name is an identifier. -/
theorem filterIdentifier_standard : ∀ name ∈ standardFilters,
    filterIdentifier (PdfName.fromStatic name)
      = .ok ⟨utf8Lossy (PdfName.fromStatic name).bytes⟩ := by
  decide

theorem matchesText_standard : ∀ name ∈ standardFilters,
    imageFilters.any (PdfName.fromStatic name).matchesText = decide (name ∈ imageFilters) := by
  decide

section OneFilter

variable {crates : Crates} {limits : ResourceLimits} {params : DecodeParams}

/-- The default registry has the decoder under these names; `image` says whether it leaves image
data alone. -/
def Registered (crates : Crates) (decoder : StreamDecoder) (image : Bool) (names : List String) :
    Prop :=
  ∀ name ∈ names, name ∈ standardFilters ∧ decide (name ∈ imageFilters) = image
    ∧ (DecoderRegistry.new crates).get? (PdfName.fromStatic name) = some decoder

/-- A name whose lookup in the registry evaluates to the decoder. -/
theorem Registered.cons {decoder : StreamDecoder} {image : Bool} {name : String}
    {names : List String} (hname : name ∈ standardFilters)
    (himage : decide (name ∈ imageFilters) = image)
    (hget : (DecoderRegistry.new crates).get? (PdfName.fromStatic name) = some decoder)
    (hnames : Registered crates decoder image names) :
    Registered crates decoder image (name :: names) :=
  List.forall_mem_cons.mpr ⟨⟨hname, himage, hget⟩, hnames⟩

theorem Registered.nil (decoder : StreamDecoder) (image : Bool) :
    Registered crates decoder image [] :=
  fun _ h => nomatch h

theorem registered_pair {decoder : StreamDecoder} {name short : String}
    (hnames : name ∈ standardFilters ∧ short ∈ standardFilters)
    (himages : name ∉ imageFilters ∧ short ∉ imageFilters)
    (hget : (DecoderRegistry.new crates).get? (PdfName.fromStatic name) = some decoder)
    (hshort : (DecoderRegistry.new crates).get? (PdfName.fromStatic short) = some decoder) :
    Registered crates decoder false [name, short] :=
  .cons hnames.1 (decide_eq_false himages.1) hget
    (.cons hnames.2 (decide_eq_false himages.2) hshort (.nil decoder false))

theorem registered_asciiHex (crates : Crates) :
    Registered crates asciiHexDecoder false ["ASCIIHexDecode", "AHx"] :=
  registered_pair (by decide) (by decide) (DecoderRegistry.new_get? crates _)
    (DecoderRegistry.new_get? crates _)

theorem registered_ascii85 (crates : Crates) :
    Registered crates ascii85Decoder false ["ASCII85Decode", "A85"] :=
  registered_pair (by decide) (by decide) (DecoderRegistry.new_get? crates _)
    (DecoderRegistry.new_get? crates _)

theorem registered_runLength (crates : Crates) :
    Registered crates runLengthDecoder false ["RunLengthDecode", "RL"] :=
  registered_pair (by decide) (by decide) (DecoderRegistry.new_get? crates _)
    (DecoderRegistry.new_get? crates _)

theorem registered_lzw (crates : Crates) :
    Registered crates lzwDecoder false ["LZWDecode", "LZW"] :=
  registered_pair (by decide) (by decide) (DecoderRegistry.new_get? crates _)
    (DecoderRegistry.new_get? crates _)

theorem registered_flate (crates : Crates) :
    Registered crates (flateDecoder crates) false ["FlateDecode", "Fl"] :=
  registered_pair (by decide) (by decide) (DecoderRegistry.new_get? crates _)
    (DecoderRegistry.new_get? crates _)

theorem registered_crypt (crates : Crates) : Registered crates cryptDecoder false ["Crypt"] :=
  .cons (by decide) (by decide) (DecoderRegistry.new_get? crates _) (.nil _ _)

theorem registered_image (crates : Crates) :
    Registered crates metadataModeDecoder true imageFilters := by
  have hget := DecoderRegistry.new_get? crates
  exact .cons (by decide) (by decide) (hget _) (.cons (by decide) (by decide) (hget _)
    (.cons (by decide) (by decide) (hget _) (.cons (by decide) (by decide) (hget _) (.nil _ _))))

/-- A decoder's output becomes the data, with the fact on the filter. -/
theorem applyFilter_decoded {decoder : StreamDecoder} {image : Bool} {names : List String}
    (hnames : Registered crates decoder image names) {name : String} (hname : name ∈ names)
    {plain text : Bytes} (hdecoder : decoder text params limits = .ok ⟨plain, image⟩)
    (hfits : plain.length ≤ limits.maxStreamDecodeBytes) (facts : List StreamFact) :
    applyFilter (DecoderRegistry.new crates) limits (PdfName.fromStatic name) params ⟨text, facts⟩
      = .ok ⟨plain, facts ++ [filterFact ⟨(PdfName.fromStatic name, params), text, plain⟩]⟩ := by
  obtain ⟨hstandard, himage, hregistered⟩ := hnames name hname
  have hmatches := matchesText_standard name hstandard
  unfold applyFilter filterFact
  rw [hregistered]
  dsimp only
  rw [hdecoder, ok_bind, enforceDecodedLen_fits hfits, ok_bind,
    filterIdentifier_standard name hstandard, ok_bind, hmatches, himage]
  rfl

theorem lzwDecoder_text {plain predicted : Bytes} {codes : List LzwCode}
    (predictor : PredictedText params plain predicted)
    (fits : predicted.length ≤ limits.maxStreamDecodeBytes)
    (text : LzwText params.earlyChange initialLzwDictionary predicted codes)
    (hfits : plain.length ≤ limits.maxStreamDecodeBytes) :
    lzwDecoder (packBits (codeBits codes)) params limits = .ok ⟨plain, false⟩ := by
  unfold lzwDecoder
  rw [decodeLzw_text text fits, ok_bind, applyPredictor_text predictor hfits]
  rfl

theorem flateDecoder_text {plain predicted text : Bytes}
    (predictor : PredictedText params plain predicted)
    (fits : predicted.length ≤ limits.maxStreamDecodeBytes)
    (deflated : FlateText crates predicted text)
    (hfits : plain.length ≤ limits.maxStreamDecodeBytes) :
    flateDecoder crates text params limits = .ok ⟨plain, false⟩ := by
  unfold flateDecoder
  rw [decodeFlateLimited_text deflated fits, ok_bind, applyPredictor_text predictor hfits]
  rfl

theorem cryptDecoder_identity
    (identity : ∀ name, params.cryptFilterName = some name → name.matchesText "Identity")
    (plain : Bytes) : cryptDecoder plain params limits = .ok ⟨plain, false⟩ := by
  unfold cryptDecoder
  cases hname : params.cryptFilterName with
  | none => rfl
  | some name => exact if_pos (identity name hname)

/-- A filter with any text of the data under it is undone. -/
theorem applyFilter_text {filter : PdfName} {plain text : Bytes}
    (h : FilterText crates limits.maxStreamDecodeBytes params filter plain text)
    (hfits : plain.length ≤ limits.maxStreamDecodeBytes) (facts : List StreamFact) :
    applyFilter (DecoderRegistry.new crates) limits filter params ⟨text, facts⟩
      = .ok ⟨plain, facts ++ [filterFact ⟨(filter, params), text, plain⟩]⟩ := by
  cases h with
  | asciiHex registered digits tail =>
    exact applyFilter_decoded (registered_asciiHex crates) registered
      (asciiHexDecoder_text digits tail params hfits) hfits facts
  | ascii85 registered digits spaces rest =>
    exact applyFilter_decoded (registered_ascii85 crates) registered
      (ascii85Decoder_text digits spaces rest params hfits) hfits facts
  | runLength registered segments tail =>
    exact applyFilter_decoded (registered_runLength crates) registered
      (runLengthDecoder_text segments tail params hfits) hfits facts
  | lzw registered predictor fits text =>
    exact applyFilter_decoded (registered_lzw crates) registered
      (lzwDecoder_text predictor fits text hfits) hfits facts
  | flate registered predictor fits deflated =>
    exact applyFilter_decoded (registered_flate crates) registered
      (flateDecoder_text predictor fits deflated hfits) hfits facts
  | crypt identity =>
    exact applyFilter_decoded (registered_crypt crates) List.mem_cons_self
      (cryptDecoder_identity identity _) hfits facts
  | image registered =>
    exact applyFilter_decoded (registered_image crates) registered rfl hfits facts

end OneFilter

/-! ## The chain -/

/-- The text under a filter with its parameters, for data within the limit. -/
def filterCodes (crates : Crates) (limit : Nat) (stage : PdfName × DecodeParams)
    (plain text : Bytes) : Prop :=
  plain.length ≤ limit ∧ FilterText crates limit stage.2 stage.1 plain text

/-- Decoding a stream gives back the data that was coded through its filters, for every chain of
filters in every order, and notes the lengths before and after each filter. -/
theorem decodedBytesWithRegistry_inverts {D : Type} {crates : Crates} {limits : ResourceLimits}
    {stream : StreamOf D} {plain raw : Bytes} {trace : List (Undone (PdfName × DecodeParams) Bytes)}
    (hraw : stream.rawBytes = .ok raw) (hfits : plain.length ≤ limits.maxStreamDecodeBytes)
    (hcoded : Coded (filterCodes crates limits.maxStreamDecodeBytes) stream.appliedFilters plain raw
      trace) :
    stream.decodedBytesWithRegistry limits (DecoderRegistry.new crates)
      = .ok ⟨plain, trace.map filterFact⟩ := by
  have hundone := @Coded.foldlM _ _ _ _ _ _ _ _ _ _ DecodedStream.mk
    (fun decoded f => applyFilter (DecoderRegistry.new crates) limits f.1 f.2 decoded) filterFact
    (fun _ _ _ facts h => applyFilter_text h.2 h.1 facts) hcoded []
  rw [decodedBytesWithRegistry_eq, hraw, ok_bind, decodeThrough, hundone, ok_bind,
    enforceDecodedLen_fits hfits]
  rfl

/-- A byte under a PNG predictor and LZW, written as hexadecimal digits. -/
def hexedStream : StreamObject where
  dictionary := []
  rawRange := ⟨0, 10⟩
  declaredLength := none
  discoveredLength := 10
  filters := [PdfName.fromStatic "ASCIIHexDecode", PdfName.fromStatic "LZW"]
  decodeParams := [{}, { predictor := 12 }]
  rawSource := utf8 "0101 e02>."
  streamKeywordCrlfCompliant := true
  endstreamKeywordEolCompliant := true

set_option maxRecDepth 4096 in
theorem decodedBytesWithRegistry_inverts_hexed :
    hexedStream.decodedBytesWithRegistry {} (DecoderRegistry.new Crates.unused)
      = .ok ⟨[7], [.filterDecoded ⟨"ASCIIHexDecode"⟩ 10 4, .filterDecoded ⟨"LZW"⟩ 4 1]⟩ := by
  have hpredicted : PredictedText { predictor := 12 } [7] [2, 7] :=
    @PredictedText.png { predictor := 12 } [[7]] (fun _ => .up) (by decide)
      ⟨by decide, by decide, by decide, by decide, by decide, by decide⟩ (by decide)
  have hcodes : LzwText 1 initialLzwDictionary [2, 7] [(9, 2), (9, 7), (9, 257)] :=
    .number ⟨initialLzwDictionary_byte 2, ⟨[7], rfl⟩, by decide⟩ (by decide)
      (.number ⟨rfl, ⟨[], rfl⟩, by decide⟩ (by decide) (.ended _))
  have hdigits : HexText [1, 1, 224, 32] (utf8 "0101 e02") := ⟨by decide, by decide⟩
  have hcoded : Coded (filterCodes Crates.unused 268435456) hexedStream.appliedFilters [7]
      (utf8 "0101 e02" ++ asciiHexEnd (some [46])) [⟨(PdfName.fromStatic "ASCIIHexDecode", {}),
        utf8 "0101 e02" ++ asciiHexEnd (some [46]), [1, 1, 224, 32]⟩,
        ⟨(PdfName.fromStatic "LZW", { predictor := 12 }), [1, 1, 224, 32], [7]⟩] :=
    .cons ⟨by decide, .asciiHex (by decide) hdigits (some [46])⟩
      (.cons ⟨by decide, .lzw (by decide) hpredicted (by decide) hcodes⟩ (.nil _))
  exact @decodedBytesWithRegistry_inverts _ _ {} _ _ _ _ rfl (by decide) hcoded

end Pdfv
