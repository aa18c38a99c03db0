import Pdfv.Parser.Document
/-!
# The memory threshold is read once

`memory_source_threshold_bytes` selects the source storage and nothing else: every function behind
that selection gives the same result whatever the threshold in its limits is, as long as the
registered decoders do not read it (`parseDocument_withThreshold`).
-/

namespace Pdfv

open Fallible

/-- The same limits with another memory threshold. -/
def ResourceLimits.withThreshold (limits : ResourceLimits) (threshold : Nat) : ResourceLimits :=
  { limits with memorySourceThresholdBytes := threshold }

/-- No registered decoder reads the memory threshold. -/
def DecoderRegistry.IgnoresThreshold (registry : DecoderRegistry) : Prop :=
  ∀ name decoder, registry.get? name = some decoder → ∀ input params limits threshold,
    decoder input params (limits.withThreshold threshold) = decoder input params limits

variable {src : ByteSource} {storage : SourceStorage} {limits : ResourceLimits} {threshold : Nat}
  {registry : DecoderRegistry} {crates : Crates}

/-! ## Objects -/

theorem parseWith_withThreshold (fuel : Nat) :
    (∀ depth pos, src.parseObjectWith (limits.withThreshold threshold) fuel depth pos
      = src.parseObjectWith limits fuel depth pos) ∧
    (∀ depth pos, src.parseDictionaryWith (limits.withThreshold threshold) fuel depth pos
      = src.parseDictionaryWith limits fuel depth pos) ∧
    (∀ depth d pos, src.parseEntriesWith (limits.withThreshold threshold) fuel depth d pos
      = src.parseEntriesWith limits fuel depth d pos) ∧
    (∀ depth pos, src.parseArrayWith (limits.withThreshold threshold) fuel depth pos
      = src.parseArrayWith limits fuel depth pos) ∧
    (∀ depth vs pos, src.parseElementsWith (limits.withThreshold threshold) fuel depth vs pos
      = src.parseElementsWith limits fuel depth vs pos) := by
  induction fuel with
  | zero =>
    simp only [ByteSource.parseObjectWith, ByteSource.parseDictionaryWith,
      ByteSource.parseEntriesWith, ByteSource.parseArrayWith, ByteSource.parseElementsWith,
      implies_true, and_self]
  | succ fuel ih =>
    obtain ⟨hobject, hdictionary, hentries, harray, helements⟩ := ih
    refine ⟨fun depth pos => ?_, fun depth pos => ?_, fun depth d pos => ?_, fun depth pos => ?_,
      fun depth vs pos => ?_⟩
    · simp only [ByteSource.parseObjectWith, hdictionary, harray]
      rfl
    · simp only [ByteSource.parseDictionaryWith, hentries]
    · simp only [ByteSource.parseEntriesWith, hobject, hentries]
      rfl
    · simp only [ByteSource.parseArrayWith, helements]
    · simp only [ByteSource.parseElementsWith, hobject, helements]
      rfl

theorem parseObject_withThreshold :
    src.parseObject (limits.withThreshold threshold) = src.parseObject limits := by
  funext depth pos
  exact (parseWith_withThreshold _).1 depth pos

theorem parseDictionary_withThreshold :
    src.parseDictionary (limits.withThreshold threshold) = src.parseDictionary limits := by
  funext depth pos
  exact (parseWith_withThreshold _).2.1 depth pos

theorem parseIndirectObject_withThreshold :
    parseIndirectObject storage (limits.withThreshold threshold)
      = parseIndirectObject storage limits := by
  funext start log
  simp only [parseIndirectObject, parseIndirectValue, parseObject_withThreshold]
  rfl

/-! ## The top-level scan -/

theorem parseTrailer_withThreshold :
    parseTrailer storage (limits.withThreshold threshold) = parseTrailer storage limits := by
  funext s
  simp only [parseTrailer, parseDictionary_withThreshold]
  rfl

theorem parseXrefEntries_withThreshold (count : Nat) (x : XrefState) :
    parseXrefEntries (limits.withThreshold threshold) src count x
      = parseXrefEntries limits src count x := by
  induction count generalizing x with
  | zero => rfl
  | succ count ih =>
    simp only [parseXrefEntries, ih]
    rfl

theorem xrefStep_withThreshold :
    xrefStep (limits.withThreshold threshold) src = xrefStep limits src := by
  funext x
  simp only [xrefStep, parseXrefSubsection, parseXrefEntries_withThreshold]

theorem xrefTrailerStep_withThreshold :
    xrefTrailerStep storage (limits.withThreshold threshold) = xrefTrailerStep storage limits := by
  funext s
  simp only [xrefTrailerStep, parseTrailer_withThreshold]

theorem scanStep_withThreshold :
    scanStep storage (limits.withThreshold threshold) = scanStep storage limits := by
  funext s
  simp only [scanStep, parseXrefAndTrailer, xrefStep_withThreshold, xrefTrailerStep_withThreshold,
    parseTrailer_withThreshold, scanObject, parseIndirectObject_withThreshold]
  rfl

theorem scanDocument_withThreshold :
    scanDocument storage (limits.withThreshold threshold) = scanDocument storage limits := by
  simp only [scanDocument, parseTopLevelObjects, scanStep_withThreshold]
  rfl

/-! ## Decryption -/

variable {dictionary : EncryptionDictionary} {fileKey : Bytes} {key : ObjectKey}

theorem decryptValues_congr {limits limits' : ResourceLimits} {values : List CosObject}
    (h : ∀ v ∈ values, decryptObject crates limits dictionary fileKey key v
      = decryptObject crates limits' dictionary fileKey key v) :
    decryptValues crates limits dictionary fileKey key values
      = decryptValues crates limits' dictionary fileKey key values := by
  induction values with
  | nil => simp only [decryptValues]
  | cons v values ih =>
    simp only [decryptValues, h v List.mem_cons_self,
      ih fun v hv => h v (List.mem_cons_of_mem _ hv)]

theorem decryptEntries_congr {limits limits' : ResourceLimits}
    {entries : List (PdfName × CosObject)}
    (h : ∀ e ∈ entries, decryptObject crates limits dictionary fileKey key e.2
      = decryptObject crates limits' dictionary fileKey key e.2) :
    decryptEntries crates limits dictionary fileKey key entries
      = decryptEntries crates limits' dictionary fileKey key entries := by
  induction entries with
  | nil => simp only [decryptEntries]
  | cons e entries ih =>
    simp only [decryptEntries, h e List.mem_cons_self,
      ih fun e he => h e (List.mem_cons_of_mem _ he)]

theorem decryptObject_withThreshold (object : CosObject) :
    decryptObject crates (limits.withThreshold threshold) dictionary fileKey key object
      = decryptObject crates limits dictionary fileKey key object := by
  induction object using CosObject.nestedInduction with
  | hstring string =>
    simp only [decryptObject]
    rfl
  | harray values ih => simp only [decryptObject, decryptValues_congr ih]
  | hdictionary entries ih => simp only [decryptObject, decryptEntries_congr ih]
  | hstream stream ih =>
    obtain ⟨entries, range, declared, discovered, filters, params, source, crlf, eol⟩ := stream
    simp only [decryptObject, decryptEntries_congr ih]
    rfl
  | _ => simp only [decryptObject]

theorem encryptionGate_withThreshold {password : Option Bytes} {s : ScanState} :
    encryptionGate (limits.withThreshold threshold) crates password s
      = encryptionGate limits crates password s := by
  have hdecrypt : ∀ dictionary fileKey,
      decryptIndirectObject crates (limits.withThreshold threshold) dictionary fileKey
        = decryptIndirectObject crates limits dictionary fileKey := by
    intro dictionary fileKey
    funext object
    simp only [decryptIndirectObject, decryptObject_withThreshold]
  simp only [encryptionGate, decryptDocument, decryptObjects, hdecrypt]
  rfl

/-! ## Streams -/

theorem applyFilters_withThreshold (h : registry.IgnoresThreshold) (params : List DecodeParams)
    (index : Nat) (filters : List PdfName) (decoded : DecodedStream) :
    applyFilters registry (limits.withThreshold threshold) params index filters decoded
      = applyFilters registry limits params index filters decoded := by
  induction filters generalizing index decoded with
  | nil => rfl
  | cons filter filters ih =>
    simp only [applyFilters, ih, applyFilter]
    cases hget : registry.get? filter with
    | none => rfl
    | some decoder =>
      simp only [h filter decoder hget]
      rfl

theorem decodeStream_withThreshold (h : registry.IgnoresThreshold) :
    decodeStream (limits.withThreshold threshold) registry = decodeStream limits registry := by
  funext key stream log
  simp only [decodeStream, StreamOf.decodedBytesWithRegistry, applyFilters_withThreshold h]
  rfl

theorem parseObjectStream_withThreshold :
    parseObjectStream (limits.withThreshold threshold) = parseObjectStream limits := by
  have hentry : parseObjectStreamEntry (limits.withThreshold threshold)
      = parseObjectStreamEntry limits := by
    funext streamKey stream decoded first entry
    simp only [parseObjectStreamEntry, parseObject_withThreshold]
  funext streamKey stream decoded
  simp only [parseObjectStream, hentry]
  rfl

theorem materialize_withThreshold (h : registry.IgnoresThreshold) :
    materializeStreamBackedStructures (limits.withThreshold threshold) registry
      = materializeStreamBackedStructures limits registry := by
  have hxref : materializeXref (limits.withThreshold threshold) registry
      = materializeXref limits registry := by
    funext key offset stream s
    simp only [materializeXref, parseXrefStream, decodeStream_withThreshold h]
    rfl
  have hobjStm : materializeObjStm (limits.withThreshold threshold) registry
      = materializeObjStm limits registry := by
    funext key offset stream s
    simp only [materializeObjStm, decodeStream_withThreshold h, parseObjectStream_withThreshold]
    rfl
  have hstream : materializeStream (limits.withThreshold threshold) registry
      = materializeStream limits registry := by
    funext s object
    simp only [materializeStream, hxref, hobjStm]
  funext objects trailers log
  simp only [materializeStreamBackedStructures, hstream]
  rfl

/-- **Behind the choice of the storage the threshold has no effect.** -/
theorem parseDocument_withThreshold (h : registry.IgnoresThreshold) {password : Option Bytes} :
    parseDocument storage (limits.withThreshold threshold) registry crates password
      = parseDocument storage limits registry crates password := by
  simp only [parseDocument, scanDocument_withThreshold, encryptionGate_withThreshold,
    materialize_withThreshold h]

/-! ## The default registry -/

theorem registerMany_ignoresThreshold {names : List String} {decoder : StreamDecoder}
    (h : registry.IgnoresThreshold)
    (hdecoder : ∀ input params limits threshold,
      decoder input params (ResourceLimits.withThreshold limits threshold)
        = decoder input params limits) :
    (registry.registerMany names decoder).IgnoresThreshold := by
  unfold DecoderRegistry.registerMany
  induction names generalizing registry with
  | nil => exact h
  | cons name names ih =>
    refine ih fun name' decoder' hget => ?_
    rw [OrdMap.get?_insert] at hget
    split at hget
    · cases hget
      exact hdecoder
    · exact h name' decoder' hget

/-- The default decoders do not read the threshold. -/
theorem DecoderRegistry.new_ignoresThreshold (crates : Crates) :
    (DecoderRegistry.new crates).IgnoresThreshold := by
  have hempty : DecoderRegistry.IgnoresThreshold OrdMap.empty := by
    intro name decoder hget
    cases hget
  unfold DecoderRegistry.new
  refine registerMany_ignoresThreshold (registerMany_ignoresThreshold
    (registerMany_ignoresThreshold (registerMany_ignoresThreshold (registerMany_ignoresThreshold
      (registerMany_ignoresThreshold (registerMany_ignoresThreshold hempty ?_) ?_) ?_) ?_) ?_) ?_)
    ?_
  all_goals
    intro input params limits threshold
    rfl

end Pdfv
