import Pdfv.Parser.Document
import Pdfv.Parser.SourceSpec
/-!
# The scan over both storages

Parsing from memory and parsing from a spill file that holds the same bytes run in lockstep: the
readers are equal (`reader_spillFile`), so the two runs differ in the representation of a stream
only. `StreamSim` relates the two representations, `ObjectSim`, `IndirectSim` and `StoreSim` carry
the relation to whole stores, and every step of the scan and of the decryption keeps it.
-/

namespace Pdfv

open Loop Fallible

/-! ## Related streams -/

/-- The stream `m` of the memory run and the stream `s` of the spill run: the same fields and the
same payload. The memory run keeps its place in the source of length `n`, the spill run copies the
payload. -/
structure StreamSim (n : Nat) (m s : StreamObject) : Prop where
  fields : { m with rawRange := s.rawRange, rawSource := s.rawSource } = s
  rawBytes : m.rawBytes = s.rawBytes
  start_zero : s.rawRange.start = 0
  start_le : m.rawRange.start ≤ n

namespace StreamSim

variable {n : Nat} {m s : StreamObject}

theorem dictionary (h : StreamSim n m s) : m.dictionary = s.dictionary :=
  (congrArg StreamOf.dictionary h.fields :)

theorem filters (h : StreamSim n m s) : m.filters = s.filters :=
  (congrArg StreamOf.filters h.fields :)

theorem decodeParams (h : StreamSim n m s) : m.decodeParams = s.decodeParams :=
  (congrArg StreamOf.decodeParams h.fields :)

theorem decodedBytes (h : StreamSim n m s) (limits : ResourceLimits) (registry : DecoderRegistry) :
    m.decodedBytesWithRegistry limits registry = s.decodedBytesWithRegistry limits registry := by
  simp only [StreamOf.decodedBytesWithRegistry, h.rawBytes, h.filters, h.decodeParams]

/-- A payload that starts its own buffer is the same in both runs. -/
theorem refl (n : Nat) (h : m.rawRange.start = 0) : StreamSim n m m :=
  ⟨rfl, rfl, h, by omega⟩

end StreamSim

/-- Related objects: equal, or two related streams. Only the object of an indirect object can be a
stream. -/
inductive ObjectSim (n : Nat) : CosObject → CosObject → Prop where
  | same {object : CosObject} (h : ∀ stream, object ≠ .stream stream) : ObjectSim n object object
  | stream {m s : StreamObject} (h : StreamSim n m s) : ObjectSim n (.stream m) (.stream s)

/-- Related indirect objects. -/
structure IndirectSim (n : Nat) (m s : IndirectObject) : Prop where
  key : m.key = s.key
  offset : m.offset = s.offset
  object : ObjectSim n m.object s.object

/-- Related stores: the same keys, with related objects. -/
def StoreSim (n : Nat) (m s : ObjectStore) : Prop :=
  OrdMap.Rel (IndirectSim n) m s

theorem StoreSim.insertObject {n : Nat} {m s : ObjectStore} {object object' : IndirectObject}
    (h : StoreSim n m s) (ho : IndirectSim n object object') :
    StoreSim n (m.insertObject object) (s.insertObject object') := by
  unfold ObjectStore.insertObject
  rw [← ho.key]
  exact OrdMap.Rel.insert h object.key ho

/-! ## The payload of a stream lies in the source -/

section Payload

variable {bytes : Bytes}

theorem startsWith_le {pos : Nat} {expected : Bytes}
    (h : (SourceStorage.memory bytes).startsWith pos expected = true) :
    pos + expected.length ≤ bytes.length := by
  by_contra hgt
  have hout : pos > pos + expected.length
      ∨ pos + expected.length > (SourceStorage.memory bytes).len := by
    rw [SourceStorage.len_memory]
    omega
  unfold SourceStorage.startsWith at h
  rw [SourceStorage.slice_outside hout] at h
  cases h

theorem consumeBytes_ok {src : ByteSource} {expected : Bytes} {pos pos' : Nat}
    (h : src.consumeBytes expected pos = .ok pos') :
    src.startsWith pos expected = true ∧ pos' = pos + expected.length := by
  unfold ByteSource.consumeBytes at h
  split at h
  · rename_i hstart
    cases h
    exact ⟨hstart, rfl⟩
  · cases h

theorem findBytes_ge {needle : Bytes} {start stop found : Nat}
    (h : (SourceStorage.memory bytes).findBytes needle start stop = some found) :
    start ≤ found := by
  unfold SourceStorage.findBytes at h
  split at h
  · cases h
  · dsimp only at h
    split at h
    · rw [Option.map_eq_some_iff] at h
      obtain ⟨i, _, rfl⟩ := h
      omega
    · cases h

theorem endstreamAfterOptionalEol_ge {src : ByteSource} {offset pos : Nat}
    (h : src.endstreamAfterOptionalEol offset = some pos) : offset ≤ pos := by
  unfold ByteSource.endstreamAfterOptionalEol at h
  split at h
  · cases h
    omega
  · split at h
    · cases h
      omega
    · split at h
      · cases h
        omega
      · cases h

theorem trimEolBefore_bounds {src : ByteSource} {start pos : Nat} (h : start ≤ pos) :
    start ≤ src.trimEolBefore start pos ∧ src.trimEolBefore start pos ≤ pos := by
  unfold ByteSource.trimEolBefore
  split
  · rename_i htwo
    rw [Bool.and_eq_true, decide_eq_true_eq] at htwo
    omega
  · split
    · rename_i hone
      rw [Bool.and_eq_true, decide_eq_true_eq] at hone
      omega
    · omega

/-- The end that `streamExtent` picks is between the start of the data and the keyword. -/
theorem streamExtent_bounds {limits : ResourceLimits} {dataStart dataEnd keywordPos : Nat}
    {declaredLength : Option Nat}
    (h : (SourceStorage.memory bytes).reader.streamExtent limits dataStart declaredLength
      = .ok (dataEnd, keywordPos)) :
    dataStart ≤ dataEnd ∧ dataEnd ≤ keywordPos := by
  unfold ByteSource.streamExtent at h
  dsimp only at h
  split at h
  · rename_i declared found hdeclared hfound
    cases h
    obtain ⟨len, rfl⟩ : ∃ len, declaredLength = some len := by
      cases declaredLength with
      | none => cases hdeclared
      | some len => exact ⟨len, rfl⟩
    rw [Option.map_some, Option.some.injEq] at hdeclared
    subst hdeclared
    exact ⟨by omega, endstreamAfterOptionalEol_ge hfound⟩
  · split at h
    · rename_i found hfound
      cases h
      exact trimEolBefore_bounds (findBytes_ge hfound)
    · cases h

end Payload

/-! ## The readers of the two runs -/

section Scan

variable (source : Bytes) (limits : ResourceLimits)

/-- The source in memory. -/
abbrev inMemory : SourceStorage :=
  .memory source

/-- The source in a spill file. -/
abbrev spilled : SourceStorage :=
  .spillFile source source.length

/-- Both storages hand out the same payload, and only the memory run keeps its place. -/
theorem streamSource_sim {start stop : Nat} (h : start ≤ stop) (hstop : stop ≤ source.length)
    (fields : StreamObject) :
    ExceptRel (fun m s => StreamSim source.length
        { fields with rawSource := m.1, rawRange := m.2 }
        { fields with rawSource := s.1, rawRange := s.2 })
      ((inMemory source).streamSource start stop) ((spilled source).streamSource start stop) := by
  have hread : (spilled source).streamSource start stop
      = .ok ((source.take stop).drop start, ⟨0, ((source.take stop).drop start).length⟩) := by
    simp only [SourceStorage.streamSource, SourceStorage.slice_spillFile,
      SourceStorage.slice_memory h hstop, ok_bind]
    rfl
  rw [hread]
  refine ⟨rfl, ?_, rfl, by dsimp only; omega⟩
  simp only [StreamOf.rawBytes]
  rw [subrange_eq_some h hstop, subrange_eq_some (Nat.zero_le _) (Nat.le_refl _), List.take_length,
    List.drop_zero]

theorem parseStream_sim (key : ObjectKey) (dictionary : Dictionary) (pos : Nat) (log : FactLog) :
    ExceptRel (fun m s => StreamSim source.length m.1 s.1 ∧ m.2 = s.2)
      (parseStream (inMemory source) limits key dictionary pos log)
      (parseStream (spilled source) limits key dictionary pos log) := by
  unfold parseStream
  rw [reader_spillFile]
  dsimp only
  refine ExceptRel.bind_same _ fun pos _ => ?_
  refine ExceptRel.bind_same _ fun _ _ => ?_
  refine ExceptRel.bind_same _ fun extent hextent => ?_
  obtain ⟨dataEnd, endstreamPos⟩ := extent
  refine ExceptRel.bind_same _ fun pos' hpos' => ?_
  obtain ⟨hstart, hend⟩ := streamExtent_bounds hextent
  have hkeyword := startsWith_le (consumeBytes_ok hpos').1
  have hstream := streamSource_sim source hstart (by omega)
    ⟨dictionary, ⟨0, 0⟩, (integerFromDictionary dictionary "Length").bind u64OfInt,
      dataEnd - (inMemory source).reader.skipStreamEol pos, streamFilters dictionary,
      streamDecodeParams dictionary (streamFilters dictionary).length, [],
      (inMemory source).reader.startsWith pos [13, 10],
      (inMemory source).reader.hasEolBefore endstreamPos⟩
  exact ExceptRel.bind hstream fun m s hms => ⟨hms, rfl⟩

theorem parseNumberOrReference_ne_stream {src : ByteSource} {pos stop : Nat} {stream : StreamObject}
    (h : src.parseNumberOrReference pos = .ok (.stream stream, stop)) : False := by
  unfold ByteSource.parseNumberOrReference at h
  rw [bind_eq_ok] at h
  obtain ⟨_, _, h⟩ := h
  dsimp only at h
  rw [bind_eq_ok] at h
  obtain ⟨reference, _, h⟩ := h
  cases reference with
  | some reference => cases h
  | none =>
    dsimp only at h
    rw [bind_eq_ok] at h
    obtain ⟨⟨token, tokenStop⟩, _, h⟩ := h
    cases token with
    | integer value => cases h
    | real value => cases h

theorem parseScalar_ne_stream {src : ByteSource} {b : UInt8} {pos stop : Nat}
    {stream : StreamObject} (h : src.parseScalar limits b pos = .ok (.stream stream, stop)) :
    False := by
  unfold ByteSource.parseScalar at h
  repeat' split at h
  -- every branch but the number branch wraps what it read in a constructor of its own
  all_goals first
    | exact parseNumberOrReference_ne_stream h
    | cases h
    | (rw [bind_eq_ok] at h
       obtain ⟨_, _, h⟩ := h
       cases h)

/-- The object parser builds no streams. -/
theorem parseObject_ne_stream {src : ByteSource} {depth pos stop : Nat} {object : CosObject}
    (h : src.parseObject limits depth pos = .ok (object, stop)) (stream : StreamObject) :
    object ≠ .stream stream := by
  rintro rfl
  unfold ByteSource.parseObject ByteSource.objectFuel at h
  rw [ByteSource.parseObjectWith] at h
  dsimp only at h
  split at h
  · cases h
  · split at h
    · rw [bind_eq_ok] at h
      obtain ⟨_, _, h⟩ := h
      cases h
    · split at h
      · rw [bind_eq_ok] at h
        obtain ⟨_, _, h⟩ := h
        cases h
      · split at h
        · cases h
        · exact parseScalar_ne_stream limits h

theorem parseIndirectValue_sim (key : ObjectKey) (pos : Nat) (log : FactLog) :
    ExceptRel (fun m s => ObjectSim source.length m.1 s.1 ∧ m.2 = s.2)
      (parseIndirectValue (inMemory source) limits key pos log)
      (parseIndirectValue (spilled source) limits key pos log) := by
  unfold parseIndirectValue
  rw [reader_spillFile]
  refine ExceptRel.bind_same _ fun parsed hparsed => ?_
  obtain ⟨object, stop⟩ := parsed
  have hobject := parseObject_ne_stream limits hparsed
  cases object with
  | dictionary dictionary =>
    dsimp only
    split
    · exact ExceptRel.bind (parseStream_sim source limits key dictionary stop log)
        fun m s hms => ⟨.stream hms.1, hms.2⟩
    · exact ⟨.same hobject, rfl⟩
  | stream stream => exact absurd rfl (hobject stream)
  | _ => exact ⟨.same hobject, rfl⟩

theorem parseIndirectObject_sim (start : Nat) (log : FactLog) :
    ExceptRel (Option.Rel fun m s => IndirectSim source.length m.1 s.1 ∧ m.2 = s.2)
      (parseIndirectObject (inMemory source) limits start log)
      (parseIndirectObject (spilled source) limits start log) := by
  unfold parseIndirectObject
  rw [reader_spillFile]
  refine ExceptRel.bind_same _ fun header _ => ?_
  cases header with
  | none => exact Option.Rel.none
  | some header =>
    obtain ⟨key, pos⟩ := header
    refine ExceptRel.bind (parseIndirectValue_sim source limits key pos log) fun m s hms => ?_
    obtain ⟨object, stop, log⟩ := m
    obtain ⟨object', stop', log'⟩ := s
    obtain ⟨hobject, hrest⟩ := hms
    cases hrest
    exact Option.Rel.some ⟨⟨rfl, rfl, hobject⟩, rfl⟩

/-! ## The top-level scan -/

/-- Related scan states: only the objects differ. -/
structure ScanSim (n : Nat) (m s : ScanState) : Prop where
  pos : m.pos = s.pos
  log : m.log = s.log
  objects : StoreSim n m.objects s.objects
  trailers : m.trailers = s.trailers

theorem parseTrailer_sim {m s : ScanState} (h : ScanSim source.length m s) :
    ExceptRel (ScanSim source.length) (parseTrailer (inMemory source) limits m)
      (parseTrailer (spilled source) limits s) := by
  unfold parseTrailer
  rw [reader_spillFile, h.pos, h.log, h.trailers]
  refine ExceptRel.bind_same _ fun pos _ => ?_
  refine ExceptRel.bind_same _ fun parsed _ => ?_
  refine ExceptRel.bind_same _ fun log _ => ?_
  exact ⟨rfl, rfl, h.objects, rfl⟩

theorem xrefTrailerStep_sim {m s : ScanState} (h : ScanSim source.length m s) :
    StepRel (ScanSim source.length) (ExceptRel (ScanSim source.length))
      (xrefTrailerStep (inMemory source) limits m) (xrefTrailerStep (spilled source) limits s) := by
  have hmove : ∀ pos, ScanSim source.length { m with pos } { s with pos } :=
    fun pos => ⟨rfl, h.log, h.objects, h.trailers⟩
  unfold xrefTrailerStep
  rw [reader_spillFile, h.pos]
  dsimp only
  split
  · exact hmove _
  · split
    · exact parseTrailer_sim source limits (hmove _)
    · split
      · exact hmove _
      · exact hmove _

theorem parseXrefAndTrailer_sim {m s : ScanState} (h : ScanSim source.length m s) :
    ExceptRel (ScanSim source.length) (parseXrefAndTrailer (inMemory source) limits m)
      (parseXrefAndTrailer (spilled source) limits s) := by
  unfold parseXrefAndTrailer
  rw [reader_spillFile, h.pos, h.log]
  refine ExceptRel.bind_same _ fun pos _ => ?_
  refine ExceptRel.bind_same _ fun xref _ => ?_
  exact runLoop_rel (fun _ _ => xrefTrailerStep_sim source limits) (fun _ _ => ExceptRel.ok)
    ⟨rfl, rfl, h.objects, h.trailers⟩

theorem parsePostEofFact_sim {m s : ScanState} (h : ScanSim source.length m s) :
    ExceptRel (ScanSim source.length) (parsePostEofFact (inMemory source) limits m)
      (parsePostEofFact (spilled source) limits s) := by
  unfold parsePostEofFact
  rw [reader_spillFile, h.pos, h.log]
  refine ExceptRel.bind_same _ fun pos _ => ?_
  refine ExceptRel.bind_same _ fun rest _ => ?_
  exact ⟨rfl, rfl, h.objects, h.trailers⟩

theorem scanObject_sim {m s : ScanState} (h : ScanSim source.length m s) :
    ExceptRel (ScanSim source.length) (scanObject (inMemory source) limits m)
      (scanObject (spilled source) limits s) := by
  unfold scanObject
  rw [h.pos, h.log]
  refine ExceptRel.bind (parseIndirectObject_sim source limits s.pos s.log) fun a b hab => ?_
  cases hab with
  | none => exact ⟨rfl, rfl, h.objects, h.trailers⟩
  | @some a b hab =>
    obtain ⟨object, stop, log⟩ := a
    obtain ⟨object', stop', log'⟩ := b
    obtain ⟨hobject, hrest⟩ := hab
    cases hrest
    dsimp only
    unfold insertScanned
    rw [OrdMap.Rel.size_eq h.objects]
    dsimp only
    split
    · rfl
    · exact ⟨rfl, rfl, h.objects.insertObject hobject, h.trailers⟩

theorem scanNext_sim {n : Nat} {a b : Except ParseError ScanState}
    (h : ExceptRel (ScanSim n) a b) :
    StepRel (ScanSim n) (ExceptRel (ScanSim n)) (scanNext a) (scanNext b) := by
  rcases h.outcomes with ⟨e, rfl, rfl⟩ | ⟨m, s, rfl, rfl, hms⟩
  · rfl
  · exact hms

theorem scanStep_sim {m s : ScanState} (h : ScanSim source.length m s) :
    StepRel (ScanSim source.length) (ExceptRel (ScanSim source.length))
      (scanStep (inMemory source) limits m) (scanStep (spilled source) limits s) := by
  have hmove : ∀ pos, ScanSim source.length { m with pos } { s with pos } :=
    fun pos => ⟨rfl, h.log, h.objects, h.trailers⟩
  unfold scanStep
  rw [reader_spillFile, h.pos]
  dsimp only
  split
  · split
    · exact parsePostEofFact_sim source limits (hmove _)
    · split
      · exact hmove _
      · split
        · exact scanNext_sim (parseXrefAndTrailer_sim source limits (hmove _))
        · split
          · exact scanNext_sim (parseTrailer_sim source limits (hmove _))
          · exact scanNext_sim (scanObject_sim source limits (hmove _))
  · exact h

/-- **The two scans end in the same way, in related states.** -/
theorem scanDocument_sim :
    ExceptRel (fun m s => m.1 = s.1 ∧ ScanSim source.length m.2 s.2)
      (scanDocument (inMemory source) limits) (scanDocument (spilled source) limits) := by
  unfold scanDocument parseTopLevelObjects
  rw [reader_spillFile]
  refine ExceptRel.bind_same _ fun header _ => ?_
  obtain ⟨headerOffset, version, pos, warnings⟩ := header
  have hstart : ScanSim source.length
      ⟨pos, FactLog.pushFact ⟨[], warnings⟩ limits
        (.header headerOffset version (headerOffset ≠ 0)), OrdMap.empty, []⟩
      ⟨pos, FactLog.pushFact ⟨[], warnings⟩ limits
        (.header headerOffset version (headerOffset ≠ 0)), OrdMap.empty, []⟩ :=
    ⟨rfl, rfl, OrdMap.Rel.empty, rfl⟩
  exact ExceptRel.bind (runLoop_rel (fun _ _ => scanStep_sim source limits)
    (fun _ _ => ExceptRel.ok) hstart) fun m s hms => ⟨rfl, hms⟩

end Scan

/-! ## Decryption -/

section Decryption

variable {n : Nat} {limits : ResourceLimits} {crates : Crates}

theorem asDictionary_sim {m s : CosObject} (h : ObjectSim n m s) :
    m.asDictionary = s.asDictionary := by
  cases h with
  | same _ => rfl
  | stream h => exact congrArg some h.dictionary

theorem encryptionDictionary_sim {m s : ObjectStore} (h : StoreSim n m s)
    (trailers : List Trailer) :
    encryptionDictionary m trailers = encryptionDictionary s trailers := by
  unfold encryptionDictionary
  split
  · rfl
  · rename_i key _
    have hget := OrdMap.Rel.get? h key
    generalize m.get? key = object, s.get? key = object' at hget
    cases hget with
    | none => rfl
    | some hobject => simp only [bind, Option.bind, asDictionary_sim hobject.object]
  · rfl

theorem parseEncryptionDictionary_sim {m s : ObjectStore} (h : StoreSim n m s)
    (trailers : List Trailer) (limits : ResourceLimits) :
    parseEncryptionDictionary m trailers limits = parseEncryptionDictionary s trailers limits := by
  unfold parseEncryptionDictionary
  rw [encryptionDictionary_sim h]

variable {dictionary : EncryptionDictionary} {fileKey : Bytes}

/-- A decrypted stream has its own buffer, in both runs the same one; an untouched stream stays
related. -/
theorem decryptStream_sim (limits : ResourceLimits) (crates : Crates)
    (dictionary : EncryptionDictionary) (fileKey : Bytes) (key : ObjectKey) {m s : StreamObject}
    (h : StreamSim n m s) :
    ExceptRel (StreamSim n) (decryptStream crates limits dictionary fileKey key m)
      (decryptStream crates limits dictionary fileKey key s) := by
  have hraw := h.rawBytes
  have hfields := h.fields
  obtain ⟨entries, range, declared, discovered, filters, params, raw, crlf, eol⟩ := m
  obtain ⟨entries', range', declared', discovered', filters', params', raw', crlf', eol'⟩ := s
  cases hfields
  unfold decryptStream
  rw [hraw]
  dsimp only
  split
  · exact h
  · split
    · exact h
    · refine ExceptRel.bind_same _ fun payload _ => ?_
      split
      · rfl
      · refine ExceptRel.bind_same _ fun decrypted _ => ?_
        split
        · rfl
        · exact StreamSim.refl n rfl

theorem decryptObject_stream (key : ObjectKey) (stream : StreamObject) :
    decryptObject crates limits dictionary fileKey key (.stream stream)
      = match decryptStream crates limits dictionary fileKey key stream with
        | .error e => (.stream stream, some e)
        | .ok decrypted =>
          let entries := decryptEntries crates limits dictionary fileKey key stream.dictionary
          (.stream { decrypted with dictionary := entries.1 }, entries.2) := by
  obtain ⟨entries, range, declared, discovered, filters, params, raw, crlf, eol⟩ := stream
  unfold decryptObject
  rfl

theorem StreamSim.withDictionary {m s : StreamObject} (h : StreamSim n m s) (entries : Dictionary) :
    StreamSim n { m with dictionary := entries } { s with dictionary := entries } :=
  ⟨congrArg (fun stream : StreamObject => { stream with dictionary := entries }) h.fields,
    h.rawBytes, h.start_zero, h.start_le⟩

theorem decryptObject_sim {key : ObjectKey} {m s : CosObject} (h : ObjectSim n m s) :
    ObjectSim n (decryptObject crates limits dictionary fileKey key m).1
        (decryptObject crates limits dictionary fileKey key s).1
      ∧ (decryptObject crates limits dictionary fileKey key m).2
        = (decryptObject crates limits dictionary fileKey key s).2 := by
  cases h with
  | same hplain =>
    refine ⟨.same fun stream => ?_, rfl⟩
    cases m with
    | stream stream => exact absurd rfl (hplain stream)
    | _ =>
      simp only [decryptObject]
      exact CosObject.noConfusion
  | @stream m s h =>
    rw [decryptObject_stream, decryptObject_stream, h.dictionary]
    rcases (decryptStream_sim limits crates dictionary fileKey key h).outcomes with ⟨e, hm, hs⟩ | ⟨a, b, hm, hs, hab⟩
    · rw [hm, hs]
      exact ⟨.stream h, rfl⟩
    · rw [hm, hs]
      exact ⟨.stream (hab.withDictionary _), rfl⟩

theorem decryptIndirectObject_sim {m s : IndirectObject} (h : IndirectSim n m s) :
    IndirectSim n (decryptIndirectObject crates limits dictionary fileKey m).1
        (decryptIndirectObject crates limits dictionary fileKey s).1
      ∧ (decryptIndirectObject crates limits dictionary fileKey m).2
        = (decryptIndirectObject crates limits dictionary fileKey s).2 := by
  obtain ⟨key, offset, object⟩ := m
  obtain ⟨key', offset', object'⟩ := s
  obtain ⟨rfl, rfl, hobject⟩ := h
  unfold decryptIndirectObject
  split
  · exact ⟨⟨rfl, rfl, hobject⟩, rfl⟩
  · obtain ⟨hobject, herror⟩ := decryptObject_sim hobject
    exact ⟨⟨rfl, rfl, hobject⟩, herror⟩

end Decryption

end Pdfv
