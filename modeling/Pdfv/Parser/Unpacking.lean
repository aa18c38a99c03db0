import Pdfv.Parser.StorageSim
/-!
# Object streams over both storages

An object of an object stream gets the offset `rawRange.start` plus its position in the decoded
bytes, and `rawRange.start` is where the two storages differ. The list that both runs collect is one
list of placed objects, shifted by the start of its stream in the memory run
(`materializeStream_sim`), and the first object that is collected for a missing key enters the store
(`get?_insertAll`).
-/

namespace Pdfv

open Fallible

/-! ## The encryption gate -/

section Gate

variable {n : Nat} {limits : ResourceLimits} {crates : Crates}

/-- Related outcomes of the encryption check. -/
inductive GateSim (n : Nat) : EncryptionGate → EncryptionGate → Prop where
  | finished {m s : ObjectStore} (h : StoreSim n m s) (log : FactLog) :
    GateSim n (.finished m log) (.finished s log)
  | proceed {m s : ObjectStore} (h : StoreSim n m s) (log : FactLog) :
    GateSim n (.proceed m log) (.proceed s log)

theorem decryptDocument_sim (limits : ResourceLimits) (crates : Crates) {m s : ObjectStore} (h : StoreSim n m s) (trailers : List Trailer)
    (password : Bytes) :
    StoreSim n (decryptDocument crates limits m trailers password).1
        (decryptDocument crates limits s trailers password).1
      ∧ (decryptDocument crates limits m trailers password).2
        = (decryptDocument crates limits s trailers password).2 := by
  unfold decryptDocument
  rw [parseEncryptionDictionary_sim h]
  cases parseEncryptionDictionary s trailers limits with
  | error e => exact ⟨h, rfl⟩
  | ok dictionary =>
    dsimp only
    cases authenticate crates dictionary password with
    | error e => exact ⟨h, rfl⟩
    | ok fileKey =>
      cases fileKey with
      | none => exact ⟨h, rfl⟩
      | some fileKey =>
        have hobjects : StoreSim n
              (m.mutateValues (decryptIndirectObject crates limits dictionary fileKey)).1
              (s.mutateValues (decryptIndirectObject crates limits dictionary fileKey)).1
            ∧ (m.mutateValues (decryptIndirectObject crates limits dictionary fileKey)).2
              = (s.mutateValues (decryptIndirectObject crates limits dictionary fileKey)).2 :=
          OrdMap.Rel.mutateValues h fun v v' hv => decryptIndirectObject_sim hv
        obtain ⟨hstore, herror⟩ := hobjects
        dsimp only [decryptObjects]
        generalize m.mutateValues _ = a, s.mutateValues _ = b at hstore herror
        obtain ⟨objects, e⟩ := a
        obtain ⟨objects', e'⟩ := b
        dsimp only at hstore herror
        subst herror
        cases e with
        | some e => exact ⟨hstore, rfl⟩
        | none => exact ⟨hstore, rfl⟩

theorem encryptionGate_sim (limits : ResourceLimits) (crates : Crates) {m s : ScanState} (h : ScanSim n m s) (password : Option Bytes) :
    ExceptRel (GateSim n) (encryptionGate limits crates password m)
      (encryptionGate limits crates password s) := by
  unfold encryptionGate encryptionFact encryptionSummary classifyEncryption
  rw [h.trailers, h.log, parseEncryptionDictionary_sim h.objects,
    parseEncryptionDictionary_sim h.objects]
  split
  · dsimp only
    split
    · rfl
    · cases password with
      | none => exact GateSim.finished h.objects _
      | some password =>
        obtain ⟨hstore, hresult⟩ :=
          decryptDocument_sim limits crates h.objects s.trailers password
        dsimp only
        generalize decryptDocument crates limits m.objects s.trailers password = a,
          decryptDocument crates limits s.objects s.trailers password = b at hstore hresult
        obtain ⟨objects, result⟩ := a
        obtain ⟨objects', result'⟩ := b
        dsimp only at hstore hresult
        subst hresult
        cases result with
        | ok summary => exact GateSim.proceed hstore _
        | error e =>
          dsimp only
          split
          · exact GateSim.finished hstore _
          · rfl
  · exact GateSim.proceed h.objects _

end Gate

/-! ## Placed objects -/

/-- An object of an object stream whose payload starts at `start` in the source. -/
def IndirectObject.shift (start : Nat) (object : IndirectObject) : IndirectObject :=
  { object with offset := start + object.offset }

section Unpack

variable {limits : ResourceLimits}

/-- The offset of an object is the start of the stream's payload and its position. -/
theorem parseObjectStreamEntry_shift (streamKey : ObjectKey) (stream : StreamObject)
    (decoded : Bytes) (first : Nat) (entry : ObjectKey × Nat)
    (hbound : stream.rawRange.start + decoded.length ≤ u64Size) :
    ExceptRel (fun object placed => object = IndirectObject.shift stream.rawRange.start placed
        ∧ ∀ inner, placed.object ≠ .stream inner)
      (parseObjectStreamEntry limits streamKey stream decoded first entry)
      (parseObjectStreamEntry limits streamKey { stream with rawRange := ⟨0, 0⟩ } decoded first
        entry) := by
  obtain ⟨key, relativeOffset⟩ := entry
  unfold parseObjectStreamEntry
  dsimp only
  refine ExceptRel.bind_same _ fun _ _ => ?_
  refine ExceptRel.bind_same _ fun _ hinside => ?_
  refine ExceptRel.bind_same _ fun parsed hparsed => ?_
  obtain ⟨object, stop⟩ := parsed
  rw [failIf_eq_ok] at hinside
  have hhere : checkedU64 (stream.rawRange.start + (first + relativeOffset))
      "object stream object offset"
      = .ok (stream.rawRange.start + (first + relativeOffset)) := by
    unfold checkedU64
    rw [if_pos (by omega)]
  have hzero : checkedU64 (0 + (first + relativeOffset)) "object stream object offset"
      = .ok (first + relativeOffset) := by
    unfold checkedU64
    rw [if_pos (by omega), Nat.zero_add]
  rw [hhere, hzero]
  simp only [ok_bind]
  refine ExceptRel.bind_same _ fun _ _ => ?_
  exact ⟨rfl, parseObject_ne_stream limits hparsed⟩

theorem parseObjectStream_congr (streamKey : ObjectKey) {stream stream' : StreamObject}
    (decoded : Bytes) (hdictionary : stream.dictionary = stream'.dictionary)
    (hstart : stream.rawRange.start = stream'.rawRange.start) :
    parseObjectStream limits streamKey stream decoded
      = parseObjectStream limits streamKey stream' decoded := by
  have hentry : parseObjectStreamEntry limits streamKey stream
      = parseObjectStreamEntry limits streamKey stream' := by
    funext decoded first entry
    simp only [parseObjectStreamEntry, hstart]
  simp only [parseObjectStream, hdictionary, hentry]

/-- Everything in an object stream is shifted by the start of the payload. -/
theorem parseObjectStream_shift (limits : ResourceLimits) (streamKey : ObjectKey) (stream : StreamObject) (decoded : Bytes)
    (hbound : stream.rawRange.start + decoded.length ≤ u64Size) :
    ExceptRel (fun objects placed => objects = placed.map (IndirectObject.shift stream.rawRange.start)
        ∧ ∀ object ∈ placed, ∀ inner, object.object ≠ .stream inner)
      (parseObjectStream limits streamKey stream decoded)
      (parseObjectStream limits streamKey { stream with rawRange := ⟨0, 0⟩ } decoded) := by
  unfold parseObjectStream
  refine ExceptRel.bind_same _ fun count _ => ?_
  refine ExceptRel.bind_same _ fun _ _ => ?_
  refine ExceptRel.bind_same _ fun first _ => ?_
  refine ExceptRel.bind_same _ fun _ _ => ?_
  refine ExceptRel.bind_same _ fun _ _ => ?_
  refine ExceptRel.bind_same _ fun headers _ => ?_
  refine (ExceptRel.mapM fun entry _ =>
    parseObjectStreamEntry_shift streamKey stream decoded first entry hbound).mono ?_
  intro objects placed hplaced
  induction hplaced with
  | nil => exact ⟨rfl, fun object hobject => absurd hobject List.not_mem_nil⟩
  | @cons object object' objects placed hobject _ ih =>
    obtain ⟨rfl, hplain⟩ := hobject
    obtain ⟨rfl, hrest⟩ := ih
    refine ⟨rfl, fun object hmem => ?_⟩
    rcases List.mem_cons.mp hmem with rfl | hmem
    · exact hplain
    · exact hrest object hmem

end Unpack

/-! ## The stream loop -/

section Loop

variable (limits : ResourceLimits) (registry : DecoderRegistry)

/-- The objects that an object stream unpacks to. -/
def unpackStream (key : ObjectKey) (stream : StreamObject) :
    Except ParseError (List IndirectObject) := do
  let decoded ← stream.decodedBytesWithRegistry limits registry
  parseObjectStream limits key stream decoded.bytes

/-- The keys that an object of the store supplies when it is an object stream, each with the start
of the stream's payload in its buffer. -/
def suppliedKeys (object : IndirectObject) : List (ObjectKey × Nat) :=
  match object.object with
  | .stream stream =>
    if entryIsName stream.dictionary "Type" "ObjStm" then
      match unpackStream limits registry object.key stream with
      | .ok objects => objects.map fun object => (object.key, stream.rawRange.start)
      | .error _ => []
    else []
  | _ => []

/-- Related states of the stream loop: the same placed objects were collected, in the memory run
shifted by the start of their stream. -/
structure MaterializeSim (collected : List (Nat × IndirectObject)) (m s : MaterializeState) :
    Prop where
  log : m.log = s.log
  trailers : m.trailers = s.trailers
  memory : m.expanded = collected.map fun placed => placed.2.shift placed.1
  spill : s.expanded = collected.map Prod.snd
  plain : ∀ placed ∈ collected, ∀ inner, placed.2.object ≠ .stream inner

/-- The keys of collected objects with the starts of their streams. -/
def collectedKeys (collected : List (Nat × IndirectObject)) : List (ObjectKey × Nat) :=
  collected.map fun placed => (placed.2.key, placed.1)

variable {limits registry} {n : Nat} {collected : List (Nat × IndirectObject)}
  {m s : MaterializeState}

theorem parseXrefStream_sim {key : ObjectKey} {stream stream' : StreamObject} {log : FactLog}
    (h : StreamSim n stream stream') :
    parseXrefStream limits registry key stream log
      = parseXrefStream limits registry key stream' log := by
  simp only [parseXrefStream, decodeStream, h.dictionary, h.decodedBytes]

theorem materializeXref_sim {key : ObjectKey} {offset : Nat} {stream stream' : StreamObject}
    (hstream : StreamSim n stream stream') (h : MaterializeSim collected m s) :
    ExceptRel (MaterializeSim collected)
      (materializeXref limits registry key offset stream m)
      (materializeXref limits registry key offset stream' s) := by
  unfold materializeXref
  rw [parseXrefStream_sim hstream, h.log, h.trailers, hstream.dictionary]
  refine ExceptRel.bind_same _ fun parsed _ => ?_
  refine ExceptRel.bind_same _ fun log _ => ?_
  exact ⟨rfl, rfl, h.memory, h.spill, h.plain⟩

/-- The decoded bytes of every stream fit in a buffer. -/
def DecodesFit (limits : ResourceLimits) (registry : DecoderRegistry) : Prop :=
  ∀ (stream : StreamObject) decoded,
    stream.decodedBytesWithRegistry limits registry = .ok decoded → decoded.bytes.length < isizeSize

theorem materializeObjStm_sim (hfit : DecodesFit limits registry) (hn : n < isizeSize)
    {key : ObjectKey} {offset : Nat} {stream stream' : StreamObject}
    (hstream : StreamSim n stream stream') (h : MaterializeSim collected m s) :
    ExceptRel (fun m' s' => ∃ placed : List IndirectObject, MaterializeSim
          (collected ++ placed.map fun object => (stream.rawRange.start, object)) m' s'
        ∧ unpackStream limits registry key stream
          = .ok (placed.map (IndirectObject.shift stream.rawRange.start)))
      (materializeObjStm limits registry key offset stream m)
      (materializeObjStm limits registry key offset stream' s) := by
  unfold materializeObjStm decodeStream unpackStream
  rw [h.log, ← hstream.decodedBytes limits registry]
  simp only [bind_assoc, pure_bind]
  refine ExceptRel.bind_same _ fun decoded hdecoded => ?_
  have hlen := hfit stream decoded hdecoded
  have hle := hstream.start_le
  have hsizes : isizeSize + isizeSize = u64Size := by decide
  have hspill : parseObjectStream limits key stream' decoded.bytes
      = parseObjectStream limits key { stream with rawRange := ⟨0, 0⟩ } decoded.bytes :=
    parseObjectStream_congr key decoded.bytes hstream.dictionary.symm hstream.start_zero
  rw [hspill]
  rcases (parseObjectStream_shift limits key stream decoded.bytes (by omega)).outcomes with ⟨e, hm, hs⟩ | ⟨objects, placed, hm, hs, hplaced⟩
  · rw [hm, hs]
    rfl
  · rw [hm, hs]
    obtain ⟨rfl, hplain⟩ := hplaced
    refine ⟨placed, ⟨rfl, h.trailers, ?_, ?_, ?_⟩, ?_⟩
    · simp only [h.memory, List.map_append, List.map_map]
      rfl
    · simp only [h.spill, List.map_append, List.map_map]
      congr 1
      exact (List.map_id placed).symm
    · intro entry hentry
      rw [List.mem_append, List.mem_map] at hentry
      rcases hentry with hentry | ⟨object, hobject, rfl⟩
      · exact h.plain entry hentry
      · exact hplain object hobject
    · rw [hdecoded]
      exact hm

theorem materializeStream_sim (hfit : DecodesFit limits registry) (hn : n < isizeSize)
    {object object' : IndirectObject} (hobject : IndirectSim n object object')
    (h : MaterializeSim collected m s) :
    ExceptRel (fun m' s' => ∃ added, MaterializeSim (collected ++ added) m' s'
        ∧ collectedKeys added = suppliedKeys limits registry object)
      (materializeStream limits registry m object)
      (materializeStream limits registry s object') := by
  obtain ⟨key, offset, value⟩ := object
  obtain ⟨key', offset', value'⟩ := object'
  obtain ⟨rfl, rfl, hvalue⟩ := hobject
  unfold materializeStream suppliedKeys
  cases hvalue with
  | same hplain =>
    have hnone : MaterializeSim (collected ++ []) m s := by
      rw [List.append_nil]
      exact h
    cases value with
    | stream stream => exact absurd rfl (hplain stream)
    | _ => exact ⟨[], hnone, rfl⟩
  | @stream stream stream' hstream =>
    dsimp only
    have hxref : ExceptRel (MaterializeSim collected)
        (whenType stream "XRef" (materializeXref limits registry key offset stream) m)
        (whenType stream' "XRef" (materializeXref limits registry key offset stream') s) := by
      unfold whenType
      rw [hstream.dictionary]
      split
      · exact materializeXref_sim hstream h
      · exact h
    refine ExceptRel.bind hxref fun m' s' h' => ?_
    unfold whenType
    rw [hstream.dictionary]
    split
    · refine (materializeObjStm_sim hfit hn hstream h').mono fun m'' s'' hplaced => ?_
      obtain ⟨placed, hplaced, hunpack⟩ := hplaced
      refine ⟨_, hplaced, ?_⟩
      rw [hunpack]
      simp only [collectedKeys, List.map_map]
      rfl
    · refine ⟨[], ?_, rfl⟩
      rw [List.append_nil]
      exact h'

/-- The whole stream loop: what is collected is what the streams of the store supply, in order. -/
theorem materializeStreams_sim (hfit : DecodesFit limits registry) (hn : n < isizeSize)
    {values values' : List IndirectObject} (hvalues : List.Forall₂ (IndirectSim n) values values')
    (h : MaterializeSim collected m s) :
    ExceptRel (fun m' s' => ∃ added, MaterializeSim (collected ++ added) m' s'
        ∧ collectedKeys added = values.flatMap (suppliedKeys limits registry))
      (values.foldlM (materializeStream limits registry) m)
      (values'.foldlM (materializeStream limits registry) s) := by
  induction hvalues generalizing collected m s with
  | nil =>
    refine ⟨[], ?_, rfl⟩
    rw [List.append_nil]
    exact h
  | @cons object object' values values' hobject _ ih =>
    rw [List.foldlM_cons, List.foldlM_cons]
    refine ExceptRel.bind (materializeStream_sim hfit hn hobject h) fun m' s' hstep => ?_
    obtain ⟨added, hadded, hkeys⟩ := hstep
    refine (ih hadded).mono fun m'' s'' hrest => ?_
    obtain ⟨more, hmore, hmoreKeys⟩ := hrest
    refine ⟨added ++ more, ?_, ?_⟩
    · rw [← List.append_assoc]
      exact hmore
    · rw [List.flatMap_cons, ← hkeys, ← hmoreKeys]
      exact List.map_append

end Loop

/-! ## Inserting what was collected -/

section Insert

variable {limits : ResourceLimits}

theorem insertExpanded_get? {objects objects' : ObjectStore} {object : IndirectObject}
    (h : insertExpanded limits objects object = .ok objects') (key : ObjectKey) :
    objects'.get? key
      = (objects.get? key).or (if object.key = key then some object else none) := by
  unfold insertExpanded at h
  split at h
  · rename_i hmissing
    rw [Option.isNone_iff_eq_none] at hmissing
    split at h
    · cases h
    · cases h
      unfold ObjectStore.insertObject
      rw [OrdMap.get?_insert]
      by_cases hkey : object.key = key
      · subst hkey
        rw [if_pos rfl, if_pos rfl, hmissing]
        rfl
      · rw [if_neg hkey, if_neg (Ne.symm hkey), Option.or_none]
  · rename_i hpresent
    cases h
    split
    · rename_i hkey
      subst hkey
      obtain ⟨present, hpresent⟩ := Option.ne_none_iff_exists'.mp
        (mt Option.isNone_iff_eq_none.mpr hpresent)
      rw [hpresent]
      rfl
    · rw [Option.or_none]

/-- A key keeps its object, and a missing key gets the first object that was collected for it. -/
theorem get?_insertAll {expanded : List IndirectObject} {objects objects' : ObjectStore}
    (h : expanded.foldlM (insertExpanded limits) objects = .ok objects') (key : ObjectKey) :
    objects'.get? key
      = (objects.get? key).or (expanded.find? fun object => object.key = key) := by
  induction expanded generalizing objects with
  | nil =>
    rw [List.foldlM_nil, pure_eq_ok] at h
    rw [h, List.find?_nil, Option.or_none]
  | cons object expanded ih =>
    rw [List.foldlM_cons, bind_eq_ok] at h
    obtain ⟨mid, hmid, hrest⟩ := h
    rw [ih hrest, insertExpanded_get? hmid, List.find?_cons, Option.or_assoc]
    by_cases hkey : object.key = key
    · rw [if_pos hkey, decide_eq_true hkey]
      rfl
    · rw [if_neg hkey, decide_eq_false hkey]
      rfl

/-- Whether the insertion fails depends on the keys only. -/
theorem insertAll_outcome (limits : ResourceLimits) {expanded expanded' : List IndirectObject}
    (hkeys : List.Forall₂ (fun object object' : IndirectObject => object.key = object'.key)
      expanded expanded')
    {m s : ObjectStore} (h : OrdMap.Rel (fun _ _ => True) m s) :
    ExceptRel (OrdMap.Rel fun _ _ => True) (expanded.foldlM (insertExpanded limits) m)
      (expanded'.foldlM (insertExpanded limits) s) := by
  refine ExceptRel.foldlM hkeys (fun object object' m s hkey h => ?_) h
  have hnone : (m.get? object.key).isNone = (s.get? object'.key).isNone := by
    rw [← hkey]
    have hget := OrdMap.Rel.get? h object.key
    generalize m.get? object.key = a, s.get? object.key = b at hget
    cases hget with
    | none => rfl
    | some _ => rfl
  unfold insertExpanded ObjectStore.insertObject
  rw [hnone, OrdMap.Rel.size_eq h, hkey]
  split
  · split
    · rfl
    · exact OrdMap.Rel.insert h object'.key trivial
  · exact h

end Insert

end Pdfv
