import Pdfv.Parser.Unpacking
import Pdfv.Parser.Threshold
/-!
# Does the storage show?

Two memory thresholds select the same storage or the two different ones. In the second case the runs
stay in lockstep up to the expansion of object streams (`Unpacking`), and the documents agree exactly
when no object that enters the store comes from a payload that still lies in the source
(`sameOutcome_iff`): such an object is the only place where the representation reaches a field.
-/

namespace Pdfv

open Fallible

/-! ## The same document -/

/-- Streams with equal dictionary, payload, lengths, filters and decode parameters; only where the
payload is kept may differ. -/
structure StreamOf.Same (m s : StreamObject) : Prop where
  fields : { m with rawRange := s.rawRange, rawSource := s.rawSource } = s
  rawBytes : m.rawBytes = s.rawBytes

/-- The same object, streams compared by `StreamOf.Same`. -/
inductive CosObject.Same : CosObject → CosObject → Prop where
  | refl (object : CosObject) : CosObject.Same object object
  | stream {m s : StreamObject} (h : m.Same s) : CosObject.Same (.stream m) (.stream s)

/-- The same object at the same offset. -/
structure IndirectObject.Same (m s : IndirectObject) : Prop where
  offset : m.offset = s.offset
  object : m.object.Same s.object

/-- The same keys, and for each key the same object. -/
def ObjectStore.Same (m s : ObjectStore) : Prop :=
  ∀ key, Option.Rel IndirectObject.Same (m.get? key) (s.get? key)

/-- The same document. -/
structure ParsedDocument.Same (m s : ParsedDocument) : Prop where
  version : m.version = s.version
  catalog : m.catalog = s.catalog
  trailers : m.trailers = s.trailers
  parseFacts : m.parseFacts = s.parseFacts
  warnings : m.warnings = s.warnings
  objects : ObjectStore.Same m.objects s.objects

/-- The same error, or the same document. -/
def SameOutcome : Except ParseError ParsedDocument → Except ParseError ParsedDocument → Prop :=
  ExceptRel ParsedDocument.Same

theorem StreamOf.Same.symm {m s : StreamObject} (h : m.Same s) : s.Same m := by
  have hraw := h.rawBytes
  have hfields := h.fields
  obtain ⟨entries, range, declared, discovered, filters, params, raw, crlf, eol⟩ := m
  obtain ⟨entries', range', declared', discovered', filters', params', raw', crlf', eol'⟩ := s
  cases hfields
  exact ⟨rfl, hraw.symm⟩

theorem CosObject.Same.symm {m s : CosObject} (h : m.Same s) : s.Same m := by
  cases h with
  | refl => exact .refl m
  | stream h => exact .stream h.symm

theorem ObjectStore.Same.refl (objects : ObjectStore) : ObjectStore.Same objects objects := by
  intro key
  cases objects.get? key with
  | none => exact Option.Rel.none
  | some object => exact Option.Rel.some ⟨rfl, .refl _⟩

theorem ObjectStore.Same.symm {m s : ObjectStore} (h : ObjectStore.Same m s) :
    ObjectStore.Same s m := by
  intro key
  have hkey := h key
  generalize m.get? key = a, s.get? key = b at hkey
  cases hkey with
  | none => exact Option.Rel.none
  | some hab => exact Option.Rel.some ⟨hab.offset.symm, hab.object.symm⟩

theorem ParsedDocument.Same.refl (doc : ParsedDocument) : doc.Same doc :=
  ⟨rfl, rfl, rfl, rfl, rfl, .refl _⟩

theorem ParsedDocument.Same.symm {m s : ParsedDocument} (h : m.Same s) : s.Same m :=
  ⟨h.version.symm, h.catalog.symm, h.trailers.symm, h.parseFacts.symm, h.warnings.symm,
    h.objects.symm⟩

theorem SameOutcome.symm {a b : Except ParseError ParsedDocument} (h : SameOutcome a b) :
    SameOutcome b a := by
  rcases h.outcomes with ⟨e, rfl, rfl⟩ | ⟨m, s, rfl, rfl, hms⟩
  · rfl
  · exact hms.symm

theorem SameOutcome.refl (a : Except ParseError ParsedDocument) : SameOutcome a a :=
  ExceptRel.of_eq ParsedDocument.Same.refl rfl

theorem StreamSim.same {n : Nat} {m s : StreamObject} (h : StreamSim n m s) : m.Same s :=
  ⟨h.fields, h.rawBytes⟩

theorem ObjectSim.toSame {n : Nat} {m s : CosObject} (h : ObjectSim n m s) : m.Same s := by
  cases h with
  | same _ => exact .refl m
  | stream h => exact .stream h.same

theorem StoreSim.same {n : Nat} {m s : ObjectStore} (h : StoreSim n m s) :
    ObjectStore.Same m s := by
  intro key
  have hkey := OrdMap.Rel.get? h key
  generalize m.get? key = a, s.get? key = b at hkey
  cases hkey with
  | none => exact Option.Rel.none
  | some hab => exact Option.Rel.some ⟨hab.offset, hab.object.toSame⟩

/-! ## The condition -/

section Materialize

variable (limits : ResourceLimits) (registry : DecoderRegistry)

/-- Some key that the store lacks is first supplied by an object stream whose payload still lies
inside a larger buffer. -/
def SuppliesFromSource (objects : ObjectStore) : Prop :=
  ∃ key start, objects.get? key = none ∧ start ≠ 0 ∧
    (objects.values.flatMap (suppliedKeys limits registry)).find? (fun entry => entry.1 = key)
      = some (key, start)

variable {limits registry} {n : Nat}

/-- What the fold over collected objects leaves in the two stores: the objects of the stores before,
and for a missing key the first collected object, shifted in the memory run. -/
structure Inserted (collected : List (Nat × IndirectObject)) (m s m' s' : ObjectStore) : Prop where
  memory : ∀ key, m'.get? key = (m.get? key).or
    ((collected.find? fun placed => placed.2.key = key).map fun placed =>
      placed.2.shift placed.1)
  spill : ∀ key, s'.get? key = (s.get? key).or
    ((collected.find? fun placed => placed.2.key = key).map Prod.snd)

theorem find?_collectedKeys (collected : List (Nat × IndirectObject)) (key : ObjectKey) :
    (collectedKeys collected).find? (fun entry => entry.1 = key)
      = (collected.find? fun placed => placed.2.key = key).map fun placed =>
          (placed.2.key, placed.1) := by
  unfold collectedKeys
  rw [List.find?_map]
  rfl

/-- The stores agree exactly when no missing key gets a shifted object. -/
theorem Inserted.same_iff {collected : List (Nat × IndirectObject)} {m s m' s' : ObjectStore}
    (hinserted : Inserted collected m s m' s') (h : StoreSim n m s)
    (hkeys : collectedKeys collected = m.values.flatMap (suppliedKeys limits registry)) :
    ObjectStore.Same m' s' ↔ ¬ SuppliesFromSource limits registry m := by
  constructor
  · rintro hsame ⟨key, start, hmissing, hstart, hfind⟩
    rw [← hkeys, find?_collectedKeys, Option.map_eq_some_iff] at hfind
    obtain ⟨placed, hplaced, hpair⟩ := hfind
    have hkey := hsame key
    have hget := OrdMap.Rel.get? h key
    rw [hmissing] at hget
    generalize hs : s.get? key = b at hget
    cases hget
    rw [hinserted.memory, hinserted.spill, hmissing, hs, hplaced] at hkey
    cases hkey with
    | some hobject =>
      have hoffset : placed.1 + placed.2.offset = placed.2.offset := hobject.offset
      have hzero : placed.1 = start := congrArg Prod.snd hpair
      omega
  · intro hnot key
    have hget := OrdMap.Rel.get? h key
    rw [hinserted.memory, hinserted.spill]
    generalize hm : m.get? key = a, hs : s.get? key = b at hget
    cases hget with
    | some hab => exact Option.Rel.some ⟨hab.offset, hab.object.toSame⟩
    | none =>
      cases hfind : collected.find? fun placed => placed.2.key = key with
      | none => exact Option.Rel.none
      | some placed =>
        have hzero : placed.1 = 0 := by
          by_contra hne
          refine hnot ⟨key, placed.1, hm, hne, ?_⟩
          have hkey : placed.2.key = key := by
            simpa using List.find?_some hfind
          rw [← hkeys, find?_collectedKeys, hfind, Option.map_some, hkey]
        refine Option.Rel.some ⟨?_, .refl _⟩
        show placed.1 + placed.2.offset = placed.2.offset
        omega

theorem materialize_sim (hfit : DecodesFit limits registry) (hn : n < isizeSize)
    {m s : ObjectStore} (h : StoreSim n m s) (trailers : List Trailer) (log : FactLog) :
    ExceptRel (fun a b => a.2 = b.2
        ∧ (ObjectStore.Same a.1 b.1 ↔ ¬ SuppliesFromSource limits registry m))
      (materializeStreamBackedStructures limits registry m trailers log)
      (materializeStreamBackedStructures limits registry s trailers log) := by
  unfold materializeStreamBackedStructures
  have hstart : MaterializeSim [] ⟨log, trailers, []⟩ ⟨log, trailers, []⟩ :=
    ⟨rfl, rfl, rfl, rfl, fun placed hplaced => absurd hplaced List.not_mem_nil⟩
  refine ExceptRel.bind (materializeStreams_sim hfit hn (OrdMap.Rel.values h) hstart)
    fun a b hab => ?_
  obtain ⟨collected, hcollected, hkeys⟩ := hab
  rw [List.nil_append] at hcollected
  have hforall : List.Forall₂ (fun object object' : IndirectObject => object.key = object'.key)
      a.expanded b.expanded := by
    rw [hcollected.memory, hcollected.spill, List.forall₂_map_left_iff,
      List.forall₂_map_right_iff]
    exact List.forall₂_same.mpr fun _ _ => rfl
  have htrivial : OrdMap.Rel (fun _ _ => True) m s :=
    List.Forall₂.imp (fun _ _ he => ⟨he.1, trivial⟩) h
  rcases (insertAll_outcome limits hforall htrivial).outcomes
    with ⟨e, hm, hs⟩ | ⟨m', s', hm, hs, -⟩
  · rw [hm, hs]
    rfl
  · rw [hm, hs]
    refine ⟨?_, ?_⟩
    · show (a.trailers, a.log) = (b.trailers, b.log)
      rw [hcollected.trailers, hcollected.log]
    · refine Inserted.same_iff ⟨fun key => ?_, fun key => ?_⟩ h hkeys
      · rw [get?_insertAll hm, hcollected.memory, List.find?_map]
        rfl
      · rw [get?_insertAll hs, hcollected.spill, List.find?_map]
        rfl

end Materialize

/-! ## The two runs -/

/-- In the store that reaches the expansion of object streams, the expansion succeeds and some missing
key is supplied from a payload that lies in the source: neither decryption nor the storage gave the
payload a buffer of its own. -/
def OffsetShows (limits : ResourceLimits) (registry : DecoderRegistry) (crates : Crates)
    (password : Option Bytes) (source : Bytes) : Prop :=
  ∃ version s objects log expansion,
    scanDocument (inMemory source) limits = .ok (version, s) ∧
    encryptionGate limits crates password s = .ok (.proceed objects log) ∧
    materializeStreamBackedStructures limits registry objects s.trailers log = .ok expansion ∧
    SuppliesFromSource limits registry objects

section Runs

variable {limits : ResourceLimits} {registry : DecoderRegistry} {crates : Crates}
  {password : Option Bytes} {source : Bytes}

/-- The two ends of a parse after the encryption check. -/
def finishDocument (limits : ResourceLimits) (registry : DecoderRegistry) (version : PdfVersion)
    (trailers : List Trailer) : EncryptionGate → Except ParseError ParsedDocument
  | .finished objects log =>
    .ok ⟨version, catalogOf trailers, objects, trailers, log.parseFacts, log.warnings⟩
  | .proceed objects log => do
    let (objects, trailers, log) ←
      materializeStreamBackedStructures limits registry objects trailers log
    return ⟨version, catalogOf trailers, objects, trailers, log.parseFacts, log.warnings⟩

theorem parseDocument_eq {storage : SourceStorage} :
    parseDocument storage limits registry crates password = (do
      let scanned ← scanDocument storage limits
      let gate ← encryptionGate limits crates password scanned.2
      finishDocument limits registry scanned.1 scanned.2.trailers gate) :=
  rfl

theorem finishDocument_iff (hfit : DecodesFit limits registry) (hsource : source.length < isizeSize)
    {gate gate' : EncryptionGate} (h : GateSim source.length gate gate') (version : PdfVersion)
    (trailers : List Trailer) :
    SameOutcome (finishDocument limits registry version trailers gate)
        (finishDocument limits registry version trailers gate')
      ↔ ¬ ∃ objects log expansion, gate = .proceed objects log ∧
        materializeStreamBackedStructures limits registry objects trailers log = .ok expansion ∧
        SuppliesFromSource limits registry objects := by
  cases h with
  | finished hstore log =>
    refine ⟨fun _ => ?_, fun _ => ⟨rfl, rfl, rfl, rfl, rfl, hstore.same⟩⟩
    rintro ⟨objects, log, expansion, hproceed, _⟩
    cases hproceed
  | @proceed m s hstore log =>
    simp only [finishDocument]
    rcases (materialize_sim hfit hsource hstore trailers log).outcomes with
      ⟨e, hm, hs⟩ | ⟨⟨m', rest⟩, ⟨s', rest'⟩, hm, hs, hrest, hiff⟩
    · rw [hm, hs]
      refine ⟨fun _ => ?_, fun _ => rfl⟩
      rintro ⟨objects, log, expansion, hproceed, hexpansion, _⟩
      cases hproceed
      rw [hm] at hexpansion
      cases hexpansion
    · dsimp only at hrest hiff
      subst hrest
      rw [hm, hs, ok_bind, ok_bind]
      constructor
      · intro hsame
        rintro ⟨objects, log, expansion, hproceed, _, hsupplies⟩
        cases hproceed
        exact hiff.mp (ParsedDocument.Same.objects hsame) hsupplies
      · intro hnot
        have hobjects := hiff.mpr fun hsupplies => hnot ⟨m, log, _, rfl, hm, hsupplies⟩
        exact ⟨rfl, rfl, rfl, rfl, rfl, hobjects⟩

/-- **The two storages give the same outcome exactly when no offset shows.** -/
theorem sameOutcome_iff (crates : Crates) (password : Option Bytes)
    (hfit : DecodesFit limits registry) (hsource : source.length < isizeSize) :
    SameOutcome (parseDocument (inMemory source) limits registry crates password)
        (parseDocument (spilled source) limits registry crates password)
      ↔ ¬ OffsetShows limits registry crates password source := by
  rw [parseDocument_eq, parseDocument_eq]
  unfold OffsetShows
  rcases (scanDocument_sim source limits).outcomes with
    ⟨e, hm, hs⟩ | ⟨⟨version, m⟩, ⟨version', s⟩, hm, hs, hversion, hsim⟩
  · rw [hm, hs]
    refine ⟨fun _ => ?_, fun _ => rfl⟩
    rintro ⟨version, scanned, objects, log, expansion, hscan, _⟩
    cases hscan
  dsimp only at hversion hsim
  subst hversion
  rw [hm, hs, ok_bind, ok_bind]
  dsimp only
  rw [hsim.trailers]
  rcases (encryptionGate_sim limits crates hsim password).outcomes with
    ⟨e, hgm, hgs⟩ | ⟨gate, gate', hgm, hgs, hgate⟩
  · rw [hgm, hgs]
    refine ⟨fun _ => ?_, fun _ => rfl⟩
    rintro ⟨version, scanned, objects, log, expansion, hscan, hproceed, _⟩
    cases hscan
    rw [hgm] at hproceed
    cases hproceed
  rw [hgm, hgs, ok_bind, ok_bind, finishDocument_iff hfit hsource hgate]
  refine not_congr ⟨?_, ?_⟩
  · rintro ⟨objects, log, expansion, rfl, hexpansion, hsupplies⟩
    rw [← hsim.trailers] at hexpansion
    exact ⟨version, m, objects, log, expansion, rfl, hgm, hexpansion, hsupplies⟩
  · rintro ⟨version, scanned, objects, log, expansion, hscan, hproceed, hexpansion, hsupplies⟩
    cases hscan
    rw [hgm] at hproceed
    cases hproceed
    rw [hsim.trailers] at hexpansion
    exact ⟨objects, log, expansion, rfl, hexpansion, hsupplies⟩

end Runs

/-! ## The threshold -/

/-- The same parser with another memory threshold. -/
def Parser.withThreshold (parser : Parser) (threshold : Nat) : Parser :=
  { parser with limits := parser.limits.withThreshold threshold }

variable (parser : Parser) (crates : Crates) (source : Bytes) (password : Option Bytes)

theorem Parser.parseWithOptions_withThreshold
    (hregistry : (parser.activeRegistry crates).IgnoresThreshold) (threshold : Nat) :
    (parser.withThreshold threshold).parseWithOptions crates source password
      = if source.length > parser.limits.maxFileBytes then .error (.limitExceeded "max_file_bytes")
        else parseDocument (SourceStorage.fromSource source threshold) parser.limits
          (parser.activeRegistry crates) crates password := by
  have hdocument : parseDocument (SourceStorage.fromSource source threshold)
      (parser.limits.withThreshold threshold) (parser.activeRegistry crates) crates password
      = parseDocument (SourceStorage.fromSource source threshold) parser.limits
        (parser.activeRegistry crates) crates password := parseDocument_withThreshold hregistry
  rw [← hdocument]
  rfl

/-- **When two memory thresholds give the same outcome.** Either both keep the source in the same
storage, or the source is refused for its size, or no object stream shows where it was read from. -/
theorem parseWithOptions_transparent_iff (threshold threshold' : Nat)
    (hregistry : (parser.activeRegistry crates).IgnoresThreshold)
    (hfit : DecodesFit parser.limits (parser.activeRegistry crates))
    (hsource : source.length < isizeSize) :
    SameOutcome ((parser.withThreshold threshold).parseWithOptions crates source password)
        ((parser.withThreshold threshold').parseWithOptions crates source password)
      ↔ (source.length ≤ threshold ↔ source.length ≤ threshold')
        ∨ source.length > parser.limits.maxFileBytes
        ∨ ¬ OffsetShows parser.limits (parser.activeRegistry crates) crates password source := by
  rw [Parser.parseWithOptions_withThreshold _ _ _ _ hregistry,
    Parser.parseWithOptions_withThreshold _ _ _ _ hregistry]
  by_cases hsize : source.length > parser.limits.maxFileBytes
  · rw [if_pos hsize, if_pos hsize]
    exact ⟨fun _ => .inr (.inl hsize), fun _ => rfl⟩
  rw [if_neg hsize, if_neg hsize]
  have hdiffer := sameOutcome_iff crates password hfit hsource
  unfold SourceStorage.fromSource
  by_cases h : source.length ≤ threshold
  · by_cases h' : source.length ≤ threshold'
    · rw [if_pos h, if_pos h']
      exact ⟨fun _ => .inl ⟨fun _ => h', fun _ => h⟩, fun _ => SameOutcome.refl _⟩
    · rw [if_pos h, if_neg h', hdiffer]
      tauto
  · by_cases h' : source.length ≤ threshold'
    · rw [if_neg h, if_pos h']
      have hflip : ∀ a b, SameOutcome a b ↔ SameOutcome b a :=
        fun a b => ⟨SameOutcome.symm, SameOutcome.symm⟩
      rw [hflip, hdiffer]
      tauto
    · rw [if_neg h, if_neg h']
      exact ⟨fun _ => .inl (by tauto), fun _ => SameOutcome.refl _⟩

theorem Parser.activeRegistry_default :
    Parser.default.activeRegistry crates = DecoderRegistry.new crates := by
  simp only [Parser.activeRegistry, Parser.default, Option.getD_none]

/-- A file whose object `2 0` comes from an object stream. -/
def objectStreamSource : Bytes :=
  utf8 ("%PDF-1.7\n1 0 obj<</Type/ObjStm/N 1/First 4/Length 5>>stream\n2 0 7\n" ++
    "endstream endobj\n%%EOF")

/-- The offset that a parse gives an object. -/
def offsetIn (key : ObjectKey) (outcome : Except ParseError ParsedDocument) : Option Nat :=
  match outcome with
  | .ok doc => (doc.objects.get? key).map IndirectObject.offset
  | .error _ => none

theorem SameOutcome.offsetIn_eq {a b : Except ParseError ParsedDocument} (h : SameOutcome a b)
    (key : ObjectKey) : offsetIn key a = offsetIn key b := by
  rcases h.outcomes with ⟨e, rfl, rfl⟩ | ⟨m, s, rfl, rfl, hms⟩
  · rfl
  · have hkey := hms.objects key
    unfold offsetIn
    dsimp only
    generalize m.objects.get? key = x, s.objects.get? key = y at hkey
    cases hkey with
    | none => rfl
    | some hxy => exact congrArg some hxy.offset

theorem parseWithOptions_transparent_counterexample :
    ¬ ∀ (parser : Parser) (crates : Crates) (source : Bytes) (password : Option Bytes)
      (threshold threshold' : Nat),
        SameOutcome ((parser.withThreshold threshold).parseWithOptions crates source password)
          ((parser.withThreshold threshold').parseWithOptions crates source password) := by
  intro hall
  have hsame := (hall Parser.default Crates.unused objectStreamSource none 1000 0).offsetIn_eq
    ⟨2, 0, by decide, by decide, by decide⟩
  have hmemory : offsetIn ⟨2, 0, by decide, by decide, by decide⟩
      ((Parser.default.withThreshold 1000).parseWithOptions Crates.unused objectStreamSource none)
      = some 64 := by
    decide +kernel
  have hspill : offsetIn ⟨2, 0, by decide, by decide, by decide⟩
      ((Parser.default.withThreshold 0).parseWithOptions Crates.unused objectStreamSource none)
      = some 4 := by
    decide +kernel
  rw [hmemory, hspill] at hsame
  exact absurd hsame (by decide)

/-- Under a decode limit that a buffer can reach, every decoded stream fits. -/
theorem decodesFit_of_lt {limits : ResourceLimits} (registry : DecoderRegistry)
    (h : limits.maxStreamDecodeBytes < isizeSize) : DecodesFit limits registry := by
  intro stream decoded hdecoded
  unfold StreamOf.decodedBytesWithRegistry at hdecoded
  rw [bind_eq_ok] at hdecoded
  obtain ⟨raw, -, hdecoded⟩ := hdecoded
  rw [bind_eq_ok] at hdecoded
  obtain ⟨output, -, hdecoded⟩ := hdecoded
  rw [bind_eq_ok] at hdecoded
  obtain ⟨_, henforce, hdecoded⟩ := hdecoded
  rw [pure_eq_ok] at hdecoded
  subst hdecoded
  unfold enforceDecodedLen at henforce
  split at henforce
  · cases henforce
  · omega

theorem parseWithOptions_transparent_iff_objectStream :
    SameOutcome
        ((Parser.default.withThreshold 1000).parseWithOptions Crates.unused objectStreamSource none)
        ((Parser.default.withThreshold 0).parseWithOptions Crates.unused objectStreamSource none)
      ↔ (objectStreamSource.length ≤ 1000 ↔ objectStreamSource.length ≤ 0)
        ∨ objectStreamSource.length > Parser.default.limits.maxFileBytes
        ∨ ¬ OffsetShows Parser.default.limits (Parser.default.activeRegistry Crates.unused)
          Crates.unused none objectStreamSource := by
  have hregistry : (Parser.default.activeRegistry Crates.unused).IgnoresThreshold := by
    rw [Parser.activeRegistry_default]
    exact DecoderRegistry.new_ignoresThreshold Crates.unused
  have hfit : DecodesFit Parser.default.limits (Parser.default.activeRegistry Crates.unused) :=
    decodesFit_of_lt _ (by decide)
  have hsource : objectStreamSource.length < isizeSize := by
    decide
  exact parseWithOptions_transparent_iff _ _ _ _ 1000 0 hregistry hfit hsource

end Pdfv
