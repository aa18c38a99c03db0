import Pdfv.Parser.EncryptionDetection
import Pdfv.Parser.StorageTransparency
/-!
# Which compressed definition wins

A key that no top-level object has gets its object from an object stream. The streams are expanded in
the order of their own keys and only a missing key is inserted, so the stored object comes from the
surviving stream with the smallest key that contains it (`find?_expanded`), wherever that stream
stands in the file.
-/

namespace Pdfv

open Loop Fallible

/-! ## The objects of the scan, in file order -/

section Trace

variable (storage : SourceStorage) (limits : ResourceLimits)

/-- The indirect object that one pass of `parse_top_level_objects` inserts. -/
def scannedObject (s : ScanState) : Option IndirectObject :=
  let src := storage.reader
  let pos := src.skipWsAndComments s.pos
  if src.len ≤ s.pos || src.startsWith pos eofMarker || src.startsWith pos (utf8 "startxref")
      || src.startsWith pos (utf8 "xref") || src.startsWith pos (utf8 "trailer") then none
  else
    match parseIndirectObject storage limits pos s.log with
    | .ok (some (object, _, _)) => some object
    | _ => none

/-- The objects that the next passes of the scan insert, in file order. -/
def scanTrace : Nat → ScanState → List IndirectObject
  | 0, _ => []
  | fuel + 1, s =>
    match scanStep storage limits s with
    | .next s' => (scannedObject storage limits s).toList ++ scanTrace fuel s'
    | .done _ => []

/-- The top-level indirect objects of a file, in file order. -/
def scannedObjects : List IndirectObject :=
  match parseHeader storage.reader with
  | .ok (headerOffset, version, pos, warnings) =>
    let log := FactLog.pushFact ⟨[], warnings⟩ limits
      (.header headerOffset version (headerOffset ≠ 0))
    scanTrace storage limits (storage.len - pos + 1) ⟨pos, log, OrdMap.empty, []⟩
  | .error _ => []

variable {storage limits} {s s' : ScanState}

theorem parseTrailer_objects (h : parseTrailer storage limits s = .ok s') :
    s'.objects = s.objects := by
  simp only [parseTrailer, bind_eq_ok, pure_eq_ok] at h
  obtain ⟨pos, -, ⟨dictionary, stop⟩, -, log, -, rfl⟩ := h
  rfl

theorem xrefTrailerLoop_objects {fuel : Nat}
    (h : runLoop (xrefTrailerStep storage limits) (fun t => .ok t) fuel s = .ok s') :
    s'.objects = s.objects := by
  refine runLoop_inv (fun t : ScanState => t.objects = s.objects)
    (fun r : Except ParseError ScanState => ∀ t, r = .ok t → t.objects = s.objects)
    ?_ ?_ ?_ rfl s' h
  · intro t t' hinv hstep
    simp only [xrefTrailerStep] at hstep
    repeat' split at hstep
    all_goals cases hstep
    exact hinv
  · rintro t r hinv hstep u rfl
    simp only [xrefTrailerStep] at hstep
    repeat' split at hstep
    · cases hstep
      exact hinv
    · rw [parseTrailer_objects (Step.done.inj hstep)]
      exact hinv
    · cases hstep
      exact hinv
    · cases hstep
  · rintro t hinv u ⟨⟩
    exact hinv

theorem parseXrefAndTrailer_objects (h : parseXrefAndTrailer storage limits s = .ok s') :
    s'.objects = s.objects := by
  simp only [parseXrefAndTrailer, bind_eq_ok] at h
  obtain ⟨pos, -, xref, -, h⟩ := h
  have hloop := xrefTrailerLoop_objects h
  exact hloop

theorem parsePostEofFact_objects (h : parsePostEofFact storage limits s = .ok s') :
    s'.objects = s.objects := by
  simp only [parsePostEofFact, bind_eq_ok, pure_eq_ok] at h
  obtain ⟨pos, -, rest, -, rfl⟩ := h
  rfl

/-- One pass of the scan inserts its object. -/
theorem scanStep_objects (h : scanStep storage limits s = .next s') :
    s'.objects = (scannedObject storage limits s).toList.foldl ObjectStore.insertObject s.objects := by
  simp only [scanStep] at h
  unfold scannedObject
  dsimp only
  by_cases hend : s.pos < storage.reader.len
  · rw [if_pos hend] at h
    have hinside : decide (storage.reader.len ≤ s.pos) = false := decide_eq_false (by omega)
    rw [hinside, Bool.false_or]
    cases heof : storage.reader.startsWith (storage.reader.skipWsAndComments s.pos) eofMarker with
    | true =>
      rw [heof, if_pos rfl] at h
      cases h
    | false =>
    rw [heof, if_neg Bool.false_ne_true] at h
    cases hstart : storage.reader.startsWith (storage.reader.skipWsAndComments s.pos)
        (utf8 "startxref") with
    | true =>
      rw [hstart, if_pos rfl] at h
      cases h
      rfl
    | false =>
    rw [hstart, if_neg Bool.false_ne_true] at h
    cases hxref : storage.reader.startsWith (storage.reader.skipWsAndComments s.pos)
        (utf8 "xref") with
    | true =>
      rw [hxref, if_pos rfl, scanNext_eq_next] at h
      have hobjects := parseXrefAndTrailer_objects h
      exact hobjects
    | false =>
    rw [hxref, if_neg Bool.false_ne_true] at h
    cases htrailer : storage.reader.startsWith (storage.reader.skipWsAndComments s.pos)
        (utf8 "trailer") with
    | true =>
      rw [htrailer, if_pos rfl, scanNext_eq_next] at h
      have hobjects := parseTrailer_objects h
      exact hobjects
    | false =>
    rw [htrailer, if_neg Bool.false_ne_true, scanNext_eq_next] at h
    simp only [scanObject, bind_eq_ok] at h
    obtain ⟨found, hfound, h⟩ := h
    rw [Bool.or_self, Bool.or_self, Bool.or_self, if_neg Bool.false_ne_true, hfound]
    cases found with
    | none =>
      cases h
      rfl
    | some found =>
      obtain ⟨object, pos, log⟩ := found
      dsimp only [insertScanned] at h
      split at h
      · cases h
      · cases h
        rfl
  · rw [if_neg hend] at h
    cases h

/-- The store of the scan: the scanned objects, a later one in place of an earlier one. -/
theorem scanLoop_objects {fuel : Nat}
    (h : runLoop (scanStep storage limits) (fun t => .ok t) fuel s = .ok s') :
    s'.objects = (scanTrace storage limits fuel s).foldl ObjectStore.insertObject s.objects := by
  induction fuel generalizing s with
  | zero =>
    cases h
    rfl
  | succ fuel ih =>
    cases hstep : scanStep storage limits s with
    | next t =>
      rw [runLoop_next hstep] at h
      simp only [scanTrace, hstep, List.foldl_append]
      rw [ih h, scanStep_objects hstep]
    | done result =>
      rw [runLoop_done hstep] at h
      subst h
      simp only [scanTrace, hstep, List.foldl_nil]
      rcases scanStep_done_ok hstep with rfl | heof
      · rfl
      · have hobjects := parsePostEofFact_objects heof
        exact hobjects

theorem scanDocument_objects {version : PdfVersion}
    (h : scanDocument storage limits = .ok (version, s)) :
    s.objects = (scannedObjects storage limits).foldl ObjectStore.insertObject OrdMap.empty := by
  simp only [scanDocument, bind_eq_ok, pure_eq_ok] at h
  obtain ⟨⟨headerOffset, version', pos, warnings⟩, hheader, t, hscan, hres⟩ := h
  cases hres
  simp only [scannedObjects, hheader]
  exact scanLoop_objects hscan

end Trace

/-! ## The store of a file -/

theorem get?_insertObjects (objects : List IndirectObject) (store : ObjectStore) (key : ObjectKey) :
    (objects.foldl ObjectStore.insertObject store).get? key
      = (objects.reverse.find? fun object => object.key = key).or (store.get? key) := by
  induction objects generalizing store with
  | nil => rfl
  | cons object objects ih =>
    rw [List.foldl_cons, ih, List.reverse_cons, List.find?_append, Option.or_assoc]
    congr 1
    unfold ObjectStore.insertObject
    rw [OrdMap.get?_insert]
    by_cases hkey : object.key = key
    · rw [if_pos hkey.symm, List.find?_cons_of_pos (by simpa using hkey)]
      rfl
    · rw [if_neg (Ne.symm hkey), List.find?_cons_of_neg (by simpa using hkey)]
      rfl

/-- Every object of such a store stands under its own key. -/
theorem key_of_mem_insertObjects {objects : List IndirectObject} {store : ObjectStore}
    (hstore : ∀ entry ∈ store.entries, entry.1 = entry.2.key) :
    ∀ entry ∈ (objects.foldl ObjectStore.insertObject store).entries, entry.1 = entry.2.key := by
  induction objects generalizing store with
  | nil => exact hstore
  | cons object objects ih =>
    rw [List.foldl_cons]
    refine ih fun entry hentry => ?_
    rcases OrdList.mem_insert hentry with rfl | hold
    · rfl
    · exact hstore entry hold

/-! ## What an object stream contains -/

section Contained

variable (limits : ResourceLimits) (registry : DecoderRegistry)

/-- The objects in a `/Type /ObjStm` stream, in the order of its header. Anything else, and a stream
that cannot be unpacked, contains none. -/
def containedObjects (object : IndirectObject) : List IndirectObject :=
  match object.object with
  | .stream stream =>
    if entryIsName stream.dictionary "Type" "ObjStm" then
      match unpackStream limits registry object.key stream with
      | .ok objects => objects
      | .error _ => []
    else []
  | _ => []

/-- The object contains the key. -/
def contains (key : ObjectKey) (object : IndirectObject) : Bool :=
  (containedObjects limits registry object).any fun inner => inner.key = key

variable {limits registry} {s s' : MaterializeState}

theorem materializeXref_expanded {key : ObjectKey} {offset : Nat} {stream : StreamObject}
    (h : materializeXref limits registry key offset stream s = .ok s') :
    s'.expanded = s.expanded := by
  simp only [materializeXref, bind_eq_ok, pure_eq_ok] at h
  obtain ⟨⟨summary, log⟩, -, log', -, rfl⟩ := h
  rfl

theorem materializeObjStm_expanded {key : ObjectKey} {offset : Nat} {stream : StreamObject}
    (h : materializeObjStm limits registry key offset stream s = .ok s') :
    ∃ objects, unpackStream limits registry key stream = .ok objects
      ∧ s'.expanded = s.expanded ++ objects := by
  simp only [materializeObjStm, decodeStream, bind_eq_ok, pure_eq_ok] at h
  obtain ⟨⟨decoded, log⟩, ⟨decoded', hdecoded, heq⟩, objects, hobjects, rfl⟩ := h
  cases heq
  refine ⟨objects, ?_, rfl⟩
  unfold unpackStream
  rw [hdecoded]
  exact hobjects

theorem materializeStream_expanded {object : IndirectObject}
    (h : materializeStream limits registry s object = .ok s') :
    s'.expanded = s.expanded ++ containedObjects limits registry object := by
  unfold materializeStream containedObjects at *
  cases hobject : object.object with
  | stream stream =>
    rw [hobject] at h
    dsimp only at h ⊢
    rw [bind_eq_ok] at h
    obtain ⟨mid, hmid, h⟩ := h
    have hxref : mid.expanded = s.expanded := by
      unfold whenType at hmid
      split at hmid
      · exact materializeXref_expanded hmid
      · cases hmid
        rfl
    unfold whenType at h
    split at h
    · rename_i htype
      obtain ⟨objects, hunpack, hexpanded⟩ := materializeObjStm_expanded h
      rw [if_pos htype, hunpack, hexpanded, hxref]
    · rename_i htype
      cases h
      rw [if_neg htype, List.append_nil, hxref]
  | _ =>
    rw [hobject] at h
    cases h
    exact (List.append_nil _).symm

/-- What the stream loop collects: the contents of the streams, in the order of the store. -/
theorem materializeStreams_expanded {values : List IndirectObject}
    (h : values.foldlM (materializeStream limits registry) s = .ok s') :
    s'.expanded = s.expanded ++ values.flatMap (containedObjects limits registry) := by
  induction values generalizing s with
  | nil =>
    rw [List.foldlM_nil, pure_eq_ok] at h
    rw [h, List.flatMap_nil, List.append_nil]
  | cons object values ih =>
    rw [List.foldlM_cons, bind_eq_ok] at h
    obtain ⟨mid, hmid, h⟩ := h
    rw [ih h, materializeStream_expanded hmid, List.flatMap_cons, List.append_assoc]

/-- A key keeps its object, and a missing one gets the first that the streams of the store contain. -/
theorem get?_materialize {objects objects' : ObjectStore} {trailers trailers' : List Trailer}
    {log log' : FactLog}
    (h : materializeStreamBackedStructures limits registry objects trailers log
      = .ok (objects', trailers', log')) (key : ObjectKey) :
    objects'.get? key = (objects.get? key).or
      ((objects.values.flatMap (containedObjects limits registry)).find? fun inner =>
        inner.key = key) := by
  simp only [materializeStreamBackedStructures, bind_eq_ok, pure_eq_ok] at h
  obtain ⟨t, hfold, store, hinsert, hres⟩ := h
  cases hres
  have hexpanded := materializeStreams_expanded hfold
  rw [List.nil_append] at hexpanded
  rw [get?_insertAll hinsert key, hexpanded]

/-- In a list with increasing keys, the first match is the match with the smallest key. -/
theorem findSome?_smallest {values : List IndirectObject} {f : IndirectObject → Option IndirectObject}
    (hsorted : values.Pairwise fun a b => compare a.key b.key = .lt) {first : IndirectObject} :
    values.findSome? f = some first ↔ ∃ smallest ∈ values, f smallest = some first
      ∧ ∀ other ∈ values, (f other).isSome = true → compare smallest.key other.key ≠ .gt := by
  constructor
  · intro h
    obtain ⟨before, smallest, after, rfl, hfirst, hbefore⟩ := List.findSome?_eq_some_iff.mp h
    refine ⟨smallest, List.mem_append_right _ List.mem_cons_self, hfirst, fun other hother hsome => ?_⟩
    rcases List.mem_append.mp hother with hother | hother
    · rw [hbefore other hother] at hsome
      cases hsome
    · have hrest := (List.pairwise_append.mp hsorted).2.1
      rcases List.mem_cons.mp hother with rfl | hother
      · rw [Std.compare_self]
        decide
      · rw [(List.pairwise_cons.mp hrest).1 other hother]
        decide
  · rintro ⟨smallest, hmem, hfirst, hleast⟩
    obtain ⟨before, after, rfl⟩ := List.append_of_mem hmem
    refine List.findSome?_eq_some_iff.mpr ⟨before, smallest, after, rfl, hfirst, fun other hother => ?_⟩
    have hlt := (List.pairwise_append.mp hsorted).2.2 other hother smallest List.mem_cons_self
    have hgt : compare smallest.key other.key = .gt := Std.OrientedCmp.gt_iff_lt.mpr hlt
    rw [← Option.not_isSome_iff_eq_none]
    intro hsome
    exact hleast other (List.mem_append_left _ hother) hsome hgt

end Contained

/-! ## The newest definition -/

namespace Parser

variable (parser : Parser) (crates : Crates) (source : Bytes) (key : ObjectKey)

/-- The top-level objects of a source, in file order. -/
def scannedObjects : List IndirectObject :=
  Pdfv.scannedObjects (SourceStorage.fromSource source parser.limits.memorySourceThresholdBytes)
    parser.limits

/-- The last object stream of the source that contains the key. -/
def newestContainer : Option IndirectObject :=
  ((parser.scannedObjects source).filter
    (contains parser.limits (parser.activeRegistry crates) key)).getLast?

/-- The last object stream that contains the key gives it this object. -/
def GivenByNewest (object : CosObject) : Prop :=
  ∃ newest, parser.newestContainer crates source key = some newest
    ∧ ∃ inner ∈ containedObjects parser.limits (parser.activeRegistry crates) newest,
      inner.key = key ∧ inner.object = object

/-- The top-level objects that no later one with the same key replaces, in key order. -/
def survivors : List IndirectObject :=
  ((parser.scannedObjects source).foldl ObjectStore.insertObject OrdMap.empty).values

/-- Among the surviving object streams that contain the key, the one with the smallest key of its own
gives it (by its first object with that key) what the last stream of the file gives it. -/
def SmallestContainerAgrees : Prop :=
  ∃ smallest ∈ parser.survivors source, ∃ first,
    (containedObjects parser.limits (parser.activeRegistry crates) smallest).find?
        (fun inner => inner.key = key) = some first
      ∧ (∀ other ∈ parser.survivors source,
        contains parser.limits (parser.activeRegistry crates) key other = true →
          compare smallest.key other.key ≠ .gt)
      ∧ parser.GivenByNewest crates source key first.object

end Parser

section Main

variable {parser : Parser} {crates : Crates} {source : Bytes} {key : ObjectKey}

theorem survivors_sorted :
    (parser.survivors source).Pairwise fun a b => compare a.key b.key = .lt := by
  unfold Parser.survivors
  have hkeys : ∀ entry ∈ ((parser.scannedObjects source).foldl ObjectStore.insertObject
      OrdMap.empty).entries, entry.1 = entry.2.key :=
    key_of_mem_insertObjects fun entry hentry => absurd hentry List.not_mem_nil
  generalize (parser.scannedObjects source).foldl ObjectStore.insertObject OrdMap.empty = store
    at hkeys ⊢
  refine List.pairwise_map.mpr (List.Pairwise.imp_of_mem (fun ha hb hlt => ?_) store.sorted)
  rw [← hkeys _ ha, ← hkeys _ hb]
  exact hlt

/-- **A compressed object is the newest definition exactly when the surviving object stream with the
smallest key agrees with the last one.** -/
theorem newestDefinition_iff {password : Option Bytes} {doc : ParsedDocument}
    (h : parser.parseWithOptions crates source password = .ok doc)
    (hplain : ¬ ∃ trailer ∈ doc.trailers, trailer.Encrypts)
    (htop : ∀ object ∈ parser.scannedObjects source, object.key ≠ key) :
    (∃ stored, doc.objects.get? key = some stored
        ∧ parser.GivenByNewest crates source key stored.object)
      ↔ parser.SmallestContainerAgrees crates source key := by
  obtain ⟨version, s, gate, hscan, hgate, hdoc⟩ := parseWithOptions_cases h
  have hstore := scanDocument_objects hscan
  have hmissing : s.objects.get? key = none := by
    rw [hstore, get?_insertObjects, OrdMap.get?_empty, Option.or_none, List.find?_eq_none]
    intro object hobject
    rw [List.mem_reverse] at hobject
    simpa using htop object hobject
  have hencrypt : (encryptionReference s.trailers).isSome = true →
      (∀ trailer ∈ s.trailers, trailer ∈ doc.trailers) → False := by
    intro hsome hsub
    obtain ⟨trailer, hmem, henc⟩ := encryptionReference_isSome.mp hsome
    exact hplain ⟨trailer, hsub trailer hmem, henc⟩
  rcases encryptionGate_cases hgate with ⟨objects, log₀, log, fact, rfl, -, href, -⟩ |
      ⟨objects, secret, summary, rfl, href, -, -⟩ | ⟨rfl, -⟩
  · rcases hdoc with ⟨_, _, ⟨⟩, rfl⟩ | ⟨_, _, _, _, _, ⟨⟩, -, -⟩
    exact (hencrypt href fun _ hmem => hmem).elim
  · rcases hdoc with ⟨_, _, ⟨⟩, -⟩ | ⟨_, _, _, _, _, ⟨⟩, hmat, rfl⟩
    have htrailers := (materialize_spec hmat).2
    refine (hencrypt href fun trailer hmem => ?_).elim
    rw [htrailers]
    exact List.mem_append_left _ hmem
  · rcases hdoc with ⟨_, _, ⟨⟩, -⟩ | ⟨_, _, objects, _, _, ⟨⟩, hmat, rfl⟩
    have hget := get?_materialize hmat key
    rw [hmissing, Option.none_or, List.find?_flatMap] at hget
    have hvalues : s.objects.values = parser.survivors source := by
      rw [hstore]
      rfl
    rw [hvalues] at hget
    dsimp only
    rw [hget]
    constructor
    · rintro ⟨stored, hstored, hgiven⟩
      obtain ⟨smallest, hmem, hfirst, hleast⟩ := (findSome?_smallest survivors_sorted).mp hstored
      refine ⟨smallest, hmem, stored, hfirst, fun other hother hcontains => ?_, hgiven⟩
      refine hleast other hother ?_
      rw [List.find?_isSome]
      exact List.any_eq_true.mp hcontains
    · rintro ⟨smallest, hmem, first, hfirst, hleast, hgiven⟩
      refine ⟨first, (findSome?_smallest survivors_sorted).mpr ⟨smallest, hmem, hfirst, ?_⟩, hgiven⟩
      intro other hother hsome
      rw [List.find?_isSome] at hsome
      exact hleast other hother (List.any_eq_true.mpr hsome)

/-- Object 2 0 is 7 in the object stream 5 0 and 8 in the later object stream 9 0. -/
def updatedStreamSource : Bytes :=
  utf8 ("%PDF-1.7\n5 0 obj<</Type/ObjStm/N 1/First 4/Length 5>>stream\n2 0 7\nendstream endobj\n" ++
    "9 0 obj<</Type/ObjStm/N 1/First 4/Length 5>>stream\n2 0 8\nendstream endobj\n%%EOF")

/-- The key `2 0`. -/
def compressedKey : ObjectKey :=
  .ofNumber 2

end Main

/-- The parse of `updatedStreamSource` meets no trailer and stores 7 under the key. -/
theorem updatedStream_run :
    (match Parser.parse ⟨{}, none⟩ Crates.unused updatedStreamSource with
      | .ok doc => doc.trailers.isEmpty && (match doc.objects.get? compressedKey with
        | some ⟨_, _, .integer 7⟩ => true
        | _ => false)
      | .error _ => false) = true := by
  have hbytes := updatedStreamSource.eq_def
  simp only [utf8_append] at hbytes
  repeat rw [utf8_ofList] at hbytes
  rw [hbytes]
  decide +kernel

/-- Every top-level object of `updatedStreamSource` is a stream that contains the key. -/
theorem updatedStream_scanned :
    ((Parser.scannedObjects ⟨{}, none⟩ updatedStreamSource).all fun object =>
      decide (object.key ≠ compressedKey) && contains {} (Parser.activeRegistry ⟨{}, none⟩
        Crates.unused) compressedKey object) = true := by
  have hbytes := updatedStreamSource.eq_def
  simp only [utf8_append] at hbytes
  repeat rw [utf8_ofList] at hbytes
  rw [hbytes]
  decide +kernel

/-- The last of them has 8 under the key. -/
theorem updatedStream_newest :
    (match Parser.newestContainer ⟨{}, none⟩ Crates.unused updatedStreamSource compressedKey with
      | some newest => (containedObjects {} (Parser.activeRegistry ⟨{}, none⟩ Crates.unused)
          newest).all fun inner => match inner.object with
            | .integer 8 => true
            | _ => false
      | none => false) = true := by
  have hbytes := updatedStreamSource.eq_def
  simp only [utf8_append] at hbytes
  repeat rw [utf8_ofList] at hbytes
  rw [hbytes]
  decide +kernel

theorem updatedStream_key {object : IndirectObject}
    (h : object ∈ Parser.scannedObjects ⟨{}, none⟩ updatedStreamSource) :
    object.key ≠ compressedKey ∧ contains {} (Parser.activeRegistry ⟨{}, none⟩ Crates.unused)
      compressedKey object = true := by
  have hobject := List.all_eq_true.mp updatedStream_scanned object h
  rw [Bool.and_eq_true, decide_eq_true_eq] at hobject
  exact hobject

/-- Every stream of the file contains the key, and the last one does not give it. -/
theorem newestDefinition_counterexample :
    ∃ doc, Parser.parse ⟨{}, none⟩ Crates.unused updatedStreamSource = .ok doc
      ∧ (¬ ∃ trailer ∈ doc.trailers, trailer.Encrypts)
      ∧ (∀ object ∈ Parser.scannedObjects ⟨{}, none⟩ updatedStreamSource,
        object.key ≠ compressedKey
          ∧ contains {} (Parser.activeRegistry ⟨{}, none⟩ Crates.unused) compressedKey object = true)
      ∧ ¬ ∃ stored, doc.objects.get? compressedKey = some stored
        ∧ Parser.GivenByNewest ⟨{}, none⟩ Crates.unused updatedStreamSource compressedKey
          stored.object := by
  have hrun := updatedStream_run
  cases hparse : Parser.parse ⟨{}, none⟩ Crates.unused updatedStreamSource with
  | error e =>
    rw [hparse] at hrun
    cases hrun
  | ok doc =>
    rw [hparse] at hrun
    obtain ⟨htrailers, hstored⟩ := Bool.and_eq_true_iff.mp hrun
    refine ⟨doc, rfl, ?_, fun object hobject => updatedStream_key hobject, ?_⟩
    · rintro ⟨trailer, hmem, -⟩
      rw [List.isEmpty_iff.mp htrailers] at hmem
      cases hmem
    · rintro ⟨stored, hget, newest, hcontainer, inner, hinner, -, hvalue⟩
      have hnewest := updatedStream_newest
      rw [hcontainer] at hnewest
      have height := List.all_eq_true.mp hnewest inner hinner
      rw [hget] at hstored
      obtain ⟨key, offset, value⟩ := stored
      dsimp only at hvalue hstored height
      rw [hvalue] at height
      split at hstored
      · rename_i hseven
        cases hseven
        cases height
      · cases hstored

theorem newestDefinition_iff_updatedStream :
    ∃ doc, Parser.parse ⟨{}, none⟩ Crates.unused updatedStreamSource = .ok doc
      ∧ ((∃ stored, doc.objects.get? compressedKey = some stored
          ∧ Parser.GivenByNewest ⟨{}, none⟩ Crates.unused updatedStreamSource compressedKey
            stored.object)
        ↔ Parser.SmallestContainerAgrees ⟨{}, none⟩ Crates.unused updatedStreamSource
          compressedKey) := by
  have hrun := updatedStream_run
  cases hparse : Parser.parse ⟨{}, none⟩ Crates.unused updatedStreamSource with
  | error e =>
    rw [hparse] at hrun
    cases hrun
  | ok doc =>
    rw [hparse] at hrun
    have htrailers := List.isEmpty_iff.mp (Bool.and_eq_true_iff.mp hrun).1
    refine ⟨doc, rfl, newestDefinition_iff hparse ?_ fun object hobject =>
      (updatedStream_key hobject).1⟩
    rintro ⟨trailer, hmem, -⟩
    rw [htrailers] at hmem
    cases hmem

end Pdfv
