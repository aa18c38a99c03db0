import Pdfv.Parser.Spelling
import Pdfv.Parser.StorageSim
/-!
# Which revision wins

The top-level scan stops at the first `%%EOF`, so a parse sees the first revision only. It gives the
latest state of the file exactly when the later revisions change nothing (`latestWins_iff`).
-/

namespace Pdfv

open Loop Fallible

/-! ## The header -/

theorem At.findBytes_here {needle rest : Bytes} (hne : needle ≠ []) :
    (readerOf (needle ++ rest)).findBytes needle 0 (readerOf (needle ++ rest)).len = some 0 := by
  have hslice : (SourceStorage.memory (needle ++ rest)).slice 0 (needle ++ rest).length
      = .ok (needle ++ rest) := by
    rw [SourceStorage.slice_memory (Nat.zero_le _) (Nat.le_refl _), List.take_length, List.drop_zero]
  have hfind : Search.findWindow needle (needle ++ rest) = some 0 := by
    rw [Search.findWindow_eq_some_iff hne]
    exact ⟨List.prefix_append needle rest, fun j hj => absurd hj (Nat.not_lt_zero j)⟩
  show (SourceStorage.memory (needle ++ rest)).findBytes needle 0 (needle ++ rest).length = some 0
  unfold SourceStorage.findBytes
  rw [if_neg (by rw [SourceStorage.len_memory]; simp [hne])]
  dsimp only
  rw [hslice]
  dsimp only
  rw [findBytes_zero, hfind]
  rfl

theorem parseVersionDigit_at {bytes rest : Bytes} {pos : Nat} {b : UInt8} (hb : isDigit b = true)
    (h : At bytes pos (b :: rest)) :
    parseVersionDigit (readerOf bytes) pos = (some (digitValue b), pos + 1) := by
  unfold parseVersionDigit
  rw [h.byte]
  exact if_pos hb

theorem parseHeader_at (header : HeaderText) (rest : Bytes) :
    ∃ version, parseHeader (readerOf (header.bytes ++ rest))
      = .ok (0, version, header.bytes.length, []) := by
  have hne : headerMarker ≠ [] := by
    decide
  have hbytes : header.bytes ++ rest
      = headerMarker ++ (header.major :: 46 :: header.minor :: rest) := by
    unfold HeaderText.bytes
    rw [List.append_assoc]
    rfl
  have hlength : header.bytes.length = headerMarker.length + 1 + 1 + 1 := by
    unfold HeaderText.bytes
    rw [List.length_append]
    rfl
  have hmajor := At.append headerMarker (header.major :: 46 :: header.minor :: rest)
  unfold parseHeader
  rw [hbytes, At.findBytes_here hne, hlength]
  dsimp only
  rw [Nat.zero_add, parseVersionDigit_at header.major_digit hmajor]
  dsimp only
  have hdot : (46 :: header.minor :: rest).head? = some 46 := rfl
  rw [hmajor.next.byte, if_pos hdot, parseVersionDigit_at header.minor_digit hmajor.next.next]
  exact ⟨_, rfl⟩

/-! ## The scan of a file -/

section File

variable {limits : ResourceLimits} (file : RevisedFile limits)

/-- What follows the first `%%EOF`. -/
def RevisedFile.afterEof : Bytes :=
  (file.first.ending.map Eol.bytes).getD [] ++ file.later.flatMap Revision.bytes

/-- What a scan of the first revision collects. -/
structure RevisedFile.Scanned (s : ScanState) : Prop where
  trailers : ∃ offset, s.trailers = [⟨file.first.trailer.dictionary, offset⟩]
  plain : s.objects.Plain
  objects : ∀ key, (s.objects.get? key).map IndirectObject.object = file.first.definition key

variable {file}

/-- The scan gets to the number after the first `startxref`. -/
theorem scan_toStartxref (hfits : file.Fits) (log : FactLog) :
    ∃ s gap, ScanReach file.bytes limits ⟨file.header.bytes.length, log, OrdMap.empty, []⟩ s
      ∧ Blank gap ∧ file.Scanned s
      ∧ At file.bytes s.pos (gap ++ (file.first.startxref.bytes ++ (file.first.eofEol.bytes
        ++ (eofMarker ++ file.afterEof)))) := by
  have hcount : file.first.objects.length ≤ limits.maxObjects := by
    have hle := hfits.objects_le
    unfold RevisedFile.revisions at hle
    rw [List.map_cons, List.sum_cons] at hle
    omega
  have hentries := hfits.entries_le file.first List.mem_cons_self
  have hstart : At file.bytes
      (⟨file.header.bytes.length, log, OrdMap.empty, []⟩ : ScanState).pos
      (file.first.objects.flatMap (fun object => object.1.bytes ++ object.2.bytes)
        ++ (file.first.xrefBytes ++ (file.first.beforeTrailer.bytes ++ (file.first.trailerBytes
          ++ file.later.flatMap Revision.bytes)))) := by
    have hfile : At file.bytes file.header.bytes.length
        (file.first.bytes ++ file.later.flatMap Revision.bytes) := At.append _ _
    simp only [Revision.bytes.eq_def file.first, Revision.objectBytes, List.append_assoc] at hfile
    exact hfile
  have hempty : ObjectStore.Plain OrdMap.empty := by
    intro key object hobject
    cases hobject
  obtain ⟨s₁, hreach₁, h₁, htrailers₁, hplain₁, hobjects₁⟩ :=
    scan_objects file.first.objects hstart (by
      show 0 + _ ≤ _
      omega) hempty
  obtain ⟨s₂, hreach₂, h₂, hobjects₂, offset, htrailers₂⟩ := scan_trailer file.first h₁ hentries
  unfold Revision.endBytes at h₂
  simp only [List.append_assoc] at h₂
  obtain ⟨pos, gap, hstep, hpos, hgap, h₃⟩ :=
    scanStep_startxref file.first.startxrefEol file.first.beforeStartxref.blank h₂
  refine ⟨{ s₂ with pos }, gap, (hreach₁.trans hreach₂).trans (ScanReach.step hstep hpos), hgap,
    ⟨⟨offset, ?_⟩, ?_, ?_⟩, h₃⟩
  · show s₂.trailers = _
    rw [htrailers₂, htrailers₁]
    rfl
  · show s₂.objects.Plain
    rw [hobjects₂]
    exact hplain₁
  · intro key
    show (s₂.objects.get? key).map IndirectObject.object = _
    rw [hobjects₂, hobjects₁]
    exact Option.or_none

/-- The scan of a file whose first number after `startxref` fits `u32`. -/
theorem scanDocument_file (hfits : file.Fits) (hvalue : file.first.startxref.value < u32Size) :
    ∃ version s, scanDocument (.memory file.bytes) limits = .ok (version, s) ∧ file.Scanned s := by
  obtain ⟨version, hheader⟩ := parseHeader_at file.header
    (file.first.bytes ++ file.later.flatMap Revision.bytes)
  obtain ⟨s₁, gap₁, hreach₁, hgap₁, hscanned, h₁⟩ := scan_toStartxref hfits
    (FactLog.pushFact ⟨[], []⟩ limits (.header 0 version (0 ≠ 0)))
  obtain ⟨s₂, gap₂, hreach₂, hgap₂, h₂, hobjects₂, htrailers₂⟩ :=
    scan_digits file.first.eofEol file.first.startxref.digits hvalue hgap₁ h₁
  obtain ⟨s₃, hdone, hobjects₃, htrailers₃⟩ := scanStep_eof hgap₂ h₂
  refine ⟨version, s₃, ?_, ⟨?_, ?_, ?_⟩⟩
  · unfold scanDocument
    have hread : parseHeader (readerOf file.bytes) = .ok (0, version, file.header.bytes.length, []) :=
      hheader
    rw [hread, ok_bind]
    dsimp only
    rw [(hreach₁.trans hreach₂).result h₂.le hdone]
    rfl
  · rw [htrailers₃, htrailers₂]
    exact hscanned.trailers
  · rw [hobjects₃, hobjects₂]
    exact hscanned.plain
  · rw [hobjects₃, hobjects₂]
    exact hscanned.objects

/-- A larger number is an error. -/
theorem scanDocument_file_error (hfits : file.Fits)
    (hvalue : file.first.startxref.value ≥ u32Size) :
    scanDocument (.memory file.bytes) limits = .error (.bad "unsigned integer out of range") := by
  obtain ⟨version, hheader⟩ := parseHeader_at file.header
    (file.first.bytes ++ file.later.flatMap Revision.bytes)
  obtain ⟨s, gap, hreach, hgap, -, h⟩ := scan_toStartxref hfits
    (FactLog.pushFact ⟨[], []⟩ limits (.header 0 version (0 ≠ 0)))
  obtain ⟨b, digits, hdigits, hb⟩ := file.first.startxref.cons
  have hat : At file.bytes ({ s with pos := s.pos + gap.length } : ScanState).pos
      (file.first.startxref.bytes ++ (file.first.eofEol.bytes ++ (eofMarker ++ file.afterEof))) :=
    h.skip
  have hnumber := parseObjectHeader_digits file.first.eofEol hat file.first.startxref.digits
    file.first.startxref.ne
  unfold Numeral.value at hvalue
  rw [if_pos hvalue] at hnumber
  have hdone : scanStep (.memory file.bytes) limits s
      = .done (.error (.bad "unsigned integer out of range")) := by
    rw [hdigits] at h hat
    rw [scanStep_skip hgap (startsToken_digit hb) (List.cons_ne_nil _ _) h, scanStep_digit hb hat]
    unfold scanObject parseIndirectObject
    dsimp only
    rw [hnumber]
    rfl
  unfold scanDocument
  have hread : parseHeader (readerOf file.bytes) = .ok (0, version, file.header.bytes.length, []) :=
    hheader
  rw [hread, ok_bind]
  dsimp only
  rw [hreach.result h.le hdone]
  rfl

/-- Related objects are equal where the memory run has no stream. -/
theorem ObjectSim.eq_of_plain {n : Nat} {m s : CosObject} (h : ObjectSim n m s)
    (hplain : ∀ stream, m ≠ .stream stream) : m = s := by
  cases h with
  | same _ => rfl
  | @stream m s _ => exact absurd rfl (hplain m)

theorem StoreSim.object_eq {n : Nat} {m s : ObjectStore} (h : StoreSim n m s) (hplain : m.Plain)
    (key : ObjectKey) :
    (m.get? key).map IndirectObject.object = (s.get? key).map IndirectObject.object := by
  have hkey := OrdMap.Rel.get? h key
  generalize hm : m.get? key = a, s.get? key = b at hkey
  cases hkey with
  | none => rfl
  | some hpair => exact congrArg some (hpair.object.eq_of_plain (hplain key _ hm))

/-- A spill file is scanned like the source in memory: without streams there is nothing in which the
two runs can differ. -/
theorem scanned_fromSource (threshold : Nat) {version : PdfVersion} {s : ScanState}
    (hscan : scanDocument (.memory file.bytes) limits = .ok (version, s)) (h : file.Scanned s) :
    ∃ s', scanDocument (SourceStorage.fromSource file.bytes threshold) limits = .ok (version, s')
      ∧ file.Scanned s' := by
  unfold SourceStorage.fromSource
  split
  · exact ⟨s, hscan, h⟩
  · rcases (scanDocument_sim file.bytes limits).outcomes with
      ⟨e, hm, _⟩ | ⟨⟨v, m⟩, ⟨v', s'⟩, hm, hs, hversion, hsim⟩
    · rw [hscan] at hm
      cases hm
    · rw [hscan] at hm
      cases hm
      dsimp only at hversion hsim
      subst hversion
      have hobjects := hsim.objects.object_eq h.plain
      refine ⟨s', hs, ?_, ?_, fun key => ?_⟩
      · rw [← hsim.trailers]
        exact h.trailers
      · intro key object hobject
        have hkey := hobjects key
        rw [hobject, Option.map_some, Option.map_eq_some_iff] at hkey
        obtain ⟨found, hfound, hvalue⟩ := hkey
        rw [← hvalue]
        exact h.plain key found hfound
      · rw [← hobjects]
        exact h.objects key

theorem scan_error_fromSource (threshold : Nat) {e : ParseError}
    (hscan : scanDocument (.memory file.bytes) limits = .error e) :
    scanDocument (SourceStorage.fromSource file.bytes threshold) limits = .error e := by
  unfold SourceStorage.fromSource
  split
  · exact hscan
  · rcases (scanDocument_sim file.bytes limits).outcomes with ⟨e', hm, hs⟩ | ⟨m, s, hm, _⟩
    · rw [hscan] at hm
      cases hm
      exact hs
    · rw [hscan] at hm
      cases hm

/-! ## The rest of the parse -/

/-- Without streams nothing is expanded. -/
theorem materialize_plain (registry : DecoderRegistry) {objects : ObjectStore}
    (hplain : objects.Plain) (trailers : List Trailer) (log : FactLog) :
    materializeStreamBackedStructures limits registry objects trailers log
      = .ok (objects, trailers, log) := by
  have hvalues : ∀ object ∈ objects.values, ∀ stream, object.object ≠ .stream stream := by
    intro object hobject
    unfold OrdMap.values at hobject
    obtain ⟨⟨key, value⟩, hmem, rfl⟩ := List.mem_map.mp hobject
    exact hplain key value (OrdMap.mem_entries_iff.mp hmem)
  have hfold : ∀ (values : List IndirectObject) (s : MaterializeState),
      (∀ object ∈ values, ∀ stream, object.object ≠ .stream stream) →
      values.foldlM (materializeStream limits registry) s = .ok s := by
    intro values
    induction values with
    | nil => exact fun s _ => rfl
    | cons object values ih =>
      intro s hvalues
      have hobject := hvalues object List.mem_cons_self
      have hstep : materializeStream limits registry s object = .ok s := by
        unfold materializeStream
        split
        · rename_i stream hstream
          exact absurd hstream (hobject stream)
        · rfl
      rw [List.foldlM_cons, hstep, ok_bind]
      exact ih s fun object hmem => hvalues object (List.mem_cons_of_mem _ hmem)
  unfold materializeStreamBackedStructures
  rw [hfold _ _ hvalues]
  rfl

/-- What the parse of a scanned file yields: the objects and the `/Root` of the first revision. -/
theorem parseDocument_scanned (registry : DecoderRegistry) (crates : Crates)
    {storage : SourceStorage} {version : PdfVersion} {s : ScanState}
    (hscan : scanDocument storage limits = .ok (version, s)) (h : file.Scanned s) :
    ∃ doc, parseDocument storage limits registry crates none = .ok doc
      ∧ doc.objects = s.objects ∧ doc.catalog = some file.first.trailer.root := by
  obtain ⟨offset, htrailers⟩ := h.trailers
  have hunencrypted : encryptionReference s.trailers = none := by
    rw [htrailers]
    unfold encryptionReference lastTrailerEntry
    simp [file.first.trailer.unencrypted]
  have hgate : encryptionGate limits crates none s = .ok (.proceed s.objects s.log) := by
    unfold encryptionGate
    rw [hunencrypted]
    rfl
  have hcatalog : catalogOf s.trailers = some file.first.trailer.root := by
    rw [htrailers]
    unfold catalogOf
    simp [file.first.trailer.hasRoot]
  unfold parseDocument
  rw [hscan, ok_bind]
  dsimp only
  rw [hgate, ok_bind]
  dsimp only
  rw [materialize_plain registry h.plain, ok_bind]
  exact ⟨_, rfl, rfl, hcatalog⟩

end File

/-! ## The latest revision -/

/-- The later revisions change nothing that the first one has: they define no new key, redefine none
with another object, and keep `/Root`; and the first number after `startxref` fits `u32`. -/
structure RevisedFile.FirstIsLatest {limits : ResourceLimits} (file : RevisedFile limits) : Prop where
  startxref : file.first.startxref.value < u32Size
  objects : ∀ key value, file.latest key = some value → file.first.definition key = some value
  root : file.latestRoot = file.first.trailer.root

/-- **A parse yields the latest state of a file exactly when the first revision is that state.** -/
theorem latestWins_iff (parser : Parser) (crates : Crates) (file : RevisedFile parser.limits)
    (hfits : file.Fits) :
    file.LatestWins (parser.parse crates file.bytes) ↔ file.FirstIsLatest := by
  have hsize := hfits.bytes_le
  unfold Parser.parse Parser.parseWithOptions
  rw [if_neg (by omega)]
  by_cases hvalue : file.first.startxref.value < u32Size
  · obtain ⟨version, s, hscan, hscanned⟩ := scanDocument_file hfits hvalue
    obtain ⟨s', hscan', hscanned'⟩ :=
      scanned_fromSource parser.limits.memorySourceThresholdBytes hscan hscanned
    obtain ⟨doc, hdoc, hobjects, hcatalog⟩ :=
      parseDocument_scanned (parser.activeRegistry crates) crates hscan' hscanned'
    rw [hdoc]
    constructor
    · rintro ⟨doc', hdoc', hlatest, hroot⟩
      cases hdoc'
      refine ⟨hvalue, fun key value hkey => ?_, ?_⟩
      · obtain ⟨object, hobject, rfl⟩ := hlatest key value hkey
        rw [hobjects] at hobject
        rw [← hscanned'.objects key, hobject]
        rfl
      · rw [hcatalog] at hroot
        exact (Option.some.inj hroot).symm
    · intro hfirst
      refine ⟨doc, rfl, fun key value hkey => ?_, ?_⟩
      · have hdefinition := hfirst.objects key value hkey
        rw [← hscanned'.objects key, Option.map_eq_some_iff] at hdefinition
        rw [hobjects]
        exact hdefinition
      · rw [hcatalog, hfirst.root]
  · have herror := scanDocument_file_error hfits (Nat.le_of_not_lt hvalue)
    have hfailed := scan_error_fromSource parser.limits.memorySourceThresholdBytes herror
    constructor
    · rintro ⟨doc, hdoc, _⟩
      unfold parseDocument at hdoc
      rw [hfailed] at hdoc
      cases hdoc
    · intro hfirst
      exact absurd hfirst.startxref hvalue

/-- The numeral `0`. -/
def zeroNumeral : Numeral :=
  ⟨[48], List.forall_mem_singleton.mpr rfl, List.cons_ne_nil _ _⟩

/-- A line feed. -/
def newline : Gap :=
  ⟨[10], .ws rfl .nil⟩

/-- The header of version 1.7. -/
def headerText17 : HeaderText :=
  ⟨49, 55, by decide, by decide⟩

/-- The key `1 0`. -/
def firstKeyText : KeyText where
  number := ⟨[49], List.forall_mem_singleton.mpr rfl, List.cons_ne_nil _ _⟩
  generation := zeroNumeral
  number_pos := by decide
  number_lt := by decide
  generation_lt := by decide

/-- A revision that defines object `1 0` by a keyword. -/
def keywordRevision (word : Keyword) : Revision {} where
  objects := [(newline, keywordObject {} firstKeyText word)]
  xref := none
  beforeTrailer := newline
  afterTrailer := ⟨[], .nil⟩
  trailer := rootTrailer {} (by decide) (by decide) (by decide) firstKeyText
  beforeStartxref := newline
  startxrefEol := .lf
  startxref := zeroNumeral
  eofEol := .lf
  ending := some .lf

/-- A file whose second revision replaces object `1 0`. -/
def updatedFile : RevisedFile Parser.default.limits where
  header := headerText17
  first := keywordRevision .null
  later := [keywordRevision .yes]

theorem updatedFile_fits : updatedFile.Fits where
  bytes_le := by
    decide +kernel
  objects_le := by
    decide
  entries_le := by
    intro revision hrevision
    rcases List.mem_cons.mp hrevision with rfl | hrevision
    · exact Nat.zero_le _
    · cases List.mem_singleton.mp hrevision
      exact Nat.zero_le _

/-- The parse of `updatedFile` still has the first object `1 0`. -/
theorem updatedFile_run :
    (match Parser.default.parse Crates.unused updatedFile.bytes with
      | .ok doc => match doc.objects.get? firstKeyText.key with
        | some ⟨_, _, .null⟩ => true
        | _ => false
      | .error _ => false) = true := by
  decide +kernel

theorem latestWins_counterexample :
    ¬ ∀ (parser : Parser) (crates : Crates) (file : RevisedFile parser.limits), file.Fits →
      file.LatestWins (parser.parse crates file.bytes) := by
  intro hall
  obtain ⟨doc, hdoc, hlatest, -⟩ := hall Parser.default Crates.unused updatedFile updatedFile_fits
  obtain ⟨object, hobject, hvalue⟩ := hlatest firstKeyText.key (.boolean true) rfl
  have hrun := updatedFile_run
  obtain ⟨key, offset, value⟩ := object
  dsimp only at hvalue
  subst hvalue
  rw [hdoc] at hrun
  dsimp only at hrun
  rw [hobject] at hrun
  cases hrun

theorem latestWins_iff_updatedFile :
    updatedFile.LatestWins (Parser.default.parse Crates.unused updatedFile.bytes)
      ↔ updatedFile.FirstIsLatest :=
  latestWins_iff Parser.default Crates.unused updatedFile updatedFile_fits

end Pdfv
