import Pdfv.Parser.LogSpec
/-!
# Which `/Encrypt` entries are noticed

A trailer enters the document from the `trailer` keyword, from a cross-reference section, or from a
cross-reference stream. The encryption check runs between the first two and the third
(`encryptionGate`, then `materializeStreamBackedStructures`), so an `/Encrypt` entry that only a
cross-reference stream carries raises no fact. `encryptionNoticed_iff` says that this is the only way
to miss one.
-/

namespace Pdfv

open Fallible

/-- The trailer has an `/Encrypt` entry. -/
def Trailer.Encrypts (trailer : Trailer) : Prop :=
  (trailer.dictionary.get "Encrypt").isSome = true

instance (trailer : Trailer) : Decidable trailer.Encrypts :=
  inferInstanceAs (Decidable (_ = _))

/-- A fact that encryption was detected. -/
def ParseFact.IsEncrypted : ParseFact → Prop
  | .encryption encrypted .. => encrypted = true
  | _ => False

/-- No fact was dropped. -/
def ParsedDocument.CapOpen (doc : ParsedDocument) : Prop :=
  (FactLog.mk doc.parseFacts doc.warnings).capReached = false

namespace Parser

/-- The header and the top-level scan of a source, in the storage the parser picks. -/
def scan (parser : Parser) (source : Bytes) : Except ParseError (PdfVersion × ScanState) :=
  scanDocument (SourceStorage.fromSource source parser.limits.memorySourceThresholdBytes)
    parser.limits

/-- The supplied password decrypted the document. -/
def Decrypted (parser : Parser) (crates : Crates) (source : Bytes) (password : Option Bytes) :
    Prop :=
  ∃ version s secret summary, parser.scan source = .ok (version, s) ∧ password = some secret ∧
    (decryptDocument crates parser.limits s.objects s.trailers secret).2 = .ok summary

/-- If a trailer of the document has `/Encrypt`, a fact says so, and the document counts as
encrypted unless the password decrypted it. -/
def EncryptionNoticed (parser : Parser) (crates : Crates) (source : Bytes)
    (password : Option Bytes) (doc : ParsedDocument) : Prop :=
  (∃ trailer ∈ doc.trailers, trailer.Encrypts) →
    (∃ fact ∈ doc.parseFacts, fact.IsEncrypted) ∧
      (doc.isEncrypted = true ∨ parser.Decrypted crates source password)

/-- The top-level scan meets a trailer with `/Encrypt`, or no cross-reference stream among the
scanned objects has the entry. -/
def EncryptInScannedTrailer (parser : Parser) (source : Bytes) : Prop :=
  ∀ version s, parser.scan source = .ok (version, s) →
    (∃ trailer ∈ s.trailers, trailer.Encrypts) ∨
      ∀ object ∈ s.objects.values, ∀ stream, object.object = .stream stream →
        entryIsName stream.dictionary "Type" "XRef" = true → Dictionary.get stream.dictionary "Encrypt" = none

end Parser

/-! ## The encryption check -/

variable {limits : ResourceLimits} {crates : Crates} {password : Option Bytes} {s : ScanState}

theorem encryptionReference_isSome {trailers : List Trailer} :
    (encryptionReference trailers).isSome = true ↔ ∃ trailer ∈ trailers, trailer.Encrypts := by
  simp only [encryptionReference, lastTrailerEntry, List.findSome?_isSome_iff, List.mem_reverse]
  rfl

theorem intoFact_isEncrypted {error : DecryptionError} {fallback : ParseFact}
    (h : error.isEncryptedStatus = true) :
    ∃ handler version revision algorithm,
      error.intoFact fallback = .encryption true handler version revision algorithm false := by
  cases error with
  | incorrectPassword summary => exact ⟨_, _, _, _, rfl⟩
  | unsupported message version revision algorithm => exact ⟨_, _, _, _, rfl⟩
  | malformed message => cases h
  | limitExceeded limit => cases h

/-- The check either finishes with a fact of encryption without decryption, or goes on after a
decryption or without an `/Encrypt` entry. -/
theorem encryptionGate_cases {gate : EncryptionGate}
    (h : encryptionGate limits crates password s = .ok gate) :
    (∃ objects, ∃ log₀ log : FactLog, ∃ fact, gate = .finished objects log ∧ log = log₀.pushFact limits fact ∧
      (encryptionReference s.trailers).isSome = true ∧
      ∃ handler version revision algorithm,
        fact = ParseFact.encryption true handler version revision algorithm false) ∨
    (∃ objects secret summary, gate = .proceed objects
        (s.log.pushFact limits (summary.intoFact true)) ∧
      (encryptionReference s.trailers).isSome = true ∧ password = some secret ∧
      decryptDocument crates limits s.objects s.trailers secret = (objects, .ok summary)) ∨
    (gate = .proceed s.objects s.log ∧ (encryptionReference s.trailers).isSome = false) := by
  unfold encryptionGate at h
  by_cases href : (encryptionReference s.trailers).isSome = true
  · rw [if_pos href] at h
    dsimp only at h
    cases hclass : classifyEncryption s.objects s.trailers limits with
    | error error =>
      rw [hclass] at h
      cases h
    | ok classification =>
      rw [hclass] at h
      cases password with
      | none =>
        cases h
        exact .inl ⟨_, _, _, _, rfl, rfl, href, _, _, _, _, rfl⟩
      | some secret =>
        dsimp only at h
        cases hdec : decryptDocument crates limits s.objects s.trailers secret with
        | mk objects result =>
          rw [hdec] at h
          cases result with
          | ok summary =>
            cases h
            exact .inr (.inl ⟨_, _, _, rfl, href, rfl, hdec⟩)
          | error error =>
            dsimp only at h
            split at h
            · rename_i hstatus
              cases h
              exact .inl ⟨_, _, _, _, rfl, rfl, href, intoFact_isEncrypted hstatus⟩
            · cases h
  · rw [if_neg href] at h
    cases h
    exact .inr (.inr ⟨rfl, by simpa using href⟩)

/-- A pushed fact is there when the cap was not reached. -/
theorem mem_pushFact_self {log : FactLog} {fact : ParseFact}
    (h : (log.pushFact limits fact).capReached = false) :
    fact ∈ (log.pushFact limits fact).parseFacts := by
  rw [FactLog.pushFact_of_open h]
  simp

theorem isEncrypted_of_mem {doc : ParsedDocument} {handler algorithm : Option Identifier}
    {version revision : Option Nat}
    (h : ParseFact.encryption true handler version revision algorithm false ∈ doc.parseFacts) :
    doc.isEncrypted = true :=
  List.any_eq_true.mpr ⟨_, h, rfl⟩

/-! ## Documents -/

/-- The trailers a store's cross-reference streams add have `/Encrypt` only if a stream has. -/
theorem xrefTrailers_encrypts {objects : ObjectStore} :
    (∃ trailer ∈ objects.values.flatMap xrefTrailers, trailer.Encrypts)
      ↔ ¬ ∀ object ∈ objects.values, ∀ stream, object.object = .stream stream →
        entryIsName stream.dictionary "Type" "XRef" = true →
          Dictionary.get stream.dictionary "Encrypt" = none := by
  constructor
  · rintro ⟨trailer, hmem, henc⟩ hall
    obtain ⟨object, hobject, hmem⟩ := List.mem_flatMap.mp hmem
    unfold xrefTrailers at hmem
    split at hmem
    · rename_i stream hstream
      split at hmem
      · rename_i htype
        rw [List.mem_singleton] at hmem
        have hnone := hall object hobject stream hstream htype
        rw [hmem, Trailer.Encrypts, hnone] at henc
        cases henc
      · cases hmem
    · cases hmem
  · intro h
    push Not at h
    obtain ⟨object, hobject, stream, hstream, htype, hne⟩ := h
    refine ⟨⟨stream.dictionary, object.offset⟩, List.mem_flatMap.mpr ⟨object, hobject, ?_⟩,
      Option.isSome_iff_ne_none.mpr hne⟩
    simp only [xrefTrailers, hstream, htype, if_true, List.mem_singleton]

/-- What a successful parse of a source went through. -/
theorem parseWithOptions_cases {parser : Parser} {source : Bytes} {doc : ParsedDocument}
    (h : parser.parseWithOptions crates source password = .ok doc) :
    ∃ version s gate, parser.scan source = .ok (version, s) ∧
      encryptionGate parser.limits crates password s = .ok gate ∧
      ((∃ objects log, gate = .finished objects log ∧
          doc = ⟨version, catalogOf s.trailers, objects, s.trailers, log.parseFacts,
            log.warnings⟩) ∨
        ∃ objects log objects' trailers log', gate = .proceed objects log ∧
          materializeStreamBackedStructures parser.limits (parser.activeRegistry crates) objects
            s.trailers log = .ok (objects', trailers, log') ∧
          doc = ⟨version, catalogOf trailers, objects', trailers, log'.parseFacts,
            log'.warnings⟩) := by
  unfold Parser.parseWithOptions at h
  split at h
  · cases h
  · simp only [parseDocument, bind_eq_ok] at h
    obtain ⟨⟨version, s⟩, hscan, gate, hgate, h⟩ := h
    refine ⟨version, s, gate, hscan, hgate, ?_⟩
    cases gate with
    | finished objects log =>
      cases h
      exact .inl ⟨objects, log, rfl, rfl⟩
    | proceed objects log =>
      simp only [bind_eq_ok, pure_eq_ok] at h
      obtain ⟨⟨objects', trailers, log'⟩, hmat, hdoc⟩ := h
      exact .inr ⟨objects, log, objects', trailers, log', rfl, hmat, hdoc.symm⟩

/-- **An `/Encrypt` entry is noticed exactly when the top-level scan meets one in a trailer, or no
cross-reference stream has one.** -/
theorem encryptionNoticed_iff {parser : Parser} {source : Bytes} {doc : ParsedDocument}
    (h : parser.parseWithOptions crates source password = .ok doc) (hcap : doc.CapOpen) :
    parser.EncryptionNoticed crates source password doc
      ↔ parser.EncryptInScannedTrailer source := by
  obtain ⟨version, s, gate, hscan, hgate, hdoc⟩ := parseWithOptions_cases h
  have hscanned : parser.EncryptInScannedTrailer source ↔
      ((∃ trailer ∈ s.trailers, trailer.Encrypts) ∨
        ¬ ∃ trailer ∈ s.objects.values.flatMap xrefTrailers, trailer.Encrypts) := by
    rw [xrefTrailers_encrypts, not_not]
    constructor
    · intro hall
      exact hall version s hscan
    · rintro hcond v t ht
      rw [hscan] at ht
      cases ht
      exact hcond
  rw [hscanned]
  rcases encryptionGate_cases hgate with ⟨objects, log₀, log, fact, rfl, hlog, href, hfact⟩ |
      ⟨objects, secret, summary, rfl, href, hpass, hdec⟩ | ⟨rfl, href⟩
  · -- the document stays encrypted: the fact was pushed last
    obtain ⟨handler, v, r, algorithm, rfl⟩ := hfact
    rcases hdoc with ⟨_, _, ⟨⟩, rfl⟩ | ⟨_, _, _, _, _, ⟨⟩, -, -⟩
    subst hlog
    have hmem := mem_pushFact_self hcap
    exact iff_of_true (fun _ => ⟨⟨_, hmem, rfl⟩, .inl (isEncrypted_of_mem hmem)⟩)
      (.inl (encryptionReference_isSome.mp href))
  · -- decrypted: the fact was pushed before the streams were expanded
    rcases hdoc with ⟨_, _, ⟨⟩, -⟩ | ⟨_, _, _, _, log', ⟨⟩, hmat, rfl⟩
    obtain ⟨hopen, hkeep⟩ := (materialize_spec hmat).1.of_open hcap
    have hmem := hkeep _ (mem_pushFact_self hopen)
    refine iff_of_true (fun _ => ⟨⟨_, hmem, rfl⟩, .inr ?_⟩)
      (.inl (encryptionReference_isSome.mp href))
    exact ⟨version, s, secret, summary, hscan, hpass, by rw [hdec]⟩
  · -- no trailer of the scan has the entry, and no fact is pushed
    rcases hdoc with ⟨_, _, ⟨⟩, -⟩ | ⟨_, _, _, _, log', ⟨⟩, hmat, rfl⟩
    obtain ⟨hgrows, rfl⟩ := materialize_spec hmat
    have hscanNone : ¬ ∃ trailer ∈ s.trailers, trailer.Encrypts := by
      rw [← encryptionReference_isSome, href]
      exact Bool.false_ne_true
    have hnoFact : ¬ ∃ fact ∈ log'.parseFacts, fact.IsEncrypted := by
      rintro ⟨fact, hfact, henc⟩
      have hnot : NotEncryption fact := by
        rcases hgrows.mem hfact with hold | hnew
        · exact scanDocument_notEncryption hscan fact hold
        · exact hnew
      cases fact with
      | encryption => exact hnot
      | _ => exact henc
    constructor
    · intro hnoticed
      refine .inr fun ⟨trailer, hmem, henc⟩ => hnoFact ?_
      exact (hnoticed ⟨trailer, List.mem_append_right _ hmem, henc⟩).1
    · rintro (hold | hnone) ⟨trailer, hmem, henc⟩
      · exact absurd hold hscanNone
      · rcases List.mem_append.mp hmem with hmem | hmem
        · exact absurd ⟨trailer, hmem, henc⟩ hscanNone
        · exact absurd ⟨trailer, hmem, henc⟩ hnone

/-- A file whose only `/Encrypt` entry stands in the dictionary of its cross-reference stream. -/
def xrefStreamEncryptSource : Bytes :=
  utf8 ("%PDF-1.7\n1 0 obj<</Type/XRef/Size 0/W[1 1 1]/Index[]/Length 0/Encrypt 2 0 R>>stream\n" ++
    "endstream endobj\n%%EOF")

/-- What the parse of `xrefStreamEncryptSource` shows: it succeeds without a warning, a trailer has
`/Encrypt`, and no fact is an encryption fact. -/
theorem xrefStreamEncrypt_run :
    (match Parser.parse ⟨{}, none⟩ Crates.unused xrefStreamEncryptSource with
      | .ok doc => doc.warnings.isEmpty && doc.trailers.any (fun t => decide t.Encrypts)
        && doc.parseFacts.all fun f => match f with
          | .encryption .. => false
          | _ => true
      | .error _ => false) = true := by
  decide +kernel

theorem encryptionNoticed_counterexample :
    ¬ ∀ (parser : Parser) (crates : Crates) (source : Bytes) (password : Option Bytes)
      (doc : ParsedDocument), parser.parseWithOptions crates source password = .ok doc →
        doc.CapOpen → parser.EncryptionNoticed crates source password doc := by
  intro hall
  have hrun := xrefStreamEncrypt_run
  cases hparse : Parser.parse ⟨{}, none⟩ Crates.unused xrefStreamEncryptSource with
  | error e =>
    rw [hparse] at hrun
    cases hrun
  | ok doc =>
    rw [hparse] at hrun
    simp only [Bool.and_eq_true, List.isEmpty_iff, List.any_eq_true, decide_eq_true_eq,
      List.all_eq_true] at hrun
    obtain ⟨⟨hwarn, htrailer⟩, hfacts⟩ := hrun
    have hcap : doc.CapOpen := by
      simp [ParsedDocument.CapOpen, FactLog.capReached, hwarn]
    obtain ⟨⟨fact, hmem, henc⟩, -⟩ := hall _ _ _ _ doc hparse hcap htrailer
    have hfact := hfacts fact hmem
    cases fact with
    | encryption => cases hfact
    | _ => exact henc

theorem encryptionNoticed_iff_xrefStream :
    ∃ doc, Parser.parseWithOptions ⟨{}, none⟩ Crates.unused xrefStreamEncryptSource none = .ok doc ∧
      (Parser.EncryptionNoticed ⟨{}, none⟩ Crates.unused xrefStreamEncryptSource none doc
        ↔ Parser.EncryptInScannedTrailer ⟨{}, none⟩ xrefStreamEncryptSource) := by
  have hrun := xrefStreamEncrypt_run
  cases hparse : Parser.parse ⟨{}, none⟩ Crates.unused xrefStreamEncryptSource with
  | error e =>
    rw [hparse] at hrun
    cases hrun
  | ok doc =>
    rw [hparse] at hrun
    simp only [Bool.and_eq_true, List.isEmpty_iff] at hrun
    refine ⟨doc, hparse, encryptionNoticed_iff hparse ?_⟩
    simp [ParsedDocument.CapOpen, FactLog.capReached, hrun.1.1]

end Pdfv
