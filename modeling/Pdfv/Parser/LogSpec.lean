import Pdfv.Parser.Document
/-!
# What the parser logs

Every operation of the parser only appends facts (`Grows`), and outside the encryption check none of
them is an encryption fact. When the cap was not reached in the end, nothing was dropped on the way
(`Grows.of_open`).
-/

namespace Pdfv

open Loop Fallible

/-- Any fact but an encryption fact. -/
def NotEncryption : ParseFact → Prop
  | .encryption .. => False
  | _ => True

namespace FactLog

variable {limits : ResourceLimits} {log : FactLog}

/-- Below the cap a push appends; at the cap it raises the warning. -/
theorem pushFact_of_open {fact : ParseFact} (h : (log.pushFact limits fact).capReached = false) :
    log.pushFact limits fact = { log with parseFacts := log.parseFacts ++ [fact] } := by
  unfold pushFact at h ⊢
  by_cases hcap : log.parseFacts.length ≥ limits.maxParseFacts
  · rw [if_pos hcap] at h
    by_cases hwarn : log.capReached = true
    · rw [if_pos hwarn] at h
      rw [hwarn] at h
      cases h
    · rw [if_neg hwarn] at h
      simp [capReached] at h
  · rw [if_neg hcap]

theorem mem_pushFact {fact f : ParseFact} (h : f ∈ (log.pushFact limits fact).parseFacts) :
    f ∈ log.parseFacts ∨ f = fact := by
  unfold pushFact at h
  split at h
  · split at h
    · exact .inl h
    · exact .inl h
  · simpa using h

@[simp] theorem pushFacts_nil : log.pushFacts limits [] = log := rfl

theorem pushFacts_cons (fact : ParseFact) (facts : List ParseFact) :
    log.pushFacts limits (fact :: facts) = (log.pushFact limits fact).pushFacts limits facts := rfl

theorem pushFacts_append (facts facts' : List ParseFact) :
    log.pushFacts limits (facts ++ facts') = (log.pushFacts limits facts).pushFacts limits facts' :=
  List.foldl_append

theorem mem_pushFacts {facts : List ParseFact} {f : ParseFact}
    (h : f ∈ (log.pushFacts limits facts).parseFacts) : f ∈ log.parseFacts ∨ f ∈ facts := by
  induction facts generalizing log with
  | nil => exact .inl h
  | cons fact facts ih =>
    rw [pushFacts_cons] at h
    rcases ih h with h | h
    · rcases mem_pushFact h with h | h
      · exact .inl h
      · exact .inr (h ▸ List.mem_cons_self)
    · exact .inr (List.mem_cons_of_mem _ h)

/-- When the cap is not reached at the end, every fact was appended. -/
theorem pushFacts_of_open {facts : List ParseFact}
    (h : (log.pushFacts limits facts).capReached = false) :
    log.pushFacts limits facts = { log with parseFacts := log.parseFacts ++ facts } := by
  induction facts generalizing log with
  | nil => simp
  | cons fact facts ih =>
    rw [pushFacts_cons] at h ⊢
    have heq := ih h
    rw [heq] at h
    rw [heq, pushFact_of_open h]
    simp

end FactLog

/-- `log'` is `log` after some facts with the property `P` were pushed. -/
def Grows (limits : ResourceLimits) (P : ParseFact → Prop) (log log' : FactLog) : Prop :=
  ∃ facts, (∀ f ∈ facts, P f) ∧ log' = log.pushFacts limits facts

namespace Grows

variable {limits : ResourceLimits} {P : ParseFact → Prop} {log log' log'' : FactLog}

theorem refl (log : FactLog) : Grows limits P log log :=
  ⟨[], by simp, rfl⟩

theorem trans (h : Grows limits P log log') (h' : Grows limits P log' log'') :
    Grows limits P log log'' := by
  obtain ⟨facts, hP, rfl⟩ := h
  obtain ⟨facts', hP', rfl⟩ := h'
  refine ⟨facts ++ facts', fun f hf => ?_, (FactLog.pushFacts_append facts facts').symm⟩
  rcases List.mem_append.mp hf with hf | hf
  · exact hP f hf
  · exact hP' f hf

theorem facts (log : FactLog) {facts : List ParseFact} (h : ∀ f ∈ facts, P f) :
    Grows limits P log (log.pushFacts limits facts) :=
  ⟨facts, h, rfl⟩

theorem push (h : Grows limits P log log') {fact : ParseFact} (hP : P fact) :
    Grows limits P log (log'.pushFact limits fact) :=
  h.trans ⟨[fact], by simpa using hP, rfl⟩

theorem mem {f : ParseFact} (h : Grows limits P log log') (hf : f ∈ log'.parseFacts) :
    f ∈ log.parseFacts ∨ P f := by
  obtain ⟨facts, hP, rfl⟩ := h
  exact (FactLog.mem_pushFacts hf).imp_right (hP f)

/-- Below the cap nothing that was logged is lost. -/
theorem of_open (h : Grows limits P log log') (hopen : log'.capReached = false) :
    log.capReached = false ∧ ∀ f ∈ log.parseFacts, f ∈ log'.parseFacts := by
  obtain ⟨facts, -, rfl⟩ := h
  have heq := FactLog.pushFacts_of_open hopen
  rw [heq] at hopen ⊢
  exact ⟨hopen, fun f hf => List.mem_append_left _ hf⟩

end Grows

/-! ## The top-level scan -/

variable {storage : SourceStorage} {limits : ResourceLimits}

theorem parseStream_grows {key : ObjectKey} {dictionary : Dictionary} {pos pos' : Nat}
    {log log' : FactLog} {stream : StreamObject}
    (h : parseStream storage limits key dictionary pos log = .ok (stream, pos', log')) :
    Grows limits NotEncryption log log' := by
  simp only [parseStream, bind_eq_ok, pure_eq_ok] at h
  obtain ⟨_, -, _, -, _, -, _, -, _, -, hres⟩ := h
  cases hres
  exact ((Grows.refl log).push trivial).push trivial

theorem parseIndirectValue_grows {key : ObjectKey} {pos pos' : Nat} {log log' : FactLog}
    {object : CosObject}
    (h : parseIndirectValue storage limits key pos log = .ok (object, pos', log')) :
    Grows limits NotEncryption log log' := by
  simp only [parseIndirectValue, bind_eq_ok] at h
  obtain ⟨⟨value, mid⟩, -, h⟩ := h
  cases value with
  | dictionary entries =>
    simp only at h
    split at h
    · simp only [bind_eq_ok, pure_eq_ok] at h
      obtain ⟨⟨stream, _, _⟩, hstream, hres⟩ := h
      cases hres
      exact parseStream_grows hstream
    · cases h
      exact Grows.refl log
  | _ =>
    cases h
    exact Grows.refl log

theorem parseIndirectObject_grows {start pos : Nat} {log log' : FactLog} {object : IndirectObject}
    (h : parseIndirectObject storage limits start log = .ok (some (object, pos, log'))) :
    Grows limits NotEncryption log log' := by
  simp only [parseIndirectObject, bind_eq_ok] at h
  obtain ⟨header, -, h⟩ := h
  cases header with
  | none => cases h
  | some header =>
    simp only [bind_eq_ok, pure_eq_ok] at h
    obtain ⟨⟨value, _, _⟩, hvalue, hres⟩ := h
    cases hres
    exact parseIndirectValue_grows hvalue

theorem pushXrefChainFacts_grows {object : Option ObjectKey} {offset : Nat}
    {dictionary : Dictionary} {log log' : FactLog}
    (h : pushXrefChainFacts limits object offset dictionary log = .ok log') :
    Grows limits NotEncryption log log' := by
  simp only [pushXrefChainFacts, bind_eq_ok, pure_eq_ok] at h
  obtain ⟨prev, -, hybrid, -, rfl⟩ := h
  cases prev <;> cases hybrid
  · exact Grows.refl log
  · exact (Grows.refl log).push trivial
  · exact (Grows.refl log).push trivial
  · exact ((Grows.refl log).push trivial).push trivial

theorem parseTrailer_grows {s s' : ScanState} (h : parseTrailer storage limits s = .ok s') :
    Grows limits NotEncryption s.log s'.log := by
  simp only [parseTrailer, bind_eq_ok, pure_eq_ok] at h
  obtain ⟨_, -, _, -, log, hlog, rfl⟩ := h
  exact pushXrefChainFacts_grows hlog

theorem xrefTrailerLoop_grows {fuel : Nat} {s s' : ScanState}
    (h : runLoop (xrefTrailerStep storage limits) (fun s => .ok s) fuel s = .ok s') :
    Grows limits NotEncryption s.log s'.log := by
  refine runLoop_inv (fun t : ScanState => Grows limits NotEncryption s.log t.log)
    (fun r : Except ParseError ScanState => ∀ t, r = .ok t → Grows limits NotEncryption s.log t.log)
    ?_ ?_ ?_ (Grows.refl s.log) s' h
  · intro t t' hinv hstep
    simp only [xrefTrailerStep] at hstep
    repeat' split at hstep
    all_goals cases hstep
    exact hinv
  · intro t r hinv hstep u hu
    simp only [xrefTrailerStep] at hstep
    repeat' split at hstep
    all_goals cases hstep
    · cases hu
      exact hinv
    · have hgrows := parseTrailer_grows hu
      exact hinv.trans hgrows
    · cases hu
      exact hinv
  · intro t hinv u hu
    cases hu
    exact hinv

theorem parseXrefAndTrailer_grows {s s' : ScanState}
    (h : parseXrefAndTrailer storage limits s = .ok s') :
    Grows limits NotEncryption s.log s'.log := by
  simp only [parseXrefAndTrailer, bind_eq_ok] at h
  obtain ⟨pos, -, xref, -, hloop⟩ := h
  exact ((Grows.refl s.log).push trivial).trans (xrefTrailerLoop_grows hloop)

theorem parsePostEofFact_grows {s s' : ScanState} (h : parsePostEofFact storage limits s = .ok s') :
    Grows limits NotEncryption s.log s'.log := by
  simp only [parsePostEofFact, bind_eq_ok, pure_eq_ok] at h
  obtain ⟨pos, -, rest, -, rfl⟩ := h
  dsimp only
  split
  · exact (Grows.refl s.log).push trivial
  · exact Grows.refl s.log

theorem scanObject_grows {s s' : ScanState} (h : scanObject storage limits s = .ok s') :
    Grows limits NotEncryption s.log s'.log := by
  simp only [scanObject, bind_eq_ok] at h
  obtain ⟨parsed, hparsed, h⟩ := h
  cases parsed with
  | none =>
    cases h
    exact Grows.refl s.log
  | some parsed =>
    obtain ⟨object, pos, log⟩ := parsed
    simp only [insertScanned] at h
    split at h
    · cases h
    · cases h
      exact parseIndirectObject_grows hparsed

theorem scanNext_eq_next {r : Except ParseError ScanState} {s : ScanState} :
    scanNext r = .next s ↔ r = .ok s := by
  cases r <;> simp [scanNext]

theorem scanNext_eq_done {r q : Except ParseError ScanState} :
    scanNext r = .done q ↔ ∃ e, r = .error e ∧ q = .error e := by
  cases r with
  | ok s => simp [scanNext]
  | error e =>
    simp only [scanNext, Step.done.injEq, Except.error.injEq, exists_eq_left']
    exact eq_comm

/-- What one pass of the scan does, without the order of its tests. -/
theorem scanStep_next {s s' : ScanState} (h : scanStep storage limits s = .next s') :
    s' = { s with pos := storage.reader.skipLine (storage.reader.skipWsAndComments s.pos) } ∨
    ∃ t, t = { s with pos := storage.reader.skipWsAndComments s.pos } ∧
      (parseXrefAndTrailer storage limits t = .ok s' ∨ parseTrailer storage limits t = .ok s' ∨
        scanObject storage limits t = .ok s') := by
  simp only [scanStep] at h
  repeat' split at h
  all_goals try simp only [scanNext_eq_next] at h
  · cases h
  · cases h
    exact .inl rfl
  · exact .inr ⟨_, rfl, .inl h⟩
  · exact .inr ⟨_, rfl, .inr (.inl h)⟩
  · exact .inr ⟨_, rfl, .inr (.inr h)⟩
  · cases h

/-- The two ways in which the scan ends well: at `%%EOF` or at the end of the input. -/
theorem scanStep_done_ok {s s' : ScanState} (h : scanStep storage limits s = .done (.ok s')) :
    s' = s ∨ parsePostEofFact storage limits
      { s with pos := storage.reader.skipWsAndComments s.pos } = .ok s' := by
  simp only [scanStep] at h
  repeat' split at h
  all_goals try simp only [scanNext_eq_done] at h
  · exact .inr (by simpa using h)
  · cases h
  · obtain ⟨e, -, he⟩ := h
    cases he
  · obtain ⟨e, -, he⟩ := h
    cases he
  · obtain ⟨e, -, he⟩ := h
    cases he
  · cases h
    exact .inl rfl

theorem parseTopLevelObjects_grows {s s' : ScanState}
    (h : parseTopLevelObjects storage limits s = .ok s') :
    Grows limits NotEncryption s.log s'.log := by
  refine runLoop_inv (fun t : ScanState => Grows limits NotEncryption s.log t.log)
    (fun r : Except ParseError ScanState => ∀ t, r = .ok t → Grows limits NotEncryption s.log t.log)
    ?_ ?_ ?_ (Grows.refl s.log) s' h
  · intro t t' hinv hstep
    rcases scanStep_next hstep with rfl | ⟨u, rfl, hu | hu | hu⟩
    · exact hinv
    · have hgrows := parseXrefAndTrailer_grows hu
      exact hinv.trans hgrows
    · have hgrows := parseTrailer_grows hu
      exact hinv.trans hgrows
    · have hgrows := scanObject_grows hu
      exact hinv.trans hgrows
  · rintro t r hinv hstep u rfl
    rcases scanStep_done_ok hstep with rfl | hu
    · exact hinv
    · have hgrows := parsePostEofFact_grows hu
      exact hinv.trans hgrows
  · rintro t hinv u ⟨⟩
    exact hinv

/-- The top-level scan logs no encryption fact. -/
theorem scanDocument_notEncryption {version : PdfVersion} {s : ScanState}
    (h : scanDocument storage limits = .ok (version, s)) :
    ∀ f ∈ s.log.parseFacts, NotEncryption f := by
  simp only [scanDocument, bind_eq_ok, pure_eq_ok] at h
  obtain ⟨⟨offset, v, pos, warnings⟩, -, s', hscan, hres⟩ := h
  cases hres
  intro f hf
  rcases (parseTopLevelObjects_grows hscan).mem hf with hf | hf
  · rcases FactLog.mem_pushFact hf with hf | rfl
    · cases hf
    · trivial
  · exact hf

/-! ## Cross-reference streams and object streams -/

variable {registry : DecoderRegistry}

theorem decodeStream_grows {key : ObjectKey} {stream : StreamObject} {log log' : FactLog}
    {decoded : DecodedStream} (h : decodeStream limits registry key stream log = .ok (decoded, log')) :
    Grows limits NotEncryption log log' := by
  simp only [decodeStream, bind_eq_ok, pure_eq_ok] at h
  obtain ⟨d, -, hres⟩ := h
  cases hres
  refine Grows.facts log fun f hf => ?_
  obtain ⟨fact, -, rfl⟩ := List.mem_map.mp hf
  trivial

theorem parseXrefStream_grows {key : ObjectKey} {stream : StreamObject} {log log' : FactLog}
    {summary : XrefStreamSummary}
    (h : parseXrefStream limits registry key stream log = .ok (summary, log')) :
    Grows limits NotEncryption log log' := by
  simp only [parseXrefStream, bind_eq_ok, pure_eq_ok] at h
  obtain ⟨_, -, _, -, _, -, _, -, _, -, ⟨decoded, log₁⟩, hdecode, _, -, _, -, _, -, _, -, _, -,
    hres⟩ := h
  cases hres
  exact decodeStream_grows hdecode

/-- The trailers that the stream loop adds for one object. -/
def xrefTrailers (object : IndirectObject) : List Trailer :=
  match object.object with
  | .stream stream =>
    if entryIsName stream.dictionary "Type" "XRef" then [⟨stream.dictionary, object.offset⟩] else []
  | _ => []

theorem materializeXref_spec {key : ObjectKey} {offset : Nat} {stream : StreamObject}
    {s s' : MaterializeState} (h : materializeXref limits registry key offset stream s = .ok s') :
    Grows limits NotEncryption s.log s'.log
      ∧ s'.trailers = s.trailers ++ [⟨stream.dictionary, offset⟩] := by
  simp only [materializeXref, bind_eq_ok, pure_eq_ok] at h
  obtain ⟨⟨summary, log₁⟩, hstream, log₂, hchain, rfl⟩ := h
  refine ⟨((Grows.push (parseXrefStream_grows hstream) ?_).trans
    (pushXrefChainFacts_grows hchain)).push ?_, rfl⟩
  all_goals trivial

theorem materializeObjStm_spec {key : ObjectKey} {offset : Nat} {stream : StreamObject}
    {s s' : MaterializeState} (h : materializeObjStm limits registry key offset stream s = .ok s') :
    Grows limits NotEncryption s.log s'.log ∧ s'.trailers = s.trailers := by
  simp only [materializeObjStm, bind_eq_ok, pure_eq_ok] at h
  obtain ⟨⟨decoded, log₁⟩, hdecode, objects, -, rfl⟩ := h
  refine ⟨(Grows.push (decodeStream_grows hdecode) ?_).push ?_, rfl⟩
  all_goals trivial

theorem materializeStream_spec {object : IndirectObject} {s s' : MaterializeState}
    (h : materializeStream limits registry s object = .ok s') :
    Grows limits NotEncryption s.log s'.log
      ∧ s'.trailers = s.trailers ++ xrefTrailers object := by
  unfold materializeStream xrefTrailers at *
  split
  · rename_i stream hobj
    simp only [hobj, bind_eq_ok] at h
    obtain ⟨mid, hmid, h⟩ := h
    have hxref : Grows limits NotEncryption s.log mid.log ∧ mid.trailers = s.trailers ++
        (if entryIsName stream.dictionary "Type" "XRef" then [⟨stream.dictionary, object.offset⟩]
          else []) := by
      unfold whenType at hmid
      split at hmid
      · rename_i hx
        rw [if_pos hx]
        exact materializeXref_spec hmid
      · rename_i hx
        cases hmid
        rw [if_neg hx, List.append_nil]
        exact ⟨Grows.refl _, rfl⟩
    unfold whenType at h
    split at h
    · obtain ⟨hlog, htrailers⟩ := materializeObjStm_spec h
      exact ⟨hxref.1.trans hlog, htrailers.trans hxref.2⟩
    · cases h
      exact hxref
  · rename_i hobj
    split at h
    · rename_i stream hstream
      exact absurd hstream (hobj stream)
    · cases h
      exact ⟨Grows.refl _, (List.append_nil _).symm⟩

/-- Materialisation logs no encryption fact, and the only trailers it adds are those of the
cross-reference streams of the store. -/
theorem materialize_spec {objects objects' : ObjectStore} {trailers trailers' : List Trailer}
    {log log' : FactLog}
    (h : materializeStreamBackedStructures limits registry objects trailers log
      = .ok (objects', trailers', log')) :
    Grows limits NotEncryption log log'
      ∧ trailers' = trailers ++ objects.values.flatMap xrefTrailers := by
  simp only [materializeStreamBackedStructures, bind_eq_ok, pure_eq_ok] at h
  obtain ⟨s, hfold, store, -, hres⟩ := h
  cases hres
  generalize objects.values = values at hfold ⊢
  suffices H : ∀ {s₀ : MaterializeState},
      values.foldlM (materializeStream limits registry) s₀ = .ok s →
      Grows limits NotEncryption s₀.log s.log
        ∧ s.trailers = s₀.trailers ++ values.flatMap xrefTrailers from H hfold
  clear hfold
  induction values with
  | nil =>
    intro s₀ hs
    rw [List.foldlM_nil, pure_eq_ok] at hs
    subst hs
    exact ⟨Grows.refl _, by simp⟩
  | cons object values ih =>
    intro s₀ hs
    rw [List.foldlM_cons, bind_eq_ok] at hs
    obtain ⟨mid, hmid, hs⟩ := hs
    obtain ⟨hlog, htrailers⟩ := materializeStream_spec hmid
    obtain ⟨hlog', htrailers'⟩ := ih hs
    refine ⟨hlog.trans hlog', ?_⟩
    rw [htrailers', htrailers, List.flatMap_cons, List.append_assoc]

end Pdfv
