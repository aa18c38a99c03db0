import Pdfv.Parser.XrefReading
/-!
# Scanning one revision

The top-level scan moves over the objects of a revision, its cross-reference section and its trailer,
and over the digits after `startxref` one by one. It stops at `%%EOF`. `ScanReach` collects the passes;
a pass moves at least one byte, so the passes never outrun the fuel.
-/

namespace Pdfv

open Loop Fallible

theorem Blank.append {gap gap' : Bytes} (h : Blank gap) (h' : Blank gap') : Blank (gap ++ gap') := by
  induction h with
  | nil => exact h'
  | ws hb _ ih => exact .ws hb ih
  | @comment body eol gap hbody hmarker heol _ ih =>
    have hcomment := Blank.comment hbody hmarker heol ih
    simpa using hcomment

theorem Lead.length_le {lead : Bytes} (h : Lead lead) : lead.length ≤ 1 := by
  rcases h with rfl | rfl
  · exact Nat.zero_le 1
  · exact Nat.le_refl 1

theorem startsToken_of_ne {b : UInt8} {rest : Bytes} (hws : isWs b = false) (hpercent : b ≠ 37) :
    StartsToken (b :: rest) := by
  intro c hc
  cases hc
  exact ⟨hws, fun h => absurd h hpercent⟩

theorem startsToken_trailer (rest : Bytes) : StartsToken (utf8 "trailer" ++ rest) := by
  rw [trailerMarker_eq]
  exact startsToken_of_ne rfl (by decide)

section Xref

variable {limits : ResourceLimits} {bytes rest : Bytes}

theorem XrefSubsection.length_pos (subsection : XrefSubsection) : 2 ≤ subsection.bytes.length := by
  unfold XrefSubsection.bytes
  rw [List.length_append, List.length_cons, List.length_append, List.length_append]
  have hfirst := List.length_pos_iff.mpr subsection.first.ne
  omega

/-- Nothing stands before any of the entries of a subsection. -/
def XrefSubsection.complies (subsection : XrefSubsection) : Bool :=
  entriesComply subsection.eol.lead subsection.entries

/-- The passes over all subsections. -/
theorem xrefSteps (limits : ResourceLimits) (subsections : List XrefSubsection) {gap : Bytes}
    (hgap : Blank gap) {s : XrefState}
    (h : At bytes s.pos (gap ++ (subsections.flatMap XrefSubsection.bytes ++ rest)))
    (hlimit : s.parsedEntries + (subsections.map fun sub => sub.entries.length).sum
      ≤ limits.maxObjects) :
    ∃ n pos gap', Steps (xrefStep limits (readerOf bytes)) n s
        ⟨pos, s.compliant && subsections.all XrefSubsection.complies,
          s.parsedEntries + (subsections.map fun sub => sub.entries.length).sum⟩
      ∧ Blank gap' ∧ At bytes pos (gap' ++ rest) ∧ s.pos + n ≤ pos := by
  induction subsections generalizing gap s with
  | nil =>
    refine ⟨0, s.pos, gap, ?_, hgap, h, Nat.le_refl _⟩
    rw [List.all_nil, Bool.and_true, List.map_nil, List.sum_nil, Nat.add_zero]
    exact .refl s
  | cons subsection subsections ih =>
    rw [List.flatMap_cons, List.append_assoc] at h
    rw [List.map_cons, List.sum_cons] at hlimit ⊢
    obtain ⟨pos, hstep, hpos⟩ := xrefStep_subsection limits subsection hgap h (by omega)
    have hlead := leadAfter_lead subsection.eol.lead_lead subsection.entries
    obtain ⟨n, stop, gap', hsteps, hgap', hstop, hmoved⟩ := @ih _ hlead.blank
      ⟨pos, s.compliant && entriesComply subsection.eol.lead subsection.entries,
        s.parsedEntries + subsection.entries.length⟩ hpos (by dsimp only; omega)
    dsimp only at hsteps hmoved
    rw [Bool.and_assoc, Nat.add_assoc] at hsteps
    refine ⟨n + 1, stop, gap', .next hstep hsteps, hgap', hstop, ?_⟩
    -- the subsection is longer than what its line end leaves behind
    have hbefore := h.length
    have hafter := hpos.length
    have hshort := hlead.length_le
    have hlong := subsection.length_pos
    simp only [List.length_append] at hbefore hafter
    omega

/-- The subsection loop reads all entries and stops at the keyword `trailer`. -/
theorem xrefLoop_at (limits : ResourceLimits) (xref : XrefSection) (gap : Gap) {pos : Nat}
    (h : At bytes pos (xref.eol.bytes ++ (xref.subsections.flatMap XrefSubsection.bytes
      ++ (gap.bytes ++ (utf8 "trailer" ++ rest)))))
    (hlimit : xref.entryCount ≤ limits.maxObjects) :
    ∃ stop, runLoop (xrefStep limits (readerOf bytes)) (fun x => .ok x)
        ((readerOf bytes).len - pos + 1) ⟨pos, true, 0⟩
        = .ok ⟨stop, xref.subsections.all XrefSubsection.complies, xref.entryCount⟩
      ∧ At bytes stop (utf8 "trailer" ++ rest) := by
  have hstart : At bytes (⟨pos, true, 0⟩ : XrefState).pos (xref.eol.bytes
      ++ (xref.subsections.flatMap XrefSubsection.bytes
        ++ (gap.bytes ++ (utf8 "trailer" ++ rest)))) := h
  obtain ⟨n, stop, lead, hsteps, hlead, hstop, hmoved⟩ := xrefSteps limits xref.subsections
    xref.eol.blank hstart (by rw [Nat.zero_add]; exact hlimit)
  dsimp only at hsteps hmoved
  rw [Bool.true_and, Nat.zero_add] at hsteps
  have hgap : At bytes stop ((lead ++ gap.bytes) ++ (utf8 "trailer" ++ rest)) := by
    rw [List.append_assoc]
    exact hstop
  have hskip := At.skipBlank (hlead.append gap.blank) (startsToken_trailer rest) hgap
  have hend := hgap.skip
  have hdone : ∀ complies count, xrefStep limits (readerOf bytes) ⟨stop, complies, count⟩
      = .done (.ok ⟨stop + (lead ++ gap.bytes).length, complies, count⟩) := by
    intro complies count
    unfold xrefStep
    dsimp only
    rw [hskip, hend.startsWith_self, Bool.or_true]
    rfl
  refine ⟨stop + (lead ++ gap.bytes).length, ?_, hend⟩
  have hle := hstop.le
  obtain ⟨fuel, hfuel⟩ : ∃ fuel, (readerOf bytes).len - pos + 1 = n + (fuel + 1) := by
    refine ⟨bytes.length - pos - n, ?_⟩
    show bytes.length - pos + 1 = n + (bytes.length - pos - n + 1)
    omega
  rw [hfuel, hsteps.runLoop, runLoop_done (hdone _ _)]
  rfl

/-! ## Trailers -/

/-- The offsets of a trailer dictionary are not negative. -/
structure ChainOffsets (dictionary : Dictionary) : Prop where
  prev : ∀ value, integerFromDictionary dictionary "Prev" = some value → 0 ≤ value
  xrefStm : ∀ value, integerFromDictionary dictionary "XRefStm" = some value → 0 ≤ value

theorem pushXrefChainFacts_at {dictionary : Dictionary} (hoffsets : ChainOffsets dictionary)
    (offset : Nat) (log : FactLog) :
    ∃ log', pushXrefChainFacts limits none offset dictionary log = .ok log' := by
  have hentry : ∀ key, (∀ value, integerFromDictionary dictionary key = some value →
      0 ≤ value) → ∃ entry, optionalNonNegativeOffset dictionary key = .ok entry := by
    intro key hkey
    unfold optionalNonNegativeOffset
    cases hvalue : integerFromDictionary dictionary key with
    | none => exact ⟨none, rfl⟩
    | some value =>
      have hunsigned : u64OfInt value = some value.toNat := if_pos (hkey value hvalue)
      dsimp only
      rw [hunsigned]
      exact ⟨some value.toNat, rfl⟩
  obtain ⟨prev, hprev⟩ := hentry "Prev" hoffsets.prev
  obtain ⟨hybrid, hhybrid⟩ := hentry "XRefStm" hoffsets.xrefStm
  unfold pushXrefChainFacts
  dsimp only
  rw [hprev, ok_bind, hhybrid, ok_bind]
  exact ⟨_, rfl⟩

/-- `trailer` and a dictionary that the parser reads. -/
theorem parseTrailer_reads (gap : Gap) {s : ScanState} {dictionary : Dictionary} {stop : Nat}
    (h : At bytes s.pos (utf8 "trailer" ++ (gap.bytes ++ 60 :: rest)))
    (hread : (readerOf bytes).parseDictionary limits 0
        (s.pos + (utf8 "trailer").length + gap.bytes.length) = .ok (dictionary, stop))
    (hoffsets : ChainOffsets dictionary) :
    ∃ log, pushXrefChainFacts limits none (s.pos + (utf8 "trailer").length + gap.bytes.length)
        dictionary s.log = .ok log ∧
      parseTrailer (.memory bytes) limits s = .ok { s with
        pos := stop
        log
        trailers := s.trailers
          ++ [⟨dictionary, s.pos + (utf8 "trailer").length + gap.bytes.length⟩] } := by
  have hskip := At.skipBlank gap.blank (startsToken_of_ne rfl (by decide)) h.skip
  obtain ⟨log, hlog⟩ : ∃ log, pushXrefChainFacts limits none
      (s.pos + (utf8 "trailer").length + gap.bytes.length) dictionary s.log = .ok log :=
    pushXrefChainFacts_at hoffsets _ _
  refine ⟨log, hlog, ?_⟩
  unfold parseTrailer
  dsimp only
  rw [h.consumeBytes, ok_bind]
  rw [hskip, hread, ok_bind, hlog, ok_bind]
  rfl

/-- `trailer` and its dictionary. -/
theorem parseTrailer_at (trailer : TrailerText limits) (gap : Gap) {s : ScanState}
    (h : At bytes s.pos (utf8 "trailer" ++ (gap.bytes ++ (trailer.bytes ++ rest)))) :
    ∃ s', parseTrailer (.memory bytes) limits s = .ok s' ∧ At bytes s'.pos rest
      ∧ s'.objects = s.objects
      ∧ ∃ offset, s'.trailers = s.trailers ++ [⟨trailer.dictionary, offset⟩] := by
  have hdictionary := h.skip.skip
  obtain ⟨pre, hbytes, hpre⟩ := hdictionary.split
  have hread := trailer.reads pre rest
  rw [← hbytes, hpre] at hread
  obtain ⟨tail, htail⟩ := trailer.starts
  have hstarts : At bytes s.pos (utf8 "trailer" ++ (gap.bytes ++ 60 :: (tail ++ rest))) := by
    rw [htail] at h
    exact h
  obtain ⟨log, -, hparse⟩ := parseTrailer_reads gap hstarts hread ⟨trailer.prev, trailer.xrefStm⟩
  exact ⟨_, hparse, hdictionary.skip, rfl, _, rfl⟩

/-- A cross-reference section is read up to its trailer, with one fact about its lines. -/
theorem parseXrefAndTrailer_section (limits : ResourceLimits) (xref : XrefSection) (gap : Gap)
    {s : ScanState} (h : At bytes s.pos (xref.bytes ++ (gap.bytes ++ (utf8 "trailer" ++ rest))))
    (hlimit : xref.entryCount ≤ limits.maxObjects) :
    ∃ pos, At bytes pos (utf8 "trailer" ++ rest) ∧
      parseXrefAndTrailer (.memory bytes) limits s
        = parseTrailer (.memory bytes) limits { s with
          pos
          log := s.log.pushFact limits (.xref ⟨none, some s.pos, none⟩
            (if xref.subsections.all XrefSubsection.complies then .eolMarkersComply
              else .malformedClassic)) } := by
  rw [XrefSection.bytes, List.append_assoc, List.append_assoc] at h
  obtain ⟨pos, hloop, hpos⟩ := xrefLoop_at limits xref gap h.skip hlimit
  refine ⟨pos, hpos, ?_⟩
  have hstay := hpos.skipToken (startsToken_trailer _)
  have hinside : ¬ pos ≥ (readerOf bytes).len := by
    have hlen := hpos.length
    rw [trailerMarker_eq, List.cons_append, List.length_cons] at hlen
    show ¬ pos ≥ bytes.length
    omega
  have hstep : ∀ log, xrefTrailerStep (.memory bytes) limits { s with pos, log }
      = .done (parseTrailer (.memory bytes) limits { s with pos, log }) := by
    intro log
    unfold xrefTrailerStep
    dsimp only
    rw [hstay, if_neg hinside, if_pos hpos.startsWith_self]
  unfold parseXrefAndTrailer
  dsimp only
  rw [h.consumeBytes, ok_bind]
  rw [hloop, ok_bind, runLoop_done (hstep _)]

/-- A cross-reference section and the trailer after it. -/
theorem parseXrefAndTrailer_at (xref : XrefSection) (gap gap' : Gap) (trailer : TrailerText limits)
    {s : ScanState}
    (h : At bytes s.pos (xref.bytes ++ (gap.bytes ++ (utf8 "trailer" ++ (gap'.bytes
      ++ (trailer.bytes ++ rest))))))
    (hlimit : xref.entryCount ≤ limits.maxObjects) :
    ∃ s', parseXrefAndTrailer (.memory bytes) limits s = .ok s' ∧ At bytes s'.pos rest
      ∧ s'.objects = s.objects
      ∧ ∃ offset, s'.trailers = s.trailers ++ [⟨trailer.dictionary, offset⟩] := by
  obtain ⟨pos, hpos, hsection⟩ := parseXrefAndTrailer_section limits xref gap h hlimit
  rw [hsection]
  have hat : ∀ log, At bytes ({ s with pos, log } : ScanState).pos
      (utf8 "trailer" ++ (gap'.bytes ++ (trailer.bytes ++ rest))) := fun _ => hpos
  exact parseTrailer_at trailer gap' (hat _)

end Xref

/-! ## Passes of the scan -/

/-- Some passes of the scan, each of which moves at least one byte. -/
def ScanReach (bytes : Bytes) (limits : ResourceLimits) (s s' : ScanState) : Prop :=
  ∃ n, Steps (scanStep (.memory bytes) limits) n s s' ∧ s.pos + n ≤ s'.pos

section Scan

variable {limits : ResourceLimits} {bytes rest : Bytes} {s s' s'' : ScanState}

theorem ScanReach.refl (s : ScanState) : ScanReach bytes limits s s :=
  ⟨0, .refl s, Nat.le_refl _⟩

theorem ScanReach.trans (h : ScanReach bytes limits s s') (h' : ScanReach bytes limits s' s'') :
    ScanReach bytes limits s s'' := by
  obtain ⟨n, hsteps, hpos⟩ := h
  obtain ⟨n', hsteps', hpos'⟩ := h'
  exact ⟨n + n', hsteps.trans hsteps', by omega⟩

theorem ScanReach.step (h : scanStep (.memory bytes) limits s = .next s') (hpos : s.pos < s'.pos) :
    ScanReach bytes limits s s' :=
  ⟨1, .next h (.refl s'), hpos⟩

/-- What a scan ends with, when it reaches a last pass. -/
theorem ScanReach.result (h : ScanReach bytes limits s s') (hle : s'.pos ≤ bytes.length)
    {result : Except ParseError ScanState}
    (hdone : scanStep (.memory bytes) limits s' = .done result) :
    parseTopLevelObjects (.memory bytes) limits s = result := by
  obtain ⟨n, hsteps, hpos⟩ := h
  have hfuel : (SourceStorage.memory bytes).len - s.pos + 1 = n + (bytes.length - s.pos - n + 1) := by
    rw [SourceStorage.len_memory]
    omega
  unfold parseTopLevelObjects
  rw [hfuel, hsteps.runLoop, runLoop_done hdone]

theorem At.lt_len {pos : Nat} {b : UInt8} (h : At bytes pos (b :: rest)) :
    pos < (readerOf bytes).len := by
  have hlen := h.length
  rw [List.length_cons] at hlen
  show pos < bytes.length
  omega

/-- A pass starts by skipping what stands before the next token. -/
theorem scanStep_skip {gap : Bytes} (hgap : Blank gap) (htoken : StartsToken rest) (hne : rest ≠ [])
    (h : At bytes s.pos (gap ++ rest)) :
    scanStep (.memory bytes) limits s
      = scanStep (.memory bytes) limits { s with pos := s.pos + gap.length } := by
  have hskip := At.skipBlank hgap htoken h
  have hstay := h.skip.skipToken htoken
  have hinside : s.pos + gap.length < (readerOf bytes).len := by
    obtain ⟨b, tail, rfl⟩ := List.exists_cons_of_ne_nil hne
    exact h.skip.lt_len
  have hinside' : s.pos < (readerOf bytes).len := by omega
  unfold scanStep
  dsimp only
  rw [if_pos hinside, if_pos hinside', hskip, hstay]

/-- At a digit the scan looks for an indirect object. -/
theorem scanStep_digit {b : UInt8} (hb : isDigit b = true) (h : At bytes s.pos (b :: rest)) :
    scanStep (.memory bytes) limits s = scanNext (scanObject (.memory bytes) limits s) := by
  unfold scanStep
  dsimp only
  rw [if_pos h.lt_len, h.skipToken (startsToken_digit hb),
    not_startsWith_digit h hb eofMarker_eq rfl, not_startsWith_digit h hb startxrefMarker_eq rfl,
    not_startsWith_digit h hb xrefMarker_eq rfl, not_startsWith_digit h hb trailerMarker_eq rfl]
  rfl

theorem scanStep_object (text : ObjectText limits) (h : At bytes s.pos (text.bytes ++ rest))
    (hlimit : s.objects.size + 1 ≤ limits.maxObjects) :
    scanStep (.memory bytes) limits s = .next { s with
      pos := s.pos + text.bytes.length
      objects := s.objects.insertObject ⟨text.key, s.pos, text.value⟩ } := by
  obtain ⟨b, tail, htail, hdigit⟩ := text.starts
  obtain ⟨pre, hbytes, hpre⟩ := h.split
  have hread := text.reads pre rest s.log
  rw [← hbytes, hpre] at hread
  have hhead : At bytes s.pos (b :: (tail ++ rest)) := by
    rw [htail] at h
    exact h
  rw [scanStep_digit hdigit hhead]
  unfold scanObject insertScanned
  rw [hread, ok_bind]
  dsimp only
  rw [if_neg (by omega)]
  rfl

/-! ## The objects of a revision -/

/-- No object of the store is a stream. -/
def ObjectStore.Plain (objects : ObjectStore) : Prop :=
  ∀ key object, objects.get? key = some object → ∀ stream, object.object ≠ .stream stream

/-- The last object with a key in a list of object texts. -/
def lastText (objects : List (Gap × ObjectText limits)) (key : ObjectKey) : Option CosObject :=
  (objects.reverse.find? fun object => object.2.key = key).map fun object => object.2.value

theorem lastText_cons (object : Gap × ObjectText limits)
    (objects : List (Gap × ObjectText limits)) (key : ObjectKey) :
    lastText (object :: objects) key
      = (lastText objects key).or (if object.2.key = key then some object.2.value else none) := by
  unfold lastText
  rw [List.reverse_cons, List.find?_append]
  cases objects.reverse.find? fun object => object.2.key = key with
  | some found => rfl
  | none =>
    by_cases hkey : object.2.key = key
    · rw [if_pos hkey]
      simp [hkey]
    · rw [if_neg hkey]
      simp [hkey]

/-- The passes over the objects: the store maps every key to its last object. -/
theorem scan_objects (objects : List (Gap × ObjectText limits))
    (h : At bytes s.pos (objects.flatMap (fun object => object.1.bytes ++ object.2.bytes) ++ rest))
    (hlimit : s.objects.size + objects.length ≤ limits.maxObjects) (hplain : s.objects.Plain) :
    ∃ s', ScanReach bytes limits s s' ∧ At bytes s'.pos rest ∧ s'.trailers = s.trailers
      ∧ s'.objects.Plain
      ∧ ∀ key, (s'.objects.get? key).map IndirectObject.object
        = (lastText objects key).or ((s.objects.get? key).map IndirectObject.object) := by
  induction objects generalizing s with
  | nil => exact ⟨s, .refl s, h, rfl, hplain, fun key => rfl⟩
  | cons object objects ih =>
    obtain ⟨gap, text⟩ := object
    rw [List.flatMap_cons, List.append_assoc, List.append_assoc] at h
    rw [List.length_cons] at hlimit
    obtain ⟨b, tail, htail, hdigit⟩ := text.starts
    have htoken : StartsToken (text.bytes ++ (objects.flatMap
        (fun object => object.1.bytes ++ object.2.bytes) ++ rest)) := by
      rw [htail]
      exact startsToken_digit hdigit
    have hne : text.bytes ++ (objects.flatMap
        (fun object => object.1.bytes ++ object.2.bytes) ++ rest) ≠ [] := by
      rw [htail]
      exact List.cons_ne_nil _ _
    have hat : At bytes ({ s with pos := s.pos + gap.bytes.length } : ScanState).pos (text.bytes
        ++ (objects.flatMap (fun object => object.1.bytes ++ object.2.bytes) ++ rest)) := h.skip
    have hstep : scanStep (.memory bytes) limits s = .next { s with
        pos := s.pos + gap.bytes.length + text.bytes.length
        objects := s.objects.insertObject ⟨text.key, s.pos + gap.bytes.length, text.value⟩ } := by
      rw [scanStep_skip gap.blank htoken hne h, scanStep_object text hat (by dsimp only; omega)]
    have hsize := OrdMap.size_insert_le s.objects text.key
      ⟨text.key, s.pos + gap.bytes.length, text.value⟩
    have hget := fun key => OrdMap.get?_insert s.objects key text.key
      (⟨text.key, s.pos + gap.bytes.length, text.value⟩ : IndirectObject)
    have hinserted : (s.objects.insertObject
        ⟨text.key, s.pos + gap.bytes.length, text.value⟩).Plain := by
      intro key object hobject
      unfold ObjectStore.insertObject at hobject
      rw [hget] at hobject
      split at hobject
      · cases hobject
        exact text.plain
      · exact hplain key object hobject
    obtain ⟨s', hreach, hend, htrailers, hplain', hlast⟩ := @ih { s with
        pos := s.pos + gap.bytes.length + text.bytes.length
        objects := s.objects.insertObject ⟨text.key, s.pos + gap.bytes.length, text.value⟩ }
      hat.skip (by
        show (s.objects.insert text.key _).size + _ ≤ _
        omega) hinserted
    have hlong : 0 < text.bytes.length := by
      rw [htail]
      exact Nat.succ_pos _
    refine ⟨s', (ScanReach.step hstep (by dsimp only; omega)).trans hreach, hend, htrailers,
      hplain', fun key => ?_⟩
    rw [hlast, lastText_cons, Option.or_assoc]
    congr 1
    unfold ObjectStore.insertObject
    rw [hget]
    by_cases hkey : text.key = key
    · rw [if_pos hkey, if_pos hkey.symm]
      rfl
    · rw [if_neg hkey, if_neg (Ne.symm hkey)]
      rfl

/-! ## The trailer of a revision -/

theorem scanStep_trailer (h : At bytes s.pos (utf8 "trailer" ++ rest)) :
    scanStep (.memory bytes) limits s = scanNext (parseTrailer (.memory bytes) limits s) := by
  have hhead : At bytes s.pos (116 :: ([114, 97, 105, 108, 101, 114] ++ rest)) := by
    rw [trailerMarker_eq] at h
    exact h
  unfold scanStep
  dsimp only
  rw [if_pos hhead.lt_len, h.skipToken (startsToken_trailer rest),
    hhead.not_startsWith eofMarker_eq (by decide), hhead.not_startsWith startxrefMarker_eq (by decide),
    hhead.not_startsWith xrefMarker_eq (by decide), h.startsWith_self]
  rfl

theorem startsToken_xref (rest : Bytes) : StartsToken (utf8 "xref" ++ rest) := by
  rw [xrefMarker_eq]
  exact startsToken_of_ne rfl (by decide)

theorem scanStep_xref (h : At bytes s.pos (utf8 "xref" ++ rest)) :
    scanStep (.memory bytes) limits s = scanNext (parseXrefAndTrailer (.memory bytes) limits s) := by
  have hhead : At bytes s.pos (120 :: ([114, 101, 102] ++ rest)) := by
    rw [xrefMarker_eq] at h
    exact h
  unfold scanStep
  dsimp only
  rw [if_pos hhead.lt_len, h.skipToken (startsToken_xref rest),
    hhead.not_startsWith eofMarker_eq (by decide), hhead.not_startsWith startxrefMarker_eq (by decide),
    h.startsWith_self]
  rfl

/-- The pass over the trailer of a revision, with or without a cross-reference section. -/
theorem scan_trailer (revision : Revision limits)
    (h : At bytes s.pos (revision.xrefBytes ++ (revision.beforeTrailer.bytes
      ++ (revision.trailerBytes ++ rest))))
    (hlimit : revision.entryCount ≤ limits.maxObjects) :
    ∃ s', ScanReach bytes limits s s'
      ∧ At bytes s'.pos (revision.beforeStartxref.bytes ++ (revision.endBytes ++ rest))
      ∧ s'.objects = s.objects
      ∧ ∃ offset, s'.trailers = s.trailers ++ [⟨revision.trailer.dictionary, offset⟩] := by
  have hfour : 0 < (utf8 "trailer").length := by
    rw [trailerMarker_eq]
    exact Nat.succ_pos _
  unfold Revision.trailerBytes at h
  simp only [List.append_assoc] at h
  unfold Revision.xrefBytes at h
  cases hxref : revision.xref with
  | none =>
    rw [hxref] at h
    dsimp only at h
    rw [List.nil_append] at h
    have hat : At bytes ({ s with pos := s.pos + revision.beforeTrailer.bytes.length } :
        ScanState).pos _ := h.skip
    obtain ⟨s', hparse, hend, hobjects, htrailers⟩ :=
      parseTrailer_at revision.trailer revision.afterTrailer hat
    refine ⟨s', ScanReach.step ?_ ?_, hend, hobjects, htrailers⟩
    · have hne : ∀ more, utf8 "trailer" ++ more ≠ [] := by
        intro more
        rw [trailerMarker_eq]
        exact List.cons_ne_nil _ _
      rw [scanStep_skip revision.beforeTrailer.blank (startsToken_trailer _) (hne _) h,
        scanStep_trailer hat, hparse]
      rfl
    · have hbefore := h.length
      have hafter := hend.length
      simp only [List.length_append] at hbefore hafter
      omega
  | some located =>
    obtain ⟨gap, xref⟩ := located
    unfold Revision.entryCount at hlimit
    rw [hxref] at h hlimit
    dsimp only at h hlimit
    rw [List.append_assoc] at h
    have hat : At bytes ({ s with pos := s.pos + gap.bytes.length } : ScanState).pos _ := h.skip
    obtain ⟨s', hparse, hend, hobjects, htrailers⟩ := parseXrefAndTrailer_at xref
      revision.beforeTrailer revision.afterTrailer revision.trailer hat hlimit
    refine ⟨s', ScanReach.step ?_ ?_, hend, hobjects, htrailers⟩
    · have hne : ∀ more, utf8 "xref" ++ more ≠ [] := by
        intro more
        rw [xrefMarker_eq]
        exact List.cons_ne_nil _ _
      unfold XrefSection.bytes at h hat
      rw [List.append_assoc] at h hat
      rw [scanStep_skip gap.blank (startsToken_xref _) (hne _) h, scanStep_xref hat, hparse]
      rfl
    · have hbefore := h.length
      have hafter := hend.length
      simp only [List.length_append] at hbefore hafter
      omega

/-! ## The end of a revision -/

theorem startsToken_eof (rest : Bytes) : StartsToken (eofMarker ++ rest) := by
  intro b hb
  rw [eofMarker_eq] at hb
  cases hb
  exact ⟨rfl, fun _ => List.prefix_append _ _⟩

theorem eof_ne_nil (rest : Bytes) : eofMarker ++ rest ≠ [] := by
  rw [eofMarker_eq]
  exact List.cons_ne_nil _ _

/-- At `%%EOF` the scan ends, with the objects and trailers it has. -/
theorem scanStep_eof {gap : Bytes} (hgap : Blank gap)
    (h : At bytes s.pos (gap ++ (eofMarker ++ rest))) :
    ∃ s', scanStep (.memory bytes) limits s = .done (.ok s') ∧ s'.objects = s.objects
      ∧ s'.trailers = s.trailers := by
  have hat : At bytes ({ s with pos := s.pos + gap.length } : ScanState).pos (eofMarker ++ rest) :=
    h.skip
  have hinside : s.pos + gap.length < (readerOf bytes).len := by
    have hhead := hat
    rw [eofMarker_eq] at hhead
    exact hhead.lt_len
  have hrest : At bytes (s.pos + gap.length + eofMarker.length) (rest ++ []) := by
    rw [List.append_nil]
    exact hat.skip
  have hslice := hrest.slice
  have hlen := hat.skip.length
  dsimp only at hlen
  rw [← hlen] at hslice
  rw [scanStep_skip hgap (startsToken_eof rest) (eof_ne_nil rest) h]
  unfold scanStep parsePostEofFact
  dsimp only
  rw [if_pos hinside, hat.skipToken (startsToken_eof rest), hat.startsWith_self, if_pos rfl,
    hat.consumeBytes, ok_bind]
  have hread : (readerOf bytes).slice (s.pos + gap.length + eofMarker.length) (readerOf bytes).len
      = .ok rest := hslice
  rw [hread, ok_bind]
  exact ⟨_, rfl, rfl, rfl⟩

theorem foldl_digits_le {n m : Nat} (h : n ≤ m) (digits : Bytes) :
    digits.foldl (fun n b => n * 10 + digitValue b) n
      ≤ digits.foldl (fun n b => n * 10 + digitValue b) m := by
  induction digits generalizing n m with
  | nil => exact h
  | cons b digits ih =>
    refine ih ?_
    show n * 10 + digitValue b ≤ m * 10 + digitValue b
    omega

/-- A numeral without its first digit is no larger. -/
theorem digitsValue_tail_le (b : UInt8) (digits : Bytes) :
    digitsValue digits ≤ digitsValue (b :: digits) :=
  foldl_digits_le (Nat.zero_le _) digits

theorem Eol.isWs_of_mem {eol : Eol} {b : UInt8} (hb : b ∈ eol.bytes) : isWs b = true := by
  cases eol with
  | lf => cases List.mem_singleton.mp hb; rfl
  | cr => cases List.mem_singleton.mp hb; rfl
  | crlf =>
    rcases List.mem_cons.mp hb with rfl | hb
    · rfl
    · cases List.mem_singleton.mp hb; rfl

theorem Eol.ne_nil (eol : Eol) : eol.bytes ≠ [] := by
  cases eol with
  | lf => exact List.cons_ne_nil _ _
  | cr => exact List.cons_ne_nil _ _
  | crlf => exact List.cons_ne_nil _ _

theorem isDigit_eq_false_of_isWs {b : UInt8} (h : isWs b = true) : isDigit b = false := by
  unfold isWs at h
  unfold isDigit
  grind

/-- Digits before a line end and `%%EOF` are no object header: a number that fits `u32` is left for
the scan to skip, a larger one is an error. -/
theorem parseObjectHeader_digits (eol : Eol) {digits : Bytes} {pos : Nat}
    (h : At bytes pos (digits ++ (eol.bytes ++ (eofMarker ++ rest))))
    (hdigits : ∀ b ∈ digits, isDigit b = true) (hne : digits ≠ []) :
    parseObjectHeader (readerOf bytes) pos
      = if digitsValue digits ≥ u32Size then .error (.bad "unsigned integer out of range")
        else .ok none := by
  have hstop : ∀ b, (eol.bytes ++ (eofMarker ++ rest)).head? = some b → isDigit b = false := by
    intro b hb
    obtain ⟨c, more, hc⟩ := List.exists_cons_of_ne_nil eol.ne_nil
    rw [hc] at hb
    cases hb
    refine isDigit_eq_false_of_isWs (eol.isWs_of_mem ?_)
    rw [hc]
    exact List.mem_cons_self
  have hnil : At bytes pos ([] ++ (digits ++ (eol.bytes ++ (eofMarker ++ rest)))) := h
  have hnumber := hnil.parseUnsigned u32Size .nil hdigits hne hstop
  have hafter := h.skip
  have heof : ∀ b, (eofMarker ++ rest).head? = some b → isWs b = false ∧ isDigit b = false := by
    intro b hb
    rw [eofMarker_eq] at hb
    cases hb
    exact ⟨rfl, rfl⟩
  have hws := hafter.skipRequiredWs (fun b hb => Eol.isWs_of_mem hb) eol.ne_nil
    (fun b hb => (heof b hb).1)
  have hmarker : At bytes (pos + digits.length + eol.bytes.length) ([] ++ (eofMarker ++ rest)) :=
    hafter.skip
  have hgeneration := hmarker.parseUnsigned_none u16Size .nil (startsToken_eof rest)
    (fun b hb => (heof b hb).2)
  unfold parseObjectHeader ByteSource.parseUnsignedU32 ByteSource.parseUnsignedU16
  rw [hnumber]
  split
  · rfl
  · rw [ok_bind]
    dsimp only
    rw [List.length_nil, Nat.add_zero, hws, ok_bind, hgeneration, ok_bind]
    rfl

/-- The digits after `startxref` are skipped one by one. -/
theorem scan_digits (eol : Eol) {digits : Bytes} (hdigits : ∀ b ∈ digits, isDigit b = true)
    (hvalue : digitsValue digits < u32Size) {gap : Bytes} (hgap : Blank gap)
    (h : At bytes s.pos (gap ++ (digits ++ (eol.bytes ++ (eofMarker ++ rest))))) :
    ∃ s' gap', ScanReach bytes limits s s' ∧ Blank gap' ∧ At bytes s'.pos (gap' ++ (eofMarker ++ rest))
      ∧ s'.objects = s.objects ∧ s'.trailers = s.trailers := by
  induction digits generalizing s gap with
  | nil =>
    refine ⟨s, gap ++ eol.bytes, .refl s, hgap.append eol.blank, ?_, rfl, rfl⟩
    rw [List.append_assoc]
    exact h
  | cons b digits ih =>
    have hb := hdigits b List.mem_cons_self
    have htoken : StartsToken (b :: digits ++ (eol.bytes ++ (eofMarker ++ rest))) :=
      startsToken_digit hb
    have hat : At bytes ({ s with pos := s.pos + gap.length } : ScanState).pos
        (b :: digits ++ (eol.bytes ++ (eofMarker ++ rest))) := h.skip
    have hheader := parseObjectHeader_digits eol hat hdigits (List.cons_ne_nil _ _)
    rw [if_neg (by omega)] at hheader
    have hstep : scanStep (.memory bytes) limits s
        = .next { s with pos := s.pos + gap.length + 1 } := by
      rw [scanStep_skip hgap htoken (List.cons_ne_nil _ _) h, scanStep_digit hb hat]
      unfold scanObject parseIndirectObject
      dsimp only
      rw [hheader]
      rfl
    have hnext : At bytes ({ s with pos := s.pos + gap.length + 1 } : ScanState).pos
        ([] ++ (digits ++ (eol.bytes ++ (eofMarker ++ rest)))) := At.next hat
    have htail := digitsValue_tail_le b digits
    obtain ⟨s', gap', hreach, hgap', hend, hobjects, htrailers⟩ :=
      ih (fun c hc => hdigits c (List.mem_cons_of_mem _ hc)) (by omega) .nil hnext
    exact ⟨s', gap', (ScanReach.step hstep (by dsimp only; omega)).trans hreach, hgap', hend,
      hobjects, htrailers⟩

theorem startsToken_startxref (rest : Bytes) : StartsToken (utf8 "startxref" ++ rest) := by
  rw [startxrefMarker_eq]
  exact startsToken_of_ne rfl (by decide)

/-- `startxref` and the rest of its line. -/
theorem scanStep_startxref (eol : Eol) {gap : Bytes} (hgap : Blank gap)
    (h : At bytes s.pos (gap ++ (utf8 "startxref" ++ (eol.bytes ++ rest)))) :
    ∃ pos lead, scanStep (.memory bytes) limits s = .next { s with pos } ∧ s.pos < pos
      ∧ Blank lead ∧ At bytes pos (lead ++ rest) := by
  have hat : At bytes ({ s with pos := s.pos + gap.length } : ScanState).pos
      (utf8 "startxref" ++ (eol.bytes ++ rest)) := h.skip
  have hhead : At bytes (s.pos + gap.length)
      (115 :: ([116, 97, 114, 116, 120, 114, 101, 102] ++ (eol.bytes ++ rest))) := by
    rw [startxrefMarker_eq] at hat
    exact hat
  have hline : ∀ b ∈ utf8 "startxref", isEol b = false := by
    decide
  have hne : utf8 "startxref" ++ (eol.bytes ++ rest) ≠ [] := by
    rw [startxrefMarker_eq]
    exact List.cons_ne_nil _ _
  have hstep : scanStep (.memory bytes) limits s
      = .next { s with pos := (readerOf bytes).skipLine (s.pos + gap.length) } := by
    rw [scanStep_skip hgap (startsToken_startxref _) hne h]
    unfold scanStep
    dsimp only
    rw [if_pos hhead.lt_len, hat.skipToken (startsToken_startxref _),
      hhead.not_startsWith eofMarker_eq (by decide), hat.startsWith_self]
    rfl
  have hend : ∃ lead, Blank lead
      ∧ At bytes ((readerOf bytes).skipLine (s.pos + gap.length)) (lead ++ rest)
      ∧ s.pos < (readerOf bytes).skipLine (s.pos + gap.length) := by
    cases heol : eol with
    | lf =>
      rw [heol] at hat
      rw [hat.skipLine hline rfl]
      exact ⟨[], .nil, hat.skip.next, by dsimp only; omega⟩
    | cr =>
      rw [heol] at hat
      rw [hat.skipLine hline rfl]
      exact ⟨[], .nil, hat.skip.next, by dsimp only; omega⟩
    | crlf =>
      rw [heol] at hat
      rw [hat.skipLine hline rfl]
      exact ⟨[10], .ws rfl .nil, hat.skip.next, by dsimp only; omega⟩
  obtain ⟨lead, hlead, hrest, hpos⟩ := hend
  exact ⟨_, lead, hstep, hpos, hlead, hrest⟩

end Scan

end Pdfv
