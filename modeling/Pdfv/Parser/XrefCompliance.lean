import Pdfv.Parser.RevisionScan
/-!
# Compliant cross-reference sections

`skip_line` stops after the first byte of a CRLF line end, so the entry after such a line end is not
read where it starts: its line counts, but the section is reported as malformed. A well-formed section
is reported as compliant exactly when no CRLF stands before one of its entries.
-/

namespace Pdfv

open Loop Fallible

namespace XrefSubsection

/-- No line end before an entry is CRLF: neither the one of the header nor the one of an entry that is
not the last. -/
structure PlainEnds (subsection : XrefSubsection) : Prop where
  header : subsection.entries ≠ [] → subsection.eol ≠ .crlf
  entries : ∀ entry ∈ subsection.entries.dropLast, entry.ending ≠ .crlf

end XrefSubsection

theorem Eol.lead_isEmpty (eol : Eol) : eol.lead.isEmpty = true ↔ eol ≠ .crlf := by
  cases eol with
  | lf => exact iff_of_true rfl nofun
  | cr => exact iff_of_true rfl nofun
  | crlf => exact iff_of_false nofun fun h => h rfl

theorem EntryEnd.lead_isEmpty (ending : EntryEnd) : ending.lead.isEmpty = true ↔ ending ≠ .crlf := by
  cases ending with
  | spaceCr => exact iff_of_true rfl nofun
  | spaceLf => exact iff_of_true rfl nofun
  | crlf => exact iff_of_false nofun fun h => h rfl

theorem entriesComply_iff (lead : Bytes) (entries : List XrefEntryText) :
    entriesComply lead entries = true ↔
      (entries ≠ [] → lead.isEmpty = true) ∧ ∀ entry ∈ entries.dropLast, entry.ending ≠ .crlf := by
  induction entries generalizing lead with
  | nil => exact iff_of_true rfl ⟨fun h => absurd rfl h, fun entry h => absurd h List.not_mem_nil⟩
  | cons entry entries ih =>
    rw [entriesComply, Bool.and_eq_true, ih, EntryEnd.lead_isEmpty]
    cases entries with
    | nil => simp
    | cons next entries =>
      rw [List.dropLast_cons_cons, List.forall_mem_cons]
      simp

theorem XrefSubsection.complies_iff (subsection : XrefSubsection) :
    subsection.complies = true ↔ subsection.PlainEnds := by
  unfold XrefSubsection.complies
  rw [entriesComply_iff, Eol.lead_isEmpty]
  exact ⟨fun h => ⟨h.1, h.2⟩, fun h => ⟨h.header, h.entries⟩⟩

section Compliance

variable {limits : ResourceLimits} {source rest : Bytes}

/-- Where the keyword `trailer` stands after a section. -/
def XrefSection.trailerPos (xref : XrefSection) (gap : Gap) (pos : Nat) : Nat :=
  pos + xref.bytes.length + gap.bytes.length

/-- Where the dictionary of the trailer starts. -/
def XrefSection.dictionaryPos (xref : XrefSection) (gap gap' : Gap) (pos : Nat) : Nat :=
  xref.trailerPos gap pos + (utf8 "trailer").length + gap'.bytes.length

/-- What the subsection loop of `parse_xref_and_trailer` ends with, from the keyword on. -/
def xrefEntriesRead (limits : ResourceLimits) (src : ByteSource) (pos : Nat) :
    Except ParseError XrefState :=
  runLoop (xrefStep limits src) (fun x => .ok x) (src.len - (pos + (utf8 "xref").length) + 1)
    ⟨pos + (utf8 "xref").length, true, 0⟩

/-- The section is recognised as compliant: all declared entries and no other are read up to the
keyword `trailer`, the fact says so, and the trailer is the one that follows. -/
structure ReadsCompliant (storage : SourceStorage) (limits : ResourceLimits) (xref : XrefSection)
    (gap gap' : Gap) (dictionary : Dictionary) (stop : Nat) (s : ScanState) : Prop where
  entries : xrefEntriesRead limits storage.reader s.pos
    = .ok ⟨xref.trailerPos gap s.pos, true, xref.entryCount⟩
  result : ∃ log, pushXrefChainFacts limits none (xref.dictionaryPos gap gap' s.pos) dictionary
      (s.log.pushFact limits (.xref ⟨none, some s.pos, none⟩ .eolMarkersComply)) = .ok log ∧
    parseXrefAndTrailer storage limits s = .ok { s with
      pos := stop
      log
      trailers := s.trailers ++ [⟨dictionary, xref.dictionaryPos gap gap' s.pos⟩] }

theorem parseXrefAndTrailer_reader {storage storage' : SourceStorage}
    (h : storage.reader = storage'.reader) (s : ScanState) :
    parseXrefAndTrailer storage limits s = parseXrefAndTrailer storage' limits s := by
  have htrailer : parseTrailer storage limits = parseTrailer storage' limits := by
    unfold parseTrailer
    rw [h]
  have hstep : xrefTrailerStep storage limits = xrefTrailerStep storage' limits := by
    unfold xrefTrailerStep
    rw [h, htrailer]
  unfold parseXrefAndTrailer
  rw [h, hstep]

/-- A well-formed section within the object limit, followed by a dictionary that the parser reads, is
recognised as compliant exactly when no line end before an entry is CRLF. -/
theorem parseXrefAndTrailer_compliant_iff (xref : XrefSection) (gap gap' : Gap) {s : ScanState}
    (threshold : Nat) {dictionary : Dictionary} {stop : Nat}
    (h : At source s.pos (xref.bytes ++ (gap.bytes ++ (utf8 "trailer" ++ (gap'.bytes
      ++ 60 :: rest)))))
    (hlimit : xref.entryCount ≤ limits.maxObjects)
    (hread : (SourceStorage.fromSource source threshold).reader.parseDictionary limits 0
      (xref.dictionaryPos gap gap' s.pos) = .ok (dictionary, stop))
    (hoffsets : ChainOffsets dictionary) :
    ReadsCompliant (.fromSource source threshold) limits xref gap gap' dictionary stop s ↔
      ∀ subsection ∈ xref.subsections, subsection.PlainEnds := by
  have hall : (xref.subsections.all XrefSubsection.complies = true) ↔
      ∀ subsection ∈ xref.subsections, subsection.PlainEnds := by
    rw [List.all_eq_true]
    exact forall₂_congr fun subsection _ => subsection.complies_iff
  rw [← hall]
  rw [reader_fromSource] at hread
  have htext := h
  rw [XrefSection.bytes, List.append_assoc, List.append_assoc] at htext
  have hplace : ∀ {pos}, At source pos (utf8 "trailer" ++ (gap'.bytes ++ 60 :: rest)) →
      pos = xref.trailerPos gap s.pos := by
    intro pos hpos
    have hbefore := h.length
    have hafter := hpos.length
    simp only [List.length_append] at hbefore hafter
    unfold XrefSection.trailerPos
    omega
  obtain ⟨pos, hloop, hpos⟩ := xrefLoop_at limits xref gap htext.skip hlimit
  obtain rfl := hplace hpos
  constructor
  · rintro ⟨hentries, -⟩
    unfold xrefEntriesRead at hentries
    rw [reader_fromSource, hloop] at hentries
    cases hcomplies : xref.subsections.all XrefSubsection.complies with
    | true => rfl
    | false =>
      rw [hcomplies] at hentries
      cases hentries
  · intro hcomplies
    rw [hcomplies] at hloop
    obtain ⟨pos, hpos, hparse⟩ := parseXrefAndTrailer_section limits xref gap h hlimit
    obtain rfl := hplace hpos
    rw [hcomplies, if_pos rfl] at hparse
    have hat : ∀ log, At source ({ s with pos := xref.trailerPos gap s.pos, log } : ScanState).pos
        (utf8 "trailer" ++ (gap'.bytes ++ 60 :: rest)) := fun _ => hpos
    obtain ⟨log, hlog, htrailer⟩ := parseTrailer_reads gap' (hat _) hread hoffsets
    refine ⟨?_, log, hlog, ?_⟩
    · rw [reader_fromSource]
      exact hloop
    · rw [parseXrefAndTrailer_reader (reader_fromSource source threshold)]
      exact hparse.trans htrailer

/-- The entry `0000000000 65535 f`. -/
def freeEntry (ending : EntryEnd) : XrefEntryText where
  offset := ⟨List.replicate 10 48, by decide, by decide⟩
  offset_length := rfl
  generation := ⟨[54, 53, 53, 51, 53], by decide, by decide⟩
  generation_length := rfl
  inUse := false
  ending := ending

/-- A section with two entries, whose lines all end in LF but for the entries. -/
def freeSection (ending : EntryEnd) : XrefSection where
  eol := .lf
  subsections := [{
    first := ⟨[48], by decide, by decide⟩
    first_lt := by decide
    count := ⟨[50], by decide, by decide⟩
    entries := [freeEntry ending, freeEntry ending]
    count_eq := rfl
    count_lt := by decide
    eol := .lf }]

/-- The section and an empty trailer. -/
def freeSource (ending : EntryEnd) : Bytes :=
  (freeSection ending).bytes ++ (utf8 "trailer" ++ [60, 60, 62, 62])

def nothingScanned : ScanState :=
  ⟨0, ⟨[], []⟩, OrdMap.empty, []⟩

theorem freeSource_dictionary (ending : EntryEnd) :
    (readerOf (freeSource ending)).parseDictionary {} 0
        ((freeSection ending).dictionaryPos ⟨[], .nil⟩ ⟨[], .nil⟩ 0) = .ok ([], 60) := by
  have hread : ((readerOf (freeSource ending)).parseDictionary {} 0
      ((freeSection ending).dictionaryPos ⟨[], .nil⟩ ⟨[], .nil⟩ 0)).map
        (fun read => (read.1.length, read.2)) = .ok (0, 60) := by
    cases ending <;> decide +kernel
  cases hparse : (readerOf (freeSource ending)).parseDictionary {} 0
      ((freeSection ending).dictionaryPos ⟨[], .nil⟩ ⟨[], .nil⟩ 0) with
  | error e =>
    rw [hparse] at hread
    cases hread
  | ok read =>
    obtain ⟨dictionary, stop⟩ := read
    rw [hparse] at hread
    simp only [Except.map, Except.ok.injEq, Prod.mk.injEq, List.length_eq_zero_iff] at hread
    obtain ⟨rfl, rfl⟩ := hread
    rfl

theorem parseXrefAndTrailer_compliant_iff_spaces :
    ReadsCompliant (.fromSource (freeSource .spaceLf) 0) {} (freeSection .spaceLf) ⟨[], .nil⟩ ⟨[], .nil⟩ [] 60
      nothingScanned := by
  have hat : At (freeSource .spaceLf) nothingScanned.pos ((freeSection .spaceLf).bytes ++ ([]
      ++ (utf8 "trailer" ++ ([] ++ 60 :: [60, 62, 62])))) := .start _
  refine (parseXrefAndTrailer_compliant_iff (freeSection .spaceLf) ⟨[], .nil⟩ ⟨[], .nil⟩
    0 hat (by decide) ?_ ⟨?_, ?_⟩).mpr ?_
  · rw [reader_fromSource]
    exact freeSource_dictionary .spaceLf
  · intro value h
    cases h
  · intro value h
    cases h
  · intro subsection hmem
    obtain rfl := List.mem_singleton.mp hmem
    exact ⟨fun _ => nofun, fun entry hentry => by
      obtain rfl := List.mem_singleton.mp hentry
      exact nofun⟩

/-- After CRLF the second entry is not read where it starts. -/
theorem parseXrefAndTrailer_malformed :
    xrefEntriesRead {} (readerOf (freeSource .crlf)) 0 = .ok ⟨49, false, 2⟩ ∧
    ¬ ReadsCompliant (.memory (freeSource .crlf)) {} (freeSection .crlf) ⟨[], .nil⟩ ⟨[], .nil⟩ [] 60
      nothingScanned := by
  have hread : xrefEntriesRead {} (readerOf (freeSource .crlf)) 0 = .ok ⟨49, false, 2⟩ := by
    rfl
  refine ⟨hread, fun h => ?_⟩
  have hentries := hread.symm.trans h.entries
  cases hentries

end Compliance

end Pdfv
