import Pdfv.Parser.Revision
/-!
# Reading a cross-reference section

The subsection loop moves over every well-formed section and stops at the keyword after it. A pass
over an entry ends after the first byte of its line end, so what the next pass finds before its entry
is nothing or a lone LF (`Lead`).
-/

namespace Pdfv

open Loop Fallible

theorem eofMarker_eq : eofMarker = 37 :: [37, 69, 79, 70] := by
  decide

theorem trailerMarker_eq : utf8 "trailer" = 116 :: [114, 97, 105, 108, 101, 114] := by
  decide

theorem startxrefMarker_eq : utf8 "startxref" = 115 :: [116, 97, 114, 116, 120, 114, 101, 102] := by
  decide

theorem xrefMarker_eq : utf8 "xref" = 120 :: [114, 101, 102] := by
  decide

/-- What the line end of the last line may leave behind. -/
def Lead (lead : Bytes) : Prop :=
  lead = [] ∨ lead = [10]

theorem Lead.blank {lead : Bytes} (h : Lead lead) : Blank lead := by
  rcases h with rfl | rfl
  · exact .nil
  · exact .ws rfl .nil

/-- What a line end leaves behind its first byte. -/
def Eol.lead : Eol → Bytes
  | crlf => [10]
  | _ => []

/-- What the end of an entry leaves behind the first byte of its line end. -/
def EntryEnd.lead : EntryEnd → Bytes
  | crlf => [10]
  | _ => []

theorem Eol.lead_lead (eol : Eol) : Lead eol.lead := by
  cases eol with
  | lf => exact .inl rfl
  | cr => exact .inl rfl
  | crlf => exact .inr rfl

theorem EntryEnd.lead_lead (ending : EntryEnd) : Lead ending.lead := by
  cases ending with
  | spaceCr => exact .inl rfl
  | spaceLf => exact .inl rfl
  | crlf => exact .inr rfl

theorem Eol.blank (eol : Eol) : Blank eol.bytes := by
  cases eol with
  | lf => exact .ws rfl .nil
  | cr => exact .ws rfl .nil
  | crlf => exact .ws rfl (.ws rfl .nil)

theorem isEol_of_isDigit {b : UInt8} (h : isDigit b = true) : isEol b = false := by
  unfold isDigit at h
  unfold isEol
  grind

theorem isEol_iff {b : UInt8} : isEol b = true ↔ b = 10 ∨ b = 13 := by
  unfold isEol
  simp

theorem Numeral.noEol (numeral : Numeral) : ∀ b ∈ numeral.bytes, isEol b = false :=
  fun b hb => isEol_of_isDigit (numeral.digits b hb)

theorem Numeral.cons (numeral : Numeral) :
    ∃ b rest, numeral.bytes = b :: rest ∧ isDigit b = true := by
  obtain ⟨b, rest, hbytes⟩ := List.exists_cons_of_ne_nil numeral.ne
  refine ⟨b, rest, hbytes, numeral.digits b ?_⟩
  rw [hbytes]
  exact List.mem_cons_self

namespace At

variable {bytes rest : Bytes} {pos : Nat}

/-! ## One entry -/

theorem parseFixedDigits (numeral : Numeral) (h : At bytes pos (numeral.bytes ++ rest)) {count : Nat}
    (hcount : numeral.bytes.length = count) :
    (readerOf bytes).parseFixedDigits count pos = (some numeral.value, pos + count) := by
  have hall : numeral.bytes.all isDigit = true := List.all_eq_true.mpr numeral.digits
  subst hcount
  unfold ByteSource.parseFixedDigits
  rw [h.slice]
  exact if_pos hall

theorem parseFixedDigits_none {b : UInt8} (h : At bytes pos (b :: rest)) (hb : isDigit b = false)
    {count : Nat} (hcount : 0 < count) :
    (readerOf bytes).parseFixedDigits count pos = (none, pos) := by
  have hlen := h.length
  have hslice : (readerOf bytes).slice pos (pos + count)
      = (SourceStorage.memory bytes).slice pos (pos + count) := rfl
  unfold ByteSource.parseFixedDigits
  rw [hslice]
  by_cases hfit : pos + count ≤ bytes.length
  · rw [SourceStorage.slice_memory (by omega) hfit, List.drop_take, h.drop,
      Nat.add_sub_cancel_left]
    obtain ⟨count, rfl⟩ : ∃ n, count = n + 1 := ⟨count - 1, by omega⟩
    simp [List.take_succ_cons, hb]
  · rw [SourceStorage.slice_outside (by rw [SourceStorage.len_memory]; omega)]

theorem skipXrefSpaces {spaces : Bytes} (h : At bytes pos (spaces ++ rest))
    (hspaces : ∀ b ∈ spaces, b = 32) (hrest : ∀ b, rest.head? = some b → b ≠ 9 ∧ b ≠ 32) :
    (readerOf bytes).skipXrefSpaces pos = pos + spaces.length := by
  refine h.skipRun _ (fun b hb => ?_) fun b hb => ?_
  · rw [hspaces b hb]
    rfl
  · obtain ⟨h9, h32⟩ := hrest b hb
    simp [h9, h32]

theorem isDigit_ne_space {b : UInt8} (h : isDigit b = true) : b ≠ 9 ∧ b ≠ 32 := by
  constructor
  · rintro rfl
    cases h
  · rintro rfl
    cases h

/-- After an entry's last byte, its line end is skipped up to and including the first end byte. -/
theorem skipEntryEnd (ending : EntryEnd) {line : Bytes} (hline : ∀ b ∈ line, isEol b = false)
    (h : At bytes pos (line ++ (ending.bytes ++ rest))) :
    At bytes ((readerOf bytes).skipLine pos) (ending.lead ++ rest) := by
  have hspace : ∀ b ∈ line ++ [32], isEol b = false := by
    intro b hb
    rcases List.mem_append.mp hb with hb | hb
    · exact hline b hb
    · cases List.mem_singleton.mp hb
      rfl
  cases ending with
  | spaceCr =>
    have hat : At bytes pos ((line ++ [32]) ++ 13 :: rest) := by
      simpa [EntryEnd.bytes] using h
    rw [hat.skipLine hspace rfl]
    exact hat.skip.next
  | spaceLf =>
    have hat : At bytes pos ((line ++ [32]) ++ 10 :: rest) := by
      simpa [EntryEnd.bytes] using h
    rw [hat.skipLine hspace rfl]
    exact hat.skip.next
  | crlf =>
    have hat : At bytes pos (line ++ 13 :: (10 :: rest)) := by
      simpa [EntryEnd.bytes] using h
    rw [hat.skipLine hline rfl]
    exact hat.skip.next

/-- The line of a header is skipped up to and including the first byte of its line end. -/
theorem skipHeaderEnd (eol : Eol) (h : At bytes pos (eol.bytes ++ rest)) :
    At bytes ((readerOf bytes).skipLine pos) (eol.lead ++ rest) := by
  have hnil : ∀ b ∈ ([] : Bytes), isEol b = false := fun b hb => absurd hb List.not_mem_nil
  cases eol with
  | lf =>
    have hat : At bytes pos ([] ++ 10 :: rest) := h
    rw [hat.skipLine hnil rfl]
    exact hat.next
  | cr =>
    have hat : At bytes pos ([] ++ 13 :: rest) := h
    rw [hat.skipLine hnil rfl]
    exact hat.next
  | crlf =>
    have hat : At bytes pos ([] ++ 13 :: (10 :: rest)) := h
    rw [hat.skipLine hnil rfl]
    exact hat.next

/-- A line end after the start of a line is found, whichever of the two it is. -/
theorem lineHadEol (h : At bytes pos rest) {b : UInt8} (hb : b ∈ rest) (heol : isEol b = true) :
    (readerOf bytes).lineHadEol pos = true := by
  have hlen := h.length
  have hsearch : ∀ c : UInt8, (readerOf bytes).findBytes [c] pos (readerOf bytes).len
      = (Search.findWindow [c] rest).map (pos + ·) := by
    intro c
    have hfound := h.findBytes (List.cons_ne_nil c []) h.le (Nat.le_refl _)
    rwa [List.take_of_length_le (by omega)] at hfound
  unfold ByteSource.lineHadEol
  rw [hsearch, hsearch]
  cases hlf : Search.findWindow [10] rest with
  | some i => exact decide_eq_true (Nat.le_add_right pos i)
  | none =>
    have hoccurs : ∀ c ∈ rest, ∃ i, Search.Occurs [c] rest i := by
      intro c hc
      obtain ⟨front, back, rfl⟩ := List.append_of_mem hc
      exact ⟨front.length, by rw [Search.Occurs, List.drop_left]; exact ⟨back, rfl⟩⟩
    have hcr : b = 13 := by
      rcases isEol_iff.mp heol with rfl | rfl
      · obtain ⟨i, hi⟩ := hoccurs 10 hb
        exact absurd hi ((Search.findWindow_eq_none_iff (List.cons_ne_nil _ _)).mp hlf i)
      · rfl
    subst hcr
    cases hfound : Search.findWindow [13] rest with
    | some i => rfl
    | none =>
      obtain ⟨i, hi⟩ := hoccurs 13 hb
      exact absurd hi ((Search.findWindow_eq_none_iff (List.cons_ne_nil _ _)).mp hfound i)

end At

/-- The bytes of an entry before its line end. -/
def XrefEntryText.line (entry : XrefEntryText) : Bytes :=
  entry.offset.bytes ++ 32 :: (entry.generation.bytes ++ 32 :: [entry.marker])

theorem XrefEntryText.marker_plain (entry : XrefEntryText) :
    isEol entry.marker = false ∧ entry.marker ≠ 9 ∧ entry.marker ≠ 32 := by
  unfold XrefEntryText.marker
  cases entry.inUse <;> decide

theorem XrefEntryText.bytes_eq (entry : XrefEntryText) :
    entry.bytes = entry.line ++ entry.ending.bytes := by
  simp [XrefEntryText.bytes, XrefEntryText.line]

theorem XrefEntryText.line_noEol (entry : XrefEntryText) : ∀ b ∈ entry.line, isEol b = false := by
  intro b hb
  unfold XrefEntryText.line at hb
  rw [List.mem_append, List.mem_cons, List.mem_append, List.mem_cons, List.mem_singleton] at hb
  rcases hb with hb | rfl | hb | rfl | rfl
  · exact entry.offset.noEol b hb
  · rfl
  · exact entry.generation.noEol b hb
  · rfl
  · exact entry.marker_plain.1

theorem EntryEnd.hasEol (ending : EntryEnd) : ∃ b ∈ ending.bytes, isEol b = true := by
  cases ending with
  | spaceCr => exact ⟨13, by decide, rfl⟩
  | spaceLf => exact ⟨10, by decide, rfl⟩
  | crlf => exact ⟨13, by decide, rfl⟩

section Section

variable {limits : ResourceLimits} {bytes rest : Bytes}

/-- One pass of the entry loop: the entry complies when nothing stands before it. -/
theorem parseXrefEntry_at (limits : ResourceLimits) (entry : XrefEntryText) {lead : Bytes}
    (hlead : Lead lead) {s : XrefState} (h : At bytes s.pos (lead ++ (entry.bytes ++ rest)))
    (hlimit : s.parsedEntries + 1 ≤ limits.maxObjects) :
    ∃ pos, parseXrefEntry limits (readerOf bytes) s
        = .ok ⟨pos, s.compliant && lead.isEmpty, s.parsedEntries + 1⟩
      ∧ At bytes pos (entry.ending.lead ++ rest) := by
  unfold parseXrefEntry
  rw [entry.bytes_eq, List.append_assoc] at h
  dsimp only
  rcases hlead with rfl | rfl
  · -- the entry starts here: all its fields are read
    have hfields : At bytes s.pos (entry.offset.bytes ++ ([32] ++ (entry.generation.bytes
        ++ ([32] ++ (entry.marker :: (entry.ending.bytes ++ rest)))))) := by
      simpa [XrefEntryText.line] using h
    obtain ⟨g, more, hg, hdigit⟩ := entry.generation.cons
    have hgeneration := hfields.skip.skip
    have hmarker := hgeneration.skip.skip
    have hspace : ∀ b ∈ [(32 : UInt8)], b = 32 := fun b hb => List.mem_singleton.mp hb
    have heol : (readerOf bytes).lineHadEol s.pos = true := by
      obtain ⟨b, hb, hbeol⟩ := entry.ending.hasEol
      refine h.lineHadEol ?_ hbeol
      rw [List.nil_append, List.mem_append, List.mem_append]
      exact .inr (.inl hb)
    rw [hfields.parseFixedDigits entry.offset entry.offset_length]
    dsimp only
    rw [← entry.offset_length, hfields.skip.skipXrefSpaces hspace (by
        intro b hb
        rw [hg] at hb
        cases hb
        exact At.isDigit_ne_space hdigit),
      hgeneration.parseFixedDigits entry.generation entry.generation_length]
    dsimp only
    rw [← entry.generation_length, hgeneration.skip.skipXrefSpaces hspace (by
        intro b hb
        cases hb
        exact entry.marker_plain.2), hmarker.byte, if_neg (by omega), heol]
    have hread : (decide (some entry.marker = some 110) || decide (some entry.marker = some 102))
        = true := by
      unfold XrefEntryText.marker
      cases entry.inUse <;> decide
    have hend : At bytes _ ([] ++ (entry.ending.bytes ++ rest)) := hmarker.next
    refine ⟨_, ?_, At.skipEntryEnd entry.ending (fun b hb => absurd hb List.not_mem_nil) hend⟩
    show Except.ok (XrefState.mk _ (s.compliant && (true && true
      && (decide (some entry.marker = some 110) || decide (some entry.marker = some 102)) && true)) _) = _
    rw [hread]
    rfl
  · -- a lone LF stands before the entry: it is taken for the marker, and the line is skipped
    have hlf : At bytes s.pos (10 :: (entry.line ++ (entry.ending.bytes ++ rest))) := h
    have hnone : At bytes s.pos ([] ++ 10 :: (entry.line ++ (entry.ending.bytes ++ rest))) := h
    have hstay : (readerOf bytes).skipXrefSpaces s.pos = s.pos := by
      refine hnone.skipXrefSpaces (fun b hb => absurd hb List.not_mem_nil) fun b hb => ?_
      cases hb
      decide
    rw [hlf.parseFixedDigits_none rfl (by omega)]
    dsimp only
    rw [hstay, hlf.parseFixedDigits_none rfl (by omega)]
    dsimp only
    rw [hstay, hlf.byte, if_neg (by omega)]
    exact ⟨_, rfl, At.skipEntryEnd entry.ending entry.line_noEol hlf.next⟩

/-- What stands before the entries that follow. -/
def leadAfter (lead : Bytes) (entries : List XrefEntryText) : Bytes :=
  (entries.getLast?.map fun entry => entry.ending.lead).getD lead

/-- Nothing stands before any of the entries. -/
def entriesComply : Bytes → List XrefEntryText → Bool
  | _, [] => true
  | lead, entry :: entries => lead.isEmpty && entriesComply entry.ending.lead entries

theorem leadAfter_cons (lead : Bytes) (entry : XrefEntryText) (entries : List XrefEntryText) :
    leadAfter lead (entry :: entries) = leadAfter entry.ending.lead entries := by
  unfold leadAfter
  cases entries with
  | nil => rfl
  | cons next entries =>
    rw [List.getLast?_cons_cons]
    obtain ⟨last, hlast⟩ := Option.ne_none_iff_exists'.mp
      (fun h => List.cons_ne_nil next entries (List.getLast?_eq_none_iff.mp h))
    rw [hlast]
    rfl

theorem leadAfter_lead {lead : Bytes} (hlead : Lead lead) (entries : List XrefEntryText) :
    Lead (leadAfter lead entries) := by
  induction entries generalizing lead with
  | nil => exact hlead
  | cons entry entries ih =>
    rw [leadAfter_cons]
    exact ih entry.ending.lead_lead

theorem parseXrefEntries_at (entries : List XrefEntryText) {lead : Bytes} (hlead : Lead lead)
    {s : XrefState} (h : At bytes s.pos (lead ++ (entries.flatMap XrefEntryText.bytes ++ rest)))
    (hlimit : s.parsedEntries + entries.length ≤ limits.maxObjects) :
    ∃ pos, parseXrefEntries limits (readerOf bytes) entries.length s
        = .ok ⟨pos, s.compliant && entriesComply lead entries, s.parsedEntries + entries.length⟩
      ∧ At bytes pos (leadAfter lead entries ++ rest) := by
  induction entries generalizing lead s with
  | nil =>
    refine ⟨s.pos, ?_, h⟩
    rw [entriesComply, Bool.and_true]
    rfl
  | cons entry entries ih =>
    rw [List.length_cons] at hlimit ⊢
    rw [List.flatMap_cons, List.append_assoc] at h
    obtain ⟨pos, hread, hpos⟩ := parseXrefEntry_at limits entry hlead h (by omega)
    obtain ⟨stop, hreads, hstop⟩ := @ih _ entry.ending.lead_lead
      ⟨pos, s.compliant && lead.isEmpty, s.parsedEntries + 1⟩ hpos (by dsimp only; omega)
    refine ⟨stop, ?_, by rw [leadAfter_cons]; exact hstop⟩
    unfold parseXrefEntries
    rw [hread, ok_bind, hreads, entriesComply, Bool.and_assoc, Nat.add_assoc,
      Nat.add_comm 1 entries.length]

/-! ## Subsections -/

/-- A keyword that starts with a letter is not what stands at a digit. -/
theorem not_startsWith_digit {pos : Nat} {b c : UInt8} {expected text : Bytes}
    (h : At bytes pos (b :: rest)) (hb : isDigit b = true) (hexpected : expected = c :: text)
    (hc : isDigit c = false) : (readerOf bytes).startsWith pos expected = false := by
  refine h.not_startsWith hexpected ?_
  rintro rfl
  rw [hb] at hc
  cases hc

theorem parseXrefSubsection_at (limits : ResourceLimits) (subsection : XrefSubsection)
    {s : XrefState} (h : At bytes s.pos (subsection.bytes ++ rest))
    (hlimit : s.parsedEntries + subsection.entries.length ≤ limits.maxObjects) :
    ∃ pos, parseXrefSubsection limits (readerOf bytes) s
        = .ok ⟨pos, s.compliant && entriesComply subsection.eol.lead subsection.entries,
          s.parsedEntries + subsection.entries.length⟩
      ∧ At bytes pos (leadAfter subsection.eol.lead subsection.entries ++ rest) := by
  obtain ⟨c, more, hc, hdigit⟩ := subsection.count.cons
  have hfirst : At bytes s.pos ([] ++ (subsection.first.bytes ++ ([32] ++ (subsection.count.bytes
      ++ (subsection.eol.bytes ++ (subsection.entries.flatMap XrefEntryText.bytes ++ rest)))))) := by
    simpa [XrefSubsection.bytes] using h
  have hspace : At bytes (s.pos + subsection.first.bytes.length) ([32] ++ (subsection.count.bytes
      ++ (subsection.eol.bytes ++ (subsection.entries.flatMap XrefEntryText.bytes ++ rest)))) :=
    hfirst.skip.skip
  have hcount : At bytes (s.pos + subsection.first.bytes.length + 1) ([] ++ (subsection.count.bytes
      ++ (subsection.eol.bytes ++ (subsection.entries.flatMap XrefEntryText.bytes ++ rest)))) :=
    hspace.skip
  have heolDigit : ∀ b, (subsection.eol.bytes
      ++ (subsection.entries.flatMap XrefEntryText.bytes ++ rest)).head? = some b →
      isDigit b = false := by
    intro b hb
    cases heol : subsection.eol with
    | lf => rw [heol] at hb; cases hb; rfl
    | cr => rw [heol] at hb; cases hb; rfl
    | crlf => rw [heol] at hb; cases hb; rfl
  have hentries : At bytes
      ((readerOf bytes).skipLine
        (s.pos + subsection.first.bytes.length + 1 + subsection.count.bytes.length))
      (subsection.eol.lead ++ (subsection.entries.flatMap XrefEntryText.bytes ++ rest)) := by
    have hend := hcount.skip.skip
    rw [List.length_nil, Nat.add_zero] at hend
    exact At.skipHeaderEnd subsection.eol hend
  have hreadFirst := hfirst.parseUnsigned u32Size .nil subsection.first.digits
    subsection.first.ne (fun b hb => by cases hb; rfl)
  have hlt := subsection.first_lt
  unfold Numeral.value at hlt
  rw [if_neg (by omega), List.length_nil, Nat.add_zero] at hreadFirst
  have hreadSpace := hspace.skipRequiredWs (fun b hb => by cases List.mem_singleton.mp hb; rfl)
    (List.cons_ne_nil _ _) (fun b hb => by
      rw [hc] at hb
      cases hb
      exact isWs_of_isDigit hdigit)
  have hreadCount := hcount.parseUnsigned u32Size .nil subsection.count.digits
    subsection.count.ne heolDigit
  have hcountLt := subsection.count_lt
  have hcountEq := subsection.count_eq
  unfold Numeral.value at hcountLt hcountEq
  rw [if_neg (by omega), List.length_nil, Nat.add_zero, hcountEq] at hreadCount
  unfold parseXrefSubsection ByteSource.parseUnsignedU32
  rw [hreadFirst, ok_bind]
  dsimp only
  rw [hreadSpace, ok_bind, List.length_singleton, hreadCount, ok_bind]
  exact parseXrefEntries_at subsection.entries subsection.eol.lead_lead hentries hlimit

/-- One pass of the subsection loop over a subsection. -/
theorem xrefStep_subsection (limits : ResourceLimits) (subsection : XrefSubsection) {gap : Bytes}
    (hgap : Blank gap) {s : XrefState} (h : At bytes s.pos (gap ++ (subsection.bytes ++ rest)))
    (hlimit : s.parsedEntries + subsection.entries.length ≤ limits.maxObjects) :
    ∃ pos, xrefStep limits (readerOf bytes) s
        = .next ⟨pos, s.compliant && entriesComply subsection.eol.lead subsection.entries,
          s.parsedEntries + subsection.entries.length⟩
      ∧ At bytes pos (leadAfter subsection.eol.lead subsection.entries ++ rest) := by
  obtain ⟨b, more, hfirst, hdigit⟩ := subsection.first.cons
  obtain ⟨tail, htail⟩ : ∃ tail, subsection.bytes ++ rest = b :: tail := by
    rw [XrefSubsection.bytes, hfirst]
    exact ⟨_, rfl⟩
  have hat := h.skip
  have hstart : (readerOf bytes).skipWsAndComments s.pos = s.pos + gap.length := by
    refine At.skipBlank hgap ?_ h
    rw [htail]
    exact startsToken_digit hdigit
  have hhead : At bytes (s.pos + gap.length) (b :: tail) := htail ▸ hat
  have hinside : ¬ s.pos + gap.length ≥ (readerOf bytes).len := by
    have hlen := hhead.length
    rw [List.length_cons] at hlen
    show ¬ s.pos + gap.length ≥ bytes.length
    omega
  have hread : At bytes ({ s with pos := s.pos + gap.length } : XrefState).pos
      (subsection.bytes ++ rest) := hat
  obtain ⟨pos, hparse, hend⟩ := parseXrefSubsection_at limits subsection hread hlimit
  refine ⟨pos, ?_, hend⟩
  unfold xrefStep
  dsimp only
  rw [hstart, not_startsWith_digit hhead hdigit trailerMarker_eq rfl,
    not_startsWith_digit hhead hdigit startxrefMarker_eq rfl,
    not_startsWith_digit hhead hdigit eofMarker_eq rfl, decide_eq_false hinside, hparse]
  rfl

end Section

end Pdfv
