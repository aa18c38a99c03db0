import Pdfv.Parser.Revision
/-!
# Stream payloads

The payload of a stream with a usable `/Length` is read by its length, whatever is in it. Without one
the payload ends at the first `endstream`, less one line end; no part of `endstream` is a beginning of
it, so a payload without the keyword and without a line end at its end is read as it is, as long as the
keyword is within the bytes that are searched.
-/

namespace Pdfv

open Fallible Search

/-- A line end, or none. -/
def optionalEol (eol : Option Eol) : Bytes :=
  (eol.map Eol.bytes).getD []

/-- A stream from its keyword on: CRLF or LF, the payload, at most one line end, and `endstream`. -/
structure StreamText where
  gap : Gap
  eol : Eol
  eol_ne : eol ≠ .cr
  payload : Bytes
  ending : Option Eol

namespace StreamText

variable (text : StreamText)

def bytes : Bytes :=
  text.gap.bytes ++ (streamMarker ++ (text.eol.bytes ++ (text.payload ++ (optionalEol text.ending
    ++ endstreamMarker))))

/-- Where the payload starts. -/
def dataStart (pos : Nat) : Nat :=
  pos + text.gap.bytes.length + streamMarker.length + text.eol.bytes.length

end StreamText

/-! ## The keyword -/

theorem streamMarker_eq : streamMarker = [115, 116, 114, 101, 97, 109] := by
  decide

theorem endstreamMarker_eq : endstreamMarker = [101, 110, 100, 115, 116, 114, 101, 97, 109] := by
  decide

theorem endstreamMarker_ne : endstreamMarker ≠ [] := by
  rw [endstreamMarker_eq]
  exact List.cons_ne_nil _ _

theorem endstreamMarker_unbordered : Unbordered endstreamMarker := by
  rw [endstreamMarker_eq]
  intro k hpos hlt
  have hk : ∀ k < 9, 0 < k → [101, 110, 100, 115, 116, 114, 101, 97, (109 : UInt8)].drop k
      ≠ [101, 110, 100, 115, 116, 114, 101, 97, (109 : UInt8)].take (9 - k) := by
    decide
  exact hk k hlt hpos

theorem optionalEol_isEol (ending : Option Eol) : ∀ b ∈ optionalEol ending, isEol b = true := by
  cases ending with
  | none => exact fun b hb => absurd hb List.not_mem_nil
  | some eol =>
    cases eol with
    | lf => decide
    | cr => decide
    | crlf => decide

theorem endstreamMarker_noEol : ∀ b ∈ endstreamMarker, isEol b = false := by
  rw [endstreamMarker_eq]
  decide

section Source

variable {source rest : Bytes} {pos : Nat}

namespace At

theorem skipStreamEol {eol : Eol} (hne : eol ≠ .cr) (h : At source pos (eol.bytes ++ rest)) :
    (readerOf source).skipStreamEol pos = pos + eol.bytes.length := by
  unfold ByteSource.skipStreamEol
  rw [h.startsWith, h.startsWith]
  cases eol with
  | lf => rfl
  | cr => exact absurd rfl hne
  | crlf => rfl

theorem endstreamAfterOptionalEol (ending : Option Eol)
    (h : At source pos (optionalEol ending ++ (endstreamMarker ++ rest))) :
    (readerOf source).endstreamAfterOptionalEol pos
      = some (pos + (optionalEol ending).length) := by
  unfold ByteSource.endstreamAfterOptionalEol
  rw [h.startsWith, h.startsWith, h.startsWith, h.startsWith, endstreamMarker_eq]
  cases ending with
  | none => rfl
  | some eol => cases eol <;> rfl

/-- The search for the keyword finds the one after the payload. -/
theorem findBytes_endstream {payload : Bytes} (ending : Option Eol) {stop : Nat}
    (h : At source pos (payload ++ (optionalEol ending ++ (endstreamMarker ++ rest))))
    (hfree : ∀ i, ¬ Occurs endstreamMarker payload i)
    (hle : pos + payload.length + (optionalEol ending).length + endstreamMarker.length ≤ stop)
    (hstop : stop ≤ source.length) :
    (readerOf source).findBytes endstreamMarker pos stop
      = some (pos + payload.length + (optionalEol ending).length) := by
  obtain ⟨count, hcount⟩ : ∃ count, stop - pos
      = (payload ++ optionalEol ending ++ endstreamMarker).length + count := by
    refine ⟨stop - pos - (payload ++ optionalEol ending ++ endstreamMarker).length, ?_⟩
    simp only [List.length_append]
    omega
  have hwindow : (payload ++ (optionalEol ending ++ (endstreamMarker ++ rest))).take (stop - pos)
      = (payload ++ optionalEol ending) ++ (endstreamMarker ++ rest.take count) := by
    rw [hcount, ← List.append_assoc, ← List.append_assoc, List.take_length_add_append]
    simp only [List.append_assoc]
  have hfront : ∀ i, ¬ Occurs endstreamMarker (payload ++ optionalEol ending) i := by
    intro i hocc
    refine hfree i (hocc.of_append_of_notMem endstreamMarker_ne fun b hb hmem => ?_)
    have heol := optionalEol_isEol ending b hb
    rw [endstreamMarker_noEol b hmem] at heol
    cases heol
  rw [h.findBytes endstreamMarker_ne (by omega) hstop, hwindow,
    findWindow_after endstreamMarker_unbordered endstreamMarker_ne hfront, Option.map_some,
    List.length_append, Nat.add_assoc]

/-- The bytes from a position on. -/
theorem byte_add (h : At source pos rest) (i : Nat) : (readerOf source).byte (pos + i) = rest[i]? := by
  show (SourceStorage.memory source).byte (pos + i) = rest[i]?
  rw [SourceStorage.byte_memory, ← h.drop, List.getElem?_drop]

theorem startsWith_pair {a b : UInt8} (hle : pos ≤ source.length)
    (h : (readerOf source).startsWith pos [a, b] = true) :
    (readerOf source).byte pos = some a ∧ (readerOf source).byte (pos + 1) = some b := by
  have hat : At source pos (source.drop pos) := ⟨hle, rfl⟩
  rw [hat.startsWith, List.isPrefixOf_iff_prefix] at h
  obtain ⟨more, hmore⟩ := h
  rw [← hmore] at hat
  exact ⟨hat.byte, hat.byte_add 1⟩

/-- One line end before the keyword is cut off, and nothing of a payload that ends in none. -/
theorem trimEolBefore {payload : Bytes} (ending : Option Eol)
    (h : At source pos (payload ++ (optionalEol ending ++ rest)))
    (hend : ∀ b, payload.getLast? = some b → isEol b = false) :
    (readerOf source).trimEolBefore pos (pos + payload.length + (optionalEol ending).length)
      = pos + payload.length := by
  have hlen := h.length
  rw [List.length_append, List.length_append] at hlen
  have hlast : 0 < payload.length → ∃ b, (readerOf source).byte (pos + payload.length - 1) = some b
      ∧ isEol b = false := by
    intro hpos
    have hne : payload ≠ [] := List.length_pos_iff.mp hpos
    refine ⟨payload.getLast hne, ?_, hend _ (List.getLast?_eq_some_getLast hne)⟩
    rw [Nat.add_sub_assoc hpos, h.byte_add, List.getElem?_append_left (by omega),
      ← List.getLast?_eq_getElem?, List.getLast?_eq_some_getLast hne]
  have hafter : ∀ i, (readerOf source).byte (pos + payload.length + i)
      = (optionalEol ending ++ rest)[i]? := h.skip.byte_add
  unfold ByteSource.trimEolBefore
  cases ending with
  | none =>
    have hzero : pos + payload.length + (optionalEol none).length = pos + payload.length := rfl
    rw [hzero, if_neg, if_neg]
    · rintro hcut
      rw [Bool.and_eq_true, decide_eq_true_eq] at hcut
      obtain ⟨b, hb, hplain⟩ := hlast (by omega)
      rw [hb, Option.any_some, hplain] at hcut
      cases hcut.2
    · rintro hcut
      rw [Bool.and_eq_true, decide_eq_true_eq] at hcut
      obtain ⟨b, hb, hplain⟩ := hlast (by omega)
      have hlf := (startsWith_pair (by omega) hcut.2).2
      rw [show pos + payload.length - 2 + 1 = pos + payload.length - 1 by omega, hb] at hlf
      cases hlf
      cases hplain
  | some eol =>
    cases eol with
    | lf =>
      have hone : pos + payload.length + (optionalEol (some .lf)).length
          = pos + payload.length + 1 := rfl
      rw [hone, if_neg, if_pos, Nat.add_sub_cancel]
      · rw [Nat.add_sub_cancel, ← Nat.add_zero (pos + payload.length), hafter 0]
        exact Bool.and_eq_true_iff.mpr ⟨decide_eq_true (by omega), rfl⟩
      · rintro hcut
        rw [Bool.and_eq_true, decide_eq_true_eq] at hcut
        obtain ⟨b, hb, hplain⟩ := hlast (by omega)
        have hcr := (startsWith_pair (by omega) hcut.2).1
        rw [show pos + payload.length + 1 - 2 = pos + payload.length - 1 by omega, hb] at hcr
        cases hcr
        cases hplain
    | cr =>
      have hone : pos + payload.length + (optionalEol (some .cr)).length
          = pos + payload.length + 1 := rfl
      rw [hone, if_neg, if_pos, Nat.add_sub_cancel]
      · rw [Nat.add_sub_cancel, ← Nat.add_zero (pos + payload.length), hafter 0]
        exact Bool.and_eq_true_iff.mpr ⟨decide_eq_true (by omega), rfl⟩
      · rintro hcut
        rw [Bool.and_eq_true, decide_eq_true_eq] at hcut
        have hlf := (startsWith_pair (by omega) hcut.2).2
        rw [show pos + payload.length + 1 - 2 + 1 = pos + payload.length + 0 by omega,
          hafter 0] at hlf
        cases hlf
    | crlf =>
      have htwo : pos + payload.length + (optionalEol (some .crlf)).length
          = pos + payload.length + 2 := rfl
      have hpair : At source (pos + payload.length) ([13, 10] ++ rest) := h.skip
      rw [htwo, if_pos, Nat.add_sub_cancel]
      rw [Nat.add_sub_cancel, hpair.startsWith_self, Bool.and_true, decide_eq_true_eq]
      omega

/-- The declared length is taken when the keyword follows it. -/
theorem streamExtent_declared {limits : ResourceLimits} {payload : Bytes} (ending : Option Eol)
    (h : At source pos (payload ++ (optionalEol ending ++ (endstreamMarker ++ rest)))) :
    (readerOf source).streamExtent limits pos (some payload.length)
      = .ok (pos + payload.length, pos + payload.length + (optionalEol ending).length) := by
  unfold ByteSource.streamExtent
  dsimp only [Option.map_some, Option.bind_some]
  rw [h.skip.endstreamAfterOptionalEol ending]

/-- Otherwise the keyword is searched for. -/
theorem streamExtent_scanned {limits : ResourceLimits} {payload : Bytes} (ending : Option Eol)
    {declared : Option Nat}
    (h : At source pos (payload ++ (optionalEol ending ++ (endstreamMarker ++ rest))))
    (hmisses : ∀ length, declared = some length →
      (readerOf source).endstreamAfterOptionalEol (pos + length) = none)
    (hfree : ∀ i, ¬ Occurs endstreamMarker payload i)
    (hend : ∀ b, payload.getLast? = some b → isEol b = false)
    (hlimit : payload.length + (optionalEol ending).length + endstreamMarker.length
      ≤ limits.maxStreamDeclaredBytes) :
    (readerOf source).streamExtent limits pos declared
      = .ok (pos + payload.length, pos + payload.length + (optionalEol ending).length) := by
  have hlen := h.length
  simp only [List.length_append] at hlen
  have hbound : min (pos + limits.maxStreamDeclaredBytes) source.length ≤ source.length :=
    Nat.min_le_right _ _
  have hfound := h.findBytes_endstream ending hfree (by omega) hbound
  have hfound : (readerOf source).findBytes endstreamMarker pos
      (min (pos + limits.maxStreamDeclaredBytes) (readerOf source).len) = _ := hfound
  have htrim := h.trimEolBefore ending hend
  unfold ByteSource.streamExtent
  cases declared with
  | none =>
    dsimp only [Option.map_none]
    rw [hfound]
    dsimp only
    rw [htrim]
  | some length =>
    dsimp only [Option.map_some, Option.bind_some]
    rw [hmisses length rfl]
    dsimp only
    rw [hfound]
    dsimp only
    rw [htrim]

/-- The bytes of a stream, from either storage. -/
theorem streamSource {payload : Bytes} (h : At source pos (payload ++ rest)) (threshold : Nat) :
    ∃ raw range, (SourceStorage.fromSource source threshold).streamSource pos (pos + payload.length)
        = .ok (raw, range)
      ∧ subrange raw range.start range.stop = some payload := by
  have hlen := h.length
  rw [List.length_append] at hlen
  have hslice := h.slice
  unfold SourceStorage.fromSource
  split
  · refine ⟨source, ⟨pos, pos + payload.length⟩, rfl, ?_⟩
    dsimp only
    rw [subrange_eq_some (by omega) (by omega), List.drop_take, h.drop, Nat.add_sub_cancel_left,
      List.take_left]
  · refine ⟨payload, ⟨0, payload.length⟩, ?_, ?_⟩
    · have hspill : (SourceStorage.spillFile source source.length).slice pos (pos + payload.length)
          = .ok payload := by
        rw [SourceStorage.slice_spillFile]
        exact hslice
      unfold SourceStorage.streamSource
      dsimp only
      rw [hspill]
      rfl
    · dsimp only
      rw [subrange_eq_some (Nat.zero_le _) (Nat.le_refl _), List.take_length, List.drop_zero]

end At

/-- The declared length that the parser takes from a dictionary. -/
def declaredLength (dictionary : Dictionary) : Option Nat :=
  (integerFromDictionary dictionary "Length").bind u64OfInt

/-- The dictionary has no `/Length` that is usable: none that is an unsigned integer, or one within
the limit after which `endstream` does not follow. -/
def NoUsableLength (limits : ResourceLimits) (source : Bytes) (dictionary : Dictionary)
    (dataStart : Nat) : Prop :=
  ∀ length, declaredLength dictionary = some length → length ≤ limits.maxStreamDeclaredBytes ∧
    (readerOf source).endstreamAfterOptionalEol (dataStart + length) = none

/-- The stream is read to just after its `endstream`, with exactly its payload. -/
def ReadsPayload (storage : SourceStorage) (limits : ResourceLimits) (key : ObjectKey)
    (dictionary : Dictionary) (pos : Nat) (log : FactLog) (text : StreamText)
    (declared : Option Nat) : Prop :=
  ∃ stream log', parseStream storage limits key dictionary pos log
      = .ok (stream, pos + text.bytes.length, log')
    ∧ stream.dictionary = dictionary
    ∧ stream.rawBytes = .ok text.payload
    ∧ stream.declaredLength = declared
    ∧ stream.discoveredLength = text.payload.length

/-- A stream whose payload is delimited right is read with exactly its payload. -/
theorem readsPayload_of_extent {limits : ResourceLimits} {key : ObjectKey} {dictionary : Dictionary}
    {log : FactLog} {text : StreamText} (threshold : Nat) (h : At source pos (text.bytes ++ rest))
    (hlimit : ∀ length, declaredLength dictionary = some length →
      length ≤ limits.maxStreamDeclaredBytes)
    (hextent : (readerOf source).streamExtent limits (text.dataStart pos) (declaredLength dictionary)
      = .ok (text.dataStart pos + text.payload.length,
        text.dataStart pos + text.payload.length + (optionalEol text.ending).length)) :
    ReadsPayload (.fromSource source threshold) limits key dictionary pos log text
      (declaredLength dictionary) := by
  have hgap : At source pos (text.gap.bytes ++ (streamMarker ++ (text.eol.bytes ++ (text.payload
      ++ (optionalEol text.ending ++ (endstreamMarker ++ rest)))))) := by
    simpa only [StreamText.bytes, List.append_assoc] using h
  have htoken : StartsToken (streamMarker ++ (text.eol.bytes ++ (text.payload
      ++ (optionalEol text.ending ++ (endstreamMarker ++ rest))))) := by
    rw [streamMarker_eq]
    intro b hb
    cases hb
    exact ⟨rfl, nofun⟩
  have hkeyword := hgap.skip
  have heol := hkeyword.skip
  have hdata : At source (text.dataStart pos) (text.payload ++ (optionalEol text.ending
      ++ (endstreamMarker ++ rest))) := heol.skip
  obtain ⟨raw, range, hsource, hraw⟩ := hdata.streamSource threshold
  have hfits : ¬ ((declaredLength dictionary).any (· > limits.maxStreamDeclaredBytes)) = true := by
    cases hlength : declaredLength dictionary with
    | none => exact Bool.false_ne_true
    | some length =>
      have hle := hlimit length hlength
      simp only [Option.any_some, decide_eq_true_eq]
      omega
  have hstop : text.dataStart pos + text.payload.length + (optionalEol text.ending).length
      + endstreamMarker.length = pos + text.bytes.length := by
    simp only [StreamText.dataStart, StreamText.bytes, List.length_append]
    omega
  have hstart : pos + text.gap.bytes.length + streamMarker.length + text.eol.bytes.length
      = text.dataStart pos := rfl
  unfold declaredLength at hextent hfits
  have hread : ∃ log' spacing ending', parseStream (.fromSource source threshold) limits key
      dictionary pos log = .ok ({
        dictionary
        rawRange := range
        declaredLength := declaredLength dictionary
        discoveredLength := text.payload.length
        filters := streamFilters dictionary
        decodeParams := streamDecodeParams dictionary (streamFilters dictionary).length
        rawSource := raw
        streamKeywordCrlfCompliant := spacing
        endstreamKeywordEolCompliant := ending' }, pos + text.bytes.length, log') := by
    unfold parseStream
    dsimp only
    rw [reader_fromSource, At.skipBlank text.gap.blank htoken hgap, hkeyword.consumeBytes, ok_bind,
      heol.skipStreamEol text.eol_ne, hstart]
    unfold failIf
    rw [if_neg hfits, ok_bind, hextent, ok_bind]
    dsimp only
    rw [hdata.skip.skip.consumeBytes, ok_bind, hsource, ok_bind, Nat.add_sub_cancel_left, hstop]
    exact ⟨_, _, _, rfl⟩
  obtain ⟨log', spacing, ending', hparse⟩ := hread
  refine ⟨_, log', hparse, rfl, ?_, rfl, rfl⟩
  unfold StreamOf.rawBytes
  dsimp only
  rw [hraw]

/-- A stream is read with exactly its payload, by a direct `/Length` within the limit, or without a
usable one when the payload has no `endstream`, does not end in a line end, and is searched with its
keyword. -/
theorem parseStream_payload {limits : ResourceLimits} {dictionary : Dictionary} {text : StreamText}
    (key : ObjectKey) (log : FactLog) (threshold : Nat) (h : At source pos (text.bytes ++ rest)) :
    (dictionary.get "Length" = some (.integer text.payload.length) →
      text.payload.length ≤ limits.maxStreamDeclaredBytes →
      ReadsPayload (.fromSource source threshold) limits key dictionary pos log text
        (some text.payload.length)) ∧
    (NoUsableLength limits source dictionary (text.dataStart pos) →
      (∀ i, ¬ Occurs endstreamMarker text.payload i) →
      (∀ b, text.payload.getLast? = some b → isEol b = false) →
      text.payload.length + (optionalEol text.ending).length + endstreamMarker.length
        ≤ limits.maxStreamDeclaredBytes →
      ReadsPayload (.fromSource source threshold) limits key dictionary pos log text
        (declaredLength dictionary)) := by
  have hgap : At source pos (text.gap.bytes ++ (streamMarker ++ (text.eol.bytes ++ (text.payload
      ++ (optionalEol text.ending ++ (endstreamMarker ++ rest)))))) := by
    simpa only [StreamText.bytes, List.append_assoc] using h
  have hdata : At source (text.dataStart pos) (text.payload ++ (optionalEol text.ending
      ++ (endstreamMarker ++ rest))) := hgap.skip.skip.skip
  constructor
  · intro hlength hlimit
    have hdeclared : declaredLength dictionary = some text.payload.length := by
      unfold declaredLength integerFromDictionary
      rw [hlength]
      show u64OfInt text.payload.length = some text.payload.length
      unfold u64OfInt
      rw [if_pos (Int.natCast_nonneg _), Int.toNat_natCast]
    rw [← hdeclared]
    refine readsPayload_of_extent threshold h (fun length hsome => ?_) ?_
    · rw [hdeclared] at hsome
      cases hsome
      exact hlimit
    · rw [hdeclared]
      exact hdata.streamExtent_declared text.ending
  · intro husable hfree hend hlimit
    refine readsPayload_of_extent threshold h (fun length hsome => (husable length hsome).1) ?_
    exact hdata.streamExtent_scanned text.ending (fun length hsome => (husable length hsome).2) hfree
      hend hlimit

/-- The text `stream`, LF, a payload, CRLF, `endstream`. -/
def lfStreamText (payload : Bytes) : StreamText where
  gap := ⟨[], .nil⟩
  eol := .lf
  eol_ne := nofun
  payload := payload
  ending := some .crlf

/-- The key of a first object. -/
def firstKey : ObjectKey :=
  .ofNumber 1

/-- The payload `endstream` by its length, and the payload `a` without one. -/
theorem parseStream_payload_both :
    ReadsPayload (.fromSource (lfStreamText endstreamMarker).bytes 0) {} firstKey
      [(PdfName.fromStatic "Length", .integer 9)] 0 ⟨[], []⟩ (lfStreamText endstreamMarker) (some 9) ∧
    ReadsPayload (.fromSource (lfStreamText [97]).bytes 0) {} firstKey [] 0 ⟨[], []⟩
      (lfStreamText [97]) none := by
  have hwhole : ∀ payload, At (lfStreamText payload).bytes 0 ((lfStreamText payload).bytes ++ []) := by
    intro payload
    rw [List.append_nil]
    exact .start _
  constructor
  · exact (parseStream_payload firstKey _ 0 (hwhole _)).1 (by rfl) (by decide)
  · refine (parseStream_payload firstKey _ 0 (hwhole [97])).2 nofun (fun i hocc => ?_)
      (fun b hb => ?_) (by decide)
    · have hle := hocc.add_length_le endstreamMarker_ne
      rw [endstreamMarker_eq] at hle
      exact absurd hle (by simp [lfStreamText])
    · cases hb
      rfl

/-- The empty payload is within a limit of eight bytes, and its keyword is not found. -/
theorem parseStream_unscanned :
    (parseStream (.memory (utf8 "stream\nendstream")) { maxStreamDeclaredBytes := 8 } firstKey [] 0
      ⟨[], []⟩).map (fun _ => ()) = .error (.bad "missing endstream") := by
  decide

end Source

end Pdfv
