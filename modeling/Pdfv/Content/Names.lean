import Pdfv.Content.PrintedTokens
/-!
# Two readers of names

The object parser decodes a name while it scans, and fails on an escape that is none. The content
tokenizer finds the end of the name first and decodes it afterwards. Where the parser succeeds it has read
a `NameText`, and that is what the tokenizer reads as well.
-/

namespace Pdfv

open Loop Fallible

section Names

variable {bytes rest : Bytes} {pos : Nat} {limits : ResourceLimits}

theorem checkNameLen_next {read : Bytes} {stop : Nat} {s' : Bytes × Nat}
    (h : ByteSource.checkNameLen limits read stop = .next s') : s' = (read, stop) := by
  unfold ByteSource.checkNameLen at h
  split at h
  · cases h
  · cases h
    rfl

theorem checkNameLen_done {read : Bytes} {stop : Nat} {result : Bytes × Nat} :
    ByteSource.checkNameLen limits read stop ≠ .done (.ok result) := by
  unfold ByteSource.checkNameLen
  intro h
  split at h <;> cases h

/-- One pass over a name: a regular byte or an escape is read. -/
theorem parseNameStep_next {s s' : Bytes × Nat} (hat : At bytes s.2 rest)
    (h : (readerOf bytes).parseNameStep limits s = .next s') :
    ∃ b text more, rest = text ++ more ∧ text ≠ [] ∧ s' = (s.1 ++ [b], s.2 + text.length) ∧
      ∀ {name tail : Bytes}, NameText name tail → NameText (b :: name) (text ++ tail) := by
  obtain ⟨read, place⟩ := s
  unfold ByteSource.parseNameStep at h
  dsimp only at h hat ⊢
  rw [hat.byte] at h
  cases rest with
  | nil => cases h
  | cons b rest =>
    dsimp only [List.head?_cons] at h
    split at h
    · cases h
    · rename_i hend
      have hregular : isRegularByte b = true := by
        rw [Bool.or_eq_true, not_or, Bool.not_eq_true, Bool.not_eq_true] at hend
        unfold isRegularByte
        rw [hend.1, hend.2]
        rfl
      split at h
      · rename_i hescape
        subst hescape
        have hfirst : (readerOf bytes).byte (place + 1) = rest.head? := hat.next.byte
        rw [hfirst] at h
        cases rest with
        | nil => cases h
        | cons high rest =>
          have hsecond : (readerOf bytes).byte (place + 2) = rest.head? := hat.next.next.byte
          rw [hsecond] at h
          cases rest with
          | nil => cases h
          | cons low rest =>
            dsimp only [List.head?_cons] at h
            split at h
            · rename_i decoded hpair
              exact ⟨decoded, [35, high, low], rest, rfl, List.cons_ne_nil _ _, checkNameLen_next h,
                fun hname => .escape hpair hname⟩
            · cases h
      · rename_i hescape
        exact ⟨b, [b], rest, rfl, List.cons_ne_nil _ _, checkNameLen_next h,
          fun hname => .plain hregular hescape hname⟩

/-- The loop ends before a delimiter, white space or the end. -/
theorem parseNameStep_done {s : Bytes × Nat} {result : Bytes × Nat} (hat : At bytes s.2 rest)
    (h : (readerOf bytes).parseNameStep limits s = .done (.ok result)) :
    result = s ∧ EndsToken rest := by
  obtain ⟨read, place⟩ := s
  unfold ByteSource.parseNameStep at h
  dsimp only at h hat ⊢
  rw [hat.byte] at h
  cases rest with
  | nil =>
    cases h
    exact ⟨rfl, fun b hb => by cases hb⟩
  | cons b rest =>
    dsimp only [List.head?_cons] at h
    split at h
    · rename_i hend
      cases h
      refine ⟨rfl, fun c hc => ?_⟩
      cases hc
      rw [Bool.or_eq_true] at hend
      unfold isRegularByte
      rcases hend with hdelimiter | hws
      · rw [hdelimiter, Bool.not_true, Bool.and_false]
      · rw [hws]
        rfl
    · split at h
      · split at h
        · split at h
          · exact absurd h checkNameLen_done
          · cases h
        · cases h
      · exact absurd h checkNameLen_done

theorem parseNameStep_lt (s s' : Bytes × Nat)
    (h : (readerOf bytes).parseNameStep limits s = .next s') :
    bytes.length - s'.2 < bytes.length - s.2 := by
  have hinside : s.2 < bytes.length := by
    by_contra hout
    have hnone : (readerOf bytes).byte s.2 = none := by
      rw [Option.eq_none_iff_forall_ne_some]
      intro b hb
      exact hout ((readerOf bytes).lt_len s.2 b hb)
    obtain ⟨read, place⟩ := s
    unfold ByteSource.parseNameStep at h
    dsimp only at h hnone
    rw [hnone] at h
    cases h
  obtain ⟨b, text, more, -, hne, hs, -⟩ :=
    parseNameStep_next ⟨Nat.le_of_lt hinside, rfl⟩ h
  have hpos : 0 < text.length := List.length_pos_iff.mpr hne
  rw [hs]
  dsimp only
  omega

/-- The bytes that the loop takes are the text of the name. -/
theorem parseNameLoop_text {s result : Bytes × Nat} (hat : At bytes s.2 rest)
    (h : Finishes ((readerOf bytes).parseNameStep limits) s (.ok result)) :
    ∃ name text more, rest = text ++ more ∧ NameText name text ∧ EndsToken more ∧
      result = (s.1 ++ name, s.2 + text.length) := by
  generalize hr : (Except.ok result : Except ParseError (Bytes × Nat)) = r at h
  induction h generalizing rest with
  | done hdone =>
    subst hr
    obtain ⟨hsame, hends⟩ := parseNameStep_done hat hdone
    refine ⟨[], [], rest, rfl, .nil, hends, ?_⟩
    rw [hsame, List.append_nil]
    rfl
  | next hnext _ ih =>
    obtain ⟨b, text, more, hrest, -, hs, htext⟩ := parseNameStep_next hat hnext
    subst hrest
    have hmore := hat.skip
    rw [hs] at ih
    obtain ⟨name, tail, last, htail, hname, hends, hresult⟩ := ih hmore hr
    refine ⟨b :: name, text ++ tail, last, ?_, htext hname, hends, ?_⟩
    · rw [htail, List.append_assoc]
    · rw [hresult, List.append_assoc, List.length_append, Nat.add_assoc]
      rfl

/-- Where the object parser reads a name, the content tokenizer reads the same name and stops at the same
place. -/
theorem nextToken_parseName {name : PdfName} {stop : Nat} (hslash : bytes[pos]? = some 47)
    (h : (readerOf bytes).parseName limits pos = .ok (name, stop)) :
    ContentTokenizer.nextToken bytes limits pos = .ok (some (.operand (.name name)), stop) := by
  obtain ⟨hinside, hbyte⟩ := List.getElem?_eq_some_iff.mp hslash
  have hat : At bytes pos ([47] ++ bytes.drop (pos + 1)) :=
    ⟨Nat.le_of_lt hinside, by rw [← hbyte]; exact List.drop_eq_getElem_cons hinside⟩
  unfold ByteSource.parseName at h
  rw [hat.consumeBytes, ok_bind] at h
  obtain ⟨⟨read, last⟩, hloop, h⟩ := bind_eq_ok.mp h
  obtain ⟨found, hfound, h⟩ := bind_eq_ok.mp h
  obtain ⟨rfl, rfl⟩ := Prod.mk.inj (pure_eq_ok.mp h)
  have hfinish : Finishes ((readerOf bytes).parseNameStep limits) ([], pos + 1) (.ok (read, last)) := by
    rw [← hloop]
    exact runLoop_finishes parseNameStep_lt (Nat.lt_succ_self _)
  obtain ⟨spelled, text, more, hdrop, hname, hends, hresult⟩ :=
    parseNameLoop_text (hat.skip : At bytes (pos + 1) _) hfinish
  cases hresult
  unfold PdfName.new at hfound
  split at hfound
  · cases hfound
  · rename_i hlimit
    cases hfound
    have hstart : ContentTokenizer.skipWsAndComments bytes pos = pos := by
      have hgap : At bytes pos ([] ++ (47 :: bytes.drop (pos + 1))) := hat
      have hstarts : StartsText (47 :: bytes.drop (pos + 1)) := by
        intro b hb
        cases hb
        decide
      exact hgap.skipGap .nil hstarts
    have hwhole : At bytes pos (47 :: (text ++ more)) := by
      rw [← hdrop]
      exact hat
    have hbytes : NameText (PdfName.mk spelled).bytes text := hname
    have htoken := hwhole.nextToken_name hstart hbytes hends (Nat.not_lt.mp hlimit)
    rw [List.length_cons, Nat.add_comm text.length, ← Nat.add_assoc] at htoken
    exact htoken

end Names

/-- An escape, with a delimiter behind the name. -/
theorem nextToken_parseName_escape :
    ContentTokenizer.nextToken (utf8 " /A#2fB/C") {} 1
      = .ok (some (.operand (.name ⟨utf8 "A/B"⟩)), 7) :=
  nextToken_parseName (by decide) (by decide)

end Pdfv
