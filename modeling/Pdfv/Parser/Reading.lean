import Pdfv.Parser.SourceSpec
import Pdfv.Parser.Syntax
/-!
# Reading forward

What the token readers do at a position, in terms of the bytes that remain there. `At bytes pos rest`
says that `rest` remains at `pos`; each reader gets one lemma that names the text it moves over.
-/

namespace Pdfv

open Loop Fallible

/-- `rest` is what remains of the source at `pos`. -/
structure At (bytes : Bytes) (pos : Nat) (rest : Bytes) : Prop where
  le : pos ≤ bytes.length
  drop : bytes.drop pos = rest

/-- The reader of a source in memory. -/
abbrev readerOf (bytes : Bytes) : ByteSource :=
  (SourceStorage.memory bytes).reader

namespace At

variable {bytes rest : Bytes} {pos : Nat}

theorem append (pre rest : Bytes) : At (pre ++ rest) pre.length rest :=
  ⟨by rw [List.length_append]; omega, List.drop_left⟩

theorem start (bytes : Bytes) : At bytes 0 bytes :=
  ⟨Nat.zero_le _, rfl⟩

theorem length (h : At bytes pos rest) : bytes.length = pos + rest.length := by
  have hle := h.le
  rw [← h.drop, List.length_drop]
  omega

theorem skip {text : Bytes} (h : At bytes pos (text ++ rest)) :
    At bytes (pos + text.length) rest := by
  have hlen := h.length
  rw [List.length_append] at hlen
  refine ⟨by omega, ?_⟩
  rw [← List.drop_drop, h.drop, List.drop_left]

theorem next {b : UInt8} (h : At bytes pos (b :: rest)) : At bytes (pos + 1) rest := by
  have hskip : At bytes pos ([b] ++ rest) := h
  exact hskip.skip

theorem split (h : At bytes pos rest) : ∃ pre, bytes = pre ++ rest ∧ pre.length = pos := by
  refine ⟨bytes.take pos, ?_, ?_⟩
  · rw [← h.drop, List.take_append_drop]
  · rw [List.length_take]
    have hle := h.le
    omega

/-! ## Bytes and markers -/

theorem byte (h : At bytes pos rest) : (readerOf bytes).byte pos = rest.head? := by
  show (SourceStorage.memory bytes).byte pos = rest.head?
  rw [SourceStorage.byte_memory, ← h.drop, List.head?_drop]

theorem slice {text : Bytes} (h : At bytes pos (text ++ rest)) :
    (readerOf bytes).slice pos (pos + text.length) = .ok text := by
  have hlen := h.length
  rw [List.length_append] at hlen
  show (SourceStorage.memory bytes).slice pos (pos + text.length) = .ok text
  rw [SourceStorage.slice_memory (by omega) (by omega), List.drop_take, h.drop,
    Nat.add_sub_cancel_left, List.take_left]

theorem startsWith (h : At bytes pos rest) (expected : Bytes) :
    (readerOf bytes).startsWith pos expected = expected.isPrefixOf rest := by
  have hlen := h.length
  show (SourceStorage.memory bytes).startsWith pos expected = expected.isPrefixOf rest
  unfold SourceStorage.startsWith
  by_cases hfit : expected.length ≤ rest.length
  · rw [SourceStorage.slice_memory (by omega) (by omega), List.drop_take, h.drop,
      Nat.add_sub_cancel_left]
    rw [Bool.eq_iff_iff, decide_eq_true_eq, List.isPrefixOf_iff_prefix,
      List.prefix_iff_eq_take]
    exact eq_comm
  · have hout : pos > pos + expected.length
        ∨ pos + expected.length > (SourceStorage.memory bytes).len := by
      rw [SourceStorage.len_memory]
      omega
    rw [SourceStorage.slice_outside hout]
    symm
    rw [← Bool.not_eq_true, List.isPrefixOf_iff_prefix]
    intro hprefix
    exact hfit hprefix.length_le

/-- A search up to a position sees the bytes before it. -/
theorem findBytes (h : At bytes pos rest) {needle : Bytes} (hne : needle ≠ []) {stop : Nat}
    (hle : pos ≤ stop) (hstop : stop ≤ bytes.length) :
    (readerOf bytes).findBytes needle pos stop
      = (Search.findWindow needle (rest.take (stop - pos))).map (pos + ·) := by
  have hrange : ¬ (needle = [] ∨ pos > stop ∨ stop > (SourceStorage.memory bytes).len) := by
    rw [SourceStorage.len_memory]
    rintro (hnil | hlt | hlt)
    · exact hne hnil
    · omega
    · omega
  show (SourceStorage.memory bytes).findBytes needle pos stop = _
  unfold SourceStorage.findBytes
  rw [if_neg hrange]
  dsimp only
  rw [SourceStorage.slice_memory hle hstop, List.drop_take, h.drop]
  dsimp only
  rw [findBytes_zero]

theorem consumeBytes {text : Bytes} (h : At bytes pos (text ++ rest)) :
    (readerOf bytes).consumeBytes text pos = .ok (pos + text.length) := by
  have hstart : (readerOf bytes).startsWith pos text = true := by
    rw [h.startsWith, List.isPrefixOf_iff_prefix]
    exact List.prefix_append text rest
  unfold ByteSource.consumeBytes
  rw [if_pos hstart]

/-! ## Runs of bytes -/

theorem skipWhileLoop (p : UInt8 → Bool) (h : At bytes pos rest) {fuel : Nat}
    (hfuel : rest.length < fuel) :
    runLoop ((readerOf bytes).skipWhileStep p) id fuel pos
      = pos + (rest.takeWhile p).length := by
  induction rest generalizing pos fuel with
  | nil =>
    obtain ⟨fuel, rfl⟩ : ∃ n, fuel = n + 1 := ⟨fuel - 1, by rw [List.length_nil] at hfuel; omega⟩
    have hstep : (readerOf bytes).skipWhileStep p pos = .done pos := by
      unfold ByteSource.skipWhileStep
      rw [h.byte]
      rfl
    rw [runLoop_done hstep]
    rfl
  | cons b rest ih =>
    rw [List.length_cons] at hfuel
    obtain ⟨fuel, rfl⟩ : ∃ n, fuel = n + 1 := ⟨fuel - 1, by omega⟩
    by_cases hb : p b = true
    · have hstep : (readerOf bytes).skipWhileStep p pos = .next (pos + 1) := by
        unfold ByteSource.skipWhileStep
        rw [h.byte]
        exact if_pos hb
      rw [runLoop_next hstep, ih h.next (by omega), List.takeWhile_cons_of_pos hb,
        List.length_cons]
      omega
    · have hstep : (readerOf bytes).skipWhileStep p pos = .done pos := by
        unfold ByteSource.skipWhileStep
        rw [h.byte]
        exact if_neg hb
      rw [runLoop_done hstep, List.takeWhile_cons_of_neg hb]
      rfl

theorem skipWhile (p : UInt8 → Bool) (h : At bytes pos rest) :
    (readerOf bytes).skipWhile p pos = pos + (rest.takeWhile p).length := by
  have hlen := h.length
  refine h.skipWhileLoop p ?_
  show rest.length < bytes.length - pos + 1
  omega

/-- A run of bytes with the property, followed by a byte without it. -/
theorem skipRun (p : UInt8 → Bool) {run : Bytes} (h : At bytes pos (run ++ rest))
    (hrun : ∀ b ∈ run, p b = true) (hrest : ∀ b, rest.head? = some b → p b = false) :
    (readerOf bytes).skipWhile p pos = pos + run.length := by
  rw [h.skipWhile, List.takeWhile_append_of_pos hrun]
  cases rest with
  | nil => rw [List.takeWhile_nil, List.append_nil]
  | cons b rest =>
    have hb := hrest b rfl
    rw [List.takeWhile_cons_of_neg (by rw [hb]; exact Bool.false_ne_true), List.append_nil]

theorem skipLineLoop {line : Bytes} {eol : UInt8} (h : At bytes pos (line ++ eol :: rest))
    (hline : ∀ b ∈ line, isEol b = false) (heol : isEol eol = true) {fuel : Nat}
    (hfuel : line.length < fuel) :
    runLoop (readerOf bytes).skipLineStep id fuel pos = pos + line.length + 1 := by
  induction line generalizing pos fuel with
  | nil =>
    obtain ⟨fuel, rfl⟩ : ∃ n, fuel = n + 1 := ⟨fuel - 1, by rw [List.length_nil] at hfuel; omega⟩
    have hstep : (readerOf bytes).skipLineStep pos = .done (pos + 1) := by
      unfold ByteSource.skipLineStep
      rw [h.byte]
      exact if_pos heol
    rw [runLoop_done hstep]
    rfl
  | cons b line ih =>
    rw [List.length_cons] at hfuel
    obtain ⟨fuel, rfl⟩ : ∃ n, fuel = n + 1 := ⟨fuel - 1, by omega⟩
    have hb := hline b List.mem_cons_self
    have hstep : (readerOf bytes).skipLineStep pos = .next (pos + 1) := by
      unfold ByteSource.skipLineStep
      rw [h.byte]
      exact if_neg (by rw [hb]; exact Bool.false_ne_true)
    rw [runLoop_next hstep, ih h.next (fun c hc => hline c (List.mem_cons_of_mem _ hc)) (by omega),
      List.length_cons]
    omega

/-- A line and the first byte of its line end. -/
theorem skipLine {line : Bytes} {eol : UInt8} (h : At bytes pos (line ++ eol :: rest))
    (hline : ∀ b ∈ line, isEol b = false) (heol : isEol eol = true) :
    (readerOf bytes).skipLine pos = pos + line.length + 1 := by
  have hlen := h.length
  rw [List.length_append, List.length_cons] at hlen
  refine h.skipLineLoop hline heol ?_
  show line.length < bytes.length - pos + 1
  omega

end At

/-! ## White space and comments -/

theorem eofMarker_noEol : ∀ b ∈ eofMarker, isEol b = false := by
  decide

/-- White space and comments: what may stand between two tokens. A comment does not start with
`%%EOF`, and it has its line end. -/
inductive Blank : Bytes → Prop where
  | nil : Blank []
  | ws {b : UInt8} {gap : Bytes} (hb : isWs b = true) (hgap : Blank gap) : Blank (b :: gap)
  | comment {body : Bytes} {eol : UInt8} {gap : Bytes} (hbody : ∀ b ∈ body, isEol b = false)
    (hmarker : ¬ eofMarker <+: 37 :: body) (heol : isEol eol = true) (hgap : Blank gap) :
    Blank (37 :: (body ++ eol :: gap))

/-- The bytes neither start with white space nor with a comment. -/
def StartsToken (rest : Bytes) : Prop :=
  ∀ b, rest.head? = some b → isWs b = false ∧ (b = 37 → eofMarker <+: rest)

/-- A text without line ends cannot reach over one. -/
theorem prefix_of_noEol {text line rest : Bytes} {eol : UInt8}
    (htext : ∀ b ∈ text, isEol b = false) (heol : isEol eol = true)
    (h : text <+: line ++ eol :: rest) : text <+: line := by
  induction line generalizing text with
  | nil =>
    cases text with
    | nil => exact List.prefix_rfl
    | cons b text =>
      rw [List.nil_append, List.cons_prefix_cons] at h
      obtain ⟨rfl, -⟩ := h
      have hb := htext b List.mem_cons_self
      rw [heol] at hb
      cases hb
  | cons c line ih =>
    cases text with
    | nil => exact List.nil_prefix
    | cons b text =>
      rw [List.cons_append, List.cons_prefix_cons] at h
      obtain ⟨rfl, h⟩ := h
      rw [List.cons_prefix_cons]
      exact ⟨rfl, ih (fun c hc => htext c (List.mem_cons_of_mem _ hc)) h⟩

theorem isPrefixOf_eq_false {text rest : Bytes} (h : ¬ text <+: rest) :
    text.isPrefixOf rest = false := by
  rw [← Bool.not_eq_true, List.isPrefixOf_iff_prefix]
  exact h

namespace At

variable {bytes rest : Bytes} {pos : Nat}

theorem skipWsAndCommentsStep_token (h : At bytes pos rest) (hrest : StartsToken rest) :
    (readerOf bytes).skipWsAndCommentsStep pos = .done pos := by
  have hskip : (readerOf bytes).skipWhile isWs pos = pos := by
    have hrun : At bytes pos ([] ++ rest) := h
    exact hrun.skipRun isWs (fun b hb => absurd hb List.not_mem_nil) fun b hb => (hrest b hb).1
  unfold ByteSource.skipWsAndCommentsStep
  rw [hskip]
  dsimp only
  split
  · rfl
  · rename_i hmarker
    rw [h.startsWith, List.isPrefixOf_iff_prefix] at hmarker
    rw [h.byte]
    split
    · rename_i hpercent
      exact absurd ((hrest 37 hpercent).2 rfl) hmarker
    · rfl

theorem skipBlankLoop {gap : Bytes} (hgap : Blank gap) (hrest : StartsToken rest)
    (h : At bytes pos (gap ++ rest)) {fuel : Nat} (hfuel : gap.length < fuel) :
    runLoop (readerOf bytes).skipWsAndCommentsStep id fuel pos = pos + gap.length := by
  induction hgap generalizing pos fuel with
  | nil =>
    obtain ⟨fuel, rfl⟩ : ∃ n, fuel = n + 1 := ⟨fuel - 1, by rw [List.length_nil] at hfuel; omega⟩
    rw [runLoop_done (h.skipWsAndCommentsStep_token hrest)]
    rfl
  | @ws b gap hb _ ih =>
    -- the white space run from here is the one from the next byte and this byte
    rw [List.length_cons] at hfuel ⊢
    obtain ⟨fuel, rfl⟩ : ∃ n, fuel = n + 1 := ⟨fuel - 1, by omega⟩
    have hnext : At bytes (pos + 1) (gap ++ rest) := h.next
    have hrun : (readerOf bytes).skipWhile isWs pos = (readerOf bytes).skipWhile isWs (pos + 1) := by
      rw [h.skipWhile, List.cons_append, List.takeWhile_cons_of_pos hb, hnext.skipWhile,
        List.length_cons]
      omega
    have hstep : (readerOf bytes).skipWsAndCommentsStep pos
        = (readerOf bytes).skipWsAndCommentsStep (pos + 1) := by
      unfold ByteSource.skipWsAndCommentsStep
      rw [hrun]
    have hih := ih hnext (by omega : gap.length < fuel + 1)
    unfold runLoop at hih ⊢
    rw [hstep, hih]
    omega
  | @comment body eol gap hbody hmarker heol _ ih =>
    rw [List.length_cons, List.length_append, List.length_cons] at hfuel
    obtain ⟨fuel, rfl⟩ : ∃ n, fuel = n + 1 := ⟨fuel - 1, by omega⟩
    have hline : At bytes pos ((37 :: body) ++ eol :: (gap ++ rest)) := by
      simpa using h
    have hskip : (readerOf bytes).skipWhile isWs pos = pos := by
      have hrun : At bytes pos ([] ++ ((37 :: body) ++ eol :: (gap ++ rest))) := hline
      refine hrun.skipRun isWs (fun b hb => absurd hb List.not_mem_nil) fun b hb => ?_
      cases hb
      decide
    have hnot : (readerOf bytes).startsWith pos eofMarker = false := by
      rw [hline.startsWith]
      exact isPrefixOf_eq_false fun hprefix =>
        hmarker (prefix_of_noEol eofMarker_noEol heol hprefix)
    have hpercent : (readerOf bytes).byte pos = some 37 := by
      rw [hline.byte]
      rfl
    have hend : (readerOf bytes).skipLine pos = pos + (37 :: body).length + 1 := by
      refine hline.skipLine (fun b hb => ?_) heol
      rcases List.mem_cons.mp hb with rfl | hb
      · decide
      · exact hbody b hb
    have hstep : (readerOf bytes).skipWsAndCommentsStep pos
        = .next (pos + (37 :: body).length + 1) := by
      unfold ByteSource.skipWsAndCommentsStep
      rw [hskip]
      dsimp only
      rw [hnot, hpercent, hend]
      rfl
    rw [runLoop_next hstep, ih hline.skip.next (by omega)]
    simp only [List.length_cons, List.length_append]
    omega

/-- White space and comments up to the next token. -/
theorem skipBlank {gap : Bytes} (hgap : Blank gap) (hrest : StartsToken rest)
    (h : At bytes pos (gap ++ rest)) :
    (readerOf bytes).skipWsAndComments pos = pos + gap.length := by
  have hlen := h.length
  rw [List.length_append] at hlen
  refine skipBlankLoop hgap hrest h ?_
  show gap.length < bytes.length - pos + 1
  omega

theorem skipToken (h : At bytes pos rest) (hrest : StartsToken rest) :
    (readerOf bytes).skipWsAndComments pos = pos :=
  skipBlank .nil hrest h

end At

/-! ## Numbers -/

theorem isWs_of_isDigit {b : UInt8} (h : isDigit b = true) : isWs b = false := by
  unfold isDigit at h
  unfold isWs
  grind

theorem startsToken_digit {b : UInt8} {rest : Bytes} (h : isDigit b = true) :
    StartsToken (b :: rest) := by
  intro c hc
  cases hc
  refine ⟨isWs_of_isDigit h, ?_⟩
  rintro rfl
  cases h

namespace At

variable {bytes rest : Bytes} {pos : Nat}

/-- A numeral after white space and comments. -/
theorem parseUnsigned (size : Nat) {gap digits : Bytes} (h : At bytes pos (gap ++ (digits ++ rest)))
    (hgap : Blank gap) (hdigits : ∀ b ∈ digits, isDigit b = true) (hne : digits ≠ [])
    (hrest : ∀ b, rest.head? = some b → isDigit b = false) :
    (readerOf bytes).parseUnsigned size pos
      = if digitsValue digits ≥ size then .error (.bad "unsigned integer out of range")
        else .ok (some (digitsValue digits), pos + gap.length + digits.length) := by
  obtain ⟨b, digits', rfl⟩ := List.exists_cons_of_ne_nil hne
  have htoken : StartsToken ((b :: digits') ++ rest) :=
    startsToken_digit (hdigits b List.mem_cons_self)
  have hstart := skipBlank hgap htoken h
  have hstop := h.skip.skipRun isDigit hdigits hrest
  have hlen : (b :: digits').length = digits'.length + 1 := rfl
  unfold ByteSource.parseUnsigned
  dsimp only
  rw [hstart, hstop, if_neg (by omega), h.skip.slice, ok_bind]
  unfold failIf
  split
  · rfl
  · rfl

/-- No numeral stands at the next token. -/
theorem parseUnsigned_none (size : Nat) {gap : Bytes} (h : At bytes pos (gap ++ rest))
    (hgap : Blank gap) (hrest : StartsToken rest)
    (hdigit : ∀ b, rest.head? = some b → isDigit b = false) :
    (readerOf bytes).parseUnsigned size pos = .ok (none, pos + gap.length) := by
  have hstart := skipBlank hgap hrest h
  have hempty : At bytes (pos + gap.length) ([] ++ rest) := h.skip
  have hstop := hempty.skipRun isDigit (fun b hb => absurd hb List.not_mem_nil) hdigit
  rw [List.length_nil, Nat.add_zero] at hstop
  unfold ByteSource.parseUnsigned
  dsimp only
  rw [hstart, hstop, if_pos rfl]
  rfl

theorem skipRequiredWs {run : Bytes} (h : At bytes pos (run ++ rest))
    (hrun : ∀ b ∈ run, isWs b = true) (hne : run ≠ [])
    (hrest : ∀ b, rest.head? = some b → isWs b = false) :
    (readerOf bytes).skipRequiredWs pos = .ok (pos + run.length) := by
  have hpos := List.length_pos_iff.mpr hne
  unfold ByteSource.skipRequiredWs
  rw [h.skipRun isWs hrun hrest]
  exact if_neg (by omega)

theorem not_startsWith {b c : UInt8} {expected text : Bytes} (h : At bytes pos (b :: rest))
    (hexpected : expected = c :: text) (hne : c ≠ b) :
    (readerOf bytes).startsWith pos expected = false := by
  rw [h.startsWith, hexpected]
  refine isPrefixOf_eq_false fun hprefix => hne ?_
  rw [List.cons_prefix_cons] at hprefix
  exact hprefix.1

theorem startsWith_self {text : Bytes} (h : At bytes pos (text ++ rest)) :
    (readerOf bytes).startsWith pos text = true := by
  rw [h.startsWith, List.isPrefixOf_iff_prefix]
  exact List.prefix_append text rest

end At

end Pdfv
