import Pdfv.Content.Numbers
import Pdfv.Content.Summary
/-!
# The tokenizer reads spelled tokens

`next_token` at white space, comments and a spelled token: the operand that the value becomes
(`At.nextToken_value`), or the operator (`At.nextToken_operator`).
-/

namespace Pdfv

open Loop Fallible

/-- The operand that a spelled value becomes: of most values only the length is kept. -/
def readOperand (value : CosObject) (text : Bytes) : Operand :=
  match value with
  | .name name => .name name
  | .integer value => .integer value
  | .dictionary _ => .composite text
  | .null | .boolean _ => .keyword text
  | _ => .bytes text.length

/-- The name in a value. -/
def nameInValue (value : CosObject) : Option PdfName :=
  match value with
  | .name name => some name
  | _ => none

theorem asName_readOperand (value : CosObject) (text : Bytes) :
    (readOperand value text).asName = nameInValue value := by
  cases value <;> rfl

/-- The limits on one operand. -/
def OperandFits (limits : ResourceLimits) (value : CosObject) (text : Bytes) : Prop :=
  match value with
  | .name name => name.bytes.length ≤ limits.maxNameBytes
  | .dictionary _ => text.length ≤ limits.maxContentStreamOperandBytes
  | _ => True

/-- The bytes do not go on with a regular byte. -/
def EndsToken (rest : Bytes) : Prop :=
  ∀ b, rest.head? = some b → isRegularByte b = false

theorem StartsGap.endsToken {rest : Bytes} (h : StartsGap rest) : EndsToken rest :=
  h.ends

theorem decodeNameBytes_plain {b : UInt8} (hb : b ≠ 35) (rest : Bytes) :
    decodeNameBytes (b :: rest) = b :: decodeNameBytes rest := by
  rw [decodeNameBytes.eq_def]
  split
  · rename_i heq
    exact absurd (List.cons.inj heq).1 hb
  · rename_i heq
    cases heq
    rfl
  · rename_i heq
    cases heq

theorem decodeNameBytes_escape {high low b : UInt8} (h : decodeHexPair high low = some b) (rest : Bytes) :
    decodeNameBytes (35 :: high :: low :: rest) = b :: decodeNameBytes rest := by
  rw [decodeNameBytes, h]

/-- The text of a name is decoded to its bytes. -/
theorem NameText.decode {name text : Bytes} (h : NameText name text) : decodeNameBytes text = name := by
  induction h with
  | nil => rfl
  | plain _ hescape _ ih => rw [decodeNameBytes_plain hescape, ih]
  | escape hpair _ ih => rw [decodeNameBytes_escape hpair, ih]

section Tokens

variable {bytes rest text : Bytes} {limits : ResourceLimits} {pos start : Nat}

theorem isRegularByte_start {b : UInt8} (h : isRegularByte b = true) :
    b ≠ 47 ∧ b ≠ 40 ∧ b ≠ 60 ∧ b ≠ 91 := by
  refine ⟨?_, ?_, ?_, ?_⟩ <;> (rintro rfl; revert h; decide)

/-- A run of regular bytes. -/
theorem At.regularRun (h : At bytes start (text ++ rest)) (htext : ∀ b ∈ text, isRegularByte b = true)
    (hrest : EndsToken rest) :
    ContentTokenizer.consumeUntilDelimiter bytes start = start + text.length
      ∧ (bytes.drop start).take (start + text.length - start) = text := by
  refine ⟨h.consumeRun _ htext hrest, ?_⟩
  rw [h.drop, Nat.add_sub_cancel_left, List.take_left]

/-- A token of regular bytes is a keyword, a number or an operator. -/
theorem At.nextToken_regular (h : At bytes start (text ++ rest))
    (hstart : ContentTokenizer.skipWsAndComments bytes pos = start) (hne : text ≠ [])
    (htext : ∀ b ∈ text, isRegularByte b = true) :
    ContentTokenizer.nextToken bytes limits pos
      = (do
          let (token, stop) ← ContentTokenizer.consumeRegularToken bytes limits start
          return (some token, stop)) := by
  obtain ⟨b, more, rfl⟩ := List.exists_cons_of_ne_nil hne
  obtain ⟨hname, hliteral, hhex, harray⟩ := isRegularByte_start (htext b List.mem_cons_self)
  unfold ContentTokenizer.nextToken
  dsimp only
  rw [hstart, h.get, List.cons_append, List.head?_cons]
  dsimp only
  rw [if_neg hname, if_neg hliteral, if_neg fun hb => hhex hb.1, if_neg harray, if_neg hhex]

theorem At.nextToken_keyword (h : At bytes start (text ++ rest))
    (hstart : ContentTokenizer.skipWsAndComments bytes pos = start)
    (htext : ∀ b ∈ text, isRegularByte b = true) (hne : text ≠ []) (hrest : EndsToken rest)
    (hkeyword : isKeywordOperand text = true) :
    ContentTokenizer.nextToken bytes limits pos
      = .ok (some (.operand (.keyword text)), start + text.length) := by
  obtain ⟨hstop, hslice⟩ := h.regularRun htext hrest
  rw [h.nextToken_regular hstart hne htext]
  unfold ContentTokenizer.consumeRegularToken
  rw [hstop]
  dsimp only
  rw [hslice, hkeyword]
  rfl

theorem At.nextToken_integer {value : Int} (h : At bytes start (text ++ rest))
    (hstart : ContentTokenizer.skipWsAndComments bytes pos = start)
    (htext : ∀ b ∈ text, isNumeric b = true) (hne : text ≠ []) (hrest : EndsToken rest)
    (hinteger : parseInteger text = some value) :
    ContentTokenizer.nextToken bytes limits pos
      = .ok (some (.operand (.integer value)), start + text.length) := by
  have hregular : ∀ b ∈ text, isRegularByte b = true := fun b hb => isNumeric_regular b (htext b hb)
  obtain ⟨hstop, hslice⟩ := h.regularRun hregular hrest
  rw [h.nextToken_regular hstart hne hregular]
  unfold ContentTokenizer.consumeRegularToken
  rw [hstop]
  dsimp only
  rw [hslice, isKeywordOperand_numeric htext, hinteger]
  rfl

theorem At.nextToken_real (h : At bytes start (text ++ rest))
    (hstart : ContentTokenizer.skipWsAndComments bytes pos = start)
    (htext : ∀ b ∈ text, isNumeric b = true) (hne : text ≠ []) (hrest : EndsToken rest)
    (hinteger : parseInteger text = none) (hnumber : isNumberLike text = true) :
    ContentTokenizer.nextToken bytes limits pos
      = .ok (some (.operand (.bytes text.length)), start + text.length) := by
  have hregular : ∀ b ∈ text, isRegularByte b = true := fun b hb => isNumeric_regular b (htext b hb)
  obtain ⟨hstop, hslice⟩ := h.regularRun hregular hrest
  rw [h.nextToken_regular hstart hne hregular]
  unfold ContentTokenizer.consumeRegularToken
  rw [hstop]
  dsimp only
  rw [hslice, isKeywordOperand_numeric htext, hinteger, hnumber]
  rfl

theorem At.nextToken_name {name : PdfName} (h : At bytes start (47 :: (text ++ rest)))
    (hstart : ContentTokenizer.skipWsAndComments bytes pos = start) (hname : NameText name.bytes text)
    (hrest : EndsToken rest) (hlimit : name.bytes.length ≤ limits.maxNameBytes) :
    ContentTokenizer.nextToken bytes limits pos
      = .ok (some (.operand (.name name)), start + (47 :: text).length) := by
  have hafter : At bytes (start + 1) (text ++ rest) := h.next
  obtain ⟨hstop, hslice⟩ := hafter.regularRun hname.regular hrest
  have hlength : start + (47 :: text).length = start + 1 + text.length := by
    rw [List.length_cons]
    omega
  unfold ContentTokenizer.nextToken
  dsimp only
  rw [hstart, h.get, List.head?_cons]
  dsimp only
  rw [if_pos rfl, hstop, hslice, hlength]
  unfold decodeName PdfName.new
  dsimp only
  rw [hname.decode, (failIf_eq_ok (u := ())).mpr (Nat.not_lt.mpr hlimit), ok_bind, pure_bind,
    if_neg (Nat.not_lt.mpr hlimit)]
  rfl

theorem At.nextToken_literal {value : Bytes} (h : At bytes start (40 :: (text ++ 41 :: rest)))
    (hstart : ContentTokenizer.skipWsAndComments bytes pos = start)
    (htext : LiteralText (u32Size - 2) value text) :
    ContentTokenizer.nextToken bytes limits pos
      = .ok (some (.operand (.bytes (40 :: (text ++ [41])).length)),
        start + (40 :: (text ++ [41])).length) := by
  unfold ContentTokenizer.nextToken
  dsimp only
  rw [hstart, h.get, List.head?_cons]
  dsimp only
  rw [if_neg (by decide), if_pos rfl, h.consumeLiteral htext, ok_bind, Nat.add_sub_cancel_left]
  rfl

theorem At.nextToken_hex {value : Bytes} (h : At bytes start (60 :: (text ++ 62 :: rest)))
    (hstart : ContentTokenizer.skipWsAndComments bytes pos = start) (htext : HexText value text) :
    ContentTokenizer.nextToken bytes limits pos
      = .ok (some (.operand (.bytes (60 :: (text ++ [62])).length)),
        start + (60 :: (text ++ [62])).length) := by
  have hnext : bytes[start + 1]? ≠ some 60 := by
    rw [h.next.get]
    exact htext.next rest
  unfold ContentTokenizer.nextToken
  dsimp only
  rw [hstart, h.get, List.head?_cons]
  dsimp only
  rw [if_neg (by decide), if_neg (by decide), if_pos ⟨rfl, hnext⟩, h.consumeHex htext, ok_bind,
    Nat.add_sub_cancel_left]
  rfl

theorem At.nextToken_array {depth : Nat} {values : List CosObject} {gap : Bytes}
    (h : At bytes start ((91 :: (gap ++ (text ++ [93]))) ++ rest))
    (hstart : ContentTokenizer.skipWsAndComments bytes pos = start) (hgap : QuietGap gap)
    (hvalues : Spells depth (.items values) text) (hroom : depth + 1 ≤ limits.maxObjectDepth) :
    ContentTokenizer.nextToken bytes limits pos
      = .ok (some (.operand (.bytes (91 :: (gap ++ (text ++ [93]))).length)),
        start + (91 :: (gap ++ (text ++ [93]))).length) := by
  unfold ContentTokenizer.nextToken
  dsimp only
  rw [hstart, h.get, List.cons_append, List.head?_cons]
  dsimp only
  rw [if_neg (by decide), if_neg (by decide), if_neg fun hb => absurd hb.1 (by decide), if_pos rfl,
    h.consumeArray hgap hvalues hroom, ok_bind, Nat.add_sub_cancel_left]
  rfl

theorem At.nextToken_dictionary {depth : Nat} {entries : List (PdfName × CosObject)} {gap : Bytes}
    (h : At bytes start ((60 :: 60 :: (gap ++ (text ++ [62, 62]))) ++ rest))
    (hstart : ContentTokenizer.skipWsAndComments bytes pos = start) (hgap : QuietGap gap)
    (hentries : Spells depth (.entries entries) text) (hroom : depth + 1 ≤ limits.maxObjectDepth)
    (hlimit : (60 :: 60 :: (gap ++ (text ++ [62, 62]))).length ≤ limits.maxContentStreamOperandBytes) :
    ContentTokenizer.nextToken bytes limits pos
      = .ok (some (.operand (.composite (60 :: 60 :: (gap ++ (text ++ [62, 62]))))),
        start + (60 :: 60 :: (gap ++ (text ++ [62, 62]))).length) := by
  have hnext : bytes[start + 1]? = some 60 := h.next.get
  have hlen := h.length
  rw [List.length_append] at hlen
  have hrange := h.consumeDictionary hgap hentries hroom
  have hdrop := h.drop
  generalize hwhole : 60 :: 60 :: (gap ++ (text ++ [62, 62])) = whole at hrange hlimit hlen hdrop ⊢
  have hslice : ContentTokenizer.consumeCompositeBytes bytes limits start
      = .ok (whole, start + whole.length) := by
    unfold ContentTokenizer.consumeCompositeBytes
    rw [hrange, ok_bind, Nat.add_sub_cancel_left]
    unfold subrange
    rw [(failIf_eq_ok (u := ())).mpr (Nat.not_lt.mpr hlimit), ok_bind,
      if_pos ⟨Nat.le_add_right _ _, by omega⟩, hdrop, Nat.add_sub_cancel_left, List.take_left]
    rfl
  unfold ContentTokenizer.nextToken
  dsimp only
  rw [hstart, h.get, List.cons_append, List.head?_cons, hnext]
  dsimp only
  rw [if_neg (by decide), if_neg (by decide), if_neg fun hb => hb.2 rfl, if_neg (by decide), if_pos rfl,
    hslice]
  rfl

theorem startsText_regular (hne : text ≠ []) (htext : ∀ b ∈ text, isRegularByte b = true) (rest : Bytes) :
    StartsText (text ++ rest) := by
  obtain ⟨b, more, rfl⟩ := List.exists_cons_of_ne_nil hne
  have hb := htext b List.mem_cons_self
  unfold isRegularByte at hb
  rw [Bool.and_eq_true, Bool.not_eq_true'] at hb
  intro c hc
  cases hc
  refine ⟨hb.1, ?_⟩
  rintro rfl
  exact absurd hb.2 (by decide)

/-- How a spelled value starts: neither with white space nor with a comment. -/
theorem Spells.startsText {depth : Nat} {value : CosObject} (h : Spells depth (.value value) text)
    (rest : Bytes) : text ≠ [] ∧ StartsText (text ++ rest) := by
  have hregular : ∀ {text : Bytes}, text ≠ [] → (∀ b ∈ text, isRegularByte b = true) →
      StartsText (text ++ rest) := fun hne htext => startsText_regular hne htext rest
  have hopen : ∀ {b : UInt8} {text : Bytes}, isWs b = false → b ≠ 37 → StartsText (b :: text) := by
    intro b text hws hpercent c hc
    cases hc
    exact ⟨hws, hpercent⟩
  have hkeyword : ∀ word ∈ [utf8 "null", utf8 "true", utf8 "false"],
      word ≠ [] ∧ StartsText (word ++ rest) := by
    intro word hword
    obtain ⟨hne, htext, -⟩ := keyword_text word hword
    exact ⟨hne, hregular hne htext⟩
  cases h with
  | null => exact hkeyword _ (.head _)
  | yes => exact hkeyword _ (.tail _ (.head _))
  | no => exact hkeyword _ (.tail _ (.tail _ (.head _)))
  | @integer _ value sign digits hsign hdigits hvalue =>
    have hne := List.append_ne_nil_of_right_ne_nil sign (parseI64_digits_ne hsign hvalue)
    refine ⟨hne, hregular hne fun b hb => ?_⟩
    rcases List.mem_append.mp hb with hb | hb
    · exact hsign.regular b hb
    · exact isRegularByte_digit b (hdigits b hb)
  | @real _ value sign whole fraction hsign hwhole hfraction hvalue =>
    have hne : sign ++ (whole ++ 46 :: fraction) ≠ [] := by simp
    refine ⟨hne, hregular hne fun b hb => ?_⟩
    rcases List.mem_append.mp hb with hb | hb
    · exact hsign.regular b hb
    · rcases List.mem_append.mp hb with hb | hb
      · exact isRegularByte_digit b (hwhole b hb)
      · rcases List.mem_cons.mp hb with rfl | hb
        · decide
        · exact isRegularByte_digit b (hfraction b hb)
  | name => exact ⟨List.cons_ne_nil _ _, hopen (by decide) (by decide)⟩
  | literal => exact ⟨List.cons_ne_nil _ _, hopen (by decide) (by decide)⟩
  | hex => exact ⟨List.cons_ne_nil _ _, hopen (by decide) (by decide)⟩
  | array => exact ⟨List.cons_ne_nil _ _, hopen (by decide) (by decide)⟩
  | dictionary => exact ⟨List.cons_ne_nil _ _, hopen (by decide) (by decide)⟩

/-- A spelled value is read as its operand. -/
theorem At.nextToken_value {depth : Nat} {value : CosObject} {gap : Bytes}
    (h : At bytes pos (gap ++ (text ++ rest))) (hgap : TokenGap gap) (hvalue : Spells depth (.value value) text)
    (hdepth : depth ≤ limits.maxObjectDepth) (hfits : OperandFits limits value text)
    (hrest : EndsToken rest) :
    ContentTokenizer.nextToken bytes limits pos
      = .ok (some (.operand (readOperand value text)), pos + gap.length + text.length) := by
  obtain ⟨hne, hstarts⟩ := hvalue.startsText rest
  have hstart := h.skipGap hgap hstarts
  have hat := h.skip
  cases hvalue with
  | null =>
    obtain ⟨-, htext, hkeyword⟩ := keyword_text _ (.head _)
    exact hat.nextToken_keyword hstart htext hne hrest hkeyword
  | yes =>
    obtain ⟨-, htext, hkeyword⟩ := keyword_text _ (.tail _ (.head _))
    exact hat.nextToken_keyword hstart htext hne hrest hkeyword
  | no =>
    obtain ⟨-, htext, hkeyword⟩ := keyword_text _ (.tail _ (.tail _ (.head _)))
    exact hat.nextToken_keyword hstart htext hne hrest hkeyword
  | @integer _ value sign digits hsign hdigits hvalue =>
    refine hat.nextToken_integer hstart (fun b hb => ?_) hne hrest
      (parseInteger_spelled hsign hdigits hvalue)
    rcases List.mem_append.mp hb with hb | hb
    · exact hsign.numeric b hb
    · exact isNumeric_digit (hdigits b hb)
  | @real _ value sign whole fraction hsign hwhole hfraction hvalue =>
    refine hat.nextToken_real hstart (fun b hb => ?_) hne hrest (parseInteger_real hsign hwhole)
      (isNumberLike_real hsign hwhole hfraction hvalue)
    rcases List.mem_append.mp hb with hb | hb
    · exact hsign.numeric b hb
    · rcases List.mem_append.mp hb with hb | hb
      · exact isNumeric_digit (hwhole b hb)
      · rcases List.mem_cons.mp hb with rfl | hb
        · decide
        · exact isNumeric_digit (hfraction b hb)
  | name _ hname => exact hat.nextToken_name hstart hname hrest hfits
  | literal _ htext =>
    rw [List.cons_append, List.append_assoc] at hat
    exact hat.nextToken_literal hstart htext
  | hex _ htext =>
    rw [List.cons_append, List.append_assoc] at hat
    exact hat.nextToken_hex hstart htext
  | array hgap' hvalues => exact hat.nextToken_array hstart hgap' hvalues hdepth
  | dictionary hgap' hentries => exact hat.nextToken_dictionary hstart hgap' hentries hdepth hfits

/-- After white space and comments, nothing is left. -/
theorem At.nextToken_end {gap : Bytes} (h : At bytes pos gap) (hgap : TokenGap gap) :
    ContentTokenizer.nextToken bytes limits pos = .ok (none, pos + gap.length) := by
  have hat : At bytes pos (gap ++ []) := by
    rwa [List.append_nil]
  have hstart := hat.skipGap hgap fun b hb => by cases hb
  unfold ContentTokenizer.nextToken
  dsimp only
  rw [hstart, hat.skip.get]
  rfl

/-! ## Operators -/

/-- The operators of PDF but `BI`: those that `classify_operator` knows, and the rest. -/
def pdfOperators : List String :=
  (operatorTable.flatMap Prod.snd).filter (· ≠ "BI") ++ ["d0", "d1", "ID", "EI"]

/-- A text that is read as an operator. -/
structure OperatorText (op : String) : Prop where
  ne : utf8 op ≠ []
  regular : ∀ b ∈ utf8 op, isRegularByte b = true
  keyword : isKeywordOperand (utf8 op) = false
  integer : parseInteger (utf8 op) = none
  number : isNumberLike (utf8 op) = false
  text : utf8Lossy (utf8 op) = op

theorem pdfOperators_text : ∀ op ∈ pdfOperators, OperatorText op := by
  have hall : ∀ op ∈ pdfOperators, utf8 op ≠ [] ∧ (∀ b ∈ utf8 op, isRegularByte b = true)
      ∧ isKeywordOperand (utf8 op) = false ∧ parseInteger (utf8 op) = none
      ∧ isNumberLike (utf8 op) = false ∧ utf8Lossy (utf8 op) = op := by
    decide +kernel
  intro op hop
  obtain ⟨hne, hregular, hkeyword, hinteger, hnumber, htext⟩ := hall op hop
  exact ⟨hne, hregular, hkeyword, hinteger, hnumber, htext⟩

/-- The text of an operator is read as the operator. -/
theorem At.nextToken_operator {op : String} {gap : Bytes} (h : At bytes pos (gap ++ (utf8 op ++ rest)))
    (hgap : TokenGap gap) (hop : OperatorText op)
    (hlimit : (utf8 op).length ≤ limits.maxContentStreamOperatorNameBytes) (hrest : EndsToken rest) :
    ContentTokenizer.nextToken bytes limits pos
      = .ok (some (.operator ⟨op⟩ (pos + gap.length)), pos + gap.length + (utf8 op).length) := by
  have hstarts : StartsText (utf8 op ++ rest) := startsText_regular hop.ne hop.regular rest
  have hat := h.skip
  obtain ⟨hstop, hslice⟩ := hat.regularRun hop.regular hrest
  have hname : OperatorName.new (utf8 op) limits = .ok ⟨op⟩ := by
    unfold OperatorName.new
    rw [if_neg, hop.text]
    rw [Bool.or_eq_true, decide_eq_true_eq, not_or, Nat.not_lt, List.isEmpty_iff]
    exact ⟨hop.ne, hlimit⟩
  rw [hat.nextToken_regular (h.skipGap hgap hstarts) hop.ne hop.regular]
  unfold ContentTokenizer.consumeRegularToken
  rw [hstop]
  dsimp only
  rw [hslice, hop.keyword, hop.integer, hop.number, if_neg Bool.false_ne_true]
  dsimp only
  rw [if_neg Bool.false_ne_true, hname]
  rfl

end Tokens

end Pdfv
