import Pdfv.Parser.Printing
/-!
# Printed objects

Objects are printed in canonical syntax, with some decimal text for each real. The object parser reads
the printed text of an object back wherever it stands, except that the reader of an integer looks
ahead for `generation R` and gives up the whole parse when the next number does not fit a generation.
`apart` says that no integer of an array stands before such a number.
-/

namespace Pdfv

open Loop Fallible

/-- A decimal text for a real: a sign or none, digits and a dot, that are read as the real. -/
structure RealText (text : Bytes) (value : F64) : Prop where
  shape : ∃ sign body, text = sign ++ body ∧ (sign = [] ∨ sign = [43] ∨ sign = [45]) ∧
    ∀ b ∈ body, (b = 46 || isDigit b) = true
  dot : text.contains 46 = true
  value : parseF64 text = .finite value

/-! ## Objects -/

section Printed

variable (realText : F64 → Bytes)

mutual

/-- The printed text of an object without streams. -/
def printedText : CosObject → Bytes
  | .null => utf8 "null"
  | .boolean true => utf8 "true"
  | .boolean false => utf8 "false"
  | .integer value => integerBytes value
  | .real value => realText value
  | .name name => nameText name
  | .string string => stringText string
  | .reference key => referenceText key
  | .array values => 91 :: (printedItems values ++ [93])
  | .dictionary entries => [60, 60] ++ (printedEntries entries ++ [62, 62])
  | .stream _ => []

/-- The elements of an array, with single spaces between them. -/
def printedItems : List CosObject → Bytes
  | [] => []
  | value :: rest => printedText value ++ (if rest.isEmpty then [] else 32 :: printedItems rest)

/-- The entries of a dictionary, with single spaces. -/
def printedEntries : List (PdfName × CosObject) → Bytes
  | [] => []
  | entry :: rest => printedEntry entry ++ (if rest.isEmpty then [] else 32 :: printedEntries rest)

/-- A key and its value. -/
def printedEntry : PdfName × CosObject → Bytes
  | (name, value) => nameText name ++ 32 :: printedText value

end

/-- The objects other than streams that fit the limits at a nesting depth. -/
inductive Printable (limits : ResourceLimits) : Nat → CosObject → Prop where
  | null {depth : Nat} (hdepth : depth ≤ limits.maxObjectDepth) : Printable limits depth .null
  | boolean {depth : Nat} (hdepth : depth ≤ limits.maxObjectDepth) (value : Bool) :
    Printable limits depth (.boolean value)
  | integer {depth : Nat} (hdepth : depth ≤ limits.maxObjectDepth) {value : Int}
    (hmin : -(2 ^ 63) ≤ value) (hmax : value < 2 ^ 63) : Printable limits depth (.integer value)
  | real {depth : Nat} (hdepth : depth ≤ limits.maxObjectDepth) {value : F64}
    (htext : RealText (realText value) value) : Printable limits depth (.real value)
  | name {depth : Nat} (hdepth : depth ≤ limits.maxObjectDepth) {name : PdfName}
    (hlength : name.bytes.length ≤ limits.maxNameBytes) : Printable limits depth (.name name)
  | string {depth : Nat} (hdepth : depth ≤ limits.maxObjectDepth) {string : PdfString}
    (hlength : string.bytes.length ≤ limits.maxStringBytes) : Printable limits depth (.string string)
  | reference {depth : Nat} (hdepth : depth ≤ limits.maxObjectDepth) (key : ObjectKey) :
    Printable limits depth (.reference key)
  | array {depth : Nat} (hdepth : depth ≤ limits.maxObjectDepth) {values : List CosObject}
    (hlength : values.length ≤ limits.maxArrayLen)
    (hvalues : ∀ value ∈ values, Printable limits (depth + 1) value) :
    Printable limits depth (.array values)
  | dictionary {depth : Nat} (hdepth : depth ≤ limits.maxObjectDepth) {entries : Dictionary}
    (hlength : entries.length ≤ limits.maxDictEntries) (hsorted : OrdList.Sorted entries)
    (hnames : ∀ entry ∈ entries, entry.1.bytes.length ≤ limits.maxNameBytes)
    (hvalues : ∀ entry ∈ entries, Printable limits (depth + 1) entry.2) :
    Printable limits depth (.dictionary entries)

/-! ## Numbers that follow an integer -/

/-- The number that a text starts with. -/
def leadingDigits (text : Bytes) : Option Nat :=
  if (text.takeWhile isDigit).isEmpty then none else some (digitsValue (text.takeWhile isDigit))

def CosObject.isInteger : CosObject → Bool
  | .integer _ => true
  | _ => false

/-- The number without sign that the printed text of an object starts with. -/
def leadingNumberOf : CosObject → Option Nat
  | .integer value => if 0 ≤ value then some value.natAbs else none
  | .real value => leadingDigits (realText value)
  | .reference key => some key.number
  | _ => none

/-- An integer before a number that is no generation. -/
def clashesWith (value next : CosObject) : Bool :=
  value.isInteger && (leadingNumberOf realText next).any (u16Size ≤ ·)

mutual

/-- No array in the object has an integer directly before a number that is no generation. -/
def apart : CosObject → Bool
  | .array values => apartItems values
  | .dictionary entries => apartEntries entries
  | _ => true

/-- The same for the elements of an array. -/
def apartItems : List CosObject → Bool
  | [] => true
  | value :: rest =>
    apart value && !(rest.head?.any (clashesWith realText value)) && apartItems rest

/-- The same for the values of a dictionary. -/
def apartEntries : List (PdfName × CosObject) → Bool
  | [] => true
  | entry :: rest => apartEntry entry && apartEntries rest

/-- The same for one entry. -/
def apartEntry : PdfName × CosObject → Bool
  | (_, value) => apart value

end

end Printed

variable {realText : F64 → Bytes}

/-- What may stand after an object: nothing, a space, a newline or a closing bracket. -/
def Ends (rest : Bytes) : Prop :=
  ∀ b, rest.head? = some b → b = 32 ∨ b = 10 ∨ b = 93 ∨ b = 62

/-- What may stand after an integer: the look-ahead for a reference finds none. -/
def Quiet (rest : Bytes) : Prop :=
  ∀ source pos value, At source pos rest →
    (readerOf source).parseReferenceTail value pos = .ok none

theorem Ends.nil : Ends [] := by
  intro b hb
  cases hb

theorem Ends.cons {b : UInt8} {rest : Bytes} (hb : b = 32 ∨ b = 10 ∨ b = 93 ∨ b = 62) :
    Ends (b :: rest) := by
  intro c hc
  cases hc
  exact hb

theorem Ends.delimited {rest : Bytes} (h : Ends rest) :
    ∀ b, rest.head? = some b → isDelimiter b = true ∨ isWs b = true := by
  intro b hb
  rcases h b hb with rfl | rfl | rfl | rfl
  · exact .inr rfl
  · exact .inr rfl
  · exact .inl rfl
  · exact .inl rfl

theorem Ends.noDigit {rest : Bytes} (h : Ends rest) :
    ∀ b, rest.head? = some b → (b = 46 || isDigit b) = false := by
  intro b hb
  rcases h b hb with rfl | rfl | rfl | rfl <;> rfl

theorem Ends.of_head {rest rest' : Bytes} (h : Ends rest) (hhead : rest'.head? = rest.head?) :
    Ends rest' := by
  intro b hb
  rw [hhead] at hb
  exact h b hb

theorem separatorRun {separator : UInt8} (hws : isWs separator = true) :
    ∀ b ∈ [separator], isWs b = true := by
  intro b hb
  rw [List.mem_singleton] at hb
  rw [hb]
  exact hws

/-- A run of digits does not start with white space. -/
theorem head_digits {digits rest : Bytes} (hdigits : ∀ b ∈ digits, isDigit b = true)
    (hne : digits ≠ []) : ∀ b, (digits ++ rest).head? = some b → isWs b = false := by
  obtain ⟨d, more, rfl⟩ := List.exists_cons_of_ne_nil hne
  intro b hb
  cases hb
  exact isWs_of_isDigit (hdigits d List.mem_cons_self)

/-! ## Texts of reals -/

/-- The first byte of the text of a real. -/
theorem RealText.cons {text : Bytes} {value : F64} (h : RealText text value) :
    ∃ b more, text = b :: more ∧ (b = 43 ∨ b = 45 ∨ b = 46 ∨ isDigit b = true) := by
  obtain ⟨sign, body, rfl, hsign, hbody⟩ := h.shape
  have hdot := h.dot
  rcases hsign with rfl | rfl | rfl
  · cases body with
    | nil => cases hdot
    | cons b body =>
      have hb := hbody b List.mem_cons_self
      rw [Bool.or_eq_true, decide_eq_true_eq] at hb
      exact ⟨b, body, rfl, .inr (.inr hb)⟩
  · exact ⟨43, body, rfl, .inl rfl⟩
  · exact ⟨45, body, rfl, .inr (.inl rfl)⟩

theorem realStart_plain {b : UInt8} (hb : b = 43 ∨ b = 45 ∨ b = 46 ∨ isDigit b = true) :
    isWs b = false ∧ b ≠ 37 ∧ b ≠ 82 ∧ b ≠ 93 := by
  rcases hb with rfl | rfl | rfl | hb
  · decide
  · decide
  · decide
  · refine ⟨isWs_of_isDigit hb, ?_, ?_, ?_⟩ <;> · rintro rfl; cases hb

/-- The text of a real starts with no digit, or with digits and a dot. -/
theorem RealText.leading {text : Bytes} {value : F64} (h : RealText text value) :
    (∃ b more, text = b :: more ∧ isWs b = false ∧ b ≠ 37 ∧ isDigit b = false
        ∧ leadingDigits text = none) ∨
    ∃ digits more, text = digits ++ 46 :: more ∧ digits ≠ [] ∧ (∀ b ∈ digits, isDigit b = true)
      ∧ leadingDigits text = some (digitsValue digits) := by
  obtain ⟨first, tail, htext, hfirst⟩ := h.cons
  obtain ⟨hws, hpercent, -, -⟩ := realStart_plain hfirst
  by_cases hdigit : isDigit first = true
  · right
    -- there is no sign, so that the bytes are digits and dots
    have hplain : ∀ b ∈ text, (b = 46 || isDigit b) = true := by
      obtain ⟨sign, body, hshape, hsign, hbody⟩ := h.shape
      rcases hsign with rfl | rfl | rfl
      · rw [hshape]
        exact hbody
      · rw [hshape] at htext
        cases htext
        cases hdigit
      · rw [hshape] at htext
        cases htext
        cases hdigit
    have hdot : (46 : UInt8) ∈ text := List.contains_iff_mem.mp h.dot
    have hsplit := List.takeWhile_append_dropWhile (p := isDigit) (l := text)
    have hdigits : ∀ b ∈ text.takeWhile isDigit, isDigit b = true := fun b hb =>
      List.mem_takeWhile_imp hb
    have hne : text.takeWhile isDigit ≠ [] := by
      rw [htext, List.takeWhile_cons_of_pos hdigit]
      exact List.cons_ne_nil _ _
    cases hdrop : text.dropWhile isDigit with
    | nil =>
      rw [hdrop, List.append_nil] at hsplit
      rw [← hsplit] at hdot
      cases hdigits 46 hdot
    | cons c more =>
      have hc : isDigit c = false := by
        have hdrop_ne : text.dropWhile isDigit ≠ [] := by
          rw [hdrop]
          exact List.cons_ne_nil _ _
        have hhead := List.head_dropWhile_not isDigit hdrop_ne
        simpa only [hdrop, List.head_cons] using hhead
      have hmem : c ∈ text := by
        rw [← hsplit, hdrop]
        exact List.mem_append_right _ List.mem_cons_self
      have hcdot : c = 46 := by
        have hboth := hplain c hmem
        rw [hc, Bool.or_false] at hboth
        exact of_decide_eq_true hboth
      subst hcdot
      refine ⟨text.takeWhile isDigit, more, ?_, hne, hdigits, ?_⟩
      · rw [← hdrop, hsplit]
      · unfold leadingDigits
        rw [if_neg (by rw [List.isEmpty_iff]; exact hne)]
  · left
    rw [Bool.not_eq_true] at hdigit
    refine ⟨first, tail, htext, hws, hpercent, hdigit, ?_⟩
    unfold leadingDigits
    rw [htext, List.takeWhile_cons_of_neg (by rw [hdigit]; exact Bool.false_ne_true)]
    rfl

section Numbers

variable {source rest : Bytes} {pos : Nat}

theorem integerBytes_cons (value : Int) :
    ∃ b more, integerBytes value = b :: more ∧ (b = 45 ∨ isDigit b = true) := by
  unfold integerBytes
  split
  · exact ⟨45, _, rfl, .inl rfl⟩
  · obtain ⟨b, digits, hbytes, hb⟩ := (decimalNumeral value.natAbs).cons
    exact ⟨b, digits, hbytes, .inr hb⟩

theorem parseI64_integerBytes {value : Int} (hmin : -(2 ^ 63) ≤ value) (hmax : value < 2 ^ 63) :
    parseI64 (integerBytes value) = some value := by
  obtain ⟨b, digits, hbytes, hb⟩ := (decimalNumeral value.natAbs).cons
  have hvalue : digitsValue (decimalBytes value.natAbs) = value.natAbs :=
    digitsValue_decimalBytes value.natAbs
  have hcons : decimalBytes value.natAbs = b :: digits := hbytes
  unfold parseI64 integerBytes
  by_cases hneg : value < 0
  · have hsplit : splitSign (45 :: decimalBytes value.natAbs) = (true, decimalBytes value.natAbs) := rfl
    have hne : (decimalBytes value.natAbs).isEmpty = false := by
      rw [hcons]
      rfl
    rw [if_pos hneg, hsplit]
    dsimp only
    rw [hne, if_neg Bool.false_ne_true, if_pos rfl, hvalue, if_pos (by omega)]
    exact congrArg some (by omega)
  · have hsplit : splitSign (b :: digits) = (false, b :: digits) := by
      unfold splitSign
      split
      · rename_i h
        cases h
        cases hb
      · rename_i h
        cases h
        cases hb
      · rfl
    rw [if_neg hneg, hcons, hsplit]
    rw [hcons] at hvalue
    dsimp only
    rw [List.isEmpty_cons, if_neg Bool.false_ne_true, if_neg Bool.false_ne_true, hvalue,
      if_pos (by omega)]
    exact congrArg some (by omega)

namespace At

/-- An integer as a number token. -/
theorem parseIntegerToken {value : Int} (hmin : -(2 ^ 63) ≤ value) (hmax : value < 2 ^ 63)
    {gap : Bytes} (hgap : Blank gap) (h : At source pos (gap ++ (integerBytes value ++ rest)))
    (hrest : Ends rest) :
    (readerOf source).parseNumberToken pos
      = .ok (.integer value, pos + gap.length + (integerBytes value).length) := by
  obtain ⟨b, more, hbytes, hb⟩ := integerBytes_cons value
  have htoken : StartsToken (integerBytes value ++ rest) := by
    rw [hbytes]
    rcases hb with rfl | hb
    · exact startsToken_of_ne rfl (by decide)
    · exact startsToken_digit hb
  have hstart := skipBlank hgap htoken h
  have hat := h.skip
  have hbyte : (readerOf source).byte (pos + gap.length) = some b := by
    rw [hat.byte, hbytes]
    rfl
  have hdot : (integerBytes value).contains 46 = false := by
    rw [← Bool.not_eq_true, List.contains_iff_mem]
    intro hmem
    unfold integerBytes at hmem
    split at hmem
    · rcases List.mem_cons.mp hmem with heq | hmem
      · cases heq
      · cases decimalBytes_digits _ 46 hmem
    · cases decimalBytes_digits _ 46 hmem
  -- the sign is skipped first, then the digits
  have hstop : (readerOf source).skipWhile (fun b => b = 46 || isDigit b)
      (if (readerOf source).byte (pos + gap.length) = some 43
          || (readerOf source).byte (pos + gap.length) = some 45 then pos + gap.length + 1
        else pos + gap.length)
      = pos + gap.length + (integerBytes value).length := by
    rw [hbyte]
    have hdigits : ∀ c ∈ decimalBytes value.natAbs, (c = 46 || isDigit c) = true := by
      intro c hc
      rw [decimalBytes_digits _ c hc, Bool.or_true]
    unfold integerBytes at hat hbytes ⊢
    by_cases hneg : value < 0
    · rw [if_pos hneg] at hat hbytes ⊢
      cases hbytes
      have hnext : At source (pos + gap.length + 1) (decimalBytes value.natAbs ++ rest) := hat.next
      rw [if_pos (by decide), hnext.skipRun _ hdigits hrest.noDigit, List.length_cons]
      omega
    · rw [if_neg hneg] at hat hbytes ⊢
      have hdigit : isDigit b = true := by
        apply decimalBytes_digits value.natAbs
        rw [hbytes]
        exact List.mem_cons_self
      have hplus : b ≠ 43 := by
        rintro rfl
        cases hdigit
      have hminus : b ≠ 45 := by
        rintro rfl
        cases hdigit
      rw [if_neg (by simp [hplus, hminus]), hat.skipRun _ hdigits hrest.noDigit]
  unfold ByteSource.parseNumberToken
  dsimp only
  rw [hstart, hstop, hat.slice, ok_bind, hdot]
  simp only [Bool.false_eq_true, if_false, parseI64_integerBytes hmin hmax]
  rfl

/-- A real as a number token. -/
theorem parseRealToken {text : Bytes} {value : F64} (htext : RealText text value)
    (h : At source pos (text ++ rest)) (hrest : Ends rest) :
    (readerOf source).parseNumberToken pos = .ok (.real value, pos + text.length) := by
  obtain ⟨b, more, hcons, hb⟩ := htext.cons
  obtain ⟨hws, hpercent, -, -⟩ := realStart_plain hb
  have hhead : At source pos (b :: (more ++ rest)) := by
    rw [hcons] at h
    exact h
  have hstart := hhead.skipToken (startsToken_of_ne hws hpercent)
  have hbyte : (readerOf source).byte pos = some b := hhead.byte
  -- the sign is skipped first, then the digits and the dot
  have hstop : (readerOf source).skipWhile (fun b => b = 46 || isDigit b)
      (if (readerOf source).byte pos = some 43 || (readerOf source).byte pos = some 45 then pos + 1
        else pos) = pos + text.length := by
    rw [hbyte]
    obtain ⟨sign, body, hshape, hsign, hbody⟩ := htext.shape
    have hsigned : ∀ c, sign = [c] → b = c → (c = 43 ∨ c = 45) →
        (readerOf source).skipWhile (fun b => b = 46 || isDigit b)
          (if some b = some 43 || some b = some 45 then pos + 1 else pos) = pos + text.length := by
      intro c hc hbc hsign
      have hnext : At source (pos + 1) (body ++ rest) := by
        rw [hshape, hc] at h
        exact At.next h
      rw [if_pos (by rw [hbc]; rcases hsign with rfl | rfl <;> rfl), hnext.skipRun _ hbody hrest.noDigit,
        hshape, hc]
      simp only [List.singleton_append, List.length_cons]
      omega
    rcases hsign with rfl | rfl | rfl
    · rw [hshape, List.nil_append] at h hcons ⊢
      have hfirst := hbody b (by rw [hcons]; exact List.mem_cons_self)
      have hplus : b ≠ 43 := by
        rintro rfl
        cases hfirst
      have hminus : b ≠ 45 := by
        rintro rfl
        cases hfirst
      rw [if_neg (by simp [hplus, hminus]), h.skipRun _ hbody hrest.noDigit]
    · rw [hshape] at hcons
      cases hcons
      exact hsigned 43 rfl rfl (.inl rfl)
    · rw [hshape] at hcons
      cases hcons
      exact hsigned 45 rfl rfl (.inr rfl)
  unfold ByteSource.parseNumberToken
  dsimp only
  rw [hstart, hstop, h.slice, ok_bind, htext.dot, if_pos rfl, htext.value]
  rfl

/-- A real starts no reference. -/
theorem parseReal {text : Bytes} {value : F64} (htext : RealText text value)
    (h : At source pos (text ++ rest)) (hrest : Ends rest) :
    (readerOf source).parseNumberOrReference pos = .ok (.real value, pos + text.length) := by
  unfold ByteSource.parseNumberOrReference
  rw [h.parseRealToken htext hrest, ok_bind]
  rfl

/-- An integer that starts no reference. -/
theorem parseInteger {value : Int} (hmin : -(2 ^ 63) ≤ value) (hmax : value < 2 ^ 63)
    (h : At source pos (integerBytes value ++ rest)) (hrest : Ends rest) (hquiet : Quiet rest) :
    (readerOf source).parseNumberOrReference pos
      = .ok (.integer value, pos + (integerBytes value).length) := by
  have hnil : At source pos ([] ++ (integerBytes value ++ rest)) := h
  have htoken := hnil.parseIntegerToken hmin hmax .nil hrest
  rw [List.length_nil, Nat.add_zero] at htoken
  have hafter : (readerOf source).parseReferenceAfter (.integer value)
      (pos + (integerBytes value).length) = .ok none := hquiet source _ value h.skip
  unfold ByteSource.parseNumberOrReference
  rw [htoken, ok_bind]
  dsimp only
  rw [hafter]
  rfl

/-- An integer before a number that is no generation. -/
theorem parseInteger_clash {value : Int} (hmin : -(2 ^ 63) ≤ value) (hmax : value < 2 ^ 63)
    {separator : UInt8} (hends : Ends [separator]) (hws : isWs separator = true) {digits : Bytes}
    (hdigits : ∀ b ∈ digits, isDigit b = true) (hne : digits ≠ [])
    (hn : u16Size ≤ digitsValue digits)
    (h : At source pos (integerBytes value ++ separator :: (digits ++ rest)))
    (hrest : ∀ b, rest.head? = some b → isDigit b = false) :
    (readerOf source).parseNumberOrReference pos
      = .error (.bad "unsigned integer out of range") := by
  have hnil : At source pos ([] ++ (integerBytes value ++ separator :: (digits ++ rest))) := h
  have htoken := hnil.parseIntegerToken hmin hmax .nil (hends.of_head rfl)
  rw [List.length_nil, Nat.add_zero] at htoken
  have hspace : At source (pos + (integerBytes value).length) ([separator] ++ (digits ++ rest)) :=
    h.skip
  have hskip := hspace.skipRequiredWs (separatorRun hws) (List.cons_ne_nil _ _)
    (head_digits hdigits hne)
  have hnumber : At source (pos + (integerBytes value).length + 1) ([] ++ (digits ++ rest)) :=
    hspace.skip
  have hread := hnumber.parseUnsigned u16Size .nil hdigits hne hrest
  rw [if_pos hn] at hread
  have hafter : (readerOf source).parseReferenceAfter (.integer value)
      (pos + (integerBytes value).length) = .error (.bad "unsigned integer out of range") := by
    unfold ByteSource.parseReferenceAfter ByteSource.parseReferenceTail
    dsimp only
    rw [hskip]
    dsimp only
    unfold ByteSource.parseUnsignedU16
    rw [List.length_singleton, hread]
    rfl
  unfold ByteSource.parseNumberOrReference
  rw [htoken, ok_bind]
  dsimp only
  rw [hafter]
  rfl

end At

/-! ## Where the look-ahead stops -/

theorem At.skipRequiredWs_none (h : At source pos rest)
    (hrest : ∀ b, rest.head? = some b → isWs b = false) :
    (readerOf source).skipRequiredWs pos = .error (.bad "expected whitespace") := by
  have hrun : At source pos ([] ++ rest) := h
  have hskip := hrun.skipRun isWs (fun b hb => absurd hb List.not_mem_nil) hrest
  unfold ByteSource.skipRequiredWs
  rw [hskip]
  exact if_pos rfl

theorem quiet_of_noWs (hrest : ∀ b, rest.head? = some b → isWs b = false) : Quiet rest := by
  intro source pos value h
  unfold ByteSource.parseReferenceTail
  rw [h.skipRequiredWs_none hrest]

theorem quiet_space {separator b : UInt8} (hseparator : isWs separator = true)
    (hws : isWs b = false) (hpercent : b ≠ 37) (hdigit : isDigit b = false) :
    Quiet (separator :: b :: rest) := by
  intro source pos value h
  have hspace : At source pos ([separator] ++ b :: rest) := h
  have hskip := hspace.skipRequiredWs (separatorRun hseparator) (List.cons_ne_nil _ _) fun c hc => by
    cases hc
    exact hws
  have hnil : At source (pos + 1) ([] ++ b :: rest) := hspace.skip
  have hread := hnil.parseUnsigned_none u16Size .nil (startsToken_of_ne hws hpercent) fun c hc => by
    cases hc
    exact hdigit
  unfold ByteSource.parseReferenceTail
  rw [hskip]
  dsimp only
  unfold ByteSource.parseUnsignedU16
  rw [List.length_singleton, hread]
  rfl

/-- What may follow a number so that it is no generation of a reference. -/
def NoReference (rest : Bytes) : Prop :=
  (∀ b, rest.head? = some b → isWs b = false ∧ isDigit b = false)
    ∨ ∃ separator b more, rest = separator :: b :: more ∧ isWs separator = true ∧ isWs b = false
      ∧ b ≠ 82

theorem isDigit_of_isWs {b : UInt8} (h : isWs b = true) : isDigit b = false := by
  rw [← Bool.not_eq_true]
  intro hdigit
  rw [isWs_of_isDigit hdigit] at h
  cases h

/-- A number that fits a generation, without `R` after it. -/
theorem quiet_number {separator : UInt8} (hseparator : isWs separator = true) {digits : Bytes}
    (hdigits : ∀ b ∈ digits, isDigit b = true) (hne : digits ≠ [])
    (hn : digitsValue digits < u16Size) (hrest : NoReference rest) :
    Quiet (separator :: (digits ++ rest)) := by
  intro source pos value h
  have hspace : At source pos ([separator] ++ (digits ++ rest)) := h
  have hskip := hspace.skipRequiredWs (separatorRun hseparator) (List.cons_ne_nil _ _)
    (head_digits hdigits hne)
  have hnil : At source (pos + 1) ([] ++ (digits ++ rest)) := hspace.skip
  have hend : ∀ b, rest.head? = some b → isDigit b = false := by
    intro b hb
    rcases hrest with hrest | ⟨c, d, more, rfl, hc, -, -⟩
    · exact (hrest b hb).2
    · cases hb
      exact isDigit_of_isWs hc
  have hread := hnil.parseUnsigned u16Size .nil hdigits hne hend
  rw [if_neg (by omega), List.length_nil, Nat.add_zero] at hread
  have hat : At source (pos + 1 + digits.length) rest := hspace.skip.skip
  unfold ByteSource.parseReferenceTail
  rw [hskip]
  dsimp only
  unfold ByteSource.parseUnsignedU16
  rw [List.length_singleton, hread, ok_bind]
  dsimp only
  rcases hrest with hrest | ⟨c, b, more, rfl, hc, hws, hletter⟩
  · rw [hat.skipRequiredWs_none fun b hb => (hrest b hb).1]
    rfl
  · have hone : At source (pos + 1 + digits.length) ([c] ++ b :: more) := hat
    have hstop := hone.skipRequiredWs (separatorRun hc) (List.cons_ne_nil _ _) fun d hd => by
      cases hd
      exact hws
    have hno : (readerOf source).startsWith (pos + 1 + digits.length + 1) [82] = false :=
      hone.skip.not_startsWith rfl (Ne.symm hletter)
    rw [hstop]
    dsimp only
    rw [List.length_singleton, hno]
    rfl

end Numbers

/-! ## How texts start -/

/-- The first byte of an object's text. -/
theorem printedText_cons {limits : ResourceLimits} {depth : Nat} {object : CosObject}
    (h : Printable realText limits depth object) :
    ∃ b more, printedText realText object = b :: more ∧ isWs b = false ∧ b ≠ 37 ∧ b ≠ 82
      ∧ b ≠ 93 := by
  have hnumber : ∀ b, isDigit b = true → isWs b = false ∧ b ≠ 37 ∧ b ≠ 82 ∧ b ≠ 93 := by
    intro b hb
    refine ⟨isWs_of_isDigit hb, ?_, ?_, ?_⟩ <;> · rintro rfl; cases hb
  cases h with
  | null => exact ⟨_, _, nullMarker_eq, by decide⟩
  | boolean hdepth value =>
    cases value with
    | true => exact ⟨_, _, trueMarker_eq, by decide⟩
    | false => exact ⟨_, _, falseMarker_eq, by decide⟩
  | @integer _ _ value _ _ =>
    obtain ⟨b, more, hbytes, hb⟩ := integerBytes_cons value
    refine ⟨b, more, hbytes, ?_⟩
    rcases hb with rfl | hb
    · decide
    · exact hnumber b hb
  | real hdepth htext =>
    obtain ⟨b, more, hcons, hb⟩ := htext.cons
    exact ⟨b, more, hcons, realStart_plain hb⟩
  | name => exact ⟨_, _, rfl, by decide⟩
  | string => exact ⟨_, _, rfl, by decide⟩
  | reference hdepth key =>
    obtain ⟨b, digits, hbytes, hb⟩ := (decimalNumeral key.number).cons
    have hcons : decimalBytes key.number = b :: digits := hbytes
    have htext : printedText realText (.reference key)
        = b :: (digits ++ 32 :: (decimalBytes key.generation ++ [32, 82])) := by
      show referenceText key = _
      unfold referenceText
      rw [hcons, List.cons_append]
    exact ⟨b, _, htext, hnumber b hb⟩
  | array => exact ⟨_, _, rfl, by decide⟩
  | dictionary => exact ⟨_, _, rfl, by decide⟩

/-- After an integer and white space, an element that does not clash with it is no generation. -/
theorem quiet_element {limits : ResourceLimits} {depth : Nat} {value next : CosObject}
    {separator : UInt8} (hseparator : isWs separator = true) (hvalue : value.isInteger = true)
    (hnext : Printable realText limits depth next)
    (hclash : clashesWith realText value next = false) {rest : Bytes} (hrest : NoReference rest) :
    Quiet (separator :: (printedText realText next ++ rest)) := by
  have hsmall : ∀ n, leadingNumberOf realText next = some n → n < u16Size := by
    intro n hn
    unfold clashesWith at hclash
    rw [hvalue, hn, Bool.true_and] at hclash
    have hle : ¬ u16Size ≤ n := of_decide_eq_false hclash
    omega
  have hother : ∀ {b more}, printedText realText next = b :: more → isWs b = false → b ≠ 37 →
      isDigit b = false → Quiet (separator :: (printedText realText next ++ rest)) := by
    intro b more htext hws hpercent hdigit
    rw [htext]
    exact quiet_space hseparator hws hpercent hdigit
  have hnumber : ∀ {n more}, printedText realText next ++ rest = decimalBytes n ++ more →
      n < u16Size → NoReference more → Quiet (separator :: (printedText realText next ++ rest)) := by
    intro n more htext hn hmore
    rw [htext]
    refine quiet_number hseparator (decimalBytes_digits n) (decimalBytes_ne n) ?_ hmore
    rwa [digitsValue_decimalBytes]
  cases hnext with
  | null => exact hother nullMarker_eq rfl (by decide) rfl
  | boolean hdepth flag =>
    cases flag with
    | true => exact hother trueMarker_eq rfl (by decide) rfl
    | false => exact hother falseMarker_eq rfl (by decide) rfl
  | @integer _ _ number _ _ =>
    by_cases hneg : number < 0
    · have htext : printedText realText (.integer number) = 45 :: decimalBytes number.natAbs := by
        show integerBytes number = _
        unfold integerBytes
        rw [if_pos hneg]
      exact hother htext rfl (by decide) rfl
    · have htext : printedText realText (.integer number) = decimalBytes number.natAbs := by
        show integerBytes number = _
        unfold integerBytes
        rw [if_neg hneg]
      exact hnumber (by rw [htext]) (hsmall number.natAbs (if_pos (by omega))) hrest
  | @real _ _ number htext =>
    rcases htext.leading with ⟨b, more, hcons, hws, hpercent, hdigit, -⟩
      | ⟨digits, more, hsplit, hne, hdigits, hvalue⟩
    · exact hother hcons hws hpercent hdigit
    · have hprinted : printedText realText (.real number) ++ rest = digits ++ 46 :: (more ++ rest) := by
        show realText number ++ rest = _
        rw [hsplit]
        simp
      rw [hprinted]
      refine quiet_number hseparator hdigits hne (hsmall _ hvalue) (.inl fun b hb => ?_)
      cases hb
      exact ⟨rfl, rfl⟩
  | name => exact hother rfl rfl (by decide) rfl
  | string => exact hother rfl rfl (by decide) rfl
  | reference hdepth key =>
    obtain ⟨g, digits, hbytes, hg⟩ := (decimalNumeral key.generation).cons
    have hcons : decimalBytes key.generation = g :: digits := hbytes
    have htext : printedText realText (.reference key) ++ rest
        = decimalBytes key.number ++ 32 :: g :: (digits ++ 32 :: 82 :: rest) := by
      show referenceText key ++ rest = _
      simp [referenceText, hcons]
    refine hnumber htext (hsmall key.number rfl) (.inr ⟨32, g, _, rfl, rfl, isWs_of_isDigit hg, ?_⟩)
    rintro rfl
    cases hg
  | array => exact hother rfl rfl (by decide) rfl
  | dictionary => exact hother rfl rfl (by decide) rfl

/-- The space before the elements that follow. -/
def spaceBefore {α : Type} (values : List α) : Bytes :=
  if values.isEmpty then [] else [32]

theorem spaceBefore_blank {α : Type} (values : List α) : Blank (spaceBefore values) := by
  cases values with
  | nil => exact .nil
  | cons => exact space_blank

/-- The elements that follow, with the space before them, and the closing bracket. -/
def tailText (realText : F64 → Bytes) (values : List CosObject) (rest : Bytes) : Bytes :=
  (if values.isEmpty then [] else 32 :: printedItems realText values) ++ 93 :: rest

theorem tailText_eq (values : List CosObject) (rest : Bytes) :
    tailText realText values rest = spaceBefore values ++ (printedItems realText values ++ 93 :: rest) := by
  cases values <;> rfl

theorem printedItems_cons (value : CosObject) (values : List CosObject) :
    printedItems realText (value :: values)
      = printedText realText value ++ (spaceBefore values ++ printedItems realText values) := by
  cases values <;> rfl

theorem tailText_cons (value : CosObject) (values : List CosObject) (rest : Bytes) :
    tailText realText (value :: values) rest
      = 32 :: (printedText realText value ++ tailText realText values rest) := by
  unfold tailText
  rw [List.isEmpty_cons, if_neg Bool.false_ne_true, printedItems, List.cons_append, List.append_assoc]

theorem tailText_ends (values : List CosObject) (rest : Bytes) : Ends (tailText realText values rest) := by
  cases values with
  | nil => exact .cons (.inr (.inr (.inl rfl)))
  | cons value values =>
    rw [tailText_cons]
    exact .cons (.inl rfl)

theorem tailText_noReference {limits : ResourceLimits} {depth : Nat} {values : List CosObject}
    (h : ∀ value ∈ values, Printable realText limits depth value) (rest : Bytes) :
    NoReference (tailText realText values rest) := by
  cases values with
  | nil =>
    refine .inl fun b hb => ?_
    cases hb
    exact ⟨rfl, rfl⟩
  | cons value values =>
    obtain ⟨b, more, htext, hws, -, hletter, -⟩ := printedText_cons (h value List.mem_cons_self)
    rw [tailText_cons, htext]
    exact .inr ⟨32, b, _, rfl, rfl, hws, hletter⟩

/-! ## Reading back -/

/-- The object is read back wherever its text stands, given enough fuel. -/
def ReadsBack (realText : F64 → Bytes) (limits : ResourceLimits) (object : CosObject) : Prop :=
  ∀ {depth d fuel pos : Nat} {source gap rest : Bytes},
    Printable realText limits depth object → d ≤ depth → apart realText object = true → Blank gap →
    At source pos (gap ++ (printedText realText object ++ rest)) →
    Ends rest → (object.isInteger = true → Quiet rest) →
    3 * (printedText realText object).length + 1 ≤ fuel →
    (readerOf source).parseObjectWith limits fuel d pos
      = .ok (object, pos + gap.length + (printedText realText object).length)

section Reading

variable {limits : ResourceLimits} {source rest gap : Bytes} {pos fuel d depth : Nat}

theorem deeper_le (h : d ≤ depth) : ByteSource.deeper d ≤ depth + 1 := by
  unfold ByteSource.deeper
  omega

theorem readsBack_integer (value : Int) : ReadsBack realText limits (.integer value) := by
  intro depth d fuel pos source gap rest hfits hd _ hgap h hrest hquiet hfuel
  cases hfits with
  | integer hdepth hmin hmax =>
    obtain ⟨fuel, rfl⟩ : ∃ n, fuel = n + 1 := ⟨fuel - 1, by omega⟩
    have hat : At source pos (gap ++ (integerBytes value ++ rest)) := h
    have hread := hat.skip.parseInteger hmin hmax hrest (hquiet rfl)
    obtain ⟨b, more, hbytes, hb⟩ := integerBytes_cons value
    rw [hbytes] at hat
    rcases hb with rfl | hb
    · rw [At.parseObject_scalar hgap hat rfl (by decide) (by decide) (by decide) (by omega)]
      exact hread
    · have hother : ∀ c, isDigit c = false → b ≠ c := by
        rintro c hc rfl
        rw [hb] at hc
        cases hc
      rw [At.parseObject_scalar hgap hat (isWs_of_isDigit hb) (hother 37 rfl) (hother 60 rfl)
        (hother 91 rfl) (by omega)]
      unfold ByteSource.parseScalar
      rw [if_neg (hother 47 rfl), if_neg (hother 40 rfl), if_neg (hother 60 rfl),
        decide_eq_false (hother 116 rfl), decide_eq_false (hother 102 rfl),
        decide_eq_false (hother 110 rfl), hb, hread]
      simp [printedText]

theorem readsBack_real (value : F64) : ReadsBack realText limits (.real value) := by
  intro depth d fuel pos source gap rest hfits hd _ hgap h hrest _ hfuel
  cases hfits with
  | real hdepth htext =>
    obtain ⟨fuel, rfl⟩ : ∃ n, fuel = n + 1 := ⟨fuel - 1, by omega⟩
    have hat : At source pos (gap ++ (realText value ++ rest)) := h
    have hread := hat.skip.parseReal htext hrest
    obtain ⟨b, more, hcons, hb⟩ := htext.cons
    rw [hcons] at hat
    obtain ⟨hws, hpercent, -, hbracket⟩ := realStart_plain hb
    have hother : ∀ c, c ≠ 43 → c ≠ 45 → c ≠ 46 → isDigit c = false → b ≠ c := by
      rintro c hplus hminus hdot hdigit rfl
      rcases hb with rfl | rfl | rfl | hb
      · exact hplus rfl
      · exact hminus rfl
      · exact hdot rfl
      · rw [hb] at hdigit
        cases hdigit
    have hsign : (decide (b = 45) || decide (b = 43) || decide (b = 46) || isDigit b) = true := by
      rcases hb with rfl | rfl | rfl | hb
      · rfl
      · rfl
      · rfl
      · rw [hb, Bool.or_true]
    rw [At.parseObject_scalar hgap hat hws hpercent
      (hother 60 (by decide) (by decide) (by decide) rfl)
      (hother 91 (by decide) (by decide) (by decide) rfl) (by omega)]
    unfold ByteSource.parseScalar
    rw [if_neg (hother 47 (by decide) (by decide) (by decide) rfl),
      if_neg (hother 40 (by decide) (by decide) (by decide) rfl),
      if_neg (hother 60 (by decide) (by decide) (by decide) rfl),
      decide_eq_false (hother 116 (by decide) (by decide) (by decide) rfl),
      decide_eq_false (hother 102 (by decide) (by decide) (by decide) rfl),
      decide_eq_false (hother 110 (by decide) (by decide) (by decide) rfl), hsign, hread]
    rfl

theorem Printable.depth_le {object : CosObject} (h : Printable realText limits depth object) :
    depth ≤ limits.maxObjectDepth := by
  cases h <;> assumption

theorem readsBack_keyword (word : Keyword) (htext : printedText realText word.object = word.bytes) :
    ReadsBack realText limits word.object := by
  intro depth d fuel pos source gap rest hfits hd _ hgap h _ _ hfuel
  obtain ⟨fuel, rfl⟩ : ∃ n, fuel = n + 1 := ⟨fuel - 1, by omega⟩
  have hdepth := hfits.depth_le
  rw [htext] at h ⊢
  exact At.parseObject_keyword word hgap h (by omega)

theorem readsBack_name (name : PdfName) : ReadsBack realText limits (.name name) := by
  intro depth d fuel pos source gap rest hfits hd _ hgap h hrest _ hfuel
  cases hfits with
  | name hdepth hlength =>
    obtain ⟨fuel, rfl⟩ : ∃ n, fuel = n + 1 := ⟨fuel - 1, by omega⟩
    have hat : At source pos (gap ++ (nameText name ++ rest)) := h
    have hread := hat.skip.parseNameText hrest.delimited hlength
    rw [At.parseObject_scalar (b := 47) hgap hat rfl (by decide) (by decide) (by decide) (by omega)]
    unfold ByteSource.parseScalar
    rw [if_pos rfl, hread]
    rfl

/-- The second byte of a hexadecimal string is a digit or its end. -/
theorem stringText_cons (string : PdfString) (rest : Bytes) :
    ∃ b more, stringText string ++ rest = 60 :: b :: more ∧ b ≠ 60 := by
  cases hbytes : string.bytes with
  | nil =>
    refine ⟨62, rest, ?_, by decide⟩
    unfold stringText
    rw [hbytes]
    rfl
  | cons c bytes =>
    refine ⟨hexDigit (c.toNat / 16),
      hexDigit (c.toNat % 16) :: (bytes.flatMap hexPair ++ 62 :: rest), ?_, ?_⟩
    · unfold stringText
      rw [hbytes]
      simp [hexPair]
    · have hlt := c.toNat_lt
      have hall : ∀ n < 16, hexDigit n ≠ 60 := by
        decide
      exact hall _ (by omega)

theorem readsBack_string (string : PdfString) : ReadsBack realText limits (.string string) := by
  intro depth d fuel pos source gap rest hfits hd _ hgap h _ _ hfuel
  cases hfits with
  | string hdepth hlength =>
    obtain ⟨fuel, rfl⟩ : ∃ n, fuel = n + 1 := ⟨fuel - 1, by omega⟩
    have hat : At source pos (gap ++ (stringText string ++ rest)) := h
    have hread := hat.skip.parseHexString hlength
    obtain ⟨b, more, htext, hb⟩ := stringText_cons string rest
    rw [htext] at hat
    have hskip := At.skipBlank hgap (startsToken_of_ne rfl (by decide)) hat
    have hopen : (readerOf source).startsWith (pos + gap.length) [60, 60] = false := by
      rw [hat.skip.startsWith]
      refine isPrefixOf_eq_false fun hprefix => hb ?_
      rw [List.cons_prefix_cons, List.cons_prefix_cons] at hprefix
      exact hprefix.2.1.symm
    have hbracket : (readerOf source).startsWith (pos + gap.length) [91] = false :=
      hat.skip.not_startsWith rfl (by decide)
    have hbyte : (readerOf source).byte (pos + gap.length) = some 60 := hat.skip.byte
    rw [ByteSource.parseObjectWith, if_neg (by omega)]
    dsimp only
    rw [hskip, hopen, if_neg Bool.false_ne_true, hbracket, if_neg Bool.false_ne_true, hbyte]
    dsimp only
    unfold ByteSource.parseScalar
    rw [if_neg (by decide), if_neg (by decide), if_pos rfl, hread]
    rfl

theorem readsBack_reference (key : ObjectKey) : ReadsBack realText limits (.reference key) := by
  intro depth d fuel pos source gap rest hfits hd _ hgap h _ _ hfuel
  have hdepth := hfits.depth_le
  obtain ⟨fuel, rfl⟩ : ∃ n, fuel = n + 1 := ⟨fuel - 1, by omega⟩
  have hvalue : (decimalNumeral key.number).value = key.number := decimalNumeral_value key.number
  have hvalue' : (decimalNumeral key.generation).value = key.generation :=
    decimalNumeral_value key.generation
  let text : KeyText :=
    ⟨decimalNumeral key.number, decimalNumeral key.generation, by rw [hvalue]; exact key.number_pos,
      by rw [hvalue]; exact key.number_lt, by rw [hvalue']; exact key.generation_lt⟩
  have hkey : text.key = key := by
    cases key
    simp only [text, KeyText.key, decimalNumeral_value]
  have hbytes : printedText realText (.reference key) ++ rest = text.bytes ++ 82 :: rest := by
    show referenceText key ++ rest = _
    simp [referenceText, KeyText.bytes, text, decimalNumeral]
  have hlength : (printedText realText (.reference key)).length = text.bytes.length + 1 := by
    have hsame := congrArg List.length hbytes
    rw [List.length_append, List.length_append, List.length_cons] at hsame
    omega
  rw [hbytes] at h
  rw [hlength, At.parseObject_reference text hgap h (by omega), hkey]
  rfl

/-! ## Arrays and dictionaries -/

/-- One pass of the loop of `parse_array` at the text of an element. -/
theorem parseElements_element {value : CosObject} (hfit : Printable realText limits depth value)
    (hgap : Blank gap)
    (h : At source pos (gap ++ (printedText realText value ++ rest))) (read : List CosObject) :
    (readerOf source).parseElementsWith limits (fuel + 1) d read pos
      = (readerOf source).parseObjectWith limits fuel (ByteSource.deeper d) (pos + gap.length)
        >>= fun next => if read.length + 1 > limits.maxArrayLen then
            .error (.limitExceeded "max_array_len")
          else (readerOf source).parseElementsWith limits fuel d (read ++ [next.1]) next.2 := by
  obtain ⟨b, more, htext, hws, hpercent, -, hbracket⟩ := printedText_cons hfit
  have hat : At source pos (gap ++ b :: (more ++ rest)) := by
    rw [htext] at h
    exact h
  have hskip := At.skipBlank hgap (startsToken_of_ne hws hpercent) hat
  have hopen : (readerOf source).startsWith (pos + gap.length) [93] = false :=
    hat.skip.not_startsWith rfl (Ne.symm hbracket)
  rw [ByteSource.parseElementsWith]
  dsimp only
  rw [hskip, hopen, if_neg Bool.false_ne_true]

/-- After an integer come the elements that follow, unless the next one clashes with it. -/
theorem quiet_tail {value : CosObject} {values : List CosObject} (hvalue : value.isInteger = true)
    (hfits : ∀ v ∈ values, Printable realText limits depth v)
    (hclash : values.head?.any (clashesWith realText value) = false) :
    Quiet (tailText realText values rest) := by
  cases values with
  | nil =>
    refine quiet_of_noWs fun c hc => ?_
    cases hc
    rfl
  | cons next values =>
    rw [tailText_cons]
    exact quiet_element rfl hvalue (hfits next List.mem_cons_self) hclash
      (tailText_noReference (fun v hv => hfits v (List.mem_cons_of_mem _ hv)) rest)

theorem printedItems_append (value : CosObject) (values : List CosObject) (rest : Bytes) :
    printedItems realText (value :: values) ++ 93 :: rest
      = printedText realText value ++ tailText realText values rest := by
  rw [printedItems, List.append_assoc]
  rfl

theorem Printable.text_pos {object : CosObject} (h : Printable realText limits depth object) :
    1 ≤ (printedText realText object).length := by
  obtain ⟨b, more, htext, -⟩ := printedText_cons h
  rw [htext, List.length_cons]
  omega

/-- The elements of an array, after those already read. -/
theorem parseElements_text {values read : List CosObject}
    (hback : ∀ value ∈ values, ReadsBack realText limits value)
    (hfits : ∀ value ∈ values, Printable realText limits (depth + 1) value) (hd : d ≤ depth)
    (hlength : read.length + values.length ≤ limits.maxArrayLen)
    (hseparated : apartItems realText values = true) (hgap : Blank gap)
    (h : At source pos (gap ++ (printedItems realText values ++ 93 :: rest)))
    (hfuel : 3 * (printedItems realText values).length + 4 ≤ fuel) :
    (readerOf source).parseElementsWith limits fuel d read pos
      = .ok (read ++ values, pos + gap.length + (printedItems realText values).length + 1) := by
  induction values generalizing read gap pos fuel with
  | nil =>
    obtain ⟨fuel, rfl⟩ : ∃ n, fuel = n + 1 := ⟨fuel - 1, by omega⟩
    have hat : At source pos (gap ++ 93 :: rest) := h
    have hclose : At source (pos + gap.length) ([93] ++ rest) := hat.skip
    have hskip := At.skipBlank hgap (startsToken_of_ne rfl (by decide)) hat
    rw [ByteSource.parseElementsWith]
    dsimp only
    rw [hskip, hclose.startsWith_self, if_pos rfl, hclose.consumeBytes, List.append_nil]
    rfl
  | cons value values ih =>
    obtain ⟨fuel, rfl⟩ : ∃ n, fuel = n + 1 := ⟨fuel - 1, by omega⟩
    have hfit := hfits value List.mem_cons_self
    have hpos := hfit.text_pos
    rw [apartItems, Bool.and_eq_true, Bool.and_eq_true] at hseparated
    obtain ⟨⟨hvalue, hclash⟩, hvalues⟩ := hseparated
    rw [List.length_cons] at hlength
    rw [printedItems_append] at h
    have hquiet : value.isInteger = true → Quiet (tailText realText values rest) := fun hinteger =>
      quiet_tail hinteger (fun v hv => hfits v (List.mem_cons_of_mem _ hv)) (by simpa using hclash)
    rw [printedItems_cons, List.length_append, List.length_append] at hfuel ⊢
    have hnil : At source (pos + gap.length)
        ([] ++ (printedText realText value ++ tailText realText values rest)) :=
      h.skip
    have hread := @hback value List.mem_cons_self _ _ fuel _ _ _ _ hfit (deeper_le hd) hvalue .nil
      hnil (tailText_ends values rest) hquiet (by omega)
    have hnext := h.skip.skip
    rw [tailText_eq] at hnext
    rw [parseElements_element hfit hgap h, hread, ok_bind]
    dsimp only
    rw [if_neg (by omega), List.length_nil, Nat.add_zero,
      ih (fun v hv => hback v (List.mem_cons_of_mem _ hv))
        (fun v hv => hfits v (List.mem_cons_of_mem _ hv))
        (by rw [List.length_append, List.length_singleton]; omega) hvalues
        (spaceBefore_blank values) hnext (by omega), List.append_assoc]
    simp only [List.singleton_append, Except.ok.injEq, Prod.mk.injEq, true_and]
    omega

/-- The opening bracket of an array. -/
theorem parseObject_array {text : Bytes} (hdepth : d ≤ limits.maxObjectDepth) (hgap : Blank gap)
    (h : At source pos (gap ++ 91 :: text)) :
    (readerOf source).parseObjectWith limits (fuel + 2) d pos
      = (readerOf source).parseElementsWith limits fuel d [] (pos + gap.length + 1)
        >>= fun next => .ok (.array next.1, next.2) := by
  have hat : At source pos (gap ++ ([91] ++ text)) := h
  have hskip := At.skipBlank hgap (startsToken_of_ne rfl (by decide)) hat
  have hdictionary : (readerOf source).startsWith (pos + gap.length) [60, 60] = false :=
    hat.skip.not_startsWith rfl (by decide)
  rw [ByteSource.parseObjectWith, if_neg (by omega)]
  dsimp only
  rw [hskip, hdictionary, if_neg Bool.false_ne_true, hat.skip.startsWith_self, if_pos rfl,
    ByteSource.parseArrayWith, hat.skip.consumeBytes, ok_bind]
  rfl

/-- The opening brackets of a dictionary. -/
theorem parseObject_dictionary {text : Bytes} (hdepth : d ≤ limits.maxObjectDepth) (hgap : Blank gap)
    (h : At source pos (gap ++ ([60, 60] ++ text))) :
    (readerOf source).parseObjectWith limits (fuel + 2) d pos
      = (readerOf source).parseEntriesWith limits fuel d [] (pos + gap.length + 2)
        >>= fun next => .ok (.dictionary next.1, next.2) := by
  have hskip := At.skipBlank hgap (startsToken_of_ne rfl (by decide)) h
  rw [ByteSource.parseObjectWith, if_neg (by omega)]
  dsimp only
  rw [hskip, h.skip.startsWith_self, if_pos rfl, ByteSource.parseDictionaryWith, h.skip.consumeBytes,
    ok_bind]
  rfl

theorem readsBack_array {values : List CosObject}
    (hback : ∀ value ∈ values, ReadsBack realText limits value) :
    ReadsBack realText limits (.array values) := by
  intro depth d fuel pos source gap rest hfits hd hseparated hgap h _ _ hfuel
  cases hfits with
  | array hdepth hlength hvalues =>
    rw [printedText, List.length_cons, List.length_append, List.length_singleton] at hfuel
    obtain ⟨fuel, rfl⟩ : ∃ n, fuel = n + 2 := ⟨fuel - 2, by omega⟩
    have hat : At source pos (gap ++ 91 :: (printedItems realText values ++ 93 :: rest)) := by
      simpa [printedText] using h
    have hitems : At source (pos + gap.length + 1) ([] ++ (printedItems realText values ++ 93 :: rest)) :=
      hat.skip.next
    have hread : (readerOf source).parseElementsWith limits fuel d [] (pos + gap.length + 1) = _ :=
      parseElements_text hback hvalues hd (by rw [List.length_nil]; omega) hseparated .nil hitems (by omega)
    rw [parseObject_array (by omega) hgap hat, hread]
    simp only [List.nil_append, ok_bind, Except.ok.injEq, Prod.mk.injEq, true_and, printedText,
      List.length_cons, List.length_append, List.length_nil]
    omega

theorem printedEntries_cons (entry : PdfName × CosObject) (entries : Dictionary) :
    printedEntries realText (entry :: entries)
      = nameText entry.1 ++ 32 :: (printedText realText entry.2
        ++ (spaceBefore entries ++ printedEntries realText entries)) := by
  obtain ⟨name, value⟩ := entry
  cases entries <;> simp [printedEntries, printedEntry, spaceBefore]

/-- After the value of an entry comes the next key or the end of the dictionary. -/
theorem entriesTail (entries : Dictionary) (rest : Bytes) :
    Ends (spaceBefore entries ++ (printedEntries realText entries ++ 62 :: 62 :: rest))
      ∧ Quiet (spaceBefore entries ++ (printedEntries realText entries ++ 62 :: 62 :: rest)) := by
  cases entries with
  | nil =>
    refine ⟨.cons (.inr (.inr (.inr rfl))), quiet_of_noWs fun b hb => ?_⟩
    cases hb
    rfl
  | cons entry entries =>
    rw [printedEntries_cons]
    exact ⟨.cons (.inl rfl), quiet_space rfl rfl (by decide) rfl⟩

/-- One pass of the loop of `parse_dictionary` at the text of an entry. -/
theorem parseEntries_entry {name : PdfName} {text : Bytes}
    (hname : name.bytes.length ≤ limits.maxNameBytes) (hgap : Blank gap)
    (h : At source pos (gap ++ (nameText name ++ 32 :: text))) (read : Dictionary) :
    (readerOf source).parseEntriesWith limits (fuel + 1) d read pos
      = (readerOf source).parseObjectWith limits fuel (ByteSource.deeper d)
          (pos + gap.length + (nameText name).length)
        >>= fun next => if read.length + 1 > limits.maxDictEntries then
            .error (.limitExceeded "max_dict_entries")
          else (readerOf source).parseEntriesWith limits fuel d (read.insert name next.1) next.2 := by
  have hskip := At.skipBlank hgap (startsToken_of_ne rfl (by decide)) h
  have hopen : (readerOf source).startsWith (pos + gap.length) [62, 62] = false :=
    h.skip.not_startsWith rfl (by decide)
  have hread : (readerOf source).parseName limits (pos + gap.length) = _ :=
    h.skip.parseNameText (fun b hb => .inr (head_space hb).1) hname
  rw [ByteSource.parseEntriesWith]
  dsimp only
  rw [hskip, hopen, if_neg Bool.false_ne_true, hread, ok_bind]

/-- The entries of a dictionary, after those already read. -/
theorem parseEntries_text {entries read : Dictionary}
    (hback : ∀ entry ∈ entries, ReadsBack realText limits entry.2)
    (hfits : ∀ entry ∈ entries, Printable realText limits (depth + 1) entry.2)
    (hnames : ∀ entry ∈ entries, entry.1.bytes.length ≤ limits.maxNameBytes) (hd : d ≤ depth)
    (hlength : read.length + entries.length ≤ limits.maxDictEntries)
    (hsorted : OrdList.Sorted (read ++ entries)) (hseparated : apartEntries realText entries = true)
    (hgap : Blank gap) (h : At source pos (gap ++ (printedEntries realText entries ++ 62 :: 62 :: rest)))
    (hfuel : 3 * (printedEntries realText entries).length + 4 ≤ fuel) :
    (readerOf source).parseEntriesWith limits fuel d read pos
      = .ok (read ++ entries, pos + gap.length + (printedEntries realText entries).length + 2) := by
  induction entries generalizing read gap pos fuel with
  | nil =>
    obtain ⟨fuel, rfl⟩ : ∃ n, fuel = n + 1 := ⟨fuel - 1, by omega⟩
    have hat : At source pos (gap ++ ([62, 62] ++ rest)) := h
    have hskip := At.skipBlank hgap (startsToken_of_ne rfl (by decide)) hat
    rw [ByteSource.parseEntriesWith]
    dsimp only
    rw [hskip, hat.skip.startsWith_self, if_pos rfl, hat.skip.consumeBytes, List.append_nil]
    rfl
  | cons entry entries ih =>
    obtain ⟨fuel, rfl⟩ : ∃ n, fuel = n + 1 := ⟨fuel - 1, by omega⟩
    obtain ⟨name, value⟩ := entry
    have hfit := hfits (name, value) List.mem_cons_self
    rw [apartEntries, apartEntry, Bool.and_eq_true] at hseparated
    rw [List.length_cons] at hlength
    rw [printedEntries_cons] at h hfuel ⊢
    dsimp only at h hfuel ⊢
    rw [List.length_append, List.length_cons, List.length_append, List.length_append] at hfuel ⊢
    have hat : At source pos (gap ++ (nameText name ++ 32 :: (printedText realText value
        ++ (spaceBefore entries ++ (printedEntries realText entries ++ 62 :: 62 :: rest))))) := by
      simpa using h
    obtain ⟨hends, hquiet⟩ := entriesTail entries rest
    have hspace : At source (pos + gap.length + (nameText name).length) ([32] ++ (printedText realText value
        ++ (spaceBefore entries ++ (printedEntries realText entries ++ 62 :: 62 :: rest)))) := hat.skip.skip
    have hread := @hback (name, value) List.mem_cons_self _ _ fuel _ _ _ _ hfit (deeper_le hd)
      hseparated.1 space_blank hspace hends (fun _ => hquiet) (by dsimp only; omega)
    have hinsert : Dictionary.insert read name value = read ++ [(name, value)] := by
      refine OrdList.insert_last value fun e he => ?_
      exact (List.pairwise_append.mp hsorted).2.2 e he (name, value) List.mem_cons_self
    dsimp only at hread
    rw [parseEntries_entry (hnames (name, value) List.mem_cons_self) hgap hat, hread, ok_bind]
    dsimp only
    rw [if_neg (by omega), hinsert,
      ih (fun e he => hback e (List.mem_cons_of_mem _ he))
        (fun e he => hfits e (List.mem_cons_of_mem _ he))
        (fun e he => hnames e (List.mem_cons_of_mem _ he))
        (by rw [List.length_append, List.length_singleton]; omega)
        (by rw [List.append_assoc]; exact hsorted) hseparated.2 (spaceBefore_blank entries)
        hspace.skip.skip (by omega), List.append_assoc]
    simp only [List.singleton_append, Except.ok.injEq, Prod.mk.injEq, true_and, List.length_nil,
      List.length_cons]
    omega

theorem readsBack_dictionary {entries : Dictionary}
    (hback : ∀ entry ∈ entries, ReadsBack realText limits entry.2) :
    ReadsBack realText limits (.dictionary entries) := by
  intro depth d fuel pos source gap rest hfits hd hseparated hgap h _ _ hfuel
  cases hfits with
  | dictionary hdepth hlength hsorted hnames hvalues =>
    rw [printedText, List.length_append, List.length_append] at hfuel
    simp only [List.length_cons, List.length_nil] at hfuel
    obtain ⟨fuel, rfl⟩ : ∃ n, fuel = n + 2 := ⟨fuel - 2, by omega⟩
    have hat : At source pos
        (gap ++ ([60, 60] ++ (printedEntries realText entries ++ 62 :: 62 :: rest))) := by
      simpa [printedText] using h
    have hitems : At source (pos + gap.length + 2)
        ([] ++ (printedEntries realText entries ++ 62 :: 62 :: rest)) :=
      hat.skip.skip
    have hread : (readerOf source).parseEntriesWith limits fuel d [] (pos + gap.length + 2) = _ :=
      parseEntries_text hback hvalues hnames hd (by rw [List.length_nil]; omega) hsorted hseparated .nil
        hitems (by omega)
    rw [parseObject_dictionary (by omega) hgap hat, hread]
    simp only [List.nil_append, ok_bind, Except.ok.injEq, Prod.mk.injEq, true_and, printedText,
      List.length_cons, List.length_append, List.length_nil]
    omega

/-- Every object in which no integer clashes is read back. -/
theorem readsBack (object : CosObject) : ReadsBack realText limits object := by
  induction object using CosObject.nestedInduction with
  | hnull => exact readsBack_keyword .null rfl
  | hboolean b =>
    cases b with
    | true => exact readsBack_keyword .yes rfl
    | false => exact readsBack_keyword .no rfl
  | hinteger i => exact readsBack_integer i
  | hreal r => exact readsBack_real r
  | hname n => exact readsBack_name n
  | hstring s => exact readsBack_string s
  | hreference k => exact readsBack_reference k
  | harray values ih => exact readsBack_array ih
  | hdictionary entries ih => exact readsBack_dictionary ih
  | hstream stream ih =>
    intro depth d fuel pos source gap rest hfits
    cases hfits

/-! ## Where the parse is given up -/

/-- The parse fails wherever the text of the object stands, given enough fuel. -/
def GivesUp (realText : F64 → Bytes) (limits : ResourceLimits) (object : CosObject) : Prop :=
  ∀ {depth d fuel pos : Nat} {source gap rest : Bytes},
    Printable realText limits depth object → d ≤ depth → apart realText object = false → Blank gap →
    At source pos (gap ++ (printedText realText object ++ rest)) →
    Ends rest → 3 * (printedText realText object).length + 1 ≤ fuel →
    ∃ e, (readerOf source).parseObjectWith limits fuel d pos = .error e

/-- The number at the start of an object's text, and what follows it. -/
theorem leadingNumber_text {object : CosObject} {n : Nat}
    (hfit : Printable realText limits depth object) (h : leadingNumberOf realText object = some n)
    (hrest : Ends rest) :
    ∃ digits more, printedText realText object ++ rest = digits ++ more ∧ digits ≠ []
      ∧ (∀ b ∈ digits, isDigit b = true) ∧ digitsValue digits = n
      ∧ ∀ b, more.head? = some b → isDigit b = false := by
  cases hfit with
  | @integer _ _ value _ _ =>
    by_cases hneg : 0 ≤ value
    · have hn : value.natAbs = n := by
        simpa [leadingNumberOf, hneg] using h
      refine ⟨decimalBytes n, rest, ?_, decimalBytes_ne n, decimalBytes_digits n,
        digitsValue_decimalBytes n, fun b hb => ?_⟩
      · show integerBytes value ++ rest = decimalBytes n ++ rest
        unfold integerBytes
        rw [if_neg (by omega), hn]
      · rcases hrest b hb with rfl | rfl | rfl | rfl <;> rfl
    · simp [leadingNumberOf, hneg] at h
  | @real _ _ value htext =>
    have hleading : leadingDigits (realText value) = some n := h
    rcases htext.leading with
      ⟨b, more, -, -, -, -, hnone⟩ | ⟨digits, more, hsplit, hne, hdigits, hvalue⟩
    · rw [hnone] at hleading
      cases hleading
    · rw [hvalue] at hleading
      cases hleading
      refine ⟨digits, 46 :: (more ++ rest), ?_, hne, hdigits, rfl, fun b hb => ?_⟩
      · show realText value ++ rest = _
        rw [hsplit]
        simp
      · cases hb
        rfl
  | reference hdepth key =>
    cases h
    refine ⟨decimalBytes key.number, 32 :: (decimalBytes key.generation ++ 32 :: 82 :: rest), ?_,
      decimalBytes_ne _, decimalBytes_digits _, digitsValue_decimalBytes _, fun b hb => ?_⟩
    · show referenceText key ++ rest = _
      simp [referenceText]
    · cases hb
      rfl
  | null => cases h
  | boolean => cases h
  | name => cases h
  | string => cases h
  | array => cases h
  | dictionary => cases h

/-- An integer is not read when the object after it clashes with it. -/
theorem parseObject_clash {value next : CosObject} {separator : UInt8} {nextDepth : Nat}
    (hends : Ends [separator]) (hseparator : isWs separator = true)
    (hfit : Printable realText limits depth value) (hnext : Printable realText limits nextDepth next)
    (hd : d ≤ depth) (hclash : clashesWith realText value next = true) (hrest : Ends rest)
    (hgap : Blank gap)
    (h : At source pos (gap ++ (printedText realText value
      ++ separator :: (printedText realText next ++ rest)))) :
    (readerOf source).parseObjectWith limits (fuel + 1) d pos
      = .error (.bad "unsigned integer out of range") := by
  unfold clashesWith at hclash
  rw [Bool.and_eq_true, Option.any_eq_true] at hclash
  obtain ⟨hinteger, n, hn, hlarge⟩ := hclash
  cases hfit with
  | @integer _ hdepth value hmin hmax =>
    obtain ⟨digits, more, hmore, hne, hdigits, hvalue, hend⟩ := leadingNumber_text hnext hn hrest
    rw [hmore] at h
    have hat : At source pos (gap ++ (integerBytes value ++ separator :: (digits ++ more))) := h
    have hread := hat.skip.parseInteger_clash hmin hmax hends hseparator hdigits hne
      (by rw [hvalue]; exact of_decide_eq_true hlarge) hend
    obtain ⟨b, tail, hbytes, hb⟩ := integerBytes_cons value
    have hother : ∀ c, c ≠ 45 → isDigit c = false → b ≠ c := by
      rintro c hc hdigit rfl
      rcases hb with rfl | hb
      · exact hc rfl
      · rw [hb] at hdigit
        cases hdigit
    have hws : isWs b = false := by
      rcases hb with rfl | hb
      · rfl
      · exact isWs_of_isDigit hb
    have hsign : (decide (b = 45) || decide (b = 43) || decide (b = 46) || isDigit b) = true := by
      rcases hb with rfl | hb
      · rfl
      · rw [hb, Bool.or_true]
    rw [hbytes] at hat
    rw [At.parseObject_scalar hgap hat hws (hother 37 (by decide) rfl) (hother 60 (by decide) rfl)
      (hother 91 (by decide) rfl) (by omega)]
    unfold ByteSource.parseScalar
    rw [if_neg (hother 47 (by decide) rfl), if_neg (hother 40 (by decide) rfl),
      if_neg (hother 60 (by decide) rfl), decide_eq_false (hother 116 (by decide) rfl),
      decide_eq_false (hother 102 (by decide) rfl), decide_eq_false (hother 110 (by decide) rfl),
      hsign, hread]
    rfl
  | null => cases hinteger
  | boolean => cases hinteger
  | real => cases hinteger
  | name => cases hinteger
  | string => cases hinteger
  | reference => cases hinteger
  | array => cases hinteger
  | dictionary => cases hinteger

theorem parseElements_giveUp {values read : List CosObject}
    (hgive : ∀ value ∈ values, GivesUp realText limits value)
    (hfits : ∀ value ∈ values, Printable realText limits (depth + 1) value) (hd : d ≤ depth)
    (hseparated : apartItems realText values = false) (hgap : Blank gap)
    (h : At source pos (gap ++ (printedItems realText values ++ 93 :: rest)))
    (hfuel : 3 * (printedItems realText values).length + 4 ≤ fuel) :
    ∃ e, (readerOf source).parseElementsWith limits fuel d read pos = .error e := by
  induction values generalizing read gap pos fuel with
  | nil => cases hseparated
  | cons value values ih =>
    obtain ⟨fuel, rfl⟩ : ∃ n, fuel = n + 1 := ⟨fuel - 1, by omega⟩
    have hfit := hfits value List.mem_cons_self
    have hpos := hfit.text_pos
    rw [printedItems_append] at h
    rw [printedItems_cons, List.length_append, List.length_append] at hfuel
    have hnil : At source (pos + gap.length)
        ([] ++ (printedText realText value ++ tailText realText values rest)) :=
      h.skip
    rw [parseElements_element hfit hgap h]
    by_cases hvalue : apart realText value = true
    · by_cases hclash : values.head?.any (clashesWith realText value) = true
      · cases values with
        | nil => cases hclash
        | cons next values =>
          obtain ⟨fuel, rfl⟩ : ∃ n, fuel = n + 1 := ⟨fuel - 1, by omega⟩
          rw [tailText_cons] at hnil
          have hnext := hfits next (List.mem_cons_of_mem _ List.mem_cons_self)
          rw [parseObject_clash (.cons (.inl rfl)) rfl hfit hnext (deeper_le hd) hclash
            (tailText_ends values rest) .nil hnil]
          exact ⟨_, rfl⟩
      · -- the element is read, and the failure lies further on
        rw [Bool.not_eq_true] at hclash
        have hvalues : apartItems realText values = false := by
          rw [apartItems, hvalue, hclash] at hseparated
          exact hseparated
        have hread := @readsBack realText limits value _ _ fuel _ _ _ _ hfit (deeper_le hd) hvalue .nil hnil
          (tailText_ends values rest)
          (fun hinteger => quiet_tail hinteger (fun v hv => hfits v (List.mem_cons_of_mem _ hv)) hclash)
          (by omega)
        have hnext := h.skip.skip
        rw [tailText_eq] at hnext
        rw [hread, ok_bind]
        dsimp only
        split
        · exact ⟨_, rfl⟩
        · rw [List.length_nil, Nat.add_zero]
          exact ih (fun v hv => hgive v (List.mem_cons_of_mem _ hv))
            (fun v hv => hfits v (List.mem_cons_of_mem _ hv)) hvalues (spaceBefore_blank values) hnext
            (by omega)
    · rw [Bool.not_eq_true] at hvalue
      obtain ⟨e, he⟩ := @hgive value List.mem_cons_self _ _ fuel _ _ _ _ hfit (deeper_le hd) hvalue .nil
        hnil (tailText_ends values rest) (by omega)
      rw [he]
      exact ⟨e, rfl⟩

theorem parseEntries_giveUp {entries read : Dictionary}
    (hgive : ∀ entry ∈ entries, GivesUp realText limits entry.2)
    (hfits : ∀ entry ∈ entries, Printable realText limits (depth + 1) entry.2)
    (hnames : ∀ entry ∈ entries, entry.1.bytes.length ≤ limits.maxNameBytes) (hd : d ≤ depth)
    (hseparated : apartEntries realText entries = false) (hgap : Blank gap)
    (h : At source pos (gap ++ (printedEntries realText entries ++ 62 :: 62 :: rest)))
    (hfuel : 3 * (printedEntries realText entries).length + 4 ≤ fuel) :
    ∃ e, (readerOf source).parseEntriesWith limits fuel d read pos = .error e := by
  induction entries generalizing read gap pos fuel with
  | nil => cases hseparated
  | cons entry entries ih =>
    obtain ⟨fuel, rfl⟩ : ∃ n, fuel = n + 1 := ⟨fuel - 1, by omega⟩
    obtain ⟨name, value⟩ := entry
    have hfit := hfits (name, value) List.mem_cons_self
    rw [printedEntries_cons] at h hfuel
    dsimp only at h hfuel
    rw [List.length_append, List.length_cons, List.length_append, List.length_append] at hfuel
    have hat : At source pos (gap ++ (nameText name ++ 32 :: (printedText realText value
        ++ (spaceBefore entries ++ (printedEntries realText entries ++ 62 :: 62 :: rest))))) := by
      simpa using h
    have hspace : At source (pos + gap.length + (nameText name).length) ([32] ++ (printedText realText value
        ++ (spaceBefore entries ++ (printedEntries realText entries ++ 62 :: 62 :: rest)))) := hat.skip.skip
    obtain ⟨hends, hquiet⟩ := entriesTail entries rest
    rw [parseEntries_entry (hnames (name, value) List.mem_cons_self) hgap hat]
    by_cases hvalue : apart realText value = true
    · have hentries : apartEntries realText entries = false := by
        rw [apartEntries, apartEntry, hvalue] at hseparated
        exact hseparated
      have hread := @readsBack realText limits value _ _ fuel _ _ _ _ hfit (deeper_le hd) hvalue space_blank
        hspace hends (fun _ => hquiet) (by omega)
      rw [hread, ok_bind]
      dsimp only
      split
      · exact ⟨_, rfl⟩
      · exact ih (fun e he => hgive e (List.mem_cons_of_mem _ he))
          (fun e he => hfits e (List.mem_cons_of_mem _ he))
          (fun e he => hnames e (List.mem_cons_of_mem _ he)) hentries (spaceBefore_blank entries)
          hspace.skip.skip (by omega)
    · rw [Bool.not_eq_true] at hvalue
      obtain ⟨e, he⟩ := @hgive (name, value) List.mem_cons_self _ _ fuel _ _ _ _ hfit (deeper_le hd)
        hvalue space_blank hspace hends (by dsimp only; omega)
      rw [he]
      exact ⟨e, rfl⟩

/-- An object in which some integer clashes is not read. -/
theorem givesUp (object : CosObject) : GivesUp realText limits object := by
  induction object using CosObject.nestedInduction with
  | harray values ih =>
    intro depth d fuel pos source gap rest hfits hd hseparated hgap h _ hfuel
    cases hfits with
    | array hdepth hlength hvalues =>
      rw [printedText, List.length_cons, List.length_append, List.length_singleton] at hfuel
      obtain ⟨fuel, rfl⟩ : ∃ n, fuel = n + 2 := ⟨fuel - 2, by omega⟩
      have hat : At source pos (gap ++ 91 :: (printedItems realText values ++ 93 :: rest)) := by
        simpa [printedText] using h
      have hitems : At source (pos + gap.length + 1) ([] ++ (printedItems realText values ++ 93 :: rest)) :=
        hat.skip.next
      obtain ⟨e, he⟩ : ∃ e, (readerOf source).parseElementsWith limits fuel d []
          (pos + gap.length + 1) = .error e :=
        parseElements_giveUp ih hvalues hd hseparated .nil hitems (by omega)
      rw [parseObject_array (by omega) hgap hat, he]
      exact ⟨e, rfl⟩
  | hdictionary entries ih =>
    intro depth d fuel pos source gap rest hfits hd hseparated hgap h _ hfuel
    cases hfits with
    | dictionary hdepth hlength hsorted hnames hvalues =>
      rw [printedText, List.length_append, List.length_append] at hfuel
      simp only [List.length_cons, List.length_nil] at hfuel
      obtain ⟨fuel, rfl⟩ : ∃ n, fuel = n + 2 := ⟨fuel - 2, by omega⟩
      have hat : At source pos
        (gap ++ ([60, 60] ++ (printedEntries realText entries ++ 62 :: 62 :: rest))) := by
        simpa [printedText] using h
      have hitems : At source (pos + gap.length + 2)
          ([] ++ (printedEntries realText entries ++ 62 :: 62 :: rest)) := hat.skip.skip
      obtain ⟨e, he⟩ : ∃ e, (readerOf source).parseEntriesWith limits fuel d []
          (pos + gap.length + 2) = .error e :=
        parseEntries_giveUp ih hvalues hnames hd hseparated .nil hitems (by omega)
      rw [parseObject_dictionary (by omega) hgap hat, he]
      exact ⟨e, rfl⟩
  | hnull => exact fun _ _ h => by cases h
  | hboolean b => exact fun _ _ h => by cases h
  | hinteger i => exact fun _ _ h => by cases h
  | hreal r => exact fun _ _ h => by cases h
  | hname n => exact fun _ _ h => by cases h
  | hstring s => exact fun _ _ h => by cases h
  | hreference k => exact fun _ _ h => by cases h
  | hstream stream ih => exact fun _ _ h => by cases h

/-- A printed object that stands alone is read back, up to its end, exactly when no integer in it
clashes with the number after it. -/
theorem parseObject_printed_iff {object : CosObject} (hfit : Printable realText limits 0 object) :
    (readerOf (printedText realText object)).parseObject limits 0 0
        = .ok (object, (printedText realText object).length)
      ↔ apart realText object = true := by
  have hat : At (printedText realText object) 0 ([] ++ (printedText realText object ++ [])) := by
    rw [List.nil_append, List.append_nil]
    exact .start _
  have hfuel : 3 * (printedText realText object).length + 1
      ≤ (readerOf (printedText realText object)).objectFuel := by
    show _ ≤ 3 * (printedText realText object).length + 6
    omega
  have hquiet : Quiet [] := quiet_of_noWs fun b hb => by cases hb
  constructor
  · intro hread
    by_contra hclash
    rw [Bool.not_eq_true] at hclash
    obtain ⟨e, he⟩ := givesUp object hfit (Nat.le_refl 0) hclash .nil hat .nil hfuel
    have herror : (readerOf (printedText realText object)).parseObject limits 0 0 = .error e := he
    rw [herror] at hread
    cases hread
  · intro hapart
    have hread := readsBack object hfit (Nat.le_refl 0) hapart .nil hat .nil (fun _ => hquiet) hfuel
    rw [List.length_nil, Nat.add_zero, Nat.zero_add] at hread
    exact hread

end Reading

end Pdfv
