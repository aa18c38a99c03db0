import Pdfv.Content.Tokenizer
import Pdfv.Parser.Reading
/-!
# Spelled tokens

The texts of the tokens of a content stream: white space and comments between them (`TokenGap`), and COS
values without references and streams (`Spells`), nested in one another. The scanner of composite
operands moves over whatever such a value spells (`Spells.skips`). A comment inside an array or a
dictionary must have none of the bytes that the scanner looks at, because it has no branch for comments.
-/

namespace Pdfv

open Loop Fallible

/-! ## Gaps -/

/-- White space and comments. A comment goes on up to its line end. -/
inductive TokenGap : Bytes → Prop where
  | nil : TokenGap []
  | ws {b : UInt8} {gap : Bytes} (hb : isWs b = true) (hgap : TokenGap gap) : TokenGap (b :: gap)
  | comment {body : Bytes} {eol : UInt8} {gap : Bytes} (hbody : ∀ b ∈ body, isEol b = false)
    (heol : isEol eol = true) (hgap : TokenGap gap) : TokenGap (37 :: (body ++ eol :: gap))

/-- The bytes are at their end or start with white space or a comment. -/
def StartsGap (rest : Bytes) : Prop :=
  ∀ b, rest.head? = some b → isWs b = true ∨ b = 37

/-- The bytes are at their end or start with a token. -/
def StartsText (rest : Bytes) : Prop :=
  ∀ b, rest.head? = some b → isWs b = false ∧ b ≠ 37

theorem isWs_of_isEol {b : UInt8} (h : isEol b = true) : isWs b = true := by
  unfold isEol at h
  unfold isWs
  grind

theorem StartsGap.ends {rest : Bytes} (h : StartsGap rest) :
    ∀ b, rest.head? = some b → (!isWs b && !isDelimiter b) = false := by
  intro b hb
  rcases h b hb with hws | rfl
  · rw [hws]
    rfl
  · rfl

namespace At

variable {bytes rest : Bytes} {pos : Nat}

theorem get (h : At bytes pos rest) : bytes[pos]? = rest.head? := by
  rw [← h.drop, List.head?_drop]

theorem consumeRunLoop (p : UInt8 → Bool) {run : Bytes} (h : At bytes pos (run ++ rest))
    (hrun : ∀ b ∈ run, p b = true) (hrest : ∀ b, rest.head? = some b → p b = false) {fuel : Nat}
    (hfuel : run.length < fuel) :
    runLoop (ContentTokenizer.consumeWhileStep bytes p) id fuel pos = pos + run.length := by
  obtain ⟨fuel, rfl⟩ : ∃ n, fuel = n + 1 := ⟨fuel - 1, by omega⟩
  induction run generalizing pos fuel with
  | nil =>
    have hstep : ContentTokenizer.consumeWhileStep bytes p pos = .done pos := by
      unfold ContentTokenizer.consumeWhileStep
      rw [h.get, List.nil_append]
      cases hhead : rest.head? with
      | none => rfl
      | some b => exact if_neg (by rw [hrest b hhead]; exact Bool.false_ne_true)
    rw [runLoop_done hstep]
    rfl
  | cons b run ih =>
    rw [List.length_cons] at hfuel ⊢
    obtain ⟨fuel, rfl⟩ : ∃ n, fuel = n + 1 := ⟨fuel - 1, by omega⟩
    have hstep : ContentTokenizer.consumeWhileStep bytes p pos = .next (pos + 1) := by
      unfold ContentTokenizer.consumeWhileStep
      rw [h.get]
      exact if_pos (hrun b List.mem_cons_self)
    have hnext : At bytes (pos + 1) (run ++ rest) := h.next
    rw [runLoop_next hstep, ih hnext (fun c hc => hrun c (List.mem_cons_of_mem _ hc)) fuel (by omega)]
    omega

/-- A run of bytes with the property, up to one without it. -/
theorem consumeRun (p : UInt8 → Bool) {run : Bytes} (h : At bytes pos (run ++ rest))
    (hrun : ∀ b ∈ run, p b = true) (hrest : ∀ b, rest.head? = some b → p b = false) :
    ContentTokenizer.consumeWhile bytes p pos = pos + run.length := by
  have hlen := h.length
  rw [List.length_append] at hlen
  exact h.consumeRunLoop p hrun hrest (by omega)

/-- White space is taken before a comment, so the loop is followed with the run that is under way. -/
theorem skipGapLoop {run gap : Bytes} (hgap : TokenGap gap) (hrun : ∀ b ∈ run, isWs b = true)
    (hrest : StartsText rest) (h : At bytes pos (run ++ (gap ++ rest))) {fuel : Nat}
    (hfuel : gap.length < fuel) :
    runLoop (ContentTokenizer.skipWsAndCommentsStep bytes) id fuel pos
      = pos + run.length + gap.length := by
  induction hgap generalizing pos run fuel with
  | nil =>
    obtain ⟨fuel, rfl⟩ : ∃ n, fuel = n + 1 := ⟨fuel - 1, by omega⟩
    have hws : ContentTokenizer.consumeWhile bytes isWs pos = pos + run.length :=
      h.consumeRun isWs hrun fun b hb => (hrest b hb).1
    have hstep : ContentTokenizer.skipWsAndCommentsStep bytes pos = .done (pos + run.length) := by
      unfold ContentTokenizer.skipWsAndCommentsStep
      dsimp only
      rw [hws, h.skip.get, List.nil_append]
      exact if_neg fun hpercent => (hrest 37 hpercent).2 rfl
    rw [runLoop_done hstep]
    rfl
  | @ws b gap hb _ ih =>
    have hnext : At bytes pos ((run ++ [b]) ++ (gap ++ rest)) := by
      simpa using h
    have hall : ∀ c ∈ run ++ [b], isWs c = true := by
      intro c hc
      rcases List.mem_append.mp hc with hc | hc
      · exact hrun c hc
      · rw [List.mem_singleton.mp hc]
        exact hb
    rw [List.length_cons] at hfuel ⊢
    rw [ih hall hnext (by omega), List.length_append, List.length_singleton]
    omega
  | @comment body eol gap hbody heol _ ih =>
    rw [List.length_cons, List.length_append, List.length_cons] at hfuel ⊢
    obtain ⟨fuel, rfl⟩ : ∃ n, fuel = n + 1 := ⟨fuel - 1, by omega⟩
    have hws : ContentTokenizer.consumeWhile bytes isWs pos = pos + run.length :=
      h.consumeRun isWs hrun fun b hb => by
        cases hb
        decide
    have hline : At bytes (pos + run.length) ((37 :: body) ++ (eol :: (gap ++ rest))) := by
      simpa using h.skip
    have hend : ContentTokenizer.consumeWhile bytes (fun b => !isEol b) (pos + run.length)
        = pos + run.length + (37 :: body).length := by
      refine hline.consumeRun _ (fun b hb => ?_) fun b hb => ?_
      · rcases List.mem_cons.mp hb with rfl | hb
        · decide
        · rw [hbody b hb]
          rfl
      · cases hb
        rw [heol]
        rfl
    have hstep : ContentTokenizer.skipWsAndCommentsStep bytes pos
        = .next (pos + run.length + (37 :: body).length) := by
      unfold ContentTokenizer.skipWsAndCommentsStep
      dsimp only
      rw [hws, hend, h.skip.get]
      rfl
    have hnext : At bytes (pos + run.length + (37 :: body).length) ([eol] ++ (gap ++ rest)) :=
      hline.skip
    have heolRun : ∀ b ∈ [eol], isWs b = true := by
      intro b hb
      rw [List.mem_singleton.mp hb]
      exact isWs_of_isEol heol
    rw [runLoop_next hstep, ih heolRun hnext (by omega), List.length_cons, List.length_singleton]
    omega

/-- White space and comments up to the next token. -/
theorem skipGap {gap : Bytes} (h : At bytes pos (gap ++ rest)) (hgap : TokenGap gap)
    (hrest : StartsText rest) :
    ContentTokenizer.skipWsAndComments bytes pos = pos + gap.length := by
  have hlen := h.length
  rw [List.length_append] at hlen
  have hloop : At bytes pos ([] ++ (gap ++ rest)) := h
  exact skipGapLoop hgap (fun b hb => absurd hb List.not_mem_nil) hrest hloop (by omega)

end At

/-! ## Strings -/

/-- A literal string between its parentheses: the bytes it stands for and its text, with at most
`depth` parentheses open at a time. -/
inductive LiteralText : Nat → Bytes → Bytes → Prop where
  | nil (depth : Nat) : LiteralText depth [] []
  | plain {depth : Nat} {b : UInt8} {value text : Bytes} (hopen : b ≠ 40) (hclose : b ≠ 41)
    (hescape : b ≠ 92) (rest : LiteralText depth value text) :
    LiteralText depth (b :: value) (b :: text)
  | escape {depth : Nat} (b : UInt8) {value text : Bytes} (rest : LiteralText depth value text) :
    LiteralText depth (ByteSource.unescape b :: value) (92 :: b :: text)
  | group {depth : Nat} {inner innerText value text : Bytes}
    (hinner : LiteralText depth inner innerText) (rest : LiteralText (depth + 1) value text) :
    LiteralText (depth + 1) (40 :: (inner ++ 41 :: value)) (40 :: (innerText ++ 41 :: text))

/-- A hexadecimal string between its brackets: the bytes it stands for and its text. -/
def HexText (value text : Bytes) : Prop :=
  (∀ b ∈ text, isWs b = true ∨ (decodeHexDigit b).isSome)
    ∧ ByteSource.decodeHexPairs (text.filter fun b => !isWs b) = some value

theorem HexText.plain {value text : Bytes} (h : HexText value text) :
    ∀ b ∈ text, b ≠ 60 ∧ b ≠ 62 := by
  intro b hb
  refine ⟨?_, ?_⟩
  · rintro rfl
    exact absurd (h.1 60 hb) (by decide)
  · rintro rfl
    exact absurd (h.1 62 hb) (by decide)

namespace At

variable {bytes rest : Bytes} {pos : Nat}

/-- The text of a literal string leaves the parentheses as they were. -/
theorem skipLiteral {room depth : Nat} {value text : Bytes} (htext : LiteralText room value text)
    (h : At bytes pos (text ++ rest)) (hdepth : 1 ≤ depth) (hroom : depth + room < u32Size) :
    ∃ n ≤ text.length,
      Steps (ContentTokenizer.literalStringStep bytes) n (pos, depth) (pos + text.length, depth) := by
  induction htext generalizing pos rest depth with
  | nil => exact ⟨0, Nat.zero_le _, .refl _⟩
  | @plain room b value text hopen hclose hescape _ ih =>
    have hstep : ContentTokenizer.literalStringStep bytes (pos, depth) = .next (pos + 1, depth) := by
      unfold ContentTokenizer.literalStringStep
      dsimp only
      rw [h.get, List.cons_append, List.head?_cons]
      split
      · rename_i hb
        cases hb
      · rename_i hb
        exact absurd (Option.some.inj hb) hescape
      · rename_i hb
        exact absurd (Option.some.inj hb) hopen
      · rename_i hb
        exact absurd (Option.some.inj hb) hclose
      · rfl
    have hnext : At bytes (pos + 1) (text ++ rest) := h.next
    obtain ⟨n, hn, hsteps⟩ := ih hnext hdepth hroom
    refine ⟨n + 1, Nat.succ_le_succ hn, .next hstep ?_⟩
    rw [List.length_cons, Nat.add_comm text.length 1, ← Nat.add_assoc]
    exact hsteps
  | @escape room b value text _ ih =>
    have hstep : ContentTokenizer.literalStringStep bytes (pos, depth) = .next (pos + 2, depth) := by
      unfold ContentTokenizer.literalStringStep
      dsimp only
      rw [h.get]
      rfl
    have hnext : At bytes (pos + 2) (text ++ rest) := h.next.next
    obtain ⟨n, hn, hsteps⟩ := ih hnext hdepth hroom
    refine ⟨n + 1, Nat.le_succ_of_le (Nat.succ_le_succ hn), .next hstep ?_⟩
    rw [List.length_cons, List.length_cons, Nat.add_assoc, Nat.add_comm text.length 2, ← Nat.add_assoc]
    exact hsteps
  | @group room inner innerText value text _ _ ihInner ih =>
    have hopen : ContentTokenizer.literalStringStep bytes (pos, depth) = .next (pos + 1, depth + 1) := by
      unfold ContentTokenizer.literalStringStep
      dsimp only
      rw [h.get]
      exact if_pos (by omega)
    have hinner : At bytes (pos + 1) (innerText ++ 41 :: (text ++ rest)) := by
      simpa using h.next
    obtain ⟨n, hn, hsteps⟩ : ∃ n ≤ innerText.length, Steps (ContentTokenizer.literalStringStep bytes) n
        (pos + 1, depth + 1) (pos + 1 + innerText.length, depth + 1) :=
      ihInner hinner (by omega) (by omega)
    have hclose : ContentTokenizer.literalStringStep bytes (pos + 1 + innerText.length, depth + 1)
        = .next (pos + 1 + innerText.length + 1, depth) := by
      unfold ContentTokenizer.literalStringStep
      dsimp only
      rw [hinner.skip.get]
      exact if_neg (by omega)
    have hafter : At bytes (pos + 1 + innerText.length + 1) (text ++ rest) := hinner.skip.next
    obtain ⟨m, hm, hrest⟩ := ih hafter hdepth hroom
    have hstop : pos + (40 :: (innerText ++ 41 :: text)).length
        = pos + 1 + innerText.length + 1 + text.length := by
      rw [List.length_cons, List.length_append, List.length_cons]
      omega
    refine ⟨n + (m + 1) + 1, ?_, ?_⟩
    · rw [List.length_cons, List.length_append, List.length_cons]
      omega
    · rw [hstop]
      exact .next hopen (hsteps.trans (.next hclose hrest))

/-- A literal string with its parentheses. -/
theorem consumeLiteral {value text : Bytes} (h : At bytes pos (40 :: (text ++ 41 :: rest)))
    (htext : LiteralText (u32Size - 2) value text) :
    ContentTokenizer.consumeLiteralString bytes pos = .ok (pos + (40 :: (text ++ [41])).length) := by
  have hinner : At bytes (pos + 1) (text ++ 41 :: rest) := h.next
  have hlen := hinner.length
  rw [List.length_append, List.length_cons] at hlen
  obtain ⟨n, hn, hsteps⟩ := hinner.skipLiteral htext (Nat.le_refl 1) (by decide)
  have hclose : ContentTokenizer.literalStringStep bytes (pos + 1 + text.length, 1)
      = .done (.ok (pos + 1 + text.length + 1)) := by
    unfold ContentTokenizer.literalStringStep
    dsimp only
    rw [hinner.skip.get]
    rfl
  have hends := hsteps.endsIn (.done hclose)
  have hstop : pos + (40 :: (text ++ [41])).length = pos + 1 + text.length + 1 := by
    rw [List.length_cons, List.length_append, List.length_singleton]
    omega
  rw [hstop]
  exact hends.runLoop (by omega) _

theorem skipHex {text : Bytes} (htext : ∀ b ∈ text, b ≠ 62) (h : At bytes pos (text ++ rest)) :
    Steps (ContentTokenizer.hexStringStep bytes) text.length pos (pos + text.length) := by
  induction text generalizing pos with
  | nil => exact .refl _
  | cons b text ih =>
    have hstep : ContentTokenizer.hexStringStep bytes pos = .next (pos + 1) := by
      unfold ContentTokenizer.hexStringStep
      rw [h.get, List.cons_append, List.head?_cons]
      split
      · rename_i hb
        cases hb
      · rename_i hb
        exact absurd (Option.some.inj hb) (htext b List.mem_cons_self)
      · rfl
    have hnext : At bytes (pos + 1) (text ++ rest) := h.next
    have hsteps := ih (fun c hc => htext c (List.mem_cons_of_mem _ hc)) hnext
    rw [List.length_cons, Nat.add_comm text.length 1, ← Nat.add_assoc, Nat.add_comm 1 text.length]
    exact .next hstep hsteps

/-- A hexadecimal string with its brackets. -/
theorem consumeHex {value text : Bytes} (h : At bytes pos (60 :: (text ++ 62 :: rest)))
    (htext : HexText value text) :
    ContentTokenizer.consumeHexString bytes pos = .ok (pos + (60 :: (text ++ [62])).length) := by
  have hinner : At bytes (pos + 1) (text ++ 62 :: rest) := h.next
  have hlen := hinner.length
  rw [List.length_append, List.length_cons] at hlen
  have hclose : ContentTokenizer.hexStringStep bytes (pos + 1 + text.length)
      = .done (.ok (pos + 1 + text.length + 1)) := by
    unfold ContentTokenizer.hexStringStep
    rw [hinner.skip.get]
    rfl
  have hends := (hinner.skipHex fun b hb => (htext.plain b hb).2).endsIn (.done hclose)
  have hstop : pos + (60 :: (text ++ [62])).length = pos + 1 + text.length + 1 := by
    rw [List.length_cons, List.length_append, List.length_singleton]
    omega
  rw [hstop]
  exact hends.runLoop (by omega) _

end At

/-! ## Values -/

/-- The bytes that the scanner of composite operands moves over one by one. -/
def isQuiet (b : UInt8) : Bool :=
  b ≠ 40 && b ≠ 60 && b ≠ 62 && b ≠ 91 && b ≠ 93

/-- White space and comments inside an array or a dictionary. -/
def QuietGap (gap : Bytes) : Prop :=
  TokenGap gap ∧ ∀ b ∈ gap, isQuiet b = true

/-- A byte that is neither white space nor a delimiter. -/
def isRegularByte (b : UInt8) : Bool :=
  !isWs b && !isDelimiter b

/-- The bytes of a name and its text: regular bytes but `#` stand for themselves, `#xx` for any byte. -/
inductive NameText : Bytes → Bytes → Prop where
  | nil : NameText [] []
  | plain {b : UInt8} {name text : Bytes} (hregular : isRegularByte b = true) (hescape : b ≠ 35)
    (rest : NameText name text) : NameText (b :: name) (b :: text)
  | escape {high low b : UInt8} {name text : Bytes} (hpair : decodeHexPair high low = some b)
    (rest : NameText name text) : NameText (b :: name) (35 :: high :: low :: text)

/-- A sign may stand before a number. -/
def IsSign (sign : Bytes) : Prop :=
  sign = [] ∨ sign = [43] ∨ sign = [45]

/-- What is spelled: a value, the elements of an array or the entries of a dictionary. -/
inductive Spelled where
  | value (value : CosObject)
  | items (values : List CosObject)
  | entries (entries : List (PdfName × CosObject))

/-- The texts of a COS value without references and streams, with at most `depth` arrays and dictionaries
in one another. White space stands between two elements of an array, between a key and its value and
between two entries. -/
inductive Spells : Nat → Spelled → Bytes → Prop where
  | null (depth : Nat) : Spells depth (.value .null) (utf8 "null")
  | yes (depth : Nat) : Spells depth (.value (.boolean true)) (utf8 "true")
  | no (depth : Nat) : Spells depth (.value (.boolean false)) (utf8 "false")
  | integer (depth : Nat) {value : Int} {sign digits : Bytes} (hsign : IsSign sign)
    (hdigits : ∀ b ∈ digits, isDigit b = true) (hvalue : parseI64 (sign ++ digits) = some value) :
    Spells depth (.value (.integer value)) (sign ++ digits)
  | real (depth : Nat) {value : F64} {sign whole fraction : Bytes} (hsign : IsSign sign)
    (hwhole : ∀ b ∈ whole, isDigit b = true) (hfraction : ∀ b ∈ fraction, isDigit b = true)
    (hvalue : parseF64 (sign ++ (whole ++ 46 :: fraction)) = .finite value) :
    Spells depth (.value (.real value)) (sign ++ (whole ++ 46 :: fraction))
  | name (depth : Nat) {name : PdfName} {text : Bytes} (hname : NameText name.bytes text) :
    Spells depth (.value (.name name)) (47 :: text)
  | literal (depth : Nat) {string : PdfString} {text : Bytes}
    (htext : LiteralText (u32Size - 2) string.bytes text) :
    Spells depth (.value (.string string)) (40 :: (text ++ [41]))
  | hex (depth : Nat) {string : PdfString} {text : Bytes} (htext : HexText string.bytes text) :
    Spells depth (.value (.string string)) (60 :: (text ++ [62]))
  | array {depth : Nat} {values : List CosObject} {gap text : Bytes} (hgap : QuietGap gap)
    (hvalues : Spells depth (.items values) text) :
    Spells (depth + 1) (.value (.array values)) (91 :: (gap ++ (text ++ [93])))
  | dictionary {depth : Nat} {entries : List (PdfName × CosObject)} {gap text : Bytes}
    (hgap : QuietGap gap) (hentries : Spells depth (.entries entries) text) :
    Spells (depth + 1) (.value (.dictionary entries)) (60 :: 60 :: (gap ++ (text ++ [62, 62])))
  | noItems (depth : Nat) : Spells depth (.items []) []
  | lastItem {depth : Nat} {value : CosObject} {text gap : Bytes} (hvalue : Spells depth (.value value) text)
    (hgap : QuietGap gap) : Spells depth (.items [value]) (text ++ gap)
  | item {depth : Nat} {value next : CosObject} {values : List CosObject} {text gap more : Bytes}
    (hvalue : Spells depth (.value value) text) (hgap : QuietGap gap) (hne : gap ≠ [])
    (hmore : Spells depth (.items (next :: values)) more) :
    Spells depth (.items (value :: next :: values)) (text ++ (gap ++ more))
  | noEntries (depth : Nat) : Spells depth (.entries []) []
  | lastEntry {depth : Nat} {name : PdfName} {value : CosObject} {key between text gap : Bytes}
    (hname : NameText name.bytes key) (hbetween : QuietGap between) (hneBetween : between ≠ [])
    (hvalue : Spells depth (.value value) text) (hgap : QuietGap gap) :
    Spells depth (.entries [(name, value)]) (47 :: (key ++ (between ++ (text ++ gap))))
  | entry {depth : Nat} {name : PdfName} {value : CosObject} {next : PdfName × CosObject}
    {entries : List (PdfName × CosObject)} {key between text gap more : Bytes}
    (hname : NameText name.bytes key) (hbetween : QuietGap between) (hneBetween : between ≠ [])
    (hvalue : Spells depth (.value value) text) (hgap : QuietGap gap) (hne : gap ≠ [])
    (hmore : Spells depth (.entries (next :: entries)) more) :
    Spells depth (.entries ((name, value) :: next :: entries))
      (47 :: (key ++ (between ++ (text ++ (gap ++ more)))))

theorem isRegularByte_quiet {b : UInt8} (h : isRegularByte b = true) : isQuiet b = true := by
  unfold isRegularByte isDelimiter at h
  unfold isQuiet
  grind

/-- What holds of the 256 bytes holds of every byte. -/
theorem forall_byte {P : UInt8 → Prop} (h : ∀ n < 256, P (UInt8.ofNat n)) : ∀ b, P b := by
  intro b
  have hb := h b.toNat b.toNat_lt
  rwa [UInt8.ofNat_toNat] at hb

theorem isRegularByte_digit : ∀ b : UInt8, isDigit b = true → isRegularByte b = true :=
  forall_byte (by decide +kernel)

theorem isRegularByte_hexDigit : ∀ b : UInt8, (decodeHexDigit b).isSome → isRegularByte b = true :=
  forall_byte (by decide +kernel)

theorem decodeHexPair_regular {high low b : UInt8} (h : decodeHexPair high low = some b) :
    isRegularByte high = true ∧ isRegularByte low = true := by
  unfold decodeHexPair at h
  cases hhigh : decodeHexDigit high with
  | none =>
    rw [hhigh] at h
    cases h
  | some first =>
    rw [hhigh] at h
    cases hlow : decodeHexDigit low with
    | none =>
      rw [hlow] at h
      cases h
    | some second =>
      refine ⟨isRegularByte_hexDigit _ ?_, isRegularByte_hexDigit _ ?_⟩
      · rw [hhigh]
        rfl
      · rw [hlow]
        rfl

theorem NameText.regular {name text : Bytes} (h : NameText name text) :
    ∀ b ∈ text, isRegularByte b = true := by
  induction h with
  | nil => exact fun b hb => absurd hb List.not_mem_nil
  | @plain b name text hregular _ _ ih =>
    intro c hc
    rcases List.mem_cons.mp hc with rfl | hc
    · exact hregular
    · exact ih c hc
  | @escape high low b name text hpair _ ih =>
    obtain ⟨hhigh, hlow⟩ := decodeHexPair_regular hpair
    intro c hc
    rcases List.mem_cons.mp hc with rfl | hc
    · decide
    · rcases List.mem_cons.mp hc with rfl | hc
      · exact hhigh
      · rcases List.mem_cons.mp hc with rfl | hc
        · exact hlow
        · exact ih c hc

theorem IsSign.regular {sign : Bytes} (h : IsSign sign) : ∀ b ∈ sign, isRegularByte b = true := by
  rcases h with rfl | rfl | rfl
  · exact fun b hb => absurd hb List.not_mem_nil
  · decide
  · decide

/-! ## The scanner of composite operands -/

section Composite

variable {bytes rest : Bytes} {limits : ResourceLimits} {pos : Nat} {stack : Bytes}

/-- The scanner moves over a text and comes back to the open delimiters it had. -/
def Skips (bytes : Bytes) (limits : ResourceLimits) (stack : Bytes) (pos : Nat) (text : Bytes) : Prop :=
  ∃ n ≤ text.length,
    Steps (ContentTokenizer.compositeStep bytes limits) n (pos, stack) (pos + text.length, stack)

theorem Skips.nil : Skips bytes limits stack pos [] :=
  ⟨0, Nat.le_refl 0, .refl _⟩

theorem Skips.append {text more : Bytes} (h : Skips bytes limits stack pos text)
    (hmore : Skips bytes limits stack (pos + text.length) more) :
    Skips bytes limits stack pos (text ++ more) := by
  obtain ⟨n, hn, hsteps⟩ := h
  obtain ⟨m, hm, hrest⟩ := hmore
  refine ⟨n + m, by rw [List.length_append]; omega, ?_⟩
  rw [List.length_append, ← Nat.add_assoc]
  exact hsteps.trans hrest

theorem compositeNext_room {next : Nat} (hroom : stack.length ≤ limits.maxObjectDepth) :
    ContentTokenizer.compositeNext limits next stack = .next (next, stack) :=
  if_neg (Nat.not_lt.mpr hroom)

theorem compositeClose_inner {close : UInt8} {message : String} {next : Nat} (hstack : stack ≠ [])
    (hroom : stack.length ≤ limits.maxObjectDepth) :
    ContentTokenizer.compositeClose limits close message next (close :: stack) = .next (next, stack) := by
  have hempty : stack.isEmpty = false := by
    rw [List.isEmpty_eq_false_iff]
    exact hstack
  unfold ContentTokenizer.compositeClose
  rw [List.head?_cons, if_pos rfl, List.tail_cons, hempty, if_neg Bool.false_ne_true,
    compositeNext_room hroom]

/-- One pass over a quiet byte. -/
theorem compositeStep_quiet {b : UInt8} (h : At bytes pos (b :: rest)) (hb : isQuiet b = true)
    (hroom : stack.length ≤ limits.maxObjectDepth) :
    ContentTokenizer.compositeStep bytes limits (pos, stack) = .next (pos + 1, stack) := by
  unfold isQuiet at hb
  simp only [Bool.and_eq_true, decide_eq_true_eq] at hb
  obtain ⟨⟨⟨⟨h40, h60⟩, h62⟩, h91⟩, h93⟩ := hb
  unfold ContentTokenizer.compositeStep
  dsimp only
  rw [h.get, List.head?_cons]
  dsimp only
  rw [if_neg h91, if_neg fun hb => h60 hb.1, if_neg h93, if_neg fun hb => h62 hb.1, if_neg h40, if_neg h60,
    compositeNext_room hroom]

theorem Skips.quiet {text : Bytes} (h : At bytes pos (text ++ rest)) (htext : ∀ b ∈ text, isQuiet b = true)
    (hroom : stack.length ≤ limits.maxObjectDepth) : Skips bytes limits stack pos text := by
  induction text generalizing pos with
  | nil => exact .nil
  | cons b text ih =>
    have hstep := @compositeStep_quiet bytes (text ++ rest) limits pos stack b h
      (htext b List.mem_cons_self) hroom
    have hnext : At bytes (pos + 1) (text ++ rest) := h.next
    have hone : Skips bytes limits stack pos [b] := ⟨1, Nat.le_refl 1, .next hstep (.refl _)⟩
    exact hone.append (ih hnext fun c hc => htext c (List.mem_cons_of_mem _ hc))

theorem Skips.regular {text : Bytes} (h : At bytes pos (text ++ rest))
    (htext : ∀ b ∈ text, isRegularByte b = true) (hroom : stack.length ≤ limits.maxObjectDepth) :
    Skips bytes limits stack pos text :=
  .quiet h (fun b hb => isRegularByte_quiet (htext b hb)) hroom

theorem compositeStep_openArray (h : At bytes pos (91 :: rest))
    (hroom : stack.length + 1 ≤ limits.maxObjectDepth) :
    ContentTokenizer.compositeStep bytes limits (pos, stack) = .next (pos + 1, 93 :: stack) := by
  unfold ContentTokenizer.compositeStep
  dsimp only
  rw [h.get, List.head?_cons]
  dsimp only
  rw [if_pos rfl]
  exact compositeNext_room hroom

theorem compositeStep_openDictionary (h : At bytes pos (60 :: 60 :: rest))
    (hroom : stack.length + 1 ≤ limits.maxObjectDepth) :
    ContentTokenizer.compositeStep bytes limits (pos, stack) = .next (pos + 2, 62 :: stack) := by
  have hnext : bytes[pos + 1]? = some 60 := h.next.get
  unfold ContentTokenizer.compositeStep
  dsimp only
  rw [h.get, List.head?_cons, hnext]
  dsimp only
  rw [if_neg (by decide), if_pos ⟨rfl, rfl⟩]
  exact compositeNext_room hroom

theorem compositeStep_closeArray (h : At bytes pos (93 :: rest)) :
    ContentTokenizer.compositeStep bytes limits (pos, stack)
      = ContentTokenizer.compositeClose limits 93 "mismatched array delimiter" (pos + 1) stack := by
  unfold ContentTokenizer.compositeStep
  dsimp only
  rw [h.get, List.head?_cons]
  dsimp only
  rw [if_neg (by decide), if_neg fun hb => absurd hb.1 (by decide), if_pos rfl]

theorem compositeStep_closeDictionary (h : At bytes pos (62 :: 62 :: rest)) :
    ContentTokenizer.compositeStep bytes limits (pos, stack)
      = ContentTokenizer.compositeClose limits 62 "mismatched dictionary delimiter" (pos + 2) stack := by
  have hnext : bytes[pos + 1]? = some 62 := h.next.get
  unfold ContentTokenizer.compositeStep
  dsimp only
  rw [h.get, List.head?_cons, hnext]
  dsimp only
  rw [if_neg (by decide), if_neg fun hb => absurd hb.1 (by decide), if_neg (by decide), if_pos ⟨rfl, rfl⟩]

theorem Skips.literal {value text : Bytes} (h : At bytes pos ((40 :: (text ++ [41])) ++ rest))
    (htext : LiteralText (u32Size - 2) value text) (hroom : stack.length ≤ limits.maxObjectDepth) :
    Skips bytes limits stack pos (40 :: (text ++ [41])) := by
  have hat : At bytes pos (40 :: (text ++ 41 :: rest)) := by
    simpa using h
  have hstep : ContentTokenizer.compositeStep bytes limits (pos, stack)
      = .next (pos + (40 :: (text ++ [41])).length, stack) := by
    unfold ContentTokenizer.compositeStep
    dsimp only
    rw [hat.get, List.head?_cons]
    dsimp only
    rw [if_neg (by decide), if_neg fun hb => absurd hb.1 (by decide), if_neg (by decide),
      if_neg fun hb => absurd hb.1 (by decide), if_pos rfl, hat.consumeLiteral htext]
    exact compositeNext_room hroom
  exact ⟨1, by rw [List.length_cons]; omega, .next hstep (.refl _)⟩

theorem HexText.next {value text : Bytes} (h : HexText value text) (rest : Bytes) :
    (text ++ 62 :: rest).head? ≠ some 60 := by
  cases text with
  | nil => exact fun hb => absurd (Option.some.inj hb) (by decide)
  | cons b text => exact fun hb => (h.plain b List.mem_cons_self).1 (Option.some.inj hb)

theorem Skips.hex {value text : Bytes} (h : At bytes pos ((60 :: (text ++ [62])) ++ rest))
    (htext : HexText value text) (hroom : stack.length ≤ limits.maxObjectDepth) :
    Skips bytes limits stack pos (60 :: (text ++ [62])) := by
  have hat : At bytes pos (60 :: (text ++ 62 :: rest)) := by
    simpa using h
  have hnext : bytes[pos + 1]? ≠ some 60 := by
    rw [hat.next.get]
    exact htext.next rest
  have hstep : ContentTokenizer.compositeStep bytes limits (pos, stack)
      = .next (pos + (60 :: (text ++ [62])).length, stack) := by
    unfold ContentTokenizer.compositeStep
    dsimp only
    rw [hat.get, List.head?_cons]
    dsimp only
    rw [if_neg (by decide), if_neg fun hb => hnext hb.2, if_neg (by decide),
      if_neg fun hb => absurd hb.1 (by decide), if_neg (by decide), if_pos rfl, hat.consumeHex htext]
    exact compositeNext_room hroom
  exact ⟨1, by rw [List.length_cons]; omega, .next hstep (.refl _)⟩

/-- An array inside another composite: what is between its brackets leaves the open delimiters as they were. -/
theorem Skips.array {text : Bytes} (h : At bytes pos ((91 :: (text ++ [93])) ++ rest)) (hstack : stack ≠ [])
    (hroom : stack.length + 1 ≤ limits.maxObjectDepth)
    (htext : Skips bytes limits (93 :: stack) (pos + 1) text) :
    Skips bytes limits stack pos (91 :: (text ++ [93])) := by
  have hat : At bytes pos (91 :: (text ++ 93 :: rest)) := by
    simpa using h
  have hinner : At bytes (pos + 1) (text ++ 93 :: rest) := hat.next
  obtain ⟨n, hn, hsteps⟩ := htext
  have hclose : ContentTokenizer.compositeStep bytes limits (pos + 1 + text.length, 93 :: stack)
      = .next (pos + 1 + text.length + 1, stack) := by
    rw [compositeStep_closeArray hinner.skip, compositeClose_inner hstack (by omega)]
  have hstop : pos + (91 :: (text ++ [93])).length = pos + 1 + text.length + 1 := by
    rw [List.length_cons, List.length_append, List.length_singleton]
    omega
  refine ⟨n + 1 + 1, ?_, ?_⟩
  · rw [List.length_cons, List.length_append, List.length_singleton]
    omega
  · rw [hstop]
    exact .next (compositeStep_openArray hat hroom) (hsteps.trans (.next hclose (.refl _)))

/-- A dictionary inside another composite. -/
theorem Skips.dictionary {text : Bytes} (h : At bytes pos ((60 :: 60 :: (text ++ [62, 62])) ++ rest))
    (hstack : stack ≠ []) (hroom : stack.length + 1 ≤ limits.maxObjectDepth)
    (htext : Skips bytes limits (62 :: stack) (pos + 2) text) :
    Skips bytes limits stack pos (60 :: 60 :: (text ++ [62, 62])) := by
  have hat : At bytes pos (60 :: 60 :: (text ++ 62 :: 62 :: rest)) := by
    simpa using h
  have hinner : At bytes (pos + 2) (text ++ 62 :: 62 :: rest) := hat.next.next
  obtain ⟨n, hn, hsteps⟩ := htext
  have hclose : ContentTokenizer.compositeStep bytes limits (pos + 2 + text.length, 62 :: stack)
      = .next (pos + 2 + text.length + 2, stack) := by
    rw [compositeStep_closeDictionary hinner.skip, compositeClose_inner hstack (by omega)]
  have hstop : pos + (60 :: 60 :: (text ++ [62, 62])).length = pos + 2 + text.length + 2 := by
    simp only [List.length_cons, List.length_append, List.length_nil]
    omega
  refine ⟨n + 1 + 1, ?_, ?_⟩
  · simp only [List.length_cons, List.length_append, List.length_nil]
    omega
  · rw [hstop]
    exact .next (compositeStep_openDictionary hat hroom) (hsteps.trans (.next hclose (.refl _)))

/-- The words that spell null and the booleans. -/
theorem keyword_text : ∀ word ∈ [utf8 "null", utf8 "true", utf8 "false"],
    word ≠ [] ∧ (∀ b ∈ word, isRegularByte b = true) ∧ isKeywordOperand word = true := by
  decide

/-- Whatever a value, the elements of an array or the entries of a dictionary spell, the scanner moves
over it. -/
theorem Spells.skips {depth : Nat} {what : Spelled} {text : Bytes} (h : Spells depth what text)
    (hat : At bytes pos (text ++ rest)) (hstack : stack ≠ [])
    (hroom : stack.length + depth ≤ limits.maxObjectDepth) : Skips bytes limits stack pos text := by
  have hkeyword := fun word hword => (keyword_text word hword).2.1
  induction h generalizing pos rest stack with
  | null depth => exact .regular hat (hkeyword _ (.head _)) (by omega)
  | yes depth => exact .regular hat (hkeyword _ (.tail _ (.head _))) (by omega)
  | no depth => exact .regular hat (hkeyword _ (.tail _ (.tail _ (.head _)))) (by omega)
  | @integer depth value sign digits hsign hdigits hvalue =>
    refine .regular hat (fun b hb => ?_) (by omega)
    rcases List.mem_append.mp hb with hb | hb
    · exact hsign.regular b hb
    · exact isRegularByte_digit b (hdigits b hb)
  | @real depth value sign whole fraction hsign hwhole hfraction hvalue =>
    refine .regular hat (fun b hb => ?_) (by omega)
    rcases List.mem_append.mp hb with hb | hb
    · exact hsign.regular b hb
    · rcases List.mem_append.mp hb with hb | hb
      · exact isRegularByte_digit b (hwhole b hb)
      · rcases List.mem_cons.mp hb with rfl | hb
        · decide
        · exact isRegularByte_digit b (hfraction b hb)
  | @name depth name text hname =>
    refine .quiet hat (fun b hb => ?_) (by omega)
    rcases List.mem_cons.mp hb with rfl | hb
    · decide
    · exact isRegularByte_quiet (hname.regular b hb)
  | literal depth htext => exact .literal hat htext (by omega)
  | hex depth htext => exact .hex hat htext (by omega)
  | @array depth values gap text hgap _ ih =>
    have hin : At bytes (pos + 1) (gap ++ (text ++ ([93] ++ rest))) := by
      simpa using hat.next
    have hskip : Skips bytes limits (93 :: stack) (pos + 1) (gap ++ text) :=
      (Skips.quiet hin hgap.2 (by rw [List.length_cons]; omega)).append
        (ih hin.skip (List.cons_ne_nil _ _) (by rw [List.length_cons]; omega))
    have hall : At bytes pos ((91 :: ((gap ++ text) ++ [93])) ++ rest) := by
      simpa using hat
    have harray := Skips.array hall hstack (by omega) hskip
    rwa [List.append_assoc] at harray
  | @dictionary depth entries gap text hgap _ ih =>
    have hin : At bytes (pos + 2) (gap ++ (text ++ ([62, 62] ++ rest))) := by
      simpa using hat.next.next
    have hskip : Skips bytes limits (62 :: stack) (pos + 2) (gap ++ text) :=
      (Skips.quiet hin hgap.2 (by rw [List.length_cons]; omega)).append
        (ih hin.skip (List.cons_ne_nil _ _) (by rw [List.length_cons]; omega))
    have hall : At bytes pos ((60 :: 60 :: ((gap ++ text) ++ [62, 62])) ++ rest) := by
      simpa using hat
    have hdictionary := Skips.dictionary hall hstack (by omega) hskip
    rwa [List.append_assoc] at hdictionary
  | noItems depth => exact .nil
  | @lastItem depth value text gap _ hgap ih =>
    rw [List.append_assoc] at hat
    exact (ih hat hstack hroom).append (.quiet hat.skip hgap.2 (by omega))
  | @item depth value next values text gap more _ hgap _ _ ih ihMore =>
    rw [List.append_assoc, List.append_assoc] at hat
    exact (ih hat hstack hroom).append
      ((Skips.quiet hat.skip hgap.2 (by omega)).append (ihMore hat.skip.skip hstack hroom))
  | noEntries depth => exact .nil
  | @lastEntry depth name value key between text gap hname hbetween _ _ hgap ih =>
    have hin : At bytes pos ((47 :: key) ++ (between ++ (text ++ (gap ++ rest)))) := by
      simpa using hat
    have hkey : Skips bytes limits stack pos (47 :: key) := by
      refine .quiet hin (fun b hb => ?_) (by omega)
      rcases List.mem_cons.mp hb with rfl | hb
      · decide
      · exact isRegularByte_quiet (hname.regular b hb)
    exact hkey.append ((Skips.quiet hin.skip hbetween.2 (by omega)).append
      ((ih hin.skip.skip hstack hroom).append (.quiet hin.skip.skip.skip hgap.2 (by omega))))
  | @entry depth name value next entries key between text gap more hname hbetween _ _ hgap _ _ ih ihMore =>
    have hin : At bytes pos ((47 :: key) ++ (between ++ (text ++ (gap ++ (more ++ rest))))) := by
      simpa using hat
    have hkey : Skips bytes limits stack pos (47 :: key) := by
      refine .quiet hin (fun b hb => ?_) (by omega)
      rcases List.mem_cons.mp hb with rfl | hb
      · decide
      · exact isRegularByte_quiet (hname.regular b hb)
    exact hkey.append ((Skips.quiet hin.skip hbetween.2 (by omega)).append
      ((ih hin.skip.skip hstack hroom).append ((Skips.quiet hin.skip.skip.skip hgap.2 (by omega)).append
        (ihMore hin.skip.skip.skip.skip hstack hroom))))

/-- An array as an operand. -/
theorem At.consumeArray {depth : Nat} {values : List CosObject} {gap text : Bytes}
    (h : At bytes pos ((91 :: (gap ++ (text ++ [93]))) ++ rest)) (hgap : QuietGap gap)
    (hvalues : Spells depth (.items values) text) (hroom : depth + 1 ≤ limits.maxObjectDepth) :
    ContentTokenizer.consumeCompositeRange bytes limits pos
      = .ok (pos + (91 :: (gap ++ (text ++ [93]))).length) := by
  have hat : At bytes pos (91 :: (gap ++ (text ++ 93 :: rest))) := by
    simpa using h
  have hin : At bytes (pos + 1) (gap ++ (text ++ 93 :: rest)) := hat.next
  have hlen := hin.length
  simp only [List.length_append, List.length_cons] at hlen
  obtain ⟨n, hn, hsteps⟩ : Skips bytes limits [93] (pos + 1) (gap ++ text) :=
    (Skips.quiet hin hgap.2 (by rw [List.length_singleton]; omega)).append
      (hvalues.skips hin.skip (List.cons_ne_nil _ _) (by rw [List.length_singleton]; omega))
  rw [List.length_append, ← Nat.add_assoc] at hsteps
  rw [List.length_append] at hn
  have hclose : ContentTokenizer.compositeStep bytes limits (pos + 1 + gap.length + text.length, [93])
      = .done (.ok (pos + 1 + gap.length + text.length + 1)) := by
    rw [compositeStep_closeArray hin.skip.skip]
    rfl
  have hopen : ContentTokenizer.compositeStep bytes limits (pos, []) = .next (pos + 1, [93]) :=
    compositeStep_openArray hat (by rw [List.length_nil]; omega)
  have hends := EndsIn.next hopen (hsteps.endsIn (.done hclose))
  have hstop : pos + (91 :: (gap ++ (text ++ [93]))).length = pos + 1 + gap.length + text.length + 1 := by
    simp only [List.length_cons, List.length_append, List.length_nil]
    omega
  rw [hstop]
  exact hends.runLoop (by omega) _

/-- A dictionary as an operand. -/
theorem At.consumeDictionary {depth : Nat} {entries : List (PdfName × CosObject)} {gap text : Bytes}
    (h : At bytes pos ((60 :: 60 :: (gap ++ (text ++ [62, 62]))) ++ rest)) (hgap : QuietGap gap)
    (hentries : Spells depth (.entries entries) text) (hroom : depth + 1 ≤ limits.maxObjectDepth) :
    ContentTokenizer.consumeCompositeRange bytes limits pos
      = .ok (pos + (60 :: 60 :: (gap ++ (text ++ [62, 62]))).length) := by
  have hat : At bytes pos (60 :: 60 :: (gap ++ (text ++ 62 :: 62 :: rest))) := by
    simpa using h
  have hin : At bytes (pos + 2) (gap ++ (text ++ 62 :: 62 :: rest)) := hat.next.next
  have hlen := hin.length
  simp only [List.length_append, List.length_cons] at hlen
  obtain ⟨n, hn, hsteps⟩ : Skips bytes limits [62] (pos + 2) (gap ++ text) :=
    (Skips.quiet hin hgap.2 (by rw [List.length_singleton]; omega)).append
      (hentries.skips hin.skip (List.cons_ne_nil _ _) (by rw [List.length_singleton]; omega))
  rw [List.length_append, ← Nat.add_assoc] at hsteps
  rw [List.length_append] at hn
  have hclose : ContentTokenizer.compositeStep bytes limits (pos + 2 + gap.length + text.length, [62])
      = .done (.ok (pos + 2 + gap.length + text.length + 2)) := by
    rw [compositeStep_closeDictionary hin.skip.skip]
    rfl
  have hopen : ContentTokenizer.compositeStep bytes limits (pos, []) = .next (pos + 2, [62]) :=
    compositeStep_openDictionary hat (by rw [List.length_nil]; omega)
  have hends := EndsIn.next hopen (hsteps.endsIn (.done hclose))
  have hstop : pos + (60 :: 60 :: (gap ++ (text ++ [62, 62]))).length
      = pos + 2 + gap.length + text.length + 2 := by
    simp only [List.length_cons, List.length_append, List.length_nil]
    omega
  rw [hstop]
  exact hends.runLoop (by omega) _

end Composite

end Pdfv
