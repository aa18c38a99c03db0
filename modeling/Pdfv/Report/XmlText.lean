import Pdfv.Core.Errors
import Pdfv.Xml.Reader
/-!
# Written XML

The lines that the XML writers write, with the strings they escape, and what an XML parser reads of
them. `readXml_document` says what is read, `readLine_eq_iff` when that is what was written.
-/

namespace Pdfv

open Fallible

/-! ## Escaping -/

/-- `ensure_xml_text`. -/
def ensureXmlText (value : String) : Except PdfvError Unit :=
  if value.toList.all isXmlChar then .ok ()
  else .error (.report (.xml ⟨"text contains characters forbidden by XML 1.0"⟩))

/-- The entities that `XmlEscapedText` writes. -/
def entityName (c : Char) : Option String :=
  if c = '&' then some "amp"
  else if c = '<' then some "lt"
  else if c = '>' then some "gt"
  else if c.toNat = 34 then some "quot"
  else if c.toNat = 39 then some "apos"
  else none

/-- A character as `XmlEscapedText` displays it. -/
def escapeChar (c : Char) : List Char :=
  match entityName c with
  | some name => '&' :: (name.toList ++ [';'])
  | none => [c]

/-- A text as it is displayed. -/
def escape (text : List Char) : List Char :=
  text.flatMap escapeChar

/-- `XmlEscapedText::new`, `XmlEscapedAttr::new` and `HtmlEscapedText::new` with the display. -/
def escapedText (value : String) : Except PdfvError (List Char) := do
  ensureXmlText value
  return escape value.toList

/-! ## Lines -/

/-- A value in a line: a string that is checked and escaped, or the text of a number or a constant,
which is written as it is. -/
inductive WrittenValue where
  | escaped (text : String)
  | plain (text : String)
deriving DecidableEq, Repr

/-- An attribute. -/
structure WrittenAttribute where
  name : String
  value : WrittenValue
deriving DecidableEq, Repr

/-- What stands in a line after its indentation. -/
inductive WrittenMarkup where
  | start (name : String) (attributes : List WrittenAttribute)
  | finish (name : String)
  | element (name : String) (attributes : List WrittenAttribute) (content : WrittenValue)
deriving DecidableEq, Repr

/-- A line. -/
structure WrittenLine where
  indent : Nat
  markup : WrittenMarkup
deriving DecidableEq, Repr

/-- A document: the attributes of the root element and the lines in it. -/
structure WrittenDocument where
  root : String
  attributes : List WrittenAttribute
  body : List WrittenLine
deriving DecidableEq, Repr

namespace WrittenValue

/-- The string. -/
def text : WrittenValue → String
  | escaped value => value
  | plain value => value

/-- The value as it is written. -/
def written : WrittenValue → Except PdfvError (List Char)
  | escaped value => escapedText value
  | plain value => .ok value.toList

end WrittenValue

/-- The attribute as it is written. -/
def WrittenAttribute.written (attr : WrittenAttribute) : Except PdfvError (List Char) := do
  let value ← attr.value.written
  return attributeOpening attr.name ++ (value ++ [quotationMark])

/-- The start tag of an element. -/
def writeStart (name : String) (attributes : List WrittenAttribute) :
    Except PdfvError (List Char) := do
  let attributes ← attributes.mapM WrittenAttribute.written
  return '<' :: (name.toList ++ (attributes.flatten ++ ['>']))

/-- The end tag of an element. -/
def writeFinish (name : String) : List Char :=
  '<' :: '/' :: (name.toList ++ ['>'])

/-- The markup as it is written. -/
def WrittenMarkup.written : WrittenMarkup → Except PdfvError (List Char)
  | start name attributes => writeStart name attributes
  | finish name => .ok (writeFinish name)
  | element name attributes content => do
    let opening ← writeStart name attributes
    let content ← content.written
    return opening ++ (content ++ writeFinish name)

/-- The line as it is written (`writeln!`). -/
def WrittenLine.written (line : WrittenLine) : Except PdfvError (List Char) := do
  let markup ← line.markup.written
  return List.replicate line.indent ' ' ++ (markup ++ [lineFeed])

/-- The lines of the document after the XML declaration. -/
def WrittenDocument.lines (document : WrittenDocument) : List WrittenLine :=
  ⟨0, .start document.root document.attributes⟩ :: (document.body ++ [⟨0, .finish document.root⟩])

/-- The XML declaration. -/
def xmlDeclaration : String :=
  "<?xml version=\"1.0\" encoding=\"utf-8\"?>"

/-- The document as it is written. -/
def WrittenDocument.written (document : WrittenDocument) : Except PdfvError String := do
  let lines ← document.lines.mapM WrittenLine.written
  return String.ofList (xmlDeclaration.toList ++ lineFeed :: lines.flatten)

/-! ## What a parser should read -/

/-- The attribute. -/
def WrittenAttribute.info (attr : WrittenAttribute) : XmlAttribute :=
  ⟨attr.name, attr.value.text⟩

/-- The tags, and the characters of the content. -/
def WrittenMarkup.infos : WrittenMarkup → List XmlInfo
  | start name attributes => [.start name (attributes.map WrittenAttribute.info)]
  | finish name => [.finish name]
  | element name attributes content =>
    .start name (attributes.map WrittenAttribute.info)
      :: (content.text.toList.map XmlInfo.char ++ [.finish name])

/-- The characters around the markup are white space. -/
def WrittenLine.infos (line : WrittenLine) : List XmlInfo :=
  List.replicate line.indent (.char ' ') ++ (line.markup.infos ++ [.char lineFeed])

/-- The root element with what it contains. -/
def WrittenDocument.infos (document : WrittenDocument) : List XmlInfo :=
  .start document.root (document.attributes.map WrittenAttribute.info)
    :: (.char lineFeed :: document.body.flatMap WrittenLine.infos ++ [.finish document.root])

/-! ## Strings that can be read back -/

/-- TAB, LF and CR are read as a space in an attribute value. -/
def isLineControl (c : Char) : Bool :=
  c.toNat = 9 || c.toNat = 10 || c.toNat = 13

/-- The string is read back from an attribute value. -/
def AttributeSafe (text : String) : Prop :=
  ∀ c ∈ text.toList, isXmlChar c = true ∧ isLineControl c = false

/-- The string is read back from the content of an element. -/
def TextSafe (text : String) : Prop :=
  ∀ c ∈ text.toList, isXmlChar c = true ∧ c.toNat ≠ 13

/-- The strings of the attributes are read back. -/
def AttributesSafe (attributes : List WrittenAttribute) : Prop :=
  ∀ attr ∈ attributes, AttributeSafe attr.value.text

/-- The strings of the line are read back. -/
def WrittenLine.Safe (line : WrittenLine) : Prop :=
  match line.markup with
  | .start _ attributes => AttributesSafe attributes
  | .finish _ => True
  | .element _ attributes content => AttributesSafe attributes ∧ TextSafe content.text

/-! ## When lines are written -/

namespace WrittenValue

/-- A plain value needs no escaping and is read back anywhere. -/
def Harmless : WrittenValue → Prop
  | escaped _ => True
  | plain value => AttributeSafe value ∧ ∀ c ∈ value.toList, entityName c = none

/-- Every character is one of XML. -/
def Legal (value : WrittenValue) : Prop :=
  ∀ c ∈ value.text.toList, isXmlChar c = true

end WrittenValue

theorem escape_of_entityName {text : List Char} (h : ∀ c ∈ text, entityName c = none) :
    escape text = text := by
  unfold escape
  induction text with
  | nil => rfl
  | cons c rest ih =>
    rw [List.flatMap_cons, ih fun d hd => h d (List.mem_cons_of_mem c hd)]
    unfold escapeChar
    rw [h c List.mem_cons_self]
    rfl

theorem escapedText_iff {value : String} {out : List Char} : escapedText value = .ok out
    ↔ (∀ c ∈ value.toList, isXmlChar c = true) ∧ out = escape value.toList := by
  unfold escapedText ensureXmlText
  by_cases hall : value.toList.all isXmlChar = true
  · rw [if_pos hall]
    constructor
    · intro hout
      cases hout
      exact ⟨List.all_eq_true.mp hall, rfl⟩
    · rintro ⟨-, rfl⟩
      rfl
  · rw [if_neg hall]
    constructor
    · intro hout
      cases hout
    · rintro ⟨hlegal, -⟩
      exact absurd (List.all_eq_true.mpr hlegal) hall

/-- A value is written, escaped, exactly when its characters are legal. -/
theorem WrittenValue.written_iff {value : WrittenValue} (h : value.Harmless) {out : List Char} :
    value.written = .ok out ↔ value.Legal ∧ out = escape value.text.toList := by
  cases value with
  | escaped text => exact escapedText_iff
  | plain text =>
    obtain ⟨hsafe, hplain⟩ := h
    unfold written Legal
    rw [show (WrittenValue.plain text).text = text from rfl, escape_of_entityName hplain]
    constructor
    · intro hout
      cases hout
      exact ⟨fun c hc => (hsafe c hc).1, rfl⟩
    · rintro ⟨-, rfl⟩
      rfl

/-- A traversal succeeds when every step does, with the results in order. -/
theorem mapM_written_iff {α : Type} {f : α → Except PdfvError (List Char)} {p : α → Prop}
    {g : α → List Char} {l : List α} (h : ∀ a ∈ l, ∀ out, f a = .ok out ↔ p a ∧ out = g a)
    {out : List (List Char)} : l.mapM f = .ok out ↔ (∀ a ∈ l, p a) ∧ out = l.map g := by
  induction l generalizing out with
  | nil =>
    constructor
    · intro hout
      cases hout
      exact ⟨fun a ha => absurd ha List.not_mem_nil, rfl⟩
    · rintro ⟨-, rfl⟩
      rfl
  | cons a rest ih =>
    have ih : ∀ out, rest.mapM f = .ok out ↔ (∀ b ∈ rest, p b) ∧ out = rest.map g := fun _ =>
      ih fun b hb => h b (List.mem_cons_of_mem a hb)
    rw [List.mapM_cons, bind_eq_ok, List.forall_mem_cons, List.map_cons]
    constructor
    · rintro ⟨first, hfirst, hrest⟩
      obtain ⟨others, hothers, heq⟩ := bind_eq_ok.mp hrest
      cases heq
      obtain ⟨hp, rfl⟩ := (h a List.mem_cons_self first).mp hfirst
      obtain ⟨hall, rfl⟩ := (ih others).mp hothers
      exact ⟨⟨hp, hall⟩, rfl⟩
    · rintro ⟨⟨hp, hall⟩, rfl⟩
      refine ⟨g a, (h a List.mem_cons_self _).mpr ⟨hp, rfl⟩, ?_⟩
      rw [(ih _).mpr ⟨hall, rfl⟩]
      rfl

/-- The attribute, escaped. -/
def WrittenAttribute.chars (attr : WrittenAttribute) : List Char :=
  attributeOpening attr.name ++ (escape attr.value.text.toList ++ [quotationMark])

/-- The start tag, escaped. -/
def startChars (name : String) (attributes : List WrittenAttribute) : List Char :=
  '<' :: (name.toList ++ (attributes.flatMap WrittenAttribute.chars ++ ['>']))

/-- The markup, escaped. -/
def WrittenMarkup.chars : WrittenMarkup → List Char
  | start name attributes => startChars name attributes
  | finish name => writeFinish name
  | element name attributes content =>
    startChars name attributes ++ (escape content.text.toList ++ writeFinish name)

/-- The line, escaped. -/
def WrittenLine.chars (line : WrittenLine) : List Char :=
  List.replicate line.indent ' ' ++ (line.markup.chars ++ [lineFeed])

/-- The names of the attributes are names, each occurs once, and plain values are harmless. -/
structure AttributesValid (attributes : List WrittenAttribute) : Prop where
  names : ∀ attr ∈ attributes, isXmlName attr.name = true
  values : ∀ attr ∈ attributes, attr.value.Harmless
  unique : (attributes.map WrittenAttribute.name).Nodup

/-- The names of the markup are names, and plain values are harmless. -/
def WrittenMarkup.Valid : WrittenMarkup → Prop
  | start name attributes => isXmlName name = true ∧ AttributesValid attributes
  | finish name => isXmlName name = true
  | element name attributes content =>
    isXmlName name = true ∧ AttributesValid attributes ∧ content.Harmless

/-- The values of the markup are legal. -/
def WrittenMarkup.Legal : WrittenMarkup → Prop
  | start _ attributes => ∀ attr ∈ attributes, attr.value.Legal
  | finish _ => True
  | element _ attributes content =>
    (∀ attr ∈ attributes, attr.value.Legal) ∧ content.Legal

theorem WrittenAttribute.written_iff {attr : WrittenAttribute} (h : attr.value.Harmless)
    {out : List Char} : attr.written = .ok out ↔ attr.value.Legal ∧ out = attr.chars := by
  unfold written
  rw [bind_eq_ok]
  constructor
  · rintro ⟨value, hvalue, heq⟩
    cases heq
    obtain ⟨hlegal, rfl⟩ := (WrittenValue.written_iff h).mp hvalue
    exact ⟨hlegal, rfl⟩
  · rintro ⟨hlegal, rfl⟩
    exact ⟨_, (WrittenValue.written_iff h).mpr ⟨hlegal, rfl⟩, rfl⟩

theorem writeStart_iff {name : String} {attributes : List WrittenAttribute}
    (h : AttributesValid attributes) {out : List Char} : writeStart name attributes = .ok out
      ↔ (∀ attr ∈ attributes, attr.value.Legal) ∧ out = startChars name attributes := by
  have hall {parts : List (List Char)} : attributes.mapM WrittenAttribute.written = .ok parts
      ↔ (∀ attr ∈ attributes, attr.value.Legal) ∧ parts = attributes.map WrittenAttribute.chars :=
    mapM_written_iff fun attr hattr _ => WrittenAttribute.written_iff (h.values attr hattr)
  unfold writeStart startChars
  rw [bind_eq_ok]
  constructor
  · rintro ⟨parts, hparts, heq⟩
    cases heq
    obtain ⟨hlegal, rfl⟩ := hall.mp hparts
    rw [← List.flatMap_def]
    exact ⟨hlegal, rfl⟩
  · rintro ⟨hlegal, rfl⟩
    refine ⟨_, hall.mpr ⟨hlegal, rfl⟩, ?_⟩
    rw [← List.flatMap_def]
    rfl

theorem WrittenMarkup.written_iff {markup : WrittenMarkup} (h : markup.Valid) {out : List Char} :
    markup.written = .ok out ↔ markup.Legal ∧ out = markup.chars := by
  cases markup with
  | start name attributes => exact writeStart_iff h.2
  | finish name =>
    constructor
    · intro hout
      cases hout
      exact ⟨trivial, rfl⟩
    · rintro ⟨-, rfl⟩
      rfl
  | element name attributes content =>
    obtain ⟨-, hattributes, hcontent⟩ := h
    unfold written
    rw [bind_eq_ok]
    constructor
    · rintro ⟨opening, hopening, hrest⟩
      obtain ⟨text, htext, heq⟩ := bind_eq_ok.mp hrest
      cases heq
      obtain ⟨hlegal, rfl⟩ := (writeStart_iff hattributes).mp hopening
      obtain ⟨hlegal', rfl⟩ := (WrittenValue.written_iff hcontent).mp htext
      exact ⟨⟨hlegal, hlegal'⟩, rfl⟩
    · rintro ⟨⟨hlegal, hlegal'⟩, rfl⟩
      refine ⟨_, (writeStart_iff hattributes).mpr ⟨hlegal, rfl⟩, ?_⟩
      rw [(WrittenValue.written_iff hcontent).mpr ⟨hlegal', rfl⟩]
      rfl

theorem WrittenLine.written_iff {line : WrittenLine} (h : line.markup.Valid) {out : List Char} :
    line.written = .ok out ↔ line.markup.Legal ∧ out = line.chars := by
  unfold written
  rw [bind_eq_ok]
  constructor
  · rintro ⟨markup, hmarkup, heq⟩
    cases heq
    obtain ⟨hlegal, rfl⟩ := (WrittenMarkup.written_iff h).mp hmarkup
    exact ⟨hlegal, rfl⟩
  · rintro ⟨hlegal, rfl⟩
    exact ⟨_, (WrittenMarkup.written_iff h).mpr ⟨hlegal, rfl⟩, rfl⟩

/-! ## Line ends -/

/-- The string with its line ends normalised. -/
def eolText (text : String) : String :=
  String.ofList (normalizeEol text.toList)

/-- The line with the line ends of its strings normalised. -/
def WrittenAttribute.eol (attr : WrittenAttribute) : WrittenAttribute :=
  ⟨attr.name, .escaped (eolText attr.value.text)⟩

/-- The markup with the line ends of its strings normalised. -/
def WrittenMarkup.eol : WrittenMarkup → WrittenMarkup
  | start name attributes => .start name (attributes.map WrittenAttribute.eol)
  | finish name => .finish name
  | element name attributes content =>
    .element name (attributes.map WrittenAttribute.eol) (.escaped (eolText content.text))

/-- The line with the line ends of its strings normalised. -/
def WrittenLine.eol (line : WrittenLine) : WrittenLine :=
  ⟨line.indent, line.markup.eol⟩

theorem normalizeEolFrom_false_cons {c : Char} (h : c.toNat ≠ 13) (rest : List Char) :
    normalizeEolFrom false (c :: rest) = c :: normalizeEolFrom false rest := by
  show (if c.toNat = 13 then _ else if false = true ∧ c.toNat = 10 then _ else _) = _
  rw [if_neg h, if_neg (by rintro ⟨hfalse, -⟩; cases hfalse)]

/-- After a return only a line feed is read otherwise. -/
theorem normalizeEolFrom_cons {c : Char} (h : c.toNat ≠ 10) (after : Bool) (rest : List Char) :
    normalizeEolFrom after (c :: rest) = normalizeEolFrom false (c :: rest) := by
  show (if c.toNat = 13 then _ else if after = true ∧ c.toNat = 10 then _ else _)
    = if c.toNat = 13 then _ else if false = true ∧ c.toNat = 10 then _ else _
  rw [if_neg (c := after = true ∧ c.toNat = 10) (by rintro ⟨-, hfeed⟩; exact h hfeed),
    if_neg (c := false = true ∧ c.toNat = 10) (by rintro ⟨hfalse, -⟩; cases hfalse)]

/-- Text without a return is not changed. -/
theorem normalizeEolFrom_append {before : List Char} (h : ∀ c ∈ before, c.toNat ≠ 13)
    (rest : List Char) :
    normalizeEolFrom false (before ++ rest) = before ++ normalizeEolFrom false rest := by
  induction before with
  | nil => rfl
  | cons c before ih =>
    rw [List.cons_append, normalizeEolFrom_false_cons (h c List.mem_cons_self),
      ih fun d hd => h d (List.mem_cons_of_mem c hd)]
    rfl

/-- What is written for an escaped character, and that it stands for it. -/
theorem entityName_spec {c : Char} {name : String} (h : entityName c = some name) :
    predefinedEntity name = some c ∧ 33 ≤ c.toNat
      ∧ ∀ d ∈ name.toList, d ≠ ';' ∧ d ≠ '>' ∧ 33 ≤ d.toNat := by
  have hc : Char.ofNat c.toNat = c := Char.ofNat_toNat c
  unfold entityName at h
  split_ifs at h with hamp hlt hgt hquot hapos
  · cases h
    rw [hamp]
    decide
  · cases h
    rw [hlt]
    decide
  · cases h
    rw [hgt]
    decide
  · cases h
    rw [← hc, hquot]
    decide
  · cases h
    rw [← hc, hapos]
    decide

/-- A reference to an entity is read as the character. -/
theorem readReference_entity {c : Char} {name : String} (h : entityName c = some name)
    (rest : List Char) : readReference (name.toList ++ ';' :: rest) = some (c, rest) := by
  obtain ⟨hvalue, -, hname⟩ := entityName_spec h
  have hall : ∀ d ∈ name.toList, decide (d ≠ ';') = true := fun d hd =>
    decide_eq_true (hname d hd).1
  unfold readReference referenceValue
  rw [List.dropWhile_append_of_pos hall, List.takeWhile_append_of_pos hall,
    List.dropWhile_cons_of_neg (by decide), List.takeWhile_cons_of_neg (by decide),
    List.append_nil, String.ofList_toList, hvalue]
  rfl

/-- The line ends of an escaped text are those of the text, in front of what is no line feed. -/
theorem normalizeEolFrom_escape {c : Char} (hc : c.toNat ≠ 10) (text rest : List Char)
    (after : Bool) : normalizeEolFrom after (escape text ++ c :: rest)
      = escape (normalizeEolFrom after text) ++ normalizeEolFrom false (c :: rest) := by
  induction text generalizing after with
  | nil =>
    show normalizeEolFrom after (c :: rest) = escape [] ++ _
    exact normalizeEolFrom_cons hc after rest
  | cons d text ih =>
    show normalizeEolFrom after ((escapeChar d ++ escape text) ++ c :: rest) = _
    rw [List.append_assoc]
    cases hname : entityName d with
    | some name =>
      obtain ⟨-, hlow, hchars⟩ := entityName_spec hname
      have hescape : escapeChar d = '&' :: (name.toList ++ [';']) := by
        unfold escapeChar
        rw [hname]
      have hreturns : ∀ e ∈ '&' :: (name.toList ++ [';']), e.toNat ≠ 13 := by
        intro e he
        rcases List.mem_cons.mp he with rfl | he
        · decide
        · rcases List.mem_append.mp he with he | he
          · have := (hchars e he).2.2
            omega
          · rw [List.mem_singleton.mp he]
            decide
      have hd : normalizeEolFrom after (d :: text) = d :: normalizeEolFrom false text := by
        rw [normalizeEolFrom_cons (by omega), normalizeEolFrom_false_cons (by omega)]
      rw [hescape, List.cons_append, normalizeEolFrom_cons (by decide), ← List.cons_append,
        normalizeEolFrom_append hreturns, ih, hd]
      show _ = (escapeChar d ++ escape _) ++ _
      rw [hescape, List.append_assoc]
    | none =>
      have hescape : escapeChar d = [d] := by
        unfold escapeChar
        rw [hname]
      rw [hescape, List.singleton_append]
      show (if d.toNat = 13 then _ else if after = true ∧ d.toNat = 10 then _ else _)
        = escape (if d.toNat = 13 then _ else if after = true ∧ d.toNat = 10 then _ else _) ++ _
      have hone : ∀ (e : Char) (others : List Char), entityName e = none →
          escape (e :: others) = e :: escape others := by
        intro e others he
        show escapeChar e ++ _ = _
        unfold escapeChar
        rw [he]
        rfl
      split_ifs with hreturn hfeed
      · rw [ih, hone lineFeed _ (by decide)]
        rfl
      · exact ih false
      · rw [ih, hone d _ hname]
        rfl

theorem isXmlNameChar_return {c : Char} (h : isXmlNameChar c = true) : c.toNat ≠ 13 := by
  intro heq
  have hc : Char.ofNat c.toNat = c := Char.ofNat_toNat c
  rw [← hc, heq] at h
  exact absurd h (by decide)

theorem isXmlName_return {name : String} (h : isXmlName name = true) :
    ∀ c ∈ name.toList, c.toNat ≠ 13 := by
  intro c hc
  unfold isXmlName at h
  split at h
  · rename_i first others hlist
    obtain ⟨hfirst, hothers⟩ := Bool.and_eq_true_iff.mp h
    rw [hlist] at hc
    apply isXmlNameChar_return
    rcases List.mem_cons.mp hc with rfl | hc
    · unfold isXmlNameChar
      rw [hfirst]
      rfl
    · exact List.all_eq_true.mp hothers c hc
  · cases h

/-- Text between values has no return in it. -/
theorem normalizeEolFrom_attribute {attr : WrittenAttribute} (h : isXmlName attr.name = true)
    (rest : List Char) : normalizeEolFrom false (attr.chars ++ rest)
      = attr.eol.chars ++ normalizeEolFrom false rest := by
  have hopening : ∀ c ∈ attributeOpening attr.name, c.toNat ≠ 13 := by
    intro c hc
    unfold attributeOpening at hc
    rcases List.mem_cons.mp hc with rfl | hc
    · decide
    · rcases List.mem_append.mp hc with hc | hc
      · exact isXmlName_return h c hc
      · rcases List.mem_cons.mp hc with rfl | hc
        · decide
        · rw [List.mem_singleton.mp hc]
          decide
  unfold WrittenAttribute.chars
  rw [List.append_assoc, List.append_assoc, normalizeEolFrom_append hopening, List.singleton_append,
    normalizeEolFrom_escape (by decide), normalizeEolFrom_false_cons (by decide)]
  show _ = (attributeOpening attr.name ++ (escape (eolText attr.value.text).toList
    ++ [quotationMark])) ++ _
  unfold eolText normalizeEol
  rw [String.toList_ofList, List.append_assoc, List.append_assoc, List.singleton_append]

theorem normalizeEolFrom_attributes {attributes : List WrittenAttribute}
    (h : ∀ attr ∈ attributes, isXmlName attr.name = true) (rest : List Char) :
    normalizeEolFrom false (attributes.flatMap WrittenAttribute.chars ++ rest)
      = (attributes.map WrittenAttribute.eol).flatMap WrittenAttribute.chars
        ++ normalizeEolFrom false rest := by
  induction attributes with
  | nil => rfl
  | cons attr attributes ih =>
    rw [List.flatMap_cons, List.append_assoc, normalizeEolFrom_attribute (h attr List.mem_cons_self),
      ih fun other hother => h other (List.mem_cons_of_mem attr hother), List.map_cons,
      List.flatMap_cons, List.append_assoc]

theorem normalizeEolFrom_start {name : String} (hname : isXmlName name = true)
    {attributes : List WrittenAttribute} (h : AttributesValid attributes) (rest : List Char) :
    normalizeEolFrom false (startChars name attributes ++ rest)
      = startChars name (attributes.map WrittenAttribute.eol) ++ normalizeEolFrom false rest := by
  unfold startChars
  rw [List.cons_append, normalizeEolFrom_false_cons (by decide), List.append_assoc,
    List.append_assoc, normalizeEolFrom_append (isXmlName_return hname),
    normalizeEolFrom_attributes h.names, List.singleton_append,
    normalizeEolFrom_false_cons (by decide), List.cons_append, List.append_assoc,
    List.append_assoc, List.singleton_append]

theorem normalizeEolFrom_finish {name : String} (hname : isXmlName name = true)
    (rest : List Char) : normalizeEolFrom false (writeFinish name ++ rest)
      = writeFinish name ++ normalizeEolFrom false rest := by
  apply normalizeEolFrom_append
  intro c hc
  unfold writeFinish at hc
  rcases List.mem_cons.mp hc with rfl | hc
  · decide
  · rcases List.mem_cons.mp hc with rfl | hc
    · decide
    · rcases List.mem_append.mp hc with hc | hc
      · exact isXmlName_return hname c hc
      · rw [List.mem_singleton.mp hc]
        decide

theorem normalizeEolFrom_markup {markup : WrittenMarkup} (h : markup.Valid) (rest : List Char) :
    normalizeEolFrom false (markup.chars ++ rest)
      = markup.eol.chars ++ normalizeEolFrom false rest := by
  cases markup with
  | start name attributes => exact normalizeEolFrom_start h.1 h.2 rest
  | finish name => exact normalizeEolFrom_finish h rest
  | element name attributes content =>
    obtain ⟨hname, hattributes, -⟩ := h
    have hfinish : writeFinish name ++ rest = '<' :: ('/' :: (name.toList ++ ['>']) ++ rest) := rfl
    show normalizeEolFrom false ((startChars name attributes
      ++ (escape content.text.toList ++ writeFinish name)) ++ rest) = _
    rw [List.append_assoc, List.append_assoc, normalizeEolFrom_start hname hattributes, hfinish,
      normalizeEolFrom_escape (by decide), ← hfinish, normalizeEolFrom_finish hname]
    show _ = (startChars name _ ++ (escape (eolText content.text).toList ++ writeFinish name)) ++ _
    unfold eolText normalizeEol
    rw [String.toList_ofList, List.append_assoc, List.append_assoc]

/-- The line ends of a line are those of its strings. -/
theorem normalizeEolFrom_line {line : WrittenLine} (h : line.markup.Valid) (rest : List Char) :
    normalizeEolFrom false (line.chars ++ rest)
      = line.eol.chars ++ normalizeEolFrom false rest := by
  have hspaces : ∀ c ∈ List.replicate line.indent ' ', c.toNat ≠ 13 := by
    intro c hc
    rw [List.eq_of_mem_replicate hc]
    decide
  unfold WrittenLine.chars
  rw [List.append_assoc, List.append_assoc, normalizeEolFrom_append hspaces,
    normalizeEolFrom_markup h, List.singleton_append, normalizeEolFrom_false_cons (by decide),
    List.append_assoc, List.append_assoc]
  rfl

theorem normalizeEolFrom_lines {lines : List WrittenLine}
    (h : ∀ line ∈ lines, line.markup.Valid) :
    normalizeEolFrom false (lines.flatMap WrittenLine.chars)
      = (lines.map WrittenLine.eol).flatMap WrittenLine.chars := by
  induction lines with
  | nil => rfl
  | cons line lines ih =>
    rw [List.flatMap_cons, normalizeEolFrom_line (h line List.mem_cons_self),
      ih fun other hother => h other (List.mem_cons_of_mem line hother), List.map_cons,
      List.flatMap_cons]

/-! ## Reading what is written -/

/-- White space is read as a space in an attribute value. -/
def spaced (text : List Char) : List Char :=
  text.map fun c => if isXmlSpace c then ' ' else c

theorem escape_cons_entity {c : Char} {name : String} (h : entityName c = some name)
    (text : List Char) : escape (c :: text) = '&' :: (name.toList ++ ';' :: escape text) := by
  show escapeChar c ++ escape text = _
  unfold escapeChar
  rw [h]
  show '&' :: ((name.toList ++ [';']) ++ escape text) = _
  rw [List.append_assoc]
  rfl

theorem escape_cons_none {c : Char} (h : entityName c = none) (text : List Char) :
    escape (c :: text) = c :: escape text := by
  show escapeChar c ++ escape text = _
  unfold escapeChar
  rw [h]
  rfl

/-- A character that is written as it is, is none of the escaped ones. -/
theorem entityName_none {c : Char} (h : entityName c = none) :
    c ≠ '&' ∧ c ≠ '<' ∧ c ≠ '>' ∧ c ≠ quotationMark := by
  refine ⟨?_, ?_, ?_, ?_⟩ <;>
  · rintro rfl
    cases h

theorem length_le_reference (name : String) (rest : List Char) :
    rest.length ≤ (name.toList ++ ';' :: rest).length := by
  rw [List.length_append, List.length_cons]
  omega

theorem readsValue_escape {text : List Char} (h : ∀ c ∈ text, isXmlChar c = true)
    (rest : List Char) : ReadsValue quotationMark (escape text ++ quotationMark :: rest)
      (spaced text) rest := by
  induction text with
  | nil => exact .done quotationMark rest
  | cons c text ih =>
    have ih := ih fun d hd => h d (List.mem_cons_of_mem c hd)
    cases hname : entityName c with
    | some name =>
      rw [escape_cons_entity hname]
      have hspace : isXmlSpace c = false := by
        have := (entityName_spec hname).2.1
        unfold isXmlSpace
        simp only [Bool.or_eq_false_iff, decide_eq_false_iff_not]
        omega
      have hread := readReference_entity hname (escape text ++ quotationMark :: rest)
      have hvalue := ReadsValue.reference (by decide) hread (length_le_reference name _) ih
      rw [List.cons_append, List.append_assoc]
      unfold spaced
      rw [List.map_cons, hspace]
      exact hvalue
    | none =>
      obtain ⟨hamp, hlt, -, hquote⟩ := entityName_none hname
      rw [escape_cons_none hname]
      exact ReadsValue.char hquote hlt hamp (h c List.mem_cons_self) ih

/-- No escaped text in front of a tag begins like the end of a CDATA section. -/
theorem take_escape_ne (text rest : List Char) :
    (escape text ++ '<' :: rest).take 2 ≠ [']', '>'] := by
  have hgt : ∀ c ∈ escape text, c ≠ '>' := by
    intro c hc
    obtain ⟨d, -, hd⟩ := List.mem_flatMap.mp hc
    cases hname : entityName d with
    | some name =>
      unfold escapeChar at hd
      rw [hname] at hd
      rcases List.mem_cons.mp hd with rfl | hd
      · decide
      · rcases List.mem_append.mp hd with hd | hd
        · exact ((entityName_spec hname).2.2 c hd).2.1
        · rw [List.mem_singleton.mp hd]
          decide
    | none =>
      unfold escapeChar at hd
      rw [hname] at hd
      rw [List.mem_singleton.mp hd]
      exact (entityName_none hname).2.2.1
  match hescape : escape text with
  | [] =>
    intro heq
    cases heq
  | [c] =>
    intro heq
    cases heq
  | c :: d :: others =>
    intro heq
    rw [hescape] at hgt
    exact hgt d (List.mem_cons_of_mem c List.mem_cons_self)
      (List.cons_eq_cons.mp (List.cons_eq_cons.mp heq).2).1

theorem reads_escape {text : List Char} (h : ∀ c ∈ text, isXmlChar c = true) {rest : List Char}
    {infos : List XmlInfo} (hrest : Reads ('<' :: rest) infos) :
    Reads (escape text ++ '<' :: rest) (text.map XmlInfo.char ++ infos) := by
  induction text with
  | nil => exact hrest
  | cons c text ih =>
    have ih := ih fun d hd => h d (List.mem_cons_of_mem c hd)
    cases hname : entityName c with
    | some name =>
      rw [escape_cons_entity hname, List.cons_append, List.append_assoc]
      exact Reads.reference (readReference_entity hname _) (length_le_reference name _) ih
    | none =>
      obtain ⟨hamp, hlt, -, -⟩ := entityName_none hname
      rw [escape_cons_none hname]
      exact Reads.char hlt hamp (h c List.mem_cons_self)
        (fun hend => take_escape_ne text rest hend.2) ih

/-- The attribute as a parser reads it. -/
def WrittenAttribute.readAs (attr : WrittenAttribute) : XmlAttribute :=
  ⟨attr.name, String.ofList (spaced (normalizeEol attr.value.text.toList))⟩

/-- The markup as a parser reads it. -/
def WrittenMarkup.readAs : WrittenMarkup → List XmlInfo
  | start name attributes => [.start name (attributes.map WrittenAttribute.readAs)]
  | finish name => [.finish name]
  | element name attributes content =>
    .start name (attributes.map WrittenAttribute.readAs)
      :: ((normalizeEol content.text.toList).map XmlInfo.char ++ [.finish name])

/-- The line as a parser reads it. -/
def WrittenLine.readAs (line : WrittenLine) : List XmlInfo :=
  List.replicate line.indent (.char ' ') ++ (line.markup.readAs ++ [.char lineFeed])

/-- Normalised line ends are legal where the text is. -/
theorem normalizeEolFrom_mem {text : List Char} {after : Bool} {c : Char}
    (h : c ∈ normalizeEolFrom after text) : c.toNat ≠ 13 ∧ (c = lineFeed ∨ c ∈ text) := by
  induction text generalizing after with
  | nil => cases h
  | cons d text ih =>
    have hcons : c ∈ normalizeEolFrom true text ∨ c ∈ normalizeEolFrom false text →
        c.toNat ≠ 13 ∧ (c = lineFeed ∨ c ∈ d :: text) := by
      intro hc
      obtain ⟨hreturn, hmem⟩ := hc.elim ih ih
      exact ⟨hreturn, hmem.imp_right (List.mem_cons_of_mem d)⟩
    unfold normalizeEolFrom at h
    split_ifs at h with hreturn hfeed
    · rcases List.mem_cons.mp h with rfl | h
      · exact ⟨by decide, .inl rfl⟩
      · exact hcons (.inl h)
    · exact hcons (.inr h)
    · rcases List.mem_cons.mp h with rfl | h
      · exact ⟨hreturn, .inr List.mem_cons_self⟩
      · exact hcons (.inr h)

theorem normalizeEol_legal {text : List Char} (h : ∀ c ∈ text, isXmlChar c = true) :
    ∀ c ∈ normalizeEol text, isXmlChar c = true := by
  intro c hc
  rcases (normalizeEolFrom_mem hc).2 with rfl | hc
  · decide
  · exact h c hc

theorem readsAttributes_written {attributes : List WrittenAttribute}
    (hnames : ∀ attr ∈ attributes, isXmlName attr.name = true)
    (hlegal : ∀ attr ∈ attributes, attr.value.Legal) (rest : List Char) :
    ReadsAttributes
      ((attributes.map WrittenAttribute.eol).flatMap WrittenAttribute.chars ++ '>' :: rest)
      (attributes.map WrittenAttribute.readAs) ('>' :: rest) := by
  induction attributes with
  | nil => exact .done (by decide) (by decide) rest
  | cons attr attributes ih =>
    have ih := ih (fun other hother => hnames other (List.mem_cons_of_mem attr hother))
      fun other hother => hlegal other (List.mem_cons_of_mem attr hother)
    have hvalue := readsValue_escape (normalizeEol_legal (hlegal attr List.mem_cons_self))
      ((attributes.map WrittenAttribute.eol).flatMap WrittenAttribute.chars ++ '>' :: rest)
    have hmore := ReadsAttributes.more (hnames attr List.mem_cons_self) hvalue ih
    have hchars : attr.eol.chars = attributeOpening attr.name
        ++ (escape (normalizeEol attr.value.text.toList) ++ [quotationMark]) := by
      show attributeOpening attr.name ++ (escape (eolText attr.value.text).toList ++ _) = _
      unfold eolText
      rw [String.toList_ofList]
    rw [List.map_cons, List.map_cons, List.flatMap_cons, hchars, List.append_assoc,
      List.append_assoc, List.append_assoc]
    exact hmore

/-- The keys of the attributes that are read are the names. -/
theorem readAs_keys {attributes : List WrittenAttribute} :
    (attributes.map WrittenAttribute.readAs).map XmlAttribute.key
      = attributes.map WrittenAttribute.name := by
  rw [List.map_map]
  rfl

/-- A start tag in front. -/
theorem reads_start {name : String} (hname : isXmlName name = true)
    {attributes : List WrittenAttribute} (h : AttributesValid attributes)
    (hlegal : ∀ attr ∈ attributes, attr.value.Legal) {rest : List Char} {infos : List XmlInfo}
    (hrest : Reads rest infos) :
    Reads (startChars name (attributes.map WrittenAttribute.eol) ++ rest)
      (.start name (attributes.map WrittenAttribute.readAs) :: infos) := by
  have hattributes := readsAttributes_written h.names hlegal rest
  have hkeys : ((attributes.map WrittenAttribute.readAs).map XmlAttribute.key).Nodup := by
    rw [readAs_keys]
    exact h.unique
  unfold startChars
  rw [List.cons_append, List.append_assoc, List.append_assoc, List.singleton_append]
  -- What follows the name is the blank of the first attribute, or the end of the tag.
  have hhead : ∃ c input, isXmlNameChar c = false
      ∧ (attributes.map WrittenAttribute.eol).flatMap WrittenAttribute.chars ++ '>' :: rest
        = c :: input := by
    cases attributes with
    | nil => exact ⟨'>', rest, by decide, rfl⟩
    | cons attr attributes => exact ⟨' ', _, by decide, rfl⟩
  obtain ⟨c, input, hc, hinput⟩ := hhead
  rw [hinput] at hattributes ⊢
  have hmarkup := readMarkup_start hname hc hattributes hkeys
  refine Reads.markup hmarkup ?_ hrest
  have hle := hattributes.1
  rw [List.length_append]
  rw [List.length_cons] at hle
  omega

/-- An end tag in front. -/
theorem reads_finish {name : String} (hname : isXmlName name = true) {rest : List Char}
    {infos : List XmlInfo} (hrest : Reads rest infos) :
    Reads (writeFinish name ++ rest) (.finish name :: infos) := by
  have hmarkup := readMarkup_finish hname rest
  unfold writeFinish
  rw [List.cons_append, List.cons_append, List.append_assoc, List.singleton_append]
  refine Reads.markup hmarkup ?_ hrest
  rw [List.length_cons, List.length_append, List.length_cons]
  omega

theorem reads_markup {markup : WrittenMarkup} (h : markup.Valid) (hlegal : markup.Legal)
    {rest : List Char} {infos : List XmlInfo} (hrest : Reads rest infos) :
    Reads (markup.eol.chars ++ rest) (markup.readAs ++ infos) := by
  cases markup with
  | start name attributes => exact reads_start h.1 h.2 hlegal hrest
  | finish name => exact reads_finish h hrest
  | element name attributes content =>
    obtain ⟨hname, hattributes, -⟩ := h
    have hfinish := reads_finish hname hrest
    have hcontent := reads_escape (normalizeEol_legal hlegal.2) hfinish
    have hstart := reads_start hname hattributes hlegal.1 hcontent
    show Reads ((startChars name (attributes.map WrittenAttribute.eol)
        ++ (escape (eolText content.text).toList ++ writeFinish name)) ++ rest)
      (.start name (attributes.map WrittenAttribute.readAs)
        :: ((normalizeEol content.text.toList).map XmlInfo.char ++ [.finish name]) ++ infos)
    unfold eolText
    rw [String.toList_ofList, List.append_assoc, List.append_assoc, List.cons_append,
      List.append_assoc, List.singleton_append]
    exact hstart

/-- Blanks in front. -/
theorem reads_blanks (n : Nat) {rest : List Char} {infos : List XmlInfo} (h : Reads rest infos) :
    Reads (List.replicate n ' ' ++ rest) (List.replicate n (.char ' ') ++ infos) := by
  induction n with
  | zero => exact h
  | succ n ih =>
    rw [List.replicate_succ, List.replicate_succ, List.cons_append, List.cons_append]
    exact Reads.char (by decide) (by decide) (by decide) (by rintro ⟨heq, -⟩; cases heq) ih

/-- A line in front. -/
theorem reads_line {line : WrittenLine} (h : line.markup.Valid) (hlegal : line.markup.Legal)
    {rest : List Char} {infos : List XmlInfo} (hrest : Reads rest infos) :
    Reads (line.eol.chars ++ rest) (line.readAs ++ infos) := by
  have hfeed : Reads (lineFeed :: rest) (.char lineFeed :: infos) :=
    Reads.char (by decide) (by decide) (by decide) (by rintro ⟨heq, -⟩; cases heq) hrest
  have hline := reads_blanks line.indent (reads_markup h hlegal hfeed)
  unfold WrittenLine.chars WrittenLine.readAs
  rw [List.append_assoc, List.append_assoc, List.singleton_append, List.append_assoc,
    List.append_assoc, List.singleton_append]
  exact hline

theorem reads_lines {lines : List WrittenLine} (h : ∀ line ∈ lines, line.markup.Valid)
    (hlegal : ∀ line ∈ lines, line.markup.Legal) :
    Reads ((lines.map WrittenLine.eol).flatMap WrittenLine.chars)
      (lines.flatMap WrittenLine.readAs) := by
  induction lines with
  | nil => exact .nil
  | cons line lines ih =>
    rw [List.map_cons, List.flatMap_cons, List.flatMap_cons]
    exact reads_line (h line List.mem_cons_self) (hlegal line List.mem_cons_self)
      (ih (fun other hother => h other (List.mem_cons_of_mem line hother))
        fun other hother => hlegal other (List.mem_cons_of_mem line hother))

/-! ## Documents -/

/-- The tags of the lines are nested, and the names in them are names. -/
inductive Nested : List WrittenLine → Prop
  | nil : Nested []
  | leaf {indent : Nat} {name : String} {attributes : List WrittenAttribute}
      {content : WrittenValue} {rest : List WrittenLine} (hname : isXmlName name = true)
      (hattributes : AttributesValid attributes) (hcontent : content.Harmless)
      (hrest : Nested rest) : Nested (⟨indent, .element name attributes content⟩ :: rest)
  | block {indent : Nat} {name : String} {attributes : List WrittenAttribute}
      {body rest : List WrittenLine} (hname : isXmlName name = true)
      (hattributes : AttributesValid attributes) (hbody : Nested body) (hrest : Nested rest) :
      Nested (⟨indent, .start name attributes⟩ :: (body ++ ⟨indent, .finish name⟩ :: rest))

namespace Nested

variable {lines lines' : List WrittenLine}

theorem append (h : Nested lines) (h' : Nested lines') : Nested (lines ++ lines') := by
  induction h with
  | nil => exact h'
  | leaf hname hattributes hcontent _ ih => exact .leaf hname hattributes hcontent ih
  | block hname hattributes hbody _ _ ih =>
    rw [List.cons_append, List.append_assoc, List.cons_append]
    exact .block hname hattributes hbody ih

theorem flatMap {α : Type} {f : α → List WrittenLine} {l : List α} (h : ∀ a ∈ l, Nested (f a)) :
    Nested (l.flatMap f) := by
  induction l with
  | nil => exact .nil
  | cons a rest ih =>
    rw [List.flatMap_cons]
    exact (h a List.mem_cons_self).append (ih fun b hb => h b (List.mem_cons_of_mem a hb))

theorem valid (h : Nested lines) : ∀ line ∈ lines, line.markup.Valid := by
  induction h with
  | nil => exact fun line hline => absurd hline List.not_mem_nil
  | leaf hname hattributes hcontent _ ih =>
    intro line hline
    rcases List.mem_cons.mp hline with rfl | hline
    · exact ⟨hname, hattributes, hcontent⟩
    · exact ih line hline
  | block hname hattributes _ _ ihbody ihrest =>
    intro line hline
    rcases List.mem_cons.mp hline with rfl | hline
    · exact ⟨hname, hattributes⟩
    · rcases List.mem_append.mp hline with hline | hline
      · exact ihbody line hline
      · rcases List.mem_cons.mp hline with rfl | hline
        · exact hname
        · exact ihrest line hline

theorem blanks (n : Nat) : Balanced (List.replicate n (.char ' ')) := by
  have hchars := Balanced.chars (List.replicate n ' ')
  rw [List.map_replicate] at hchars
  exact hchars

theorem line {n : Nat} {infos : List XmlInfo} (h : Balanced infos) :
    Balanced (List.replicate n (.char ' ') ++ (infos ++ [.char lineFeed])) :=
  (blanks n).append (h.append (.char lineFeed))

/-- The tags that are read are nested. -/
theorem balanced (h : Nested lines) : Balanced (lines.flatMap WrittenLine.readAs) := by
  induction h with
  | nil => exact .nil
  | @leaf indent name attributes content rest _ _ _ _ ih =>
    rw [List.flatMap_cons]
    exact (line (.element name _ (.chars (normalizeEol content.text.toList)))).append ih
  | @block indent name attributes body rest _ _ _ _ ihbody ihrest =>
    rw [List.flatMap_cons, List.flatMap_append, List.flatMap_cons]
    have hinside : Balanced ([.char lineFeed] ++ (body.flatMap WrittenLine.readAs
        ++ List.replicate indent (.char ' '))) :=
      (Balanced.char lineFeed).append (ihbody.append (blanks indent))
    have hall := ((blanks indent).append
      ((hinside.element name (attributes.map WrittenAttribute.readAs)).append
        (.char lineFeed))).append ihrest
    unfold WrittenLine.readAs WrittenMarkup.readAs
    simp only [List.append_assoc, List.cons_append, List.nil_append] at hall ⊢
    exact hall

end Nested

/-- The root element is well formed. -/
structure WrittenDocument.Valid (document : WrittenDocument) : Prop where
  root : isXmlName document.root = true
  attributes : AttributesValid document.attributes
  body : Nested document.body

theorem WrittenDocument.Valid.lines {document : WrittenDocument} (h : document.Valid) :
    ∀ line ∈ document.lines, line.markup.Valid := by
  intro line hline
  rcases List.mem_cons.mp hline with rfl | hline
  · exact ⟨h.root, h.attributes⟩
  · rcases List.mem_append.mp hline with hline | hline
    · exact h.body.valid line hline
    · rw [List.mem_singleton.mp hline]
      exact h.root

/-- The document is written exactly when its strings are legal. -/
theorem WrittenDocument.written_iff {document : WrittenDocument} (h : document.Valid)
    {out : String} : document.written = .ok out ↔
      (∀ line ∈ document.lines, line.markup.Legal)
        ∧ out = String.ofList (xmlDeclaration.toList
          ++ lineFeed :: document.lines.flatMap WrittenLine.chars) := by
  have hall {parts : List (List Char)} : document.lines.mapM WrittenLine.written = .ok parts
      ↔ (∀ line ∈ document.lines, line.markup.Legal)
        ∧ parts = document.lines.map WrittenLine.chars :=
    mapM_written_iff fun line hline _ => WrittenLine.written_iff (h.lines line hline)
  unfold written
  rw [bind_eq_ok]
  constructor
  · rintro ⟨parts, hparts, heq⟩
    cases heq
    obtain ⟨hlegal, rfl⟩ := hall.mp hparts
    rw [← List.flatMap_def]
    exact ⟨hlegal, rfl⟩
  · rintro ⟨hlegal, rfl⟩
    refine ⟨_, hall.mpr ⟨hlegal, rfl⟩, ?_⟩
    rw [← List.flatMap_def]
    rfl

/-- The root element as a parser reads it. -/
def WrittenDocument.readAs (document : WrittenDocument) : List XmlInfo :=
  .start document.root (document.attributes.map WrittenAttribute.readAs)
    :: (.char lineFeed :: document.body.flatMap WrittenLine.readAs ++ [.finish document.root])

/-- The attributes of the XML declaration are read. -/
theorem readsAttributes_declaration (rest : List Char) : ReadsAttributes
    (attributeOpening "version" ++ ("1.0".toList ++ quotationMark :: (attributeOpening "encoding"
      ++ ("utf-8".toList ++ quotationMark :: '?' :: '>' :: rest))))
    [⟨"version", "1.0"⟩, ⟨"encoding", "utf-8"⟩] ('?' :: '>' :: rest) := by
  have hutf8 := @readsValue_escape "utf-8".toList (by decide) ('?' :: '>' :: rest)
  have hencoding : ReadsAttributes
      (attributeOpening "encoding" ++ ("utf-8".toList ++ quotationMark :: '?' :: '>' :: rest))
      [⟨"encoding", "utf-8"⟩] ('?' :: '>' :: rest) :=
    .more (by decide) hutf8 (.done (by decide) (by decide) _)
  have hversion := @readsValue_escape "1.0".toList (by decide) (attributeOpening "encoding"
    ++ ("utf-8".toList ++ quotationMark :: '?' :: '>' :: rest))
  exact .more (by decide) hversion hencoding

/-- The XML declaration is read as one. -/
theorem readDeclaration_written (rest : List Char) :
    readDeclaration (xmlDeclaration.toList ++ rest) = some rest := by
  obtain ⟨tail, htail⟩ : ∃ tail, attributeOpening "version" ++ ("1.0".toList ++ quotationMark
      :: (attributeOpening "encoding" ++ ("utf-8".toList ++ quotationMark :: '?' :: '>' :: rest)))
        = ' ' :: tail := ⟨_, rfl⟩
  have hattributes := readsAttributes_declaration rest
  have hinput : xmlDeclaration.toList ++ rest
      = '<' :: '?' :: 'x' :: 'm' :: 'l' :: ' ' :: tail := by
    rw [← htail]
    rfl
  rw [htail] at hattributes
  rw [hinput]
  show (readAttributes (tail.length + 2) (' ' :: tail) >>= _) = _
  rw [hattributes.2 (tail.length + 2) (Nat.lt_succ_self (tail.length + 1))]
  rfl

/-- What is read of a document. -/
theorem readXml_document {document : WrittenDocument} (h : document.Valid) {out : String}
    (hout : document.written = .ok out) : readXml out = some document.readAs := by
  obtain ⟨hlegal, rfl⟩ := (document.written_iff h).mp hout
  have hdeclaration : ∀ c ∈ xmlDeclaration.toList, c.toNat ≠ 13 := by
    decide
  have heol : normalizeEol (xmlDeclaration.toList
      ++ lineFeed :: document.lines.flatMap WrittenLine.chars) = xmlDeclaration.toList
        ++ lineFeed :: (document.lines.map WrittenLine.eol).flatMap WrittenLine.chars := by
    unfold normalizeEol
    rw [normalizeEolFrom_append hdeclaration, normalizeEolFrom_false_cons (by decide),
      normalizeEolFrom_lines h.lines]
  have hreads : Reads (lineFeed :: (document.lines.map WrittenLine.eol).flatMap WrittenLine.chars)
      (.char lineFeed :: document.lines.flatMap WrittenLine.readAs) :=
    Reads.char (by decide) (by decide) (by decide) (by rintro ⟨heq, -⟩; cases heq)
      (reads_lines h.lines hlegal)
  have hinside : Balanced (.char lineFeed :: document.body.flatMap WrittenLine.readAs) :=
    (Balanced.char lineFeed).append h.body.balanced
  have hlines : XmlInfo.char lineFeed :: document.lines.flatMap WrittenLine.readAs
      = [XmlInfo.char lineFeed] ++ .start document.root
        (document.attributes.map WrittenAttribute.readAs)
          :: ((.char lineFeed :: document.body.flatMap WrittenLine.readAs)
            ++ .finish document.root :: [.char lineFeed]) := by
    unfold WrittenDocument.lines
    rw [List.flatMap_cons, List.flatMap_append, List.flatMap_cons, List.flatMap_nil,
      List.append_nil]
    rfl
  have hnest := @nestDocument_root [XmlInfo.char lineFeed] [XmlInfo.char lineFeed] _ document.root
    (document.attributes.map WrittenAttribute.readAs) (by decide) (by decide) hinside
  unfold readXml
  rw [String.toList_ofList, heol, readDeclaration_written]
  show (readContent _ _ >>= nestDocument) = _
  rw [hreads _ (Nat.le_refl _), hlines]
  exact hnest

/-! ## When the strings are read back -/

/-- What a parser reads of a document has no return in a text, and no end of a line or TAB in an
attribute value. -/
def XmlInfo.Normal : XmlInfo → Prop
  | char c => c.toNat ≠ 13
  | start _ attributes => ∀ attr ∈ attributes, ∀ c ∈ attr.value.toList, isLineControl c = false
  | finish _ => True

theorem readAs_normal (attr : WrittenAttribute) :
    ∀ c ∈ attr.readAs.value.toList, isLineControl c = false := by
  intro c hc
  unfold WrittenAttribute.readAs spaced at hc
  rw [String.toList_ofList] at hc
  obtain ⟨d, -, rfl⟩ := List.mem_map.mp hc
  split
  · decide
  · rename_i hspace
    rw [Bool.not_eq_true] at hspace
    unfold isXmlSpace at hspace
    exact (Bool.or_eq_false_iff.mp hspace).1

theorem start_readAs_normal (name : String) (attributes : List WrittenAttribute) :
    (XmlInfo.start name (attributes.map WrittenAttribute.readAs)).Normal := by
  intro attr hattr
  obtain ⟨written, -, rfl⟩ := List.mem_map.mp hattr
  exact readAs_normal written

theorem WrittenLine.readAs_normal (line : WrittenLine) : ∀ info ∈ line.readAs, info.Normal := by
  obtain ⟨indent, markup⟩ := line
  intro info hinfo
  rcases List.mem_append.mp hinfo with hinfo | hinfo
  · rw [List.eq_of_mem_replicate hinfo]
    unfold XmlInfo.Normal
    decide
  · rcases List.mem_append.mp hinfo with hinfo | hinfo
    · cases markup with
      | start name attributes =>
        rw [List.mem_singleton.mp hinfo]
        exact start_readAs_normal name attributes
      | finish name =>
        rw [List.mem_singleton.mp hinfo]
        trivial
      | element name attributes content =>
        rcases List.mem_cons.mp hinfo with rfl | hinfo
        · exact start_readAs_normal name attributes
        · rcases List.mem_append.mp hinfo with hinfo | hinfo
          · obtain ⟨c, hc, rfl⟩ := List.mem_map.mp hinfo
            exact (normalizeEolFrom_mem hc).1
          · rw [List.mem_singleton.mp hinfo]
            trivial
    · rw [List.mem_singleton.mp hinfo]
      unfold XmlInfo.Normal
      decide

/-- A text without returns has its line ends normalised. -/
theorem normalizeEol_of_safe {text : List Char} (h : ∀ c ∈ text, c.toNat ≠ 13) :
    normalizeEol text = text := by
  have happend := normalizeEolFrom_append h []
  rw [List.append_nil] at happend
  rw [show normalizeEol text = normalizeEolFrom false text from rfl, happend]
  exact List.append_nil text

theorem isLineControl_return {c : Char} (h : isLineControl c = false) : c.toNat ≠ 13 :=
  of_decide_eq_false (Bool.or_eq_false_iff.mp h).2

/-- A safe attribute is read as it is. -/
theorem WrittenAttribute.readAs_of_safe {attr : WrittenAttribute}
    (h : AttributeSafe attr.value.text) : attr.readAs = attr.info := by
  have heol : normalizeEol attr.value.text.toList = attr.value.text.toList :=
    normalizeEol_of_safe fun c hc => isLineControl_return (h c hc).2
  have hspaced : spaced attr.value.text.toList = attr.value.text.toList := by
    unfold spaced
    rw [List.map_congr_left (g := id) ?_, List.map_id]
    intro c hc
    by_cases hspace : isXmlSpace c = true
    · have hcontrol := (h c hc).2
      have h32 : c.toNat = 32 := by
        unfold isXmlSpace at hspace
        unfold isLineControl at hcontrol
        rw [hcontrol, Bool.false_or] at hspace
        exact of_decide_eq_true hspace
      rw [if_pos hspace]
      have hc : Char.ofNat c.toNat = c := Char.ofNat_toNat c
      rw [h32] at hc
      exact hc
    · rw [if_neg hspace]
      rfl
  unfold readAs info
  rw [heol, hspaced, String.ofList_toList]

theorem attributes_readAs_of_safe {attributes : List WrittenAttribute}
    (h : AttributesSafe attributes) :
    attributes.map WrittenAttribute.readAs = attributes.map WrittenAttribute.info :=
  List.map_congr_left fun attr hattr => WrittenAttribute.readAs_of_safe (h attr hattr)

theorem WrittenLine.readAs_of_safe {line : WrittenLine} (h : line.Safe) :
    line.readAs = line.infos := by
  obtain ⟨indent, markup⟩ := line
  unfold readAs infos WrittenMarkup.readAs WrittenMarkup.infos
  cases markup with
  | start name attributes =>
    dsimp only
    rw [attributes_readAs_of_safe h]
  | finish name => rfl
  | element name attributes content =>
    dsimp only
    rw [attributes_readAs_of_safe h.1, normalizeEol_of_safe fun c hc => (h.2 c hc).2]

/-- The attributes are safe when they are legal and normal. -/
theorem attributesSafe_of_normal {name : String} {attributes : List WrittenAttribute}
    (hlegal : ∀ attr ∈ attributes, attr.value.Legal)
    (h : (XmlInfo.start name (attributes.map WrittenAttribute.info)).Normal) :
    AttributesSafe attributes := by
  intro attr hattr c hc
  exact ⟨hlegal attr hattr c hc, h attr.info (List.mem_map_of_mem hattr) c hc⟩

theorem WrittenLine.safe_of_normal {line : WrittenLine} (hlegal : line.markup.Legal)
    (h : ∀ info ∈ line.infos, info.Normal) : line.Safe := by
  obtain ⟨indent, markup⟩ := line
  have hmarkup : ∀ info ∈ markup.infos, info.Normal := fun info hinfo =>
    h info (List.mem_append_right _ (List.mem_append_left _ hinfo))
  cases markup with
  | start name attributes =>
    exact attributesSafe_of_normal hlegal (hmarkup _ (List.mem_singleton.mpr rfl))
  | finish name => trivial
  | element name attributes content =>
    refine ⟨attributesSafe_of_normal hlegal.1 (hmarkup _ List.mem_cons_self), ?_⟩
    intro c hc
    have hchar := hmarkup (.char c) (List.mem_cons_of_mem _
      (List.mem_append_left _ (List.mem_map_of_mem hc)))
    exact ⟨hlegal.2 c hc, hchar⟩

theorem WrittenLine.legal_of_safe {line : WrittenLine} (h : line.Safe) : line.markup.Legal := by
  obtain ⟨indent, markup⟩ := line
  cases markup with
  | start name attributes => exact fun attr hattr c hc => (h attr hattr c hc).1
  | finish name => trivial
  | element name attributes content =>
    exact ⟨fun attr hattr c hc => (h.1 attr hattr c hc).1, fun c hc => (h.2 c hc).1⟩

/-- The strings of the document are read back. -/
def WrittenDocument.Safe (document : WrittenDocument) : Prop :=
  AttributesSafe document.attributes ∧ ∀ line ∈ document.body, line.Safe

theorem WrittenDocument.safe_iff_lines {document : WrittenDocument} :
    document.Safe ↔ ∀ line ∈ document.lines, line.Safe := by
  unfold Safe lines
  rw [List.forall_mem_cons, List.forall_mem_append, List.forall_mem_singleton]
  constructor
  · rintro ⟨hroot, hbody⟩
    exact ⟨hroot, hbody, trivial⟩
  · rintro ⟨hroot, hbody, -⟩
    exact ⟨hroot, hbody⟩

/-- A document is written, and read as what was written, exactly when its strings are safe. -/
theorem WrittenDocument.reproduced_iff {document : WrittenDocument} (h : document.Valid) :
    (∃ out, document.written = .ok out ∧ readXml out = some document.infos) ↔ document.Safe := by
  rw [document.safe_iff_lines]
  constructor
  · rintro ⟨out, hout, hread⟩
    obtain ⟨hlegal, -⟩ := (document.written_iff h).mp hout
    rw [readXml_document h hout, Option.some.injEq] at hread
    obtain ⟨hstart, hrest⟩ := List.cons_eq_cons.mp hread
    have hbody : document.body.flatMap WrittenLine.readAs
        = document.body.flatMap WrittenLine.infos :=
      (List.cons_eq_cons.mp (List.append_cancel_right hrest)).2
    -- What is read is normal, so what was written is.
    intro line hline
    have hline_legal := hlegal line hline
    rcases List.mem_cons.mp hline with rfl | hline
    · have hnormal := start_readAs_normal document.root document.attributes
      rw [hstart] at hnormal
      exact attributesSafe_of_normal hline_legal hnormal
    · rcases List.mem_append.mp hline with hline | hline
      · apply WrittenLine.safe_of_normal hline_legal
        intro info hinfo
        have hmem : info ∈ document.body.flatMap WrittenLine.readAs := by
          rw [hbody]
          exact List.mem_flatMap_of_mem hline hinfo
        obtain ⟨other, -, hother⟩ := List.mem_flatMap.mp hmem
        exact other.readAs_normal info hother
      · rw [List.mem_singleton.mp hline]
        trivial
  · intro hsafe
    have hlegal := fun line hline => WrittenLine.legal_of_safe (hsafe line hline)
    refine ⟨_, (document.written_iff h).mpr ⟨hlegal, rfl⟩, ?_⟩
    rw [readXml_document h ((document.written_iff h).mpr ⟨hlegal, rfl⟩), Option.some.injEq]
    obtain ⟨hroot, hbody⟩ := document.safe_iff_lines.mpr hsafe
    have hlines : document.body.flatMap WrittenLine.readAs
        = document.body.flatMap WrittenLine.infos :=
      List.flatMap_congr fun line hline => WrittenLine.readAs_of_safe (hbody line hline)
    unfold readAs infos
    rw [attributes_readAs_of_safe hroot, hlines]

end Pdfv
