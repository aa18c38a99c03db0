import Pdfv.Xml.Events
import Pdfv.Basic.Fallible
/-!
# Reading XML

A reader of XML 1.0 documents without a document type declaration: it normalises line ends and
attribute values, decodes references, and checks that the document is well formed. `readXml` yields
the tags and the characters of the root element. The rules for what is read of a text in front of
another (`Reads`) are what a proof about a writer needs.
-/

namespace Pdfv

/-- A tag or a character of a document. -/
inductive XmlInfo where
  | start (name : String) (attributes : List XmlAttribute)
  | finish (name : String)
  | char (value : Char)
deriving DecidableEq, Repr

/-! ## Characters and names -/

/-- The end of a line. -/
def lineFeed : Char := Char.ofNat 10

/-- The quotation mark. -/
def quotationMark : Char := Char.ofNat 34

/-- Line ends are read as line feeds. -/
def normalizeEolFrom : Bool → List Char → List Char
  | _, [] => []
  | afterReturn, c :: rest =>
    if c.toNat = 13 then lineFeed :: normalizeEolFrom true rest
    else if afterReturn ∧ c.toNat = 10 then normalizeEolFrom false rest
    else c :: normalizeEolFrom false rest

/-- The text with its line ends normalised. -/
def normalizeEol : List Char → List Char :=
  normalizeEolFrom false

/-- A character that a name begins with. -/
def isNameStart (c : Char) : Bool :=
  let n := c.toNat
  c = ':' || c = '_' || c.isAlpha || (0xC0 ≤ n && n ≤ 0x2FF && n ≠ 0xD7 && n ≠ 0xF7)
    || (0x370 ≤ n && n ≤ 0x1FFF && n ≠ 0x37E) || (0x200C ≤ n && n ≤ 0x200D)
    || (0x2070 ≤ n && n ≤ 0x218F) || (0x2C00 ≤ n && n ≤ 0x2FEF) || (0x3001 ≤ n && n ≤ 0xD7FF)
    || (0xF900 ≤ n && n ≤ 0xFDCF) || (0xFDF0 ≤ n && n ≤ 0xFFFD) || (0x10000 ≤ n && n ≤ 0xEFFFF)

/-- A character of a name. -/
def isXmlNameChar (c : Char) : Bool :=
  let n := c.toNat
  isNameStart c || c = '-' || c = '.' || c.isDigit || n = 0xB7 || (0x300 ≤ n && n ≤ 0x36F)
    || (0x203F ≤ n && n ≤ 0x2040)

/-- A name. -/
def isXmlName (name : String) : Bool :=
  match name.toList with
  | c :: rest => isNameStart c && rest.all isXmlNameChar
  | [] => false

/-- A name at the front, and what follows it. -/
def readName : List Char → Option (List Char × List Char)
  | c :: rest =>
    if isNameStart c then some (c :: rest.takeWhile isXmlNameChar, rest.dropWhile isXmlNameChar) else none
  | [] => none

/-- What follows the white space at the front. -/
def skipSpace (input : List Char) : List Char :=
  input.dropWhile isXmlSpace

/-! ## References -/

/-- The character with a number. -/
def numberedXmlChar (n : Nat) : Option Char :=
  if n.isValidChar ∧ isXmlChar (Char.ofNat n) then some (Char.ofNat n) else none

/-- What a reference stands for. -/
def referenceValue (name : List Char) : Option Char :=
  match predefinedEntity (String.ofList name) with
  | some c => some c
  | none =>
    match name with
    | '#' :: 'x' :: digits => spelledNumber 16 hexDigitValue digits >>= numberedXmlChar
    | '#' :: digits =>
      spelledNumber 10 (fun c => if c.isDigit then some (c.toNat - 48) else none) digits
        >>= numberedXmlChar
    | _ => none

/-- A reference, after its ampersand. -/
def readReference (input : List Char) : Option (Char × List Char) :=
  match input.dropWhile (· ≠ ';') with
  | _ :: rest => (referenceValue (input.takeWhile (· ≠ ';'))).map (·, rest)
  | [] => none

/-! ## Tags -/

/-- The normalised value of an attribute up to its quotation mark. -/
def readAttValue : Nat → Char → List Char → Option (List Char × List Char)
  | fuel + 1, quote, c :: rest =>
    if c = quote then some ([], rest)
    else if c = '<' then none
    else if c = '&' then do
      let (value, rest) ← readReference rest
      let (values, rest) ← readAttValue fuel quote rest
      return (value :: values, rest)
    else if isXmlChar c then do
      let (values, rest) ← readAttValue fuel quote rest
      return ((if isXmlSpace c then ' ' else c) :: values, rest)
    else none
  | _, _, _ => none

/-- An equals sign and a quoted value. -/
def readEqValue (input : List Char) : Option (List Char × List Char) :=
  match skipSpace input with
  | '=' :: rest =>
    match skipSpace rest with
    | quote :: rest =>
      if quote.toNat = 34 ∨ quote.toNat = 39 then readAttValue rest.length quote rest else none
    | [] => none
  | _ => none

/-- The attributes of a tag and the rest of it; white space stands before each of them. -/
def readAttributes : Nat → List Char → Option (List XmlAttribute × List Char)
  | fuel + 1, input =>
    match readName (skipSpace input) with
    | none => some ([], skipSpace input)
    | some (name, rest) =>
      if skipSpace input = input then none
      else do
        let (value, rest) ← readEqValue rest
        let (attributes, rest) ← readAttributes fuel rest
        return (⟨String.ofList name, String.ofList value⟩ :: attributes, rest)
  | 0, _ => none

/-- A start tag or an empty-element tag; no attribute name occurs twice. -/
def readTag (input : List Char) : Option (List XmlInfo × List Char) := do
  let (name, rest) ← readName input
  let (attributes, rest) ← readAttributes (rest.length + 1) rest
  if (attributes.map XmlAttribute.key).Nodup then
    match rest with
    | '>' :: rest => some ([.start (String.ofList name) attributes], rest)
    | '/' :: '>' :: rest =>
      some ([.start (String.ofList name) attributes, .finish (String.ofList name)], rest)
    | _ => none
  else none

/-- An end tag, after its slash. -/
def readEndTag (input : List Char) : Option (List XmlInfo × List Char) := do
  let (name, rest) ← readName input
  match skipSpace rest with
  | '>' :: rest => some ([.finish (String.ofList name)], rest)
  | _ => none

/-! ## Other markup -/

/-- A comment, after its opening delimiter. -/
def skipComment : List Char → Option (List Char)
  | '-' :: '-' :: rest =>
    match rest with
    | '>' :: rest => some rest
    | _ => none
  | c :: rest => if isXmlChar c then skipComment rest else none
  | [] => none

/-- A CDATA section, after its opening delimiter. -/
def readCData : List Char → Option (List XmlInfo × List Char)
  | ']' :: ']' :: '>' :: rest => some ([], rest)
  | c :: rest =>
    if isXmlChar c then (readCData rest).map fun (infos, rest) => (.char c :: infos, rest) else none
  | [] => none

/-- The rest of a processing instruction. -/
def skipInstruction : List Char → Option (List Char)
  | '?' :: '>' :: rest => some rest
  | c :: rest => if isXmlChar c then skipInstruction rest else none
  | [] => none

/-- A processing instruction, after its opening delimiter. -/
def readInstruction (input : List Char) : Option (List Char) := do
  let (name, rest) ← readName input
  if (String.ofList name).toLower = "xml" then none
  else if skipSpace rest = rest ∧ rest.take 2 ≠ ['?', '>'] then none
  else skipInstruction rest

/-- Markup, after its angle bracket. -/
def readMarkup : List Char → Option (List XmlInfo × List Char)
  | '/' :: rest => readEndTag rest
  | '!' :: '-' :: '-' :: rest => (skipComment rest).map ([], ·)
  | '!' :: '[' :: 'C' :: 'D' :: 'A' :: 'T' :: 'A' :: '[' :: rest => readCData rest
  | '?' :: rest => (readInstruction rest).map ([], ·)
  | rest => readTag rest

/-! ## Documents -/

/-- The tags and characters of a text. -/
def readContent : Nat → List Char → Option (List XmlInfo)
  | _, [] => some []
  | 0, _ => none
  | fuel + 1, c :: rest =>
    if c = '<' then do
      let (infos, rest) ← readMarkup rest
      return infos ++ (← readContent fuel rest)
    else if c = '&' then do
      let (value, rest) ← readReference rest
      return .char value :: (← readContent fuel rest)
    else if c = ']' ∧ rest.take 2 = [']', '>'] then none
    else if isXmlChar c then do
      return .char c :: (← readContent fuel rest)
    else none

/-- A character of white space. -/
def XmlInfo.isSpace : XmlInfo → Bool
  | char c => isXmlSpace c
  | _ => false

/-- The content of an element that is open, with the names of the elements around it, up to the end
tag of the outermost one; only white space follows that. -/
def nestContent : List String → List XmlInfo → Option (List XmlInfo)
  | open_, .char c :: rest => (nestContent open_ rest).map (.char c :: ·)
  | open_, .start name attributes :: rest =>
    (nestContent (name :: open_) rest).map (.start name attributes :: ·)
  | [top], .finish name :: rest =>
    if name = top ∧ rest.all XmlInfo.isSpace then some [.finish name] else none
  | top :: below, .finish name :: rest =>
    if name = top then (nestContent below rest).map (.finish name :: ·) else none
  | [], .finish _ :: _ => none
  | _, [] => none

/-- The root element, with white space around it. -/
def nestDocument (infos : List XmlInfo) : Option (List XmlInfo) :=
  match infos.dropWhile XmlInfo.isSpace with
  | .start name attributes :: rest => (nestContent [name] rest).map (.start name attributes :: ·)
  | _ => none

/-- The attributes of an XML declaration. -/
def isDeclaration : List XmlAttribute → Bool
  | ⟨"version", "1.0"⟩ :: rest =>
    match rest.map XmlAttribute.key with
    | [] | ["encoding"] | ["standalone"] | ["encoding", "standalone"] => true
    | _ => false
  | _ => false

/-- What follows the XML declaration, when there is one. -/
def readDeclaration : List Char → Option (List Char)
  | '<' :: '?' :: 'x' :: 'm' :: 'l' :: c :: rest =>
    if isXmlSpace c then do
      let (attributes, rest) ← readAttributes (rest.length + 2) (c :: rest)
      match rest with
      | '?' :: '>' :: rest => if isDeclaration attributes then some rest else none
      | _ => none
    else some ('<' :: '?' :: 'x' :: 'm' :: 'l' :: c :: rest)
  | input => some input

/-- The tags and characters of the root element of a document. -/
def readXml (text : String) : Option (List XmlInfo) := do
  let rest ← readDeclaration (normalizeEol text.toList)
  nestDocument (← readContent rest.length rest)

/-! ## What is read of a text -/

/-- The text is read as these tags and characters. -/
def Reads (input : List Char) (infos : List XmlInfo) : Prop :=
  ∀ fuel, input.length ≤ fuel → readContent fuel input = some infos

namespace Reads

theorem nil : Reads [] [] := by
  intro fuel _
  cases fuel <;> rfl

variable {input rest : List Char} {infos : List XmlInfo}

/-- One character in front. -/
theorem char {c : Char} (hlt : c ≠ '<') (hamp : c ≠ '&') (hlegal : isXmlChar c = true)
    (hend : ¬ (c = ']' ∧ input.take 2 = [']', '>'])) (h : Reads input infos) :
    Reads (c :: input) (.char c :: infos) := by
  intro fuel hfuel
  obtain ⟨fuel, rfl⟩ := Nat.exists_eq_add_one_of_ne_zero (Nat.ne_zero_of_lt hfuel)
  unfold readContent
  rw [if_neg hlt, if_neg hamp, if_neg hend, if_pos hlegal, h fuel (Nat.le_of_succ_le_succ hfuel)]
  rfl

/-- A reference in front. -/
theorem reference {value : Char} (href : readReference input = some (value, rest))
    (hle : rest.length ≤ input.length) (h : Reads rest infos) :
    Reads ('&' :: input) (.char value :: infos) := by
  intro fuel hfuel
  obtain ⟨fuel, rfl⟩ := Nat.exists_eq_add_one_of_ne_zero (Nat.ne_zero_of_lt hfuel)
  unfold readContent
  rw [if_neg (by decide), if_pos rfl, href]
  have hrest := h fuel (hle.trans (Nat.le_of_succ_le_succ hfuel))
  simp only [Option.bind_eq_bind, Option.bind_some, hrest]
  rfl

/-- Markup in front. -/
theorem markup {new : List XmlInfo} (hmarkup : readMarkup input = some (new, rest))
    (hle : rest.length ≤ input.length) (h : Reads rest infos) :
    Reads ('<' :: input) (new ++ infos) := by
  intro fuel hfuel
  obtain ⟨fuel, rfl⟩ := Nat.exists_eq_add_one_of_ne_zero (Nat.ne_zero_of_lt hfuel)
  unfold readContent
  rw [if_pos rfl, hmarkup]
  have hrest := h fuel (hle.trans (Nat.le_of_succ_le_succ hfuel))
  simp only [Option.bind_eq_bind, Option.bind_some, hrest]
  rfl

end Reads

/-- The text up to the quotation mark is read as this value. -/
def ReadsValue (quote : Char) (input value rest : List Char) : Prop :=
  rest.length ≤ input.length
    ∧ ∀ fuel, input.length ≤ fuel → readAttValue fuel quote input = some (value, rest)

namespace ReadsValue

variable {quote c : Char} {input middle rest value : List Char}

theorem done (quote : Char) (rest : List Char) : ReadsValue quote (quote :: rest) [] rest := by
  constructor
  · exact Nat.le_succ _
  · intro fuel hfuel
    obtain ⟨fuel, rfl⟩ := Nat.exists_eq_add_one_of_ne_zero (Nat.ne_zero_of_lt hfuel)
    unfold readAttValue
    rw [if_pos rfl]

/-- One character in front. -/
theorem char (hquote : c ≠ quote) (hlt : c ≠ '<') (hamp : c ≠ '&') (hlegal : isXmlChar c = true)
    (h : ReadsValue quote input value rest) :
    ReadsValue quote (c :: input) ((if isXmlSpace c then ' ' else c) :: value) rest := by
  obtain ⟨hle, h⟩ := h
  refine ⟨hle.trans (Nat.le_succ _), ?_⟩
  intro fuel hfuel
  obtain ⟨fuel, rfl⟩ := Nat.exists_eq_add_one_of_ne_zero (Nat.ne_zero_of_lt hfuel)
  unfold readAttValue
  rw [if_neg hquote, if_neg hlt, if_neg hamp, if_pos hlegal,
    h fuel (Nat.le_of_succ_le_succ hfuel)]
  rfl

/-- A reference in front. -/
theorem reference (hquote : '&' ≠ quote) (href : readReference input = some (c, middle))
    (hmiddle : middle.length ≤ input.length) (h : ReadsValue quote middle value rest) :
    ReadsValue quote ('&' :: input) (c :: value) rest := by
  obtain ⟨hle, h⟩ := h
  refine ⟨(hle.trans hmiddle).trans (Nat.le_succ _), ?_⟩
  intro fuel hfuel
  obtain ⟨fuel, rfl⟩ := Nat.exists_eq_add_one_of_ne_zero (Nat.ne_zero_of_lt hfuel)
  unfold readAttValue
  rw [if_neg hquote, if_neg (by decide), if_pos rfl, href]
  have hrest := h fuel (hmiddle.trans (Nat.le_of_succ_le_succ hfuel))
  simp only [Option.bind_eq_bind, Option.bind_some, hrest]
  rfl

end ReadsValue

/-- No name begins with white space. -/
theorem isXmlSpace_of_isNameStart {c : Char} (h : isNameStart c = true) : isXmlSpace c = false := by
  by_contra hspace
  rw [Bool.not_eq_false] at hspace
  have hc : Char.ofNat c.toNat = c := Char.ofNat_toNat c
  unfold isXmlSpace at hspace
  simp only [Bool.or_eq_true, decide_eq_true_eq] at hspace
  obtain ((heq | heq) | heq) | heq := hspace <;>
  · rw [← hc, heq] at h
    exact absurd h (by decide)

/-- Names are read up to a character that no name has. -/
theorem readName_append {name : String} (hname : isXmlName name = true) {c : Char}
    (hc : isXmlNameChar c = false) (rest : List Char) :
    readName (name.toList ++ c :: rest) = some (name.toList, c :: rest) := by
  unfold isXmlName at hname
  split at hname
  · rename_i first others hlist
    obtain ⟨hfirst, hothers⟩ := Bool.and_eq_true_iff.mp hname
    have hall : ∀ a ∈ others, isXmlNameChar a = true := List.all_eq_true.mp hothers
    rw [hlist, List.cons_append]
    unfold readName
    dsimp only
    rw [if_pos hfirst, List.takeWhile_append_of_pos hall, List.dropWhile_append_of_pos hall,
      List.takeWhile_cons_of_neg (by rw [hc]; exact Bool.false_ne_true),
      List.dropWhile_cons_of_neg (by rw [hc]; exact Bool.false_ne_true), List.append_nil]
  · cases hname

/-- The attributes in front of the rest of a tag. -/
def ReadsAttributes (input : List Char) (attributes : List XmlAttribute) (rest : List Char) :
    Prop :=
  rest.length ≤ input.length
    ∧ ∀ fuel, input.length < fuel → readAttributes fuel input = some (attributes, rest)

/-- An attribute as it is written, up to its value. -/
def attributeOpening (name : String) : List Char :=
  ' ' :: (name.toList ++ ['=', quotationMark])

namespace ReadsAttributes

/-- Nothing but the end of the tag. -/
theorem done {c : Char} (hspace : isXmlSpace c = false) (hname : isNameStart c = false)
    (rest : List Char) : ReadsAttributes (c :: rest) [] (c :: rest) := by
  have hskip : skipSpace (c :: rest) = c :: rest :=
    List.dropWhile_cons_of_neg (by rw [hspace]; exact Bool.false_ne_true)
  have hnone : readName (c :: rest) = none := by
    unfold readName
    dsimp only
    rw [if_neg (by rw [hname]; exact Bool.false_ne_true)]
  refine ⟨Nat.le_refl _, ?_⟩
  intro fuel hfuel
  obtain ⟨fuel, rfl⟩ := Nat.exists_eq_add_one_of_ne_zero (Nat.ne_zero_of_lt hfuel)
  unfold readAttributes
  rw [hskip, hnone]

theorem readEqValue_eq {text value middle : List Char}
    (h : ReadsValue quotationMark text value middle) :
    readEqValue ('=' :: quotationMark :: text) = some (value, middle) := by
  have hskip : skipSpace ('=' :: quotationMark :: text) = '=' :: quotationMark :: text := rfl
  have hskip' : skipSpace (quotationMark :: text) = quotationMark :: text := rfl
  unfold readEqValue
  simp only [hskip, hskip']
  rw [if_pos (.inl rfl), h.2 _ (Nat.le_refl _)]

/-- One attribute in front. -/
theorem more {name : String} (hname : isXmlName name = true) {text value middle rest : List Char}
    {attributes : List XmlAttribute} (hvalue : ReadsValue quotationMark text value middle)
    (h : ReadsAttributes middle attributes rest) :
    ReadsAttributes (attributeOpening name ++ text)
      (⟨name, String.ofList value⟩ :: attributes) rest := by
  obtain ⟨hle, h⟩ := h
  have hinput : attributeOpening name ++ text
      = ' ' :: (name.toList ++ '=' :: quotationMark :: text) := by
    unfold attributeOpening
    rw [List.cons_append, List.append_assoc]
    rfl
  have hlength : (attributeOpening name ++ text).length = name.toList.length + text.length + 3 := by
    rw [hinput, List.length_cons, List.length_append, List.length_cons, List.length_cons]
    omega
  refine ⟨by have := hvalue.1; omega, ?_⟩
  intro fuel hfuel
  obtain ⟨fuel, rfl⟩ := Nat.exists_eq_add_one_of_ne_zero (Nat.ne_zero_of_lt hfuel)
  have hskip : skipSpace (attributeOpening name ++ text)
      = name.toList ++ '=' :: quotationMark :: text := by
    rw [hinput]
    unfold isXmlName at hname
    split at hname
    · rename_i first others hlist
      have hfirst := (Bool.and_eq_true_iff.mp hname).1
      rw [hlist]
      show List.dropWhile isXmlSpace (first :: (others ++ _)) = _
      apply List.dropWhile_cons_of_neg
      rw [isXmlSpace_of_isNameStart hfirst]
      exact Bool.false_ne_true
    · cases hname
  unfold readAttributes
  rw [hskip, readName_append hname (by decide)]
  dsimp only
  rw [if_neg (by rw [hinput]; intro heq; exact absurd (congrArg List.length heq) (by simp)),
    readEqValue_eq hvalue]
  have hrest := h fuel (by have := hvalue.1; omega)
  simp only [Option.bind_eq_bind, Option.bind_some, hrest, String.ofList_toList]
  rfl

end ReadsAttributes

/-- A start tag. -/
theorem readMarkup_start {name : String} (hname : isXmlName name = true) {c : Char}
    (hc : isXmlNameChar c = false) {input rest : List Char} {attributes : List XmlAttribute}
    (h : ReadsAttributes (c :: input) attributes ('>' :: rest))
    (hkeys : (attributes.map XmlAttribute.key).Nodup) :
    readMarkup (name.toList ++ c :: input) = some ([.start name attributes], rest) := by
  have htag : readTag (name.toList ++ c :: input) = some ([.start name attributes], rest) := by
    unfold readTag
    rw [readName_append hname hc]
    simp only [Option.bind_eq_bind, Option.bind_some, h.2 _ (Nat.lt_succ_self _), if_pos hkeys,
      String.ofList_toList]
  unfold isXmlName at hname
  split at hname
  · rename_i first others hlist
    have hfirst := (Bool.and_eq_true_iff.mp hname).1
    rw [← htag, hlist, List.cons_append]
    unfold readMarkup
    split
    · exact absurd hfirst (by rename_i heq; rw [(List.cons.inj heq).1]; decide)
    · exact absurd hfirst (by rename_i heq; rw [(List.cons.inj heq).1]; decide)
    · exact absurd hfirst (by rename_i heq; rw [(List.cons.inj heq).1]; decide)
    · exact absurd hfirst (by rename_i heq; rw [(List.cons.inj heq).1]; decide)
    · rfl
  · cases hname

/-- An end tag. -/
theorem readMarkup_finish {name : String} (hname : isXmlName name = true) (rest : List Char) :
    readMarkup ('/' :: (name.toList ++ '>' :: rest)) = some ([.finish name], rest) := by
  show readEndTag (name.toList ++ '>' :: rest) = _
  have hskip : skipSpace ('>' :: rest) = '>' :: rest := rfl
  unfold readEndTag
  rw [readName_append hname (by decide)]
  simp only [Option.bind_eq_bind, Option.bind_some, hskip, String.ofList_toList]

/-! ## Nesting -/

/-- The tags are nested, so that they leave the elements around them open. -/
def Balanced (infos : List XmlInfo) : Prop :=
  ∀ top below rest, nestContent (top :: below) (infos ++ rest)
    = (nestContent (top :: below) rest).map (infos ++ ·)

namespace Balanced

variable {infos infos' : List XmlInfo}

theorem nil : Balanced [] := by
  intro top below rest
  exact (Option.map_id_fun' ▸ rfl)

theorem char (c : Char) : Balanced [.char c] := by
  intro top below rest
  rfl

theorem append (h : Balanced infos) (h' : Balanced infos') : Balanced (infos ++ infos') := by
  intro top below rest
  rw [List.append_assoc, h, h', Option.map_map]
  congr 1
  funext l
  exact (List.append_assoc _ _ _).symm

theorem flatMap {α : Type} {f : α → List XmlInfo} {l : List α} (h : ∀ a ∈ l, Balanced (f a)) :
    Balanced (l.flatMap f) := by
  induction l with
  | nil => exact nil
  | cons a rest ih =>
    rw [List.flatMap_cons]
    exact (h a List.mem_cons_self).append (ih fun b hb => h b (List.mem_cons_of_mem a hb))

/-- Characters. -/
theorem chars (text : List Char) : Balanced (text.map XmlInfo.char) := by
  induction text with
  | nil => exact nil
  | cons c rest ih => exact (char c).append ih

/-- An element. -/
theorem element (name : String) (attributes : List XmlAttribute) (h : Balanced infos) :
    Balanced (.start name attributes :: (infos ++ [.finish name])) := by
  intro top below rest
  have hfinish : nestContent (name :: top :: below) (.finish name :: rest)
      = (nestContent (top :: below) rest).map (.finish name :: ·) := by
    show (if name = name then _ else none) = _
    rw [if_pos rfl]
  rw [List.cons_append, List.append_assoc]
  show (nestContent (name :: top :: below) (infos ++ ([.finish name] ++ rest))).map _ = _
  rw [h, List.singleton_append, hfinish, Option.map_map, Option.map_map]
  congr 1
  funext l
  show XmlInfo.start name attributes :: (infos ++ XmlInfo.finish name :: l) = _
  rw [List.cons_append, List.append_assoc]
  rfl

end Balanced

/-- The root element, when what it contains is nested. -/
theorem nestDocument_root {before after infos : List XmlInfo} {name : String}
    {attributes : List XmlAttribute} (hbefore : before.all XmlInfo.isSpace = true)
    (hafter : after.all XmlInfo.isSpace = true) (h : Balanced infos) :
    nestDocument (before ++ .start name attributes :: (infos ++ .finish name :: after))
      = some (.start name attributes :: (infos ++ [.finish name])) := by
  have hfinish : nestContent [name] (.finish name :: after) = some [.finish name] := by
    show (if name = name ∧ after.all XmlInfo.isSpace = true then _ else none) = _
    rw [if_pos ⟨rfl, hafter⟩]
  unfold nestDocument
  rw [List.dropWhile_append_of_pos (List.all_eq_true.mp hbefore)]
  show (nestContent [name] (infos ++ .finish name :: after)).map _ = _
  rw [h, hfinish]
  rfl

end Pdfv
