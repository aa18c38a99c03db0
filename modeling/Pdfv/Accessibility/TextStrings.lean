import Pdfv.Accessibility.Content
import Pdfv.Accessibility.Elements
/-!
# Text strings

A text string is stored in PDFDocEncoding, or behind a byte order mark as UTF-16BE or UTF-8. What the
model computes from a text-string entry goes through helpers that take the bytes for UTF-8 without a
mark: `textEntry_varies` says that no text comes through all three encodings.
-/

namespace Pdfv

/-! ## The three encodings -/

/-- PDFDocEncoding from 0x18 to 0x1F. -/
def pdfDocAccents : List Nat :=
  [0x02D8, 0x02C7, 0x02C6, 0x02D9, 0x02DD, 0x02DB, 0x02DA, 0x02DC]

/-- PDFDocEncoding from 0x80 to 0x9E. -/
def pdfDocSymbols : List Nat :=
  [0x2022, 0x2020, 0x2021, 0x2026, 0x2014, 0x2013, 0x0192, 0x2044, 0x2039, 0x203A, 0x2212, 0x2030,
    0x201E, 0x201C, 0x201D, 0x2018, 0x2019, 0x201A, 0x2122, 0xFB01, 0xFB02, 0x0141, 0x0152, 0x0160,
    0x0178, 0x017D, 0x0131, 0x0142, 0x0153, 0x0161, 0x017E]

/-- The code point of a byte in PDFDocEncoding; some bytes have none. -/
def pdfDocCode (code : Nat) : Option Nat :=
  if code = 0x09 ∨ code = 0x0A ∨ code = 0x0D then some code
  else if code < 0x18 then none
  else if code < 0x20 then pdfDocAccents[code - 0x18]?
  else if code = 0x7F ∨ code = 0x9F ∨ code = 0xAD then none
  else if code < 0x7F then some code
  else if code < 0xA0 then pdfDocSymbols[code - 0x80]?
  else if code = 0xA0 then some 0x20AC
  else some code

/-- The character of a byte in PDFDocEncoding. -/
def pdfDocChar (b : UInt8) : Option Char :=
  (pdfDocCode b.toNat).map Char.ofNat

/-- A character in UTF-16BE. -/
def utf16BeChar (c : Char) : Bytes :=
  let units := if c.toNat < 0x10000 then [c.toNat] else
    [0xD800 + (c.toNat - 0x10000) / 0x400, 0xDC00 + (c.toNat - 0x10000) % 0x400]
  units.flatMap fun unit => [UInt8.ofNat (unit / 256), UInt8.ofNat (unit % 256)]

/-- The ways in which a text string is stored. -/
inductive TextEncoding where
  | pdfDoc
  | utf16
  | utf8

/-- A text that PDFDocEncoding represents, with its bytes in that encoding. -/
structure StoredText (text : String) where
  pdfDoc : Bytes
  represents : pdfDoc.map pdfDocChar = text.toList.map some

/-- The text as it is stored. -/
def StoredText.stored {text : String} (s : StoredText text) : TextEncoding → PdfString
  | .pdfDoc => ⟨s.pdfDoc⟩
  | .utf16 => ⟨[0xFE, 0xFF] ++ text.toList.flatMap utf16BeChar⟩
  | .utf8 => ⟨[0xEF, 0xBB, 0xBF] ++ Pdfv.utf8 text⟩

/-! ## Reading a stored value -/

/-- `std::str::from_utf8`: the bytes are UTF-8 when the lossy reading of them loses nothing. -/
def validUtf8 (bytes : Bytes) : Option String :=
  if utf8 (utf8Lossy bytes) = bytes then some (utf8Lossy bytes) else none

/-- `object_bytes`. -/
def CosObject.objectBytes : CosObject → Option Bytes
  | .name value => some value.bytes
  | .string value => some value.bytes
  | _ => none

/-- `object_unicode_value`. -/
def objectUnicodeValue (value : CosObject) : ModelValue :=
  (value.objectBytes.bind validUtf8).elim .null textValue

/-- `object_contains_pua`. -/
def objectContainsPua (value : CosObject) : Bool :=
  (value.objectBytes.bind validUtf8).elim false fun text =>
    text.toList.any fun c => 0xE000 ≤ c.toNat && c.toNat ≤ 0xF8FF

namespace ModelDocument

variable (doc : ModelDocument)

/-- `document_info_dictionary`. -/
def documentInfoDictionary : Option Dictionary :=
  doc.trailers.getLast?.bind fun trailer =>
    match trailer.dictionary.get "Info" with
    | some (.dictionary entries) => some entries
    | some (.reference key) => (doc.objects.get? key).bind fun object => object.object.asDictionary
    | _ => none

/-- `document_info_value`. -/
def documentInfoValue (name : String) : Option CosObject :=
  doc.documentInfoDictionary.bind fun dictionary => dictionary.get name

/-- `DocumentModel::info_property`. -/
def infoProperty (name : PropertyName) : Except PdfvError ModelValue :=
  if ["Title", "Author", "Creator", "Producer", "Keywords", "Subject", "ModDate",
      "CreationDate"].contains name then
    .ok ((doc.documentInfoValue name).elim .null ModelValue.ofCos)
  else unknownProperty name

end ModelDocument

/-! ## Entries and their properties -/

/-- A property that is computed from a stored text string, and its value for the text itself. -/
structure TextProperty where
  read : PdfString → Except PdfvError ModelValue
  ofText : String → Except PdfvError ModelValue

/-- The property is the same for the three encodings, and is that of the text. -/
def TextProperty.MeansSame (property : TextProperty) {text : String} (s : StoredText text) : Prop :=
  ∀ encoding, property.read (s.stored encoding) = property.ofText text

/-- The text value of a stored string. -/
def textValueProperty : TextProperty where
  read string := .ok (ModelValue.ofCos (.string string))
  ofText text := .ok (textValue text)

/-- `unicodeValue`. -/
def unicodeValueProperty : TextProperty where
  read string := .ok (objectUnicodeValue (.string string))
  ofText text := .ok (textValue text)

/-- `containsPUA`. -/
def containsPuaProperty : TextProperty where
  read string := .ok (.bool (objectContainsPua (.string string)))
  ofText text := .ok (.bool (text.toList.any fun c => 0xE000 ≤ c.toNat && c.toNat ≤ 0xF8FF))

/-- A value of the Info dictionary: documents that hold one or the other string there. -/
structure InfoEntry where
  doc : PdfString → ModelDocument
  name : PropertyName
  known : ["Title", "Author", "Creator", "Producer", "Keywords", "Subject", "ModDate",
    "CreationDate"].contains name = true
  holds : ∀ string, (doc string).documentInfoValue name = some (.string string)

/-- The Info value of the document model. -/
def InfoEntry.property (entry : InfoEntry) : TextProperty where
  read string := (entry.doc string).infoProperty entry.name
  ofText text := .ok (textValue text)

/-- The language of the document: catalogs that hold one or the other string. -/
structure CatalogEntry where
  catalog : PdfString → Dictionary
  holds : ∀ string, (catalog string).get "Lang" = some (.string string)

/-- The `language` of the accessibility document. -/
def CatalogEntry.property (entry : CatalogEntry) : TextProperty where
  read string := .ok (optionalText ((entry.catalog string).textString "Lang"))
  ofText text := .ok (textValue text)

/-- The text-string entries of a structure element. -/
inductive ElementText where
  | actualText
  | alt
  | lang
  | id

/-- The key of the entry. -/
def ElementText.key : ElementText → String
  | actualText => "ActualText"
  | alt => "Alt"
  | lang => "Lang"
  | id => "ID"

/-- A text-string entry of a structure element: dictionaries that hold one or the other string, what
else the node is made of, and the nodes before and after it. -/
structure ElementEntry where
  doc : ModelDocument
  structTree : Dictionary
  map : List (String × String)
  pageOrdinals : OrdMap ObjectKey Nat
  graph : AccessibilityGraph
  item : TraversalItem
  role : String
  found : PdfString → KeyedDictionary
  entry : ElementText
  before : List AccessibilityNode
  after : List AccessibilityNode
  /-- A header that a cell of a table names. -/
  header : String
  holds : ∀ string, (found string).dictionary.get entry.key = some (.string string)

namespace ElementEntry

variable (entry : ElementEntry)

/-- The node of the element. -/
def node (string : PdfString) : AccessibilityNode :=
  structureNode entry.doc entry.structTree entry.map entry.pageOrdinals entry.graph entry.item
    (entry.found string) entry.role

/-- The graph with the node. -/
def finished (string : PdfString) : AccessibilityGraph :=
  { entry.graph with nodes := entry.before ++ entry.node string :: entry.after }

/-- A property of the structure element. -/
def property (name : PropertyName) : TextProperty where
  read string := structureElementProperty (entry.finished string) entry.doc (entry.node string) name
  ofText text := .ok (textValue text)

/-- Whether the header resolves to a table header, of which the element may be the one that has the
identifier. -/
def headerProperty : TextProperty where
  read string := .ok (.bool (headerResolvesToTableHeader (entry.finished string) entry.header))
  ofText text := .ok (.bool (((normalizeRole entry.role entry.map).1 = "TH" && text = entry.header)
    || (entry.before ++ entry.after).any fun other =>
      other.normalizedRole = "TH" && other.idText = some entry.header))

/-- What is computed from the entry. -/
def properties : List TextProperty :=
  match entry.entry with
  | .actualText | .alt => []
  | .lang => [entry.property "Lang"]
  | .id => [entry.property "ID", entry.property "noteID", entry.headerProperty]

end ElementEntry

/-- A key of the ID tree, met after a part of the tree was collected, and an element with an
identifier. -/
structure IdTreeEntry where
  limits : ResourceLimits
  tree : OrdMap String ObjectKey
  warnings : List ValidationWarning
  element : ObjectKey
  id : String

/-- `idTreeResolved` of the element. -/
def IdTreeEntry.property (entry : IdTreeEntry) : TextProperty where
  read string := .ok (.bool ((collectIds entry.limits entry.tree entry.warnings
    [(.string string, some (.reference entry.element))]).1.get? entry.id = some entry.element))
  ofText text :=
    let tree := if entry.tree.size ≥ entry.limits.maxParentTreeEntries then entry.tree
      else entry.tree.insert text entry.element
    .ok (.bool (tree.get? entry.id = some entry.element))

/-- A text-string entry of a document, with what else the document holds. -/
inductive TextEntry where
  | info (entry : InfoEntry)
  | catalogLang (entry : CatalogEntry)
  | element (entry : ElementEntry)
  | idTreeKey (entry : IdTreeEntry)

/-- What the model computes from an entry. -/
def TextEntry.properties (entry : TextEntry) : List TextProperty :=
  [textValueProperty, unicodeValueProperty, containsPuaProperty] ++
    match entry with
    | .info entry => [entry.property]
    | .catalogLang entry => [entry.property]
    | .element entry => entry.properties
    | .idTreeKey entry => [entry.property]

/-- Every property of the entry is the same for the three encodings, and is that of the text. -/
def TextEntry.MeansSame (entry : TextEntry) {text : String} (s : StoredText text) : Prop :=
  ∀ property ∈ entry.properties, property.MeansSame s

/-! ## The byte order mark of UTF-16 -/

theorem pdfDocCode_ne_replacement : ∀ code < 256, (pdfDocCode code).map Char.ofNat ≠ some replacement := by
  decide +kernel

/-- PDFDocEncoding has no replacement character. -/
theorem StoredText.ne_replacement {text : String} (s : StoredText text) :
    ∀ c ∈ text.toList, c ≠ replacement := by
  rintro c hc rfl
  have hmem : some replacement ∈ s.pdfDoc.map pdfDocChar := by
    rw [s.represents]
    exact List.mem_map_of_mem hc
  obtain ⟨b, -, hb⟩ := List.mem_map.mp hmem
  exact pdfDocCode_ne_replacement b.toNat b.toNat_lt hb

/-- The mark is no UTF-8: it reads as a replacement character. -/
theorem utf8Lossy_mark (bytes : Bytes) :
    ∃ rest, (utf8Lossy (0xFE :: bytes)).toList = replacement :: rest := by
  unfold utf8Lossy
  rw [String.toList_ofList, List.length_cons, utf8LossyChars]
  exact ⟨_, rfl⟩

theorem utf8Lossy_utf16_ne {text : String} (s : StoredText text) :
    utf8Lossy (s.stored .utf16).bytes ≠ text := by
  intro heq
  obtain ⟨rest, hrest⟩ := utf8Lossy_mark (0xFF :: text.toList.flatMap utf16BeChar)
  have hread : (utf8Lossy (s.stored .utf16).bytes).toList = replacement :: rest := hrest
  rw [heq] at hread
  exact s.ne_replacement replacement (by rw [hread]; exact List.mem_cons_self) rfl

theorem validUtf8_mark (bytes : Bytes) : validUtf8 (0xFE :: bytes) = none := by
  unfold validUtf8
  rw [if_neg]
  intro heq
  obtain ⟨rest, hrest⟩ := utf8Lossy_mark bytes
  unfold utf8 at heq
  rw [hrest, List.flatMap_cons] at heq
  have hhead : (String.utf8EncodeChar replacement ++ rest.flatMap String.utf8EncodeChar).head?
      = some 0xEF := rfl
  rw [heq] at hhead
  cases hhead

/-! ## The properties -/

/-- The property is a text, read as UTF-8. -/
def TextProperty.IsText (property : TextProperty) : Prop :=
  ∀ string text, property.read string = .ok (textValue (utf8Lossy string.bytes))
    ∧ property.ofText text = .ok (textValue text)

theorem TextProperty.IsText.varies {property : TextProperty} (h : property.IsText) {text : String}
    (s : StoredText text) : ¬ property.MeansSame s := by
  intro hsame
  have heq := hsame .utf16
  rw [(h (s.stored .utf16) text).1, (h (s.stored .utf16) text).2] at heq
  have htext : textValue (utf8Lossy (s.stored .utf16).bytes) = textValue text := Except.ok.inj heq
  unfold textValue at htext
  rw [ModelValue.string.injEq, BoundedText.mk.injEq] at htext
  exact utf8Lossy_utf16_ne s htext

theorem textValueProperty_isText : textValueProperty.IsText := fun _ _ => ⟨rfl, rfl⟩

/-- An Info value is never the same for the three encodings. -/
theorem InfoEntry.property_isText (entry : InfoEntry) : entry.property.IsText := by
  intro string text
  refine ⟨?_, rfl⟩
  show (entry.doc string).infoProperty entry.name = _
  unfold ModelDocument.infoProperty
  rw [if_pos entry.known, entry.holds]
  rfl

theorem CatalogEntry.property_isText (entry : CatalogEntry) : entry.property.IsText := by
  intro string text
  refine ⟨?_, rfl⟩
  show Except.ok (optionalText ((entry.catalog string).textString "Lang")) = _
  unfold Dictionary.textString
  rw [entry.holds]
  rfl

/-- Nor is the language or the identifier of a structure element. -/
theorem ElementEntry.lang_isText (entry : ElementEntry) (h : entry.entry = .lang) :
    (entry.property "Lang").IsText := by
  intro string text
  refine ⟨?_, rfl⟩
  have hholds := entry.holds string
  rw [h] at hholds
  have hlanguage : (entry.node string).language = some (utf8Lossy string.bytes) := by
    show (entry.found string).dictionary.textString "Lang" = _
    unfold Dictionary.textString
    rw [show (entry.found string).dictionary.get "Lang" = some (.string string) from hholds]
    rfl
  show Except.ok (optionalText (entry.node string).language) = _
  rw [hlanguage]
  rfl

theorem ElementEntry.id_isText (entry : ElementEntry) (h : entry.entry = .id) :
    (entry.property "ID").IsText ∧ (entry.property "noteID").IsText := by
  have hid : ∀ string, optionalText (entry.node string).idText
      = textValue (utf8Lossy string.bytes) := by
    intro string
    have hholds := entry.holds string
    rw [h] at hholds
    show optionalText ((entry.found string).dictionary.textString "ID") = _
    unfold Dictionary.textString
    rw [show (entry.found string).dictionary.get "ID" = some (.string string) from hholds]
    rfl
  exact ⟨fun string text => ⟨congrArg Except.ok (hid string), rfl⟩,
    fun string text => ⟨congrArg Except.ok (hid string), rfl⟩⟩

/-- `unicodeValue` is null for a text in UTF-16BE. -/
theorem unicodeValueProperty_varies {text : String} (s : StoredText text) :
    ¬ unicodeValueProperty.MeansSame s := by
  intro hsame
  have heq := Except.ok.inj (hsame .utf16)
  have hnull : objectUnicodeValue (.string (s.stored .utf16)) = .null := by
    have hinvalid : validUtf8 (s.stored .utf16).bytes = none := validUtf8_mark _
    unfold objectUnicodeValue CosObject.objectBytes
    dsimp only [Option.bind_some]
    rw [hinvalid]
    rfl
  rw [show objectUnicodeValue (.string (s.stored .utf16)) = textValue text from heq] at hnull
  cases hnull

/-- No text means the same in the three encodings, whatever entry holds it; no property that gives
back a text does. -/
theorem textEntry_varies (entry : TextEntry) {text : String} (s : StoredText text) :
    ¬ entry.MeansSame s
      ∧ ∀ property ∈ entry.properties, property.IsText → ¬ property.MeansSame s := by
  refine ⟨fun hsame => ?_, fun property _ htext => htext.varies s⟩
  have hmem : textValueProperty ∈ entry.properties := by
    unfold TextEntry.properties
    simp
  exact textValueProperty_isText.varies s (hsame textValueProperty hmem)

/-- A title in the Info dictionary. -/
def titleEntry : InfoEntry where
  doc string := ⟨⟨1, 7⟩, none, OrdMap.empty, [⟨[(PdfName.fromStatic "Info",
    .dictionary [(PdfName.fromStatic "Title", .string string)])], 0⟩], []⟩
  name := "Title"
  known := by decide
  holds _ := rfl

/-- The text `A`. -/
def storedLetter : StoredText "A" where
  pdfDoc := [65]
  represents := by decide

/-- The title `A` in UTF-16BE is read as two replacement characters, a NUL and the letter. -/
theorem titleEntry_utf16 :
    titleEntry.property.read (storedLetter.stored .pdfDoc) = .ok (textValue "A")
      ∧ titleEntry.property.read (storedLetter.stored .utf16)
        = .ok (textValue (String.ofList [replacement, replacement, Char.ofNat 0, 'A']))
      ∧ ¬ (TextEntry.info titleEntry).MeansSame storedLetter := by
  have hread : titleEntry.property.read (storedLetter.stored .utf16)
      = .ok (textValue (String.ofList [replacement, replacement, Char.ofNat 0, 'A'])) := by
    rw [(titleEntry.property_isText (storedLetter.stored .utf16) "A").1]
    rfl
  refine ⟨?_, hread, fun hsame => ?_⟩
  · rw [(titleEntry.property_isText (storedLetter.stored .pdfDoc) "A").1]
    rfl
  · have heq := hsame titleEntry.property (by unfold TextEntry.properties; simp) .utf16
    rw [hread] at heq
    have htext : String.ofList [replacement, replacement, Char.ofNat 0, 'A'] = "A" :=
      congrArg BoundedText.text (ModelValue.string.inj (Except.ok.inj heq))
    have hlist := congrArg String.toList htext
    rw [String.toList_ofList] at hlist
    cases hlist

end Pdfv
