import Pdfv.Core.Types
import Pdfv.Basic.Trim
/-!
# XML sources and the events of the reader

An XML text as a sequence of items, with references spelled and with their values, and the events
that the XML reader, which is another crate, delivers for it: text is split at references, CDATA
sections and other markup, and every text event is trimmed on both sides.
-/

namespace Pdfv

open Trim

/-! ## Events -/

/-- One attribute as it stands in the tag, its value not decoded. -/
structure XmlAttribute where
  key : String
  value : String
deriving DecidableEq, Repr

/-- `BytesStart`: the name, the attributes the iterator yields, and the text of the error after
which it stops. -/
structure XmlElement where
  name : String
  attributes : List XmlAttribute
  attributeError : Option String := none
deriving DecidableEq, Repr

/-- `quick_xml::events::Event`. -/
inductive XmlEvent where
  | start (element : XmlElement)
  | empty (element : XmlElement)
  | text (value : String)
  | close (name : String)
  | pi (target content : String)
  | cData (value : String)
  | decl
  | comment
  | docType
  | generalRef (name : String)
deriving DecidableEq, Repr

/-- What a reader delivers for one text: the events up to the end of the input, or up to an error
with its text. -/
structure XmlReading where
  events : List XmlEvent
  failure : Option String := none
deriving DecidableEq, Repr

/-! ## References -/

/-- The predefined entities of XML. -/
def predefinedEntity (name : String) : Option Char :=
  if name = "amp" then some '&'
  else if name = "lt" then some '<'
  else if name = "gt" then some '>'
  else if name = "apos" then some (Char.ofNat 39)
  else if name = "quot" then some (Char.ofNat 34)
  else none

/-- The value of a hexadecimal digit. -/
def hexDigitValue (c : Char) : Option Nat :=
  if c.isDigit then some (c.toNat - 48)
  else if 97 ≤ c.toNat ∧ c.toNat ≤ 102 then some (c.toNat - 87)
  else if 65 ≤ c.toNat ∧ c.toNat ≤ 70 then some (c.toNat - 55)
  else none

/-- The number that a non-empty run of digits spells in a base. -/
def spelledNumber (base : Nat) (digitValue : Char → Option Nat) (digits : List Char) : Option Nat :=
  if digits.isEmpty then none
  else digits.foldlM (fun n c => (digitValue c).map (n * base + ·)) 0

/-- The name of a reference is a number sign and the number of the character, decimal or, after an
`x`, hexadecimal. -/
def IsCharacterReference (name : String) (value : Char) : Prop :=
  match name.toList with
  | '#' :: 'x' :: digits => spelledNumber 16 hexDigitValue digits = some value.toNat
  | '#' :: digits =>
    spelledNumber 10 (fun c => if c.isDigit then some (c.toNat - 48) else none) digits
      = some value.toNat
  | _ => False

instance (name : String) (value : Char) : Decidable (IsCharacterReference name value) := by
  unfold IsCharacterReference
  split <;> infer_instance

/-- The characters of XML 1.0: TAB, LF, CR and everything from SP on but U+FFFE and U+FFFF. -/
def isXmlChar (c : Char) : Bool :=
  c.toNat = 9 || c.toNat = 10 || c.toNat = 13 || (32 ≤ c.toNat && c.toNat ≠ 0xFFFE && c.toNat ≠ 0xFFFF)

/-- A reference to a predefined entity or to a character of XML, with the character it stands
for. -/
structure XmlReference where
  name : String
  value : Char
  declared : predefinedEntity name = some value ∨ IsCharacterReference name value
  legal : isXmlChar value = true

theorem ampersand_declared : predefinedEntity "amp" = some '&' ∨ IsCharacterReference "amp" '&' :=
  .inl (by decide)

theorem ampersand_legal : isXmlChar '&' = true := by
  decide

/-- The reference as it is written. -/
def XmlReference.spelled (reference : XmlReference) : List Char :=
  '&' :: (reference.name.toList ++ [';'])

/-! ## Sources -/

/-- A part of an attribute value. -/
inductive XmlAttributePiece where
  | text (value : String)
  | reference (ref : XmlReference)

namespace XmlAttributePiece

/-- The part as it is written. -/
def spelled : XmlAttributePiece → List Char
  | text value => value.toList
  | reference ref => ref.spelled

/-- The part with its reference decoded. -/
def decoded : XmlAttributePiece → List Char
  | text value => value.toList
  | reference ref => [ref.value]

/-- The part is a reference. -/
def isReference : XmlAttributePiece → Bool
  | text _ => false
  | reference _ => true

end XmlAttributePiece

/-- An attribute of a tag. -/
structure XmlSourceAttribute where
  key : String
  value : List XmlAttributePiece

/-- The attribute as the reader hands it on. -/
def XmlSourceAttribute.raw (attr : XmlSourceAttribute) : XmlAttribute :=
  ⟨attr.key, String.ofList (attr.value.flatMap XmlAttributePiece.spelled)⟩

/-- A tag. -/
structure XmlTag where
  name : String
  attributes : List XmlSourceAttribute

/-- The tag as the reader hands it on. -/
def XmlTag.raw (tag : XmlTag) : XmlElement where
  name := tag.name
  attributes := tag.attributes.map XmlSourceAttribute.raw

/-- A part of the character data of an element: a run of characters without markup, the content of a
CDATA section, or a reference. -/
inductive XmlPiece where
  | run (value : String)
  | cData (value : String)
  | reference (ref : XmlReference)

/-- An item of an XML text that has no document type declaration. -/
inductive XmlItem where
  | start (tag : XmlTag)
  | empty (tag : XmlTag)
  | close (name : String)
  | data (piece : XmlPiece)
  | pi (target content : String)
  | comment
  | decl

/-- The white space of XML: TAB, LF, CR and SP. -/
def isXmlSpace (c : Char) : Bool :=
  c.toNat = 9 || c.toNat = 10 || c.toNat = 13 || c.toNat = 32

namespace XmlPiece

/-- The characters of the part. -/
def decoded : XmlPiece → List Char
  | run value => value.toList
  | cData value => value.toList
  | reference ref => [ref.value]

/-- The characters of the part, those that the reader trims away marked as hidden. -/
def marked : XmlPiece → List (Char × Bool)
  | run value => markRun isXmlSpace value.toList
  | cData value => markAll value.toList
  | reference ref => markAll [ref.value]

/-- The events delivered for the part; a text event that trimming empties is left out. -/
def events : XmlPiece → List XmlEvent
  | run value =>
    if trim isXmlSpace value.toList = [] then []
    else [.text (String.ofList (trim isXmlSpace value.toList))]
  | cData value => [.cData value]
  | reference ref => [.generalRef ref.name]

@[simp] theorem whole_marked (piece : XmlPiece) : whole piece.marked = piece.decoded := by
  cases piece with
  | run value => exact whole_markRun _
  | cData value => exact whole_markAll _
  | reference ref => exact whole_markAll _

theorem hidden_marked {piece : XmlPiece} {x : Char × Bool} (h : x ∈ piece.marked)
    (hx : x.2 = false) : isXmlSpace x.1 = true := by
  cases piece with
  | run value => exact hidden_markRun h hx
  | cData value => exact hidden_markAll h hx
  | reference ref => exact hidden_markAll h hx

end XmlPiece

/-- The events delivered for an item. -/
def XmlItem.events : XmlItem → List XmlEvent
  | start tag => [.start tag.raw]
  | empty tag => [.empty tag.raw]
  | close name => [.close name]
  | data piece => piece.events
  | pi target content => [.pi target content]
  | comment => [.comment]
  | decl => [.decl]

/-- The character data that the parts make up. -/
def characterData (pieces : List XmlPiece) : List Char :=
  pieces.flatMap XmlPiece.decoded

/-- The character data, the characters that the reader trims away marked as hidden. -/
def markedData (pieces : List XmlPiece) : List (Char × Bool) :=
  pieces.flatMap XmlPiece.marked

theorem whole_markedData (pieces : List XmlPiece) :
    whole (markedData pieces) = characterData pieces := by
  induction pieces with
  | nil => rfl
  | cons piece rest ih =>
    unfold markedData characterData at ih ⊢
    rw [List.flatMap_cons, List.flatMap_cons, whole_append, ih, XmlPiece.whole_marked]

theorem hidden_markedData {pieces : List XmlPiece} {x : Char × Bool} (h : x ∈ markedData pieces)
    (hx : x.2 = false) : isXmlSpace x.1 = true := by
  obtain ⟨piece, -, hmem⟩ := List.mem_flatMap.mp h
  exact XmlPiece.hidden_marked hmem hx

end Pdfv
