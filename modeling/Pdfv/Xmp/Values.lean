import Pdfv.Xmp.Detection
/-!
# Recorded values and XML values

A packet as a sequence of XML items. `XmlTrace` runs the builder over them as if references were
delivered as text, and notes for every property where in the packet its value stands.
`recordsXmlValues_iff` says when the code's own run records the XML values.
-/

namespace Pdfv

open Fallible Trim

/-! ## Where a value comes from -/

/-- Where a recorded property comes from: an attribute, the character data of an element, or the
start of an array. -/
inductive XmlOrigin where
  | attr (value : List XmlAttributePiece)
  | element (data : List XmlPiece)
  | container

namespace XmlOrigin

/-- The XML value without the white space at its ends. -/
def value : XmlOrigin → String
  | attr pieces =>
    String.ofList (trim isWhitespace (pieces.flatMap XmlAttributePiece.decoded))
  | element data => String.ofList (trim isWhitespace (characterData data))
  | container => ""

/-- The value that the builder records: attributes as they are written, character data as the reader
hands it on. -/
def recorded : XmlOrigin → String
  | attr pieces =>
    String.ofList (trim isWhitespace (pieces.flatMap XmlAttributePiece.spelled))
  | element data => String.ofList (trim isWhitespace (shown (markedData data)))
  | container => ""

/-- The attribute has no reference; no run of the character data begins or ends with white space
that lies between two other characters. -/
def Plain : XmlOrigin → Prop
  | attr pieces => ∀ piece ∈ pieces, piece.isReference = false
  | element data => ∀ x ∈ trim (isWhitespace ∘ Prod.fst) (markedData data), x.2 = true
  | container => True

instance : DecidablePred Plain
  | attr pieces => inferInstanceAs (Decidable (∀ piece ∈ pieces, piece.isReference = false))
  | element data => inferInstanceAs
    (Decidable (∀ x ∈ trim (isWhitespace ∘ Prod.fst) (markedData data), x.2 = true))
  | container => inferInstanceAs (Decidable True)

end XmlOrigin

/-! ## Where the properties of a packet stand -/

namespace PacketBuilder

variable (b : PacketBuilder)

/-- Attributes of this name are recorded as properties. -/
def captures (key : String) : Bool :=
  match namespaceDeclPrefix key, splitXmlName key with
  | none, .ok (name, localName) =>
    name.text ≠ "xml" && (b.resolvePrefix name).toOption.any fun uri => isRdfProperty uri localName
  | _, _ => false

/-- The newest element opens an array inside a property. -/
def opensArray : Bool :=
  match b.stack with
  | frame :: stack => ({ b with stack := stack }.arrayContainer frame).isSome
  | [] => false

/-- What a start tag records, in the state after it. -/
def startOrigins (tag : XmlTag) : List XmlOrigin :=
  ((tag.attributes.filter fun attr => b.captures attr.key).map fun attr => .attr attr.value)
    ++ if b.opensArray then [.container] else []

/-- What an end tag records, in the state before it, for an element with this character data. -/
def closeOrigins (data : List XmlPiece) : List XmlOrigin :=
  match b.stack with
  | frame :: stack =>
    if trimText frame.text ≠ "" ∧ ({ b with stack := stack }.recordedFrame frame).isSome then
      [.element data]
    else []
  | [] => []

end PacketBuilder

/-- The texts that are delivered for a part when its reference is. -/
def XmlPiece.texts : XmlPiece → List String
  | run value =>
    if trim isXmlSpace value.toList = [] then []
    else [String.ofList (trim isXmlSpace value.toList)]
  | cData value => [value]
  | reference ref => [String.ofList [ref.value]]

/-- A run of the builder in which references are delivered as text, with the parts of the character
data of the open elements, and with the origins of the properties. -/
structure XmlTrace where
  builder : PacketBuilder
  openData : List (List XmlPiece)
  origins : List XmlOrigin

namespace XmlTrace

variable (t : XmlTrace)

def start (tag : XmlTag) : Except PdfvError XmlTrace := do
  let b ← t.builder.start tag.raw
  return ⟨b, [] :: t.openData, t.origins ++ b.startOrigins tag⟩

def close : Except PdfvError XmlTrace := do
  let b ← t.builder.close
  return ⟨b, t.openData.tail, t.origins ++ t.builder.closeOrigins (t.openData.head?.getD [])⟩

/-- The newest open element gets one more part. -/
def addPiece (piece : XmlPiece) : List (List XmlPiece) → List (List XmlPiece)
  | [] => []
  | data :: rest => (data ++ [piece]) :: rest

/-- One item. -/
def item (t : XmlTrace) : XmlItem → Except PdfvError XmlTrace
  | .start tag => t.start tag
  | .empty tag => do (← t.start tag).close
  | .close _ => t.close
  | .data piece => do
    let b ← piece.texts.foldlM PacketBuilder.text t.builder
    return ⟨b, addPiece piece t.openData, t.origins⟩
  | .pi target content => do
    let b ← t.builder.processingInstruction target content
    return { t with builder := b }
  | .comment => .ok t
  | .decl => .ok t

end XmlTrace

/-- The item is a reference in content. -/
def XmlItem.isReference : XmlItem → Bool
  | data (.reference _) => true
  | _ => false

/-- The property with another value. -/
def XmpProperty.withValue (property : XmpProperty) (origin : XmlOrigin) : XmpProperty :=
  { property with value := ⟨origin.value⟩ }

/-- The builder takes the delivered events in, it records the properties of the packet with their
XML values, and the packet is not refused as hostile. -/
def RecordsXmlValues (first : PacketBuilder) (items : List XmlItem) (t : XmlTrace) : Prop :=
  ∃ b, first.run ⟨items.flatMap XmlItem.events, none⟩ = .ok b
    ∧ b.properties = List.zipWith XmpProperty.withValue t.builder.properties t.origins
    ∧ ∀ e, b.finish = .error e → (malformedFact (packetErrorReason e)).isHostile = false

/-! ## Values and origins -/

theorem trimText_ofList (cs : List Char) :
    trimText (String.ofList cs) = String.ofList (trim isWhitespace cs) := by
  unfold trimText
  rw [String.toList_ofList]

theorem isWhitespace_of_isXmlSpace {c : Char} (h : isXmlSpace c = true) :
    isWhitespace c = true := by
  unfold isXmlSpace at h
  unfold isWhitespace
  simp only [Bool.or_eq_true, decide_eq_true_eq] at h
  simp only [Bool.or_eq_true, Bool.and_eq_true, decide_eq_true_eq]
  omega

theorem countP_trim (p : Char → Bool) (l : List Char) :
    (trim p l).countP (fun c => !p c) = l.countP (fun c => !p c) := by
  have hnone : ∀ l : List Char, (∀ c ∈ l, p c = true) → l.countP (fun c => !p c) = 0 := by
    intro l hl
    rw [List.countP_eq_zero]
    intro c hc
    simp [hl c hc]
  have hparts := congrArg (List.countP fun c => !p c) (leading_append (p := p) (l := l))
  rw [List.countP_append, List.countP_append, hnone _ fun c => leading_spec,
    hnone _ fun c => trailing_spec] at hparts
  omega

/-- A reference is written with more characters other than white space than it stands for. -/
theorem countP_spelled_lt (ref : XmlReference) :
    [ref.value].countP (fun c => !isWhitespace c)
      < ref.spelled.countP fun c => !isWhitespace c := by
  have hamp : isWhitespace '&' = false := by decide
  have hsemi : isWhitespace ';' = false := by decide
  have hone : [ref.value].countP (fun c => !isWhitespace c) ≤ 1 := List.countP_le_length
  have hspelled : ref.spelled.countP (fun c => !isWhitespace c)
      = ref.name.toList.countP (fun c => !isWhitespace c) + 2 := by
    unfold XmlReference.spelled
    simp [List.countP_append, hamp, hsemi]
  omega

/-- Writing an attribute value takes at least as many characters other than white space as it has,
and more where it has a reference. -/
theorem countP_attribute (pieces : List XmlAttributePiece) :
    (pieces.flatMap XmlAttributePiece.decoded).countP (fun c => !isWhitespace c)
        + (pieces.countP XmlAttributePiece.isReference)
      ≤ (pieces.flatMap XmlAttributePiece.spelled).countP fun c => !isWhitespace c := by
  induction pieces with
  | nil => exact le_refl 0
  | cons piece rest ih =>
    rw [List.flatMap_cons, List.flatMap_cons, List.countP_append, List.countP_append,
      List.countP_cons]
    cases piece with
    | text value =>
      simp only [XmlAttributePiece.decoded, XmlAttributePiece.spelled,
        XmlAttributePiece.isReference, Bool.false_eq_true, if_false]
      omega
    | reference ref =>
      have hlt := countP_spelled_lt ref
      simp only [XmlAttributePiece.decoded, XmlAttributePiece.spelled,
        XmlAttributePiece.isReference, if_true]
      omega

theorem spelled_eq_decoded {pieces : List XmlAttributePiece}
    (h : ∀ piece ∈ pieces, piece.isReference = false) :
    pieces.flatMap XmlAttributePiece.spelled = pieces.flatMap XmlAttributePiece.decoded := by
  induction pieces with
  | nil => rfl
  | cons piece rest ih =>
    rw [List.flatMap_cons, List.flatMap_cons, ih fun piece' hpiece' =>
      h piece' (List.mem_cons_of_mem _ hpiece')]
    have hpiece := h piece List.mem_cons_self
    cases piece with
    | text value => rfl
    | reference ref => cases hpiece

theorem recorded_attr_iff (pieces : List XmlAttributePiece) :
    (XmlOrigin.attr pieces).recorded = (XmlOrigin.attr pieces).value
      ↔ (XmlOrigin.attr pieces).Plain := by
  constructor
  · intro h
    have hcount := congrArg (fun value : String =>
      value.toList.countP fun c => !isWhitespace c) h
    simp only [XmlOrigin.recorded, XmlOrigin.value, String.toList_ofList] at hcount
    rw [countP_trim, countP_trim] at hcount
    have hle := countP_attribute pieces
    have hnone : pieces.countP XmlAttributePiece.isReference = 0 := by
      omega
    intro piece hpiece
    have hpieceNot := List.countP_eq_zero.mp hnone piece hpiece
    rwa [Bool.not_eq_true] at hpieceNot
  · intro h
    simp only [XmlOrigin.recorded, XmlOrigin.value]
    rw [spelled_eq_decoded h]

theorem recorded_iff_plain (origin : XmlOrigin) : origin.recorded = origin.value ↔ origin.Plain := by
  cases origin with
  | attr pieces => exact recorded_attr_iff pieces
  | element data =>
    unfold XmlOrigin.recorded XmlOrigin.value XmlOrigin.Plain
    rw [String.ofList_inj, ← whole_markedData]
    apply trim_shown_iff
    intro x hx hhidden
    exact isWhitespace_of_isXmlSpace (hidden_markedData hx hhidden)
  | container =>
    exact ⟨fun _ => trivial, fun _ => rfl⟩

/-! ## What a step records -/

namespace PacketBuilder

/-- The property that is recorded under a frame. -/
def recordedProperty (frame : ElementFrame) (value : String) : XmpProperty where
  namespaceUri := frame.namespaceUri
  namePrefix := frame.namePrefix
  localName := frame.localName
  value := ⟨value⟩
  arrayKind := frame.arrayKind
  xmlLang := frame.xmlLang
  inPdfdDeclarations := frame.inPdfdDeclarations

/-- The facts after a property was recorded under a frame. -/
def recordedFacts (b : PacketBuilder) (frame : ElementFrame) : List XmpFact :=
  if (isIdentificationProperty frame.namespaceUri frame.localName
      && b.properties.any fun property =>
        property.namespaceUri = frame.namespaceUri ∧ property.localName = frame.localName) then
    b.facts ++ [.duplicateClaim frame.namespaceUri frame.localName]
  else b.facts

theorem insertProperty_eq_ok {b c : PacketBuilder} {frame : ElementFrame} {value : String} :
    b.insertProperty frame value = .ok c
      ↔ b.properties.length < b.limits.maxXmpProperties
        ∧ (utf8 value).length ≤ b.limits.maxXmpTextBytes
        ∧ c = { b with
            facts := b.recordedFacts frame
            properties := b.properties ++ [recordedProperty frame value] } := by
  unfold insertProperty
  constructor
  · intro h
    obtain ⟨_, hcount, h⟩ := bind_eq_ok.mp h
    obtain ⟨text, htext, h⟩ := bind_eq_ok.mp h
    obtain ⟨rfl, hlen⟩ := BoundedText.new_eq_ok htext
    rw [failIf_eq_ok] at hcount
    exact ⟨by omega, hlen, (pure_eq_ok.mp h).symm⟩
  · rintro ⟨hcount, hlen, rfl⟩
    have hnew : BoundedText.new value b.limits.maxXmpTextBytes = .ok ⟨value⟩ := by
      unfold BoundedText.new
      rw [if_neg (by omega)]
    unfold failIf
    rw [if_neg (by omega), ok_bind, hnew]
    rfl

/-- The recorded values. -/
def values (b : PacketBuilder) : List String :=
  b.properties.map fun property => property.value.text

/-- Neither the properties nor the open elements have changed. -/
def Keeps (c b : PacketBuilder) : Prop :=
  c.properties = b.properties ∧ c.stack = b.stack

theorem readNamespaces_keeps {b c : PacketBuilder} {element : XmlElement}
    (h : b.readNamespaces element = .ok c) : c.Keeps b := by
  unfold readNamespaces XmlElement.eachAttribute at h
  obtain ⟨⟨d, n⟩, hd, h⟩ := bind_eq_ok.mp h
  cases h
  obtain ⟨⟨e, k⟩, he, hd⟩ := bind_eq_ok.mp hd
  have hstep : ∀ attr ∈ element.attributes, ∀ r r' : PacketBuilder × Nat, r.1.Keeps b →
      readNamespace r attr = .ok r' → r'.1.Keeps b := by
    intro attr _ r r' hr hstep
    unfold readNamespace at hstep
    obtain ⟨_, -, hstep⟩ := bind_eq_ok.mp hstep
    split at hstep
    · obtain ⟨_, -, hstep⟩ := bind_eq_ok.mp hstep
      obtain ⟨value, -, hstep⟩ := bind_eq_ok.mp hstep
      cases hstep
      exact hr
    · cases hstep
      exact hr
  have hfold := foldlM_inv hstep (show (b, 0).1.Keeps b from ⟨rfl, rfl⟩) he
  split at hd
  · cases hd
  · cases hd
    exact hfold

theorem captureAttrProperty_values {b c : PacketBuilder} {attr : XmlAttribute}
    (h : captureAttrProperty b attr = .ok c) :
    c.stack = b.stack ∧ c.currentNamespaces = b.currentNamespaces
      ∧ c.values = b.values ++ if b.captures attr.key then [trimText attr.value] else [] := by
  unfold captureAttrProperty at h
  unfold captures
  cases hdecl : namespaceDeclPrefix attr.key with
  | some declared =>
    rw [hdecl] at h
    cases h
    exact ⟨rfl, rfl, by simp⟩
  | none =>
    rw [hdecl] at h
    obtain ⟨⟨name, localName⟩, hname, h⟩ := bind_eq_ok.mp h
    rw [hname]
    dsimp only at h ⊢
    by_cases hxml : name.text = "xml"
    · rw [if_pos hxml] at h
      cases h
      exact ⟨rfl, rfl, by simp [hxml]⟩
    · rw [if_neg hxml] at h
      obtain ⟨namespaceUri, huri, h⟩ := bind_eq_ok.mp h
      simp only [huri]
      by_cases hproperty : isRdfProperty namespaceUri localName = true
      · rw [if_pos hproperty] at h
        obtain ⟨-, -, rfl⟩ := insertProperty_eq_ok.mp h
        refine ⟨rfl, rfl, ?_⟩
        unfold values
        rw [List.map_append]
        simp [hxml, hproperty, Except.toOption, recordedProperty]
      · rw [if_neg hproperty] at h
        cases h
        exact ⟨rfl, rfl, by simp [hproperty, Except.toOption]⟩

theorem captureAttrProperties_values {b c : PacketBuilder} {tag : XmlTag}
    (h : b.captureAttrProperties tag.raw = .ok c) :
    c.stack = b.stack ∧ c.currentNamespaces = b.currentNamespaces
      ∧ c.values = b.values ++ (tag.attributes.filter fun attr => b.captures attr.key).map
          fun attr => (XmlOrigin.attr attr.value).recorded := by
  have hfold : ∀ (attributes : List XmlSourceAttribute) (b c : PacketBuilder),
      (attributes.map XmlSourceAttribute.raw).foldlM captureAttrProperty b = .ok c →
      c.stack = b.stack ∧ c.currentNamespaces = b.currentNamespaces
        ∧ c.values = b.values ++ (attributes.filter fun attr => b.captures attr.key).map
          fun attr => (XmlOrigin.attr attr.value).recorded := by
    intro attributes
    induction attributes with
    | nil =>
      intro b c h
      cases h
      exact ⟨rfl, rfl, by simp⟩
    | cons attr rest ih =>
      intro b c h
      rw [List.map_cons, List.foldlM_cons] at h
      obtain ⟨d, hd, h⟩ := bind_eq_ok.mp h
      obtain ⟨hstack, hnamespaces, hvalues⟩ := captureAttrProperty_values hd
      obtain ⟨hstack', hnamespaces', hvalues'⟩ := ih d c h
      have hcaptures : ∀ key, d.captures key = b.captures key := by
        intro key
        unfold captures resolvePrefix
        rw [hnamespaces]
      refine ⟨hstack'.trans hstack, hnamespaces'.trans hnamespaces, ?_⟩
      rw [hvalues', hvalues, List.append_assoc]
      simp only [hcaptures]
      congr 1
      rw [List.filter_cons, show attr.raw.key = attr.key from rfl]
      split
      · rw [List.map_cons, List.singleton_append,
          show trimText attr.raw.value = (XmlOrigin.attr attr.value).recorded from
            trimText_ofList _]
      · rfl
  unfold captureAttrProperties XmlElement.eachAttribute at h
  obtain ⟨d, hd, h⟩ := bind_eq_ok.mp h
  cases h
  exact hfold tag.attributes b c hd

theorem recordContainer_values {b c : PacketBuilder} {frame : ElementFrame}
    (h : b.recordContainer frame = .ok c) :
    c.stack = b.stack ∧ c.currentNamespaces = b.currentNamespaces
      ∧ c.values = b.values ++ if (b.arrayContainer frame).isSome then [""] else [] := by
  unfold recordContainer at h
  cases hcontainer : b.arrayContainer frame with
  | none =>
    rw [hcontainer] at h
    cases h
    exact ⟨rfl, rfl, by simp⟩
  | some container =>
    rw [hcontainer] at h
    obtain ⟨-, -, rfl⟩ := insertProperty_eq_ok.mp h
    refine ⟨rfl, rfl, ?_⟩
    unfold values
    rw [List.map_append]
    rfl

/-- A start tag records its origins and opens an element without text. -/
theorem start_values {b c : PacketBuilder} {tag : XmlTag} (h : b.start tag.raw = .ok c) :
    (∃ frame, c.stack = frame :: b.stack ∧ frame.text = "") 
      ∧ c.values = b.values ++ (c.startOrigins tag).map XmlOrigin.recorded := by
  unfold start at h
  obtain ⟨_, -, h⟩ := bind_eq_ok.mp h
  obtain ⟨_, -, h⟩ := bind_eq_ok.mp h
  obtain ⟨⟨name, localName⟩, -, h⟩ := bind_eq_ok.mp h
  obtain ⟨d, hd, h⟩ := bind_eq_ok.mp h
  obtain ⟨namespaceUri, -, h⟩ := bind_eq_ok.mp h
  obtain ⟨xmlLang, -, h⟩ := bind_eq_ok.mp h
  obtain ⟨e, he, h⟩ := bind_eq_ok.mp h
  obtain ⟨f, hf, h⟩ := bind_eq_ok.mp h
  obtain ⟨hproperties, hstack⟩ := readNamespaces_keeps hd
  obtain ⟨hstack', hnamespaces, hvalues⟩ := captureAttrProperties_values he
  obtain ⟨hstack'', hnamespaces', hvalues'⟩ := recordContainer_values hf
  have hwhole : f.stack = b.stack := hstack''.trans (hstack'.trans hstack)
  cases h
  refine ⟨⟨_, by rw [hwhole], rfl⟩, ?_⟩
  have hinitial : d.values = b.values := by
    unfold values
    rw [hproperties]
  show f.values = _
  rw [hvalues', hvalues, hinitial, List.append_assoc]
  congr 1
  unfold startOrigins opensArray captures resolvePrefix arrayContainer
  rw [List.map_append, List.map_map]
  dsimp only
  rw [hnamespaces', hnamespaces, hstack'']
  congr 1
  rw [apply_ite (List.map XmlOrigin.recorded)]
  rfl

/-- An end tag records its origin and closes the newest element. -/
theorem close_values {b c : PacketBuilder} {frame : ElementFrame} {stack : List ElementFrame}
    (hstack : b.stack = frame :: stack) {data : List XmlPiece}
    (hdata : frame.text = String.ofList (shown (markedData data))) (h : b.close = .ok c) :
    c.stack = stack ∧ c.values = b.values ++ (b.closeOrigins data).map XmlOrigin.recorded := by
  unfold close at h
  rw [hstack] at h
  obtain ⟨d, hd, h⟩ := bind_eq_ok.mp h
  obtain ⟨_, -, h⟩ := bind_eq_ok.mp h
  cases h
  have hvalue : trimText frame.text = (XmlOrigin.element data).recorded := by
    rw [hdata, trimText_ofList]
    rfl
  unfold closeOrigins
  rw [hstack]
  unfold recordText at hd
  dsimp only
  by_cases hempty : trimText frame.text = ""
  · rw [if_pos hempty] at hd
    cases hd
    exact ⟨rfl, by simp [hempty, values]⟩
  · rw [if_neg hempty] at hd
    cases hrecorded : ({ b with stack := stack } : PacketBuilder).recordedFrame frame with
    | none =>
      rw [hrecorded] at hd
      cases hd
      exact ⟨rfl, by simp [values]⟩
    | some recorded =>
      rw [hrecorded] at hd
      obtain ⟨-, -, rfl⟩ := insertProperty_eq_ok.mp hd
      refine ⟨rfl, ?_⟩
      rw [if_pos ⟨hempty, rfl⟩]
      unfold values
      rw [List.map_append, List.map_singleton, List.map_singleton, ← hvalue]
      rfl

/-- A text is added to the newest open element. -/
theorem text_eq_ok {b c : PacketBuilder} {frame : ElementFrame} {stack : List ElementFrame}
    {value : String} (hstack : b.stack = frame :: stack) (h : b.text value = .ok c) :
    c.stack = { frame with text := frame.text ++ value } :: stack ∧ c.values = b.values := by
  unfold text at h
  rw [hstack] at h
  obtain ⟨_, -, h⟩ := bind_eq_ok.mp h
  cases h
  exact ⟨rfl, rfl⟩

/-- Outside the root element character data is dropped. -/
theorem text_of_empty {b : PacketBuilder} (hstack : b.stack = []) (value : String) :
    b.text value = .ok b := by
  unfold text
  rw [hstack]

theorem processingInstruction_keeps {b c : PacketBuilder} {target content : String}
    (h : b.processingInstruction target content = .ok c) : c.Keeps b := by
  unfold processingInstruction at h
  obtain ⟨_, -, h⟩ := bind_eq_ok.mp h
  obtain ⟨_, -, h⟩ := bind_eq_ok.mp h
  split at h
  · obtain ⟨bytes, -, h⟩ := bind_eq_ok.mp h
    obtain ⟨encoding, -, h⟩ := bind_eq_ok.mp h
    cases h
    exact ⟨rfl, rfl⟩
  · cases h
    exact ⟨rfl, rfl⟩

end PacketBuilder

/-! ## Runs -/

namespace XmlTrace

/-- The text of an element is what was delivered of its character data. -/
def Delivered (frame : ElementFrame) (data : List XmlPiece) : Prop :=
  frame.text = String.ofList (shown (markedData data))

/-- The open elements have the texts of their data, and the recorded values are those of the
origins. -/
structure Explained (t : XmlTrace) : Prop where
  delivered : List.Forall₂ Delivered t.builder.stack t.openData
  values : t.builder.values = t.origins.map XmlOrigin.recorded

theorem new_explained (sourceObject : ObjectKey) (byteLen : Nat) (actualEncoding : Identifier)
    (limits : ResourceLimits) :
    Explained ⟨.new sourceObject byteLen actualEncoding limits, [], []⟩ :=
  ⟨List.Forall₂.nil, rfl⟩

namespace Explained

variable {t t' : XmlTrace}

theorem start (h : t.Explained) {tag : XmlTag} (hok : t.start tag = .ok t') : t'.Explained := by
  obtain ⟨c, hc, hok⟩ := bind_eq_ok.mp hok
  cases hok
  obtain ⟨⟨frame, hstack, htext⟩, hvalues⟩ := PacketBuilder.start_values hc
  refine ⟨?_, ?_⟩
  · show List.Forall₂ Delivered c.stack _
    rw [hstack]
    exact List.Forall₂.cons htext h.delivered
  · show c.values = _
    rw [hvalues, h.values, List.map_append]

theorem close (h : t.Explained) (hok : t.close = .ok t') : t'.Explained := by
  obtain ⟨c, hc, hok⟩ := bind_eq_ok.mp hok
  cases hok
  cases hstack : t.builder.stack with
  | nil =>
    unfold PacketBuilder.close at hc
    rw [hstack] at hc
    cases hc
  | cons frame stack =>
    have hdelivered := h.delivered
    rw [hstack] at hdelivered
    obtain ⟨data, rest, hframe, hrest, hopen⟩ := List.forall₂_cons_left_iff.mp hdelivered
    obtain ⟨hcstack, hvalues⟩ := PacketBuilder.close_values hstack hframe hc
    refine ⟨?_, ?_⟩
    · show List.Forall₂ Delivered c.stack _
      rw [hcstack, hopen]
      exact hrest
    · show c.values = _
      rw [hvalues, h.values, hopen, List.map_append]
      rfl

/-- The texts of a part are what is shown of it. -/
theorem texts_shown (piece : XmlPiece) :
    piece.texts = [] ∧ shown piece.marked = []
      ∨ piece.texts = [String.ofList (shown piece.marked)] := by
  cases piece with
  | run value =>
    rw [show shown (XmlPiece.marked (.run value)) = trim isXmlSpace value.toList from
      shown_markRun _]
    by_cases hnil : trim isXmlSpace value.toList = []
    · exact .inl ⟨if_pos hnil, hnil⟩
    · exact .inr (if_neg hnil)
  | cData value =>
    rw [show shown (XmlPiece.marked (.cData value)) = value.toList from shown_markAll _,
      String.ofList_toList]
    exact .inr rfl
  | reference ref =>
    exact .inr rfl

/-- Taking a part in adds what is shown of it to the newest open element. -/
theorem data (h : t.Explained) {piece : XmlPiece} (hok : t.item (.data piece) = .ok t') :
    t'.Explained := by
  obtain ⟨c, hc, hok⟩ := bind_eq_ok.mp hok
  cases hok
  cases hstack : t.builder.stack with
  | nil =>
    have hopen : t.openData = [] := by
      have hdelivered := h.delivered
      rw [hstack] at hdelivered
      exact List.forall₂_nil_left_iff.mp hdelivered
    have hsame : c = t.builder := by
      rcases texts_shown piece with ⟨htexts, -⟩ | htexts
      · rw [htexts] at hc
        cases hc
        rfl
      · rw [htexts, List.foldlM_cons, PacketBuilder.text_of_empty hstack] at hc
        cases hc
        rfl
    rw [hsame, hopen]
    exact ⟨by rw [hstack]; exact List.Forall₂.nil, h.values⟩
  | cons frame stack =>
    have hdelivered := h.delivered
    rw [hstack] at hdelivered
    obtain ⟨data, rest, hframe, hrest, hopen⟩ := List.forall₂_cons_left_iff.mp hdelivered
    have hshown : frame.text ++ String.ofList (shown piece.marked)
        = String.ofList (shown (markedData (data ++ [piece]))) := by
      rw [hframe, ← String.ofList_append, ← shown_append]
      unfold markedData
      rw [List.flatMap_append, List.flatMap_singleton]
    rcases texts_shown piece with ⟨htexts, hnil⟩ | htexts
    · rw [htexts] at hc
      cases hc
      rw [hnil, String.ofList_nil, String.append_empty] at hshown
      refine ⟨?_, h.values⟩
      rw [hstack, hopen]
      exact List.Forall₂.cons hshown hrest
    · rw [htexts, List.foldlM_cons] at hc
      obtain ⟨d, hd, hc⟩ := bind_eq_ok.mp hc
      cases hc
      obtain ⟨hcstack, hvalues⟩ := PacketBuilder.text_eq_ok hstack hd
      refine ⟨?_, hvalues.trans h.values⟩
      rw [hcstack, hopen]
      exact List.Forall₂.cons hshown hrest

theorem item (h : t.Explained) {item : XmlItem} (hok : t.item item = .ok t') : t'.Explained := by
  cases item with
  | start tag => exact h.start hok
  | empty tag =>
    obtain ⟨t₁, ht₁, hok⟩ := bind_eq_ok.mp hok
    exact (h.start ht₁).close hok
  | close name => exact h.close hok
  | data piece => exact h.data hok
  | pi target content =>
    obtain ⟨c, hc, hok⟩ := bind_eq_ok.mp hok
    cases hok
    obtain ⟨hproperties, hstack⟩ := PacketBuilder.processingInstruction_keeps hc
    refine ⟨?_, ?_⟩
    · rw [hstack]
      exact h.delivered
    · show c.properties.map _ = _
      rw [hproperties]
      exact h.values
  | comment =>
    cases hok
    exact h
  | decl =>
    cases hok
    exact h

theorem run (h : t.Explained) {items : List XmlItem}
    (hok : items.foldlM XmlTrace.item t = .ok t') : t'.Explained :=
  foldlM_inv (fun _ _ _ _ h hok => h.item hok) h hok

end Explained

/-- An item without a reference is taken in as the code takes it in. -/
theorem item_builder {t t' : XmlTrace} {item : XmlItem} (hitem : item.isReference = false)
    (hok : t.item item = .ok t') :
    item.events.foldlM PacketBuilder.event t.builder = .ok t'.builder := by
  have hsingle : ∀ {event : XmlEvent} {b c : PacketBuilder}, b.event event = .ok c →
      [event].foldlM PacketBuilder.event b = .ok c := by
    intro event b c h
    rw [List.foldlM_cons, h]
    rfl
  cases item with
  | start tag =>
    obtain ⟨c, hc, hok⟩ := bind_eq_ok.mp hok
    cases hok
    exact hsingle hc
  | empty tag =>
    obtain ⟨t₁, ht₁, hok⟩ := bind_eq_ok.mp hok
    obtain ⟨c, hc, ht₁⟩ := bind_eq_ok.mp ht₁
    cases ht₁
    obtain ⟨d, hd, hok⟩ := bind_eq_ok.mp hok
    cases hok
    exact hsingle (bind_eq_ok.mpr ⟨c, hc, hd⟩)
  | close name =>
    obtain ⟨c, hc, hok⟩ := bind_eq_ok.mp hok
    cases hok
    exact hsingle hc
  | data piece =>
    obtain ⟨c, hc, hok⟩ := bind_eq_ok.mp hok
    cases hok
    have hfold : ∀ texts : List String,
        (texts.map XmlEvent.text).foldlM PacketBuilder.event t.builder
          = texts.foldlM PacketBuilder.text t.builder := by
      intro texts
      rw [List.foldlM_map]
      rfl
    cases piece with
    | run value =>
      rw [← hfold] at hc
      unfold XmlPiece.texts at hc
      rw [apply_ite (List.map XmlEvent.text)] at hc
      exact hc
    | cData value => exact hc
    | reference ref => cases hitem
  | pi target content =>
    obtain ⟨c, hc, hok⟩ := bind_eq_ok.mp hok
    cases hok
    exact hsingle hc
  | comment =>
    cases hok
    rfl
  | decl =>
    cases hok
    rfl

/-- A packet without references in content is read as the code reads it. -/
theorem run_builder {t t' : XmlTrace} {items : List XmlItem}
    (hitems : ∀ item ∈ items, item.isReference = false)
    (hok : items.foldlM XmlTrace.item t = .ok t') :
    (items.flatMap XmlItem.events).foldlM PacketBuilder.event t.builder = .ok t'.builder := by
  induction items generalizing t with
  | nil =>
    cases hok
    rfl
  | cons item rest ih =>
    rw [List.foldlM_cons] at hok
    obtain ⟨t₁, ht₁, hok⟩ := bind_eq_ok.mp hok
    rw [List.flatMap_cons, List.foldlM_append, item_builder (hitems item List.mem_cons_self) ht₁,
      ok_bind]
    exact ih (fun item' hitem' => hitems item' (List.mem_cons_of_mem _ hitem')) hok

/-- A packet with a reference in content is refused at the first one. -/
theorem run_refused {t t' : XmlTrace} {items : List XmlItem}
    (hitem : ∃ item ∈ items, item.isReference = true)
    (hok : items.foldlM XmlTrace.item t = .ok t') :
    (items.flatMap XmlItem.events).foldlM PacketBuilder.event t.builder
      = .error (invalidXml PacketBuilder.forbiddenReason) := by
  induction items generalizing t with
  | nil =>
    obtain ⟨item, hmem, -⟩ := hitem
    cases hmem
  | cons first rest ih =>
    rw [List.foldlM_cons] at hok
    obtain ⟨t₁, ht₁, hok⟩ := bind_eq_ok.mp hok
    rw [List.flatMap_cons, List.foldlM_append]
    by_cases hfirst : first.isReference = true
    · obtain ⟨ref, rfl⟩ : ∃ ref, first = .data (.reference ref) := by
        unfold XmlItem.isReference at hfirst
        split at hfirst
        · exact ⟨_, rfl⟩
        · cases hfirst
      rfl
    · rw [Bool.not_eq_true] at hfirst
      rw [item_builder hfirst ht₁, ok_bind]
      apply ih _ hok
      obtain ⟨item, hmem, hreference⟩ := hitem
      rcases List.mem_cons.mp hmem with rfl | hmem
      · rw [hfirst] at hreference
        cases hreference
      · exact ⟨item, hmem, hreference⟩

/-- The recorded properties are those of the packet exactly when every value is recorded as it is. -/
theorem withValue_iff {properties : List XmpProperty} {origins : List XmlOrigin}
    (h : properties.map (fun property => property.value.text) = origins.map XmlOrigin.recorded) :
    properties = List.zipWith XmpProperty.withValue properties origins
      ↔ ∀ origin ∈ origins, origin.recorded = origin.value := by
  induction properties generalizing origins with
  | nil =>
    have hnil : origins = [] := List.map_eq_nil_iff.mp h.symm
    rw [hnil]
    simp
  | cons property rest ih =>
    cases origins with
    | nil => cases h
    | cons origin more =>
      rw [List.map_cons, List.map_cons, List.cons.injEq] at h
      obtain ⟨hvalue, hrest⟩ := h
      rw [List.zipWith_cons_cons, List.cons.injEq, ih hrest, List.forall_mem_cons]
      refine and_congr_left' ?_
      rw [← hvalue]
      unfold XmpProperty.withValue
      constructor
      · intro heq
        exact congrArg (fun property : XmpProperty => property.value.text) heq
      · intro htext
        rw [← htext]

end XmlTrace

/-! ## The values of a packet -/

/-- The properties of an XMP packet are recorded with their XML values, and the packet is not refused
as hostile, exactly when content and recorded attributes have no references and no trimmed white
space stands inside a recorded value. -/
theorem recordsXmlValues_iff (sourceObject : ObjectKey) (byteLen : Nat)
    (actualEncoding : Identifier) (limits : ResourceLimits) (items : List XmlItem) {t : XmlTrace}
    (hok : items.foldlM XmlTrace.item ⟨.new sourceObject byteLen actualEncoding limits, [], []⟩
      = .ok t) :
    RecordsXmlValues (.new sourceObject byteLen actualEncoding limits) items t
      ↔ (∀ item ∈ items, item.isReference = false) ∧ ∀ origin ∈ t.origins, origin.Plain := by
  have hexplained := (XmlTrace.new_explained sourceObject byteLen actualEncoding limits).run hok
  have hvalues := XmlTrace.withValue_iff hexplained.values
  unfold RecordsXmlValues PacketBuilder.run
  by_cases hitems : ∀ item ∈ items, item.isReference = false
  · rw [XmlTrace.run_builder hitems hok]
    constructor
    · rintro ⟨b, hb, hproperties, -⟩
      cases hb
      refine ⟨hitems, fun origin horigin => ?_⟩
      exact (recorded_iff_plain origin).mp (hvalues.mp hproperties origin horigin)
    · rintro ⟨-, hplain⟩
      refine ⟨t.builder, rfl, hvalues.mpr ?_, ?_⟩
      · intro origin horigin
        exact (recorded_iff_plain origin).mpr (hplain origin horigin)
      · intro e he
        have hnot : ¬ t.builder.Accepted := by
          intro haccepted
          obtain ⟨packet, hpacket, -⟩ := PacketBuilder.finish_of_accepted haccepted
          rw [hpacket] at he
          cases he
        obtain ⟨e', hmem, hfinish, -⟩ := PacketBuilder.finish_of_not_accepted hnot
        rw [hfinish] at he
        cases he
        exact PacketBuilder.claimErrors_reasons.1 _ hmem
  · constructor
    · rintro ⟨b, hb, -⟩
      have hreference : ∃ item ∈ items, item.isReference = true := by
        by_contra hnone
        apply hitems
        intro item hmem
        by_contra hnot
        rw [Bool.not_eq_false] at hnot
        exact hnone ⟨item, hmem, hnot⟩
      rw [XmlTrace.run_refused hreference hok] at hb
      cases hb
    · rintro ⟨hnone, -⟩
      exact absurd hnone hitems

/-- A packet of one property with this content, and an attribute. -/
def propertyPacket (content : List XmlPiece) : List XmlItem :=
  [.start ⟨"a:p", [⟨"xmlns:a", [.text "u"]⟩, ⟨"a:q", [.text "w"]⟩]⟩]
    ++ content.map XmlItem.data ++ [.close "a:p"]

/-- Where the builder of these packets starts. -/
def propertyStart : PacketBuilder :=
  .new (.ofNumber 1) 40 ⟨"UTF-8"⟩ {}

theorem propertyPacket_text_run :
    (match (propertyPacket [.run " x", .cData " y"]).foldlM XmlTrace.item ⟨propertyStart, [], []⟩ with
    | .ok t => decide (t.origins.length = 2 ∧ ∀ origin ∈ t.origins, origin.Plain)
    | .error _ => false) = true := by
  decide

/-- Text and a CDATA section, and an attribute without references. -/
theorem recordsXmlValues_text : ∃ t,
    (propertyPacket [.run " x", .cData " y"]).foldlM XmlTrace.item ⟨propertyStart, [], []⟩ = .ok t
      ∧ RecordsXmlValues propertyStart (propertyPacket [.run " x", .cData " y"]) t := by
  have hrun := propertyPacket_text_run
  split at hrun
  · rename_i t ht
    rw [decide_eq_true_eq] at hrun
    exact ⟨t, ht, (recordsXmlValues_iff _ _ _ _ _ ht).mpr ⟨by decide, hrun.2⟩⟩
  · cases hrun

/-- The reference `&amp;`. -/
def ampersand : XmlReference where
  name := "amp"
  value := '&'
  declared := ampersand_declared
  legal := ampersand_legal

theorem propertyPacket_reference_run :
    (match (propertyPacket [.run "x ", .reference ampersand]).foldlM XmlTrace.item
        ⟨propertyStart, [], []⟩,
      propertyStart.run
        ⟨(propertyPacket [.run "x ", .reference ampersand]).flatMap XmlItem.events, none⟩ with
    | .ok _, .error e => (malformedFact (packetErrorReason e)).isHostile
    | _, _ => false) = true := by
  decide

/-- A property whose value has an ampersand: the packet is refused, and refused as hostile. -/
theorem recordsXmlValues_reference_counterexample : ∃ t e,
    (propertyPacket [.run "x ", .reference ampersand]).foldlM XmlTrace.item ⟨propertyStart, [], []⟩
      = .ok t
    ∧ propertyStart.run
        ⟨(propertyPacket [.run "x ", .reference ampersand]).flatMap XmlItem.events, none⟩ = .error e
    ∧ (malformedFact (packetErrorReason e)).isHostile = true
    ∧ ¬ RecordsXmlValues propertyStart (propertyPacket [.run "x ", .reference ampersand]) t := by
  have hrun := propertyPacket_reference_run
  split at hrun
  · rename_i t e ht he
    refine ⟨t, e, ht, he, hrun, ?_⟩
    rintro ⟨b, hb, -⟩
    rw [he] at hb
    cases hb
  · cases hrun

end Pdfv
