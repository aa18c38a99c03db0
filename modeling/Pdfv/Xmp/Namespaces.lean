import Pdfv.Basic.Pairing
import Pdfv.Xmp.Values
/-!
# Names in namespaces

What a prefix is bound to where an element or an attribute stands, and the names under which the
builder records its properties. The bindings of a tag are undone at its end (`balanced_bindings`),
and an element gets the namespace of its prefix; but the default namespace, which is not for
attributes, is given to attributes without a prefix. `namesResolve_iff` says that this is all that
goes wrong.
-/

namespace Pdfv

open Fallible

/-! ## Bindings -/

/-- The URI that a tag declares for a prefix, `""` for the default namespace. -/
def XmlElement.declared (element : XmlElement) (name : String) : Option String :=
  (element.attributes.reverse.find? fun attr => namespaceDeclPrefix attr.key = some name).map
    XmlAttribute.value

/-- The URI that the innermost open element that declares the prefix declares for it. -/
def declaredUri (name : String) : List XmlElement → Option String
  | [] => none
  | element :: outer => (element.declared name).or (declaredUri name outer)

/-- The URI that a prefix is bound to; without a declaration no prefix means no namespace. -/
def boundUri (name : String) (scope : List XmlElement) : Option String :=
  (declaredUri name scope).or (if name = "" then some "" else none)

/-- What a property is recorded for: the innermost of these open elements, or one of its
attributes. -/
inductive NameOrigin where
  | element (scope : List XmlElement)
  | attr (scope : List XmlElement) (key : String)

namespace NameOrigin

def name : NameOrigin → String
  | element scope => (scope.head?.map XmlElement.name).getD ""
  | attr _ key => key

/-- The URI that belongs to a prefix here. The default namespace is for elements only. -/
def uri (name : String) : NameOrigin → Option String
  | element scope => boundUri name scope
  | attr scope _ => if name = "" then none else boundUri name scope

end NameOrigin

/-- The property has the name of its origin, and its URI is the one its prefix is bound to there. -/
structure NamedAs (property : XmpProperty) (origin : NameOrigin) : Prop where
  name : splitXmlName origin.name = .ok (property.namePrefix, property.localName)
  uri : origin.uri property.namePrefix.text = some property.namespaceUri.text

/-- The open elements after an event. -/
def XmlEvent.scopeAfter (scope : List XmlElement) : XmlEvent → List XmlElement
  | .start element => element :: scope
  | .close _ => scope.tail
  | _ => scope

namespace PacketBuilder

variable (b : PacketBuilder)

/-- What a start tag records, in the state after it. -/
def startNames (element : XmlElement) (scope : List XmlElement) : List NameOrigin :=
  ((element.attributes.filter fun attr => b.captures attr.key).map fun attr =>
      .attr (element :: scope) attr.key)
    ++ if b.opensArray then [.element scope] else []

/-- What an end tag records, in the state before it: the text of an array item belongs to the element
around the array. -/
def closeNames (scope : List XmlElement) : List NameOrigin :=
  match b.stack with
  | frame :: stack =>
    if trimText frame.text ≠ "" ∧ ({ b with stack := stack }.recordedFrame frame).isSome then
      [.element
        (if ({ b with stack := stack }.arrayItemProperty frame).isSome then scope.drop 2 else scope)]
    else []
  | [] => []

/-- What an event records, in the state before it, with these elements open. -/
def eventNames (scope : List XmlElement) : XmlEvent → List NameOrigin
  | .start element => (b.start element).toOption.elim [] fun c => c.startNames element scope
  | .empty element => (b.start element).toOption.elim [] fun c => c.startNames element scope
  | .close _ => b.closeNames scope
  | _ => []

/-- What the properties that a run records are recorded for. -/
def nameOrigins (b : PacketBuilder) (scope : List XmlElement) : List XmlEvent → List NameOrigin
  | [] => []
  | event :: rest =>
    b.eventNames scope event
      ++ (b.event event).toOption.elim [] fun c => c.nameOrigins (event.scopeAfter scope) rest

end PacketBuilder

/-! ## Attributes without a prefix -/

/-- The attribute has no prefix, and with the default namespace its name is that of a property. -/
def XmlAttribute.Defaulted (attr : XmlAttribute) (scope : List XmlElement) : Prop :=
  namespaceDeclPrefix attr.key = none
    ∧ ∃ localName uri, splitXmlName attr.key = .ok (⟨""⟩, localName)
      ∧ boundUri "" scope = some uri ∧ isRdfProperty ⟨uri⟩ localName = true

/-- No attribute of the tag is such. -/
def XmlEvent.Prefixed (scope : List XmlElement) : XmlEvent → Prop
  | .start element => ∀ attr ∈ element.attributes, ¬ attr.Defaulted (element :: scope)
  | .empty element => ∀ attr ∈ element.attributes, ¬ attr.Defaulted (element :: scope)
  | _ => True

/-- No attribute of any tag is such. -/
def AllPrefixed (scope : List XmlElement) : List XmlEvent → Prop
  | [] => True
  | event :: rest => event.Prefixed scope ∧ AllPrefixed (event.scopeAfter scope) rest

/-! ## WellNested sequences -/

/-- The event neither opens an element nor closes one. -/
def XmlEvent.isLeaf : XmlEvent → Bool
  | .start _ => false
  | .close _ => false
  | _ => true

/-- Every element that is opened is closed. -/
inductive WellNested : List XmlEvent → Prop
  | nil : WellNested []
  | leaf {event : XmlEvent} {rest : List XmlEvent} (hevent : event.isLeaf = true)
      (hrest : WellNested rest) : WellNested (event :: rest)
  | element {element : XmlElement} {name : String} {inner rest : List XmlEvent}
      (hinner : WellNested inner) (hrest : WellNested rest) :
      WellNested (.start element :: (inner ++ .close name :: rest))

/-- The properties of a run have the names that XML gives them, and after every balanced part of it
the bindings are those before it. -/
structure NamesResolve (first : PacketBuilder) (events : List XmlEvent) (last : PacketBuilder) :
    Prop where
  named : List.Forall₂ NamedAs last.properties (first.nameOrigins [] events)
  restored : ∀ before inner after, events = before ++ (inner ++ after) → WellNested inner →
    ∀ b c, before.foldlM PacketBuilder.event first = .ok b →
      inner.foldlM PacketBuilder.event b = .ok c → c.currentNamespaces = b.currentNamespaces

/-! ## Scopes -/

/-- The bindings are those that the open elements declare. -/
def Binds (namespaces : OrdMap String BoundedText) (scope : List XmlElement) : Prop :=
  ∀ name, (namespaces.get? name).map BoundedText.text = declaredUri name scope

/-- The frames belong to the open elements: each has the name of its element, the URI of its prefix,
and the bindings from outside the element. -/
inductive Frames : List ElementFrame → List XmlElement → Prop
  | nil : Frames [] []
  | cons {frame : ElementFrame} {stack : List ElementFrame} {element : XmlElement}
      {scope : List XmlElement}
      (hname : splitXmlName element.name = .ok (frame.namePrefix, frame.localName))
      (huri : boundUri frame.namePrefix.text (element :: scope) = some frame.namespaceUri.text)
      (hsaved : Binds frame.previousNamespaces scope) (hrest : Frames stack scope) :
      Frames (frame :: stack) (element :: scope)

/-- The name of the innermost open element. -/
theorem Frames.head {frame : ElementFrame} {stack : List ElementFrame} {scope : List XmlElement}
    (h : Frames (frame :: stack) scope) :
    splitXmlName (NameOrigin.element scope).name = .ok (frame.namePrefix, frame.localName)
      ∧ boundUri frame.namePrefix.text scope = some frame.namespaceUri.text := by
  cases h with
  | cons hname huri _ _ => exact ⟨hname, huri⟩

namespace PacketBuilder

variable {b c d : PacketBuilder} {scope : List XmlElement}

/-- The bindings that the open elements restore at their ends. -/
def saved (b : PacketBuilder) : List (OrdMap String BoundedText) :=
  b.stack.map ElementFrame.previousNamespaces

structure Scoped (b : PacketBuilder) (scope : List XmlElement) : Prop where
  binds : Binds b.currentNamespaces scope
  frames : Frames b.stack scope

/-- A part of a run records properties for these origins, and they have the names of their origins
exactly when `good` holds. -/
structure Records (b c : PacketBuilder) (origins : List NameOrigin) (good : Prop) : Prop where
  recorded : ∃ properties, c.properties = b.properties ++ properties
    ∧ properties.length = origins.length ∧ (List.Forall₂ NamedAs properties origins ↔ good)

theorem Records.none (h : c.properties = b.properties) : Records b c [] True :=
  ⟨[], by rw [h, List.append_nil], rfl, by simp⟩

theorem Records.one {property : XmpProperty} {origin : NameOrigin}
    (h : c.properties = b.properties ++ [property]) :
    Records b c [origin] (NamedAs property origin) :=
  ⟨[property], h, rfl, by simp⟩

theorem Records.trans {origins origins' : List NameOrigin} {good good' : Prop}
    (h : Records b c origins good) (h' : Records c d origins' good') :
    Records b d (origins ++ origins') (good ∧ good') := by
  obtain ⟨properties, hc, hlen, hgood⟩ := h.recorded
  obtain ⟨properties', hd, hlen', hgood'⟩ := h'.recorded
  refine ⟨properties ++ properties', by rw [hd, hc, List.append_assoc], ?_, ?_⟩
  · rw [List.length_append, List.length_append, hlen, hlen']
  · rw [Pairing.append_iff hlen, hgood, hgood']

theorem Records.congr {origins : List NameOrigin} {good good' : Prop}
    (h : Records b c origins good) (hiff : good ↔ good') : Records b c origins good' := by
  obtain ⟨properties, hc, hlen, hgood⟩ := h.recorded
  exact ⟨properties, hc, hlen, hgood.trans hiff⟩

/-! ## Prefixes -/

theorem resolvePrefix_bound (h : Binds b.currentNamespaces scope) {name : Identifier}
    {uri : BoundedText} (hresolve : b.resolvePrefix name = .ok uri) :
    boundUri name.text scope = some uri.text := by
  unfold boundUri
  rw [← h name.text]
  unfold resolvePrefix at hresolve
  cases hget : b.currentNamespaces.get? name.text with
  | some uri' =>
    rw [hget] at hresolve
    cases hresolve
    rfl
  | none =>
    rw [hget] at hresolve
    dsimp only at hresolve
    split at hresolve
    · rename_i hempty
      cases hresolve
      rw [if_pos hempty]
      rfl
    · cases hresolve

/-- One attribute binds the prefix that it declares, and no other. -/
theorem readNamespace_binds {attr : XmlAttribute} {r r' : PacketBuilder × Nat}
    (h : readNamespace r attr = .ok r') (name : String) :
    (r'.1.currentNamespaces.get? name).map BoundedText.text
      = if namespaceDeclPrefix attr.key = some name then some attr.value
        else (r.1.currentNamespaces.get? name).map BoundedText.text := by
  unfold readNamespace at h
  obtain ⟨_, -, h⟩ := bind_eq_ok.mp h
  cases hdecl : namespaceDeclPrefix attr.key with
  | none =>
    rw [hdecl] at h
    cases h
    rw [if_neg (by simp)]
  | some declared =>
    rw [hdecl] at h
    obtain ⟨_, -, h⟩ := bind_eq_ok.mp h
    obtain ⟨value, hvalue, h⟩ := bind_eq_ok.mp h
    obtain ⟨rfl, -⟩ := BoundedText.new_eq_ok hvalue
    cases h
    dsimp only
    rw [OrdMap.get?_insert]
    by_cases hname : name = declared
    · rw [if_pos hname, if_pos (by rw [hname])]
      rfl
    · rw [if_neg hname, if_neg fun heq => hname (Option.some.inj heq).symm]

theorem readNamespaces_binds {element : XmlElement} (h : b.readNamespaces element = .ok c)
    (name : String) :
    (c.currentNamespaces.get? name).map BoundedText.text
      = (element.declared name).or ((b.currentNamespaces.get? name).map BoundedText.text) := by
  have hfold : ∀ (attributes : List XmlAttribute) (r r' : PacketBuilder × Nat),
      attributes.foldlM readNamespace r = .ok r' →
      (r'.1.currentNamespaces.get? name).map BoundedText.text
        = ((attributes.reverse.find? fun attr => namespaceDeclPrefix attr.key = some name).map
            XmlAttribute.value).or ((r.1.currentNamespaces.get? name).map BoundedText.text) := by
    intro attributes
    induction attributes with
    | nil =>
      intro r r' h
      cases h
      rfl
    | cons attr rest ih =>
      intro r r' h
      rw [List.foldlM_cons] at h
      obtain ⟨q, hq, h⟩ := bind_eq_ok.mp h
      rw [ih q r' h, readNamespace_binds hq, List.reverse_cons, List.find?_append, Option.map_or,
        Option.or_assoc, List.find?_singleton]
      by_cases hattr : namespaceDeclPrefix attr.key = some name
      · simp [hattr]
      · simp [hattr]
  unfold readNamespaces XmlElement.eachAttribute at h
  obtain ⟨⟨d, n⟩, hd, h⟩ := bind_eq_ok.mp h
  cases h
  obtain ⟨r, hr, hd⟩ := bind_eq_ok.mp hd
  split at hd
  · cases hd
  · cases hd
    exact hfold element.attributes (b, 0) _ hr

/-! ## Attributes -/

/-- The bindings and the open elements are the same. -/
structure SameScope (b c : PacketBuilder) : Prop where
  stack : c.stack = b.stack
  namespaces : c.currentNamespaces = b.currentNamespaces

theorem SameScope.trans (h : b.SameScope c) (h' : c.SameScope d) : b.SameScope d :=
  ⟨h'.stack.trans h.stack, h'.namespaces.trans h.namespaces⟩

theorem SameScope.scoped (h : b.SameScope c) (hb : b.Scoped scope) : c.Scoped scope :=
  ⟨h.namespaces ▸ hb.binds, h.stack ▸ hb.frames⟩

theorem insertProperty_scope {frame : ElementFrame} {value : String}
    (h : b.insertProperty frame value = .ok c) : b.SameScope c := by
  obtain ⟨-, -, rfl⟩ := insertProperty_eq_ok.mp h
  exact ⟨rfl, rfl⟩

theorem SameScope.captures (h : b.SameScope c) (key : String) : c.captures key = b.captures key := by
  unfold PacketBuilder.captures resolvePrefix
  rw [h.namespaces]

theorem captures_declaration {key : String} {name : String}
    (hdecl : namespaceDeclPrefix key = some name) : b.captures key = false := by
  unfold PacketBuilder.captures
  rw [hdecl]

theorem captures_xml {key : String} {name localName : Identifier}
    (hname : splitXmlName key = .ok (name, localName)) (hxml : name.text = "xml") :
    b.captures key = false := by
  unfold PacketBuilder.captures
  rw [hname]
  cases namespaceDeclPrefix key with
  | none => simp [hxml]
  | some _ => rfl

theorem captures_of_resolved {key : String} {name localName : Identifier} {uri : BoundedText}
    (hdecl : namespaceDeclPrefix key = none) (hname : splitXmlName key = .ok (name, localName))
    (hxml : name.text ≠ "xml") (huri : b.resolvePrefix name = .ok uri) :
    b.captures key = isRdfProperty uri localName := by
  unfold PacketBuilder.captures
  rw [hdecl, hname]
  simp [hxml, huri, Except.toOption]

/-- An attribute with a prefix that is recorded has the namespace of its prefix; one without a prefix
is recorded under a name that it does not have. -/
theorem captureAttrProperty_names (hb : Binds b.currentNamespaces scope) {attr : XmlAttribute}
    (h : captureAttrProperty b attr = .ok c) :
    b.SameScope c ∧ Records b c (if b.captures attr.key then [.attr scope attr.key] else [])
      (¬ attr.Defaulted scope) := by
  unfold captureAttrProperty at h
  unfold XmlAttribute.Defaulted
  cases hdecl : namespaceDeclPrefix attr.key with
  | some declared =>
    rw [hdecl] at h
    cases h
    rw [captures_declaration hdecl]
    exact ⟨⟨rfl, rfl⟩, (Records.none rfl).congr (by simp)⟩
  | none =>
    rw [hdecl] at h
    obtain ⟨⟨name, localName⟩, hname, h⟩ := bind_eq_ok.mp h
    dsimp only at h
    rw [hname]
    by_cases hxml : name.text = "xml"
    · rw [if_pos hxml] at h
      cases h
      rw [captures_xml hname hxml]
      refine ⟨⟨rfl, rfl⟩, (Records.none rfl).congr (iff_of_true trivial ?_)⟩
      rintro ⟨-, localName', uri, hname', -⟩
      rw [(Prod.mk.inj (Except.ok.inj hname')).1] at hxml
      exact absurd hxml (by decide)
    · rw [if_neg hxml] at h
      obtain ⟨uri, huri, h⟩ := bind_eq_ok.mp h
      have hbound := resolvePrefix_bound hb huri
      rw [captures_of_resolved hdecl hname hxml huri]
      by_cases hproperty : isRdfProperty uri localName = true
      · rw [if_pos hproperty] at h ⊢
        have hscope := insertProperty_scope h
        obtain ⟨-, -, rfl⟩ := insertProperty_eq_ok.mp h
        refine ⟨hscope, (Records.one rfl).congr ⟨?_, ?_⟩⟩
        · rintro hnamed ⟨-, localName', uri', hname', -⟩
          have huri' : (if name.text = "" then none else boundUri name.text scope)
            = some uri.text := hnamed.uri
          rw [if_pos (by rw [(Prod.mk.inj (Except.ok.inj hname')).1])] at huri'
          cases huri'
        · intro hplain
          have hne : name.text ≠ "" := by
            intro hempty
            refine hplain ⟨rfl, localName, uri.text, ?_, ?_, hproperty⟩
            · rw [show name = ⟨""⟩ from congrArg Identifier.mk hempty]
            · rw [← hempty]
              exact hbound
          refine ⟨hname, ?_⟩
          show (if name.text = "" then none else boundUri name.text scope) = some uri.text
          rw [if_neg hne]
          exact hbound
      · rw [if_neg hproperty] at h ⊢
        cases h
        refine ⟨⟨rfl, rfl⟩, (Records.none rfl).congr (iff_of_true trivial ?_)⟩
        rintro ⟨-, localName', uri', hname', huri', hproperty'⟩
        obtain ⟨hempty, rfl⟩ := Prod.mk.inj (Except.ok.inj hname')
        rw [hempty, huri'] at hbound
        cases hbound
        exact hproperty hproperty'

theorem captureAttrProperties_names (hb : Binds b.currentNamespaces scope) {element : XmlElement}
    (h : b.captureAttrProperties element = .ok c) :
    b.SameScope c ∧ Records b c
      ((element.attributes.filter fun attr => b.captures attr.key).map fun attr =>
        .attr scope attr.key)
      (∀ attr ∈ element.attributes, ¬ attr.Defaulted scope) := by
  have hfold : ∀ (attributes : List XmlAttribute) (b c : PacketBuilder),
      Binds b.currentNamespaces scope → attributes.foldlM captureAttrProperty b = .ok c →
      b.SameScope c ∧ Records b c
        ((attributes.filter fun attr => b.captures attr.key).map fun attr => .attr scope attr.key)
        (∀ attr ∈ attributes, ¬ attr.Defaulted scope) := by
    intro attributes
    induction attributes with
    | nil =>
      intro b c _ h
      cases h
      exact ⟨⟨rfl, rfl⟩, (Records.none rfl).congr (by simp)⟩
    | cons attr rest ih =>
      intro b c hb h
      rw [List.foldlM_cons] at h
      obtain ⟨d, hd, h⟩ := bind_eq_ok.mp h
      obtain ⟨hscope, hrecords⟩ := captureAttrProperty_names hb hd
      obtain ⟨hscope', hrecords'⟩ := ih d c (hscope.namespaces ▸ hb) h
      refine ⟨hscope.trans hscope', ?_⟩
      have hwhole := (hrecords.trans hrecords').congr
        (List.forall_mem_cons (p := fun attr : XmlAttribute => ¬ attr.Defaulted scope)).symm
      simp only [hscope.captures] at hwhole
      rw [List.filter_cons]
      split
      · rename_i hcaptures
        rw [if_pos hcaptures] at hwhole
        exact hwhole
      · rename_i hcaptures
        rw [if_neg hcaptures] at hwhole
        exact hwhole
  unfold captureAttrProperties XmlElement.eachAttribute at h
  obtain ⟨d, hd, h⟩ := bind_eq_ok.mp h
  split at h
  · cases h
  · cases h
    exact hfold element.attributes b c hb hd

/-! ## Elements -/

theorem recordContainer_names (hframes : Frames b.stack scope) {frame : ElementFrame}
    (h : b.recordContainer frame = .ok c) :
    b.SameScope c
      ∧ Records b c (if (b.arrayContainer frame).isSome then [.element scope] else []) True := by
  unfold recordContainer at h
  cases hcontainer : b.arrayContainer frame with
  | none =>
    rw [hcontainer] at h
    cases h
    exact ⟨⟨rfl, rfl⟩, Records.none rfl⟩
  | some container =>
    rw [hcontainer] at h
    have hscope := insertProperty_scope h
    obtain ⟨-, -, rfl⟩ := insertProperty_eq_ok.mp h
    refine ⟨hscope, (Records.one rfl).congr (iff_of_true ?_ trivial)⟩
    unfold arrayContainer at hcontainer
    split at hcontainer
    · split at hcontainer
      · rename_i property stack hstack
        split at hcontainer
        · cases hcontainer
          rw [hstack] at hframes
          exact ⟨hframes.head.1, hframes.head.2⟩
        · cases hcontainer
      · cases hcontainer
    · cases hcontainer

/-- A start tag opens an element of its name, in the namespace of its prefix, whose frame keeps the
bindings from before it. -/
theorem start_names (hb : b.Scoped scope) {element : XmlElement} (h : b.start element = .ok c) :
    c.Scoped (element :: scope)
      ∧ (∃ frame, c.stack = frame :: b.stack ∧ frame.text = ""
        ∧ frame.previousNamespaces = b.currentNamespaces)
      ∧ Records b c (c.startNames element scope)
        (∀ attr ∈ element.attributes, ¬ attr.Defaulted (element :: scope)) := by
  unfold start at h
  obtain ⟨_, -, h⟩ := bind_eq_ok.mp h
  obtain ⟨_, -, h⟩ := bind_eq_ok.mp h
  obtain ⟨⟨name, localName⟩, hname, h⟩ := bind_eq_ok.mp h
  obtain ⟨d, hd, h⟩ := bind_eq_ok.mp h
  obtain ⟨uri, huri, h⟩ := bind_eq_ok.mp h
  obtain ⟨xmlLang, -, h⟩ := bind_eq_ok.mp h
  obtain ⟨e, he, h⟩ := bind_eq_ok.mp h
  obtain ⟨f, hf, h⟩ := bind_eq_ok.mp h
  obtain ⟨hproperties, hstack⟩ := readNamespaces_keeps hd
  have hbinds : Binds d.currentNamespaces (element :: scope) := by
    intro key
    rw [readNamespaces_binds hd, declaredUri]
    congr 1
    exact hb.binds key
  obtain ⟨hscope, hattributes⟩ := captureAttrProperties_names hbinds he
  have hframes : Frames e.stack scope := by
    rw [hscope.stack, hstack]
    exact hb.frames
  obtain ⟨hscope', hcontainer⟩ := recordContainer_names hframes hf
  have hwhole : f.stack = b.stack := hscope'.stack.trans (hscope.stack.trans hstack)
  have hnamespaces : f.currentNamespaces = d.currentNamespaces :=
    hscope'.namespaces.trans hscope.namespaces
  cases h
  refine ⟨⟨hnamespaces ▸ hbinds, ?_⟩, ⟨_, by rw [hwhole], rfl, rfl⟩, ?_⟩
  · rw [show f.stack = b.stack from hwhole]
    exact Frames.cons hname (resolvePrefix_bound hbinds huri) hb.binds hb.frames
  · have hrecords := (hattributes.trans hcontainer).congr (and_iff_left trivial)
    obtain ⟨properties, hadded, hrest⟩ := hrecords.recorded
    refine ⟨properties, hadded.trans (by rw [hproperties]), ?_⟩
    unfold captures resolvePrefix arrayContainer at hrest
    unfold startNames opensArray captures resolvePrefix arrayContainer
    dsimp only
    rw [hnamespaces, hscope'.stack]
    exact hrest

/-- The text of an element is recorded for it, and the text of an array item for the element around
the array. -/
theorem recordedFrame_names {frame recorded : ElementFrame} {stack : List ElementFrame}
    (hframes : Frames (frame :: stack) scope) (hstack : b.stack = stack)
    (h : b.recordedFrame frame = some recorded) (value : String) :
    NamedAs (recordedProperty recorded value)
      (.element (if (b.arrayItemProperty frame).isSome then scope.drop 2 else scope)) := by
  unfold recordedFrame at h
  cases hitem : b.arrayItemProperty frame with
  | none =>
    rw [hitem] at h
    dsimp only at h
    split at h
    · cases h
      exact ⟨hframes.head.1, hframes.head.2⟩
    · cases h
  | some property =>
    rw [hitem] at h
    cases h
    unfold arrayItemProperty at hitem
    rw [hstack] at hitem
    split at hitem
    · split at hitem
      · rename_i array property stack'
        split at hitem
        · cases hitem
          cases hframes with
          | cons _ _ _ hframes =>
            cases hframes with
            | cons _ _ _ hframes => exact ⟨hframes.head.1, hframes.head.2⟩
        · cases hitem
      · cases hitem
    · cases hitem

theorem close_names (hb : b.Scoped scope) (h : b.close = .ok c) :
    c.Scoped scope.tail
      ∧ (∃ frame, b.stack = frame :: c.stack ∧ c.currentNamespaces = frame.previousNamespaces)
      ∧ Records b c (b.closeNames scope) True := by
  have hframes := hb.frames
  unfold close at h
  unfold closeNames
  cases hstack : b.stack with
  | nil =>
    rw [hstack] at h
    cases h
  | cons frame stack =>
    rw [hstack] at h hframes
    obtain ⟨d, hd, h⟩ := bind_eq_ok.mp h
    obtain ⟨_, -, h⟩ := bind_eq_ok.mp h
    cases h
    dsimp only
    have hscoped : Binds frame.previousNamespaces scope.tail ∧ Frames stack scope.tail := by
      cases hframes with
      | cons _ _ hsaved hrest => exact ⟨hsaved, hrest⟩
    unfold recordText at hd
    by_cases hempty : trimText frame.text = ""
    · rw [if_pos hempty] at hd
      cases hd
      rw [if_neg (by simp [hempty])]
      exact ⟨⟨hscoped.1, hscoped.2⟩, ⟨frame, rfl, rfl⟩, Records.none rfl⟩
    · rw [if_neg hempty] at hd
      cases hrecorded : ({ b with stack := stack } : PacketBuilder).recordedFrame frame with
      | none =>
        rw [hrecorded] at hd
        cases hd
        rw [if_neg (by simp)]
        exact ⟨⟨hscoped.1, hscoped.2⟩, ⟨frame, rfl, rfl⟩, Records.none rfl⟩
      | some recorded =>
        rw [hrecorded] at hd
        obtain ⟨-, -, rfl⟩ := insertProperty_eq_ok.mp hd
        rw [if_pos ⟨hempty, rfl⟩]
        exact ⟨⟨hscoped.1, hscoped.2⟩, ⟨frame, rfl, rfl⟩, (Records.one rfl).congr
          (iff_of_true (recordedFrame_names hframes rfl hrecorded _) trivial)⟩

/-- Text, and markup other than tags, changes no binding and no name. -/
theorem text_names (hb : b.Scoped scope) {value : String} (h : b.text value = .ok c) :
    c.Scoped scope ∧ c.saved = b.saved ∧ c.currentNamespaces = b.currentNamespaces
      ∧ c.properties = b.properties := by
  unfold text at h
  cases hstack : b.stack with
  | nil =>
    rw [hstack] at h
    cases h
    exact ⟨hb, rfl, rfl, rfl⟩
  | cons frame stack =>
    rw [hstack] at h
    obtain ⟨_, -, h⟩ := bind_eq_ok.mp h
    cases h
    have hframes := hb.frames
    rw [hstack] at hframes
    refine ⟨⟨hb.binds, ?_⟩, ?_, rfl, rfl⟩
    · cases hframes with
      | cons hname huri hsaved hrest => exact Frames.cons hname huri hsaved hrest
    · unfold saved
      rw [hstack]
      rfl

theorem processingInstruction_names {target content : String}
    (h : b.processingInstruction target content = .ok c) :
    b.SameScope c ∧ c.properties = b.properties := by
  unfold processingInstruction at h
  obtain ⟨_, -, h⟩ := bind_eq_ok.mp h
  obtain ⟨_, -, h⟩ := bind_eq_ok.mp h
  split at h
  · obtain ⟨bytes, -, h⟩ := bind_eq_ok.mp h
    obtain ⟨encoding, -, h⟩ := bind_eq_ok.mp h
    cases h
    exact ⟨⟨rfl, rfl⟩, rfl⟩
  · cases h
    exact ⟨⟨rfl, rfl⟩, rfl⟩

theorem eventNames_start {element : XmlElement} (h : b.start element = .ok c) :
    b.eventNames scope (.start element) = c.startNames element scope := by
  show ((b.start element).toOption.elim [] fun c => c.startNames element scope) = _
  rw [h]
  rfl

theorem eventNames_empty {element : XmlElement} (h : b.start element = .ok c) :
    b.eventNames scope (.empty element) = c.startNames element scope := by
  show ((b.start element).toOption.elim [] fun c => c.startNames element scope) = _
  rw [h]
  rfl

/-- An empty element records what its start tag records: it has no text. -/
theorem empty_names (hb : b.Scoped scope) {element : XmlElement}
    (h : b.event (.empty element) = .ok c) :
    c.Scoped scope ∧ c.saved = b.saved ∧ c.currentNamespaces = b.currentNamespaces
      ∧ Records b c (b.eventNames scope (.empty element))
        (∀ attr ∈ element.attributes, ¬ attr.Defaulted (element :: scope)) := by
  obtain ⟨d, hd, h⟩ := bind_eq_ok.mp h
  obtain ⟨hscoped, ⟨frame, hstack, htext, hprevious⟩, hrecords⟩ := start_names hb hd
  obtain ⟨hscoped', ⟨frame', hstack', hnamespaces⟩, hrecords'⟩ := close_names hscoped h
  obtain ⟨rfl, hrest⟩ := List.cons.inj (hstack.symm.trans hstack')
  refine ⟨hscoped', by unfold saved; rw [hrest], hnamespaces.trans hprevious, ?_⟩
  have hnone : d.closeNames (element :: scope) = [] := by
    unfold closeNames
    rw [hstack]
    dsimp only
    rw [if_neg]
    rintro ⟨hne, -⟩
    exact hne (by rw [htext]; rfl)
  have hwhole := (hrecords.trans hrecords').congr (and_iff_left trivial)
  rw [hnone, List.append_nil] at hwhole
  rw [eventNames_empty hd]
  exact hwhole

/-- One event: the open elements follow it, and the names it records are right exactly when no
attribute is recorded without a prefix. -/
theorem event_names (hb : b.Scoped scope) {event : XmlEvent} (h : b.event event = .ok c) :
    c.Scoped (event.scopeAfter scope)
      ∧ Records b c (b.eventNames scope event) (event.Prefixed scope) := by
  cases event with
  | start element =>
    obtain ⟨hscoped, -, hrecords⟩ := start_names hb h
    rw [eventNames_start h]
    exact ⟨hscoped, hrecords⟩
  | empty element =>
    obtain ⟨hscoped, -, -, hrecords⟩ := empty_names hb h
    exact ⟨hscoped, hrecords⟩
  | close name =>
    obtain ⟨hscoped, -, hrecords⟩ := close_names hb h
    exact ⟨hscoped, hrecords⟩
  | text value =>
    obtain ⟨hscoped, -, -, hproperties⟩ := text_names hb h
    exact ⟨hscoped, Records.none hproperties⟩
  | cData value =>
    obtain ⟨hscoped, -, -, hproperties⟩ := text_names hb h
    exact ⟨hscoped, Records.none hproperties⟩
  | pi target content =>
    obtain ⟨hscope, hproperties⟩ := processingInstruction_names h
    exact ⟨hscope.scoped hb, Records.none hproperties⟩
  | decl =>
    cases h
    exact ⟨hb, Records.none rfl⟩
  | comment =>
    cases h
    exact ⟨hb, Records.none rfl⟩
  | docType => cases h
  | generalRef name => cases h

/-- A run records the right names exactly when no attribute is recorded without a prefix. -/
theorem events_names (hb : b.Scoped scope) {events : List XmlEvent}
    (h : events.foldlM event b = .ok c) :
    Records b c (b.nameOrigins scope events) (AllPrefixed scope events) := by
  induction events generalizing b scope with
  | nil =>
    cases h
    exact Records.none rfl
  | cons event rest ih =>
    rw [List.foldlM_cons] at h
    obtain ⟨d, hd, h⟩ := bind_eq_ok.mp h
    obtain ⟨hscoped, hrecords⟩ := event_names hb hd
    have hwhole := hrecords.trans (ih hscoped h)
    unfold nameOrigins
    rw [hd]
    exact hwhole

/-! ## Restoring -/

theorem leaf_bindings (hb : b.Scoped scope) {event : XmlEvent} (hleaf : event.isLeaf = true)
    (h : b.event event = .ok c) :
    c.Scoped scope ∧ c.saved = b.saved ∧ c.currentNamespaces = b.currentNamespaces := by
  cases event with
  | start element => cases hleaf
  | close name => cases hleaf
  | empty element =>
    obtain ⟨hscoped, hsaved, hnamespaces, -⟩ := empty_names hb h
    exact ⟨hscoped, hsaved, hnamespaces⟩
  | text value =>
    obtain ⟨hscoped, hsaved, hnamespaces, -⟩ := text_names hb h
    exact ⟨hscoped, hsaved, hnamespaces⟩
  | cData value =>
    obtain ⟨hscoped, hsaved, hnamespaces, -⟩ := text_names hb h
    exact ⟨hscoped, hsaved, hnamespaces⟩
  | pi target content =>
    obtain ⟨hscope, -⟩ := processingInstruction_names h
    exact ⟨hscope.scoped hb, by unfold saved; rw [hscope.stack], hscope.namespaces⟩
  | decl =>
    cases h
    exact ⟨hb, rfl, rfl⟩
  | comment =>
    cases h
    exact ⟨hb, rfl, rfl⟩
  | docType => cases h
  | generalRef name => cases h

/-- After a balanced sequence the bindings are those before it. -/
theorem balanced_bindings {events : List XmlEvent} (hevents : WellNested events) (hb : b.Scoped scope)
    (h : events.foldlM event b = .ok c) :
    c.Scoped scope ∧ c.saved = b.saved ∧ c.currentNamespaces = b.currentNamespaces := by
  induction hevents generalizing b c scope with
  | nil =>
    cases h
    exact ⟨hb, rfl, rfl⟩
  | leaf hleaf _ ih =>
    rw [List.foldlM_cons] at h
    obtain ⟨d, hd, h⟩ := bind_eq_ok.mp h
    obtain ⟨hscoped, hsaved, hnamespaces⟩ := leaf_bindings hb hleaf hd
    obtain ⟨hscoped', hsaved', hnamespaces'⟩ := ih hscoped h
    exact ⟨hscoped', hsaved'.trans hsaved, hnamespaces'.trans hnamespaces⟩
  | element _ _ ihinner ihrest =>
    rw [List.foldlM_cons] at h
    obtain ⟨d, hd, h⟩ := bind_eq_ok.mp h
    rw [List.foldlM_append] at h
    obtain ⟨e, he, h⟩ := bind_eq_ok.mp h
    rw [List.foldlM_cons] at h
    obtain ⟨f, hf, h⟩ := bind_eq_ok.mp h
    obtain ⟨hscoped, ⟨frame, hstack, -, hprevious⟩, -⟩ := start_names hb hd
    obtain ⟨hscoped', hsaved', -⟩ := ihinner hscoped he
    obtain ⟨hscoped'', ⟨frame', hstack', hnamespaces⟩, -⟩ := close_names hscoped' hf
    -- The frame that the end tag takes off saves what the frame of the start tag saved.
    unfold saved at hsaved'
    rw [hstack, hstack', List.map_cons, List.map_cons] at hsaved'
    obtain ⟨hframe, hrest⟩ := List.cons.inj hsaved'
    obtain ⟨hscoped₄, hsaved₄, hnamespaces₄⟩ := ihrest hscoped'' h
    exact ⟨hscoped₄, hsaved₄.trans hrest,
      hnamespaces₄.trans (hnamespaces.trans (hframe.trans hprevious))⟩

theorem new_scoped (sourceObject : ObjectKey) (byteLen : Nat) (actualEncoding : Identifier)
    (limits : ResourceLimits) :
    (PacketBuilder.new sourceObject byteLen actualEncoding limits).Scoped [] :=
  ⟨fun _ => rfl, Frames.nil⟩

theorem events_scoped (hb : b.Scoped scope) {events : List XmlEvent}
    (h : events.foldlM event b = .ok c) : ∃ scope', c.Scoped scope' := by
  have hstep : ∀ e ∈ events, ∀ d d' : PacketBuilder, (∃ scope', d.Scoped scope') →
      d.event e = .ok d' → ∃ scope', d'.Scoped scope' := by
    rintro e - d d' ⟨scope', hd⟩ hstep
    exact ⟨_, (event_names hd hstep).1⟩
  exact foldlM_inv hstep (show ∃ scope', b.Scoped scope' from ⟨scope, hb⟩) h

end PacketBuilder

theorem named_iff_prefixed (sourceObject : ObjectKey) (byteLen : Nat) (actualEncoding : Identifier)
    (limits : ResourceLimits) {events : List XmlEvent} {b : PacketBuilder}
    (h : (PacketBuilder.new sourceObject byteLen actualEncoding limits).run ⟨events, none⟩
      = .ok b) :
    List.Forall₂ NamedAs b.properties
        ((PacketBuilder.new sourceObject byteLen actualEncoding limits).nameOrigins [] events)
      ↔ AllPrefixed [] events := by
  obtain ⟨c, hc, h⟩ := bind_eq_ok.mp h
  cases h
  have hnew := PacketBuilder.new_scoped sourceObject byteLen actualEncoding limits
  obtain ⟨properties, hadded, -, hgood⟩ := (PacketBuilder.events_names hnew hc).recorded
  have hproperties : b.properties = properties := hadded.trans (List.nil_append _)
  rw [hproperties, hgood]

/-- The names are those of XML exactly when no attribute without a prefix is recorded. -/
theorem namesResolve_iff (sourceObject : ObjectKey) (byteLen : Nat) (actualEncoding : Identifier)
    (limits : ResourceLimits) {events : List XmlEvent} {b : PacketBuilder}
    (h : (PacketBuilder.new sourceObject byteLen actualEncoding limits).run ⟨events, none⟩
      = .ok b) :
    NamesResolve (.new sourceObject byteLen actualEncoding limits) events b
      ↔ AllPrefixed [] events := by
  rw [← named_iff_prefixed sourceObject byteLen actualEncoding limits h]
  constructor
  · exact NamesResolve.named
  · intro hnamed
    refine ⟨hnamed, ?_⟩
    rintro before inner after rfl hinner d e hd he
    obtain ⟨scope, hscoped⟩ := PacketBuilder.events_scoped
      (PacketBuilder.new_scoped sourceObject byteLen actualEncoding limits) hd
    exact (PacketBuilder.balanced_bindings hinner hscoped he).2.2

/-- An element that declares a namespace with one attribute and has one more attribute. -/
def identificationElement (declaration key : String) : List XmlEvent :=
  [.empty ⟨"x", [⟨declaration, pdfAIdNs⟩, ⟨key, "1"⟩], none⟩]

theorem exists_run {events : List XmlEvent}
    (h : (propertyStart.run ⟨events, none⟩).toOption.isSome = true) :
    ∃ b, (PacketBuilder.new (.ofNumber 1) 40 ⟨"UTF-8"⟩ {}).run ⟨events, none⟩ = .ok b := by
  cases hrun : propertyStart.run ⟨events, none⟩ with
  | error e =>
    rw [hrun] at h
    cases h
  | ok b => exact ⟨b, hrun⟩

/-- `<x xmlns:a="http://www.aiim.org/pdfa/ns/id/" a:part="1"/>`. -/
theorem namesResolve_prefixed : ∃ b,
    NamesResolve (.new (.ofNumber 1) 40 ⟨"UTF-8"⟩ {}) (identificationElement "xmlns:a" "a:part") b := by
  obtain ⟨b, hrun⟩ : ∃ b, (PacketBuilder.new (.ofNumber 1) 40 ⟨"UTF-8"⟩ {}).run
      ⟨identificationElement "xmlns:a" "a:part", none⟩ = .ok b := exists_run (by decide)
  refine ⟨b, (namesResolve_iff _ _ _ _ hrun).mpr ⟨?_, trivial⟩⟩
  intro attr hattr
  rcases List.mem_cons.mp hattr with rfl | hattr
  · rintro ⟨hdecl, -⟩
    exact absurd hdecl (by decide)
  · rw [List.mem_singleton.mp hattr]
    rintro ⟨-, localName, uri, hname, -⟩
    have hsplit : splitXmlName "a:part" = .ok (⟨"a"⟩, ⟨"part"⟩) := by rfl
    rw [hsplit] at hname
    exact absurd (congrArg Identifier.text (Prod.mk.inj (Except.ok.inj hname)).1) (by decide)

/-- `<x xmlns="http://www.aiim.org/pdfa/ns/id/" part="1"/>`: the attribute is in no namespace, and it
is recorded as the part of a PDF/A identification. -/
theorem namesResolve_unprefixed : ∃ b,
    (PacketBuilder.new (.ofNumber 1) 40 ⟨"UTF-8"⟩ {}).run
      ⟨identificationElement "xmlns" "part", none⟩ = .ok b
    ∧ ¬ NamesResolve (.new (.ofNumber 1) 40 ⟨"UTF-8"⟩ {}) (identificationElement "xmlns" "part") b := by
  obtain ⟨b, hrun⟩ : ∃ b, (PacketBuilder.new (.ofNumber 1) 40 ⟨"UTF-8"⟩ {}).run
      ⟨identificationElement "xmlns" "part", none⟩ = .ok b := exists_run (by decide)
  refine ⟨b, hrun, fun hresolve => ?_⟩
  have hprefixed := ((named_iff_prefixed _ _ _ _ hrun).mp hresolve.named).1
  refine hprefixed ⟨"part", "1"⟩ (by simp) ⟨by decide, ⟨"part"⟩, pdfAIdNs, by rfl, ?_, by decide⟩
  rfl

end Pdfv
