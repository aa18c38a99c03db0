import Pdfv.Profile.XmlImport
/-!
# Imported texts and XML texts

A profile as a tree of rules with their text elements, and what the import hands on of the texts of
a rule. `rule_importsTexts_iff` compares it with the character data of the elements.
-/

namespace Pdfv

open Fallible Trim

/-! ## Profiles as XML -/

/-- The elements of a profile whose text is collected. -/
inductive TextElement where
  | name
  | description
  | test
  | message
deriving DecidableEq, Repr

namespace TextElement

/-- The tag. -/
def tag : TextElement → String
  | name => "name"
  | description => "description"
  | test => "test"
  | message => "message"

/-- The target that is set inside a rule. -/
def target : TextElement → XmlTextTarget
  | name => .none
  | description => .ruleDescription
  | test => .ruleTest
  | message => .ruleMessage

end TextElement

/-- A part of the content of a text element. -/
inductive XmlTextPart where
  | data (piece : XmlPiece)
  | comment
  | pi (target content : String)

/-- The item. -/
def XmlTextPart.item : XmlTextPart → XmlItem
  | data piece => .data piece
  | comment => .comment
  | pi target content => .pi target content

/-- The character data in the content of a text element. -/
def textPieces (content : List XmlTextPart) : List XmlPiece :=
  content.filterMap fun
    | .data piece => some piece
    | _ => none

/-- The tags with a meaning of their own to the import. -/
def specialTags : List String :=
  ["rule", "name", "description", "test", "message"]

/-- The item neither opens nor closes a rule or a text element. -/
def XmlItem.isMarkup : XmlItem → Bool
  | start tag => !specialTags.contains tag.name
  | empty tag => !specialTags.contains tag.name
  | close name => !specialTags.contains name
  | _ => true

/-- What stands in a rule, or outside of rules: a text element, one that is written as an empty tag,
or anything else. -/
inductive ProfilePart where
  | text (element : TextElement) (attributes : List XmlSourceAttribute)
    (content : List XmlTextPart)
  | emptyText (element : TextElement) (attributes : List XmlSourceAttribute)
  | markup (item : XmlItem) (h : item.isMarkup = true)

namespace ProfilePart

/-- The items of the part. -/
def items : ProfilePart → List XmlItem
  | text element attributes content =>
    .start ⟨element.tag, attributes⟩ :: (content.map XmlTextPart.item ++ [.close element.tag])
  | emptyText element attributes => [.empty ⟨element.tag, attributes⟩]
  | markup item _ => [item]

/-- The text element that the part is. -/
def element? : ProfilePart → Option TextElement
  | text element _ _ => some element
  | emptyText element _ => some element
  | markup _ _ => none

end ProfilePart

/-- A rule of a profile; no text element occurs twice. -/
structure ProfileRule where
  attributes : List XmlSourceAttribute
  parts : List ProfilePart
  unique : (parts.filterMap ProfilePart.element?).Nodup

/-- A profile is a sequence of rules and of what stands around them. -/
inductive ProfileNode where
  | outside (part : ProfilePart)
  | rule (rule : ProfileRule)

/-- The items of a rule without its end tag. -/
def ProfileRule.openItems (rule : ProfileRule) : List XmlItem :=
  .start ⟨"rule", rule.attributes⟩ :: rule.parts.flatMap ProfilePart.items

/-- The items of a node. -/
def ProfileNode.items : ProfileNode → List XmlItem
  | outside part => part.items
  | rule content => content.openItems ++ [.close "rule"]

/-! ## What the texts of a rule should be -/

namespace ProfilePart

/-- The text of the element as XML has it: its character data without white space at the two ends. -/
def value (element : TextElement) : ProfilePart → Option String
  | text element' _ content =>
    if element' = element then
      some (String.ofList (trim isXmlSpace (characterData (textPieces content))))
    else none
  | emptyText element' _ => if element' = element then some "" else none
  | markup _ _ => none

/-- The text as it is collected from the events. -/
def collected (element : TextElement) : ProfilePart → Option String
  | text element' _ content =>
    if element' = element then some (String.ofList (shown (markedData (textPieces content))))
    else none
  | _ => none

/-- No text run of the element begins or ends with white space that lies between two other
characters, the white space at the two ends of the whole is all in text runs, and the element is not
written as an empty tag. -/
def Plain : ProfilePart → Prop
  | text element _ content =>
    element = .name
      ∨ (∀ x ∈ trim (isXmlSpace ∘ Prod.fst) (markedData (textPieces content)), x.2 = true)
        ∧ (∀ x ∈ leading (isXmlSpace ∘ Prod.fst) (markedData (textPieces content)), x.2 = false)
        ∧ ∀ x ∈ trailing (isXmlSpace ∘ Prod.fst) (markedData (textPieces content)), x.2 = false
  | emptyText element _ => element = .name
  | markup _ _ => True

end ProfilePart

/-- The text of an element of the rule. -/
def ProfileRule.value (rule : ProfileRule) (element : TextElement) : Option String :=
  rule.parts.findSome? (ProfilePart.value element)

/-- The texts collected for a rule. -/
def XmlRuleBuilder.collected (builder : XmlRuleBuilder) : TextElement → Option BoundedText
  | .name => none
  | .description => builder.description
  | .test => builder.test
  | .message => builder.message

/-- At the end tag of a rule, the texts that are handed on to build the rule are those of its
elements. -/
def ImportState.ImportsTexts (s : ImportState) (rule : ProfileRule) : Prop :=
  ∃ builder, s.currentRule = some builder
    ∧ ∀ element, element ≠ .name →
      (builder.collected element).map BoundedText.text = rule.value element

/-- References are resolved as documented: a character reference is the character, and the name of a
predefined entity is none. -/
structure ProfileXml.ResolvesReferences (xml : ProfileXml) : Prop where
  character : ∀ name value, IsCharacterReference name value → isXmlChar value = true →
    xml.resolveCharRef name = .ok (some value)
  entity : ∀ name value, predefinedEntity name = some value → xml.resolveCharRef name = .ok none

/-! ## Collecting text -/

namespace ImportState

variable {xml : ProfileXml} {s s' : ImportState}

theorem imported_eq_ok {α : Type} {x : Except PdfvError α} {a : α} :
    imported x = .ok a ↔ x = .ok a := by
  cases x with
  | error e =>
    constructor
    · intro h
      cases h
    · intro h
      cases h
  | ok a' => exact ⟨fun h => by cases h; rfl, fun h => by cases h; rfl⟩

theorem appendXmlText_eq_ok {value : String} (h : s.appendXmlText value = .ok s') :
    s' = { s with currentTextBuffer := s.currentTextBuffer ++ value } := by
  obtain ⟨_, -, h⟩ := bind_eq_ok.mp h
  cases h
  rfl

theorem decodeXmlGeneralRef_eq (hxml : xml.ResolvesReferences) (ref : XmlReference) :
    xml.decodeXmlGeneralRef ref.name = .ok (String.ofList [ref.value]) := by
  unfold ProfileXml.decodeXmlGeneralRef
  rcases ref.declared with hentity | hcharacter
  · rw [hxml.entity _ _ hentity]
    dsimp only
    rw [hentity]
  · rw [hxml.character _ _ hcharacter ref.legal]

/-- The events of a part of the content are taken in one by one. -/
theorem part_collects (hxml : xml.ResolvesReferences) (htext : s.currentText ≠ .none)
    {part : XmlTextPart} (h : part.item.events.foldlM (event xml) s = .ok s') :
    s' = { s with currentTextBuffer := s.currentTextBuffer
      ++ String.ofList (shown (markedData (textPieces [part]))) } := by
  have happend : ∀ {value : String} {event' : XmlEvent},
      event xml s event' = imported (s.appendXmlText value) →
      [event'].foldlM (event xml) s = .ok s' →
      s' = { s with currentTextBuffer := s.currentTextBuffer ++ value } := by
    intro value event' hevent h
    rw [List.foldlM_cons, hevent] at h
    obtain ⟨s₁, hs₁, h⟩ := bind_eq_ok.mp h
    cases h
    exact appendXmlText_eq_ok (imported_eq_ok.mp hs₁)
  have hnothing : s = { s with currentTextBuffer := s.currentTextBuffer ++ String.ofList [] } := by
    rw [String.ofList_nil, String.append_empty]
  have hmarked : ∀ piece : XmlPiece, markedData (textPieces [.data piece]) = piece.marked := by
    intro piece
    exact List.flatMap_singleton _ _
  cases part with
  | comment =>
    cases h
    exact hnothing
  | pi target content =>
    cases h
    exact hnothing
  | data piece =>
    rw [hmarked]
    cases piece with
    | run value =>
      rw [show shown (XmlPiece.marked (.run value)) = trim isXmlSpace value.toList from
        shown_markRun _]
      by_cases hnil : trim isXmlSpace value.toList = []
      · rw [show (XmlTextPart.data (.run value)).item.events = [] from if_pos hnil] at h
        cases h
        rw [hnil]
        exact hnothing
      · rw [show (XmlTextPart.data (.run value)).item.events = [.text _] from if_neg hnil] at h
        refine happend ?_ h
        show imported (s.text _) = _
        unfold text
        rw [if_neg htext]
    | cData value =>
      rw [show shown (XmlPiece.marked (.cData value)) = value.toList from shown_markAll _,
        String.ofList_toList]
      refine happend ?_ h
      show imported (s.text _) = _
      unfold text
      rw [if_neg htext]
    | reference ref =>
      rw [show shown (XmlPiece.marked (.reference ref)) = [ref.value] from shown_markAll _]
      refine happend ?_ h
      show imported (s.generalRef xml ref.name) = _
      unfold generalRef
      rw [if_neg htext, decodeXmlGeneralRef_eq hxml]
      rfl

theorem content_collects (hxml : xml.ResolvesReferences) (htext : s.currentText ≠ .none)
    {content : List XmlTextPart}
    (h : ((content.map XmlTextPart.item).flatMap XmlItem.events).foldlM (event xml) s = .ok s') :
    s' = { s with currentTextBuffer := s.currentTextBuffer
      ++ String.ofList (shown (markedData (textPieces content))) } := by
  induction content generalizing s with
  | nil =>
    cases h
    rw [show textPieces [] = [] from rfl]
    rw [show String.ofList (shown (markedData [])) = "" from rfl, String.append_empty]
  | cons part rest ih =>
    rw [List.map_cons, List.flatMap_cons, List.foldlM_append] at h
    obtain ⟨s₁, hs₁, h⟩ := bind_eq_ok.mp h
    have hfirst := part_collects hxml htext hs₁
    have hrest := ih (by rw [hfirst]; exact htext) h
    have hpieces : markedData (textPieces (part :: rest))
        = markedData (textPieces [part]) ++ markedData (textPieces rest) := by
      unfold markedData textPieces
      rw [← List.flatMap_append, ← List.filterMap_append, List.singleton_append]
    rw [hrest, hfirst, hpieces, shown_append, String.ofList_append, ← String.append_assoc]

/-- Text that no element collects is dropped. -/
theorem content_ignored (htext : s.currentText = .none) (content : List XmlTextPart) :
    ((content.map XmlTextPart.item).flatMap XmlItem.events).foldlM (event xml) s = .ok s := by
  have htextEvent : ∀ value, imported (s.text value) = .ok s := by
    intro value
    unfold text
    rw [if_pos htext]
    rfl
  have hpart : ∀ part : XmlTextPart, part.item.events.foldlM (event xml) s = .ok s := by
    intro part
    cases part with
    | comment => rfl
    | pi target content => rfl
    | data piece =>
      cases piece with
      | run value =>
        show (if _ then _ else _ : List XmlEvent).foldlM (event xml) s = _
        split
        · rfl
        · show (imported (s.text _) >>= pure) = _
          rw [htextEvent]
          rfl
      | cData value =>
        show (imported (s.text _) >>= pure) = _
        rw [htextEvent]
        rfl
      | reference ref =>
        show (imported (s.generalRef xml _) >>= pure) = _
        unfold generalRef
        rw [if_pos htext]
        rfl
  induction content with
  | nil => rfl
  | cons part rest ih =>
    rw [List.map_cons, List.flatMap_cons, List.foldlM_append, hpart, ok_bind, ih]

/-! ## The texts of the open rule -/

end ImportState

/-- The texts collected for a rule after one more part of it. -/
def ProfilePart.collect (part : ProfilePart) (texts : TextElement → Option String) :
    TextElement → Option String := fun element =>
  if element = .name then none else (part.collected element).or (texts element)

namespace ImportState

variable {xml : ProfileXml} {s s' : ImportState}

/-- The texts collected for the open rule. -/
def texts (s : ImportState) : Option (TextElement → Option String) :=
  s.currentRule.map fun builder element => (builder.collected element).map BoundedText.text

/-- A step that collects no text and changes none. -/
def Quiet (s s' : ImportState) : Prop :=
  s'.currentText = s.currentText ∧ s'.texts = s.texts

theorem Quiet.refl (s : ImportState) : s.Quiet s :=
  ⟨rfl, rfl⟩

theorem readId_quiet {element : XmlElement} (h : s.readId element = .ok s') : s.Quiet s' := by
  unfold readId at h
  split at h
  · rename_i rule hrule
    obtain ⟨id, -, h⟩ := bind_eq_ok.mp h
    cases h
    refine ⟨rfl, ?_⟩
    unfold texts
    rw [hrule]
    rfl
  · cases h
    exact Quiet.refl s

theorem readReference_quiet {element : XmlElement} (h : s.readReference element = .ok s') :
    s.Quiet s' := by
  unfold readReference at h
  split at h
  · rename_i rule hrule
    obtain ⟨reference, -, h⟩ := bind_eq_ok.mp h
    cases h
    refine ⟨rfl, ?_⟩
    unfold texts
    rw [hrule]
    rfl
  · cases h
    exact Quiet.refl s

theorem countElement_eq_ok (h : s.countElement = .ok s') :
    s' = { s with elements := s.elements + 1 } := by
  obtain ⟨_, -, h⟩ := bind_eq_ok.mp h
  cases h
  rfl

/-- A start tag is checked and counted, and then looked at. -/
theorem start_eq_ok {element : XmlElement} (h : s.start element = .ok s') :
    { s with depth := s.depth + 1, elements := s.elements + 1 }.openElement element = .ok s' := by
  obtain ⟨_, -, h⟩ := bind_eq_ok.mp h
  obtain ⟨_, -, h⟩ := bind_eq_ok.mp h
  obtain ⟨s₁, hs₁, h⟩ := bind_eq_ok.mp h
  rw [countElement_eq_ok hs₁] at h
  exact h

theorem empty_quiet {element : XmlElement} (h : s.empty element = .ok s') : s.Quiet s' := by
  obtain ⟨_, -, h⟩ := bind_eq_ok.mp h
  obtain ⟨s₁, hs₁, h⟩ := bind_eq_ok.mp h
  have hcount := countElement_eq_ok hs₁
  have hquiet : s₁.Quiet s' := by
    by_cases hid : element.name = "id"
    · rw [if_pos hid] at h
      exact readId_quiet h
    · rw [if_neg hid] at h
      by_cases href : element.name = "reference"
      · rw [if_pos href] at h
        exact readReference_quiet h
      · rw [if_neg href] at h
        cases h
        exact Quiet.refl _
  rw [hcount] at hquiet
  exact hquiet

theorem close_eq_ok {name : String} (h : s.close name = .ok s') :
    ∃ s₁, s.closeElement name = .ok s₁ ∧ s' = { s₁ with depth := s₁.depth - 1 } := by
  obtain ⟨s₁, hs₁, h⟩ := bind_eq_ok.mp h
  obtain ⟨_, -, h⟩ := bind_eq_ok.mp h
  cases h
  exact ⟨s₁, hs₁, rfl⟩

/-- Markup between text elements changes no text. -/
theorem markup_quiet (htext : s.currentText = .none) {item : XmlItem} (hitem : item.isMarkup = true)
    (h : item.events.foldlM (event xml) s = .ok s') : s.Quiet s' := by
  have hsingle : ∀ {event' : XmlEvent}, [event'].foldlM (event xml) s = .ok s' →
      event xml s event' = .ok s' := by
    intro event' h
    rw [List.foldlM_cons] at h
    obtain ⟨s₁, hs₁, h⟩ := bind_eq_ok.mp h
    cases h
    exact hs₁
  cases item with
  | start tag =>
    have hstart := start_eq_ok (imported_eq_ok.mp (hsingle h))
    unfold XmlItem.isMarkup specialTags at hitem
    simp only [List.contains_cons, List.contains_nil, Bool.or_false, Bool.not_eq_true',
      Bool.or_eq_false_iff, beq_eq_false_iff_ne] at hitem
    obtain ⟨hrule, hname, hdescription, htest, hmessage⟩ := hitem
    unfold openElement at hstart
    rw [show (XmlTag.raw tag).name = tag.name from rfl] at hstart
    simp only [hrule, hname, hdescription, htest, hmessage, decide_false, Bool.false_and,
      if_false, Bool.false_eq_true] at hstart
    split at hstart
    · obtain ⟨flavour, -, hstart⟩ := bind_eq_ok.mp hstart
      cases hstart
      exact Quiet.refl s
    · split at hstart
      · have hquiet := readId_quiet hstart
        exact hquiet
      · split at hstart
        · have hquiet := readReference_quiet hstart
          exact hquiet
        · cases hstart
          exact Quiet.refl s
  | empty tag => exact empty_quiet (imported_eq_ok.mp (hsingle h))
  | close name =>
    obtain ⟨s₁, hs₁, rfl⟩ := close_eq_ok (hsingle h)
    unfold XmlItem.isMarkup specialTags at hitem
    simp only [List.contains_cons, List.contains_nil, Bool.or_false, Bool.not_eq_true',
      Bool.or_eq_false_iff, beq_eq_false_iff_ne] at hitem
    obtain ⟨hrule, hname, hdescription, htest, hmessage⟩ := hitem
    unfold closeElement at hs₁
    rw [if_neg (by simp [hname, hdescription, htest, hmessage]), if_neg hrule] at hs₁
    cases hs₁
    exact Quiet.refl s
  | data piece =>
    have hignored : (([.data piece] : List XmlTextPart).map XmlTextPart.item |>.flatMap
        XmlItem.events).foldlM (event xml) s = .ok s := content_ignored htext [.data piece]
    rw [show ([XmlTextPart.data piece].map XmlTextPart.item).flatMap XmlItem.events
      = (XmlItem.data piece).events from List.append_nil _, h] at hignored
    cases hignored
    exact Quiet.refl s
  | pi target content =>
    cases h
    exact Quiet.refl s
  | comment =>
    cases h
    exact Quiet.refl s
  | decl =>
    cases h
    exact Quiet.refl s

/-- A run over a list in front of another. -/
theorem run_append {items items' : List XmlItem}
    (h : ((items ++ items').flatMap XmlItem.events).foldlM (event xml) s = .ok s') :
    ∃ s₁, (items.flatMap XmlItem.events).foldlM (event xml) s = .ok s₁
      ∧ (items'.flatMap XmlItem.events).foldlM (event xml) s₁ = .ok s' := by
  rw [List.flatMap_append, List.foldlM_append] at h
  exact bind_eq_ok.mp h

/-- A run over an item in front of others. -/
theorem run_cons {item : XmlItem} {items : List XmlItem}
    (h : ((item :: items).flatMap XmlItem.events).foldlM (event xml) s = .ok s') :
    ∃ s₁, item.events.foldlM (event xml) s = .ok s₁
      ∧ (items.flatMap XmlItem.events).foldlM (event xml) s₁ = .ok s' := by
  rw [List.flatMap_cons, List.foldlM_append] at h
  exact bind_eq_ok.mp h

/-- A run over one event. -/
theorem run_event {event' : XmlEvent} (h : [event'].foldlM (event xml) s = .ok s') :
    event xml s event' = .ok s' := by
  rw [List.foldlM_cons] at h
  obtain ⟨s₁, hs₁, h⟩ := bind_eq_ok.mp h
  cases h
  exact hs₁

/-- The target that is set for an element, inside a rule or outside. -/
def targetOf (s : ImportState) (element : TextElement) : XmlTextTarget :=
  if s.currentRule.isSome then element.target
  else if element = .name then .profileName
  else .none

/-- The start tag of a text element. -/
theorem start_text {element : TextElement} {attributes : List XmlSourceAttribute}
    (htext : s.currentText = .none) (h : s.start (XmlTag.raw ⟨element.tag, attributes⟩) = .ok s') :
    s'.currentText = s.targetOf element ∧ s'.currentRule = s.currentRule
      ∧ (s.targetOf element ≠ .none → s'.currentTextBuffer = "") := by
  have hopen := start_eq_ok h
  unfold openElement at hopen
  rw [show (XmlTag.raw ⟨element.tag, attributes⟩).name = element.tag from rfl] at hopen
  unfold targetOf
  cases hrule : s.currentRule with
  | none =>
    cases element <;> simp [TextElement.tag, hrule] at hopen <;>
      · rw [← hopen]
        simp [collect, htext]
  | some rule =>
    cases element <;> simp [TextElement.tag, hrule] at hopen <;>
      · rw [← hopen]
        simp [collect, htext, TextElement.target]

/-- The end tag of a text element. -/
theorem close_text {element : TextElement} (h : s.close element.tag = .ok s') :
    s'.currentText = .none ∧ s'.currentRule = (s.assign ⟨s.currentTextBuffer⟩).currentRule := by
  obtain ⟨s₁, hs₁, rfl⟩ := close_eq_ok h
  unfold closeElement at hs₁
  rw [if_pos (by cases element <;> simp [TextElement.tag])] at hs₁
  obtain ⟨bounded, hbounded, hs₁⟩ := bind_eq_ok.mp hs₁
  obtain ⟨rfl, -⟩ := BoundedText.new_eq_ok (imported_eq_ok.mp hbounded)
  cases hs₁
  exact ⟨rfl, rfl⟩

/-- A text element is collected as a whole. -/
theorem text_collected (hxml : xml.ResolvesReferences) (htext : s.currentText = .none)
    {element : TextElement} {attributes : List XmlSourceAttribute} {content : List XmlTextPart}
    (h : ((ProfilePart.text element attributes content).items.flatMap XmlItem.events).foldlM
      (event xml) s = .ok s') :
    s'.currentText = .none
      ∧ s'.texts = s.texts.map (ProfilePart.text element attributes content).collect := by
  obtain ⟨s₁, hs₁, h⟩ := run_cons h
  obtain ⟨s₂, hs₂, h⟩ := run_append h
  obtain ⟨s₃, hs₃, h⟩ := run_cons h
  cases h
  obtain ⟨htarget, hrule, hbuffer⟩ := start_text htext (imported_eq_ok.mp (run_event hs₁))
  obtain ⟨hclosed, hassigned⟩ := close_text (run_event hs₃)
  refine ⟨hclosed, ?_⟩
  unfold texts
  rw [hassigned]
  by_cases hnone : s.targetOf element = .none
  · rw [content_ignored (htarget.trans hnone)] at hs₂
    cases hs₂
    unfold assign
    rw [htarget.trans hnone]
    dsimp only
    rw [hrule]
    cases hcurrent : s.currentRule with
    | none => rfl
    | some rule =>
      have hname : element = .name := by
        unfold targetOf at hnone
        rw [hcurrent] at hnone
        cases element with
        | name => rfl
        | description => cases hnone
        | test => cases hnone
        | message => cases hnone
      rw [hname]
      show some _ = some _
      congr 1
      funext element'
      cases element' <;> rfl
  · have hcollected := content_collects hxml (by rw [htarget]; exact hnone) hs₂
    rw [hbuffer hnone, String.empty_append] at hcollected
    rw [hcollected]
    unfold assign
    dsimp only
    rw [htarget, hrule]
    unfold targetOf
    cases hcurrent : s.currentRule with
    | none => cases element <;> rfl
    | some rule =>
      cases element with
      | name =>
        unfold targetOf at hnone
        rw [hcurrent] at hnone
        exact absurd rfl hnone
      | description =>
        show some _ = some _
        congr 1
        funext element'
        cases element' <;> rfl
      | test =>
        show some _ = some _
        congr 1
        funext element'
        cases element' <;> rfl
      | message =>
        show some _ = some _
        congr 1
        funext element'
        cases element' <;> rfl

/-- What stands between the tags of a rule, or of the profile. -/
theorem part_texts (hxml : xml.ResolvesReferences) (htext : s.currentText = .none)
    {part : ProfilePart}
    (h : (part.items.flatMap XmlItem.events).foldlM (event xml) s = .ok s') :
    s'.currentText = .none ∧ s'.texts = s.texts.map part.collect := by
  have hquiet : s.Quiet s' → (∀ element, part.collected element = none) →
      s'.currentText = .none ∧ s'.texts = s.texts.map part.collect := by
    rintro ⟨hcurrent, htexts⟩ hnone
    refine ⟨hcurrent.trans htext, ?_⟩
    rw [htexts]
    unfold texts
    rw [Option.map_map]
    congr 1
    funext builder element
    show _ = if element = .name then none else (part.collected element).or _
    rw [hnone, Option.none_or]
    cases element <;> rfl
  cases part with
  | text element attributes content => exact text_collected hxml htext h
  | emptyText element attributes =>
    exact hquiet (empty_quiet (imported_eq_ok.mp (run_event h))) fun _ => rfl
  | markup item hitem =>
    rw [show (ProfilePart.markup item hitem).items.flatMap XmlItem.events = item.events from
      List.append_nil _] at h
    exact hquiet (markup_quiet htext hitem h) fun _ => rfl

theorem parts_texts (hxml : xml.ResolvesReferences) (htext : s.currentText = .none)
    {parts : List ProfilePart}
    (h : ((parts.flatMap ProfilePart.items).flatMap XmlItem.events).foldlM (event xml) s
      = .ok s') :
    s'.currentText = .none
      ∧ s'.texts = s.texts.map fun texts =>
          parts.foldl (fun texts part => part.collect texts) texts := by
  induction parts generalizing s with
  | nil =>
    cases h
    exact ⟨htext, (congrFun Option.map_id _).symm⟩
  | cons part rest ih =>
    rw [List.flatMap_cons] at h
    obtain ⟨s₁, hs₁, h⟩ := run_append h
    obtain ⟨htext₁, htexts₁⟩ := part_texts hxml htext hs₁
    obtain ⟨htext', htexts'⟩ := ih htext₁ h
    refine ⟨htext', ?_⟩
    rw [htexts', htexts₁, Option.map_map]
    rfl

/-- No rule is open and no text is collected. -/
def Idle (s : ImportState) : Prop :=
  s.currentText = .none ∧ s.currentRule = none

theorem idle_of_texts (htext : s.currentText = .none) (htexts : s.texts = none) : s.Idle :=
  ⟨htext, Option.map_eq_none_iff.mp htexts⟩

/-- The start tag of a rule. -/
theorem start_rule {attributes : List XmlSourceAttribute}
    (h : s.start (XmlTag.raw ⟨"rule", attributes⟩) = .ok s') :
    s'.currentText = s.currentText ∧ s'.texts = some fun _ => none := by
  have hopen := start_eq_ok h
  unfold openElement at hopen
  rw [show (XmlTag.raw ⟨"rule", attributes⟩).name = "rule" from rfl, if_neg (by decide),
    if_pos rfl] at hopen
  obtain ⟨_, -, hopen⟩ := bind_eq_ok.mp hopen
  obtain ⟨builder, hbuilder, hopen⟩ := bind_eq_ok.mp hopen
  cases hopen
  refine ⟨rfl, ?_⟩
  unfold XmlRuleBuilder.fromRuleStart at hbuilder
  obtain ⟨_, -, hbuilder⟩ := bind_eq_ok.mp hbuilder
  obtain ⟨⟨objectType, unsupportedReason⟩, -, hbuilder⟩ := bind_eq_ok.mp hbuilder
  obtain ⟨deferred, -, hbuilder⟩ := bind_eq_ok.mp hbuilder
  cases hbuilder
  show some _ = some _
  congr 1
  funext element
  cases element <;> rfl

/-- Up to the end tag of a rule. -/
theorem rule_texts (hxml : xml.ResolvesReferences) (hidle : s.Idle) {rule : ProfileRule}
    (h : (rule.openItems.flatMap XmlItem.events).foldlM (event xml) s = .ok s') :
    s'.currentText = .none
      ∧ s'.texts = some (rule.parts.foldl (fun texts part => part.collect texts) fun _ => none) := by
  obtain ⟨s₁, hs₁, h⟩ := run_cons h
  obtain ⟨htext₁, htexts₁⟩ := start_rule (imported_eq_ok.mp (run_event hs₁))
  obtain ⟨htext, htexts⟩ := parts_texts hxml (htext₁.trans hidle.1) h
  rw [htexts₁] at htexts
  exact ⟨htext, htexts⟩

theorem node_idle (hxml : xml.ResolvesReferences) (hidle : s.Idle) {node : ProfileNode}
    (h : (node.items.flatMap XmlItem.events).foldlM (event xml) s = .ok s') : s'.Idle := by
  cases node with
  | outside part =>
    obtain ⟨htext, htexts⟩ := part_texts hxml hidle.1 h
    refine idle_of_texts htext ?_
    rw [htexts]
    unfold texts
    rw [hidle.2]
    rfl
  | rule rule =>
    obtain ⟨s₁, hs₁, h⟩ := run_append h
    obtain ⟨s₂, hs₂, h⟩ := run_cons h
    cases h
    obtain ⟨htext, -⟩ := rule_texts hxml hidle hs₁
    obtain ⟨s₃, hs₃, rfl⟩ := close_eq_ok (run_event hs₂)
    unfold closeElement at hs₃
    rw [if_neg (by decide), if_pos rfl] at hs₃
    split at hs₃
    · cases hs₃
    · obtain ⟨finished, -, hs₃⟩ := bind_eq_ok.mp hs₃
      cases hs₃
      exact ⟨htext, rfl⟩

theorem nodes_idle (hxml : xml.ResolvesReferences) (hidle : s.Idle) {nodes : List ProfileNode}
    (h : ((nodes.flatMap ProfileNode.items).flatMap XmlItem.events).foldlM (event xml) s
      = .ok s') : s'.Idle := by
  induction nodes generalizing s with
  | nil =>
    cases h
    exact hidle
  | cons node rest ih =>
    rw [List.flatMap_cons] at h
    obtain ⟨s₁, hs₁, h⟩ := run_append h
    exact ih (node_idle hxml hidle hs₁) h

end ImportState

/-! ## Collected texts and texts of XML -/

namespace ProfilePart

/-- A text is collected as XML has it exactly when the part is plain. -/
theorem collected_eq_value_iff {part : ProfilePart} {element : TextElement}
    (hpart : part.element? = some element) (hname : element ≠ .name) :
    part.collected element = part.value element ↔ part.Plain := by
  cases part with
  | text element' attributes content =>
    cases hpart
    unfold collected value Plain
    dsimp only
    rw [if_pos rfl, if_pos rfl, Option.some.injEq, String.ofList_inj, ← whole_markedData,
      shown_eq_trim_iff fun x hx hhidden => hidden_markedData hx hhidden]
    constructor
    · exact Or.inr
    · rintro (h | h)
      · exact absurd h hname
      · exact h
  | emptyText element' attributes =>
    cases hpart
    unfold collected value Plain
    dsimp only
    rw [if_pos rfl]
    constructor
    · intro h
      cases h
    · intro h
      exact absurd h hname
  | markup item h => cases hpart

theorem collected_of_ne {part : ProfilePart} {element : TextElement}
    (h : part.element? ≠ some element) : part.collected element = none := by
  cases part with
  | text element' attributes content =>
    exact if_neg fun heq => h (congrArg some heq)
  | emptyText element' attributes => rfl
  | markup item h => rfl

theorem value_of_ne {part : ProfilePart} {element : TextElement}
    (h : part.element? ≠ some element) : part.value element = none := by
  cases part with
  | text element' attributes content =>
    exact if_neg fun heq => h (congrArg some heq)
  | emptyText element' attributes =>
    exact if_neg fun heq => h (congrArg some heq)
  | markup item h => rfl

variable {element : TextElement} (hname : element ≠ .name)
include hname

theorem collect_apply (part : ProfilePart) (texts : TextElement → Option String) :
    part.collect texts element = (part.collected element).or (texts element) :=
  if_neg hname

/-- Parts that are other elements change nothing. -/
theorem foldl_collect_of_ne {parts : List ProfilePart} (texts : TextElement → Option String)
    (h : ∀ part ∈ parts, part.element? ≠ some element) :
    parts.foldl (fun texts part => part.collect texts) texts element = texts element := by
  induction parts generalizing texts with
  | nil => rfl
  | cons part rest ih =>
    rw [List.foldl_cons, ih _ fun part' hpart' => h part' (List.mem_cons_of_mem _ hpart')]
    rw [collect_apply hname, collected_of_ne (h part List.mem_cons_self), Option.none_or]

omit hname in
theorem findSome_value_of_ne {parts : List ProfilePart}
    (h : ∀ part ∈ parts, part.element? ≠ some element) :
    parts.findSome? (value element) = none := by
  rw [List.findSome?_eq_none_iff]
  intro part hpart
  exact value_of_ne (h part hpart)

/-- An element that occurs once is collected, and has its value, where it occurs. -/
theorem collect_of_mem {parts : List ProfilePart} (hunique : (parts.filterMap element?).Nodup)
    {part : ProfilePart} (hmem : part ∈ parts) (hpart : part.element? = some element) :
    parts.foldl (fun texts part => part.collect texts) (fun _ => none) element
        = part.collected element
      ∧ parts.findSome? (value element) = part.value element := by
  obtain ⟨before, after, rfl⟩ := List.append_of_mem hmem
  rw [List.filterMap_append, List.filterMap_cons_some hpart, List.nodup_append] at hunique
  obtain ⟨-, hcons, hdisjoint⟩ := hunique
  have hbefore : ∀ part' ∈ before, part'.element? ≠ some element := by
    intro part' hpart' heq
    exact hdisjoint element (List.mem_filterMap.mpr ⟨part', hpart', heq⟩) element
      List.mem_cons_self rfl
  have hafter : ∀ part' ∈ after, part'.element? ≠ some element := by
    intro part' hpart' heq
    exact (List.nodup_cons.mp hcons).1 (List.mem_filterMap.mpr ⟨part', hpart', heq⟩)
  constructor
  · rw [List.foldl_append, List.foldl_cons, foldl_collect_of_ne hname _ hafter, collect_apply hname,
      foldl_collect_of_ne hname _ hbefore, Option.or_none]
  · rw [List.findSome?_append, findSome_value_of_ne hbefore, Option.none_or, List.findSome?_cons]
    cases hvalue : part.value element with
    | some value => rfl
    | none => exact findSome_value_of_ne hafter

end ProfilePart

/-- The texts of a rule are collected as XML has them exactly when its parts are plain. -/
theorem ProfileRule.collected_iff (rule : ProfileRule) :
    (∀ element, element ≠ .name →
      rule.parts.foldl (fun texts part => part.collect texts) (fun _ => none) element
        = rule.value element) ↔ ∀ part ∈ rule.parts, part.Plain := by
  constructor
  · intro h part hmem
    cases helement : part.element? with
    | none =>
      cases part with
      | text element attributes content => cases helement
      | emptyText element attributes => cases helement
      | markup item h => trivial
    | some element =>
      by_cases hname : element = .name
      · cases part with
        | text element' attributes content =>
          cases helement
          exact .inl hname
        | emptyText element' attributes =>
          cases helement
          exact hname
        | markup item h => trivial
      · obtain ⟨hcollected, hvalue⟩ :=
          ProfilePart.collect_of_mem hname rule.unique hmem helement
        rw [← ProfilePart.collected_eq_value_iff helement hname, ← hcollected, ← hvalue]
        exact h element hname
  · intro h element hname
    by_cases hmem : ∃ part ∈ rule.parts, part.element? = some element
    · obtain ⟨part, hmem, helement⟩ := hmem
      obtain ⟨hcollected, hvalue⟩ :=
        ProfilePart.collect_of_mem hname rule.unique hmem helement
      rw [hcollected]
      unfold ProfileRule.value
      rw [hvalue, ProfilePart.collected_eq_value_iff helement hname]
      exact h part hmem
    · have hne : ∀ part ∈ rule.parts, part.element? ≠ some element :=
        fun part hpart heq => hmem ⟨part, hpart, heq⟩
      rw [ProfilePart.foldl_collect_of_ne hname _ hne]
      exact (ProfilePart.findSome_value_of_ne hne).symm

/-- The texts that are handed on of a rule are the character data of its elements without white
space at the two ends, exactly when its parts are plain. -/
theorem rule_importsTexts_iff {xml : ProfileXml} (hxml : xml.ResolvesReferences)
    (before : List ProfileNode) (rule : ProfileRule) {s : ImportState}
    (hok : ((before.flatMap ProfileNode.items ++ rule.openItems).flatMap XmlItem.events).foldlM
      (ImportState.event xml) {} = .ok s) :
    s.ImportsTexts rule ↔ ∀ part ∈ rule.parts, part.Plain := by
  obtain ⟨s₁, hs₁, hrule⟩ := ImportState.run_append hok
  have hidle := ImportState.nodes_idle hxml ⟨rfl, rfl⟩ hs₁
  obtain ⟨-, htexts⟩ := ImportState.rule_texts hxml hidle hrule
  rw [← rule.collected_iff]
  unfold ImportState.texts at htexts
  obtain ⟨builder, hbuilder, hcollected⟩ := Option.map_eq_some_iff.mp htexts
  rw [← hcollected]
  unfold ImportState.ImportsTexts
  rw [hbuilder]
  constructor
  · rintro ⟨builder', hbuilder', h⟩
    cases hbuilder'
    exact h
  · intro h
    exact ⟨builder, rfl, h⟩

/-! ## Two tests -/

/-- The character with a number, as it is resolved. -/
def numberedChar : Option Nat → Except String (Option Char)
  | some n => .ok (some (Char.ofNat n))
  | none => .error "invalid character reference"

/-- A crate that resolves references as documented. -/
def documentedXml : ProfileXml where
  read _ := ⟨[], none⟩
  resolveCharRef name :=
    match name.toList with
    | '#' :: 'x' :: digits => numberedChar (spelledNumber 16 hexDigitValue digits)
    | '#' :: digits =>
      numberedChar (spelledNumber 10 (fun c => if c.isDigit then some (c.toNat - 48) else none)
        digits)
    | _ => .ok none

theorem documentedXml_resolves : documentedXml.ResolvesReferences := by
  constructor
  · intro name value hname _
    have hchar : numberedChar (some value.toNat) = .ok (some value) := by
      show Except.ok (some (Char.ofNat value.toNat)) = _
      rw [Char.ofNat_toNat]
    unfold IsCharacterReference at hname
    split at hname
    · rename_i digits hdigits
      unfold documentedXml
      dsimp only
      rw [hdigits]
      show numberedChar _ = _
      rw [hname, hchar]
    · rename_i digits hne hdigits
      unfold documentedXml
      dsimp only
      rw [hdigits]
      split
      · rename_i digits' heq
        cases heq
        exact absurd rfl (hne _)
      · rename_i digits' _ heq
        cases heq
        rw [hname, hchar]
      · rename_i hnone
        exact absurd rfl (hnone _)
    · exact hname.elim
  · intro name value hname
    unfold predefinedEntity at hname
    split_ifs at hname with hamp hlt hgt hapos hquot
    · rw [hamp]
      rfl
    · rw [hlt]
      rfl
    · rw [hgt]
      rfl
    · rw [hapos]
      rfl
    · rw [hquot]
      rfl

/-- A rule whose only text is its test. -/
def testRule (content : List XmlTextPart) : ProfileRule where
  attributes := [⟨"object", [.text "CosDocument"]⟩]
  parts := [.text .test [] content]
  unique := List.nodup_singleton _

/-- The import up to the end tag of such a rule. -/
def testRuleRun (content : List XmlTextPart) : Import ImportState :=
  (([].flatMap ProfileNode.items ++ (testRule content).openItems).flatMap XmlItem.events).foldlM
    (ImportState.event documentedXml) {}

/-- A test in a run and a CDATA section, with a space at its front. -/
def cDataTest : List XmlTextPart :=
  [.data (.run " a"), .comment, .data (.cData "&& b")]

theorem cDataTest_run : (match testRuleRun cDataTest with
    | .ok _ => true
    | .error _ => false) = true := by
  decide

theorem rule_importsTexts_cDataTest : ∃ s, testRuleRun cDataTest = .ok s
    ∧ (s.ImportsTexts (testRule cDataTest) ↔ ∀ part ∈ (testRule cDataTest).parts, part.Plain) := by
  have hrun := cDataTest_run
  split at hrun
  · rename_i s hs
    exact ⟨s, hs, rule_importsTexts_iff documentedXml_resolves [] (testRule cDataTest) hs⟩
  · cases hrun

/-- The reference `&amp;`. -/
def ampReference : XmlReference where
  name := "amp"
  value := '&'
  declared := ampersand_declared
  legal := ampersand_legal

/-- The test `'a & b'`, with its ampersand written as a reference. -/
def ampersandTest : List XmlTextPart :=
  [.data (.run "'a "), .data (.reference ampReference), .data (.run " b'")]

theorem ampersandTest_run : (match testRuleRun ampersandTest with
    | .ok s =>
      decide ((s.currentRule.bind fun builder => builder.test.map BoundedText.text)
        ≠ (testRule ampersandTest).value .test)
    | .error _ => false) = true := by
  decide

/-- The spaces around an ampersand in a string literal are lost. -/
theorem rule_importsTexts_ampersand_counterexample : ∃ s, testRuleRun ampersandTest = .ok s
    ∧ ¬ s.ImportsTexts (testRule ampersandTest) := by
  have hrun := ampersandTest_run
  split at hrun
  · rename_i s hs
    refine ⟨s, hs, ?_⟩
    rintro ⟨builder, hbuilder, htexts⟩
    rw [decide_eq_true_eq, hbuilder] at hrun
    exact hrun (htexts .test (by decide))
  · cases hrun

end Pdfv
