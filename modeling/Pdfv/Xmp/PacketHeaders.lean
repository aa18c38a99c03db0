import Pdfv.Xmp.Values
/-!
# The header of a packet

`<?xpacket begin="" id="…" bytes="…" encoding="…"?>` opens a packet and `<?xpacket end="w"?>`
closes it. The builder keeps what it read in the last of the two, and it looks for the attributes
with a search for their names in the text. `finish_packetHeader_iff` says when the attributes of the
header are the ones that are reported.
-/

namespace Pdfv

open Fallible

/-! ## Headers -/

/-- The two quotes of XML. -/
def isXmlQuote (c : Char) : Bool :=
  c.toNat = 34 || c.toNat = 39

/-- A character of an attribute name as far as the spelling goes. -/
def isAttributeNameChar (c : Char) : Bool :=
  !isXmlSpace c && !isXmlQuote c && c ≠ '='

/-- One attribute of a processing instruction, with the white space around it. -/
structure PacketAttribute where
  name : String
  value : String
  quote : Char
  gap : List Char
  beforeEq : List Char
  afterEq : List Char
  name_ne : name ≠ ""
  name_chars : ∀ c ∈ name.toList, isAttributeNameChar c
  quote_spec : isXmlQuote quote
  value_chars : quote ∉ value.toList
  gap_ne : gap ≠ []
  gap_spec : ∀ c ∈ gap, isXmlSpace c
  beforeEq_spec : ∀ c ∈ beforeEq, isXmlSpace c
  afterEq_spec : ∀ c ∈ afterEq, isXmlSpace c

namespace PacketAttribute

variable (attr : PacketAttribute)

/-- What stands before the value and its quotes, after the name. -/
def equals : List Char :=
  attr.beforeEq ++ '=' :: attr.afterEq

def spelled : List Char :=
  attr.gap ++ (attr.name.toList
    ++ (attr.equals ++ attr.quote :: (attr.value.toList ++ [attr.quote])))

end PacketAttribute

/-- The header of a packet, without its target. -/
structure PacketHeader where
  attributes : List PacketAttribute
  ending : List Char
  distinct : (attributes.map PacketAttribute.name).Nodup
  ending_spec : ∀ c ∈ ending, isXmlSpace c

namespace PacketHeader

variable (header : PacketHeader)

def text : String :=
  String.ofList (header.attributes.flatMap PacketAttribute.spelled ++ header.ending)

/-- The value of the attribute with this name. -/
def attributeValue (name : String) : Option BoundedText :=
  (header.attributes.find? fun attr => attr.name = name).map fun attr => ⟨attr.value⟩

end PacketHeader

/-! ## The search for an attribute -/

/-- At its first occurrence in the text, the word is followed by `=` and this value in quotes. -/
structure FirstReads (word text value : List Char) : Prop where
  reads : ∃ before gap gap' rest quote,
    text = before ++ (word ++ (gap ++ '=' :: (gap' ++ quote :: (value ++ quote :: rest))))
      ∧ (∀ j < before.length, ¬ Search.Occurs word text j)
      ∧ (∀ c ∈ gap, isWhitespace c) ∧ (∀ c ∈ gap', isWhitespace c)
      ∧ isXmlQuote quote ∧ quote ∉ value

/-- The first occurrence of the word gives this value, or none when there is none. -/
def ReadsAs (word text : String) (value : Option BoundedText) : Prop :=
  ∀ v : BoundedText, value = some v ↔ FirstReads word.toList text.toList v.text.toList

theorem ReadsAs.unique {word text : String} {value value' : Option BoundedText}
    (h : ReadsAs word text value) (h' : ReadsAs word text value') : value = value' := by
  apply Option.ext
  intro v
  exact (h v).trans (h' v).symm

theorem isXmlQuote_iff {c : Char} : isXmlQuote c = true ↔ c.toNat = 34 ∨ c.toNat = 39 := by
  unfold isXmlQuote
  simp only [Bool.or_eq_true, decide_eq_true_eq]

theorem not_isWhitespace_equals : isWhitespace '=' = false := by
  decide

theorem not_isWhitespace_of_quote {c : Char} (h : isXmlQuote c = true) :
    isWhitespace c = false := by
  rw [isXmlQuote_iff] at h
  unfold isWhitespace
  rcases h with h | h <;> simp [h]

/-- Dropping the white space before a character that is none. -/
theorem dropWhile_gap {p : Char → Bool} {gap rest : List Char} {c : Char} (hgap : ∀ c ∈ gap, p c)
    (hc : p c = false) : (gap ++ c :: rest).dropWhile p = c :: rest := by
  rw [List.dropWhile_append_of_pos hgap, List.dropWhile_cons_of_neg (by rw [hc]; decide)]

theorem takeWhile_ne_quote {value rest : List Char} {quote : Char} (h : quote ∉ value) :
    (value ++ quote :: rest).takeWhile (· ≠ quote) = value := by
  rw [List.takeWhile_append_of_pos, List.takeWhile_cons_of_neg, List.append_nil]
  · simp
  · intro c hc
    rw [decide_eq_true_eq]
    rintro rfl
    exact h hc

/-- Where a list has been cut off before the first element that fails, that element is next. -/
theorem eq_takeWhile_append {p : Char → Bool} {l rest : List Char} {c : Char}
    (h : l.dropWhile p = c :: rest) : l = l.takeWhile p ++ c :: rest := by
  rw [← h, List.takeWhile_append_dropWhile]

theorem findWindow_of_firstReads {word text before rest : List Char} (hword : word ≠ [])
    (htext : text = before ++ (word ++ rest))
    (hfirst : ∀ j < before.length, ¬ Search.Occurs word text j) :
    Search.findWindow word text = some before.length
      ∧ text.drop (before.length + word.length) = rest := by
  constructor
  · refine (Search.findWindow_eq_some_iff hword).mpr ⟨?_, hfirst⟩
    unfold Search.Occurs
    rw [htext, List.drop_left]
    exact List.prefix_append word rest
  · rw [htext, ← List.append_assoc, ← List.length_append, List.drop_left]

/-- What the search of the source returns where the word is followed by a value. -/
theorem xpacketAttr_of_firstReads {word text : String} {value : List Char} {maxLen : Nat}
    (hword : word.toList ≠ []) (h : FirstReads word.toList text.toList value) :
    xpacketAttr text word maxLen = do return some (← BoundedText.new (String.ofList value) maxLen) := by
  obtain ⟨before, gap, gap', rest, quote, htext, hfirst, hgap, hgap', hquote, hvalue⟩ := h.reads
  obtain ⟨hfind, hdrop⟩ := findWindow_of_firstReads hword htext hfirst
  have hlen : word.length = word.toList.length := String.length_toList.symm
  unfold xpacketAttr
  rw [hfind]
  dsimp only
  rw [hlen, hdrop, dropWhile_gap hgap not_isWhitespace_equals]
  split
  · rename_i afterEq hequals
    obtain ⟨-, rfl⟩ := List.cons.inj hequals
    rw [dropWhile_gap hgap' (not_isWhitespace_of_quote hquote)]
    dsimp only
    rw [if_pos (isXmlQuote_iff.mp hquote), takeWhile_ne_quote hvalue,
      if_pos (by rw [List.length_append, List.length_cons]; omega)]
  · rename_i hequals
    exact absurd rfl (hequals _)

/-- A value that ends before the text does is closed by its quote. -/
theorem eq_value_append {quote : Char} {rest : List Char}
    (h : (rest.takeWhile (· ≠ quote)).length < rest.length) :
    ∃ rest', rest = rest.takeWhile (· ≠ quote) ++ quote :: rest' := by
  cases hdrop : rest.dropWhile (· ≠ quote) with
  | nil =>
    have hwhole := List.takeWhile_append_dropWhile (p := (· ≠ quote)) (l := rest)
    rw [hdrop, List.append_nil] at hwhole
    rw [hwhole] at h
    omega
  | cons c rest' =>
    have hc := List.head?_dropWhile_not (p := (· ≠ quote)) (l := rest)
    rw [hdrop] at hc
    simp only [List.head?_cons, decide_not, Bool.not_eq_false', decide_eq_true_eq] at hc
    subst hc
    exact ⟨rest', eq_takeWhile_append hdrop⟩

/-- A value that the search returns stands after the word. -/
theorem firstReads_of_xpacketAttr {word text : String} {v : BoundedText} {maxLen : Nat}
    (hword : word.toList ≠ []) (h : xpacketAttr text word maxLen = .ok (some v)) :
    FirstReads word.toList text.toList v.text.toList := by
  have hlen : word.length = word.toList.length := String.length_toList.symm
  unfold xpacketAttr at h
  split at h
  · cases h
  · rename_i start hfind
    obtain ⟨hocc, hfirst⟩ := (Search.findWindow_eq_some_iff hword).mp hfind
    have hbound := hocc.add_length_le hword
    have htext : text.toList = text.toList.take start
        ++ (word.toList ++ text.toList.drop (start + word.toList.length)) := by
      obtain ⟨after, hafter⟩ := hocc
      rw [← List.drop_drop, ← hafter, List.drop_left, hafter, List.take_append_drop]
    have hbefore : (text.toList.take start).length = start := by
      rw [List.length_take]
      omega
    rw [hlen] at h
    dsimp only at h
    split at h
    · rename_i afterEq hequals
      split at h
      · rename_i quote rest hquote
        split at h
        · rename_i hisQuote
          split at h
          · rename_i hclosed
            obtain ⟨text', htext', h⟩ := bind_eq_ok.mp h
            obtain ⟨rfl, -⟩ := BoundedText.new_eq_ok htext'
            cases h
            obtain ⟨rest', hrest'⟩ := eq_value_append hclosed
            refine ⟨text.toList.take start,
              (text.toList.drop (start + word.toList.length)).takeWhile isWhitespace,
              afterEq.takeWhile isWhitespace, rest', quote, ?_, ?_, ?_, ?_,
              isXmlQuote_iff.mpr hisQuote, ?_⟩
            · rw [String.toList_ofList, ← hrest', ← eq_takeWhile_append hquote,
                ← eq_takeWhile_append hequals]
              exact htext
            · rw [hbefore]
              exact hfirst
            · exact fun c hc => List.mem_takeWhile_imp hc
            · exact fun c hc => List.mem_takeWhile_imp hc
            · rw [String.toList_ofList]
              intro hmem
              exact absurd (List.mem_takeWhile_imp hmem) (by simp)
          · cases h
        · cases h
      · cases h
    · cases h

/-- The text shows one value after the word. -/
theorem FirstReads.unique {word text : String} {value value' : List Char}
    (hword : word.toList ≠ []) (h : FirstReads word.toList text.toList value)
    (h' : FirstReads word.toList text.toList value') : value = value' := by
  have hnew : ∀ {value : List Char} {maxLen : Nat},
      (utf8 (String.ofList value)).length ≤ maxLen →
      FirstReads word.toList text.toList value →
      xpacketAttr text word maxLen = .ok (some ⟨String.ofList value⟩) := by
    intro value maxLen hlen h
    rw [xpacketAttr_of_firstReads hword h]
    unfold BoundedText.new
    rw [if_neg (by omega)]
    rfl
  have heq := hnew (Nat.le_add_right _ (utf8 (String.ofList value')).length) h
  rw [hnew (Nat.le_add_left _ _) h'] at heq
  have htexts := BoundedText.mk.inj (Option.some.inj (Except.ok.inj heq))
  exact (String.ofList_inj.mp htexts).symm

theorem xpacketAttr_readsAs {word text : String} {value : Option BoundedText} {maxLen : Nat}
    (hword : word.toList ≠ []) (h : xpacketAttr text word maxLen = .ok value) :
    ReadsAs word text value := by
  intro v
  constructor
  · rintro rfl
    exact firstReads_of_xpacketAttr hword h
  · intro hreads
    rw [xpacketAttr_of_firstReads hword hreads] at h
    obtain ⟨text', htext', h⟩ := bind_eq_ok.mp h
    obtain ⟨rfl, -⟩ := BoundedText.new_eq_ok htext'
    cases h
    rw [String.ofList_toList]

/-! ## The last instruction -/

/-- The text of a processing instruction that opens or closes a packet. -/
def XmlEvent.xpacketText : XmlEvent → Option String
  | .pi target content => if target = "xpacket" then some content else none
  | _ => none

/-- The text of the last of them. -/
def lastXpacket : List XmlEvent → Option String
  | [] => none
  | event :: rest => (lastXpacket rest).or event.xpacketText

theorem lastXpacket_append (events events' : List XmlEvent) :
    lastXpacket (events ++ events') = (lastXpacket events').or (lastXpacket events) := by
  induction events with
  | nil => rw [List.nil_append, lastXpacket, Option.or_none]
  | cons event rest ih => rw [List.cons_append, lastXpacket, ih, lastXpacket, Option.or_assoc]

namespace PacketBuilder

variable {b c : PacketBuilder}

/-- What the builder keeps about the header is what this text shows. -/
structure Shows (b : PacketBuilder) (text : String) : Prop where
  bytes : ReadsAs "bytes" text b.packetBytes
  encoding : ReadsAs "encoding" text b.packetEncoding

/-- The facts of the builder are about properties only. -/
def NoHeaderFact (b : PacketBuilder) : Prop :=
  ∀ fact ∈ b.facts, ∃ namespaceUri name, fact = .duplicateClaim namespaceUri name

/-- The part of the builder that elements leave alone. -/
structure SameHeader (b c : PacketBuilder) : Prop where
  bytes : c.packetBytes = b.packetBytes
  encoding : c.packetEncoding = b.packetEncoding
  facts : b.NoHeaderFact → c.NoHeaderFact

theorem SameHeader.refl (b : PacketBuilder) : b.SameHeader b :=
  ⟨rfl, rfl, fun h => h⟩

theorem SameHeader.trans {d : PacketBuilder} (h : b.SameHeader c) (h' : c.SameHeader d) :
    b.SameHeader d :=
  ⟨h'.bytes.trans h.bytes, h'.encoding.trans h.encoding, fun hb => h'.facts (h.facts hb)⟩

theorem insertProperty_header {frame : ElementFrame} {value : String}
    (h : b.insertProperty frame value = .ok c) : b.SameHeader c := by
  obtain ⟨-, -, rfl⟩ := insertProperty_eq_ok.mp h
  refine ⟨rfl, rfl, fun hb fact hfact => ?_⟩
  change fact ∈ b.recordedFacts frame at hfact
  unfold recordedFacts at hfact
  split at hfact
  · rcases List.mem_append.mp hfact with hfact | hfact
    · exact hb fact hfact
    · exact ⟨_, _, List.mem_singleton.mp hfact⟩
  · exact hb fact hfact

theorem readNamespaces_header {element : XmlElement} (h : b.readNamespaces element = .ok c) :
    b.SameHeader c := by
  unfold readNamespaces XmlElement.eachAttribute at h
  obtain ⟨⟨d, n⟩, hd, h⟩ := bind_eq_ok.mp h
  cases h
  obtain ⟨⟨e, k⟩, he, hd⟩ := bind_eq_ok.mp hd
  have hstep : ∀ attr ∈ element.attributes, ∀ r r' : PacketBuilder × Nat, b.SameHeader r.1 →
      readNamespace r attr = .ok r' → b.SameHeader r'.1 := by
    intro attr _ r r' hr hstep
    unfold readNamespace at hstep
    obtain ⟨_, -, hstep⟩ := bind_eq_ok.mp hstep
    split at hstep
    · obtain ⟨_, -, hstep⟩ := bind_eq_ok.mp hstep
      obtain ⟨value, -, hstep⟩ := bind_eq_ok.mp hstep
      cases hstep
      exact ⟨hr.bytes, hr.encoding, hr.facts⟩
    · cases hstep
      exact hr
  have hfold := foldlM_inv hstep (show b.SameHeader (b, 0).1 from SameHeader.refl b) he
  split at hd
  · cases hd
  · cases hd
    exact hfold

theorem captureAttrProperty_header {attr : XmlAttribute}
    (h : captureAttrProperty b attr = .ok c) : b.SameHeader c := by
  unfold captureAttrProperty at h
  split at h
  · cases h
    exact SameHeader.refl b
  · obtain ⟨⟨name, localName⟩, -, h⟩ := bind_eq_ok.mp h
    dsimp only at h
    split at h
    · cases h
      exact SameHeader.refl b
    · obtain ⟨namespaceUri, -, h⟩ := bind_eq_ok.mp h
      split at h
      · exact insertProperty_header h
      · cases h
        exact SameHeader.refl b

theorem captureAttrProperties_header {element : XmlElement}
    (h : b.captureAttrProperties element = .ok c) : b.SameHeader c := by
  unfold captureAttrProperties XmlElement.eachAttribute at h
  obtain ⟨d, hd, h⟩ := bind_eq_ok.mp h
  have hstep : ∀ attr ∈ element.attributes, ∀ e e' : PacketBuilder, b.SameHeader e →
      captureAttrProperty e attr = .ok e' → b.SameHeader e' :=
    fun attr _ e e' he hstep => he.trans (captureAttrProperty_header hstep)
  have hfold := foldlM_inv hstep (SameHeader.refl b) hd
  split at h
  · cases h
  · cases h
    exact hfold

theorem recordContainer_header {frame : ElementFrame} (h : b.recordContainer frame = .ok c) :
    b.SameHeader c := by
  unfold recordContainer at h
  split at h
  · exact insertProperty_header h
  · cases h
    exact SameHeader.refl b

theorem start_header {element : XmlElement} (h : b.start element = .ok c) : b.SameHeader c := by
  unfold start at h
  obtain ⟨_, -, h⟩ := bind_eq_ok.mp h
  obtain ⟨_, -, h⟩ := bind_eq_ok.mp h
  obtain ⟨⟨name, localName⟩, -, h⟩ := bind_eq_ok.mp h
  obtain ⟨d, hd, h⟩ := bind_eq_ok.mp h
  obtain ⟨namespaceUri, -, h⟩ := bind_eq_ok.mp h
  obtain ⟨xmlLang, -, h⟩ := bind_eq_ok.mp h
  obtain ⟨e, he, h⟩ := bind_eq_ok.mp h
  obtain ⟨f, hf, h⟩ := bind_eq_ok.mp h
  have hwhole := (readNamespaces_header hd).trans
    ((captureAttrProperties_header he).trans (recordContainer_header hf))
  cases h
  exact ⟨hwhole.bytes, hwhole.encoding, hwhole.facts⟩

theorem close_header (h : b.close = .ok c) : b.SameHeader c := by
  unfold close at h
  split at h
  · cases h
  · rename_i frame stack hstack
    obtain ⟨d, hd, h⟩ := bind_eq_ok.mp h
    obtain ⟨_, -, h⟩ := bind_eq_ok.mp h
    have hrecord : b.SameHeader d := by
      unfold recordText at hd
      split at hd
      · cases hd
        exact ⟨rfl, rfl, fun hb => hb⟩
      · split at hd
        · have := insertProperty_header hd
          exact ⟨this.bytes, this.encoding, this.facts⟩
        · cases hd
          exact ⟨rfl, rfl, fun hb => hb⟩
    cases h
    exact ⟨hrecord.bytes, hrecord.encoding, hrecord.facts⟩

theorem text_header {value : String} (h : b.text value = .ok c) : b.SameHeader c := by
  unfold text at h
  split at h
  · cases h
    exact SameHeader.refl b
  · obtain ⟨_, -, h⟩ := bind_eq_ok.mp h
    cases h
    exact ⟨rfl, rfl, fun hb => hb⟩

/-- What becomes of the header in a part of a run whose last instruction of the packet is the given
one: it is what that text shows, or what it was before. -/
structure Follows (b c : PacketBuilder) (text : Option String) : Prop where
  facts : b.NoHeaderFact → c.NoHeaderFact
  shows_last : ∀ last, text = some last → c.Shows last
  same : text = none → b.SameHeader c

theorem SameHeader.follows (h : b.SameHeader c) : b.Follows c none :=
  ⟨h.facts, fun _ hlast => (by cases hlast), fun _ => h⟩

theorem Follows.trans {d : PacketBuilder} {text text' : Option String} (h : b.Follows c text)
    (h' : c.Follows d text') : b.Follows d (text'.or text) := by
  refine ⟨fun hb => h'.facts (h.facts hb), fun last hlast => ?_, fun hnone => ?_⟩
  · cases text' with
    | some last' =>
      rw [Option.some_or] at hlast
      exact h'.shows_last last hlast
    | none =>
      rw [Option.none_or] at hlast
      have hkeep := h'.same rfl
      have hc := h.shows_last last hlast
      exact ⟨hkeep.bytes ▸ hc.bytes, hkeep.encoding ▸ hc.encoding⟩
  · rw [Option.or_eq_none_iff] at hnone
    exact (h.same hnone.2).trans (h'.same hnone.1)

/-- Nothing of what was kept before an instruction of the packet remains after it. -/
theorem processingInstruction_header {target content : String}
    (h : b.processingInstruction target content = .ok c) :
    b.Follows c (if target = "xpacket" then some content else none) := by
  unfold processingInstruction at h
  obtain ⟨_, -, h⟩ := bind_eq_ok.mp h
  obtain ⟨_, -, h⟩ := bind_eq_ok.mp h
  by_cases htarget : target = "xpacket"
  · rw [if_pos htarget] at h ⊢
    obtain ⟨bytes, hbytes, h⟩ := bind_eq_ok.mp h
    obtain ⟨encoding, hencoding, h⟩ := bind_eq_ok.mp h
    cases h
    refine ⟨fun hb => hb, fun last hlast => ?_, fun hnone => (by cases hnone)⟩
    cases hlast
    exact ⟨xpacketAttr_readsAs (by decide) hbytes, xpacketAttr_readsAs (by decide) hencoding⟩
  · rw [if_neg htarget] at h ⊢
    cases h
    exact SameHeader.follows ⟨rfl, rfl, fun hb => hb⟩

theorem event_header {event : XmlEvent} (h : b.event event = .ok c) :
    b.Follows c event.xpacketText := by
  cases event with
  | start element => exact (start_header h).follows
  | empty element =>
    obtain ⟨d, hd, h⟩ := bind_eq_ok.mp h
    exact ((start_header hd).trans (close_header h)).follows
  | text value => exact (text_header h).follows
  | close name => exact (close_header h).follows
  | pi target content => exact processingInstruction_header h
  | cData value => exact (text_header h).follows
  | decl =>
    cases h
    exact (SameHeader.refl b).follows
  | comment =>
    cases h
    exact (SameHeader.refl b).follows
  | docType => cases h
  | generalRef name => cases h

/-- A run: the last instruction of the packet decides. -/
theorem events_header {events : List XmlEvent} (h : events.foldlM event b = .ok c) :
    b.Follows c (lastXpacket events) := by
  induction events generalizing b with
  | nil =>
    cases h
    exact (SameHeader.refl _).follows
  | cons event rest ih =>
    rw [List.foldlM_cons] at h
    obtain ⟨d, hd, h⟩ := bind_eq_ok.mp h
    exact (event_header hd).trans (ih h)

end PacketBuilder

/-! ## The report -/

/-- The header that a fact reports. -/
def XmpFact.header : XmpFact → Option (Option BoundedText × Option BoundedText)
  | .packetHeader bytes encoding _ => some (bytes, encoding)
  | _ => none

/-- The headers that the packet reports. -/
def XmpPacket.headers (packet : XmpPacket) : List (Option BoundedText × Option BoundedText) :=
  packet.facts.filterMap XmpFact.header

theorem filterMap_header_map {α : Type} (f : α → XmpFact) (h : ∀ a, (f a).header = none)
    (l : List α) : (l.map f).filterMap XmpFact.header = [] := by
  rw [List.filterMap_map, List.filterMap_eq_nil_iff]
  exact fun a _ => h a

/-- One header is reported, the one that the builder keeps. -/
theorem PacketBuilder.finish_headers {b : PacketBuilder} {packet : XmpPacket} (hb : b.NoHeaderFact)
    (h : b.finish = .ok packet) : packet.headers = [(b.packetBytes, b.packetEncoding)] := by
  unfold finish at h
  obtain ⟨identification, -, h⟩ := bind_eq_ok.mp h
  obtain ⟨namespaces, -, h⟩ := bind_eq_ok.mp h
  cases h
  have hfacts : b.facts.filterMap XmpFact.header = [] := by
    rw [List.filterMap_eq_nil_iff]
    intro fact hfact
    obtain ⟨namespaceUri, name, rfl⟩ := hb fact hfact
    rfl
  have hwrapper : (if b.sawPacketWrapper then [] else [XmpFact.missingPacketWrapper]).filterMap
      XmpFact.header = [] := by
    split <;> rfl
  unfold XmpPacket.headers PacketBuilder.packetFacts
  rw [List.filterMap_append, List.filterMap_append, List.filterMap_append, List.filterMap_append,
    hfacts, hwrapper, filterMap_header_map FlavourClaim.fact fun claim => rfl,
    filterMap_header_map XmpProperty.fact fun property => rfl]
  rfl

/-- In the last instruction of the packet, the first occurrence of each word gives the value that the
header has under this name. -/
def PacketHeader.Survives (header : PacketHeader) (after : List XmlEvent) : Prop :=
  ∀ word ∈ ["bytes", "encoding"],
    ReadsAs word ((lastXpacket after).getD header.text) (header.attributeValue word)

/-- The attributes of the header are reported exactly when they survive. -/
theorem finish_packetHeader_iff (sourceObject : ObjectKey) (byteLen : Nat)
    (actualEncoding : Identifier) (limits : ResourceLimits) (header : PacketHeader)
    {before after : List XmlEvent} (hbefore : lastXpacket before = none)
    {b : PacketBuilder}
    (hrun : (PacketBuilder.new sourceObject byteLen actualEncoding limits).run
      ⟨before ++ .pi "xpacket" header.text :: after, none⟩ = .ok b)
    {packet : XmpPacket} (hfinish : b.finish = .ok packet) :
    packet.headers = [(header.attributeValue "bytes", header.attributeValue "encoding")]
      ↔ header.Survives after := by
  obtain ⟨c, hc, hrun⟩ := bind_eq_ok.mp hrun
  cases hrun
  have hfollows := PacketBuilder.events_header hc
  have hlast : lastXpacket (before ++ .pi "xpacket" header.text :: after)
      = some ((lastXpacket after).getD header.text) := by
    rw [lastXpacket_append, hbefore, Option.or_none, lastXpacket]
    cases lastXpacket after with
    | some text => rfl
    | none => rfl
  have hshows := hfollows.shows_last _ hlast
  rw [PacketBuilder.finish_headers (hfollows.facts fun fact hfact => by cases hfact) hfinish]
  constructor
  · intro heq
    obtain ⟨hbytes, hencoding⟩ := Prod.mk.inj (List.cons.inj heq).1
    intro word hword
    rcases List.mem_cons.mp hword with rfl | hword
    · exact hbytes ▸ hshows.bytes
    · rw [List.mem_singleton] at hword
      subst hword
      exact hencoding ▸ hshows.encoding
  · intro hsurvives
    rw [hshows.bytes.unique (hsurvives "bytes" (by decide)),
      hshows.encoding.unique (hsurvives "encoding" (by decide))]

/-! ## Headers that survive, and headers that do not -/

/-- The standard end of a packet takes every attribute of the header away. -/
theorem not_survives_of_end {header : PacketHeader} {after : List XmlEvent} {text word : String}
    (hword : word ∈ ["bytes", "encoding"]) (hlast : lastXpacket after = some text)
    (habsent : ¬ word.toList <:+: text.toList)
    (hvalue : header.attributeValue word ≠ none) : ¬ header.Survives after := by
  intro hsurvives
  obtain ⟨v, hv⟩ := Option.ne_none_iff_exists'.mp hvalue
  have hreads := (hsurvives word hword v).mp hv
  rw [hlast, Option.getD_some] at hreads
  obtain ⟨start, gap, gap', rest, quote, htext, -⟩ := hreads.reads
  exact habsent ⟨start, _, by rw [htext, List.append_assoc]⟩

section Separators

variable {α : Type} {w l l' : List α}

theorem prefix_of_prefix_separated {c : α} (hc : c ∉ w) (h : w <+: l ++ c :: l') : w <+: l := by
  induction l generalizing w with
  | nil =>
    cases w with
    | nil => exact List.nil_prefix
    | cons a w =>
      rw [List.nil_append, List.cons_prefix_cons] at h
      exact absurd (h.1 ▸ List.mem_cons_self) hc
  | cons b l ih =>
    cases w with
    | nil => exact List.nil_prefix
    | cons a w =>
      rw [List.cons_append, List.cons_prefix_cons] at h
      exact List.cons_prefix_cons.mpr ⟨h.1, ih (fun hmem => hc (List.mem_cons_of_mem a hmem)) h.2⟩

/-- What occurs up to a separator occurs before it. -/
theorem infix_of_occurs_separated {c : α} {j : Nat} (hc : c ∉ w) (hj : j ≤ l.length)
    (h : Search.Occurs w (l ++ c :: l') j) : w <:+: l := by
  unfold Search.Occurs at h
  rw [List.drop_append_of_le_length hj] at h
  exact (prefix_of_prefix_separated hc h).isInfix.trans (List.drop_suffix j l).isInfix

/-- What occurs in a list with a separator occurs on one of its sides. -/
theorem infix_of_infix_separated {c : α} (hc : c ∉ w) (h : w <:+: l ++ c :: l') :
    w <:+: l ∨ w <:+: l' := by
  obtain ⟨before, after, h⟩ := h
  rw [List.append_assoc] at h
  rcases List.append_eq_append_iff.mp h with ⟨mid, rfl, hrest⟩ | ⟨mid, rfl, hrest⟩
  · have hstart : w <+: mid := prefix_of_prefix_separated hc ⟨after, hrest⟩
    exact .inl (hstart.isInfix.trans (List.suffix_append before mid).isInfix)
  · cases mid with
    | nil =>
      have hstart : w <+: [] := prefix_of_prefix_separated hc ⟨after, hrest.symm⟩
      rw [List.prefix_nil.mp hstart]
      exact .inr (List.nil_infix)
    | cons d mid =>
      rw [List.cons_append] at hrest
      obtain ⟨-, hrest⟩ := List.cons.inj hrest
      exact .inr ⟨mid, after, by rw [hrest, List.append_assoc]⟩

/-- The same with several separators. -/
theorem infix_of_infix_separators {s : List α} (hw : w ≠ []) (hs : s ≠ [])
    (hsep : ∀ c ∈ s, c ∉ w) (h : w <:+: l ++ (s ++ l')) : w <:+: l ∨ w <:+: l' := by
  induction s generalizing l with
  | nil => exact absurd rfl hs
  | cons c s ih =>
    rcases infix_of_infix_separated (hsep c List.mem_cons_self) h with h | h
    · exact .inl h
    · cases s with
      | nil => exact .inr h
      | cons d s =>
        have hrest := ih (l := []) (by simp) (fun c hc => hsep c (List.mem_cons_of_mem _ hc)) h
        rcases hrest with hnil | h
        · exact absurd (List.infix_nil.mp hnil) hw
        · exact .inr h

end Separators

/-- The attribute mentions the word, in its name or in its value. -/
def PacketAttribute.Mentions (attr : PacketAttribute) (word : String) : Prop :=
  word.toList <:+: attr.name.toList ∨ word.toList <:+: attr.value.toList

/-- No attribute mentions the word before the attribute that it names. -/
def PacketHeader.Plain (header : PacketHeader) (word : String) : Prop :=
  ∀ before attr after, header.attributes = before ++ attr :: after → attr.Mentions word →
    attr.name = word ∨ ∃ attr' ∈ before, attr'.name = word

section Plain

variable {word : String} (hne : word.toList ≠ [])
  (hword : ∀ c ∈ word.toList, isAttributeNameChar c = true)

include hword

theorem not_mem_of_not_nameChar {c : Char} (h : isAttributeNameChar c = false) :
    c ∉ word.toList := by
  intro hc
  rw [hword c hc] at h
  cases h

theorem not_mem_of_isXmlSpace {c : Char} (h : isXmlSpace c = true) : c ∉ word.toList :=
  not_mem_of_not_nameChar hword (by unfold isAttributeNameChar; simp [h])

theorem not_mem_of_isXmlQuote {c : Char} (h : isXmlQuote c = true) : c ∉ word.toList :=
  not_mem_of_not_nameChar hword (by unfold isAttributeNameChar; simp [h])

theorem not_mem_of_equals {attr : PacketAttribute} {c : Char} (h : c ∈ attr.equals) :
    c ∉ word.toList := by
  rcases List.mem_append.mp h with h | h
  · exact not_mem_of_isXmlSpace hword (attr.beforeEq_spec c h)
  · rcases List.mem_cons.mp h with rfl | h
    · exact not_mem_of_not_nameChar hword (by decide)
    · exact not_mem_of_isXmlSpace hword (attr.afterEq_spec c h)

include hne

/-- The word occurs in an attribute where the attribute mentions it. -/
theorem mentions_of_infix {attr : PacketAttribute} {rest : List Char}
    (h : word.toList <:+: attr.spelled ++ rest) : attr.Mentions word ∨ word.toList <:+: rest := by
  have hquote := not_mem_of_isXmlQuote hword attr.quote_spec
  unfold PacketAttribute.spelled at h
  simp only [List.append_assoc, List.cons_append, List.nil_append] at h
  rcases infix_of_infix_separators (l := []) hne attr.gap_ne
    (fun c hc => not_mem_of_isXmlSpace hword (attr.gap_spec c hc)) h with h | h
  · exact absurd (List.infix_nil.mp h) hne
  · rcases infix_of_infix_separators hne (by unfold PacketAttribute.equals; simp)
      (fun c hc => not_mem_of_equals hword hc) h with h | h
    · exact .inl (.inl h)
    · rcases infix_of_infix_separated (l := []) hquote h with h | h
      · exact absurd (List.infix_nil.mp h) hne
      · rcases infix_of_infix_separated hquote h with h | h
        · exact .inl (.inr h)
        · exact .inr h

theorem mentions_of_infix_attributes {attributes : List PacketAttribute} {rest : List Char}
    (h : word.toList <:+: attributes.flatMap PacketAttribute.spelled ++ rest) :
    (∃ attr ∈ attributes, attr.Mentions word) ∨ word.toList <:+: rest := by
  induction attributes with
  | nil => exact .inr h
  | cons attr attributes ih =>
    rw [List.flatMap_cons, List.append_assoc] at h
    rcases mentions_of_infix hne hword h with h | h
    · exact .inl ⟨attr, List.mem_cons_self, h⟩
    · rcases ih h with ⟨attr', hmem, h⟩ | h
      · exact .inl ⟨attr', List.mem_cons_of_mem _ hmem, h⟩
      · exact .inr h

theorem not_infix_of_spaces {gap : List Char} (hgap : ∀ c ∈ gap, isXmlSpace c) :
    ¬ word.toList <:+: gap := by
  intro h
  obtain ⟨c, hc⟩ := List.exists_mem_of_ne_nil _ hne
  exact not_mem_of_isXmlSpace hword (hgap c (h.subset hc)) hc

/-- Where no attribute before it mentions the word, the attribute of that name is found. -/
theorem firstReads_of_plain {header : PacketHeader} (hplain : header.Plain word) {v : BoundedText}
    (hv : header.attributeValue word = some v) :
    FirstReads word.toList header.text.toList v.text.toList := by
  obtain ⟨attr, hfind, rfl⟩ := Option.map_eq_some_iff.mp hv
  obtain ⟨hname, before, after, hsplit, hbefore⟩ := List.find?_eq_some_iff_append.mp hfind
  rw [decide_eq_true_eq] at hname
  have hquiet : ∀ other ∈ before, ¬ other.Mentions word := by
    intro other hother hmentions
    obtain ⟨pre, post, rfl⟩ := List.append_of_mem hother
    have hnot : ∀ a ∈ pre ++ other :: post, a.name ≠ word := fun a ha => by
      simpa using hbefore a ha
    rcases hplain pre other (post ++ attr :: after) (by rw [hsplit]; simp) hmentions
      with h | ⟨a, ha, h⟩
    · exact hnot other hother h
    · exact hnot a (List.mem_append_left _ ha) h
  have hfirst : ¬ word.toList <:+: before.flatMap PacketAttribute.spelled ++ attr.gap := by
    intro h
    rcases mentions_of_infix_attributes hne hword h with ⟨other, hother, h⟩ | h
    · exact hquiet other hother h
    · exact not_infix_of_spaces hne hword attr.gap_spec h
  have htext : header.text.toList = before.flatMap PacketAttribute.spelled ++ attr.gap
      ++ (word.toList ++ (attr.beforeEq ++ '=' :: (attr.afterEq ++ attr.quote
        :: (attr.value.toList ++ attr.quote
          :: (after.flatMap PacketAttribute.spelled ++ header.ending))))) := by
    unfold PacketHeader.text
    rw [String.toList_ofList, hsplit, List.flatMap_append, List.flatMap_cons, ← hname]
    simp [PacketAttribute.spelled, PacketAttribute.equals]
  refine ⟨_, _, _, _, _, htext, ?_, ?_, ?_, attr.quote_spec, attr.value_chars⟩
  · intro j hj hocc
    -- The white space before the name ends what stands before it.
    obtain ⟨gap, c, hgap⟩ := (List.eq_nil_or_concat attr.gap).resolve_left attr.gap_ne
    rw [List.concat_eq_append] at hgap
    have hc := not_mem_of_isXmlSpace hword (attr.gap_spec c (by rw [hgap]; simp))
    rw [htext, hgap, ← List.append_assoc (before.flatMap _), List.append_assoc _ [c],
      List.singleton_append] at hocc
    rw [hgap, ← List.append_assoc, List.length_append, List.length_singleton] at hj
    have hmeets := infix_of_occurs_separated hc (by omega) hocc
    refine hfirst (hmeets.trans ⟨[], [c], ?_⟩)
    rw [List.nil_append, hgap, List.append_assoc]
  · exact fun c hc => isWhitespace_of_isXmlSpace (attr.beforeEq_spec c hc)
  · exact fun c hc => isWhitespace_of_isXmlSpace (attr.afterEq_spec c hc)

theorem readsAs_of_plain {header : PacketHeader} (hplain : header.Plain word) :
    ReadsAs word header.text (header.attributeValue word) := by
  intro v
  refine ⟨firstReads_of_plain hne hword hplain, fun hreads => ?_⟩
  have hnamed : ∃ attr ∈ header.attributes, attr.name = word := by
    obtain ⟨start, gap, gap', rest, quote, htext, -⟩ := hreads.reads
    have hmeets : word.toList <:+: header.text.toList := ⟨start, _, by rw [htext, List.append_assoc]⟩
    unfold PacketHeader.text at hmeets
    rw [String.toList_ofList] at hmeets
    rcases mentions_of_infix_attributes hne hword hmeets with ⟨attr, hattr, h⟩ | h
    · obtain ⟨before, after, hsplit⟩ := List.append_of_mem hattr
      rcases hplain before attr after hsplit h with hname | ⟨attr', hattr', hname⟩
      · exact ⟨attr, hattr, hname⟩
      · exact ⟨attr', by rw [hsplit]; exact List.mem_append_left _ hattr', hname⟩
    · exact absurd h (not_infix_of_spaces hne hword header.ending_spec)
  obtain ⟨attr, hattr, hname⟩ := hnamed
  have hsome : (header.attributeValue word).isSome = true := by
    unfold PacketHeader.attributeValue
    rw [Option.isSome_map, List.find?_isSome]
    exact ⟨attr, hattr, by simpa using hname⟩
  obtain ⟨v', hv'⟩ := Option.isSome_iff_exists.mp hsome
  have heq := (firstReads_of_plain hne hword hplain hv').unique hne hreads
  rw [hv', show v' = v from congrArg BoundedText.mk (String.toList_inj.mp heq)]

end Plain

/-- A header that closes its packet itself keeps its attributes when no other attribute mentions
them first. -/
theorem survives_of_plain {header : PacketHeader} {after : List XmlEvent}
    (hlast : lastXpacket after = none) (hplain : ∀ word ∈ ["bytes", "encoding"], header.Plain word) :
    header.Survives after := by
  intro word hword
  rw [hlast, Option.getD_none]
  have hspelled : word.toList ≠ [] ∧ ∀ c ∈ word.toList, isAttributeNameChar c = true := by
    rcases List.mem_cons.mp hword with rfl | hword
    · decide
    · rw [List.mem_singleton] at hword
      subst hword
      decide
  exact readsAs_of_plain hspelled.1 hspelled.2 (hplain word hword)

/-! ## Examples -/

theorem doubleQuote_spec : isXmlQuote (Char.ofNat 34) = true := by
  decide

theorem oneSpace_spec : ∀ c ∈ [' '], isXmlSpace c := by
  decide

/-- An attribute in double quotes, with one space before it. -/
def plainAttribute (name value : String) (hname : name ≠ "")
    (hchars : ∀ c ∈ name.toList, isAttributeNameChar c)
    (hvalue : Char.ofNat 34 ∉ value.toList) : PacketAttribute where
  name := name
  value := value
  quote := Char.ofNat 34
  gap := [' ']
  beforeEq := []
  afterEq := []
  name_ne := hname
  name_chars := hchars
  quote_spec := doubleQuote_spec
  value_chars := hvalue
  gap_ne := List.cons_ne_nil ' ' []
  gap_spec := oneSpace_spec
  beforeEq_spec := fun _ h => absurd h List.not_mem_nil
  afterEq_spec := fun _ h => absurd h List.not_mem_nil

theorem bytesName_ne : "bytes" ≠ "" := by
  decide

theorem bytesName_chars : ∀ c ∈ "bytes".toList, isAttributeNameChar c := by
  decide

theorem bytesValue_chars : Char.ofNat 34 ∉ "12".toList := by
  decide

/-- `<?xpacket bytes="12"?>`. -/
def bytesHeader : PacketHeader where
  attributes := [plainAttribute "bytes" "12" bytesName_ne bytesName_chars bytesValue_chars]
  ending := []
  distinct := List.nodup_singleton _
  ending_spec := fun _ h => absurd h List.not_mem_nil

/-- `<?xpacket end='w'?>`. -/
def packetEnd : XmlEvent :=
  .pi "xpacket" " end='w'"

/-- The headers that the report has for a sequence of events. -/
def headersOf (events : List XmlEvent) : Option (List (Option BoundedText × Option BoundedText)) := do
  let b ← (propertyStart.run ⟨events, none⟩).toOption
  let packet ← b.finish.toOption
  return packet.headers

theorem packet_of_headersOf {events : List XmlEvent}
    {headers : List (Option BoundedText × Option BoundedText)}
    (h : headersOf events = some headers) :
    ∃ b packet, propertyStart.run ⟨events, none⟩ = .ok b ∧ b.finish = .ok packet
      ∧ packet.headers = headers := by
  obtain ⟨b, hb, h⟩ := Option.bind_eq_some_iff.mp h
  obtain ⟨packet, hpacket, h⟩ := Option.bind_eq_some_iff.mp h
  cases h
  cases hrun : propertyStart.run ⟨events, none⟩ with
  | error e =>
    rw [hrun] at hb
    cases hb
  | ok b' =>
    rw [hrun] at hb
    cases hb
    cases hfinish : b.finish with
    | error e =>
      rw [hfinish] at hpacket
      cases hpacket
    | ok packet' =>
      rw [hfinish] at hpacket
      cases hpacket
      exact ⟨b, packet, rfl, hfinish, rfl⟩

theorem bytesHeader_kept : headersOf [.pi "xpacket" bytesHeader.text, .empty ⟨"x", [], none⟩]
    = some [(some ⟨"12"⟩, none)] := by
  decide

theorem bytesHeader_lost :
    headersOf [.pi "xpacket" bytesHeader.text, .empty ⟨"x", [], none⟩, packetEnd]
      = some [(none, none)] := by
  decide

/-- A packet without a closing instruction. -/
theorem finish_packetHeader_kept : bytesHeader.Survives [.empty ⟨"x", [], none⟩] := by
  obtain ⟨b, packet, hrun, hfinish, hheaders⟩ := packet_of_headersOf bytesHeader_kept
  exact (finish_packetHeader_iff (.ofNumber 1) 40 ⟨"UTF-8"⟩ {} bytesHeader
    (show lastXpacket [] = none from rfl) hrun hfinish).mp (hheaders.trans rfl)

/-- The standard packet: the header has `bytes`, and none is reported. -/
theorem finish_packetHeader_lost : ∃ b packet,
    (PacketBuilder.new (.ofNumber 1) 40 ⟨"UTF-8"⟩ {}).run
      ⟨[] ++ .pi "xpacket" bytesHeader.text :: [.empty ⟨"x", [], none⟩, packetEnd], none⟩ = .ok b
    ∧ b.finish = .ok packet
    ∧ packet.headers
      ≠ [(bytesHeader.attributeValue "bytes", bytesHeader.attributeValue "encoding")] := by
  obtain ⟨b, packet, hrun, hfinish, hheaders⟩ := packet_of_headersOf bytesHeader_lost
  refine ⟨b, packet, hrun, hfinish, ?_⟩
  rw [hheaders]
  decide

end Pdfv
