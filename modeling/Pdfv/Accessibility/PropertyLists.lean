import Pdfv.Accessibility.Content
import Pdfv.Content.Operations
import Pdfv.Parser.Reading
/-!
# Property lists of marked content

A `BDC` operator names its property list or carries it, and the list states the marked-content
identifier (`statedMcid`). The source searches the bytes of the list for the key instead of reading it,
and looks names up in the resources of the page alone; `recordedMcid_iff` says when what it records is
what is stated.
-/

namespace Pdfv

open Loop Fallible Search

/-! ## What is stated -/

/-- Limits that a text does not reach. -/
def unlimited (text : Bytes) : ResourceLimits where
  maxObjectDepth := text.length
  maxArrayLen := text.length
  maxDictEntries := text.length
  maxNameBytes := text.length
  maxStringBytes := text.length

/-- The dictionary that a text spells. -/
def spelledDictionary (text : Bytes) : Option Dictionary :=
  match (readerOf text).parseDictionary (unlimited text) 0 0 with
  | .ok (entries, stop) => if stop = text.length then some entries else none
  | .error _ => none

section Stated

variable (doc : ModelDocument) (page : Dictionary)

/-- The resources of a page: its own, or those of the nearest node above it in the page tree. -/
def effectiveResources : Nat → Dictionary → Option Dictionary
  | 0, node => doc.dictionaryFromEntry node "Resources"
  | height + 1, node =>
    (doc.dictionaryFromEntry node "Resources").or
      ((doc.dictionaryFromEntry node "Parent").bind (effectiveResources height))

/-- The property list that a name denotes on a page. -/
def namedProperties (name : PdfName) : Option CosObject :=
  (effectiveResources doc doc.objects.size page).bind fun resources =>
    (doc.dictionaryFromEntry resources "Properties").bind (OrdList.lookup name)

/-- The identifier that the operands of a `BDC` operator state: a tag and a property list. -/
def statedMcid : List Operand → Option Int
  | [.name _, .composite text] =>
    (spelledDictionary text).bind fun entries => integerFromDictionary entries "MCID"
  | [.name _, .name name] => (namedProperties doc page name).bind (mcidFromValue doc)
  | _ => none

/-! ## What is found -/

/-- The integer that a text starts with, after white space. -/
def leadingInteger (text : Bytes) : Option Int :=
  let rest := text.dropWhile isAsciiWhitespace
  let sign := if rest.head? = some 45 then [45] else []
  let digits := (rest.drop sign.length).takeWhile isDigit
  if digits.isEmpty then none else parseI64 (sign ++ digits)

/-- The bytes of the key, wherever they stand. -/
def mcidKey : Bytes :=
  utf8 "/MCID"

/-- The bytes of the key occur in a text, and the integer follows the first of them. -/
def FirstNumber (text : Bytes) (mcid : Int) : Prop :=
  ∃ i, Occurs mcidKey text i ∧ (∀ j < i, ¬ Occurs mcidKey text j)
    ∧ leadingInteger (text.drop (i + mcidKey.length)) = some mcid

/-- The resources of the page itself hold the property lists, and hold them directly. -/
def HoldsProperties : Prop :=
  ∃ resources, doc.dictionaryFromEntry page "Resources" = some resources
    ∧ resources.directEntries "Properties" = doc.dictionaryFromEntry resources "Properties"

/-- Operands in which nothing looks like an identifier: no number after the bytes of the key, no
reference to a dictionary with an identifier, no second name for one. -/
structure NothingFound (operands : List Operand) : Prop where
  text : ∀ text, .composite text ∈ operands → ∀ mcid, ¬ FirstNumber text mcid
  reference : ∀ key, propertiesReference operands = some key → mcidFromObject doc key = none
  name : ∀ name value, propertiesName operands = some name →
    OrdList.lookup name (pageProperties doc page) = some value → mcidFromValue doc value = none

/-- The operands for which the source finds what is stated. The number after the first `/MCID` of an
inline list is the one its top-level key has; a name is that of a list in the resources of the page
itself, or of one without an identifier; other operands have nothing that looks like an identifier. -/
def FoundAsStated : List Operand → Prop
  | [.name _, .composite text] => ∀ mcid, FirstNumber text mcid
      ↔ (spelledDictionary text).bind (fun entries => integerFromDictionary entries "MCID") = some mcid
  | [.name _, .name name] => HoldsProperties doc page
      ∨ (namedProperties doc page name).bind (mcidFromValue doc) = none
  | operands => NothingFound doc page operands

end Stated

/-! ## Where the two agree -/

section Agreement

theorem mcidKey_ne : mcidKey ≠ [] := by
  decide

theorem parseMcid_iff {text : Bytes} {mcid : Int} :
    parseMcidFromDictionary text = some mcid ↔ FirstNumber text mcid := by
  have hlength : mcidKey.length = 5 := by decide
  have hbody : parseMcidFromDictionary text
      = (findWindow mcidKey text).bind fun start => leadingInteger (text.drop (start + 5)) := by
    unfold parseMcidFromDictionary findBytes
    rw [if_pos (Nat.zero_le _), List.drop_zero]
    simp only [Nat.zero_add, Option.map_id']
    rfl
  unfold FirstNumber
  rw [hbody, hlength, Option.bind_eq_some_iff]
  constructor
  · rintro ⟨i, hfind, hnumber⟩
    obtain ⟨hoccurs, hfirst⟩ := (findWindow_eq_some_iff mcidKey_ne).mp hfind
    exact ⟨i, hoccurs, hfirst, hnumber⟩
  · rintro ⟨i, hoccurs, hfirst, hnumber⟩
    exact ⟨i, (findWindow_eq_some_iff mcidKey_ne).mpr ⟨hoccurs, hfirst⟩, hnumber⟩

theorem parseMcid_none {text : Bytes} :
    parseMcidFromDictionary text = none ↔ ∀ mcid, ¬ FirstNumber text mcid := by
  rw [Option.eq_none_iff_forall_ne_some]
  constructor
  · intro h mcid hfirst
    exact h mcid (parseMcid_iff.mpr hfirst)
  · intro h mcid hsome
    exact h mcid (parseMcid_iff.mp hsome)

variable {doc : ModelDocument} {page : Dictionary}

/-- The identifier that is recorded for a span with these operands. -/
def foundMcid (doc : ModelDocument) (page : Dictionary) (operands : List Operand) : Option Int :=
  (inlineMcid operands).or (((propertiesReference operands).bind (mcidFromObject doc)).or
    ((propertiesName operands).bind fun name =>
      (OrdList.lookup name (pageProperties doc page)).bind (mcidFromValue doc)))

theorem foundMcid_none (operands : List Operand) :
    foundMcid doc page operands = none ↔ NothingFound doc page operands := by
  have hinline : inlineMcid operands = none
      ↔ ∀ text, .composite text ∈ operands → ∀ mcid, ¬ FirstNumber text mcid := by
    unfold inlineMcid
    rw [List.findSome?_eq_none_iff]
    constructor
    · intro h text htext
      exact parseMcid_none.mp (h (.composite text) htext)
    · intro h operand hoperand
      unfold Operand.mcid
      split
      · rename_i text
        exact parseMcid_none.mpr (h text hoperand)
      · rfl
  unfold foundMcid
  rw [Option.or_eq_none_iff, Option.or_eq_none_iff, hinline, Option.bind_eq_none_iff,
    Option.bind_eq_none_iff]
  constructor
  · rintro ⟨htext, hreference, hname⟩
    refine ⟨htext, hreference, ?_⟩
    intro name value hsecond hlookup
    exact Option.bind_eq_none_iff.mp (hname name hsecond) value hlookup
  · intro h
    refine ⟨h.text, h.reference, ?_⟩
    intro name hsecond
    exact Option.bind_eq_none_iff.mpr fun value hlookup => h.name name value hsecond hlookup

theorem effectiveResources_own {resources : Dictionary} (height : Nat)
    (h : doc.dictionaryFromEntry page "Resources" = some resources) :
    effectiveResources doc height page = some resources := by
  cases height with
  | zero => exact h
  | succ height =>
    unfold effectiveResources
    rw [h]
    rfl

theorem directEntries_resolved {dictionary entries : Dictionary} {key : String}
    (h : dictionary.directEntries key = some entries) :
    doc.dictionaryFromEntry dictionary key = some entries := by
  unfold Dictionary.directEntries at h
  unfold ModelDocument.dictionaryFromEntry
  split at h
  · rename_i hget
    rw [hget]
    exact h
  · cases h

/-- Where the page itself does not hold the property lists, no name is found. -/
theorem pageProperties_empty (h : ¬ HoldsProperties doc page) : pageProperties doc page = [] := by
  unfold pageProperties
  cases hown : doc.dictionaryFromEntry page "Resources" with
  | none => rfl
  | some resources =>
    cases hdirect : resources.directEntries "Properties" with
    | none => simp [hdirect]
    | some entries =>
      refine absurd ⟨resources, hown, ?_⟩ h
      rw [hdirect, directEntries_resolved hdirect]

/-- A name is looked up in the resources of the page alone. -/
theorem named_iff (name : PdfName) :
    (OrdList.lookup name (pageProperties doc page)).bind (mcidFromValue doc)
        = (namedProperties doc page name).bind (mcidFromValue doc)
      ↔ HoldsProperties doc page ∨ (namedProperties doc page name).bind (mcidFromValue doc) = none := by
  by_cases hholds : HoldsProperties doc page
  · refine iff_of_true ?_ (.inl hholds)
    obtain ⟨resources, hown, hdirect⟩ := hholds
    unfold pageProperties namedProperties
    rw [effectiveResources_own _ hown, hown, Option.bind_some, Option.bind_some, ← hdirect]
    cases resources.directEntries "Properties" <;> rfl
  · rw [pageProperties_empty hholds]
    have hnone : OrdList.lookup name ([] : Dictionary) = none := OrdList.lookup_nil name
    rw [hnone, Option.bind_none]
    constructor
    · exact fun heq => .inr heq.symm
    · rintro (hself | heq)
      · exact absurd hself hholds
      · exact heq.symm

/-- What is found is what is stated. -/
theorem foundMcid_iff (operands : List Operand) :
    foundMcid doc page operands = statedMcid doc page operands ↔ FoundAsStated doc page operands := by
  unfold statedMcid FoundAsStated
  split
  · rename_i tag text
    have hfound : foundMcid doc page [.name tag, .composite text] = parseMcidFromDictionary text := by
      unfold foundMcid inlineMcid propertiesReference propertiesName
      simp [List.findSome?_cons, Operand.mcid, Operand.asName]
      cases parseMcidFromDictionary text <;> rfl
    rw [hfound, Option.ext_iff]
    simp only [parseMcid_iff]
  · rename_i tag name
    have hfound : foundMcid doc page [.name tag, .name name]
        = (OrdList.lookup name (pageProperties doc page)).bind (mcidFromValue doc) := by
      unfold foundMcid inlineMcid propertiesReference propertiesName
      simp [List.findSome?_cons, Operand.mcid, Operand.asName]
    rw [hfound]
    exact named_iff name
  · exact foundMcid_none operands

/-- The identifier of the association of a span is the one found in its operands. -/
theorem spanAssociation_mcid (parentTree : NumberTree) (graph : AccessibilityGraph) (page : PageContent)
    (stream : ObjectKey) {span : MarkedContentSpan} {operands : List Operand}
    (h : span.readings = operandReadings operands) :
    (spanAssociation doc parentTree graph page (pageProperties doc page.dictionary) stream span).mcid
      = foundMcid doc page.dictionary operands := by
  unfold MarkedContentSpan.readings operandReadings at h
  simp only [Prod.mk.injEq] at h
  obtain ⟨hmcid, hproperties, hname⟩ := h
  change spanMcid doc (pageProperties doc page.dictionary) span = _
  unfold spanMcid foundMcid
  rw [hmcid, hproperties, hname]

variable {source : ObjectKey} {locationPath : String} {bytes : Bytes} {limits : ResourceLimits}

/-- The identifier that is recorded for an operator that opens a span is the one its operands state
exactly when it is found where it is stated. -/
theorem recordedMcid_iff {summary : ContentStreamSummary} {operations : List Operation} {stop i : Nat}
    {operation : Operation}
    (hsummary : summarizeContentStream source locationPath bytes limits = .ok summary)
    (hread : OperationsRead bytes limits 0 operations stop)
    (hroom : operations.length ≤ limits.maxContentStreamOps)
    (hoperation : (operations.filter fun operation => opensSpan operation.op)[i]? = some operation)
    (hcaps : operation.WithinCaps limits) (parentTree : NumberTree) (graph : AccessibilityGraph)
    (page : PageContent) :
    ∃ span, summary.markedContent[i]? = some span
      ∧ ((spanAssociation doc parentTree graph page (pageProperties doc page.dictionary) source span).mcid
          = statedMcid doc page.dictionary operation.operands
        ↔ FoundAsStated doc page.dictionary operation.operands) := by
  have hprefix := summarizeContentStream_marked hsummary hread hroom
  have hkept : (operation.operands.foldl (keepOperand limits) ([], 0)).1 = operation.operands := by
    rw [keepOperands_eq (by simpa using hcaps.1) (by simpa using hcaps.2)]
    exact List.nil_append _
  have hreading : (spanReadings limits operations)[i]? = some (operandReadings operation.operands) := by
    unfold spanReadings
    rw [List.getElem?_map, hoperation, Option.map_some, hkept]
  obtain ⟨more, hmore⟩ := hprefix
  have hrecorded : (summary.markedContent.map MarkedContentSpan.readings)[i]?
      = some (operandReadings operation.operands) := by
    rw [← hmore, List.getElem?_append_left (List.getElem?_eq_some_iff.mp hreading).1, hreading]
  rw [List.getElem?_map] at hrecorded
  obtain ⟨span, hspan, hreadings⟩ := Option.map_eq_some_iff.mp hrecorded
  refine ⟨span, hspan, ?_⟩
  rw [spanAssociation_mcid parentTree graph page source hreadings]
  exact foundMcid_iff operation.operands

end Agreement

/-! ## Two lists -/

/-- The first token of a stream is an operand, the second too, and the third is an operator. -/
def markedOperation (bytes : Bytes) : Option Operation :=
  match ContentTokenizer.nextToken bytes {} 0 with
  | .ok (some (.operand tag), second) =>
    match ContentTokenizer.nextToken bytes {} second with
    | .ok (some (.operand properties), third) =>
      match ContentTokenizer.nextToken bytes {} third with
      | .ok (some (.operator op offset), next) =>
        if operatorKind op.text = .inlineImage then none
        else some ⟨[tag, properties], op, offset, next⟩
      | _ => none
    | _ => none
  | _ => none

theorem markedOperation_read {bytes : Bytes} {operation : Operation}
    (h : markedOperation bytes = some operation) :
    OperationsRead bytes {} 0 [operation] operation.next := by
  unfold markedOperation at h
  split at h
  · rename_i htag
    split at h
    · rename_i hproperties
      split at h
      · rename_i hop
        split at h
        · cases h
        · rename_i hkind
          cases h
          refine .cons (.cons htag (.cons hproperties (.nil _))) hop ?_ (.nil _)
          unfold GoesOn
          rw [if_neg hkind]
      · cases h
    · cases h
  · cases h

/-- A document without objects, and a page without entries. -/
def emptyModel : ModelDocument :=
  ⟨⟨1, 7⟩, none, OrdMap.empty, [], []⟩

def emptyPage : PageContent :=
  ⟨.ofNumber 1, 0, []⟩

/-- The identifier that is recorded for the only operation of a stream, and the one that it states. -/
def markedRun (bytes : Bytes) : Option (Option Int × Option Int) :=
  match markedOperation bytes, summarizeContentStream (.ofNumber 1) "root" bytes {} with
  | some operation, .ok _ =>
    if opensSpan operation.op && operation.WithinCaps {} then
      some (foundMcid emptyModel [] operation.operands, statedMcid emptyModel [] operation.operands)
    else none
  | _, _ => none

theorem markedRun_parts {bytes : Bytes} {found stated : Option Int}
    (h : markedRun bytes = some (found, stated)) :
    ∃ operation summary, summarizeContentStream (.ofNumber 1) "root" bytes {} = .ok summary
      ∧ OperationsRead bytes {} 0 [operation] operation.next ∧ opensSpan operation.op = true
      ∧ operation.WithinCaps {} ∧ foundMcid emptyModel [] operation.operands = found
      ∧ statedMcid emptyModel [] operation.operands = stated := by
  unfold markedRun at h
  split at h
  · rename_i operation summary hoperation hsummary
    split at h
    · rename_i hopens
      obtain ⟨hopens, hcaps⟩ := Bool.and_eq_true_iff.mp hopens
      cases h
      exact ⟨operation, summary, hsummary, markedOperation_read hoperation, hopens,
        of_decide_eq_true hcaps, rfl, rfl⟩
    · cases h
  · cases h

/-- A property list with an identifier. -/
def plainListStream : Bytes :=
  utf8 "/P <</MCID 3>> BDC"

theorem plainList_run : markedRun plainListStream = some (some 3, some 3) := by
  decide +kernel

/-- The identifier of a plain list is recorded. -/
theorem recordedMcid_iff_plain : ∃ (operation : Operation) (summary : ContentStreamSummary)
    (span : MarkedContentSpan),
    summarizeContentStream (.ofNumber 1) "root" plainListStream {} = .ok summary
      ∧ summary.markedContent[0]? = some span
      ∧ statedMcid emptyModel [] operation.operands = some 3
      ∧ (spanAssociation emptyModel ⟨0, [], OrdMap.empty⟩ (untaggedGraph true none) emptyPage
          (pageProperties emptyModel emptyPage.dictionary) (.ofNumber 1) span).mcid
        = statedMcid emptyModel emptyPage.dictionary operation.operands := by
  obtain ⟨operation, summary, hsummary, hread, hopens, hcaps, hfound, hstated⟩ :=
    markedRun_parts plainList_run
  have hoperation : ([operation].filter fun operation => opensSpan operation.op)[0]? = some operation := by
    rw [List.filter_cons, if_pos hopens]
    rfl
  obtain ⟨span, hspan, hiff⟩ := @recordedMcid_iff emptyModel _ _ _ _ summary [operation] operation.next 0
    operation hsummary hread (show 1 ≤ 100000 by decide) hoperation hcaps ⟨0, [], OrdMap.empty⟩ (untaggedGraph true none) emptyPage
  refine ⟨operation, summary, span, hsummary, hspan, hstated, hiff.mpr ?_⟩
  apply (foundMcid_iff operation.operands).mp
  exact hfound.trans hstated.symm

/-- A property list in which another dictionary has an identifier of its own. -/
def nestedListStream : Bytes :=
  utf8 "/P <</A<</MCID 7>>/MCID 3>> BDC"

theorem nestedList_run : markedRun nestedListStream = some (some 7, some 3) := by
  decide +kernel

/-- The identifier of the inner dictionary is recorded. -/
theorem nestedList_recorded : ∃ operation summary span,
    summarizeContentStream (.ofNumber 1) "root" nestedListStream {} = .ok summary
      ∧ OperationsRead nestedListStream {} 0 [operation] operation.next
      ∧ summary.markedContent[0]? = some span
      ∧ statedMcid emptyModel emptyPage.dictionary operation.operands = some 3
      ∧ (spanAssociation emptyModel ⟨0, [], OrdMap.empty⟩ (untaggedGraph true none) emptyPage
          (pageProperties emptyModel emptyPage.dictionary) (.ofNumber 1) span).mcid = some 7 := by
  obtain ⟨operation, summary, hsummary, hread, hopens, hcaps, hfound, hstated⟩ :=
    markedRun_parts nestedList_run
  have hkept : (operation.operands.foldl (keepOperand {}) ([], 0)).1 = operation.operands := by
    rw [keepOperands_eq (by simpa using hcaps.1) (by simpa using hcaps.2)]
    exact List.nil_append _
  have hreadings : spanReadings {} [operation] = [operandReadings operation.operands] := by
    unfold spanReadings
    rw [List.filter_cons, if_pos hopens, List.filter_nil, List.map_singleton, hkept]
  obtain ⟨more, hmore⟩ := summarizeContentStream_marked hsummary hread (show 1 ≤ 100000 by decide)
  rw [hreadings] at hmore
  obtain ⟨span, rest, hspans, hspan, -⟩ := List.map_eq_cons_iff.mp hmore.symm
  refine ⟨operation, summary, span, hsummary, hread, by rw [hspans]; rfl, hstated, ?_⟩
  rw [spanAssociation_mcid _ _ _ _ hspan]
  exact hfound

end Pdfv
