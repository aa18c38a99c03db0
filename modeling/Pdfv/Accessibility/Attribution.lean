import Pdfv.Accessibility.ParentTree
import Pdfv.Accessibility.ReadElements
import Pdfv.Accessibility.DocumentOrder
/-!
# To which element marked content belongs

A span of marked content belongs to the first structure element whose `/K` names its identifier on its
page, as a number or as a marked-content reference without `/Stm`; where there is none, to the element
that the parent tree lists at the identifier for the `/StructParents` of the page. The records of the
accessibility graph also count a reference with `/Stm`, which is about another content stream, and they
file the arrays of the parent tree by page. `markedContent_attributed_iff` says for which spans the
record has the right element nevertheless.
-/

namespace Pdfv

open Loop Fallible

/-! ## Elements that name marked content -/

/-- The marked content that a kid of an element on a page names: its identifier, its page and whether it
is in a stream of its own. -/
def kidMark (doc : ModelDocument) (page : Option ObjectKey) :
    CosObject → Option (Int × Option ObjectKey × Bool)
  | .integer mcid => some (mcid, page, false)
  | value => (doc.structureDictionary value).bind fun found =>
    if found.dictionary.isMcr then
      (integerFromDictionary found.dictionary "MCID").map fun mcid =>
        (mcid, ownPage found.dictionary page, found.dictionary.has "Stm")
    else none

/-- An element on a page names an identifier on `target`; `foreign` says whether in a stream of its own,
named by `/Stm`, or in the streams of the page. -/
def namesMark (doc : ModelDocument) (target : ObjectKey) (mcid : Int) (foreign : Bool)
    (element : AccessibilityNode × KeyedDictionary) : Bool :=
  (kidItems (element.2.dictionary.get "K")).any fun kid =>
    kidMark doc element.1.page kid = some (mcid, some target, foreign)

section Names

variable {doc : ModelDocument} {target : ObjectKey} {mcid : Int}

/-- A content item without a page is claimed by no page, as its node has none either. -/
theorem claims_mcid {node : AccessibilityNode} {itemPage : Option ObjectKey}
    (hpage : itemPage = none → node.page = none) (found : Int) :
    AccessibilityGraph.explicitNodeForMcid.claims target mcid node (.mcid found itemPage)
      = decide (found = mcid ∧ itemPage = some target) := by
  cases itemPage with
  | none => simp [AccessibilityGraph.explicitNodeForMcid.claims, hpage rfl]
  | some page => simp [AccessibilityGraph.explicitNodeForMcid.claims]

/-- A kid's content item is claimed where the kid names the identifier on the page. -/
theorem kidItem_claims (node : AccessibilityNode) (kid : CosObject) :
    (kidItem doc node.page kid).any (AccessibilityGraph.explicitNodeForMcid.claims target mcid node)
      = (decide (kidMark doc node.page kid = some (mcid, some target, false))
        || decide (kidMark doc node.page kid = some (mcid, some target, true))) := by
  have hdictionary : ((doc.structureDictionary kid).bind fun found =>
      let itemPage := ownPage found.dictionary node.page
      if found.dictionary.isMcr then
        (integerFromDictionary found.dictionary "MCID").map fun mcid =>
          AccessibilityContentItem.mcid mcid itemPage
      else if found.dictionary.isObjr then
        some (.object ((found.dictionary.get "Obj").bind CosObject.asReference) itemPage)
      else none).any (AccessibilityGraph.explicitNodeForMcid.claims target mcid node)
      = (decide (((doc.structureDictionary kid).bind fun found =>
          if found.dictionary.isMcr then
            (integerFromDictionary found.dictionary "MCID").map fun mcid =>
              (mcid, ownPage found.dictionary node.page, found.dictionary.has "Stm")
          else none) = some (mcid, some target, false))
        || decide (((doc.structureDictionary kid).bind fun found =>
          if found.dictionary.isMcr then
            (integerFromDictionary found.dictionary "MCID").map fun mcid =>
              (mcid, ownPage found.dictionary node.page, found.dictionary.has "Stm")
          else none) = some (mcid, some target, true))) := by
    cases doc.structureDictionary kid with
    | none => rfl
    | some found =>
      rw [Option.bind_some, Option.bind_some]
      have hnone : ownPage found.dictionary node.page = none → node.page = none := fun h =>
        (Option.or_eq_none_iff.mp h).2
      dsimp only
      split
      · cases integerFromDictionary found.dictionary "MCID" with
        | none => rfl
        | some named =>
          rw [Option.map_some, Option.map_some, Option.any_some, claims_mcid hnone]
          cases found.dictionary.has "Stm" <;> simp
      · split <;> rfl
  cases kid with
  | integer named =>
    rw [kidItem, kidMark, Option.any_some, claims_mcid id]
    simp
  | _ => exact hdictionary

/-- The content items of a node claim what its element names. -/
theorem contentItems_claims {nodes : List AccessibilityNode} {node : AccessibilityNode}
    {elements : List KeyedDictionary} {root : CosObject} {found : KeyedDictionary}
    (h : ElementRead doc root nodes elements node found) :
    node.contentItems.any (AccessibilityGraph.explicitNodeForMcid.claims target mcid node)
      = (namesMark doc target mcid false (node, found) || namesMark doc target mcid true (node, found)) := by
  have hkids : ∀ kids : List CosObject, (kids.filterMap (kidItem doc node.page)).any
      (AccessibilityGraph.explicitNodeForMcid.claims target mcid node)
      = ((kids.any fun kid => kidMark doc node.page kid = some (mcid, some target, false))
        || kids.any fun kid => kidMark doc node.page kid = some (mcid, some target, true)) := by
    have or_pairs : ∀ a b c d : Bool, (a || b || (c || d)) = (a || c || (b || d)) := by decide
    intro kids
    induction kids with
    | nil => rfl
    | cons kid kids ih =>
      have hkid := @kidItem_claims doc target mcid node kid
      rw [List.any_cons, List.any_cons, or_pairs, ← ih, ← hkid, List.filterMap_cons]
      cases kidItem doc node.page kid <;> rfl
  rw [h.items, hkids, List.any_reverse, List.any_reverse]
  rfl

/-- The element that the graph finds is the first that names the identifier, in whichever stream. -/
theorem explicitNodeForMcid_eq {graph : AccessibilityGraph} {root : CosObject}
    {elements : List KeyedDictionary} (h : ReadFrom doc root graph.nodes elements) :
    graph.explicitNodeForMcid target mcid = ((graph.nodes.zip elements).find? fun element =>
      namesMark doc target mcid false element || namesMark doc target mcid true element).map
        fun element => element.1.id := by
  have hfind : ∀ {nodes all : List AccessibilityNode} {elements found : List KeyedDictionary},
      List.Forall₂ (ElementRead doc root all found) nodes elements →
      (nodes.find? fun node => node.contentItems.any
          (AccessibilityGraph.explicitNodeForMcid.claims target mcid node)).map AccessibilityNode.id
        = ((nodes.zip elements).find? fun element =>
            namesMark doc target mcid false element || namesMark doc target mcid true element).map
              fun element => element.1.id := by
    intro nodes all elements found hread
    induction hread with
    | nil => rfl
    | @cons node found nodes elements hhead _ ih =>
      rw [List.zip_cons_cons, List.find?_cons, List.find?_cons, contentItems_claims hhead]
      cases namesMark doc target mcid false (node, found) || namesMark doc target mcid true (node, found)
      · exact ih
      · rfl
  exact hfind h

end Names

/-! ## The element of a span -/

section Attribution

variable (doc : ModelDocument) (graph : AccessibilityGraph) (elements : List KeyedDictionary)

/-- The first element in tree order that names an identifier on a page, in the streams of the page or in
a stream of its own. -/
def namingNode (target : ObjectKey) (mcid : Int) (foreign : Bool) : Option Nat :=
  ((graph.nodes.zip elements).find? (namesMark doc target mcid foreign)).map fun element => element.1.id

/-- The element that the parent tree lists for an identifier on a page. -/
def listedNode (entries : List (Int × CosObject)) (page : PageContent) (mcid : Int) : Option Nat :=
  (integerFromDictionary page.dictionary "StructParents").bind fun parent =>
    (listedElement doc entries parent mcid).bind graph.nodeByKey

/-- The element that marked content belongs to. -/
def attributedNode (entries : List (Int × CosObject)) (page : PageContent) (mcid : Int) : Option Nat :=
  (namingNode doc graph elements page.key mcid false).or (listedNode doc graph entries page mcid)

/-- The pages of a document by their numbers. -/
def pageOrdinalsOf (pages : List PageContent) : OrdMap ObjectKey Nat :=
  pages.foldl (fun (ordinals : OrdMap ObjectKey Nat) page => ordinals.insert page.key page.ordinal)
    OrdMap.empty

/-- The element that is filed in the parent tree for an identifier on a page: under the page, else under
the stand-in for its `/StructParents`. -/
def filedNode (pages : List PageContent) (entries : List (Int × CosObject)) (page : PageContent)
    (mcid : Int) : Option Nat :=
  let filed := filedElement doc (pageOrdinalsOf pages) (collectParentTreeOwners doc pages) entries
  (integerFromDictionary page.dictionary "StructParents").bind fun parent =>
    ((filed page.key mcid).or ((syntheticParentKey parent).bind fun key => filed key mcid)).bind
      graph.nodeByKey

/-- Where an element names the identifier, none before it does so for a stream of its own. Where none
names it but some do for a stream of their own, the first of these is the one that the parent tree
lists. Where the parent tree alone decides, it is filed for the page as it is listed. -/
def AttributionHolds (pages : List PageContent) (entries : List (Int × CosObject)) (page : PageContent)
    (mcid : Int) : Prop :=
  match namingNode doc graph elements page.key mcid false,
    namingNode doc graph elements page.key mcid true with
  | some node, other => ∀ foreign, other = some foreign → node ≤ foreign
  | none, some foreign => listedNode doc graph entries page mcid = some foreign
  | none, none => filedNode doc graph pages entries page mcid = listedNode doc graph entries page mcid

end Attribution

section Nodes

variable {doc : ModelDocument} {graph : AccessibilityGraph} {elements : List KeyedDictionary}
  {root : CosObject} {target : ObjectKey} {mcid : Int}

/-- In a list with growing numbers, the first that has one of two properties is the first of those that
have one or the other. -/
theorem firstId_or {α : Type} (id : α → Nat) (p q : α → Bool) {items : List α}
    (hgrowing : items.Pairwise fun a b => id a < id b) :
    (items.find? fun item => p item || q item).map id
      = Option.merge min ((items.find? p).map id) ((items.find? q).map id) := by
  induction items with
  | nil => rfl
  | cons item items ih =>
    obtain ⟨hfirst, hrest⟩ := List.pairwise_cons.mp hgrowing
    have hlater : ∀ r : α → Bool, ∀ other, items.find? r = some other → id item < id other :=
      fun r other hother => hfirst other (List.mem_of_find?_eq_some hother)
    rw [List.find?_cons, List.find?_cons, List.find?_cons]
    cases hp : p item with
    | true =>
      cases hq : q item with
      | true => simp [Option.merge]
      | false =>
        cases hother : items.find? q with
        | none => simp [Option.merge]
        | some other => simp [Option.merge, Nat.le_of_lt (hlater q other hother)]
    | false =>
      cases hq : q item with
      | true =>
        cases hother : items.find? p with
        | none => simp [Option.merge]
        | some other => simp [Option.merge, Nat.le_of_lt (hlater p other hother)]
      | false => exact ih hrest

theorem explicitNodeForMcid_merge (h : ReadFrom doc root graph.nodes elements)
    (hlinked : Linked graph.nodes) :
    graph.explicitNodeForMcid target mcid
      = Option.merge min (namingNode doc graph elements target mcid false)
          (namingNode doc graph elements target mcid true) := by
  have hgrowing : (graph.nodes.zip elements).Pairwise fun a b => a.1.id < b.1.id := by
    have hids : (graph.nodes.map AccessibilityNode.id).Pairwise (· < ·) := by
      rw [hlinked.ids_eq]
      exact List.pairwise_lt_range
    rw [← List.map_fst_zip (Nat.le_of_eq h.length_eq), List.map_map] at hids
    exact List.pairwise_map.mp hids
  rw [explicitNodeForMcid_eq h, firstId_or _ _ _ hgrowing]
  rfl

/-- The node of an identifier is the right one exactly where the attribution holds. -/
theorem nodeForMcid_iff {pages : List PageContent} {entries : List (Int × CosObject)}
    {page : PageContent} (h : ReadFrom doc root graph.nodes elements) (hlinked : Linked graph.nodes) :
    nodeForMcid (numberTreeOf doc (pageOrdinalsOf pages) (collectParentTreeOwners doc pages) entries)
        graph page mcid = attributedNode doc graph elements entries page mcid
      ↔ AttributionHolds doc graph elements pages entries page mcid := by
  have hnode : nodeForMcid
      (numberTreeOf doc (pageOrdinalsOf pages) (collectParentTreeOwners doc pages) entries) graph page
      mcid = (graph.explicitNodeForMcid page.key mcid).or
        (filedNode doc graph pages entries page mcid) := by
    unfold nodeForMcid filedNode
    simp only [mcidRefs_lookup]
  rw [hnode, explicitNodeForMcid_merge h hlinked]
  unfold attributedNode AttributionHolds
  cases namingNode doc graph elements page.key mcid false with
  | none =>
    cases namingNode doc graph elements page.key mcid true with
    | none => rfl
    | some foreign => exact eq_comm
  | some node =>
    cases namingNode doc graph elements page.key mcid true with
    | none => simp
    | some foreign => simp

end Nodes

/-! ### An ordinary parent tree -/

/-- The parent tree has one entry for the `/StructParents` of a page, and no other is filed for the
page. -/
structure OrdinaryFor (doc : ModelDocument) (pages : List PageContent)
    (entries : List (Int × CosObject)) (page : PageContent) (parent : Int) (value : CosObject) :
    Prop where
  key : integerFromDictionary page.dictionary "StructParents" = some parent
  listed : (parent, value) ∈ entries
  once : ∀ entry ∈ entries, entry.1 = parent → entry.2 = value
  others : ∀ entry ∈ entries,
    filedUnder doc (pageOrdinalsOf pages) (collectParentTreeOwners doc pages) entry.1 = some page.key →
      entry.1 = parent
  noStandIn : ∀ entry ∈ entries, ∀ key, syntheticParentKey parent = some key →
    filedUnder doc (pageOrdinalsOf pages) (collectParentTreeOwners doc pages) entry.1 ≠ some key

/-- The entry is filed under its page as an array, or it gives no element either way. -/
def FiledPlainly (doc : ModelDocument) (graph : AccessibilityGraph) (pages : List PageContent)
    (page : PageContent) (parent : Int) (value : CosObject) (mcid : Int) : Prop :=
  let filed :=
    filedUnder doc (pageOrdinalsOf pages) (collectParentTreeOwners doc pages) parent = some page.key
  (filed ∧ ∀ key, value ≠ .reference key) ∨
    ((elementAt (arrayOf doc value) mcid).bind graph.nodeByKey = none ∧
      ∀ key, filed → mcid = 0 → value = .reference key → graph.nodeByKey key = none)

section Ordinary

variable {doc : ModelDocument} {graph : AccessibilityGraph} {elements : List KeyedDictionary}
  {root : CosObject} {mcid : Int}

theorem findSome?_of_only {α β : Type} {f : α → Option β} {items : List α} {item : α} (h : item ∈ items)
    (honly : ∀ other ∈ items, f other = none ∨ f other = f item) : items.findSome? f = f item := by
  cases hitem : f item with
  | none =>
    rw [List.findSome?_eq_none_iff]
    intro other hother
    rcases honly other hother with hnone | hsame
    · exact hnone
    · rw [hsame, hitem]
  | some b =>
    cases hfound : items.findSome? f with
    | none =>
      rw [List.findSome?_eq_none_iff.mp hfound item h] at hitem
      cases hitem
    | some c =>
      obtain ⟨other, hother, hc⟩ := List.exists_of_findSome?_eq_some hfound
      rcases honly other hother with hnone | hsame
      · rw [hnone] at hc
        cases hc
      · rw [← hc, hsame, hitem]

/-- No node has the key of an array. -/
theorem nodeByKey_array (h : ReadFrom doc root graph.nodes elements) {key : ObjectKey}
    {values : List CosObject}
    (harray : (doc.objects.get? key).map IndirectObject.object = some (.array values)) :
    graph.nodeByKey key = none := by
  unfold AccessibilityGraph.nodeByKey
  rw [Option.map_eq_none_iff, List.find?_eq_none]
  intro node hnode hkey
  obtain ⟨found, hfound⟩ := h.exists_found (List.mem_reverse.mp hnode)
  obtain ⟨value, hvalue, -⟩ := hfound.listed
  have hfoundKey : found.key = some key := hfound.described.key.symm.trans (of_decide_eq_true hkey)
  have hvalue := (Option.filter_eq_some_iff.mp hvalue).1
  unfold ModelDocument.dictionaryRefOrInline at hvalue
  split at hvalue
  · obtain ⟨object, hobject, hvalue⟩ := Option.bind_eq_some_iff.mp hvalue
    obtain ⟨dictionary, hdictionary, rfl⟩ := Option.map_eq_some_iff.mp hvalue
    cases hfoundKey
    rw [hobject, Option.map_some, Option.some_inj] at harray
    rw [harray] at hdictionary
    cases hdictionary
  · cases hvalue
    cases hfoundKey
  · cases hvalue
    cases hfoundKey
  · cases hvalue

/-- A reference refers to a stored array, or stands for an empty one. -/
theorem arrayOf_reference (doc : ModelDocument) (key : ObjectKey) :
    (∃ values, (doc.objects.get? key).map IndirectObject.object = some (.array values))
      ∨ arrayOf doc (.reference key) = [] := by
  unfold arrayOf
  dsimp only
  split
  · rename_i values harray
    exact .inl ⟨values, harray⟩
  · exact .inr rfl

/-- The only entry that counts gives what is filed and what is listed. -/
theorem OrdinaryFor.filed {pages : List PageContent} {entries : List (Int × CosObject)}
    {page : PageContent} {parent : Int} {value : CosObject}
    (h : OrdinaryFor doc pages entries page parent value) :
    filedNode doc graph pages entries page mcid
      = (if filedUnder doc (pageOrdinalsOf pages) (collectParentTreeOwners doc pages) parent
            = some page.key then filedItem value mcid else none).bind graph.nodeByKey := by
  have hfiled : filedElement doc (pageOrdinalsOf pages) (collectParentTreeOwners doc pages) entries
      page.key mcid = if filedUnder doc (pageOrdinalsOf pages) (collectParentTreeOwners doc pages) parent
            = some page.key then filedItem value mcid else none := by
    refine findSome?_of_only (List.mem_reverse.mpr h.listed) ?_
    intro entry hentry
    dsimp only
    have hmem := List.mem_reverse.mp hentry
    split
    · rename_i hunder
      have hkey := h.others entry hmem hunder
      rw [← hkey, if_pos hunder, h.once entry hmem hkey]
      exact .inr rfl
    · exact .inl rfl
  have hstandIn : ((syntheticParentKey parent).bind fun key =>
      filedElement doc (pageOrdinalsOf pages) (collectParentTreeOwners doc pages) entries key mcid)
      = none := by
    rw [Option.bind_eq_none_iff]
    intro key hkey
    unfold filedElement
    rw [List.findSome?_eq_none_iff]
    exact fun entry hentry => if_neg (h.noStandIn entry (List.mem_reverse.mp hentry) key hkey)
  unfold filedNode
  rw [h.key, Option.bind_some, hfiled, hstandIn, Option.or_none]

theorem OrdinaryFor.listedNode {pages : List PageContent} {entries : List (Int × CosObject)}
    {page : PageContent} {parent : Int} {value : CosObject}
    (h : OrdinaryFor doc pages entries page parent value) :
    Pdfv.listedNode doc graph entries page mcid
      = (elementAt (arrayOf doc value) mcid).bind graph.nodeByKey := by
  have hlisted : listedElement doc entries parent mcid = elementAt (arrayOf doc value) mcid := by
    have hself : (fun entry : Int × CosObject => if entry.1 = parent
        then elementAt (arrayOf doc entry.2) mcid else none) (parent, value)
        = elementAt (arrayOf doc value) mcid := if_pos rfl
    rw [← hself]
    refine findSome?_of_only (List.mem_reverse.mpr h.listed) ?_
    intro entry hentry
    dsimp only
    split
    · rename_i hkey
      rw [if_pos rfl, h.once entry (List.mem_reverse.mp hentry) hkey]
      exact .inr rfl
    · exact .inl rfl
  unfold Pdfv.listedNode
  rw [h.key, Option.bind_some, hlisted]

/-- In an ordinary parent tree an element is filed as it is listed exactly where the entry is an array
that is filed under the page, or gives no element either way. -/
theorem filedNode_iff_plainly {pages : List PageContent} {entries : List (Int × CosObject)}
    {page : PageContent} {parent : Int} {value : CosObject}
    (hread : ReadFrom doc root graph.nodes elements)
    (h : OrdinaryFor doc pages entries page parent value) :
    filedNode doc graph pages entries page mcid = listedNode doc graph entries page mcid ↔
      FiledPlainly doc graph pages page parent value mcid := by
  rw [h.filed, h.listedNode]
  unfold FiledPlainly
  dsimp only
  split
  · rename_i hunder
    simp only [hunder, true_and, forall_const]
    have hnone : elementAt [] mcid = none := by
      unfold elementAt
      split <;> rfl
    cases value with
    | reference key =>
      have hfiled : (filedItem (.reference key) mcid).bind graph.nodeByKey
          = if mcid = 0 then graph.nodeByKey key else none := by
        show (if mcid = 0 then some key else none).bind graph.nodeByKey = _
        split <;> rfl
      rw [hfiled]
      rcases arrayOf_reference doc key with ⟨values, harray⟩ | hempty
      · -- a stored array: it is no element, whatever it lists
        rw [nodeByKey_array hread harray, ite_self]
        simp [nodeByKey_array hread harray, eq_comm]
      · rw [hempty, hnone]
        simp
    | array values => simp [filedItem, arrayOf]
    | _ => simp [filedItem, arrayOf, hnone]
  · rename_i hunder
    simp only [hunder, false_and, false_or, false_implies, implies_true, and_true, Option.bind_none]
    exact eq_comm

end Ordinary

/-! ## Records -/

/-- A span of marked content with an identifier, in a content stream of a page. -/
structure PageSpan (crates : Crates) (doc : ModelDocument) (limits : ResourceLimits)
    (page : PageContent) (stream : ObjectKey) (span : MarkedContentSpan) (mcid : Int) : Prop where
  inStream : ∃ entry ∈ (contentStreams doc page.dictionary).zipIdx, entry.1.key = stream ∧
    ∃ decoded summary, entry.1.stream.decodedBytes crates limits = .ok decoded ∧
      summarizeContentStream entry.1.key s!"root/page[{page.ordinal}]/contentStream[{entry.2}]" decoded
        limits = .ok summary ∧ span ∈ summary.markedContent
  identifier : spanMcid doc (pageProperties doc page.dictionary) span = some mcid

section Records

variable {crates : Crates} {doc : ModelDocument} {limits : ResourceLimits} {parentTree : NumberTree}
  {page : PageContent}

/-- What one item of a fold makes is there at the end, if the other items keep it. -/
theorem foldl_reaches {α β : Type} {P Q : β → Prop} {f : β → α → β} (hkeepQ : ∀ b a, Q b → Q (f b a))
    (hkeepP : ∀ b a, P b → P (f b a)) {a : α} {items : List α} (ha : a ∈ items)
    (hmake : ∀ b, Q b → P (f b a)) {b : β} (hb : Q b) : P (items.foldl f b) := by
  induction items generalizing b with
  | nil => cases ha
  | cons item items ih =>
    rw [List.foldl_cons]
    rcases List.mem_cons.mp ha with rfl | ha
    · have hrest : ∀ (items : List α) (b : β), P b → P (items.foldl f b) := by
        intro items
        induction items with
        | nil => exact fun _ h => h
        | cons item items ih => exact fun b h => ih _ (hkeepP b item h)
      exact hrest items _ (hmake b hb)
    · exact ih ha (hkeepQ b item hb)

/-- The association of a span depends on the nodes alone. -/
theorem spanAssociation_congr {graph other : AccessibilityGraph} (h : graph.nodes = other.nodes)
    (properties : Dictionary) (stream : ObjectKey) (span : MarkedContentSpan) :
    spanAssociation doc parentTree graph page properties stream span
      = spanAssociation doc parentTree other page properties stream span := by
  have hnode : nodeForMcid parentTree graph page = nodeForMcid parentTree other page := by
    funext mcid
    unfold nodeForMcid AccessibilityGraph.explicitNodeForMcid
    rw [h]
    have hkey : graph.nodeByKey = other.nodeByKey := by
      funext key
      unfold AccessibilityGraph.nodeByKey
      rw [h]
    rw [hkey]
  unfold spanAssociation
  rw [hnode, h]

theorem collectStreamAssociations_keep {graph : AccessibilityGraph} (entry : KeyedStream × Nat)
    {record : AccessibilityMarkedContent} (h : record ∈ graph.markedContent) :
    record ∈ (collectStreamAssociations doc parentTree crates limits page graph entry).markedContent := by
  unfold collectStreamAssociations
  split
  · exact h
  · split
    · exact h
    · exact List.mem_append_left _ h

/-- Every span of a page has its association among the records. -/
theorem collectContentAssociations_mem {pages : List PageContent} {graph : AccessibilityGraph}
    (hpage : page ∈ pages) {stream : ObjectKey} {span : MarkedContentSpan} {mcid : Int}
    (h : PageSpan crates doc limits page stream span mcid) :
    spanAssociation doc parentTree graph page (pageProperties doc page.dictionary) stream span
      ∈ (collectContentAssociations doc parentTree crates limits pages graph).markedContent := by
  obtain ⟨entry, hentry, rfl, decoded, summary, hdecoded, hsummary, hspan⟩ := h.inStream
  have hnodes : ∀ (page : PageContent) (entries : List (KeyedStream × Nat)) (start : AccessibilityGraph),
      start.nodes = graph.nodes →
      (entries.foldl (collectStreamAssociations doc parentTree crates limits page) start).nodes
        = graph.nodes := by
    intro page entries
    induction entries with
    | nil => exact fun _ h => h
    | cons entry entries ih =>
      exact fun start h => ih _ ((collectStreamAssociations_nodes parentTree page start entry).trans h)
  have hkeep : ∀ (page : PageContent) (entries : List (KeyedStream × Nat)) (start : AccessibilityGraph)
      (record : AccessibilityMarkedContent), record ∈ start.markedContent →
      record ∈ (entries.foldl (collectStreamAssociations doc parentTree crates limits page)
        start).markedContent := by
    intro page entries
    induction entries with
    | nil => exact fun _ _ h => h
    | cons entry entries ih =>
      exact fun start record h => ih _ record (collectStreamAssociations_keep entry h)
  unfold collectContentAssociations
  refine @foldl_reaches _ _ (fun found => _ ∈ found.markedContent)
    (fun found : AccessibilityGraph => found.nodes = graph.nodes) _
    (fun found page h => hnodes page _ found h) (fun found page h => hkeep page _ found _ h) page pages
    hpage ?_ graph rfl
  intro start hstart
  refine @foldl_reaches _ _ (fun found => _ ∈ found.markedContent)
    (fun found : AccessibilityGraph => found.nodes = graph.nodes) _
    (fun found entry h => (collectStreamAssociations_nodes parentTree page found entry).trans h)
    (fun found entry h => collectStreamAssociations_keep entry h) entry _ hentry ?_ start hstart
  intro found hfound
  unfold collectStreamAssociations
  rw [hdecoded]
  dsimp only
  rw [hsummary, spanAssociation_congr hfound.symm]
  exact List.mem_append_right _ (List.mem_map_of_mem hspan)

theorem collectParentTreeObjectAssociations_keep (owners : OrdMap Int ParentTreeOwner)
    {graph : AccessibilityGraph} {record : AccessibilityMarkedContent}
    (h : record ∈ graph.markedContent) :
    record ∈ (collectParentTreeObjectAssociations doc parentTree owners graph).markedContent := by
  have hentry : ∀ (start : AccessibilityGraph) (entry : ObjectKey × ObjectKey),
      record ∈ start.markedContent →
      record ∈ (collectObjectAssociation doc owners start entry).markedContent := by
    intro start entry h
    unfold collectObjectAssociation
    dsimp only
    split
    · exact h
    · split
      · exact List.mem_append_left _ h
      · exact h
  unfold collectParentTreeObjectAssociations
  generalize parentTree.objectRefs.entries = entries
  induction entries generalizing graph with
  | nil => exact h
  | cons entry entries ih => exact ih (hentry graph entry h)

end Records

/-- The record of a span: it stands in the graph and has the place and the identifier of the span. -/
structure IsRecordOf (graph : AccessibilityGraph) (page : PageContent) (stream : ObjectKey)
    (span : MarkedContentSpan) (mcid : Int) (record : AccessibilityMarkedContent) : Prop where
  recorded : record ∈ graph.markedContent
  pageOrdinal : record.pageOrdinal = page.ordinal
  stream : record.stream = stream
  location : record.location = span.location
  mcid : record.mcid = some mcid

/-- What is associated with the nodes of the traversal, in a document with a structure tree. -/
theorem buildAccessibilityGraph_associations {crates : Crates} {doc : ModelDocument}
    {limits : ResourceLimits} {graph : AccessibilityGraph}
    (hgraph : buildAccessibilityGraph crates doc limits = .ok graph) {structTree : Dictionary}
    (htree : doc.structureTreeRoot = some structTree) {pages : List PageContent}
    (hpages : collectPages doc limits = .ok pages) :
    ∃ parentTree traversed,
      parentTree = numberTreeOf doc (pageOrdinalsOf pages) (collectParentTreeOwners doc pages)
        (parentTreeEntries doc limits structTree) ∧
      graph = collectArtifacts (collectParentTreeObjectAssociations doc parentTree
        (collectParentTreeOwners doc pages)
        (collectContentAssociations doc parentTree crates limits pages traversed)) := by
  unfold buildAccessibilityGraph at hgraph
  rw [hpages] at hgraph
  simp only [ok_bind] at hgraph
  rw [show (doc.catalogDictionary.bind fun catalog => doc.dictionaryFromEntry catalog "StructTreeRoot")
    = some structTree from htree] at hgraph
  dsimp only at hgraph
  obtain ⟨traversed, -, hgraph⟩ := bind_eq_ok.mp hgraph
  refine ⟨_, traversed, ?_, (pure_eq_ok.mp hgraph).symm⟩
  unfold parentTreeEntries
  cases structTree.get "ParentTree" with
  | none => rfl
  | some value => exact collectParentTree_eq value _

/-- The association of a span, made with the nodes of the finished graph, is one of its records. -/
theorem spanAssociation_recorded {crates : Crates} {doc : ModelDocument} {limits : ResourceLimits}
    {graph : AccessibilityGraph} (hgraph : buildAccessibilityGraph crates doc limits = .ok graph)
    {structTree : Dictionary} (htree : doc.structureTreeRoot = some structTree)
    {pages : List PageContent} (hpages : collectPages doc limits = .ok pages) {page : PageContent}
    (hpage : page ∈ pages) {stream : ObjectKey} {span : MarkedContentSpan} {mcid : Int}
    (hspan : PageSpan crates doc limits page stream span mcid) :
    spanAssociation doc
      (numberTreeOf doc (pageOrdinalsOf pages) (collectParentTreeOwners doc pages)
        (parentTreeEntries doc limits structTree)) graph page (pageProperties doc page.dictionary) stream
      span ∈ graph.markedContent := by
  obtain ⟨parentTree, traversed, hparent, rfl⟩ :=
    buildAccessibilityGraph_associations hgraph htree hpages
  have hnodes : (collectArtifacts (collectParentTreeObjectAssociations doc parentTree
      (collectParentTreeOwners doc pages)
      (collectContentAssociations doc parentTree crates limits pages traversed))).nodes
      = traversed.nodes := by
    show (collectParentTreeObjectAssociations doc parentTree (collectParentTreeOwners doc pages)
      (collectContentAssociations doc parentTree crates limits pages traversed)).nodes = traversed.nodes
    rw [collectParentTreeObjectAssociations_nodes, collectContentAssociations_nodes]
  rw [← hparent, spanAssociation_congr hnodes]
  exact collectParentTreeObjectAssociations_keep _ (collectContentAssociations_mem hpage hspan)

/-- The nodes of a graph stand in tree order and are read from elements, and every span of marked content
of a page has a record, whose node is the element that the span belongs to exactly where the attribution
holds. In an ordinary parent tree an element is filed as it is listed exactly where its entry is an array
that is filed under the page, or gives no element either way. -/
theorem markedContent_attributed_iff (crates : Crates) (doc : ModelDocument) (limits : ResourceLimits)
    (graph : AccessibilityGraph) (hgraph : buildAccessibilityGraph crates doc limits = .ok graph)
    (structTree : Dictionary) (htree : doc.structureTreeRoot = some structTree)
    (pages : List PageContent) (hpages : collectPages doc limits = .ok pages) :
    documentOrder graph.nodes = graph.nodes ∧ ∃ elements, ReadFrom doc doc.treeRoot graph.nodes elements ∧
      ∀ page ∈ pages, ∀ stream span mcid, PageSpan crates doc limits page stream span mcid →
        (∃ record, IsRecordOf graph page stream span mcid record ∧
          (record.node = attributedNode doc graph elements (parentTreeEntries doc limits structTree) page
              mcid ↔
            AttributionHolds doc graph elements pages (parentTreeEntries doc limits structTree) page
              mcid)) ∧
        ∀ parent value,
          OrdinaryFor doc pages (parentTreeEntries doc limits structTree) page parent value →
          (filedNode doc graph pages (parentTreeEntries doc limits structTree) page mcid
              = listedNode doc graph (parentTreeEntries doc limits structTree) page mcid ↔
            FiledPlainly doc graph pages page parent value mcid) := by
  obtain ⟨elements, helements⟩ := buildAccessibilityGraph_reads hgraph
  obtain ⟨hlinked, -, -⟩ := buildAccessibilityGraph_linked hgraph
  refine ⟨buildAccessibilityGraph_documentOrder hgraph, elements, helements, ?_⟩
  intro page hpage stream span mcid hspan
  have hrecord := spanAssociation_recorded hgraph htree hpages hpage hspan
  refine ⟨⟨_, ⟨hrecord, rfl, rfl, rfl, hspan.identifier⟩, ?_⟩,
    fun parent value => filedNode_iff_plainly helements⟩
  rw [← nodeForMcid_iff helements hlinked]
  unfold spanAssociation
  dsimp only
  rw [hspan.identifier, Option.bind_some]

/-! ## A reference to a form -/

/-- A stored content stream without filters. -/
def storedContent (content : Bytes) : CosObject :=
  .stream ⟨[], ⟨0, content.length⟩, some content.length, content.length, [], [], content, true, true⟩

/-- A document with one page, object 3, whose content stream, object 4, has one span with identifier 0,
and a structure tree, object 5, of the given elements. -/
def taggedDocument (elements : List (ObjectKey × Dictionary)) : ModelDocument :=
  let entry := fun (name : String) (value : CosObject) => (PdfName.fromStatic name, value)
  let reference := fun number => CosObject.reference (.ofNumber number)
  let objects : List (ObjectKey × CosObject) :=
    [(.ofNumber 1, .dictionary [entry "Pages" (reference 2), entry "StructTreeRoot" (reference 5)]),
     (.ofNumber 2, .dictionary [entry "Kids" (.array [reference 3])]),
     (.ofNumber 3, .dictionary [entry "Contents" (reference 4),
       entry "Type" (.name (PdfName.fromStatic "Page"))]),
     (.ofNumber 4, storedContent (utf8 "/P<</MCID 0>>BDC EMC")),
     (.ofNumber 5, .dictionary [entry "K" (.array (elements.map fun element => .reference element.1))])]
    ++ elements.map fun element => (element.1, .dictionary element.2)
  ⟨⟨1, 7⟩, some (.ofNumber 1), objects.foldl (fun stored object =>
    stored.insert object.1 ⟨object.1, 0, object.2⟩) OrdMap.empty, [], []⟩

/-- An element on the page, with one kid. -/
def elementOfPage (role : String) (kid : CosObject) : Dictionary :=
  [(PdfName.fromStatic "K", kid), (PdfName.fromStatic "Pg", .reference (.ofNumber 3)),
   (PdfName.fromStatic "S", .name (PdfName.fromStatic role))]

/-- A figure names identifier 0 of a form, object 8; the paragraph after it names identifier 0 of the
page. -/
def figureBeforeParagraph : ModelDocument :=
  taggedDocument
    [(.ofNumber 6, elementOfPage "Figure" (.dictionary [(PdfName.fromStatic "MCID", .integer 0),
       (PdfName.fromStatic "Stm", .reference (.ofNumber 8))])),
     (.ofNumber 7, elementOfPage "P" (.integer 0))]

/-- The elements of a graph whose elements are all stored. -/
def storedElements (doc : ModelDocument) (graph : AccessibilityGraph) : List KeyedDictionary :=
  graph.nodes.map fun node => ⟨node.key, none, (node.key.bind doc.dictionaryAt).getD []⟩

/-- The span of the page belongs to the paragraph, but its record names the figure. -/
theorem figureBeforeParagraph_attributed :
    (buildAccessibilityGraph Crates.unused figureBeforeParagraph {}).toOption.map (fun graph =>
      (graph.nodes.map AccessibilityNode.role,
        graph.markedContent.map fun record => (record.mcid, record.node),
        attributedNode figureBeforeParagraph graph (storedElements figureBeforeParagraph graph) []
          ⟨.ofNumber 3, 0, []⟩ 0))
      = some (["Figure", "P"], [(some 0, some 0)], some 1) := by
  decide +kernel

/-! ## A paragraph -/

/-- A paragraph names identifier 0 of the page. -/
def paragraphOfPage : ModelDocument :=
  taggedDocument [(.ofNumber 6, elementOfPage "P" (.integer 0))]

def paragraphPage : PageContent :=
  ⟨.ofNumber 3, 0, [(PdfName.fromStatic "Contents", .reference (.ofNumber 4)),
    (PdfName.fromStatic "Type", .name (PdfName.fromStatic "Page"))]⟩

theorem paragraphOfPage_span :
    ∃ span, PageSpan Crates.unused paragraphOfPage {} paragraphPage (.ofNumber 4) span 0 := by
  have hstream : ∃ stream decoded summary span,
      (contentStreams paragraphOfPage paragraphPage.dictionary).zipIdx = [(⟨.ofNumber 4, stream⟩, 0)] ∧
      stream.decodedBytes Crates.unused {} = .ok decoded ∧
      summarizeContentStream (.ofNumber 4) s!"root/page[{paragraphPage.ordinal}]/contentStream[{0}]"
        decoded {} = .ok summary ∧
      summary.markedContent = [span] ∧ span.mcid = some 0 :=
    ⟨_, _, _, _, rfl, rfl, rfl, rfl, rfl⟩
  obtain ⟨stream, decoded, summary, span, hstreams, hdecoded, hsummary, hspans, hmcid⟩ := hstream
  refine ⟨span, ⟨(⟨.ofNumber 4, stream⟩, 0), ?_, rfl, decoded, summary, hdecoded, hsummary, ?_⟩, ?_⟩
  · rw [hstreams]
    exact List.mem_singleton_self _
  · rw [hspans]
    exact List.mem_singleton_self _
  · unfold spanMcid
    rw [hmcid]
    rfl

theorem paragraphOfPage_run :
    (buildAccessibilityGraph Crates.unused paragraphOfPage {}).toOption.map (fun graph =>
      graph.nodes.map fun node => (node.parent, node.page)) = some [(none, some (.ofNumber 3))] := by
  decide +kernel

/-- Every element of the tree is the paragraph. -/
theorem paragraphOfPage_element {nodes : List AccessibilityNode} {elements : List KeyedDictionary}
    {node : AccessibilityNode} {found : KeyedDictionary} (hparent : node.parent = none)
    (h : ElementRead paragraphOfPage paragraphOfPage.treeRoot nodes elements node found) :
    found.dictionary = elementOfPage "P" (.integer 0) := by
  obtain ⟨value, hvalue, hlisted⟩ := h.listed
  rw [hparent] at hlisted
  have hroot : paragraphOfPage.treeRoot.flatten = [.reference (.ofNumber 6)] := rfl
  obtain rfl : value = .reference (.ofNumber 6) := List.mem_singleton.mp (hroot ▸ hlisted)
  have hfound : paragraphOfPage.structureDictionary (.reference (.ofNumber 6))
      = some ⟨some (.ofNumber 6), some 0, elementOfPage "P" (.integer 0)⟩ := rfl
  rw [hfound] at hvalue
  cases hvalue
  rfl

/-- The span of the page is recorded with the paragraph. -/
theorem paragraphOfPage_attributed :
    ∃ graph record elements, buildAccessibilityGraph Crates.unused paragraphOfPage {} = .ok graph ∧
      record ∈ graph.markedContent ∧ record.mcid = some 0 ∧
      record.node = attributedNode paragraphOfPage graph elements [] paragraphPage 0 ∧
      (namingNode paragraphOfPage graph elements paragraphPage.key 0 false).isSome := by
  have hrun := paragraphOfPage_run
  cases hgraph : buildAccessibilityGraph Crates.unused paragraphOfPage {} with
  | error e =>
    rw [hgraph] at hrun
    cases hrun
  | ok graph =>
    rw [hgraph] at hrun
    have hnodes : graph.nodes.map (fun node => (node.parent, node.page))
        = [(none, some (.ofNumber 3))] := Option.some.inj hrun
    obtain ⟨-, elements, hread, hspans⟩ := markedContent_attributed_iff Crates.unused paragraphOfPage {}
      graph hgraph _ rfl [paragraphPage] rfl
    obtain ⟨span, hspan⟩ := paragraphOfPage_span
    obtain ⟨⟨record, hrecord, hiff⟩, -⟩ :=
      hspans paragraphPage (List.mem_singleton_self _) (.ofNumber 4) span 0 hspan
    obtain ⟨node, hnode⟩ := List.length_eq_one_iff.mp (by simpa using congrArg List.length hnodes)
    rw [hnode] at hnodes hread
    obtain ⟨hparent, hpage⟩ := Prod.mk.inj (List.cons.inj hnodes).1
    cases hread with
    | @cons _ found _ rest hfound hrest =>
      cases hrest
      have hdictionary := paragraphOfPage_element hparent hfound
      have hnames : ∀ foreign, namesMark paragraphOfPage (.ofNumber 3) 0 foreign (node, found)
          = !foreign := by
        intro foreign
        unfold namesMark
        rw [hdictionary, hpage]
        cases foreign <;> rfl
      have hnaming : ∀ foreign, namingNode paragraphOfPage graph [found] paragraphPage.key 0 foreign
          = if foreign then none else some node.id := by
        intro foreign
        unfold namingNode
        rw [hnode, List.zip_cons_cons, List.zip_nil_left, List.find?_cons,
          show paragraphPage.key = .ofNumber 3 from rfl, hnames]
        cases foreign <;> rfl
      refine ⟨graph, record, [found], rfl, hrecord.recorded, hrecord.mcid, hiff.mpr ?_, ?_⟩
      · unfold AttributionHolds
        rw [hnaming, hnaming]
        intro foreign hforeign
        cases hforeign
      · rw [hnaming]
        rfl

end Pdfv
