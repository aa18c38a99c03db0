import Pdfv.Accessibility.Forest
/-!
# What a node holds of its element

A node of the accessibility graph is made from a structure dictionary (`ElementRead`): its page is the
one of the dictionary or, where that names none, the page of its parent, and its content items are those
of the values that `/K` lists, read from the last to the first. The traversal keeps this of all nodes,
and that a waiting kid inherits the page of its parent (`traverseStructureTree_reads`).
-/

namespace Pdfv

open Loop Fallible

/-- The page of a dictionary of the structure tree: the one it names, else the one it inherits. -/
def ownPage (dictionary : Dictionary) (inherited : Option ObjectKey) : Option ObjectKey :=
  ((dictionary.get "Pg").bind CosObject.asReference).or inherited

theorem ownPage_ownPage (dictionary : Dictionary) (inherited : Option ObjectKey) :
    ownPage dictionary (ownPage dictionary inherited) = ownPage dictionary inherited := by
  unfold ownPage
  rw [← Option.or_assoc, Option.or_self]

/-- The content item that a kid of an element on a page stands for; a structure element is none. -/
def kidItem (doc : ModelDocument) (page : Option ObjectKey) : CosObject →
    Option AccessibilityContentItem
  | .integer mcid => some (.mcid mcid page)
  | value => (doc.structureDictionary value).bind fun found =>
    let itemPage := ownPage found.dictionary page
    if found.dictionary.isMcr then
      (integerFromDictionary found.dictionary "MCID").map fun mcid => .mcid mcid itemPage
    else if found.dictionary.isObjr then
      some (.object ((found.dictionary.get "Obj").bind CosObject.asReference) itemPage)
    else none

/-- Where an element is listed: a root in the `/K` of the structure tree, another in the `/K` of its
parent. -/
def ListedIn (root : CosObject) (elements : List KeyedDictionary) (parent : Option Nat)
    (value : CosObject) : Prop :=
  match parent with
  | none => value ∈ root.flatten
  | some parent => ∃ above, elements[parent]? = some above
    ∧ value ∈ kidItems (above.dictionary.get "K")

/-- A node is read from an element: its place in the tree, its key and role, its page and its content
items. -/
structure ElementRead (doc : ModelDocument) (root : CosObject) (nodes : List AccessibilityNode)
    (elements : List KeyedDictionary) (node : AccessibilityNode) (found : KeyedDictionary) : Prop where
  listed : ∃ value, doc.structureDictionary value = some found
    ∧ ListedIn root elements node.parent value
  described : DescribedBy node found
  page : node.page = ownPage found.dictionary
    (node.parent.bind fun parent => (nodes[parent]?).bind AccessibilityNode.page)
  items : node.contentItems
    = (kidItems (found.dictionary.get "K")).reverse.filterMap (kidItem doc node.page)

/-- The nodes are read from elements of a structure tree, one after the other. -/
def ReadFrom (doc : ModelDocument) (root : CosObject) (nodes : List AccessibilityNode)
    (elements : List KeyedDictionary) : Prop :=
  List.Forall₂ (ElementRead doc root nodes elements) nodes elements

/-- Every node is read from some element. -/
theorem ReadFrom.exists_found {doc : ModelDocument} {root : CosObject}
    {nodes : List AccessibilityNode} {elements : List KeyedDictionary}
    (h : ReadFrom doc root nodes elements) {node : AccessibilityNode} (hnode : node ∈ nodes) :
    ∃ found, ElementRead doc root nodes elements node found := by
  obtain ⟨i, hi⟩ := List.mem_iff_getElem?.mp hnode
  obtain ⟨hlt, rfl⟩ := List.getElem?_eq_some_iff.mp hi
  exact ⟨_, h.get hlt (h.length_eq ▸ hlt)⟩

theorem ListedIn.snoc {root value : CosObject} {elements : List KeyedDictionary} {parent : Option Nat}
    (h : ListedIn root elements parent value) (new : KeyedDictionary) :
    ListedIn root (elements ++ [new]) parent value := by
  cases parent with
  | none => exact h
  | some parent =>
    obtain ⟨above, habove, hvalue⟩ := h
    exact ⟨above, by rw [List.getElem?_append_left (List.getElem?_eq_some_iff.mp habove).1, habove],
      hvalue⟩

/-! ## Kids -/

section Kids

variable {doc : ModelDocument} {pageOrdinals : OrdMap ObjectKey Nat} {nodeId : Nat}
  {page : Option ObjectKey} {depth : Nat}

/-- A waiting kid of a node on a page, one of the listed values. -/
structure WaitingKid (doc : ModelDocument) (nodeId : Nat) (page : Option ObjectKey)
    (values : List CosObject) (item : TraversalItem) : Prop where
  parent : item.parent = some nodeId
  listed : item.value ∈ values
  inherits : ∃ found, doc.structureDictionary item.value = some found
    ∧ item.inheritedPage = ownPage found.dictionary page

theorem WaitingKid.mono {values more : List CosObject} {item : TraversalItem}
    (h : WaitingKid doc nodeId page values item) (hsub : values ⊆ more) :
    WaitingKid doc nodeId page more item :=
  ⟨h.parent, hsub h.listed, h.inherits⟩

theorem collectKidValue_reads {c c' : KidCollector} {value : CosObject}
    (h : collectKidValue doc pageOrdinals nodeId page depth c value = .ok c') :
    c'.contentItems = c.contentItems ++ (kidItem doc page value).toList
      ∧ ∃ items, c'.stack = items ++ c.stack
        ∧ ∀ item ∈ items, WaitingKid doc nodeId page [value] item := by
  have hnone : ∀ item ∈ ([] : List TraversalItem), WaitingKid doc nodeId page [value] item :=
    fun _ hitem => absurd hitem List.not_mem_nil
  unfold collectKidValue at h
  split at h
  · cases h
    exact ⟨rfl, [], rfl, hnone⟩
  · rename_i hinteger
    have hitem : kidItem doc page value = (doc.structureDictionary value).bind fun found =>
        if found.dictionary.isMcr then
          (integerFromDictionary found.dictionary "MCID").map fun mcid =>
            .mcid mcid (ownPage found.dictionary page)
        else if found.dictionary.isObjr then
          some (.object ((found.dictionary.get "Obj").bind CosObject.asReference)
            (ownPage found.dictionary page))
        else none := by
      cases value with
      | integer mcid => exact absurd rfl (hinteger mcid)
      | _ => rfl
    rw [hitem]
    split at h
    · rename_i hfound
      cases h
      rw [hfound]
      exact ⟨(List.append_nil _).symm, [], rfl, hnone⟩
    · rename_i key offset dictionary hfound
      rw [hfound, Option.bind_some]
      dsimp only at h ⊢
      split at h
      · rename_i hmcr
        rw [if_pos hmcr]
        split at h
        · rename_i mcid hmcid
          cases h
          rw [hmcid]
          exact ⟨rfl, [], rfl, hnone⟩
        · rename_i hmcid
          cases h
          rw [hmcid]
          exact ⟨(List.append_nil _).symm, [], rfl, hnone⟩
      · rename_i hmcr
        rw [if_neg hmcr]
        split at h
        · rename_i hobjr
          cases h
          rw [if_pos hobjr]
          exact ⟨rfl, [], rfl, hnone⟩
        · rename_i hobjr
          obtain ⟨_, -, h⟩ := bind_eq_ok.mp h
          cases pure_eq_ok.mp h
          rw [if_neg hobjr]
          refine ⟨(List.append_nil _).symm, [_], rfl, ?_⟩
          intro item hitem
          rw [List.mem_singleton.mp hitem]
          exact ⟨rfl, List.mem_singleton_self _, _, hfound, rfl⟩

/-- All kids of an element. -/
theorem collectKids_reads {c c' : KidCollector} {kids : Option CosObject}
    (h : collectKids doc pageOrdinals nodeId page depth c kids = .ok c') :
    c'.contentItems = c.contentItems ++ (kidItems kids).reverse.filterMap (kidItem doc page)
      ∧ ∃ items, c'.stack = items ++ c.stack
        ∧ ∀ item ∈ items, WaitingKid doc nodeId page (kidItems kids) item := by
  have hvalues : ∀ (values : List CosObject) (c : KidCollector),
      values.foldlM (collectKidValue doc pageOrdinals nodeId page depth) c = .ok c' →
      c'.contentItems = c.contentItems ++ values.filterMap (kidItem doc page)
        ∧ ∃ items, c'.stack = items ++ c.stack
          ∧ ∀ item ∈ items, WaitingKid doc nodeId page values item := by
    intro values
    induction values with
    | nil =>
      intro c h
      cases pure_eq_ok.mp h
      exact ⟨(List.append_nil _).symm, [], rfl, fun _ hitem => absurd hitem List.not_mem_nil⟩
    | cons value values ih =>
      intro c h
      rw [List.foldlM_cons] at h
      obtain ⟨next, hnext, h⟩ := bind_eq_ok.mp h
      obtain ⟨hitems, top, htop, hwait⟩ := collectKidValue_reads hnext
      obtain ⟨hrest, items, hstack, hwaits⟩ := ih next h
      refine ⟨?_, items ++ top, by rw [hstack, htop, List.append_assoc], ?_⟩
      · rw [hrest, hitems, List.append_assoc, List.filterMap_cons]
        cases kidItem doc page value <;> rfl
      · intro item hitem
        rcases List.mem_append.mp hitem with hitem | hitem
        · exact (hwaits item hitem).mono (List.subset_cons_self value values)
        · exact (hwait item hitem).mono (List.cons_subset_cons value (List.nil_subset values))
  unfold collectKids at h
  split at h
  · cases h
    exact ⟨(List.append_nil _).symm, [], rfl, fun _ hitem => absurd hitem List.not_mem_nil⟩
  · obtain ⟨hitems, items, hstack, hwaits⟩ := hvalues _ c h
    exact ⟨hitems, items, hstack, fun item hitem =>
      (hwaits item hitem).mono (List.reverse_subset.mpr (List.Subset.refl _))⟩
  · rename_i value hnot
    have hkids : kidItems (some value) = [value] := by
      cases value with
      | array values => exact absurd rfl (hnot values)
      | _ => rfl
    obtain ⟨hitems, hstack⟩ := collectKidValue_reads h
    rw [hkids]
    refine ⟨?_, hstack⟩
    rw [hitems, List.reverse_singleton, List.filterMap_cons]
    cases kidItem doc page value <;> rfl

end Kids

/-! ## Passes -/

/-- A waiting item: values of the root, which have no page, or a kid of a node. -/
def Waits (doc : ModelDocument) (root : CosObject) (nodes : List AccessibilityNode)
    (elements : List KeyedDictionary) (item : TraversalItem) : Prop :=
  (item.parent = none ∧ item.inheritedPage = none ∧ item.value.flatten ⊆ root.flatten)
    ∨ ∃ parent node above, nodes[parent]? = some node ∧ elements[parent]? = some above
      ∧ WaitingKid doc parent node.page (kidItems (above.dictionary.get "K")) item

/-- The invariant of the traversal. -/
structure ReadsTree (doc : ModelDocument) (root : CosObject) (elements : List KeyedDictionary)
    (s : TraversalState) : Prop where
  nodes : ReadFrom doc root s.graph.nodes elements
  pending : ∀ item ∈ s.stack, Waits doc root s.graph.nodes elements item

section Passes

variable {parent : Option Nat} {child : Nat} {node new : AccessibilityNode}

@[simp] theorem withChild_page : (withChild parent child node).page = node.page := by
  unfold withChild
  split <;> rfl

@[simp] theorem withChild_contentItems :
    (withChild parent child node).contentItems = node.contentItems := by
  unfold withChild
  split <;> rfl

variable {doc : ModelDocument} {root : CosObject} {nodes : List AccessibilityNode}
  {elements : List KeyedDictionary}

/-- A node keeps its page when another is added. -/
theorem page_snoc {i : Nat} (hlt : i < nodes.length) :
    ((nodes.map (withChild parent child) ++ [new])[i]?).bind AccessibilityNode.page
      = (nodes[i]?).bind AccessibilityNode.page := by
  rw [List.getElem?_append_left (by rw [List.length_map]; exact hlt), List.getElem?_map]
  cases nodes[i]? with
  | none => rfl
  | some node => exact withChild_page

theorem ElementRead.snoc {found added : KeyedDictionary}
    (h : ElementRead doc root nodes elements node found)
    (hparent : ∀ above, node.parent = some above → above < nodes.length) :
    ElementRead doc root (nodes.map (withChild parent child) ++ [new]) (elements ++ [added])
      (withChild parent child node) found where
  listed := by
    obtain ⟨value, hvalue, hlisted⟩ := h.listed
    rw [withChild_parent]
    exact ⟨value, hvalue, hlisted.snoc added⟩
  described := h.described.withChild parent child
  page := by
    rw [withChild_page, withChild_parent, h.page]
    cases habove : node.parent with
    | none => rfl
    | some above =>
      rw [Option.bind_some, Option.bind_some, page_snoc (hparent above habove)]
  items := by rw [withChild_contentItems, withChild_page, h.items]

theorem Waits.snoc {item : TraversalItem} {added : KeyedDictionary}
    (h : Waits doc root nodes elements item) :
    Waits doc root (nodes.map (withChild parent child) ++ [new]) (elements ++ [added]) item := by
  rcases h with hroot | ⟨above, node, element, hnode, helement, hkid⟩
  · exact .inl hroot
  · refine .inr ⟨above, withChild parent child node, element, ?_, ?_, ?_⟩
    · have hlt := (List.getElem?_eq_some_iff.mp hnode).1
      rw [List.getElem?_append_left (by rw [List.length_map]; exact hlt), List.getElem?_map, hnode]
      rfl
    · rw [List.getElem?_append_left (List.getElem?_eq_some_iff.mp helement).1, helement]
    · rw [withChild_page]
      exact hkid

variable {limits : ResourceLimits} {structTree : Dictionary} {map : List (String × String)}
  {pageOrdinals : OrdMap ObjectKey Nat} {s s' : TraversalState}

/-- The page of a new node: its own, else that of its parent. -/
theorem Waits.page {item : TraversalItem} {found : KeyedDictionary}
    (h : Waits doc root nodes elements item)
    (hfound : doc.structureDictionary item.value = some found) :
    ownPage found.dictionary item.inheritedPage = ownPage found.dictionary
      (item.parent.bind fun parent => (nodes[parent]?).bind AccessibilityNode.page) := by
  rcases h with ⟨hparent, hpage, -⟩ | ⟨above, node, element, hnode, -, hkid⟩
  · rw [hparent, hpage]
    rfl
  · obtain ⟨other, hother, hinherited⟩ := hkid.inherits
    cases hother.symm.trans hfound
    rw [hkid.parent, Option.bind_some, hnode, Option.bind_some, hinherited, ownPage_ownPage]

theorem Waits.bound {item : TraversalItem} (h : Waits doc root nodes elements item) (above : Nat)
    (habove : item.parent = some above) : above < nodes.length := by
  rcases h with ⟨hparent, -⟩ | ⟨parent, node, element, hnode, -, hkid⟩
  · rw [hparent] at habove
    cases habove
  · cases hkid.parent.symm.trans habove
    exact (List.getElem?_eq_some_iff.mp hnode).1

/-- A waiting value that is a structure dictionary is listed in the tree. -/
theorem Waits.listed {item : TraversalItem} {found : KeyedDictionary}
    (h : Waits doc root nodes elements item)
    (hfound : doc.structureDictionary item.value = some found) :
    ListedIn root elements item.parent item.value := by
  rcases h with ⟨hparent, -, hroot⟩ | ⟨parent, node, element, -, helement, hkid⟩
  · rw [hparent]
    apply hroot
    cases hvalue : item.value with
    | array values =>
      rw [hvalue] at hfound
      cases hfound
    | _ => exact List.mem_singleton_self _
  · rw [hkid.parent]
    exact ⟨element, helement, hkid.listed⟩

/-- A structure element becomes the node that is read from it. -/
theorem ReadsTree.added {item : TraversalItem} {stack : List TraversalItem} {visited : List ObjectKey}
    {found : KeyedDictionary} {role : String} (h : ReadsTree doc root elements s)
    (hlinked : Linked s.graph.nodes)
    (hstack : s.stack = item :: stack) (hfound : doc.structureDictionary item.value = some found)
    (hrole : found.dictionary.nameText "S" = some role)
    (hadd : addStructureElement doc structTree map pageOrdinals { s with stack, visited } item found role
      = .ok s') : ReadsTree doc root (elements ++ [found]) s' := by
  unfold addStructureElement at hadd
  obtain ⟨kids, hkids, hadd⟩ := bind_eq_ok.mp hadd
  cases pure_eq_ok.mp hadd
  obtain ⟨hitems, pushed, hpushed, hwaiting⟩ := collectKids_reads hkids
  have hwaits := h.pending item (by rw [hstack]; exact List.mem_cons_self)
  have hlength : (s.graph.nodes.map (withChild item.parent s.graph.nodes.length)).length
      = s.graph.nodes.length := List.length_map _
  have hnodes : (s.graph.addChild item.parent s.graph.nodes.length).nodes
      = s.graph.nodes.map (withChild item.parent s.graph.nodes.length) := addChild_nodes hlinked.ids
  generalize hnew : { structureNode doc structTree map pageOrdinals s.graph item found role with
    contentItems := kids.contentItems, containsRef := kids.containsRef } = new
  have hid : (structureNode doc structTree map pageOrdinals s.graph item found role).id
      = s.graph.nodes.length := rfl
  have hpage : new.page = ownPage found.dictionary item.inheritedPage := by
    rw [← hnew]
    rfl
  have hnodes' : (s.graph.addChild item.parent
      (structureNode doc structTree map pageOrdinals s.graph item found role).id).nodes ++ [new]
      = s.graph.nodes.map (withChild item.parent s.graph.nodes.length) ++ [new] := by
    rw [hid, hnodes]
  refine ⟨?_, ?_⟩
  · show List.Forall₂ (ElementRead doc root _ _) _ _
    dsimp only
    rw [hnodes']
    refine List.rel_append ?_ (.cons ?_ .nil)
    · rw [List.forall₂_map_left_iff]
      have hbound : ∀ node ∈ s.graph.nodes, ∀ above, node.parent = some above →
          above < s.graph.nodes.length := by
        intro node hnode above habove
        have hbefore := hlinked.parents node hnode above habove
        have hlt := hlinked.lt_length hnode
        omega
      exact ((List.forall₂_and_left _ _).mpr ⟨hbound, h.nodes⟩).imp fun _ _ hread => hread.2.snoc hread.1
    · rw [← hnew]
      refine ⟨⟨item.value, hfound, (hwaits.listed hfound).snoc found⟩, ⟨rfl, rfl, hrole, rfl⟩, ?_, hitems⟩
      show ownPage found.dictionary item.inheritedPage = _
      rw [hwaits.page hfound]
      cases hparent : item.parent with
      | none =>
        show _ = ownPage found.dictionary (item.parent.bind _)
        rw [hparent]
        rfl
      | some above =>
        show _ = ownPage found.dictionary (item.parent.bind _)
        rw [hparent, Option.bind_some, Option.bind_some, page_snoc (hwaits.bound above hparent)]
  · dsimp only
    rw [hnodes', hpushed]
    intro other hother
    rcases List.mem_append.mp hother with hother | hother
    · refine .inr ⟨s.graph.nodes.length, new, found, ?_, ?_, ?_⟩
      · have hlast := @List.getElem?_concat_length _
          (s.graph.nodes.map (withChild item.parent s.graph.nodes.length)) new
        rwa [hlength] at hlast
      · rw [h.nodes.length_eq, List.getElem?_concat_length]
      · rw [hpage]
        exact hwaiting other hother
    · exact (h.pending other (by rw [hstack]; exact List.mem_cons_of_mem _ hother)).snoc

/-- What a listed array holds, the array holds. -/
theorem flatten_subset {value : CosObject} {values : List CosObject} (h : value ∈ values) :
    value.flatten ⊆ (CosObject.array values).flatten := by
  rw [CosObject.flatten]
  induction values with
  | nil => cases h
  | cons head values ih =>
    rw [CosObject.flattenItems]
    rcases List.mem_cons.mp h with rfl | h
    · exact List.subset_append_left _ _
    · exact List.Subset.trans (ih h) (List.subset_append_right _ _)

/-- Every pass keeps the invariant. -/
theorem ReadsTree.step (h : ReadsTree doc root elements s) (hlinked : Linked s.graph.nodes)
    (hpending : ∀ item ∈ s.stack, ∀ parent, item.parent = some parent →
      (doc.structureDictionary item.value).isSome)
    (hstep : traverseStep doc limits structTree map pageOrdinals s = .next s') :
    ∃ elements', ReadsTree doc root elements' s' := by
  obtain ⟨item, stack, hstack, hadvance⟩ := traverseStep_advance hstep
  have hrest : ∀ other ∈ stack, Waits doc root s.graph.nodes elements other := fun other hother =>
    h.pending other (by rw [hstack]; exact List.mem_cons_of_mem _ hother)
  cases hadvance with
  | dropped hstack' hnodes hvisited =>
    exact ⟨elements, by rw [hnodes]; exact h.nodes, by rw [hnodes, hstack']; exact hrest⟩
  | spread values hvalue hstack' hgraph hvisited =>
    refine ⟨elements, by rw [hgraph]; exact h.nodes, ?_⟩
    rw [hgraph, hstack']
    intro other hother
    rcases List.mem_append.mp hother with hother | hother
    · -- only the root is an array: a kid is a structure dictionary
      obtain ⟨value, hmem, rfl⟩ := List.mem_map.mp hother
      have hitem : item ∈ s.stack := by
        rw [hstack]
        exact List.mem_cons_self
      rcases h.pending item hitem with ⟨hparent, hpage, hroot⟩ | ⟨parent, node, element, -, -, hkid⟩
      · rw [hvalue] at hroot
        exact .inl ⟨hparent, hpage, List.Subset.trans (flatten_subset hmem) hroot⟩
      · have hfound := hpending item hitem parent hkid.parent
        rw [hvalue] at hfound
        cases hfound
    · exact hrest other hother
  | added found role hfound hfresh hrole hroom hadd =>
    exact ⟨elements ++ [found], h.added hlinked hstack hfound hrole hadd⟩

end Passes

/-- The nodes of a traversal are read from elements. -/
theorem traverseStructureTree_reads {doc : ModelDocument} {limits : ResourceLimits}
    {structTree : Dictionary} {map : List (String × String)} {pageOrdinals : OrdMap ObjectKey Nat}
    {root : CosObject} {start graph : AccessibilityGraph} (hstart : start.nodes = [])
    (h : traverseStructureTree doc limits structTree map pageOrdinals root start = .ok graph) :
    ∃ elements, ReadFrom doc root graph.nodes elements := by
  suffices hended : ∀ graph, traverseStructureTree doc limits structTree map pageOrdinals root start
      = .ok graph → ∃ elements, ReadFrom doc root graph.nodes elements from hended graph h
  refine runLoop_inv
    (fun s => (∃ elements, Traversed doc limits elements s) ∧ ∃ elements, ReadsTree doc root elements s)
    (fun (r : Except PdfvError AccessibilityGraph) => ∀ graph, r = .ok graph →
      ∃ elements, ReadFrom doc root graph.nodes elements) ?_ ?_ ?_ ⟨⟨[], traversalStart_traversed hstart⟩, ?_⟩
  · rintro s s' ⟨⟨_, htraversed⟩, _, hreads⟩ hstep
    exact ⟨htraversed.step hstep, hreads.step htraversed.linked
      (fun item hitem parent hparent => (htraversed.pending item hitem parent hparent).2) hstep⟩
  · rintro s r ⟨-, elements, hreads⟩ hdone graph rfl
    rw [traverseStep_done hdone]
    exact ⟨elements, hreads.nodes⟩
  · rintro s ⟨-, elements, hreads⟩ graph hgive
    cases hgive
    exact ⟨elements, hreads.nodes⟩
  · refine ⟨[], hstart ▸ .nil, ?_⟩
    intro item hitem
    rw [List.mem_singleton.mp hitem]
    exact .inl ⟨rfl, rfl, List.Subset.refl _⟩

/-- The values that a structure tree lists at its root. -/
def ModelDocument.treeRoot (doc : ModelDocument) : CosObject :=
  (doc.structureTreeRoot.bind fun structTree => structTree.get "K").getD .null

/-- The nodes of every accessibility graph are read from the structure tree of its document. -/
theorem buildAccessibilityGraph_reads {crates : Crates} {doc : ModelDocument}
    {limits : ResourceLimits} {graph : AccessibilityGraph}
    (h : buildAccessibilityGraph crates doc limits = .ok graph) :
    ∃ elements, ReadFrom doc doc.treeRoot graph.nodes elements := by
  rcases buildAccessibilityGraph_traversed h with hnone | hsome
  · exact ⟨[], by rw [hnone]; exact .nil⟩
  · obtain ⟨structTree, pageOrdinals, root, start, traversed, htree, hroot, hstart, htraversed, hnodes⟩ :=
      hsome
    have htreeRoot : doc.treeRoot = root := by
      unfold ModelDocument.treeRoot
      rw [htree, Option.bind_some, hroot]
      rfl
    rw [hnodes, htreeRoot]
    exact traverseStructureTree_reads hstart htraversed

end Pdfv
