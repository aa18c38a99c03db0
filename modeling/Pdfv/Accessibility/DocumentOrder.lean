import Pdfv.Accessibility.Relations
import Pdfv.Basic.Preorder
/-!
# The order of the document

The order of the document is the depth-first order of its structure tree. The nodes of an accessibility
graph stand in that order (`buildAccessibilityGraph_documentOrder`), because the traversal takes its
items from a stack (`Numbered.step`). The loop of `table_descendants` is a visit of the same kind: it
meets what is inside an element (`mem_tableDescendants`).
-/

namespace Pdfv

open Loop Fallible Preorder

section Order

/-- The structure elements of a tree in the order of the document: an element, then what is below its
first child, then what is below the next. -/
def documentOrder (nodes : List AccessibilityNode) : List AccessibilityNode :=
  (visit (fun id => (nodes[id]?).elim [] AccessibilityNode.children) nodes.length
    ((nodes.filter fun node => node.parent = none).map AccessibilityNode.id)).filterMap
      fun id => nodes[id]?

/-- The parents of the nodes and of the pending items. -/
def Numbered (s : TraversalState) : Prop :=
  (∀ (i : Nat) node, s.graph.nodes[i]? = some node → node.id = i)
    ∧ Growing (s.graph.nodes.map AccessibilityNode.parent) (s.stack.map TraversalItem.parent)

variable {doc : ModelDocument} {limits : ResourceLimits} {structTree : Dictionary}
  {map : List (String × String)} {pageOrdinals : OrdMap ObjectKey Nat}

/-- Every pass keeps the numbering. -/
theorem Numbered.step {s s' : TraversalState} (h : Numbered s)
    (hstep : traverseStep doc limits structTree map pageOrdinals s = .next s') : Numbered s' := by
  obtain ⟨hids, hgrowing⟩ := h
  obtain ⟨item, stack, hstack, hpass⟩ := traverseStep_next hstep
  rw [hstack, List.map_cons] at hgrowing
  cases hpass with
  | dropped hstack' hnodes hvisited =>
    unfold Numbered
    rw [hnodes, hstack']
    exact ⟨hids, hgrowing.drop⟩
  | spread values hvalue hstack' hgraph hvisited =>
    unfold Numbered
    have hspread : (values.map fun value => { item with value }).map TraversalItem.parent
        = List.replicate values.length item.parent := by
      rw [List.map_map, List.eq_replicate_iff]
      refine ⟨List.length_map .., ?_⟩
      intro parent hparent
      obtain ⟨value, -, rfl⟩ := List.mem_map.mp hparent
      rfl
    rw [hgraph, hstack', List.map_append, hspread]
    exact ⟨hids, hgrowing.spread values.length⟩
  | element found role node kids hfound hfresh hrole hroom hvisited hstack' hkids hnode hnodes =>
    obtain ⟨contentItems, containsRef, hnode⟩ := hnode
    have hid : node.id = s.graph.nodes.length := by rw [hnode]; rfl
    have hparent : node.parent = item.parent := by rw [hnode]; rfl
    rw [addChild_nodes hids] at hnodes
    have hkept : s'.graph.nodes.map AccessibilityNode.parent
        = s.graph.nodes.map AccessibilityNode.parent ++ [item.parent] := by
      rw [hnodes, List.map_append, List.map_map, List.map_singleton, hparent]
      congr 1
      apply List.map_congr_left
      intro other _
      exact withChild_parent
    refine ⟨?_, ?_⟩
    · intro i other hother
      rw [hnodes, List.getElem?_append] at hother
      split at hother
      · rw [List.getElem?_map] at hother
        obtain ⟨old, hold, rfl⟩ := Option.map_eq_some_iff.mp hother
        rw [withChild_id]
        exact hids i old hold
      · rename_i hlength
        rw [List.length_map] at hother hlength
        rw [List.getElem?_singleton] at hother
        split at hother
        · cases hother
          omega
        · cases hother
    · rw [hkept, hstack', List.map_append]
      apply hgrowing.push
      intro parent hkid
      obtain ⟨kid, hmem, rfl⟩ := List.mem_map.mp hkid
      rw [hkids.parent kid hmem, List.length_map]

/-- The nodes of a traversal are numbered depth first. -/
theorem traverseStructureTree_numbered {root : CosObject} {start graph : AccessibilityGraph}
    (hstart : start.nodes = [])
    (h : traverseStructureTree doc limits structTree map pageOrdinals root start = .ok graph) :
    NonCrossing (parentIn (graph.nodes.map AccessibilityNode.parent)) graph.nodes.length := by
  have hinitial : Numbered (traversalStart root start) := by
    unfold Numbered traversalStart
    rw [hstart]
    refine ⟨?_, Growing.start⟩
    intro i node hnode
    cases hnode
  suffices hended : ∀ graph, traverseStructureTree doc limits structTree map pageOrdinals root start
      = .ok graph → ∃ s, Numbered s ∧ graph = s.graph by
    obtain ⟨s, hs, rfl⟩ := hended graph h
    have hcross := hs.2.crossing
    rwa [List.length_map] at hcross
  refine runLoop_inv Numbered (fun (r : Except PdfvError AccessibilityGraph) => ∀ graph, r = .ok graph →
    ∃ s, Numbered s ∧ graph = s.graph) ?_ ?_ ?_ hinitial
  · exact fun s s' hs hstep => hs.step hstep
  · rintro s r hs hdone graph rfl
    exact ⟨s, hs, traverseStep_done hdone⟩
  · rintro s hs graph hgive
    cases hgive
    exact ⟨s, hs, rfl⟩

variable {crates : Crates} {graph : AccessibilityGraph}

theorem buildAccessibilityGraph_numbered (h : buildAccessibilityGraph crates doc limits = .ok graph) :
    NonCrossing (parentIn (graph.nodes.map AccessibilityNode.parent)) graph.nodes.length := by
  rcases buildAccessibilityGraph_nodes h with hnone | hsome
  · rw [hnone]
    exact fun above id child _ _ hchild => absurd hchild (Nat.not_lt_zero child)
  · obtain ⟨structTree, pageOrdinals, root, start, traversed, -, hstart, htraversed, hnodes⟩ := hsome
    rw [hnodes]
    exact traverseStructureTree_numbered hstart htraversed

theorem parentIn_nodes {nodes : List AccessibilityNode} {id : Nat} {node : AccessibilityNode}
    (h : nodes[id]? = some node) : parentIn (nodes.map AccessibilityNode.parent) id = node.parent := by
  unfold parentIn
  rw [List.getElem?_map, h]
  rfl

/-- The nodes that name a parent, in the order of the list, are those that have it by number. -/
theorem Linked.filter_parent {nodes : List AccessibilityNode} (h : Linked nodes) (above : Option Nat) :
    (nodes.filter fun node => node.parent = above).map AccessibilityNode.id
      = childrenOf (parentIn (nodes.map AccessibilityNode.parent)) nodes.length above := by
  apply eq_of_mem_iff
  · have hids : (nodes.map AccessibilityNode.id).Pairwise (· < ·) := by
      rw [h.ids_eq]
      exact List.pairwise_lt_range
    exact hids.sublist (List.filter_sublist.map _)
  · exact childrenOf_sorted above
  · intro id
    rw [mem_childrenOf]
    constructor
    · intro hid
      obtain ⟨node, hnode, rfl⟩ := List.mem_map.mp hid
      obtain ⟨hmem, hparent⟩ := List.mem_filter.mp hnode
      obtain ⟨i, hi⟩ := List.mem_iff_getElem?.mp hmem
      rw [h.ids i node hi, parentIn_nodes hi]
      exact ⟨(List.getElem?_eq_some_iff.mp hi).1, of_decide_eq_true hparent⟩
    · rintro ⟨hlt, hparent⟩
      have hi : nodes[id]? = some nodes[id] := List.getElem?_eq_getElem hlt
      rw [parentIn_nodes hi] at hparent
      refine List.mem_map.mpr ⟨nodes[id], List.mem_filter.mpr ⟨List.getElem_mem hlt, ?_⟩, h.ids id _ hi⟩
      exact decide_eq_true hparent

theorem Linked.parentIn_lt {nodes : List AccessibilityNode} (h : Linked nodes) (id above : Nat)
    (habove : parentIn (nodes.map AccessibilityNode.parent) id = some above) : above < id := by
  cases hnode : nodes[id]? with
  | none =>
    unfold parentIn at habove
    rw [List.getElem?_map, hnode] at habove
    cases habove
  | some node =>
    rw [parentIn_nodes hnode] at habove
    have hlt := h.parents node (List.mem_of_getElem? hnode) above habove
    rwa [h.ids id node hnode] at hlt

/-- The children a node lists are those that have it by number. -/
theorem Linked.children_eq {nodes : List AccessibilityNode} (h : Linked nodes) :
    (fun id => (nodes[id]?).elim [] AccessibilityNode.children)
      = fun id => childrenOf (parentIn (nodes.map AccessibilityNode.parent)) nodes.length (some id) := by
  funext id
  cases hnode : nodes[id]? with
  | none =>
    have hlength := List.getElem?_eq_none_iff.mp hnode
    symm
    rw [Option.elim_none, List.eq_nil_iff_forall_not_mem]
    intro child hchild
    obtain ⟨hlt, hparent⟩ := mem_childrenOf.mp hchild
    have hup := h.parentIn_lt child id hparent
    omega
  | some node =>
    rw [Option.elim_some, h.children node (List.mem_of_getElem? hnode), h.ids id node hnode]
    exact h.filter_parent (some id)

theorem filterMap_getElem?_range {α : Type} (xs : List α) :
    ((List.range xs.length).filterMap fun i => xs[i]?) = xs := by
  induction xs using List.reverseRecOn with
  | nil => rfl
  | append_singleton xs x ih =>
    rw [List.length_append, List.length_singleton, List.range_succ, List.filterMap_append]
    have hkept : ((List.range xs.length).filterMap fun i => (xs ++ [x])[i]?) = xs := by
      rw [← ih, ih]
      refine (List.filterMap_congr ?_).trans ih
      intro i hi
      exact List.getElem?_append_left (List.mem_range.mp hi)
    rw [hkept]
    simp

/-- The nodes stand in the order of the document. -/
theorem buildAccessibilityGraph_documentOrder
    (h : buildAccessibilityGraph crates doc limits = .ok graph) :
    documentOrder graph.nodes = graph.nodes := by
  obtain ⟨hlinked, -, -⟩ := buildAccessibilityGraph_linked h
  unfold documentOrder
  rw [hlinked.children_eq, hlinked.filter_parent none,
    visit_roots hlinked.parentIn_lt (buildAccessibilityGraph_numbered h)]
  exact filterMap_getElem?_range graph.nodes

/-! ## What is inside an element -/

/-- The first element is one of those around the second. -/
def IsInside (nodes : List AccessibilityNode) (outer inner : AccessibilityNode) : Prop :=
  ∃ chain, Ancestors nodes inner.parent chain ∧ outer ∈ chain

/-- The elements around an element are those it is below. -/
theorem Ancestors.below_iff {nodes : List AccessibilityNode} (hlinked : Linked nodes) {id : Nat}
    {outer : AccessibilityNode} {chain : List AccessibilityNode} (houter : outer ∈ nodes)
    (h : Ancestors nodes (parentIn (nodes.map AccessibilityNode.parent) id) chain) :
    outer ∈ chain ↔ Below (parentIn (nodes.map AccessibilityNode.parent)) outer.id id := by
  generalize hparent : parentIn (nodes.map AccessibilityNode.parent) id = parent at h
  induction h generalizing id with
  | root =>
    refine iff_of_false List.not_mem_nil ?_
    intro hbelow
    cases hbelow with
    | child hnext => rw [hparent] at hnext; cases hnext
    | further hnext _ => rw [hparent] at hnext; cases hnext
  | @parent above node chain hnode hrest ih =>
    have hid := hlinked.ids above node hnode
    have hinner := ih (parentIn_nodes hnode)
    rw [List.mem_cons, hinner]
    constructor
    · rintro (rfl | hbelow)
      · exact .child (by rw [hparent, hid])
      · exact .further hparent hbelow
    · intro hbelow
      cases hbelow with
      | child hnext =>
        rw [hparent] at hnext
        cases hnext
        obtain ⟨i, hi⟩ := List.mem_iff_getElem?.mp houter
        rw [hlinked.ids i outer hi, hi] at hnode
        cases hnode
        exact .inl rfl
      | further hnext hbelow =>
        rw [hparent] at hnext
        cases hnext
        exact .inr hbelow

theorem descendantsLoop_eq (fuel : Nat) (stack : List Nat) :
    descendantsLoop graph fuel stack
      = (visit (fun id => (graph.nodes[id]?).elim [] AccessibilityNode.children) fuel stack).filterMap
          graph.node := by
  induction fuel generalizing stack with
  | zero => cases stack <;> rfl
  | succ fuel ih =>
    cases stack with
    | nil => rfl
    | cons id stack =>
      rw [descendantsLoop, visit, List.filterMap_cons]
      unfold AccessibilityGraph.node
      cases hnode : graph.nodes[id]? with
      | none =>
        simp only [Option.elim_none, List.nil_append]
        exact ih stack
      | some node =>
        simp only [Option.elim_some]
        rw [ih]
        rfl

/-- `table_descendants` finds what is inside an element. -/
theorem mem_tableDescendants (h : buildAccessibilityGraph crates doc limits = .ok graph)
    {outer inner : AccessibilityNode} (houter : outer ∈ graph.nodes) :
    inner ∈ tableDescendants graph outer ↔ inner ∈ graph.nodes ∧ IsInside graph.nodes outer inner := by
  obtain ⟨hlinked, -, -⟩ := buildAccessibilityGraph_linked h
  have hcross := buildAccessibilityGraph_numbered h
  have hbelow : ∀ node ∈ graph.nodes, IsInside graph.nodes outer node
      ↔ Below (parentIn (graph.nodes.map AccessibilityNode.parent)) outer.id node.id := by
    intro node hnode
    obtain ⟨i, hi⟩ := List.mem_iff_getElem?.mp hnode
    obtain ⟨chain, hchain, -⟩ := hlinked.ancestors_of_mem hnode
    have hparent := parentIn_nodes hi
    rw [hlinked.ids i node hi]
    rw [← (show Ancestors graph.nodes _ chain from hparent ▸ hchain).below_iff hlinked houter]
    constructor
    · rintro ⟨other, hother, hmem⟩
      rwa [hchain.unique hother]
    · exact fun hmem => ⟨chain, hchain, hmem⟩
  have hvisited := mem_visit_children hlinked.parentIn_lt hcross (hlinked.lt_length houter)
    (Nat.le_succ graph.nodes.length)
  unfold tableDescendants
  rw [descendantsLoop_eq, hlinked.children_eq, hlinked.children outer houter]
  unfold childIds
  rw [hlinked.filter_parent, List.mem_filterMap]
  constructor
  · rintro ⟨id, hid, hnode⟩
    have hmem : inner ∈ graph.nodes := List.mem_of_getElem? hnode
    rw [hbelow inner hmem, hlinked.ids id inner hnode]
    exact ⟨hmem, ((hvisited id).mp hid).2⟩
  · rintro ⟨hmem, hinside⟩
    obtain ⟨i, hi⟩ := List.mem_iff_getElem?.mp hmem
    rw [hbelow inner hmem, hlinked.ids i inner hi] at hinside
    exact ⟨i, (hvisited i).mpr ⟨(List.getElem?_eq_some_iff.mp hi).1, hinside⟩, hi⟩

end Order

end Pdfv
