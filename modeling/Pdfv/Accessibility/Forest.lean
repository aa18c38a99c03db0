import Pdfv.Accessibility.Content
import Pdfv.Parser.Document
/-!
# The structure nodes are a forest

`traverseStructureTree` pops one value after another; what it pops is lighter than what it came from,
so the loop comes to its own end (`traverseStructureTree_finishes`). The nodes it adds are linked
(`Linked`): ids are places, a parent comes before its children, and the children of a node are the
nodes that name it. The kids of an element wait on the stack in the order of its `/K`
(`Traversed.kids`).
-/

namespace Pdfv

open Loop Fallible

/-! ## Weights -/

theorem CosObject.weight_pos (value : CosObject) : 0 < value.weight := by
  cases value <;> simp [CosObject.weight]

theorem weightItems_eq (values : List CosObject) :
    CosObject.weightItems values = (values.map CosObject.weight).sum := by
  induction values with
  | nil => simp [CosObject.weightItems]
  | cons value values ih => simp [CosObject.weightItems, ih]

theorem weight_of_lookup {key : PdfName} {entries : Dictionary} {value : CosObject}
    (h : OrdList.lookup key entries = some value) :
    value.weight ≤ CosObject.weightEntries entries := by
  induction entries with
  | nil => simp at h
  | cons entry entries ih =>
    rw [OrdList.lookup_cons] at h
    simp only [CosObject.weightEntries]
    split at h
    · cases h
      omega
    · have hle := ih h
      omega

/-- The values that `/K` lists. -/
def kidItems : Option CosObject → List CosObject
  | none => []
  | some (.array values) => values
  | some value => [value]

/-- The weight of pending values. -/
def itemsWeight (values : List CosObject) : Nat :=
  (values.map CosObject.weight).sum

@[simp] theorem itemsWeight_cons (value : CosObject) (values : List CosObject) :
    itemsWeight (value :: values) = value.weight + itemsWeight values := by
  simp [itemsWeight]

theorem kidItems_weight (dictionary : Dictionary) (key : String) :
    itemsWeight (kidItems (dictionary.get key)) ≤ CosObject.weightEntries dictionary := by
  cases h : dictionary.get key with
  | none => exact Nat.zero_le _
  | some value =>
    have hle := weight_of_lookup h
    cases value with
    | array values =>
      simp only [CosObject.weight, weightItems_eq] at hle
      simp only [kidItems, itemsWeight]
      omega
    | _ => simpa [kidItems, itemsWeight] using hle

section Unvisited

/-- The weight an entry of the store can still bring in. -/
def entryWeight (visited : List ObjectKey) (entry : ObjectKey × IndirectObject) : Nat :=
  if entry.1 ∈ visited then 0 else entry.2.object.weight

theorem entryWeight_mono {visited more : List ObjectKey} (h : visited ⊆ more)
    (entry : ObjectKey × IndirectObject) : entryWeight more entry ≤ entryWeight visited entry := by
  unfold entryWeight
  by_cases hin : entry.1 ∈ visited
  · rw [if_pos hin, if_pos (h hin)]
  · rw [if_neg hin]
    split <;> omega

theorem entriesWeight_mono {visited more : List ObjectKey} (h : visited ⊆ more)
    (entries : List (ObjectKey × IndirectObject)) :
    (entries.map (entryWeight more)).sum ≤ (entries.map (entryWeight visited)).sum := by
  induction entries with
  | nil => exact Nat.le_refl _
  | cons entry entries ih =>
    have hhead := entryWeight_mono h entry
    simp only [List.map_cons, List.sum_cons]
    omega

variable (doc : ModelDocument)

/-- The weight of the stored objects that were not visited. -/
def unvisitedWeight (visited : List ObjectKey) : Nat :=
  (doc.objects.entries.map (entryWeight visited)).sum

theorem unvisitedWeight_nil : unvisitedWeight doc [] = doc.weight := by
  have hall : entryWeight [] = fun entry => entry.2.object.weight := by
    funext entry
    simp [entryWeight]
  unfold unvisitedWeight ModelDocument.weight OrdMap.values
  rw [hall, List.map_map]
  rfl

theorem unvisitedWeight_mono {visited more : List ObjectKey} (h : visited ⊆ more) :
    unvisitedWeight doc more ≤ unvisitedWeight doc visited :=
  entriesWeight_mono h _

theorem unvisitedWeight_cons {key : ObjectKey} {object : IndirectObject} {visited : List ObjectKey}
    (hobject : doc.objects.get? key = some object) (hnew : key ∉ visited) :
    unvisitedWeight doc (key :: visited) + object.object.weight ≤ unvisitedWeight doc visited := by
  have hmem := OrdMap.mem_entries_iff.mpr hobject
  unfold unvisitedWeight
  generalize doc.objects.entries = entries at hmem
  have hsub : visited ⊆ key :: visited := List.subset_cons_self key visited
  induction entries with
  | nil => cases hmem
  | cons entry entries ih =>
    have hhead := entryWeight_mono hsub entry
    have htail := entriesWeight_mono hsub entries
    simp only [List.map_cons, List.sum_cons]
    rcases List.mem_cons.mp hmem with rfl | hmem
    · have hnow : entryWeight (key :: visited) (key, object) = 0 := if_pos List.mem_cons_self
      have hbefore : entryWeight visited (key, object) = object.object.weight := if_neg hnew
      omega
    · have hle := ih hmem
      omega

end Unvisited

/-! ## Kids -/

section Kids

variable {doc : ModelDocument} {pageOrdinals : OrdMap ObjectKey Nat} {nodeId : Nat}
  {page : Option ObjectKey} {depth : Nat}

/-- What the kids of an element add to the stack: items of the element, for some of the listed values,
in their order. -/
structure PushedKids (doc : ModelDocument) (nodeId : Nat) (values : List CosObject)
    (items : List TraversalItem) : Prop where
  sublist : (items.map TraversalItem.value).Sublist values
  parent : ∀ item ∈ items, item.parent = some nodeId
  found : ∀ item ∈ items, (doc.structureDictionary item.value).isSome

theorem PushedKids.nil (values : List CosObject) : PushedKids doc nodeId values [] where
  sublist := List.nil_sublist _
  parent item hitem := by cases hitem
  found item hitem := by cases hitem

/-- A value adds one item or none. -/
theorem collectKidValue_ok {c c' : KidCollector} {value : CosObject}
    (h : collectKidValue doc pageOrdinals nodeId page depth c value = .ok c') :
    ∃ items, c'.stack = items ++ c.stack ∧ PushedKids doc nodeId [value] items := by
  unfold collectKidValue at h
  split at h
  · cases h
    exact ⟨[], rfl, .nil _⟩
  · split at h
    · cases h
      exact ⟨[], rfl, .nil _⟩
    · rename_i hfound
      dsimp only at h
      split at h
      · split at h
        · cases h
          exact ⟨[], rfl, .nil _⟩
        · cases h
          exact ⟨[], rfl, .nil _⟩
      · split at h
        · cases h
          exact ⟨[], rfl, .nil _⟩
        · obtain ⟨_, -, h⟩ := bind_eq_ok.mp h
          cases pure_eq_ok.mp h
          refine ⟨[_], rfl, List.Sublist.refl _, ?_, ?_⟩
          · intro item hitem
            rw [List.mem_singleton.mp hitem]
          · intro item hitem
            rw [List.mem_singleton.mp hitem, hfound]
            rfl

theorem PushedKids.append {values more : List CosObject} {items rest : List TraversalItem}
    (h : PushedKids doc nodeId values items) (hmore : PushedKids doc nodeId more rest) :
    PushedKids doc nodeId (values ++ more) (items ++ rest) where
  sublist := by
    rw [List.map_append]
    exact h.sublist.append hmore.sublist
  parent := by
    intro item hitem
    rcases List.mem_append.mp hitem with hitem | hitem
    · exact h.parent item hitem
    · exact hmore.parent item hitem
  found := by
    intro item hitem
    rcases List.mem_append.mp hitem with hitem | hitem
    · exact h.found item hitem
    · exact hmore.found item hitem

/-- The kids are read from the last to the first, so the first ends up on top of the stack. -/
theorem collectKids_ok {c c' : KidCollector} {kids : Option CosObject}
    (h : collectKids doc pageOrdinals nodeId page depth c kids = .ok c') :
    ∃ items, c'.stack = items ++ c.stack ∧ PushedKids doc nodeId (kidItems kids) items := by
  unfold collectKids at h
  split at h
  · cases h
    exact ⟨[], rfl, .nil _⟩
  · rename_i values
    obtain ⟨reversed, rfl⟩ : ∃ reversed : List CosObject, values = reversed.reverse :=
      ⟨_, (List.reverse_reverse values).symm⟩
    rw [List.reverse_reverse] at h
    change ∃ items, c'.stack = items ++ c.stack ∧ PushedKids doc nodeId reversed.reverse items
    induction reversed generalizing c with
    | nil =>
      cases pure_eq_ok.mp h
      exact ⟨[], rfl, .nil _⟩
    | cons value reversed ih =>
      rw [List.foldlM_cons] at h
      obtain ⟨next, hnext, h⟩ := bind_eq_ok.mp h
      obtain ⟨top, htop, hpushed⟩ := collectKidValue_ok hnext
      obtain ⟨items, hitems, hrest⟩ := ih h
      refine ⟨items ++ top, by rw [hitems, htop, List.append_assoc], ?_⟩
      rw [List.reverse_cons]
      exact hrest.append hpushed
  · rename_i value hnot
    obtain ⟨items, hitems, hpushed⟩ := collectKidValue_ok h
    refine ⟨items, hitems, ?_⟩
    have hkids : kidItems (some value) = [value] := by
      cases value with
      | array values => exact absurd rfl (hnot values)
      | _ => rfl
    rw [hkids]
    exact hpushed

end Kids

/-! ## One pass -/

section Pass

variable (doc : ModelDocument) (limits : ResourceLimits) (structTree : Dictionary)
  (map : List (String × String)) (pageOrdinals : OrdMap ObjectKey Nat)

/-- A parent that is given a child. -/
def withChild (parent : Option Nat) (child : Nat) (node : AccessibilityNode) : AccessibilityNode :=
  if parent = some node.id then { node with children := node.children ++ [child] } else node

/-- What a pass does with the item it pops. -/
inductive Pass (item : TraversalItem) (stack : List TraversalItem) (s s' : TraversalState) : Prop where
  /-- The item adds nothing; its key may be visited now. -/
  | dropped (hstack : s'.stack = stack) (hnodes : s'.graph.nodes = s.graph.nodes)
      (hvisited : s.visited ⊆ s'.visited)
  /-- An array is replaced by its values. -/
  | spread (values : List CosObject) (hvalue : item.value = .array values)
      (hstack : s'.stack = (values.map fun value => { item with value }) ++ stack)
      (hgraph : s'.graph = s.graph) (hvisited : s'.visited = s.visited)
  /-- A structure element becomes the next node, and its kids wait on the stack. -/
  | element (found : KeyedDictionary) (role : String) (node : AccessibilityNode)
      (kids : List TraversalItem) (hfound : doc.structureDictionary item.value = some found)
      (hfresh : ∀ key, found.key = some key → key ∉ s.visited)
      (hrole : found.dictionary.nameText "S" = some role)
      (hroom : s.graph.nodes.length < limits.maxStructureNodes)
      (hvisited : s'.visited = found.key.toList ++ s.visited) (hstack : s'.stack = kids ++ stack)
      (hkids : PushedKids doc s.graph.nodes.length (kidItems (found.dictionary.get "K")) kids)
      (hnode : ∃ contentItems containsRef, node =
        { structureNode doc structTree map pageOrdinals s.graph item found role with
          contentItems, containsRef })
      (hnodes : s'.graph.nodes =
        (s.graph.addChild item.parent s.graph.nodes.length).nodes ++ [node])

/-- What a pass does with the item it pops, where an element is added by `addStructureElement`. -/
inductive Advance (item : TraversalItem) (stack : List TraversalItem) (s s' : TraversalState) :
    Prop where
  | dropped (hstack : s'.stack = stack) (hnodes : s'.graph.nodes = s.graph.nodes)
      (hvisited : s.visited ⊆ s'.visited)
  | spread (values : List CosObject) (hvalue : item.value = .array values)
      (hstack : s'.stack = (values.map fun value => { item with value }) ++ stack)
      (hgraph : s'.graph = s.graph) (hvisited : s'.visited = s.visited)
  | added (found : KeyedDictionary) (role : String)
      (hfound : doc.structureDictionary item.value = some found)
      (hfresh : ∀ key, found.key = some key → key ∉ s.visited)
      (hrole : found.dictionary.nameText "S" = some role)
      (hroom : s.graph.nodes.length < limits.maxStructureNodes)
      (hadd : addStructureElement doc structTree map pageOrdinals
        { s with stack := stack, visited := found.key.toList ++ s.visited } item found role = .ok s')

variable {doc limits structTree map pageOrdinals}

theorem addStructureElement_ok {s s' : TraversalState} {item : TraversalItem}
    {found : KeyedDictionary} {role : String}
    (h : addStructureElement doc structTree map pageOrdinals s item found role = .ok s') :
    ∃ kids contentItems containsRef, s'.visited = s.visited ∧ s'.stack = kids ++ s.stack
      ∧ PushedKids doc s.graph.nodes.length (kidItems (found.dictionary.get "K")) kids
      ∧ s'.graph.nodes = (s.graph.addChild item.parent s.graph.nodes.length).nodes ++
        [{ structureNode doc structTree map pageOrdinals s.graph item found role with
            contentItems, containsRef }] := by
  unfold addStructureElement at h
  obtain ⟨kids, hkids, h⟩ := bind_eq_ok.mp h
  cases pure_eq_ok.mp h
  obtain ⟨items, hitems, hpushed⟩ := collectKids_ok hkids
  exact ⟨items, kids.contentItems, kids.containsRef, rfl, hitems, hpushed, rfl⟩

/-- Every pass but the last pops one item. -/
theorem traverseStep_advance {s s' : TraversalState}
    (h : traverseStep doc limits structTree map pageOrdinals s = .next s') :
    ∃ item stack, s.stack = item :: stack
      ∧ Advance doc limits structTree map pageOrdinals item stack s s' := by
  unfold traverseStep at h
  split at h
  · cases h
  · rename_i item stack hstack
    refine ⟨item, stack, hstack, ?_⟩
    dsimp only at h
    split at h
    · cases h
    · split at h
      · cases h
        exact .dropped rfl rfl (List.Subset.refl _)
      · split at h
        · rename_i values hvalue
          cases h
          exact .spread values hvalue rfl rfl rfl
        · unfold traverseElement at h
          split at h
          · cases h
            exact .dropped rfl rfl (List.Subset.refl _)
          · rename_i found hfound
            split at h
            · cases h
              exact .dropped rfl rfl (List.Subset.refl _)
            · rename_i hseen
              dsimp only at h
              have hsub : s.visited ⊆ found.key.toList ++ s.visited := List.subset_append_right _ _
              have hfresh : ∀ key, found.key = some key → key ∉ s.visited := by
                intro key hkey
                simpa [hkey] using hseen
              split at h
              · cases h
                exact .dropped rfl rfl hsub
              · rename_i role hrole
                split at h
                · cases h
                  exact .dropped rfl rfl hsub
                · rename_i hroom
                  unfold continueTraversal at h
                  split at h
                  · rename_i next hnext
                    cases h
                    exact .added found role hfound hfresh hrole (Nat.not_le.mp hroom) hnext
                  · cases h

theorem traverseStep_next {s s' : TraversalState}
    (h : traverseStep doc limits structTree map pageOrdinals s = .next s') :
    ∃ item stack, s.stack = item :: stack
      ∧ Pass doc limits structTree map pageOrdinals item stack s s' := by
  obtain ⟨item, stack, hstack, hadvance⟩ := traverseStep_advance h
  refine ⟨item, stack, hstack, ?_⟩
  cases hadvance with
  | dropped hstack' hnodes hvisited => exact .dropped hstack' hnodes hvisited
  | spread values hvalue hstack' hgraph hvisited =>
    exact .spread values hvalue hstack' hgraph hvisited
  | added found role hfound hfresh hrole hroom hadd =>
    obtain ⟨kids, contentItems, containsRef, hvisited, hkids, hpushed, hnodes⟩ :=
      addStructureElement_ok hadd
    exact .element found role _ kids hfound hfresh hrole hroom hvisited hkids hpushed
      ⟨contentItems, containsRef, rfl⟩ hnodes

/-- The last pass leaves the nodes as they are. -/
theorem traverseStep_done {s : TraversalState} {graph : AccessibilityGraph}
    (h : traverseStep doc limits structTree map pageOrdinals s = .done (.ok graph)) :
    graph = s.graph := by
  unfold traverseStep at h
  split at h
  · cases h
    rfl
  · dsimp only at h
    split at h
    · cases h
      rfl
    · split at h
      · cases h
      · split at h
        · cases h
        · unfold traverseElement at h
          split at h
          · cases h
          · split at h
            · cases h
            · dsimp only at h
              split at h
              · cases h
              · split at h
                · cases h
                · unfold continueTraversal at h
                  split at h
                  · cases h
                  · cases h

/-! ### Termination -/

/-- The state before the first pass. -/
def traversalStart (root : CosObject) (graph : AccessibilityGraph) : TraversalState :=
  ⟨[⟨root, none, none, 0⟩], [], graph⟩

end Pass

/-! ## Linked nodes -/

section Links

/-- The ids of the nodes that name a parent, in order. -/
def childIds (nodes : List AccessibilityNode) (parent : Nat) : List Nat :=
  (nodes.filter fun node => node.parent = some parent).map AccessibilityNode.id

/-- Ids are places, a parent comes before its children, the children of a node are those that name it
as their parent, and no key is used twice. -/
structure Linked (nodes : List AccessibilityNode) : Prop where
  ids : ∀ (i : Nat) node, nodes[i]? = some node → node.id = i
  parents : ∀ node ∈ nodes, ∀ parent, node.parent = some parent → parent < node.id
  children : ∀ node ∈ nodes, node.children = childIds nodes node.id
  keys : (nodes.filterMap AccessibilityNode.key).Nodup

variable {parent : Option Nat} {child : Nat} {node : AccessibilityNode}
  {nodes : List AccessibilityNode}

@[simp] theorem withChild_id : (withChild parent child node).id = node.id := by
  unfold withChild
  split <;> rfl

@[simp] theorem withChild_parent : (withChild parent child node).parent = node.parent := by
  unfold withChild
  split <;> rfl

@[simp] theorem withChild_key : (withChild parent child node).key = node.key := by
  unfold withChild
  split <;> rfl

theorem withChild_children : (withChild parent child node).children
    = node.children ++ if parent = some node.id then [child] else [] := by
  unfold withChild
  split
  · rfl
  · rw [List.append_nil]

/-- Where ids are places, the child goes to the node with the id of its parent. -/
theorem addChild_nodes {graph : AccessibilityGraph}
    (hids : ∀ (i : Nat) node, graph.nodes[i]? = some node → node.id = i) :
    (graph.addChild parent child).nodes = graph.nodes.map (withChild parent child) := by
  cases parent with
  | none =>
    have hself : withChild none child = id := by
      funext node
      exact if_neg (by simp)
    rw [hself, List.map_id]
    rfl
  | some parent =>
    apply List.ext_getElem?
    intro i
    change (graph.nodes.modify parent _)[i]? = _
    rw [List.getElem?_modify, List.getElem?_map]
    cases hnode : graph.nodes[i]? with
    | none => rfl
    | some node =>
      have hid := hids i node hnode
      change some _ = some _
      congr 1
      unfold withChild
      simp only [Option.some.injEq, hid]

theorem childIds_map (p : Nat) :
    childIds (nodes.map (withChild parent child)) p = childIds nodes p := by
  unfold childIds
  rw [List.filter_map, List.map_map]
  have hid : AccessibilityNode.id ∘ withChild parent child = AccessibilityNode.id := by
    funext node
    exact withChild_id
  have hparent : (fun node : AccessibilityNode => decide (node.parent = some p))
      ∘ withChild parent child = fun node => decide (node.parent = some p) := by
    funext node
    simp
  rw [hid, hparent]

theorem childIds_snoc (p : Nat) :
    childIds (nodes ++ [node]) p = childIds nodes p ++ if node.parent = some p then [node.id] else [] := by
  unfold childIds
  rw [List.filter_append, List.map_append]
  by_cases h : node.parent = some p
  · rw [if_pos h, List.filter_cons_of_pos (by simp [h])]
    rfl
  · rw [if_neg h, List.filter_cons_of_neg (by simp [h])]
    rfl

theorem Linked.lt_length (h : Linked nodes) (hnode : node ∈ nodes) : node.id < nodes.length := by
  obtain ⟨i, hi⟩ := List.mem_iff_getElem?.mp hnode
  rw [h.ids i node hi]
  exact (List.getElem?_eq_some_iff.mp hi).1

theorem Linked.eq_of_id (h : Linked nodes) {other : AccessibilityNode} (hnode : node ∈ nodes)
    (hother : other ∈ nodes) (hid : node.id = other.id) : node = other := by
  obtain ⟨i, hi⟩ := List.mem_iff_getElem?.mp hnode
  obtain ⟨j, hj⟩ := List.mem_iff_getElem?.mp hother
  rw [h.ids i node hi, h.ids j other hj] at hid
  rw [hid, hj] at hi
  exact (Option.some.inj hi).symm

/-- A new node without children keeps the nodes linked when its parent is told. -/
theorem Linked.snoc (h : Linked nodes) (hid : node.id = nodes.length) (hchildren : node.children = [])
    (hparent : ∀ parent, node.parent = some parent → parent < nodes.length)
    (hkey : ∀ key, node.key = some key → ∀ other ∈ nodes, other.key ≠ some key) :
    Linked (nodes.map (withChild node.parent node.id) ++ [node]) where
  ids := by
    intro i found hfound
    rw [List.getElem?_append] at hfound
    split at hfound
    · rw [List.getElem?_map] at hfound
      obtain ⟨old, hold, rfl⟩ := Option.map_eq_some_iff.mp hfound
      rw [withChild_id]
      exact h.ids i old hold
    · rename_i hlen
      rw [List.length_map] at hfound hlen
      rw [List.getElem?_singleton] at hfound
      split at hfound
      · cases hfound
        omega
      · cases hfound
  parents := by
    intro found hfound p hp
    rcases List.mem_append.mp hfound with hfound | hfound
    · obtain ⟨old, hold, rfl⟩ := List.mem_map.mp hfound
      rw [withChild_parent] at hp
      rw [withChild_id]
      exact h.parents old hold p hp
    · cases List.mem_singleton.mp hfound
      rw [hid]
      exact hparent p hp
  children := by
    intro found hfound
    rw [childIds_snoc, childIds_map]
    rcases List.mem_append.mp hfound with hfound | hfound
    · obtain ⟨old, hold, rfl⟩ := List.mem_map.mp hfound
      rw [withChild_children, withChild_id, h.children old hold]
    · cases List.mem_singleton.mp hfound
      have hnone : childIds nodes node.id = [] := by
        unfold childIds
        rw [List.filter_eq_nil_iff.mpr, List.map_nil]
        intro other hother hnamed
        have hlt := h.parents other hother node.id (of_decide_eq_true hnamed)
        have hbound := h.lt_length hother
        omega
      rw [hchildren, hnone, if_neg, List.append_nil]
      intro hself
      have hlt := hparent node.id hself
      omega
  keys := by
    have hkeys : (nodes.map (withChild node.parent node.id)).filterMap AccessibilityNode.key
        = nodes.filterMap AccessibilityNode.key := by
      rw [List.filterMap_map]
      congr 1
      funext other
      exact withChild_key
    rw [List.filterMap_append, hkeys, List.nodup_append]
    refine ⟨h.keys, ?_, ?_⟩
    · cases hnode : node.key with
      | none => simp [hnode]
      | some key => simp [hnode]
    · intro key hold other hnew
      obtain ⟨before, hbefore, hbeforeKey⟩ := List.mem_filterMap.mp hold
      obtain ⟨same, hsame, hsameKey⟩ := List.mem_filterMap.mp hnew
      cases List.mem_singleton.mp hsame
      rintro rfl
      exact hkey key hsameKey before hbefore hbeforeKey

theorem linked_nil : Linked [] where
  ids i node h := by cases h
  parents node h := by cases h
  children node h := by cases h
  keys := List.nodup_nil

end Links

/-! ## Kids in order -/

/-- A node is the one of a structure dictionary. -/
structure DescribedBy (node : AccessibilityNode) (found : KeyedDictionary) : Prop where
  key : node.key = found.key
  offset : node.location.offset = found.offset
  role : found.dictionary.nameText "S" = some node.role
  language : node.language = found.dictionary.textString "Lang"

/-- A child of a node is the element of a listed value. -/
def IsElementOf (doc : ModelDocument) (elements : List KeyedDictionary) (child : Nat)
    (value : CosObject) : Prop :=
  ∃ found, elements[child]? = some found ∧ doc.structureDictionary value = some found

/-- The children of a node are elements of values that its `/K` lists, in the order of the list; other
values of the list are still pending. -/
def KidsInOrder (doc : ModelDocument) (elements : List KeyedDictionary) (node : AccessibilityNode)
    (found : KeyedDictionary) (pending : List CosObject) : Prop :=
  ∃ taken, List.Forall₂ (IsElementOf doc elements) node.children taken
    ∧ (taken ++ pending).Sublist (kidItems (found.dictionary.get "K"))

/-- The pending kids of a node. -/
def pendingKids (parent : Nat) (stack : List TraversalItem) : List CosObject :=
  (stack.filter fun item => item.parent = some parent).map TraversalItem.value

section Order

variable {doc : ModelDocument} {elements : List KeyedDictionary} {node : AccessibilityNode}
  {found : KeyedDictionary}

theorem DescribedBy.withChild (h : DescribedBy node found) (parent : Option Nat) (child : Nat) :
    DescribedBy (withChild parent child node) found := by
  unfold Pdfv.withChild
  split
  · exact ⟨h.key, h.offset, h.role, h.language⟩
  · exact h

theorem IsElementOf.snoc {child : Nat} {value : CosObject} (h : IsElementOf doc elements child value)
    (new : KeyedDictionary) : IsElementOf doc (elements ++ [new]) child value := by
  obtain ⟨found, hfound, hvalue⟩ := h
  exact ⟨found, by rw [List.getElem?_append_left (List.getElem?_eq_some_iff.mp hfound).1, hfound],
    hvalue⟩

theorem KidsInOrder.dropped {pending rest : List CosObject}
    (h : KidsInOrder doc elements node found pending) (hrest : rest.Sublist pending) :
    KidsInOrder doc elements node found rest := by
  obtain ⟨taken, htaken, hsub⟩ := h
  exact ⟨taken, htaken, ((List.Sublist.refl taken).append hrest).trans hsub⟩

theorem KidsInOrder.snoc {pending : List CosObject}
    (h : KidsInOrder doc elements node found pending) (new : KeyedDictionary) :
    KidsInOrder doc (elements ++ [new]) node found pending := by
  obtain ⟨taken, htaken, hsub⟩ := h
  exact ⟨taken, htaken.imp fun _ _ hchild => hchild.snoc new, hsub⟩

theorem pendingKids_append (p : Nat) (stack more : List TraversalItem) :
    pendingKids p (stack ++ more) = pendingKids p stack ++ pendingKids p more := by
  unfold pendingKids
  rw [List.filter_append, List.map_append]

theorem pendingKids_cons_self {p : Nat} {item : TraversalItem} (h : item.parent = some p)
    (stack : List TraversalItem) :
    pendingKids p (item :: stack) = item.value :: pendingKids p stack := by
  unfold pendingKids
  rw [List.filter_cons_of_pos (by simp [h]), List.map_cons]

theorem pendingKids_cons_ne {p : Nat} {item : TraversalItem} (h : item.parent ≠ some p)
    (stack : List TraversalItem) : pendingKids p (item :: stack) = pendingKids p stack := by
  unfold pendingKids
  rw [List.filter_cons_of_neg (by simp [h])]

theorem pendingKids_nil {p : Nat} {items : List TraversalItem}
    (h : ∀ item ∈ items, item.parent ≠ some p) : pendingKids p items = [] := by
  unfold pendingKids
  rw [List.filter_eq_nil_iff.mpr, List.map_nil]
  intro item hitem
  simpa using h item hitem

theorem PushedKids.pendingKids {p : Nat} {values : List CosObject} {items : List TraversalItem}
    (h : PushedKids doc p values items) :
    Pdfv.pendingKids p items = items.map TraversalItem.value := by
  unfold Pdfv.pendingKids
  rw [List.filter_eq_self.mpr]
  intro item hitem
  exact decide_eq_true (h.parent item hitem)

end Order

/-- The invariant of the traversal: the nodes are linked and have room, each is the node of an element,
and the kids of a node are taken from the stack in order. -/
structure Traversed (doc : ModelDocument) (limits : ResourceLimits) (elements : List KeyedDictionary)
    (s : TraversalState) : Prop where
  linked : Linked s.graph.nodes
  room : s.graph.nodes.length ≤ limits.maxStructureNodes
  described : List.Forall₂ DescribedBy s.graph.nodes elements
  visited : ∀ node ∈ s.graph.nodes, ∀ key, node.key = some key → key ∈ s.visited
  pending : ∀ item ∈ s.stack, ∀ parent, item.parent = some parent →
    parent < s.graph.nodes.length ∧ (doc.structureDictionary item.value).isSome
  kids : ∀ (i : Nat) node found, s.graph.nodes[i]? = some node → elements[i]? = some found →
    KidsInOrder doc elements node found (pendingKids i s.stack)

section Run

variable {doc : ModelDocument} {limits : ResourceLimits} {structTree : Dictionary}
  {map : List (String × String)} {pageOrdinals : OrdMap ObjectKey Nat}
  {elements : List KeyedDictionary} {s s' : TraversalState}

theorem Traversed.dropped {item : TraversalItem} {stack : List TraversalItem}
    (h : Traversed doc limits elements s) (hstack : s.stack = item :: stack)
    (hstack' : s'.stack = stack) (hnodes : s'.graph.nodes = s.graph.nodes)
    (hvisited : s.visited ⊆ s'.visited) : Traversed doc limits elements s' where
  linked := hnodes ▸ h.linked
  room := hnodes ▸ h.room
  described := hnodes ▸ h.described
  visited := by
    rw [hnodes]
    exact fun node hnode key hkey => hvisited (h.visited node hnode key hkey)
  pending := by
    rw [hstack', hnodes]
    intro other hother
    exact h.pending other (by rw [hstack]; exact List.mem_cons_of_mem _ hother)
  kids := by
    rw [hstack', hnodes]
    intro i node found hnode hfound
    refine (h.kids i node found hnode hfound).dropped ?_
    rw [hstack]
    exact ((List.sublist_cons_self item stack).filter _).map _

/-- Only the root is ever an array: a kid of an element is an element. -/
theorem Traversed.spread {item : TraversalItem} {stack : List TraversalItem} {values : List CosObject}
    (h : Traversed doc limits elements s) (hstack : s.stack = item :: stack)
    (hvalue : item.value = .array values)
    (hstack' : s'.stack = (values.map fun value => { item with value }) ++ stack)
    (hgraph : s'.graph = s.graph) (hvisited : s'.visited = s.visited) :
    Traversed doc limits elements s' := by
  have hroot : item.parent = none := by
    cases hparent : item.parent with
    | none => rfl
    | some parent =>
      have hfound := (h.pending item (by rw [hstack]; exact List.mem_cons_self) parent hparent).2
      rw [hvalue] at hfound
      cases hfound
  have hnone : ∀ other ∈ values.map fun value => { item with value }, other.parent = none := by
    intro other hother
    obtain ⟨value, -, rfl⟩ := List.mem_map.mp hother
    exact hroot
  refine ⟨hgraph ▸ h.linked, hgraph ▸ h.room, hgraph ▸ h.described, ?_, ?_, ?_⟩
  · rw [hgraph, hvisited]
    exact h.visited
  · rw [hstack', hgraph]
    intro other hother parent hparent
    rcases List.mem_append.mp hother with hother | hother
    · rw [hnone other hother] at hparent
      cases hparent
    · exact h.pending other (by rw [hstack]; exact List.mem_cons_of_mem _ hother) parent hparent
  · rw [hstack', hgraph]
    intro i node found hnode hfound
    have hkids := h.kids i node found hnode hfound
    rw [hstack, pendingKids_cons_ne (by rw [hroot]; exact nofun)] at hkids
    rw [pendingKids_append, pendingKids_nil, List.nil_append]
    · exact hkids
    · intro other hother
      rw [hnone other hother]
      exact nofun

theorem Traversed.element {item : TraversalItem} {stack kids : List TraversalItem}
    {found : KeyedDictionary} {role : String} {node : AccessibilityNode}
    (h : Traversed doc limits elements s) (hstack : s.stack = item :: stack)
    (hfound : doc.structureDictionary item.value = some found)
    (hfresh : ∀ key, found.key = some key → key ∉ s.visited)
    (hrole : found.dictionary.nameText "S" = some role)
    (hroom : s.graph.nodes.length < limits.maxStructureNodes)
    (hvisited : s'.visited = found.key.toList ++ s.visited) (hstack' : s'.stack = kids ++ stack)
    (hkids : PushedKids doc s.graph.nodes.length (kidItems (found.dictionary.get "K")) kids)
    (hnode : ∃ contentItems containsRef, node =
      { structureNode doc structTree map pageOrdinals s.graph item found role with
        contentItems, containsRef })
    (hnodes : s'.graph.nodes =
      (s.graph.addChild item.parent s.graph.nodes.length).nodes ++ [node]) :
    Traversed doc limits (elements ++ [found]) s' := by
  obtain ⟨contentItems, containsRef, hnode⟩ := hnode
  have hid : node.id = s.graph.nodes.length := by rw [hnode]; rfl
  have hparentEq : node.parent = item.parent := by rw [hnode]; rfl
  have hkeyEq : node.key = found.key := by rw [hnode]; rfl
  have hchildren : node.children = [] := by rw [hnode]; rfl
  have hlength : elements.length = s.graph.nodes.length := h.described.length_eq.symm
  have hparent : ∀ parent, node.parent = some parent → parent < s.graph.nodes.length := by
    intro parent hparent
    rw [hparentEq] at hparent
    exact (h.pending item (by rw [hstack]; exact List.mem_cons_self) parent hparent).1
  rw [addChild_nodes h.linked.ids, ← hparentEq, ← hid] at hnodes
  have hlength' : s'.graph.nodes.length = s.graph.nodes.length + 1 := by
    rw [hnodes, List.length_append, List.length_map]
    rfl
  refine ⟨?_, ?_, ?_, ?_, ?_, ?_⟩
  · rw [hnodes]
    refine h.linked.snoc hid hchildren hparent ?_
    intro key hkey other hother hsame
    exact hfresh key (hkeyEq ▸ hkey) (h.visited other hother key hsame)
  · rw [hlength']
    exact hroom
  · rw [hnodes]
    refine List.rel_append ?_ (.cons ?_ .nil)
    · rw [List.forall₂_map_left_iff]
      exact h.described.imp fun _ _ hdescribed => hdescribed.withChild _ _
    · rw [hnode]
      exact ⟨rfl, rfl, hrole, rfl⟩
  · rw [hnodes, hvisited]
    intro other hother key hkey
    rcases List.mem_append.mp hother with hother | hother
    · obtain ⟨old, hold, rfl⟩ := List.mem_map.mp hother
      rw [withChild_key] at hkey
      exact List.mem_append_right _ (h.visited old hold key hkey)
    · cases List.mem_singleton.mp hother
      rw [hkeyEq] at hkey
      exact List.mem_append_left _ (by simp [hkey])
  · rw [hstack', hlength']
    intro other hother parent hother'
    rcases List.mem_append.mp hother with hother | hother
    · cases (hkids.parent other hother).symm.trans hother'
      exact ⟨Nat.lt_succ_self _, hkids.found other hother⟩
    · obtain ⟨hlt, hsome⟩ := h.pending other (by rw [hstack]; exact List.mem_cons_of_mem _ hother)
        parent hother'
      exact ⟨Nat.lt_succ_of_lt hlt, hsome⟩
  · rw [hnodes, hstack']
    intro i other described hother hdescribed
    rw [pendingKids_append]
    rw [List.getElem?_append] at hother hdescribed
    rw [List.length_map] at hother
    by_cases hlt : i < s.graph.nodes.length
    · rw [if_pos hlt, List.getElem?_map] at hother
      rw [if_pos (by omega)] at hdescribed
      obtain ⟨old, hold, rfl⟩ := Option.map_eq_some_iff.mp hother
      have hnone : pendingKids i kids = [] := by
        apply pendingKids_nil
        intro kid hkid heq
        rw [hkids.parent kid hkid] at heq
        cases heq
        omega
      have hbefore := h.kids i old described hold hdescribed
      have hold' : old.id = i := h.linked.ids i old hold
      rw [hnone, List.nil_append]
      rw [hstack] at hbefore
      by_cases hmine : item.parent = some i
      · -- the popped item is the next kid of this node
        rw [pendingKids_cons_self hmine] at hbefore
        obtain ⟨taken, htaken, hsub⟩ := hbefore
        refine ⟨taken ++ [item.value], ?_, by rw [List.append_assoc]; exact hsub⟩
        rw [withChild_children, if_pos (by rw [hparentEq, hold', hmine])]
        refine List.rel_append (htaken.imp fun _ _ hchild => hchild.snoc found) (.cons ?_ .nil)
        exact ⟨found, by rw [hid, ← hlength, List.getElem?_concat_length], hfound⟩
      · rw [pendingKids_cons_ne hmine] at hbefore
        obtain ⟨taken, htaken, hsub⟩ := hbefore.snoc found
        refine ⟨taken, ?_, hsub⟩
        rw [withChild_children, if_neg (by rw [hparentEq, hold']; exact hmine), List.append_nil]
        exact htaken
    · -- the new node: nothing taken yet, all its kids are pending
      rw [if_neg hlt] at hother
      rw [if_neg (by omega), hlength] at hdescribed
      rw [List.getElem?_singleton] at hother hdescribed
      split at hother
      · rename_i hzero
        rw [if_pos hzero] at hdescribed
        cases hother
        cases hdescribed
        have hi : i = s.graph.nodes.length := by omega
        have hnone : pendingKids i stack = [] := by
          apply pendingKids_nil
          intro old hold heq
          have hbound := (h.pending old (by rw [hstack]; exact List.mem_cons_of_mem _ hold) i heq).1
          omega
        rw [hnone, List.append_nil, hi, hkids.pendingKids]
        exact ⟨[], by rw [hchildren]; exact .nil, hkids.sublist⟩
      · cases hother

/-- Every pass keeps the invariant. -/
theorem Traversed.step (h : Traversed doc limits elements s)
    (hstep : traverseStep doc limits structTree map pageOrdinals s = .next s') :
    ∃ elements', Traversed doc limits elements' s' := by
  obtain ⟨item, stack, hstack, hpass⟩ := traverseStep_next hstep
  cases hpass with
  | dropped hstack' hnodes hvisited =>
    exact ⟨elements, h.dropped hstack hstack' hnodes hvisited⟩
  | spread values hvalue hstack' hgraph hvisited =>
    exact ⟨elements, h.spread hstack hvalue hstack' hgraph hvisited⟩
  | element found role node kids hfound hfresh hrole hroom hvisited hstack' hkids hnode hnodes =>
    exact ⟨elements ++ [found],
      h.element hstack hfound hfresh hrole hroom hvisited hstack' hkids hnode hnodes⟩

end Run

/-! ## The whole traversal -/

/-- Each node is the one of a structure element, and its children are elements of values that the `/K`
of its element lists, in the order of the list. -/
def ChildrenInOrder (doc : ModelDocument) (nodes : List AccessibilityNode) : Prop :=
  ∃ elements, List.Forall₂ DescribedBy nodes elements
    ∧ ∀ (i : Nat) node found, nodes[i]? = some node → elements[i]? = some found →
      KidsInOrder doc elements node found []

section Whole

variable {nodes : List AccessibilityNode}

theorem Linked.ids_eq (h : Linked nodes) : nodes.map AccessibilityNode.id = List.range nodes.length := by
  apply List.ext_getElem?
  intro i
  rw [List.getElem?_map]
  cases hnode : nodes[i]? with
  | none =>
    rw [List.getElem?_eq_none_iff] at hnode
    rw [List.getElem?_eq_none (by rw [List.length_range]; exact hnode)]
    rfl
  | some node =>
    have hlt := (List.getElem?_eq_some_iff.mp hnode).1
    rw [List.getElem?_range hlt, Option.map_some, h.ids i node hnode]

end Whole

/-- The invariant holds before the first pass. -/
theorem traversalStart_traversed {doc : ModelDocument} {limits : ResourceLimits} {root : CosObject}
    {start : AccessibilityGraph} (hstart : start.nodes = []) :
    Traversed doc limits [] (traversalStart root start) := by
  refine ⟨?_, ?_, ?_, ?_, ?_, ?_⟩
  · exact hstart ▸ linked_nil
  · exact hstart ▸ Nat.zero_le _
  · exact hstart ▸ .nil
  · intro node hnode
    rw [traversalStart, hstart] at hnode
    cases hnode
  · intro item hitem parent hparent
    cases List.mem_singleton.mp hitem
    cases hparent
  · intro i node found hnode
    rw [traversalStart, hstart] at hnode
    cases hnode

/-- What the traversal has added when it ends. -/
theorem traverseStructureTree_traversed {doc : ModelDocument} {limits : ResourceLimits}
    {structTree : Dictionary} {map : List (String × String)} {pageOrdinals : OrdMap ObjectKey Nat}
    {root : CosObject} {start graph : AccessibilityGraph} (hstart : start.nodes = [])
    (h : traverseStructureTree doc limits structTree map pageOrdinals root start = .ok graph) :
    Linked graph.nodes ∧ graph.nodes.length ≤ limits.maxStructureNodes
      ∧ ChildrenInOrder doc graph.nodes := by
  have hinitial : Traversed doc limits [] (traversalStart root start) :=
    traversalStart_traversed hstart
  obtain ⟨elements, s, hs, hgraph⟩ : ∃ elements s, Traversed doc limits elements s ∧ graph = s.graph := by
    suffices hadded : ∀ graph, traverseStructureTree doc limits structTree map pageOrdinals root start
        = .ok graph → ∃ elements s, Traversed doc limits elements s ∧ graph = s.graph from
      hadded graph h
    refine runLoop_inv (fun s => ∃ elements, Traversed doc limits elements s)
      (fun (r : Except PdfvError AccessibilityGraph) => ∀ graph, r = .ok graph →
        ∃ elements s, Traversed doc limits elements s ∧ graph = s.graph) ?_ ?_ ?_ ⟨[], hinitial⟩
    · rintro s s' ⟨elements, hs⟩ hstep
      exact hs.step hstep
    · rintro s r ⟨elements, hs⟩ hdone graph rfl
      exact ⟨elements, s, hs, traverseStep_done hdone⟩
    · rintro s ⟨elements, hs⟩ graph hgive
      cases hgive
      exact ⟨elements, s, hs, rfl⟩
  rw [hgraph]
  refine ⟨hs.linked, hs.room, elements, hs.described, ?_⟩
  intro i node found hnode hfound
  exact (hs.kids i node found hnode hfound).dropped (List.nil_sublist _)

section Graph

variable {crates : Crates} {doc : ModelDocument} {limits : ResourceLimits}

theorem collectStreamAssociations_nodes (parentTree : NumberTree) (page : PageContent)
    (graph : AccessibilityGraph) (entry : KeyedStream × Nat) :
    (collectStreamAssociations doc parentTree crates limits page graph entry).nodes = graph.nodes := by
  unfold collectStreamAssociations
  split
  · rfl
  · split <;> rfl

theorem collectContentAssociations_nodes (parentTree : NumberTree) (pages : List PageContent)
    (graph : AccessibilityGraph) :
    (collectContentAssociations doc parentTree crates limits pages graph).nodes = graph.nodes := by
  have hpage : ∀ page (entries : List (KeyedStream × Nat)) graph,
      (entries.foldl (collectStreamAssociations doc parentTree crates limits page) graph).nodes
        = graph.nodes := by
    intro page entries
    induction entries with
    | nil => exact fun _ => rfl
    | cons entry entries ih =>
      intro graph
      rw [List.foldl_cons, ih, collectStreamAssociations_nodes]
  unfold collectContentAssociations
  induction pages generalizing graph with
  | nil => rfl
  | cons page pages ih => rw [List.foldl_cons, ih, hpage]

theorem collectParentTreeObjectAssociations_nodes (parentTree : NumberTree)
    (owners : OrdMap Int ParentTreeOwner) (graph : AccessibilityGraph) :
    (collectParentTreeObjectAssociations doc parentTree owners graph).nodes = graph.nodes := by
  have hentry : ∀ graph entry,
      (collectObjectAssociation doc owners graph entry).nodes = graph.nodes := by
    intro graph entry
    unfold collectObjectAssociation
    dsimp only
    split
    · rfl
    · split <;> rfl
  unfold collectParentTreeObjectAssociations
  generalize parentTree.objectRefs.entries = entries
  induction entries generalizing graph with
  | nil => rfl
  | cons entry entries ih => rw [List.foldl_cons, ih, hentry]

/-- The structure tree root of a document. -/
def ModelDocument.structureTreeRoot (doc : ModelDocument) : Option Dictionary :=
  doc.catalogDictionary.bind fun catalog => doc.dictionaryFromEntry catalog "StructTreeRoot"

/-- The nodes of an accessibility graph are those of the traversal of the `/K` of its structure tree, if
the document has one. -/
theorem buildAccessibilityGraph_traversed {graph : AccessibilityGraph}
    (h : buildAccessibilityGraph crates doc limits = .ok graph) :
    graph.nodes = [] ∨ ∃ structTree pageOrdinals root start traversed,
      doc.structureTreeRoot = some structTree ∧ structTree.get "K" = some root ∧ start.nodes = []
      ∧ traverseStructureTree doc limits structTree (roleMap structTree) pageOrdinals root start
        = .ok traversed
      ∧ graph.nodes = traversed.nodes := by
  unfold buildAccessibilityGraph at h
  obtain ⟨pages, -, h⟩ := bind_eq_ok.mp h
  dsimp only at h
  split at h
  · cases h
    exact .inl rfl
  · rename_i structTree htree
    obtain ⟨traversed, htraversed, h⟩ := bind_eq_ok.mp h
    cases pure_eq_ok.mp h
    have hnodes : ∀ start : AccessibilityGraph, (collectArtifacts start).nodes = start.nodes :=
      fun _ => rfl
    rw [hnodes, collectParentTreeObjectAssociations_nodes, collectContentAssociations_nodes]
    unfold traverseKids at htraversed
    split at htraversed
    · cases htraversed
      exact .inl rfl
    · rename_i root hroot
      exact .inr ⟨structTree, _, root, _, traversed, htree, hroot, rfl, htraversed, rfl⟩

theorem buildAccessibilityGraph_nodes {graph : AccessibilityGraph}
    (h : buildAccessibilityGraph crates doc limits = .ok graph) :
    graph.nodes = [] ∨ ∃ structTree pageOrdinals root start traversed,
      doc.structureTreeRoot = some structTree ∧ start.nodes = []
      ∧ traverseStructureTree doc limits structTree (roleMap structTree) pageOrdinals root start
        = .ok traversed
      ∧ graph.nodes = traversed.nodes := by
  rcases buildAccessibilityGraph_traversed h with hnone | hsome
  · exact .inl hnone
  · obtain ⟨structTree, pageOrdinals, root, start, traversed, htree, -, hrest⟩ := hsome
    exact .inr ⟨structTree, pageOrdinals, root, start, traversed, htree, hrest⟩

theorem buildAccessibilityGraph_linked {graph : AccessibilityGraph}
    (h : buildAccessibilityGraph crates doc limits = .ok graph) :
    Linked graph.nodes ∧ graph.nodes.length ≤ limits.maxStructureNodes
      ∧ ChildrenInOrder doc graph.nodes := by
  rcases buildAccessibilityGraph_nodes h with hnone | hsome
  · rw [hnone]
    refine ⟨linked_nil, Nat.zero_le _, [], .nil, ?_⟩
    intro i node found hnode
    cases hnode
  · obtain ⟨structTree, pageOrdinals, root, start, traversed, -, hstart, htraversed, hnodes⟩ := hsome
    rw [hnodes]
    exact traverseStructureTree_traversed hstart htraversed

end Graph

end Pdfv
