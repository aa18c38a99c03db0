import Pdfv.Accessibility.Elements
/-!
# Relations between structure elements

What the relationship properties of a structure element say, against the forest and the RoleMap
themselves: the chain of roles that RoleMap leads to (`followRoles`), the ancestors of an element
(`Ancestors`), and when the values are those of the tree (`structureElementProperty_relations_iff`).
-/

namespace Pdfv

open Loop Fallible

/-! ## Role chains -/

section Roles

variable {map : List (String × String)}

/-- The role that so many steps of RoleMap lead to. -/
def followRoles (map : List (String × String)) : Nat → String → Option String
  | 0, role => some role
  | n + 1, role => (map.lookup role).bind (followRoles map n)

/-- Following RoleMap from a role never ends. -/
def NeverEnds (map : List (String × String)) (role : String) : Prop :=
  ∀ n, (followRoles map n role).isSome

/-- RoleMap maps a standard type to another type. -/
def IsRemapped (map : List (String × String)) (role : String) : Prop :=
  standardRoles.contains role = true ∧ ∃ other, map.lookup role = some other ∧ other ≠ role

theorem followRoles_add (m n : Nat) (role : String) :
    followRoles map (m + n) role = (followRoles map m role).bind (followRoles map n) := by
  induction m generalizing role with
  | zero => simp [followRoles]
  | succ m ih =>
    rw [Nat.add_right_comm]
    simp only [followRoles, Option.bind_assoc]
    congr 1
    funext next
    exact ih next

/-- A role that leads back to itself leads on for ever. -/
theorem neverEnds_of_loop {k : Nat} {role : String} (h : followRoles map (k + 1) role = some role) :
    NeverEnds map role := by
  intro n
  have hloop : ∀ rounds, followRoles map (rounds * (k + 1)) role = some role := by
    intro rounds
    induction rounds with
    | zero => rw [Nat.zero_mul]; rfl
    | succ rounds ih => rw [Nat.succ_mul, followRoles_add, ih, Option.bind_some, h]
  have hsome : (followRoles map (n * (k + 1)) role).isSome := by
    rw [hloop]
    rfl
  have hsplit : n * (k + 1) = n + n * k := by
    rw [Nat.mul_add, Nat.mul_one, Nat.add_comm]
  rw [hsplit, followRoles_add] at hsome
  by_contra hnone
  rw [Option.not_isSome_iff_eq_none] at hnone
  rw [hnone] at hsome
  cases hsome

/-- The loop of `normalize_role` reports a circle exactly when the chain is still going after its last
step. -/
theorem normalizeRoleSteps_circular (steps : Nat) (seen : List String) (current : String)
    (hseen : ∀ role ∈ seen, ∃ k, followRoles map (k + 1) role = some current) :
    (normalizeRoleSteps map steps seen current).2 = (followRoles map steps current).isSome := by
  induction steps generalizing seen current with
  | zero => rfl
  | succ steps ih =>
    unfold normalizeRoleSteps
    by_cases hmem : current ∈ seen
    · rw [if_pos hmem]
      obtain ⟨k, hk⟩ := hseen current hmem
      exact (neverEnds_of_loop hk (steps + 1)).symm
    · rw [if_neg hmem]
      cases hnext : map.lookup current with
      | none => simp [followRoles, hnext]
      | some next =>
        have hstep : followRoles map 1 current = some next := by
          simp [followRoles, hnext]
        have hrest := ih (current :: seen) next (by
          intro role hrole
          rcases List.mem_cons.mp hrole with rfl | hrole
          · exact ⟨0, hstep⟩
          · obtain ⟨k, hk⟩ := hseen role hrole
            exact ⟨k + 1, by rw [followRoles_add, hk, Option.bind_some, hstep]⟩)
        simpa [followRoles, hnext] using hrest

theorem normalizeRole_circular (role : String) :
    (normalizeRole role map).2 = (followRoles map maxRoleMapSteps role).isSome :=
  normalizeRoleSteps_circular maxRoleMapSteps [] role (by simp)

/-- A chain that the loop follows to its end is normalised to its last role. -/
theorem normalizeRoleSteps_end {steps : Nat} {seen : List String} {current : String}
    (h : (normalizeRoleSteps map steps seen current).2 = false) :
    ∃ k < steps, followRoles map k current = some (normalizeRoleSteps map steps seen current).1
      ∧ map.lookup (normalizeRoleSteps map steps seen current).1 = none := by
  induction steps generalizing seen current with
  | zero => cases h
  | succ steps ih =>
    unfold normalizeRoleSteps at h ⊢
    by_cases hmem : current ∈ seen
    · rw [if_pos hmem] at h
      cases h
    · rw [if_neg hmem] at h ⊢
      cases hnext : map.lookup current with
      | none => exact ⟨0, Nat.succ_pos steps, rfl, hnext⟩
      | some next =>
        rw [hnext] at h
        obtain ⟨k, hlt, hfollow, hlast⟩ := ih h
        exact ⟨k + 1, Nat.succ_lt_succ hlt, by simpa [followRoles, hnext] using hfollow, hlast⟩

end Roles

/-! ## Nodes of the traversal -/

section Traversal

variable {doc : ModelDocument} {limits : ResourceLimits} {structTree : Dictionary}
  {map : List (String × String)} {pageOrdinals : OrdMap ObjectKey Nat}

/-- What holds of every new node, whatever its children, holds of all nodes of the traversal. -/
theorem traverseStructureTree_forall {P : AccessibilityNode → Prop} {root : CosObject}
    {start graph : AccessibilityGraph}
    (hnew : ∀ graph item found role contentItems containsRef,
      P { structureNode doc structTree map pageOrdinals graph item found role with
        contentItems, containsRef })
    (hchild : ∀ node children, P node → P { node with children }) (hstart : start.nodes = [])
    (h : traverseStructureTree doc limits structTree map pageOrdinals root start = .ok graph) :
    ∀ node ∈ graph.nodes, P node := by
  suffices hall : ∀ graph, traverseStructureTree doc limits structTree map pageOrdinals root start
      = .ok graph → ∀ node ∈ graph.nodes, P node from hall graph h
  refine runLoop_inv (fun s => ∀ node ∈ s.graph.nodes, P node)
    (fun (r : Except PdfvError AccessibilityGraph) => ∀ graph, r = .ok graph →
      ∀ node ∈ graph.nodes, P node) ?_ ?_ ?_ ?_
  · intro s s' hs hstep
    obtain ⟨item, stack, -, hpass⟩ := traverseStep_next hstep
    cases hpass with
    | dropped _ hnodes _ => rwa [hnodes]
    | spread _ _ _ hgraph _ => rwa [hgraph]
    | element found role node _ _ _ _ _ _ _ _ hnode hnodes =>
      obtain ⟨contentItems, containsRef, rfl⟩ := hnode
      rw [hnodes]
      intro other hother
      rcases List.mem_append.mp hother with hother | hother
      · unfold AccessibilityGraph.addChild at hother
        split at hother
        · exact hs other hother
        · rename_i parent _
          obtain ⟨i, hi⟩ := List.mem_iff_getElem?.mp hother
          change (s.graph.nodes.modify parent _)[i]? = some other at hi
          rw [List.getElem?_modify] at hi
          obtain ⟨old, hold, rfl⟩ := Option.map_eq_some_iff.mp hi
          have hkept := hs old (List.mem_of_getElem? hold)
          split
          · exact hchild old _ hkept
          · exact hkept
      · rw [List.mem_singleton.mp hother]
        exact hnew _ _ _ _ _ _
  · rintro s r hs hdone graph rfl
    rw [traverseStep_done hdone]
    exact hs
  · rintro s hs graph hgive
    cases hgive
    exact hs
  · intro node hnode
    change node ∈ start.nodes at hnode
    rw [hstart] at hnode
    cases hnode

end Traversal

/-- The RoleMap of a document. -/
def ModelDocument.roleMapEntries (doc : ModelDocument) : List (String × String) :=
  doc.structureTreeRoot.elim [] roleMap

/-- The role of a node was normalised with the RoleMap of its document. -/
theorem buildAccessibilityGraph_roles {crates : Crates} {doc : ModelDocument}
    {limits : ResourceLimits} {graph : AccessibilityGraph}
    (h : buildAccessibilityGraph crates doc limits = .ok graph) :
    ∀ node ∈ graph.nodes,
      (node.normalizedRole, node.circularRoleMapping) = normalizeRole node.role doc.roleMapEntries := by
  rcases buildAccessibilityGraph_nodes h with hnone | hsome
  · rw [hnone]
    intro node hnode
    cases hnode
  · obtain ⟨structTree, pageOrdinals, root, start, traversed, htree, hstart, htraversed, hnodes⟩ := hsome
    have hmap : doc.roleMapEntries = roleMap structTree := by
      unfold ModelDocument.roleMapEntries
      rw [htree]
      rfl
    rw [hnodes, hmap]
    exact traverseStructureTree_forall (fun _ _ _ _ _ _ => rfl) (fun _ _ hnode => hnode) hstart htraversed

/-! ## Ancestors and children -/

/-- The nodes from a parent up to the root. -/
inductive Ancestors (nodes : List AccessibilityNode) : Option Nat → List AccessibilityNode → Prop where
  | root : Ancestors nodes none []
  | parent {id : Nat} {node : AccessibilityNode} {chain : List AccessibilityNode}
      (hnode : nodes[id]? = some node) (rest : Ancestors nodes node.parent chain) :
      Ancestors nodes (some id) (node :: chain)

theorem Ancestors.unique {nodes : List AccessibilityNode} {parent : Option Nat}
    {chain other : List AccessibilityNode} (h : Ancestors nodes parent chain)
    (hother : Ancestors nodes parent other) : chain = other := by
  induction h generalizing other with
  | root =>
    cases hother
    rfl
  | @parent id node chain hnode _ ih =>
    cases hother with
    | @parent id node' other hnode' hrest =>
      rw [hnode] at hnode'
      cases hnode'
      rw [ih hrest]

theorem Ancestors.mem_nodes {nodes : List AccessibilityNode} {parent : Option Nat}
    {chain : List AccessibilityNode} (h : Ancestors nodes parent chain) {above : AccessibilityNode}
    (habove : above ∈ chain) : above ∈ nodes := by
  induction h with
  | root => cases habove
  | parent hnode _ ih =>
    rcases List.mem_cons.mp habove with rfl | hrest
    · exact List.mem_of_getElem? hnode
    · exact ih hrest

section Forest

variable {graph : AccessibilityGraph} {node : AccessibilityNode}

/-- Every node of a forest has its ancestors. -/
theorem Linked.ancestors {nodes : List AccessibilityNode} (h : Linked nodes) (bound : Nat)
    (parent : Option Nat) (hparent : ∀ id, parent = some id → id < bound)
    (hbound : bound ≤ nodes.length) :
    ∃ chain, Ancestors nodes parent chain ∧ chain.length ≤ bound := by
  induction bound generalizing parent with
  | zero =>
    cases parent with
    | none => exact ⟨[], .root, Nat.le_refl _⟩
    | some id => exact absurd (hparent id rfl) (Nat.not_lt_zero id)
  | succ bound ih =>
    cases parent with
    | none => exact ⟨[], .root, Nat.zero_le _⟩
    | some id =>
      have hlt := hparent id rfl
      have hnode : nodes[id]? = some nodes[id] := List.getElem?_eq_getElem (by omega)
      obtain ⟨chain, hchain, hlength⟩ := ih nodes[id].parent (by
        intro above habove
        have hup := h.parents nodes[id] (List.getElem_mem _) above habove
        rw [h.ids id _ hnode] at hup
        omega) (by omega)
      exact ⟨nodes[id] :: chain, .parent hnode hchain, Nat.succ_le_succ hlength⟩

theorem Linked.ancestors_of_mem (h : Linked graph.nodes) (hnode : node ∈ graph.nodes) :
    ∃ chain, Ancestors graph.nodes node.parent chain ∧ chain.length ≤ graph.nodes.length := by
  apply h.ancestors graph.nodes.length node.parent ?_ (Nat.le_refl _)
  intro id hid
  have hlt := h.parents node hnode id hid
  have hbound := h.lt_length hnode
  omega

/-- A climb looks at the ancestors one after another. -/
theorem climb_eq {ρ : Type} {decide : AccessibilityNode → Option ρ} {missing atRoot : ρ}
    {parent : Option Nat} {chain : List AccessibilityNode} (h : Ancestors graph.nodes parent chain)
    {fuel : Nat} (hfuel : chain.length ≤ fuel) :
    climb graph decide missing atRoot fuel parent = (chain.findSome? decide).getD atRoot := by
  induction h generalizing fuel with
  | root =>
    cases fuel <;> rfl
  | @parent id node chain hnode _ ih =>
    cases fuel with
    | zero => exact absurd hfuel (Nat.not_succ_le_zero _)
    | succ fuel =>
      have hid : graph.node id = some node := hnode
      unfold climb
      rw [hid, List.findSome?_cons]
      cases hdecide : decide node with
      | some result => simp [hdecide]
      | none =>
        simp only [hdecide]
        exact ih (Nat.le_of_succ_le_succ hfuel)

theorem findSome?_language (chain : List AccessibilityNode) :
    (chain.findSome? fun parent => parent.language.map some).getD none
      = chain.findSome? AccessibilityNode.language := by
  induction chain with
  | nil => rfl
  | cons parent chain ih =>
    rw [List.findSome?_cons, List.findSome?_cons]
    cases hlanguage : parent.language with
    | none => exact ih
    | some language => rfl

/-- `parent_language` finds the language of the nearest ancestor that has one. -/
theorem parentLanguage_eq {chain : List AccessibilityNode}
    (h : Ancestors graph.nodes node.parent chain) (hlength : chain.length ≤ graph.nodes.length) :
    parentLanguage graph node false = chain.findSome? AccessibilityNode.language := by
  unfold parentLanguage
  rw [climb_eq h hlength]
  exact findSome?_language chain

/-- The children of a node are the nodes that name it as their parent. -/
theorem children_nodes (h : Linked graph.nodes) (hnode : node ∈ graph.nodes) :
    node.children.filterMap graph.node
      = graph.nodes.filter fun child => child.parent = some node.id := by
  rw [h.children node hnode]
  unfold childIds
  rw [List.filterMap_map]
  have hself : ∀ child ∈ graph.nodes.filter fun child => child.parent = some node.id,
      (graph.node ∘ AccessibilityNode.id) child = some child := by
    intro child hchild
    obtain ⟨i, hi⟩ := List.mem_iff_getElem?.mp (List.mem_of_mem_filter hchild)
    change graph.nodes[child.id]? = some child
    rw [h.ids i child hi, hi]
  rw [List.filterMap_congr hself, List.filterMap_some]

/-! ## The relations -/

section Relations

variable (doc : ModelDocument) (graph : AccessibilityGraph) (map : List (String × String))
  (node : AccessibilityNode)

/-- The node above a node. -/
def parentNode : Option AccessibilityNode :=
  node.parent.bind graph.node

/-- The relationship properties of an element say what its tree and its RoleMap are. -/
structure RelationsOfTree : Prop where
  parentStandardType : structureElementProperty graph doc node "parentStandardType"
    = .ok (optionalText ((parentNode graph node).map AccessibilityNode.normalizedRole))
  kidsStandardTypes : structureElementProperty graph doc node "kidsStandardTypes"
    = .ok (textValue ("&".intercalate ((graph.nodes.filter fun child =>
        child.parent = some node.id).map AccessibilityNode.normalizedRole)))
  parentLang : ∃ chain, Ancestors graph.nodes node.parent chain
    ∧ structureElementProperty graph doc node "parentLang"
      = .ok (optionalText (chain.findSome? AccessibilityNode.language))
  remappedStandardType : ¬ IsRemapped map node.role →
    structureElementProperty graph doc node "remappedStandardType" = .ok .null
  circularMappingExist : structureElementProperty graph doc node "circularMappingExist"
    = .ok (.bool true) ↔ NeverEnds map node.role

/-- When they do: the parent of the element has its normalised role, its role is a standard type that
RoleMap maps to another type, and following RoleMap from it ends within the steps of `normalize_role`
or never. -/
structure RelationsCoincide : Prop where
  sameRole : ∃ parent, parentNode graph node = some parent ∧ parent.normalizedRole = node.normalizedRole
  remapped : IsRemapped map node.role
  shortChain : followRoles map maxRoleMapSteps node.role = none ∨ NeverEnds map node.role

variable {doc graph map node}

theorem parentStandardType_eq : structureElementProperty graph doc node "parentStandardType"
    = .ok (textValue node.normalizedRole) := rfl

theorem kidsStandardTypes_eq : structureElementProperty graph doc node "kidsStandardTypes"
    = .ok (textValue (childStandardTypes graph node)) := rfl

theorem parentLang_eq : structureElementProperty graph doc node "parentLang"
    = .ok (optionalText (parentLanguage graph node false)) := rfl

theorem remappedStandardType_eq : structureElementProperty graph doc node "remappedStandardType"
    = .ok (.bool (node.role ≠ node.normalizedRole)) := rfl

theorem circularMappingExist_eq : structureElementProperty graph doc node "circularMappingExist"
    = .ok (.bool node.circularRoleMapping) := rfl

theorem neverEnds_circular (h : node.circularRoleMapping = (followRoles map maxRoleMapSteps node.role).isSome) :
    (node.circularRoleMapping = true ↔ NeverEnds map node.role)
      ↔ followRoles map maxRoleMapSteps node.role = none ∨ NeverEnds map node.role := by
  rw [h]
  constructor
  · intro hiff
    by_cases hnever : NeverEnds map node.role
    · exact .inr hnever
    · left
      rw [← Option.not_isSome_iff_eq_none]
      exact fun hsome => hnever (hiff.mp hsome)
  · rintro (hnone | hnever)
    · rw [hnone]
      refine iff_of_false nofun ?_
      intro hnever
      have hsome := hnever maxRoleMapSteps
      rw [hnone] at hsome
      cases hsome
    · exact iff_of_true (hnever maxRoleMapSteps) hnever

end Relations

end Forest

/-- The relationship properties of an element are those of its tree exactly when the parent happens to
have the role of the element, the element's own role is remapped, and RoleMap has no long chain. -/
theorem structureElementProperty_relations_iff (crates : Crates) (doc : ModelDocument)
    (limits : ResourceLimits) (graph : AccessibilityGraph) (node : AccessibilityNode)
    (hgraph : buildAccessibilityGraph crates doc limits = .ok graph) (hnode : node ∈ graph.nodes) :
    RelationsOfTree doc graph doc.roleMapEntries node
      ↔ RelationsCoincide graph doc.roleMapEntries node := by
  obtain ⟨hlinked, -, -⟩ := buildAccessibilityGraph_linked hgraph
  have hrole := buildAccessibilityGraph_roles hgraph node hnode
  have hcircular : node.circularRoleMapping
      = (followRoles doc.roleMapEntries maxRoleMapSteps node.role).isSome := by
    rw [← normalizeRole_circular, ← hrole]
  obtain ⟨chain, hchain, hlength⟩ := hlinked.ancestors_of_mem hnode
  constructor
  · intro h
    refine ⟨?_, ?_, ?_⟩
    · have hparent := h.parentStandardType
      rw [parentStandardType_eq] at hparent
      cases hfound : parentNode graph node with
      | none =>
        rw [hfound] at hparent
        cases hparent
      | some parent =>
        rw [hfound] at hparent
        have htext : node.normalizedRole = parent.normalizedRole := by
          simpa [optionalText, textValue] using hparent
        exact ⟨parent, rfl, htext.symm⟩
    · by_contra hremapped
      have hnull := h.remappedStandardType hremapped
      rw [remappedStandardType_eq] at hnull
      cases hnull
    · apply (neverEnds_circular hcircular).mp
      have hiff := h.circularMappingExist
      rw [circularMappingExist_eq] at hiff
      simpa using hiff
  · intro h
    refine ⟨?_, ?_, ⟨chain, hchain, ?_⟩, ?_, ?_⟩
    · obtain ⟨parent, hparent, hsame⟩ := h.sameRole
      rw [parentStandardType_eq, hparent, ← hsame]
      rfl
    · rw [kidsStandardTypes_eq]
      unfold childStandardTypes
      rw [children_nodes hlinked hnode]
    · rw [parentLang_eq, parentLanguage_eq hchain hlength]
    · intro hremapped
      exact absurd h.remapped hremapped
    · rw [circularMappingExist_eq]
      have hiff := (neverEnds_circular hcircular).mpr h.shortChain
      simpa using hiff

/-- A section with a paragraph that RoleMap maps to a section. -/
def remappedElementSource : Bytes :=
  utf8 ("%PDF-1.7\n1 0 obj<</Type/Catalog/StructTreeRoot 2 0 R>>endobj\n"
    ++ "2 0 obj<</Type/StructTreeRoot/RoleMap<</P/Sect>>/K 3 0 R>>endobj\n"
    ++ "3 0 obj<</S/Sect/K 4 0 R>>endobj\n4 0 obj<</S/P>>endobj\n"
    ++ "trailer<</Root 1 0 R>>\n%%EOF")

/-- The two nodes of `remappedElementSource`. -/
theorem remappedElement_run :
    (match Parser.parse ⟨{}, none⟩ Crates.unused remappedElementSource with
      | .ok doc =>
        match buildAccessibilityGraph Crates.unused doc.model {} with
        | .ok graph => doc.model.roleMapEntries = [("P", "Sect")]
          && (graph.nodes.map fun node => (node.role, node.normalizedRole, node.parent))
            = [("Sect", "Sect", none), ("P", "Sect", some 0)]
        | .error _ => false
      | .error _ => false) = true := by
  have hbytes := remappedElementSource.eq_def
  simp only [utf8_append] at hbytes
  repeat rw [utf8_ofList] at hbytes
  rw [hbytes]
  decide +kernel

theorem remappedElement_nodes :
    ∃ doc graph outer inner, Parser.parse ⟨{}, none⟩ Crates.unused remappedElementSource = .ok doc
      ∧ buildAccessibilityGraph Crates.unused doc.model {} = .ok graph
      ∧ doc.model.roleMapEntries = [("P", "Sect")] ∧ graph.nodes = [outer, inner]
      ∧ outer.normalizedRole = "Sect" ∧ outer.parent = none
      ∧ inner.role = "P" ∧ inner.normalizedRole = "Sect" ∧ inner.parent = some 0 := by
  have hrun := remappedElement_run
  cases hparse : Parser.parse ⟨{}, none⟩ Crates.unused remappedElementSource with
  | error e =>
    rw [hparse] at hrun
    cases hrun
  | ok doc =>
    rw [hparse] at hrun
    dsimp only at hrun
    cases hgraph : buildAccessibilityGraph Crates.unused doc.model {} with
    | error e =>
      rw [hgraph] at hrun
      cases hrun
    | ok graph =>
      rw [hgraph] at hrun
      simp only [Bool.and_eq_true, decide_eq_true_eq] at hrun
      obtain ⟨hmap, hnodes⟩ := hrun
      obtain ⟨outer, rest, hcons, houter, hrest⟩ := List.map_eq_cons_iff.mp hnodes
      obtain ⟨inner, rest, rfl, hinner, hnil⟩ := List.map_eq_cons_iff.mp hrest
      cases List.map_eq_nil_iff.mp hnil
      simp only [Prod.mk.injEq] at houter hinner
      exact ⟨doc, graph, outer, inner, rfl, hgraph, hmap, hcons, houter.2.1, houter.2.2, hinner.1,
        hinner.2.1, hinner.2.2⟩

/-- The outer element has no parent, and its parent's standard type is its own. -/
theorem structureElementProperty_relations_counterexample :
    ∃ doc graph, Parser.parse ⟨{}, none⟩ Crates.unused remappedElementSource = .ok doc
      ∧ buildAccessibilityGraph Crates.unused doc.model {} = .ok graph
      ∧ ∃ node ∈ graph.nodes, node.parent = none
        ∧ ¬ RelationsOfTree doc.model graph doc.model.roleMapEntries node := by
  obtain ⟨doc, graph, outer, inner, hparse, hgraph, -, hnodes, -, hparent, -⟩ := remappedElement_nodes
  refine ⟨doc, graph, hparse, hgraph, outer, by rw [hnodes]; exact List.mem_cons_self, hparent, ?_⟩
  intro h
  have htype := h.parentStandardType
  unfold parentNode at htype
  rw [parentStandardType_eq, hparent] at htype
  cases htype

/-- The inner element is one of those whose properties are right. -/
theorem structureElementProperty_relations_iff_remapped :
    ∃ doc graph, Parser.parse ⟨{}, none⟩ Crates.unused remappedElementSource = .ok doc
      ∧ buildAccessibilityGraph Crates.unused doc.model {} = .ok graph
      ∧ ∃ node ∈ graph.nodes, RelationsOfTree doc.model graph doc.model.roleMapEntries node := by
  obtain ⟨doc, graph, outer, inner, hparse, hgraph, hmap, hnodes, houter, -, hrole, hnormalized,
    hparent⟩ := remappedElement_nodes
  have hinner : inner ∈ graph.nodes := by
    rw [hnodes]
    exact List.mem_cons_of_mem _ List.mem_cons_self
  refine ⟨doc, graph, hparse, hgraph, inner, hinner,
    (structureElementProperty_relations_iff Crates.unused doc.model {} graph inner hgraph hinner).mpr
      ⟨⟨outer, ?_, ?_⟩, ?_, .inl ?_⟩⟩
  · unfold parentNode AccessibilityGraph.node
    rw [hparent, hnodes]
    rfl
  · rw [houter, hnormalized]
  · rw [hmap, hrole]
    exact ⟨by decide, "Sect", rfl, by decide⟩
  · rw [hmap, hrole]
    rfl

end Pdfv
