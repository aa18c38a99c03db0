import Pdfv.Accessibility.Elements
import Pdfv.Validation.Graph
/-!
# Annotations in the structure tree

An annotation of a page is an object of the validation model, and the accessibility graph records the
structure nodes that annotations belong to. `annotationProperty` and `accessibilityAnnotationProperty`
are the two views, and `annotation_agrees_iff` says when they agree.
-/

namespace Pdfv

open Loop Fallible

/-! ## The annotation object -/

/-- `ANNOTATION_DIRECT_PROPERTIES`. -/
def annotationDirectProperties : List PropertyName :=
  ["Type", "Subtype", "F", "C", "IC", "AP", "FT", "CA", "A", "AA", "FS"]

/-- An entry of a dictionary as a value. -/
def entryValue (dictionary : Dictionary) (name : PropertyName) : ModelValue :=
  (dictionary.get name).elim .null ModelValue.ofCos

/-- `dictionary_property`. -/
def dictionaryProperty (dictionary : Dictionary) (name : PropertyName) (allowed : List PropertyName) :
    Except PdfvError ModelValue :=
  if allowed.contains name then .ok (entryValue dictionary name) else unknownProperty name

/-- `number_from_array`. -/
def numberFromArray (values : List CosObject) (index : Nat) : Option Double :=
  match values[index]? with
  | some (.integer value) =>
    if -(2 ^ 31 : Int) ≤ value ∧ value < 2 ^ 31 then some (.ofInt value) else none
  | some (.real value) => some (.finite value)
  | _ => none

/-- `annotation_width`, `annotation_height`: the distance of two coordinates of `/Rect`. -/
def annotationExtent (dictionary : Dictionary) (lowIndex highIndex : Nat) : Option Double :=
  match dictionary.get "Rect" with
  | some (.array rect) =>
    (numberFromArray rect lowIndex).bind fun low =>
      (numberFromArray rect highIndex).bind fun high =>
        if high.lt low then some (.ofInt 0)
        else
          let extent := high.sub low
          if extent.isFinite && Double.le (.ofInt 0) extent then some extent else none
  | _ => none

/-- `annotation_struct_parent`. -/
def annotationStructParent (dictionary : Dictionary) : Option Int :=
  match (dictionary.get "StructParent").or (dictionary.get "StructParents") with
  | some (.integer value) => some value
  | _ => none

section Model

variable (crates : Crates) (doc : ModelDocument) (model : AnnotationModel)

/-- `annotation_target_mismatch`; it builds a graph of its own. -/
def annotationTargetMismatch : Except PdfvError ModelValue :=
  let dictionary := model.dictionary.value
  if !entryIsName dictionary "Subtype" "Link" then .ok .null
  else if (annotationStructParent dictionary).isNone then .ok .null
  else
    match model.key with
    | none => .ok (.bool false)
    | some key => do
      let graph ← buildAccessibilityGraph crates doc {}
      let hasMatchingLink := graph.objectReferences.any fun reference =>
        reference.object = some key && reference.isLinkAnnotation
          && (graph.node reference.node).any fun node => node.normalizedRole = "Link"
      return if hasMatchingLink then .null else .bool false

/-- `annotation_normal_appearance_type`. -/
def annotationNormalAppearanceType : ModelValue :=
  match (doc.resolveDictionaryValue (model.dictionary.get "AP")).bind fun appearances =>
      appearances.value.get "N" with
  | none => .null
  | some (.stream _) => textValue "Stream"
  | some (.dictionary _) => textValue "Dictionary"
  | some (.reference key) =>
    match doc.objects.get? key with
    | none => textValue "Missing"
    | some object =>
      match object.object with
      | .stream _ => textValue "Stream"
      | .dictionary _ => textValue "Dictionary"
      | _ => textValue "Other"
  | some _ => textValue "Other"

/-- The names that `AnnotationModel::property` itself matches. -/
def annotationTable : PropertyTable :=
  let dictionary := model.dictionary.value
  let present (key : String) : Except PdfvError ModelValue := .ok (.bool (dictionary.has key))
  [(["hasSubtype"], present "Subtype"), (["containsAppearances"], present "AP"),
   (["containsA"], present "A"), (["containsAA"], present "AA"), (["containsC"], present "C"),
   (["containsIC"], present "IC"), (["containsFS"], present "FS"), (["containsRC"], present "RC"),
   (["containsLbl"], present "Lbl")]
  ++ (["Name", "Contents", "Alt", "AFRelationship", "RC", "TU"].map fun name =>
    ([name], .ok (entryValue dictionary name)))
  ++ [(["containsLang"], present "Lang"),
   (["gContainsCatalogLang"], .ok (.bool ((doc.catalogDictionary.bind fun catalog =>
     catalog.get "Lang").isSome))),
   (["differentTargetAnnotObjectKey"], annotationTargetMismatch crates doc model),
   (["gOutputCS", "structParentType", "structParentStandardType"], .ok .null),
   (["N_type"], .ok (annotationNormalAppearanceType doc model)),
   (["width"], .ok ((annotationExtent dictionary 0 2).elim .null .number)),
   (["height"], .ok ((annotationExtent dictionary 1 3).elim .null .number)),
   (["isArtifact", "isOutsideCropBox"], .ok (.bool false)),
   (["isFieldWidget"], .ok (.bool (entryIsName dictionary "Subtype" "Widget")))]

/-- `AnnotationModel::property`. -/
def annotationProperty (name : PropertyName) : Except PdfvError ModelValue :=
  match (annotationTable crates doc model).find? fun row => row.1.contains name with
  | some row => row.2
  | none => dictionaryProperty model.dictionary.value name annotationDirectProperties

end Model

/-! ## The object of the accessibility graph -/

section Reference

variable (graph : AccessibilityGraph)

/-- `associated_node_string`. -/
def associatedNodeString (node : Option Nat) (normalized : Bool) : ModelValue :=
  (node.bind graph.node).elim .null fun node =>
    textValue (if normalized then node.normalizedRole else node.role)

/-- `annotation_property` of the accessibility annotation. -/
def accessibilityAnnotationProperty (reference : AccessibilityObjectReference)
    (name : PropertyName) : Except PdfvError ModelValue :=
  PropertyTable.value
    [(["pageIndex"], optionalCount reference.pageOrdinal),
     (["structureRole"], .ok (associatedNodeString graph (some reference.node) false)),
     (["normalizedRole"], .ok (associatedNodeString graph (some reference.node) true)),
     (["isLink"], .ok (.bool reference.isLinkAnnotation)),
     (["object"], .ok (reference.object.elim .null .objectKey))] name

/-- The object references that the graph records for an annotation. -/
def recordedReferences ( annotation : AnnotationModel) : List AccessibilityObjectReference :=
  graph.objectReferences.filter fun reference =>
    reference.object.isSome && reference.object = annotation.key

/-- The structure nodes that the graph records for an annotation. -/
def recordedNodes ( annotation : AnnotationModel) : List AccessibilityNode :=
  (recordedReferences graph annotation).filterMap fun reference => graph.node reference.node

end Reference

/-- The two roles of the structure parent are those of the recorded nodes, null when there is none, and
the accessibility annotation has the same. -/
structure AgreesWithGraph (crates : Crates) (doc : ModelDocument) (graph : AccessibilityGraph)
    ( annotation : AnnotationModel) : Prop where
  standardType : ∀ node ∈ recordedNodes graph annotation,
    annotationProperty crates doc annotation "structParentStandardType"
      = .ok (textValue node.normalizedRole)
  rawType : ∀ node ∈ recordedNodes graph annotation,
    annotationProperty crates doc annotation "structParentType" = .ok (textValue node.role)
  standardNull : annotationProperty crates doc annotation "structParentStandardType" = .ok .null
    ↔ recordedNodes graph annotation = []
  rawNull : annotationProperty crates doc annotation "structParentType" = .ok .null
    ↔ recordedNodes graph annotation = []
  accessibilityAnnotation : ∀ reference ∈ recordedReferences graph annotation,
    accessibilityAnnotationProperty graph reference "normalizedRole"
      = annotationProperty crates doc annotation "structParentStandardType"

theorem structParentStandardType_eq (crates : Crates) (doc : ModelDocument)
    ( annotation : AnnotationModel) :
    annotationProperty crates doc annotation "structParentStandardType" = .ok .null := rfl

theorem structParentType_eq (crates : Crates) (doc : ModelDocument) ( annotation : AnnotationModel) :
    annotationProperty crates doc annotation "structParentType" = .ok .null := rfl

/-! ## Recorded nodes exist -/

/-- Every object reference belongs to a node of the graph. -/
def ReferencesInside (graph : AccessibilityGraph) : Prop :=
  ∀ reference ∈ graph.objectReferences, reference.node < graph.nodes.length

section Traversal

variable {doc : ModelDocument} {limits : ResourceLimits} {structTree : Dictionary}
  {map : List (String × String)} {pageOrdinals : OrdMap ObjectKey Nat}

/-- The references that the kids of a node add belong to the node. -/
theorem collectKidValue_references {nodeId : Nat} {page : Option ObjectKey} {depth : Nat}
    {c c' : KidCollector} {value : CosObject} {Inside : AccessibilityObjectReference → Prop}
    (hnode : ∀ reference, reference.node = nodeId → Inside reference)
    (hc : ∀ reference ∈ c.references, Inside reference)
    (h : collectKidValue doc pageOrdinals nodeId page depth c value = .ok c') :
    ∀ reference ∈ c'.references, Inside reference := by
  unfold collectKidValue at h
  split at h
  · cases h
    exact hc
  · split at h
    · cases h
      exact hc
    · dsimp only at h
      split_ifs at h
      · split at h <;> cases h <;> exact hc
      · cases h
        intro reference hreference
        rcases List.mem_append.mp hreference with hold | hnew
        · exact hc reference hold
        · exact hnode reference (by rw [List.mem_singleton.mp hnew])
      · obtain ⟨-, -, h⟩ := bind_eq_ok.mp h
        cases h
        exact hc

theorem collectKids_references {nodeId : Nat} {page : Option ObjectKey} {depth : Nat}
    {c c' : KidCollector} {kids : Option CosObject} {Inside : AccessibilityObjectReference → Prop}
    (hnode : ∀ reference, reference.node = nodeId → Inside reference)
    (hc : ∀ reference ∈ c.references, Inside reference)
    (h : collectKids doc pageOrdinals nodeId page depth c kids = .ok c') :
    ∀ reference ∈ c'.references, Inside reference := by
  unfold collectKids at h
  split at h
  · cases h
    exact hc
  · exact foldlM_inv (fun _ _ _ _ hb hstep => collectKidValue_references hnode hb hstep) hc h
  · exact collectKidValue_references hnode hc h

theorem addChild_length (graph : AccessibilityGraph) (parent : Option Nat) (child : Nat) :
    (graph.addChild parent child).nodes.length = graph.nodes.length
      ∧ (graph.addChild parent child).objectReferences = graph.objectReferences := by
  unfold AccessibilityGraph.addChild
  split
  · exact ⟨rfl, rfl⟩
  · exact ⟨List.length_modify _ _ _, rfl⟩

theorem addStructureElement_references {s s' : TraversalState} {item : TraversalItem}
    {found : KeyedDictionary} {role : String} (hs : ReferencesInside s.graph)
    (h : addStructureElement doc structTree map pageOrdinals s item found role = .ok s') :
    ReferencesInside s'.graph := by
  unfold addStructureElement at h
  obtain ⟨kids, hkids, h⟩ := bind_eq_ok.mp h
  cases pure_eq_ok.mp h
  obtain ⟨hlength, hreferences⟩ := addChild_length s.graph item.parent s.graph.nodes.length
  have hinside : ∀ reference ∈ kids.references, reference.node < s.graph.nodes.length + 1 := by
    refine collectKids_references ?_ ?_ hkids
    · intro reference hreference
      rw [hreference]
      exact Nat.lt_succ_self _
    · intro reference hreference
      have hold : reference ∈ s.graph.objectReferences := hreferences ▸ hreference
      exact Nat.lt_succ_of_lt (hs reference hold)
  intro reference hreference
  have hgrown : (s.graph.addChild item.parent s.graph.nodes.length).nodes.length + 1
      = s.graph.nodes.length + 1 := congrArg (· + 1) hlength
  have hlt := hinside reference hreference
  rw [← hgrown] at hlt
  rw [List.length_append, List.length_singleton]
  exact hlt

theorem traverseStep_references {s s' : TraversalState} (hs : ReferencesInside s.graph)
    (h : traverseStep doc limits structTree map pageOrdinals s = .next s') :
    ReferencesInside s'.graph := by
  unfold traverseStep at h
  split at h
  · cases h
  · dsimp only at h
    split_ifs at h
    · cases h
      exact hs
    · split at h
      · cases h
        exact hs
      · unfold traverseElement at h
        split at h
        · cases h
          exact hs
        · split_ifs at h
          · cases h
            exact hs
          · dsimp only at h
            split at h
            · cases h
              exact hs
            · split_ifs at h
              · cases h
                exact hs
              · unfold continueTraversal at h
                split at h
                · rename_i next hnext
                  cases h
                  refine addStructureElement_references ?_ hnext
                  exact hs
                · cases h

theorem traverseStructureTree_references {root : CosObject} {start graph : AccessibilityGraph}
    (hstart : start.objectReferences = [])
    (h : traverseStructureTree doc limits structTree map pageOrdinals root start = .ok graph) :
    ReferencesInside graph := by
  have hinitial : ReferencesInside (traversalStart root start).graph := by
    intro reference hreference
    have hnone : reference ∈ start.objectReferences := hreference
    rw [hstart] at hnone
    cases hnone
  suffices hended : ∀ graph, traverseStructureTree doc limits structTree map pageOrdinals root start
      = .ok graph → ReferencesInside graph from hended graph h
  refine runLoop_inv (fun s => ReferencesInside s.graph)
    (fun (r : Except PdfvError AccessibilityGraph) => ∀ graph, r = .ok graph →
      ReferencesInside graph) ?_ ?_ ?_ hinitial
  · exact fun s s' hs hstep => traverseStep_references hs hstep
  · rintro s r hs hdone graph rfl
    rw [traverseStep_done hdone]
    exact hs
  · rintro s hs graph hgive
    cases hgive
    exact hs

end Traversal

section Graph

variable {crates : Crates} {doc : ModelDocument} {limits : ResourceLimits}

theorem collectContentAssociations_references (parentTree : NumberTree) (pages : List PageContent)
    (graph : AccessibilityGraph) :
    (collectContentAssociations doc parentTree crates limits pages graph).objectReferences
      = graph.objectReferences := by
  have hstream : ∀ page graph entry,
      (collectStreamAssociations doc parentTree crates limits page graph entry).objectReferences
        = graph.objectReferences := by
    intro page graph entry
    unfold collectStreamAssociations
    split
    · rfl
    · split <;> rfl
  have hpage : ∀ page (entries : List (KeyedStream × Nat)) graph,
      (entries.foldl (collectStreamAssociations doc parentTree crates limits page)
        graph).objectReferences = graph.objectReferences := by
    intro page entries
    induction entries with
    | nil => exact fun _ => rfl
    | cons entry entries ih =>
      intro graph
      rw [List.foldl_cons, ih, hstream]
  unfold collectContentAssociations
  induction pages generalizing graph with
  | nil => rfl
  | cons page pages ih => rw [List.foldl_cons, ih, hpage]

theorem nodeByKey_lt {graph : AccessibilityGraph} (hlinked : Linked graph.nodes) {key : ObjectKey}
    {id : Nat} (h : graph.nodeByKey key = some id) : id < graph.nodes.length := by
  obtain ⟨node, hnode, rfl⟩ := Option.map_eq_some_iff.mp h
  exact hlinked.lt_length (List.mem_reverse.mp (List.mem_of_find?_eq_some hnode))

theorem collectObjectAssociation_references {owners : OrdMap Int ParentTreeOwner}
    {graph : AccessibilityGraph} {entry : ObjectKey × ObjectKey} (hlinked : Linked graph.nodes)
    (h : ReferencesInside graph) :
    Linked (collectObjectAssociation doc owners graph entry).nodes
      ∧ ReferencesInside (collectObjectAssociation doc owners graph entry) := by
  unfold collectObjectAssociation
  dsimp only
  split
  · exact ⟨hlinked, h⟩
  · rename_i node hnode
    split
    · exact ⟨hlinked, h⟩
    · refine ⟨hlinked, fun reference hreference => ?_⟩
      rcases List.mem_append.mp hreference with hold | hnew
      · exact h reference hold
      · rw [List.mem_singleton.mp hnew]
        exact nodeByKey_lt hlinked hnode

theorem collectParentTreeObjectAssociations_references (parentTree : NumberTree)
    (owners : OrdMap Int ParentTreeOwner) {graph : AccessibilityGraph} (hlinked : Linked graph.nodes)
    (h : ReferencesInside graph) :
    ReferencesInside (collectParentTreeObjectAssociations doc parentTree owners graph) := by
  unfold collectParentTreeObjectAssociations
  generalize parentTree.objectRefs.entries = entries
  induction entries generalizing graph with
  | nil => exact h
  | cons entry entries ih =>
    obtain ⟨hlinked', h'⟩ := collectObjectAssociation_references hlinked h
    exact ih hlinked' h'

theorem buildAccessibilityGraph_references {graph : AccessibilityGraph}
    (h : buildAccessibilityGraph crates doc limits = .ok graph) : ReferencesInside graph := by
  unfold buildAccessibilityGraph at h
  obtain ⟨pages, -, h⟩ := bind_eq_ok.mp h
  dsimp only at h
  split at h
  · cases h
    intro reference hreference
    cases hreference
  · rename_i structTree htree
    obtain ⟨traversed, htraversed, h⟩ := bind_eq_ok.mp h
    cases pure_eq_ok.mp h
    have hinside : Linked traversed.nodes ∧ ReferencesInside traversed := by
      unfold traverseKids at htraversed
      split at htraversed
      · cases htraversed
        refine ⟨linked_nil, fun reference hreference => ?_⟩
        cases hreference
      · exact ⟨(traverseStructureTree_traversed rfl htraversed).1,
          traverseStructureTree_references rfl htraversed⟩
    refine collectParentTreeObjectAssociations_references _ _ ?_ ?_
    · rw [collectContentAssociations_nodes]
      exact hinside.1
    · intro reference hreference
      rw [collectContentAssociations_references] at hreference
      rw [collectContentAssociations_nodes]
      exact hinside.2 reference hreference

end Graph

/-- A recorded reference is one to a node. -/
theorem recordedNodes_eq_nil_iff {graph : AccessibilityGraph} (h : ReferencesInside graph)
    ( annotation : AnnotationModel) :
    recordedNodes graph annotation = [] ↔ recordedReferences graph annotation = [] := by
  unfold recordedNodes
  constructor
  · intro hnone
    rw [List.filterMap_eq_nil_iff] at hnone
    refine List.eq_nil_iff_forall_not_mem.mpr fun reference hreference => ?_
    have hinside := h reference (List.mem_of_mem_filter hreference)
    have hnode : graph.node reference.node = none := hnone reference hreference
    unfold AccessibilityGraph.node at hnode
    rw [List.getElem?_eq_none_iff] at hnode
    omega
  · intro hnone
    rw [hnone]
    rfl

/-- The two views of an annotation agree exactly when no object reference of the graph is to it: the
annotation object has no structure parent. -/
theorem annotation_agrees_iff {crates : Crates} {doc : ModelDocument} {limits : ResourceLimits}
    {graph : AccessibilityGraph} (hgraph : buildAccessibilityGraph crates doc limits = .ok graph)
    ( annotation : AnnotationModel) :
    AgreesWithGraph crates doc graph annotation ↔ recordedReferences graph annotation = [] := by
  have hnodes := recordedNodes_eq_nil_iff (buildAccessibilityGraph_references hgraph) annotation
  rw [← hnodes]
  constructor
  · intro h
    exact h.standardNull.mp (structParentStandardType_eq crates doc annotation)
  · intro hnone
    have hempty : ∀ node, node ∉ recordedNodes graph annotation := by
      intro node hnode
      rw [hnone] at hnode
      cases hnode
    have hreferences := hnodes.mp hnone
    refine {
      standardType := fun node hnode => absurd hnode (hempty node)
      rawType := fun node hnode => absurd hnode (hempty node)
      standardNull := iff_of_true (structParentStandardType_eq crates doc annotation) hnone
      rawNull := iff_of_true (structParentType_eq crates doc annotation) hnone
      accessibilityAnnotation := fun reference hreference => ?_ }
    rw [hreferences] at hreference
    cases hreference

/-- A page with two annotations, of which a structure element has the first. -/
def linkedAnnotationSource : Bytes :=
  utf8 ("%PDF-1.7\n1 0 obj<</Type/Catalog/Pages 2 0 R/StructTreeRoot 4 0 R>>endobj\n"
    ++ "2 0 obj<</Type/Pages/Kids[3 0 R]/Count 1>>endobj\n"
    ++ "3 0 obj<</Type/Page/Annots[6 0 R 7 0 R]>>endobj\n4 0 obj<</K 5 0 R>>endobj\n"
    ++ "5 0 obj<</S/Link/K<</Type/OBJR/Obj 6 0 R/Pg 3 0 R>>>>endobj\n"
    ++ "6 0 obj<</Subtype/Link/Rect[0 0 9 9]>>endobj\n7 0 obj<</Subtype/Text>>endobj\n"
    ++ "trailer<</Root 1 0 R>>\n%%EOF")

/-- The graph of the document, and the annotations of its only page. -/
def onlyPageAnnotations (doc : ModelDocument) :
    Except PdfvError (AccessibilityGraph × List AnnotationModel) := do
  let graph ← buildAccessibilityGraph Crates.unused doc {}
  match doc.catalogModel with
  | none => return (graph, [])
  | some catalog =>
    match ← doc.pageModels {} catalog 100 with
    | [page] => return (graph, ← doc.annotationModels page 100)
    | _ => return (graph, [])

/-- The first annotation has a recorded link element, the second has none. -/
theorem linkedAnnotation_run :
    (match Parser.parse ⟨{}, none⟩ Crates.unused linkedAnnotationSource with
      | .ok doc =>
        match onlyPageAnnotations doc.model with
        | .ok (graph, [first, second]) =>
          (recordedNodes graph first).map AccessibilityNode.normalizedRole = ["Link"]
            ∧ (recordedReferences graph second).isEmpty
        | _ => false
      | .error _ => false) = true := by
  have hbytes := linkedAnnotationSource.eq_def
  simp only [utf8_append] at hbytes
  repeat rw [utf8_ofList] at hbytes
  rw [hbytes]
  decide +kernel

/-- The pieces of the run: the graph, and the two annotations. -/
theorem linkedAnnotation_parts : ∃ doc graph first second,
    Parser.parse ⟨{}, none⟩ Crates.unused linkedAnnotationSource = .ok doc
      ∧ buildAccessibilityGraph Crates.unused doc.model {} = .ok graph
      ∧ onlyPageAnnotations doc.model = .ok (graph, [first, second])
      ∧ (recordedNodes graph first).map AccessibilityNode.normalizedRole = ["Link"]
      ∧ recordedReferences graph second = [] := by
  have hrun := linkedAnnotation_run
  split at hrun
  · rename_i doc hparse
    split at hrun
    · rename_i graph first second hannotations
      obtain ⟨hfirst, hsecond⟩ := of_decide_eq_true hrun
      have hbuild := hannotations
      unfold onlyPageAnnotations at hbuild
      obtain ⟨built, hbuilt, hrest⟩ := bind_eq_ok.mp hbuild
      have hsame : built = graph := by
        split at hrest
        · cases hrest
        · obtain ⟨pages, -, hrest⟩ := bind_eq_ok.mp hrest
          split at hrest
          · obtain ⟨annotations, -, hrest⟩ := bind_eq_ok.mp hrest
            cases hrest
            rfl
          · cases hrest
      rw [hsame] at hbuilt
      exact ⟨doc, graph, first, second, hparse, hbuilt, hannotations, hfirst,
        List.isEmpty_iff.mp hsecond⟩
    · cases hrun
  · cases hrun

theorem annotation_agrees_iff_unlinked : ∃ doc graph first second,
    onlyPageAnnotations doc = .ok (graph, [first, second])
      ∧ AgreesWithGraph Crates.unused doc graph second := by
  obtain ⟨doc, graph, first, second, -, hgraph, hannotations, -, hsecond⟩ := linkedAnnotation_parts
  exact ⟨doc.model, graph, first, second, hannotations,
    (annotation_agrees_iff hgraph second).mpr hsecond⟩

/-- The annotation of the link element has no structure parent type. -/
theorem linkedAnnotation_disagrees : ∃ doc graph first second,
    Parser.parse ⟨{}, none⟩ Crates.unused linkedAnnotationSource = .ok doc
      ∧ onlyPageAnnotations doc.model = .ok (graph, [first, second])
      ∧ (recordedNodes graph first).map AccessibilityNode.normalizedRole = ["Link"]
      ∧ annotationProperty Crates.unused doc.model first "structParentStandardType" = .ok .null
      ∧ ¬ AgreesWithGraph Crates.unused doc.model graph first := by
  obtain ⟨doc, graph, first, second, hparse, -, hannotations, hfirst, -⟩ := linkedAnnotation_parts
  have hnull := structParentStandardType_eq Crates.unused doc.model first
  refine ⟨doc, graph, first, second, hparse, hannotations, hfirst, hnull, fun hagrees => ?_⟩
  rw [hagrees.standardNull.mp hnull] at hfirst
  cases hfirst

end Pdfv
