import Pdfv.Accessibility.Structure
import Pdfv.Parser.Filters
/-!
# Page content in the accessibility graph

The parent tree and the ID tree, the association of marked content with structure elements, the
artifacts, and `buildAccessibilityGraph`, which puts the graph together.
-/

namespace Pdfv

open Loop

/-! ## Streams of the document -/

/-- A content stream and the key it is filed under. -/
structure KeyedStream where
  key : ObjectKey
  stream : StreamObject

/-- The key of a stream that is stored directly. -/
def directStreamKey : ObjectKey :=
  .ofNumber 1

/-- `push_content_stream_value` for a value that is not an array. -/
def keyedStream (doc : ModelDocument) : CosObject → Option KeyedStream
  | .reference key =>
    match (doc.objects.get? key).map IndirectObject.object with
    | some (.stream stream) => some ⟨key, stream⟩
    | _ => none
  | .stream stream => some ⟨directStreamKey, stream⟩
  | _ => none

/-- `content_streams`. -/
def contentStreams (doc : ModelDocument) (page : Dictionary) : List KeyedStream :=
  ((page.get "Contents").elim [] CosObject.flatten).filterMap (keyedStream doc)

/-- `page_properties`. -/
def pageProperties (doc : ModelDocument) (page : Dictionary) : Dictionary :=
  ((doc.dictionaryFromEntry page "Resources").bind fun resources =>
    resources.directEntries "Properties").getD []

/-- `mcid_from_object`. -/
def mcidFromObject (doc : ModelDocument) (key : ObjectKey) : Option Int :=
  (doc.dictionaryAt key).bind fun dictionary => integerFromDictionary dictionary "MCID"

/-- `mcid_from_value`. -/
def mcidFromValue (doc : ModelDocument) (value : CosObject) : Option Int :=
  (doc.dictionaryFromValue value).bind fun dictionary => integerFromDictionary dictionary "MCID"

/-! ## Number and name trees -/

/-- The parent tree. Of several marked-content references for one page and identifier the newest, the
first of the list, counts. -/
structure NumberTree where
  entries : Nat
  mcidRefs : List ((ObjectKey × Int) × ObjectKey)
  objectRefs : OrdMap ObjectKey ObjectKey

/-- The kind of object that owns a parent-tree entry. -/
inductive ParentTreeOwnerKind where
  | page
  | annotation
  | image
  | form
  | other
deriving DecidableEq, Repr

/-- The object that owns a parent-tree entry. -/
structure ParentTreeOwner where
  object : ObjectKey
  pageOrdinal : Option Nat
  kind : ParentTreeOwnerKind

/-- `chunks(2)`. -/
def chunkPairs : List CosObject → List (CosObject × Option CosObject)
  | first :: second :: rest => (first, some second) :: chunkPairs rest
  | [first] => [(first, none)]
  | [] => []

/-- `synthetic_parent_key`. -/
def syntheticParentKey (parent : Int) : Option ObjectKey :=
  if h : 0 < parent ∧ parent < u32Size then
    some ⟨parent.toNat, u16Size - 1, by omega, by omega, by decide⟩
  else none

/-- `xobject_owner_kind`. -/
def xobjectOwnerKind (dictionary : Dictionary) : ParentTreeOwnerKind :=
  match dictionary.nameText "Subtype" with
  | some "Image" => .image
  | some "Form" => .form
  | _ => .other

/-- `annotation_refs`. -/
def annotationRefs : CosObject → List ObjectKey
  | .reference key => [key]
  | .array values => values.filterMap CosObject.asReference
  | _ => []

/-- `page_xobject_refs`. -/
def pageXobjectRefs (doc : ModelDocument) (page : Dictionary) : List ObjectKey :=
  (((doc.dictionaryFromEntry page "Resources").bind fun resources =>
    resources.directEntries "XObject").getD []).filterMap fun entry => entry.2.asReference

/-- `insert_parent_tree_owner`. -/
def insertParentTreeOwner (doc : ModelDocument) (owners : OrdMap Int ParentTreeOwner)
    (object : ObjectKey) (pageOrdinal : Option Nat) (kind : ParentTreeOwnerKind) :
    OrdMap Int ParentTreeOwner :=
  match doc.dictionaryAt object with
  | none => owners
  | some dictionary =>
    match (integerFromDictionary dictionary "StructParent").or
        (integerFromDictionary dictionary "StructParents") with
    | none => owners
    | some parent => owners.insert parent ⟨object, pageOrdinal, kind⟩

/-- The owners on one page. -/
def pageParentTreeOwners (doc : ModelDocument) (owners : OrdMap Int ParentTreeOwner)
    (page : PageContent) : OrdMap Int ParentTreeOwner :=
  let owners :=
    match integerFromDictionary page.dictionary "StructParents" with
    | some parent => owners.insert parent ⟨page.key, some page.ordinal, .page⟩
    | none => owners
  let owners := ((page.dictionary.get "Annots").elim [] annotationRefs).foldl
    (fun owners object => insertParentTreeOwner doc owners object (some page.ordinal) ParentTreeOwnerKind.annotation)
    owners
  (pageXobjectRefs doc page.dictionary).foldl
    (fun owners object => insertParentTreeOwner doc owners object (some page.ordinal)
      ((doc.dictionaryAt object).elim .other xobjectOwnerKind)) owners

/-- `collect_parent_tree_owners`. -/
def collectParentTreeOwners (doc : ModelDocument) (pages : List PageContent) :
    OrdMap Int ParentTreeOwner :=
  pages.foldl (pageParentTreeOwners doc) OrdMap.empty

section ParentTree

variable (doc : ModelDocument) (limits : ResourceLimits) (pageOrdinals : OrdMap ObjectKey Nat)
  (owners : OrdMap Int ParentTreeOwner)

/-- The page whose entry `parentKey` is, or the key that stands for an unknown page. -/
def parentTreePage (parentKey : Int) : Option ObjectKey :=
  ((pageOrdinals.entries.map Prod.fst).find? fun page =>
    ((doc.dictionaryAt page).bind fun dictionary =>
      integerFromDictionary dictionary "StructParents") = some parentKey).or
    (syntheticParentKey parentKey)

/-- The marked-content references in one parent-tree entry. -/
def parentTreeRefs (page : ObjectKey) : CosObject → List ((ObjectKey × Int) × ObjectKey)
  | .array values => values.zipIdx.filterMap fun item =>
    item.1.asReference.map fun element => ((page, (item.2 : Int)), element)
  | .reference element => [((page, 0), element)]
  | _ => []

/-- `collect_parent_tree_value`. -/
def collectParentTreeValue (parentKey : Int) (value : CosObject) (tree : NumberTree) : NumberTree :=
  let entry := fun (_ : Unit) =>
    match parentTreePage doc pageOrdinals parentKey with
    | none => tree
    | some page => { tree with mcidRefs := (parentTreeRefs page value).reverse ++ tree.mcidRefs }
  match owners.get? parentKey with
  | some owner =>
    if owner.kind = .page then entry ()
    else
      match value.asReference with
      | some element => { tree with objectRefs := tree.objectRefs.insert owner.object element }
      | none => tree
  | none => entry ()

/-- The state of the loop over a number or name tree. -/
structure TreeSearch (τ : Type) where
  stack : List CosObject
  visited : List ObjectKey
  tree : τ
  warnings : List ValidationWarning

/-- The entries of one `/Nums` array; nothing more is read once the cap is reached. -/
def collectNums (tree : NumberTree) :
    List (CosObject × Option CosObject) → NumberTree × Bool
  | [] => (tree, false)
  | (first, second) :: rest =>
    if tree.entries ≥ limits.maxParentTreeEntries then (tree, true)
    else
      match first, second with
      | .integer parentKey, some value =>
        collectNums (collectParentTreeValue doc pageOrdinals owners parentKey value
          { tree with entries := tree.entries + 1 }) rest
      | _, _ => collectNums tree rest

/-- A node of a number or name tree is entered: an indirect one only once. -/
def enterTreeNode {τ : Type} (s : TreeSearch τ) (stack : List CosObject) (cycle : String)
    (value : CosObject) : TreeSearch τ × Option Dictionary :=
  match doc.dictionaryRefOrInline value with
  | none => ({ s with stack }, none)
  | some found =>
    if found.key.elim false fun key => s.visited.contains key then
      ({ s with stack, warnings := s.warnings ++ [accessibilityWarning cycle] }, none)
    else
      ({ s with
          stack := found.dictionary.directItems "Kids" ++ stack,
          visited := found.key.toList ++ s.visited }, some found.dictionary)

/-- One node of the parent tree. -/
def collectParentTreeStep (s : TreeSearch NumberTree) :
    Step (TreeSearch NumberTree) (NumberTree × List ValidationWarning) :=
  match s.stack with
  | [] => .done (s.tree, s.warnings)
  | value :: stack =>
    match enterTreeNode doc s stack "parent tree cycle detected" value with
    | (s, none) => .next s
    | (s, some dictionary) =>
      match collectNums doc limits pageOrdinals owners s.tree
          (chunkPairs (dictionary.directItems "Nums")) with
      | (tree, true) =>
        .done (tree, s.warnings ++ [accessibilityWarning "parent tree entry cap reached"])
      | (tree, false) => .next { s with tree }

/-- `collect_parent_tree`; every stored value is met at most once. -/
def collectParentTree (value : CosObject) (warnings : List ValidationWarning) :
    NumberTree × List ValidationWarning :=
  runLoop (collectParentTreeStep doc limits pageOrdinals owners) (fun s => (s.tree, s.warnings))
    (doc.weight + value.weight + 1) ⟨[value], [], ⟨0, [], OrdMap.empty⟩, warnings⟩

end ParentTree

section IdTree

variable (doc : ModelDocument) (limits : ResourceLimits)

/-- The entries of one `/Names` array of the ID tree. -/
def collectIds (tree : OrdMap String ObjectKey) (warnings : List ValidationWarning) :
    List (CosObject × Option CosObject) → OrdMap String ObjectKey × List ValidationWarning × Bool
  | [] => (tree, warnings, false)
  | (first, second) :: rest =>
    if tree.size ≥ limits.maxParentTreeEntries then
      (tree, warnings ++ [accessibilityWarning "ID tree entry cap reached"], true)
    else
      match first.textString with
      | none =>
        collectIds tree
          (warnings ++ [accessibilityWarning "ID tree entry with non-string key skipped"]) rest
      | some id =>
        match second.bind CosObject.asReference with
        | none =>
          collectIds tree
            (warnings ++ [accessibilityWarning "ID tree entry with non-reference value skipped"])
            rest
        | some element =>
          let warnings :=
            if (tree.get? id).isSome then
              warnings ++ [accessibilityWarning "duplicate ID tree entry replaced"]
            else warnings
          collectIds (tree.insert id element) warnings rest

/-- One node of the ID tree. -/
def collectIdTreeStep (s : TreeSearch (OrdMap String ObjectKey)) :
    Step (TreeSearch (OrdMap String ObjectKey)) (OrdMap String ObjectKey × List ValidationWarning) :=
  match s.stack with
  | [] => .done (s.tree, s.warnings)
  | value :: stack =>
    match enterTreeNode doc s stack "ID tree cycle detected" value with
    | (s, none) => .next s
    | (s, some dictionary) =>
      match collectIds limits s.tree s.warnings (chunkPairs (dictionary.directItems "Names")) with
      | (tree, warnings, true) => .done (tree, warnings)
      | (tree, warnings, false) => .next { s with tree, warnings }

/-- `collect_id_tree`; every stored value is met at most once. -/
def collectIdTree (value : CosObject) (warnings : List ValidationWarning) :
    OrdMap String ObjectKey × List ValidationWarning :=
  runLoop (collectIdTreeStep doc limits) (fun s => (s.tree, s.warnings))
    (doc.weight + value.weight + 1) ⟨[value], [], OrdMap.empty, warnings⟩

/-- `class_map_entry_count`. -/
def classMapEntryCount (structTree : Dictionary) (warnings : List ValidationWarning) :
    Nat × List ValidationWarning :=
  let entries := ((structTree.directEntries "ClassMap").getD []).length
  if entries > limits.maxParentTreeEntries then
    (limits.maxParentTreeEntries,
      warnings ++ [accessibilityWarning "ClassMap entry cap reached"])
  else (entries, warnings)

end IdTree

/-! ## Associations -/

namespace AccessibilityGraph

variable (graph : AccessibilityGraph)

/-- The node of an element key. -/
def nodeByKey (key : ObjectKey) : Option Nat :=
  (graph.nodes.reverse.find? fun node => node.key = some key).map AccessibilityNode.id

/-- `explicit_node_for_mcid`. -/
def explicitNodeForMcid (page : ObjectKey) (mcid : Int) : Option Nat :=
  (graph.nodes.find? fun node => node.contentItems.any (claims node)).map AccessibilityNode.id
where
  /-- The item is the identifier, on the page. -/
  claims (node : AccessibilityNode) : AccessibilityContentItem → Bool
    | .mcid found (some itemPage) => found = mcid && itemPage = page
    | .mcid found none => found = mcid && node.page = some page
    | .object _ _ => false

end AccessibilityGraph

section Associations

variable (doc : ModelDocument) (parentTree : NumberTree)

/-- The identifier of a span: its own, that of the referenced property list, or that of the named
one. -/
def spanMcid (properties : Dictionary) (span : MarkedContentSpan) : Option Int :=
  span.mcid.or ((span.properties.bind (mcidFromObject doc)).or
    (span.propertiesName.bind fun name =>
      (OrdList.lookup name properties).bind (mcidFromValue doc)))

/-- The element that owns an identifier on a page: the one that names it, else the one of the parent
tree. -/
def nodeForMcid (graph : AccessibilityGraph) (page : PageContent) (mcid : Int) : Option Nat :=
  (graph.explicitNodeForMcid page.key mcid).or
    ((integerFromDictionary page.dictionary "StructParents").bind fun parent =>
      ((parentTree.mcidRefs.lookup (page.key, mcid)).or
        ((syntheticParentKey parent).bind fun key => parentTree.mcidRefs.lookup (key, mcid))).bind
        graph.nodeByKey)

/-- The association of one span. -/
def spanAssociation (graph : AccessibilityGraph) (page : PageContent) (properties : Dictionary)
    (stream : ObjectKey) (span : MarkedContentSpan) : AccessibilityMarkedContent :=
  let mcid := spanMcid doc properties span
  let node := mcid.bind (nodeForMcid parentTree graph page)
  { node, pageOrdinal := page.ordinal, stream, tag := utf8Lossy span.tag.bytes, mcid,
    hasText := span.hasText,
    hasImage := span.hasImage
      || (node.bind fun node => graph.nodes[node]?).elim false fun node =>
        node.normalizedRole = "Figure",
    location := span.location }

/-- One content stream of a page. -/
def collectStreamAssociations (crates : Crates) (limits : ResourceLimits) (page : PageContent)
    (graph : AccessibilityGraph) (entry : KeyedStream × Nat) : AccessibilityGraph :=
  match entry.1.stream.decodedBytes crates limits with
  | .error e => graph.warn s!"content stream decode skipped for accessibility graph: {e.display}"
  | .ok decoded =>
    match summarizeContentStream entry.1.key s!"root/page[{page.ordinal}]/contentStream[{entry.2}]"
        decoded limits with
    | .error e => graph.warn s!"content stream parse skipped for accessibility graph: {e.display}"
    | .ok summary =>
      { graph with
        markedContent := graph.markedContent ++ summary.markedContent.map
          (spanAssociation doc parentTree graph page (pageProperties doc page.dictionary)
            entry.1.key) }

/-- `collect_content_associations`. -/
def collectContentAssociations (crates : Crates) (limits : ResourceLimits)
    (pages : List PageContent) (graph : AccessibilityGraph) : AccessibilityGraph :=
  pages.foldl (fun graph page =>
    (contentStreams doc page.dictionary).zipIdx.foldl
      (collectStreamAssociations doc parentTree crates limits page) graph) graph

/-- `object_location`. -/
def objectLocation (object : ObjectKey) (context : String) : ObjectLocation :=
  ⟨some object, (doc.objects.get? object).map IndirectObject.offset,
    some ⟨s!"{context}[{object.number}]"⟩⟩

/-- One object reference of the parent tree. -/
def collectObjectAssociation (owners : OrdMap Int ParentTreeOwner) (graph : AccessibilityGraph)
    (entry : ObjectKey × ObjectKey) : AccessibilityGraph :=
  let (object, element) := entry
  match graph.nodeByKey element with
  | none => graph.warn "parent tree object reference targets unknown structure element"
  | some node =>
    let owner := owners.values.reverse.find? fun owner => owner.object = object
    let dictionary := doc.dictionaryAt object
    let kind := ((owner.map ParentTreeOwner.kind).or (dictionary.map xobjectOwnerKind)).getD .other
    let pageOrdinal := owner.bind ParentTreeOwner.pageOrdinal
    if kind = .image then
      let role := (graph.nodes[node]?).elim "Figure" AccessibilityNode.normalizedRole
      { graph with
        markedContent := graph.markedContent ++
          [⟨some node, pageOrdinal.getD 0, object, role, none, false, true,
            objectLocation doc object "root/accessibility/imageObject"⟩] }
    else
      { graph with
        objectReferences := graph.objectReferences ++
          [⟨node, some object, pageOrdinal, dictionary.elim false Dictionary.isLinkAnnotation⟩] }

/-- `collect_parent_tree_object_associations`. -/
def collectParentTreeObjectAssociations (owners : OrdMap Int ParentTreeOwner)
    (graph : AccessibilityGraph) : AccessibilityGraph :=
  parentTree.objectRefs.entries.foldl (collectObjectAssociation doc owners) graph

end Associations

/-- The artifacts found so far, with the keys they are told apart by. -/
structure ArtifactSet where
  seen : List (Option Nat × Option Nat × String)
  artifacts : List AccessibilityArtifact

/-- An artifact is added unless one like it was. -/
def ArtifactSet.add (set : ArtifactSet) (artifact : AccessibilityArtifact) : ArtifactSet :=
  let key := (artifact.node, artifact.pageOrdinal, artifact.tag)
  if artifact.tag ≠ "Artifact" ∨ key ∈ set.seen then set
  else ⟨key :: set.seen, set.artifacts ++ [artifact]⟩

/-- `collect_artifacts`. -/
def collectArtifacts (graph : AccessibilityGraph) : AccessibilityGraph :=
  let candidates : List AccessibilityArtifact :=
    (graph.nodes.map fun node =>
      ⟨some node.id, node.pageOrdinal, node.normalizedRole, node.location⟩) ++
    graph.markedContent.map fun marked =>
      ⟨marked.node, some marked.pageOrdinal, marked.tag, marked.location⟩
  { graph with artifacts := (candidates.foldl ArtifactSet.add ⟨[], graph.artifacts⟩).artifacts }

/-! ## The whole graph -/

/-- The graph of a document without a structure tree. -/
def untaggedGraph (tagged : Bool) (language : Option String) : AccessibilityGraph where
  tagged := tagged
  language := language
  hasStructureTreeRoot := false
  roleMapPresent := false
  classMapPresent := false
  idTreeEntries := 0
  idTree := OrdMap.empty
  classMapEntries := 0
  parentTreeEntries := 0
  parentTreeNextKey := none
  nodes := []
  markedContent := []
  objectReferences := []
  artifacts := []
  warnings := []
  truncated := false

/-- The traversal of the root's kids, if it has any. -/
def traverseKids (doc : ModelDocument) (limits : ResourceLimits) (structTree : Dictionary)
    (pageOrdinals : OrdMap ObjectKey Nat) (graph : AccessibilityGraph) :
    Except PdfvError AccessibilityGraph :=
  match structTree.get "K" with
  | none => .ok graph
  | some kids =>
    traverseStructureTree doc limits structTree (roleMap structTree) pageOrdinals kids graph

/-- `build_accessibility_graph`. -/
def buildAccessibilityGraph (crates : Crates) (doc : ModelDocument) (limits : ResourceLimits) :
    Except PdfvError AccessibilityGraph := do
  let pages ← collectPages doc limits
  let pageOrdinals := pages.foldl
    (fun (ordinals : OrdMap ObjectKey Nat) page => ordinals.insert page.key page.ordinal)
    OrdMap.empty
  let owners := collectParentTreeOwners doc pages
  let catalog := doc.catalogDictionary
  let tagged := catalog.elim false doc.catalogMarked
  let language := catalog.bind fun catalog => catalog.textString "Lang"
  match catalog.bind fun catalog => doc.dictionaryFromEntry catalog "StructTreeRoot" with
  | none => return untaggedGraph tagged language
  | some structTree =>
    let (idTree, warnings) :=
      match structTree.get "IDTree" with
      | none => (OrdMap.empty, [])
      | some value => collectIdTree doc limits value []
    let (classMapEntries, warnings) := classMapEntryCount limits structTree warnings
    let (parentTree, warnings) : NumberTree × List ValidationWarning :=
      match structTree.get "ParentTree" with
      | none => (⟨0, [], OrdMap.empty⟩, warnings)
      | some value => collectParentTree doc limits pageOrdinals owners value warnings
    let graph : AccessibilityGraph :=
      { untaggedGraph tagged language with
        hasStructureTreeRoot := true, roleMapPresent := structTree.has "RoleMap",
        classMapPresent := structTree.has "ClassMap", idTreeEntries := idTree.size, idTree,
        classMapEntries, parentTreeEntries := parentTree.entries,
        parentTreeNextKey := integerFromDictionary structTree "ParentTreeNextKey", warnings }
    let graph ← traverseKids doc limits structTree pageOrdinals graph
    let graph := collectContentAssociations doc parentTree crates limits pages graph
    let graph := collectParentTreeObjectAssociations doc parentTree owners graph
    return collectArtifacts graph

end Pdfv
