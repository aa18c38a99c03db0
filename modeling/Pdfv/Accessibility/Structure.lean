import Pdfv.Validation.Values
import Pdfv.Basic.Loop
/-!
# The structure tree

The accessibility graph of a document: its pages, the structure elements with their content items
and object references, and the readers of structure dictionaries. The traversal is a loop over a
stack of pending values, as in the source; the content of the pages is associated in
`Pdfv.Accessibility.Content`.
-/

namespace Pdfv

open Loop Fallible

/-- `MAX_ROLE_MAP_STEPS`. -/
def maxRoleMapSteps : Nat := 32

/-- `STANDARD_ROLES`. -/
def standardRoles : List String :=
  ["Document", "Part", "Art", "Sect", "Div", "BlockQuote", "Caption", "TOC", "TOCI", "Index",
   "NonStruct", "Private", "P", "H", "H1", "H2", "H3", "H4", "H5", "H6", "L", "LI", "Lbl", "LBody",
   "Table", "TR", "TH", "TD", "THead", "TBody", "TFoot", "Span", "Quote", "Note", "Reference",
   "BibEntry", "Code", "Link", "Annot", "Ruby", "Warichu", "Figure", "Formula", "Form", "Artifact",
   "Strong", "Em", "Title", "FENote", "Aside", "Sub", "MathML"]

/-! ## The graph -/

/-- Structure content item. -/
inductive AccessibilityContentItem where
  | mcid (mcid : Int) (page : Option ObjectKey)
  | object (object page : Option ObjectKey)
deriving DecidableEq, Repr

/-- One traversed structure element. Its id is its place in the list of nodes. -/
structure AccessibilityNode where
  id : Nat
  key : Option ObjectKey
  role : String
  normalizedRole : String
  parent : Option Nat
  namespaceUrl : Option String
  page : Option ObjectKey
  pageOrdinal : Option Nat
  location : ObjectLocation
  children : List Nat
  contentItems : List AccessibilityContentItem
  hasAltText : Bool
  altTextBytes : Nat
  hasActualText : Bool
  actualTextBytes : Nat
  hasExpansionText : Bool
  expansionTextBytes : Nat
  hasLanguage : Bool
  language : Option String
  hasAttributes : Bool
  roleAttribute : Option String
  listNumbering : Option String
  noteType : Option String
  rowSpan : Nat
  colSpan : Nat
  headers : List String
  scope : Option String
  hasClass : Bool
  hasId : Bool
  idText : Option String
  idTreeResolved : Bool
  containsParent : Bool
  containsRef : Bool
  nonStandardRole : Bool
  circularRoleMapping : Bool
  classMapResolved : Bool

/-- Association between marked content and a structure element. -/
structure AccessibilityMarkedContent where
  node : Option Nat
  pageOrdinal : Nat
  stream : ObjectKey
  tag : String
  mcid : Option Int
  hasText : Bool
  hasImage : Bool
  location : ObjectLocation

/-- Association between a structure element and an object reference. -/
structure AccessibilityObjectReference where
  node : Nat
  object : Option ObjectKey
  pageOrdinal : Option Nat
  isLinkAnnotation : Bool

/-- Artifact semantic fact. -/
structure AccessibilityArtifact where
  node : Option Nat
  pageOrdinal : Option Nat
  tag : String
  location : ObjectLocation

/-- Bounded accessibility graph for one document. -/
structure AccessibilityGraph where
  tagged : Bool
  language : Option String
  hasStructureTreeRoot : Bool
  roleMapPresent : Bool
  classMapPresent : Bool
  idTreeEntries : Nat
  idTree : OrdMap String ObjectKey
  classMapEntries : Nat
  parentTreeEntries : Nat
  parentTreeNextKey : Option Int
  nodes : List AccessibilityNode
  markedContent : List AccessibilityMarkedContent
  objectReferences : List AccessibilityObjectReference
  artifacts : List AccessibilityArtifact
  warnings : List ValidationWarning
  truncated : Bool

/-- `warning`: a text over 512 bytes is replaced. -/
def accessibilityWarning (message : String) : ValidationWarning :=
  if (utf8 message).length > 512 then .general ⟨"accessibility warning exceeded cap"⟩
  else .general ⟨message⟩

/-- A warning is appended. -/
def AccessibilityGraph.warn (graph : AccessibilityGraph) (message : String) : AccessibilityGraph :=
  { graph with warnings := graph.warnings ++ [accessibilityWarning message] }

/-! ## Reading values -/

namespace CosObject

/-- `name_value`. -/
def nameValue : CosObject → Option String
  | .name value => some (utf8Lossy value.bytes)
  | _ => none

/-- `text_string`. -/
def textString : CosObject → Option String
  | .string text => some (utf8Lossy text.bytes)
  | _ => none

/-- `string_from_value`, `class_name_from_value`. -/
def stringFromValue (value : CosObject) : Option String :=
  value.nameValue.or value.textString

mutual

/-- The values an array holds, nested arrays taken apart; any other value stands for itself. -/
def flatten : CosObject → List CosObject
  | .array values => flattenItems values
  | value => [value]

def flattenItems : List CosObject → List CosObject
  | [] => []
  | value :: rest => flatten value ++ flattenItems rest

end

mutual

/-- The number of values nested in a value, itself included. -/
def weight : CosObject → Nat
  | .array values => weightItems values + 1
  | .dictionary entries => weightEntries entries + 1
  | .stream ⟨entries, _, _, _, _, _, _, _, _⟩ => weightEntries entries + 1
  | _ => 1

def weightItems : List CosObject → Nat
  | [] => 0
  | value :: rest => weight value + weightItems rest

def weightEntries : List (PdfName × CosObject) → Nat
  | [] => 0
  | (_, value) :: rest => weight value + weightEntries rest

end

end CosObject

namespace Dictionary

variable (dictionary : Dictionary)

/-- The name under a key, as a text. -/
def nameText (key : String) : Option String :=
  (dictionary.get key).bind CosObject.nameValue

/-- `text_string` of an entry. -/
def textString (key : String) : Option String :=
  (dictionary.get key).bind CosObject.textString

/-- `text_bytes` of an entry. -/
def textBytes (key : String) : Nat :=
  match dictionary.get key with
  | some (.string text) => text.bytes.length
  | _ => 0

/-- `is_mcr`. -/
def isMcr : Bool :=
  dictionary.nameText "Type" = some "MCR" || dictionary.has "MCID"

/-- `is_objr`. -/
def isObjr : Bool :=
  dictionary.nameText "Type" = some "OBJR" || dictionary.has "Obj"

/-- `is_link_annotation`. -/
def isLinkAnnotation : Bool :=
  dictionary.nameText "Subtype" = some "Link"

end Dictionary

/-- A dictionary with the key and offset of its indirect object, if it has one. -/
structure KeyedDictionary where
  key : Option ObjectKey
  offset : Option Nat
  dictionary : Dictionary

namespace ModelDocument

variable (doc : ModelDocument)

/-- The dictionary of a stored object. -/
def dictionaryAt (key : ObjectKey) : Option Dictionary :=
  (doc.objects.get? key).bind fun object => object.object.asDictionary

/-- The number of values stored in a document. -/
def weight : Nat :=
  (doc.objects.values.map fun object => object.object.weight).sum

/-- `dictionary_from_value`. -/
def dictionaryFromValue : CosObject → Option Dictionary
  | .reference key => doc.dictionaryAt key
  | .dictionary entries => some entries
  | .stream stream => some stream.dictionary
  | _ => none

/-- `dictionary_from_value` of an entry. -/
def dictionaryFromEntry (dictionary : Dictionary) (key : String) : Option Dictionary :=
  (dictionary.get key).bind doc.dictionaryFromValue

/-- `dictionary_ref_or_inline`. -/
def dictionaryRefOrInline : CosObject → Option KeyedDictionary
  | .reference key =>
    (doc.objects.get? key).bind fun object =>
      object.object.asDictionary.map fun dictionary => ⟨some key, some object.offset, dictionary⟩
  | .dictionary entries => some ⟨none, none, entries⟩
  | .stream stream => some ⟨none, none, stream.dictionary⟩
  | _ => none

/-- `structure_dictionary`. -/
def structureDictionary (value : CosObject) : Option KeyedDictionary :=
  (doc.dictionaryRefOrInline value).filter fun found =>
    (found.dictionary.nameText "S").isSome || found.dictionary.isMcr || found.dictionary.isObjr

/-- `catalog_dictionary`. -/
def catalogDictionary : Option Dictionary :=
  doc.catalog.bind doc.dictionaryAt

/-- `catalog_marked`. -/
def catalogMarked (catalog : Dictionary) : Bool :=
  match (doc.dictionaryFromEntry catalog "MarkInfo").bind fun info => info.get "Marked" with
  | some (.boolean marked) => marked
  | _ => false

/-- `attribute_values`. -/
def attributeValues (dictionary : Dictionary) : List Dictionary :=
  ((dictionary.get "A").elim [] CosObject.flatten).filterMap doc.dictionaryFromValue

/-- `attribute_text`. -/
def attributeText (dictionary : Dictionary) (name : String) : Option String :=
  (doc.attributeValues dictionary).findSome? fun found =>
    (found.get name).bind CosObject.stringFromValue

/-- `attribute_texts`. -/
def attributeTexts (dictionary : Dictionary) (name : String) : List String :=
  (doc.attributeValues dictionary).flatMap fun found =>
    ((found.get name).elim [] CosObject.flatten).filterMap CosObject.stringFromValue

/-- `attribute_positive_u32`. -/
def attributePositive (dictionary : Dictionary) (name : String) : Option Nat :=
  (doc.attributeValues dictionary).findSome? fun found =>
    ((integerFromDictionary found name).bind u64OfInt).filter fun value =>
      value < u32Size && 0 < value

/-- `namespace_url`. -/
def namespaceUrl (dictionary : Dictionary) : Option String :=
  match dictionary.get "NS" with
  | some (.name name) => (CosObject.name name).stringFromValue
  | some (.string text) => (CosObject.string text).stringFromValue
  | some value =>
    ((doc.dictionaryFromValue value).bind fun found => found.get "NS").bind
      CosObject.stringFromValue
  | none => none

end ModelDocument

/-- A sub-dictionary that is stored directly. -/
def Dictionary.directEntries (dictionary : Dictionary) (key : String) : Option Dictionary :=
  match dictionary.get key with
  | some (.dictionary entries) => some entries
  | _ => none

/-- The items of an array that is stored directly. -/
def Dictionary.directItems (dictionary : Dictionary) (key : String) : List CosObject :=
  match dictionary.get key with
  | some (.array values) => values
  | _ => []

/-- `class_references_resolve`. -/
def classReferencesResolve (structTree dictionary : Dictionary) : Bool :=
  match dictionary.get "C", structTree.directEntries "ClassMap" with
  | some (.array values), some classMap => !values.isEmpty && values.all (resolves classMap)
  | some value, some classMap => resolves classMap value
  | _, _ => false
where
  /-- A class name of the class map. -/
  resolves (classMap : Dictionary) (value : CosObject) : Bool :=
    (value.stringFromValue.bind fun name => classMap.get name).isSome

/-! ## Roles -/

/-- `role_map`; the last of several entries for one text is the first of the list. -/
def roleMap (structTree : Dictionary) : List (String × String) :=
  (((structTree.directEntries "RoleMap").getD []).filterMap fun entry =>
    entry.2.nameValue.map fun value => (utf8Lossy entry.1.bytes, value)).reverse

/-- The loop of `normalize_role`: the role reached and whether the mapping is circular. -/
def normalizeRoleSteps (map : List (String × String)) : Nat → List String → String → String × Bool
  | 0, _, current => (current, true)
  | steps + 1, seen, current =>
    if current ∈ seen then (current, true)
    else
      match map.lookup current with
      | none => (current, false)
      | some next => normalizeRoleSteps map steps (current :: seen) next

/-- `normalize_role`. -/
def normalizeRole (role : String) (map : List (String × String)) : String × Bool :=
  normalizeRoleSteps map maxRoleMapSteps [] role

/-! ## Pages -/

/-- A page whose content is associated with the structure tree. -/
structure PageContent where
  key : ObjectKey
  ordinal : Nat
  dictionary : Dictionary

/-- The state of the loop of `collect_pages`. -/
structure PageSearch where
  stack : List ObjectKey
  visited : List ObjectKey
  pages : List PageContent

/-- One node of the page tree. -/
def collectPagesStep (doc : ModelDocument) (limits : ResourceLimits) (s : PageSearch) :
    Step PageSearch (Except PdfvError (List PageContent)) :=
  match s.stack with
  | [] => .done (.ok s.pages)
  | key :: stack =>
    if key ∈ s.visited then .next { s with stack }
    else if s.visited.length + 1 > limits.maxObjects then .done (.error (.limit "max_objects"))
    else
      let visited := key :: s.visited
      match doc.dictionaryAt key with
      | none => .next { s with stack, visited }
      | some dictionary =>
        if dictionary.nameText "Type" = some "Page" then
          .next ⟨stack, visited, s.pages ++ [⟨key, s.pages.length, dictionary⟩]⟩
        else
          .next ⟨(dictionary.directItems "Kids").filterMap CosObject.asReference ++ stack, visited,
            s.pages⟩

/-- `collect_pages`; every stored value is met at most once. -/
def collectPages (doc : ModelDocument) (limits : ResourceLimits) :
    Except PdfvError (List PageContent) :=
  match doc.catalogDictionary.bind fun catalog => (catalog.get "Pages").bind CosObject.asReference with
  | none => .ok []
  | some root =>
    runLoop (collectPagesStep doc limits) (fun s => .ok s.pages) (doc.weight + 2) ⟨[root], [], []⟩

/-! ## The traversal -/

/-- A value that waits to be traversed. -/
structure TraversalItem where
  value : CosObject
  parent : Option Nat
  inheritedPage : Option ObjectKey
  depth : Nat

/-- What the kids of one element add: its content items, the references of the graph and the pending
items, the last pushed first. -/
structure KidCollector where
  contentItems : List AccessibilityContentItem
  containsRef : Bool
  references : List AccessibilityObjectReference
  stack : List TraversalItem

section Kids

variable (doc : ModelDocument) (pageOrdinals : OrdMap ObjectKey Nat) (nodeId : Nat)
  (page : Option ObjectKey) (depth : Nat)

/-- `collect_kid_value`. -/
def collectKidValue (c : KidCollector) (value : CosObject) : Except PdfvError KidCollector :=
  match value with
  | .integer mcid => .ok { c with contentItems := c.contentItems ++ [.mcid mcid page] }
  | value =>
    match doc.structureDictionary value with
    | none => .ok c
    | some ⟨_, _, dictionary⟩ =>
      let itemPage := ((dictionary.get "Pg").bind CosObject.asReference).or page
      if dictionary.isMcr then
        match integerFromDictionary dictionary "MCID" with
        | some mcid => .ok { c with contentItems := c.contentItems ++ [.mcid mcid itemPage] }
        | none => .ok c
      else if dictionary.isObjr then
        let object := (dictionary.get "Obj").bind CosObject.asReference
        let reference : AccessibilityObjectReference :=
          ⟨nodeId, object, itemPage.bind pageOrdinals.get?,
            (object.bind doc.dictionaryAt).elim false Dictionary.isLinkAnnotation⟩
        .ok ⟨c.contentItems ++ [.object object itemPage], true, c.references ++ [reference], c.stack⟩
      else do
        failIf (depth + 1 ≥ u32Size) (PdfvError.limit "max_structure_depth")
        return { c with stack := ⟨value, some nodeId, itemPage, depth + 1⟩ :: c.stack }

/-- `collect_kids`: an array is read from its end. -/
def collectKids (c : KidCollector) : Option CosObject → Except PdfvError KidCollector
  | none => .ok c
  | some (.array values) =>
    values.reverse.foldlM (collectKidValue doc pageOrdinals nodeId page depth) c
  | some value => collectKidValue doc pageOrdinals nodeId page depth c value

end Kids

section Traversal

variable (doc : ModelDocument) (limits : ResourceLimits) (structTree : Dictionary)
  (map : List (String × String)) (pageOrdinals : OrdMap ObjectKey Nat)

/-- The state of the loop of `traverse_structure_tree`. -/
structure TraversalState where
  stack : List TraversalItem
  visited : List ObjectKey
  graph : AccessibilityGraph

/-- The node of a structure element, before its kids are read. -/
def structureNode (graph : AccessibilityGraph) (item : TraversalItem) (found : KeyedDictionary)
    (role : String) : AccessibilityNode :=
  let dictionary := found.dictionary
  let id := graph.nodes.length
  let normalized := normalizeRole role map
  let page := ((dictionary.get "Pg").bind CosObject.asReference).or item.inheritedPage
  { id, key := found.key, role, normalizedRole := normalized.1, parent := item.parent,
    namespaceUrl := doc.namespaceUrl dictionary, page, pageOrdinal := page.bind pageOrdinals.get?,
    location := ⟨found.key, found.offset, some ⟨s!"root/structureElement[{id}]"⟩⟩,
    children := [], contentItems := [],
    hasAltText := dictionary.has "Alt", altTextBytes := dictionary.textBytes "Alt",
    hasActualText := dictionary.has "ActualText",
    actualTextBytes := dictionary.textBytes "ActualText",
    hasExpansionText := dictionary.has "E", expansionTextBytes := dictionary.textBytes "E",
    hasLanguage := dictionary.has "Lang", language := dictionary.textString "Lang",
    hasAttributes := dictionary.has "A", roleAttribute := doc.attributeText dictionary "Role",
    listNumbering := doc.attributeText dictionary "ListNumbering",
    noteType := doc.attributeText dictionary "NoteType",
    rowSpan := (doc.attributePositive dictionary "RowSpan").getD 1,
    colSpan := (doc.attributePositive dictionary "ColSpan").getD 1,
    headers := doc.attributeTexts dictionary "Headers",
    scope := doc.attributeText dictionary "Scope",
    hasClass := dictionary.has "C", hasId := dictionary.has "ID",
    idText := dictionary.textString "ID",
    idTreeResolved := ((dictionary.textString "ID").bind graph.idTree.get?).elim false fun mapped =>
      some mapped = found.key,
    containsParent := dictionary.has "P", containsRef := false,
    nonStandardRole := !standardRoles.contains normalized.1,
    circularRoleMapping := normalized.2,
    classMapResolved := classReferencesResolve structTree dictionary }

/-- A child is added to its parent. -/
def AccessibilityGraph.addChild (graph : AccessibilityGraph) (parent : Option Nat) (child : Nat) :
    AccessibilityGraph :=
  match parent with
  | none => graph
  | some parent =>
    { graph with
      nodes := graph.nodes.modify parent fun node =>
        { node with children := node.children ++ [child] } }

/-- A structure element with a role: its node is added, then its kids are collected. -/
def addStructureElement (s : TraversalState) (item : TraversalItem) (found : KeyedDictionary)
    (role : String) : Except PdfvError TraversalState := do
  let graph := s.graph
  let node := structureNode doc structTree map pageOrdinals graph item found role
  let graph := graph.addChild item.parent node.id
  let kids ← collectKids doc pageOrdinals node.id node.page item.depth
    ⟨[], false, graph.objectReferences, s.stack⟩ (found.dictionary.get "K")
  let node := { node with contentItems := kids.contentItems, containsRef := kids.containsRef }
  return { s with
    stack := kids.stack,
    graph := { graph with nodes := graph.nodes ++ [node], objectReferences := kids.references } }

/-- Continues the traversal with the state a computation yields, or stops with its error. -/
def continueTraversal (next : Except PdfvError TraversalState) :
    Step TraversalState (Except PdfvError AccessibilityGraph) :=
  match next with
  | .ok s => .next s
  | .error e => .done (.error e)

/-- One pending value that is not an array. -/
def traverseElement (s : TraversalState) (item : TraversalItem) :
    Step TraversalState (Except PdfvError AccessibilityGraph) :=
  match doc.structureDictionary item.value with
  | none => .next s
  | some found =>
    if found.key.elim false fun key => s.visited.contains key then
      .next { s with graph := s.graph.warn "structure tree cycle detected" }
    else
      let s := { s with visited := found.key.toList ++ s.visited }
      match found.dictionary.nameText "S" with
      | none => .next s
      | some role =>
        if s.graph.nodes.length ≥ limits.maxStructureNodes then
          .next { s with graph := { s.graph with truncated := true }.warn "structure node cap reached" }
        else continueTraversal (addStructureElement doc structTree map pageOrdinals s item found role)

/-- One pending value. -/
def traverseStep (s : TraversalState) : Step TraversalState (Except PdfvError AccessibilityGraph) :=
  match s.stack with
  | [] => .done (.ok s.graph)
  | item :: stack =>
    let s := { s with stack }
    if s.graph.truncated then .done (.ok s.graph)
    else if item.depth > limits.maxStructureDepth then
      .next { s with
        graph := { s.graph with truncated := true }.warn "structure tree depth cap reached" }
    else
      match item.value with
      | .array values =>
        .next { s with stack := (values.map fun value => { item with value }) ++ stack }
      | _ => traverseElement doc limits structTree map pageOrdinals s item

/-- `traverse_structure_tree`; every stored value is met at most once, and so is every value of the
root. -/
def traverseStructureTree (root : CosObject) (graph : AccessibilityGraph) :
    Except PdfvError AccessibilityGraph :=
  runLoop (traverseStep doc limits structTree map pageOrdinals) (fun s => .ok s.graph)
    (doc.weight + root.weight + 1) ⟨[⟨root, none, none, 0⟩], [], graph⟩

end Traversal

end Pdfv
