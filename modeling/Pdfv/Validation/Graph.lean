import Pdfv.Validation.Objects
import Pdfv.Accessibility.Content
/-!
# The model graph

`ModelGraph`: which families a run materialises, and the objects each model object links to. Every
list of links is built within a budget; a link too many is the limit error of the traversal.
-/

namespace Pdfv

open Loop Fallible

/-! ## Materialised families -/

/-- The targets of the links of one property path. -/
def pathLinkTargets : ObjectTypeName → List PropertyName → List Family
  | .family family, link :: rest =>
    match linkTarget family link with
    | some target => target :: pathLinkTargets (.family target) rest
    | none => []
  | _, _ => []

mutual

/-- `collect_rule_link_targets`. -/
def ruleLinkTargets (objectType : ObjectTypeName) : RuleExpr → List Family
  | .property path => pathLinkTargets objectType path.dropLast
  | .unary _ expr => ruleLinkTargets objectType expr
  | .binary _ left right => ruleLinkTargets objectType left ++ ruleLinkTargets objectType right
  | .conditional condition whenTrue whenFalse =>
    ruleLinkTargets objectType condition ++ ruleLinkTargets objectType whenTrue
      ++ ruleLinkTargets objectType whenFalse
  | .call _ args => argumentLinkTargets objectType args
  | .bool _ | .number _ | .string _ | .null | .unsupported _ _ => []

/-- `collect_rule_link_targets` on the arguments of a call. -/
def argumentLinkTargets (objectType : ObjectTypeName) : List RuleExpr → List Family
  | [] => []
  | arg :: rest => ruleLinkTargets objectType arg ++ argumentLinkTargets objectType rest

end

/-- Lazily expanded document graph used by validation traversal. -/
structure ModelGraph where
  crates : Crates
  document : ModelDocument
  limits : ResourceLimits
  materializedFamilies : List ObjectTypeName
  activeFlavour : Option ValidationFlavour

/-- The families with wrappers of their own, which are not generic roots. -/
def wrappedFamilies : List Family :=
  [.document, .catalog, .metadata, .page, .font, Family.annotation, .outputIntent, .contentStream,
   .operator, .markedContent, .inlineImage, .resourceUse, .accessibilityDocument,
   .structureElement, .textChunk, .imageChunk, Family.accessibilityAnnotation, .artifact, .table,
   .list, .heading, .link, .stream, .object]

/-- The families that need the accessibility graph. -/
def accessibilityFamilies : List Family :=
  [.accessibilityDocument, .structureTreeRoot, .structureElement, .textChunk, .imageChunk,
   Family.accessibilityAnnotation, .artifact, .table, .list, .heading, .link]

/-- Whether a type is one of the given families. -/
def ObjectTypeName.isOneOf (families : List Family) : ObjectTypeName → Bool
  | .family found => families.contains found
  | .unregistered _ _ => false

namespace ModelGraph

/-- `ModelGraph::for_rules`. -/
def forRules (crates : Crates) (document : ModelDocument) (limits : ResourceLimits)
    (rules : List Rule) (activeFlavour : ValidationFlavour) : ModelGraph where
  crates := crates
  document := document
  limits := limits
  materializedFamilies :=
    (rules.filter fun rule => !rule.test.isUnsupported).flatMap fun rule =>
      rule.objectType :: (ruleLinkTargets rule.objectType rule.test).map ObjectTypeName.family
  activeFlavour := some activeFlavour

/-- `ModelGraph::with_all_families`. -/
def withAllFamilies (crates : Crates) (document : ModelDocument) (limits : ResourceLimits) :
    ModelGraph where
  crates := crates
  document := document
  limits := limits
  materializedFamilies := Family.all.map ObjectTypeName.family
  activeFlavour := none

variable (graph : ModelGraph)

/-- `ModelGraph::materializes`. -/
def materializes (family : Family) : Bool :=
  graph.materializedFamilies.any fun materialized => materialized = .family family

/-- `ModelGraph::materializes_generic_roots`. -/
def materializesGenericRoots : Bool :=
  graph.materializedFamilies.any fun family => !family.isOneOf wrappedFamilies

/-- `ModelGraph::materializes_accessibility`. -/
def materializesAccessibility : Bool :=
  graph.materializedFamilies.any fun family => family.isOneOf accessibilityFamilies

end ModelGraph

/-! ## Bounded lists of links -/

/-- `push_linked` and `push_generic_model`, one item after the other: an item is refused once the
list holds `budget` items. -/
def pushLinked {α : Type} (budget : Nat) (objects items : List α) : Except PdfvError (List α) :=
  if items.isEmpty || objects.length + items.length ≤ budget then .ok (objects ++ items)
  else .error (.limit "max_objects")

/-! ## Generic models -/

namespace ModelDocument

variable (doc : ModelDocument)

/-- `dictionary_backed_model_from_value`. -/
def dictionaryBackedModel (value : Option (Located CosObject)) (family : Family) (ordinal : Nat)
    (context : String) : Option GenericModel :=
  (value.bind doc.resolveNamedDictionary).map fun found =>
    ⟨family, found.key, found.offset, found.dictionary, none, context, ordinal⟩

/-- The empty dictionary of a model that is an array. -/
def arrayModel (place : Place) (values : List CosObject) (family : Family) (ordinal : Nat)
    (context : String) : GenericModel :=
  ⟨family, none, none, ⟨place, []⟩, some (.ofCos (.array values)), context, ordinal⟩

/-- `model_from_value`. -/
def modelFromValue (value : Option (Located CosObject)) (family : Family) (ordinal : Nat)
    (context : String) : Option GenericModel :=
  match value with
  | some ⟨place, .array values⟩ =>
    if family = .destination then some (arrayModel place values family ordinal context) else none
  | value => doc.dictionaryBackedModel value family ordinal context

/-- The models of a list of values; a value without a model takes no ordinal. -/
def modelsFromItems (family : Family) (contextPrefix : String)
    (items : List (Located CosObject)) : List GenericModel :=
  items.foldl (fun models item =>
    models ++ (doc.modelFromValue (some item) family models.length
      s!"{contextPrefix}/{family.text}[{models.length}]").toList) []

/-- The models `generic_models_from_dictionary_value` pushes. -/
def modelsFromEntry (value : Option (Located CosObject)) (family : Family)
    (contextPrefix : String) : List GenericModel :=
  match value with
  | some ⟨place, .array values⟩ =>
    doc.modelsFromItems family contextPrefix (Located.items ⟨place, values⟩)
  | value =>
    (doc.modelFromValue value family 0 s!"{contextPrefix}/{family.text}[0]").toList

/-- `generic_models_from_dictionary_value`. -/
def genericModelsFromEntry (value : Option (Located CosObject)) (family : Family)
    (contextPrefix : String) (budget : Nat) : Except PdfvError (List GenericModel) :=
  pushLinked budget [] (doc.modelsFromEntry value family contextPrefix)

/-- The action models of one entry: `collect_action_models_from_value` and
`collect_additional_action_models_from_value`. -/
def actionModels (value : Option (Located CosObject)) (key : String) (ownerOrdinal : Nat)
    (context : String) (actions : List GenericModel) : List GenericModel :=
  if key = "AA" then
    ((doc.resolveDictionaryValue value).elim [] Located.entries).foldl (fun actions entry =>
      actions ++ (doc.dictionaryBackedModel (some entry.2) .action actions.length
        s!"{context}/action[{ownerOrdinal}:{utf8Lossy entry.1.bytes}]").toList) actions
  else actions ++ (doc.dictionaryBackedModel value .action actions.length context).toList

/-- `action_models_from_dictionary_entries`. -/
def actionModelsFromEntries (dictionary : Located Dictionary) (keys : List String)
    (ownerOrdinal : Nat) (contextPrefix : String) (budget : Nat) :
    Except PdfvError (List GenericModel) :=
  pushLinked budget [] (keys.foldl (fun actions key =>
    doc.actionModels (dictionary.get key) key ownerOrdinal s!"{contextPrefix}[{ownerOrdinal}]/{key}"
      actions) [])

end ModelDocument

/-! ## Name trees -/

/-- A node of a name tree that waits, with its context path. -/
structure NameTreeNode where
  key : Option ObjectKey
  dictionary : Located Dictionary
  context : String

/-- The state of the loop of `collect_name_tree_entries`. -/
structure NameTreeSearch where
  stack : List NameTreeNode
  visited : List ObjectKey
  scanned : Nat
  objects : List GenericModel

section NameTree

variable (doc : ModelDocument) (family : Family) (budget : Nat)

/-- `push_name_tree_node`. -/
def pushNameTreeNode (budget : Nat) (stack : List NameTreeNode)
    (value : Option (Located CosObject)) (context : String) :
    Except PdfvError (List NameTreeNode) := do
  failIf (stack.length ≥ budget) (PdfvError.limit "max_objects")
  match value.bind doc.resolveNamedDictionary with
  | some found => return ⟨found.key, found.dictionary, context⟩ :: stack
  | none => return stack

/-- The values of a `/Names` array: its odd items. -/
def nameTreeValues : List (Located CosObject) → List (Located CosObject)
  | _ :: value :: rest => value :: nameTreeValues rest
  | _ => []

/-- The models of the values of one node. -/
def nameTreeModels (context : String) (objects : List GenericModel)
    (values : List (Located CosObject)) : List GenericModel :=
  values.foldl (fun objects value =>
    objects ++ (doc.modelFromValue (some value) family objects.length
      s!"{context}/{family.text}[{objects.length}]").toList) objects

/-- One node that was not scanned before. -/
def scanNameTreeNode (s : NameTreeSearch) (node : NameTreeNode) (stack : List NameTreeNode) :
    Except PdfvError NameTreeSearch := do
  let scanned := s.scanned + 1
  failIf (scanned > budget) (PdfvError.limit "max_objects")
  let all := nameTreeModels doc family node.context s.objects
    (nameTreeValues (arrayValues (node.dictionary.get "Names")))
  let objects ← pushLinked budget s.objects (all.drop s.objects.length)
  let stack ← (arrayValues (node.dictionary.get "Kids")).zipIdx.foldlM
    (fun stack kid => pushNameTreeNode doc (budget - objects.length) stack (some kid.1)
      s!"{node.context}/kid[{kid.2}]") stack
  return ⟨stack, node.key.toList ++ s.visited, scanned, objects⟩

/-- One pending node. -/
def nameTreeStep (s : NameTreeSearch) :
    Step NameTreeSearch (Except PdfvError (List GenericModel)) :=
  match s.stack with
  | [] => .done (.ok s.objects)
  | node :: stack =>
    if node.key.elim false fun key => s.visited.contains key then .next { s with stack }
    else
      match scanNameTreeNode doc family budget s node stack with
      | .ok s => .next s
      | .error e => .done (.error e)

/-- `collect_name_tree_entries`; every stored value is met at most once, and so is every value of the
root. -/
def collectNameTreeEntries (root : Option (Located CosObject)) (context : String)
    (objects : List GenericModel) : Except PdfvError (List GenericModel) := do
  let stack ← pushNameTreeNode doc budget [] root context
  runLoop (nameTreeStep doc family budget) (fun s => .ok s.objects)
    (doc.weight + root.elim 0 (fun root => root.value.weight) + 2) ⟨stack, [], 0, objects⟩

end NameTree

/-! ## Objects of the catalog and of a page -/

namespace ModelDocument

variable (doc : ModelDocument)

/-- `CatalogModel::new`. -/
def catalogModel : Option CatalogModel :=
  doc.catalog.bind fun key => (doc.objects.get? key).bind fun object =>
    object.object.asDictionary.map fun dictionary =>
      ⟨key, object.offset, (dictionary.get "Metadata").bind CosObject.asReference,
        (dictionary.get "Pages").bind CosObject.asReference⟩

/-- `MetadataModel::new`. -/
def metadataModel (catalog : CatalogModel) : Option MetadataModel :=
  catalog.metadata.bind fun key => (doc.objects.get? key).bind fun object =>
    match object.object with
    | .stream _ => some ⟨key, object.offset⟩
    | _ => none

/-- `OutputIntentModel::from_catalog`. -/
def outputIntentModels (catalog : CatalogModel) (budget : Nat) :
    Except PdfvError (List OutputIntentModel) :=
  let values := arrayValues ((doc.pageDictionary catalog.key).bind fun dictionary =>
    dictionary.get "OutputIntents")
  pushLinked budget [] (values.zipIdx.filterMap fun item =>
    (doc.resolveNamedDictionary item.1).map fun found =>
      ⟨item.2, found.key, found.offset, found.dictionary⟩)

/-- The state of the loop of `PageModel::from_catalog`. -/
structure PageModelSearch where
  stack : List ObjectKey
  visited : List ObjectKey
  pages : List PageModel

/-- The check at the end of one node of the page tree. -/
def checkedPageNode (maxObjects : Nat) (s : PageModelSearch) :
    Step PageModelSearch (Except PdfvError (List PageModel)) :=
  if s.visited.length > maxObjects then .done (.error (.limit "max_objects")) else .next s

/-- One node of the page tree. A missing object is dropped before the visited objects are counted. -/
def pageModelStep (maxObjects budget : Nat) (s : PageModelSearch) :
    Step PageModelSearch (Except PdfvError (List PageModel)) :=
  match s.stack with
  | [] => .done (.ok s.pages)
  | key :: stack =>
    if key ∈ s.visited then .next { s with stack }
    else
      let visited := key :: s.visited
      match doc.objects.get? key with
      | none => .next { s with stack, visited }
      | some object =>
        match object.object.asDictionary with
        | none => .next { s with stack, visited }
        | some dictionary =>
          if entryIsName dictionary "Type" "Page" then
            if s.pages.length ≥ budget then .done (.error (.limit "max_objects"))
            else
              checkedPageNode maxObjects ⟨stack, visited,
                s.pages ++ [⟨key, object.offset, s.pages.length, ⟨.indirect key, dictionary⟩⟩]⟩
          else
            checkedPageNode maxObjects
              ⟨(dictionary.directItems "Kids").filterMap CosObject.asReference ++ stack, visited,
                s.pages⟩

/-- `PageModel::from_catalog`; every stored value is met at most once. -/
def pageModels (limits : ResourceLimits) (catalog : CatalogModel) (budget : Nat) :
    Except PdfvError (List PageModel) :=
  match catalog.pages with
  | none => .ok []
  | some root =>
    runLoop (doc.pageModelStep limits.maxObjects budget) (fun s => .ok s.pages) (doc.weight + 2)
      ⟨[root], [], []⟩

/-- The content stream stored under a key of a page's `/Contents`. -/
def contentStreamModel (page : PageModel) (key : ObjectKey) (ordinal : Nat) :
    Option ContentStreamModel :=
  (doc.objects.get? key).bind fun object =>
    match object.object with
    | .stream stream =>
      some ⟨some page.key, none, s!"root/page[{page.ordinal}]", page.ordinal, ordinal, key,
        object.offset, stream⟩
    | _ => none

/-- The content streams `push_content_streams_from_value` pushes. -/
def contentStreamModels (page : PageModel) : Option (Located CosObject) → List ContentStreamModel
  | some ⟨_, .reference key⟩ => (doc.contentStreamModel page key 0).toList
  | value => (objectRefsFromArray value).zipIdx.filterMap fun entry =>
      doc.contentStreamModel page entry.1 entry.2

/-- `ContentStreamModel::from_page`. -/
def pageContentStreams (page : PageModel) (budget : Nat) :
    Except PdfvError (List ContentStreamModel) :=
  pushLinked budget [] (doc.contentStreamModels page
    ((doc.pageDictionary page.key).bind fun dictionary => dictionary.get "Contents"))

/-- `AnnotationModel::from_page`. -/
def annotationModels (page : PageModel) (budget : Nat) : Except PdfvError (List AnnotationModel) :=
  let values := arrayValues ((doc.pageDictionary page.key).bind fun dictionary =>
    dictionary.get "Annots")
  pushLinked budget [] (values.zipIdx.filterMap fun item =>
    (doc.resolveNamedDictionary item.1).map fun found =>
      ⟨page.ordinal, item.2, found.key, found.offset, found.dictionary⟩)

/-- The first entry of each name. -/
def firstOfName : List PdfName → List (PdfName × Located CosObject) →
    List (PdfName × Located CosObject)
  | _, [] => []
  | seen, entry :: rest =>
    if entry.1 ∈ seen then firstOfName seen rest
    else entry :: firstOfName (entry.1 :: seen) rest

/-- `FontModel::from_page`: the innermost font of each name. -/
def fontModels (limits : ResourceLimits) (page : PageModel) (budget : Nat) :
    Except PdfvError (List FontModel) := do
  let effective ← effectiveResourcesForPageKey doc limits page.key
  let entries := effective.dictionaries.reverse.flatMap fun resources =>
    (directCollection resources "Font").elim [] Located.entries
  pushLinked budget [] ((firstOfName [] entries).filterMap fun entry =>
    (doc.resolveNamedDictionary entry.2).map fun found =>
      ⟨page.ordinal, found.key, found.offset, entry.1, found.dictionary⟩)

/-! ### Generic roots -/

/-- The rows of `push_catalog_generic_models`. -/
def catalogGenericRows : List (Family × String × String) :=
  [(.acroForm, "AcroForm", "root/catalog[0]/acroForm[0]"),
   (.structureTreeRoot, "StructTreeRoot", "root/catalog[0]/structureTreeRoot[0]"),
   (.optionalContentProperties, "OCProperties", "root/catalog[0]/optionalContentProperties[0]"),
   (.names, "Names", "root/catalog[0]/names[0]"),
   (.outline, "Outlines", "root/catalog[0]/outline[0]"),
   (.permissions, "Perms", "root/catalog[0]/permissions[0]")]

/-- The models `push_catalog_generic_models` pushes. -/
def catalogGenericModels (catalog : CatalogModel) : List GenericModel :=
  match doc.pageDictionary catalog.key with
  | none => []
  | some dictionary =>
    catalogGenericRows.foldl (fun models row =>
      models ++ (doc.dictionaryBackedModel (dictionary.get row.2.1) row.1 models.length
        row.2.2).toList) []
    ++ (arrayValues (dictionary.get "Dests")).zipIdx.filterMap fun item =>
      doc.dictionaryBackedModel (some item.1) .destination item.2
        s!"root/catalog[0]/destination[{item.2}]"

/-- The model of one resource in a collection. -/
def resourceModel (family : Family) (ordinal : Nat) (context : String)
    (value : Located CosObject) : Option GenericModel :=
  if family = .colorSpace then
    (normalizeColorSpaceResource doc value).map fun found =>
      ⟨family, found.key, found.offset, found.dictionary, none, context, ordinal⟩
  else
    (doc.resolveNamedDictionary value).map fun found =>
      let objectFamily :=
        if family = .xObject then (classifyXObject found.dictionary.value).getD family else family
      ⟨objectFamily, found.key, found.offset, found.dictionary, none, context, ordinal⟩

/-- The models `push_resource_collection` pushes. -/
def resourceCollectionModels (pageOrdinal : Nat) (resources : Located Dictionary)
    (row : String × Family) : List GenericModel :=
  (((directCollection resources row.1).elim [] Located.entries).zipIdx).filterMap fun entry =>
    doc.resourceModel row.2 entry.2
      s!"root/page[{pageOrdinal}]/{row.2.text}[{utf8Lossy entry.1.1.bytes}]" entry.1.2

/-- The resource collections of a page. -/
def resourceRows : List (String × Family) :=
  [("XObject", .xObject), ("ColorSpace", .colorSpace), ("ExtGState", .extGState),
   ("Pattern", .pattern), ("Shading", .shading)]

/-- The models `push_page_generic_models` pushes for one page. -/
def pageGenericModels (pageOrdinal : Nat) (effective : EffectiveResources) : List GenericModel :=
  effective.dictionaries.zipIdx.flatMap fun entry =>
    (⟨.resource, none, none, entry.1, none, s!"root/page[{pageOrdinal}]/resources[{entry.2}]",
      entry.2⟩ : GenericModel)
      :: resourceRows.flatMap (doc.resourceCollectionModels pageOrdinal entry.1)

/-- The families of indirect objects that are no generic roots. -/
def skippedIndirectFamilies : List Family :=
  [.catalog, .page, .font, Family.annotation, .outputIntent, .metadata]

/-- The models `push_indirect_generic_models` pushes after `count` models. -/
def indirectGenericModels (count : Nat) : List GenericModel :=
  let found := doc.objects.values.filterMap fun object =>
    object.object.asDictionary.bind fun dictionary =>
      ((classifyDictionary dictionary).filter fun family =>
        !skippedIndirectFamilies.contains family).map fun family => (object, dictionary, family)
  found.mapIdx fun index entry =>
    ⟨entry.2.2, some entry.1.key, some entry.1.offset, ⟨.indirect entry.1.key, entry.2.1⟩, none,
      s!"root/{entry.2.2.text}[{entry.1.key.number}]", count + index⟩

/-- The models of the catalog and of the pages. -/
def rootGenericModels (limits : ResourceLimits) (budget : Nat) :
    Except PdfvError (List GenericModel) :=
  match doc.catalogModel with
  | none => .ok []
  | some catalog => do
    let models ← pushLinked budget [] (doc.catalogGenericModels catalog)
    let pages ← doc.pageModels limits catalog budget
    pages.foldlM (fun models page => do
      let effective ← effectiveResourcesForPageKey doc limits page.key
      pushLinked budget models (doc.pageGenericModels page.ordinal effective)) models

/-- `ModelGraph::generic_models`. -/
def genericModels (limits : ResourceLimits) (budget : Nat) :
    Except PdfvError (List GenericModel) := do
  let models ← doc.rootGenericModels limits budget
  pushLinked budget models (doc.indirectGenericModels models.length)

end ModelDocument

/-! ## Linked objects -/

/-- `semantic_node_family`, as the object a node of that role is. -/
def semanticNodeKind (node : AccessibilityNode) : Option AccessibilityModelKind :=
  if ["Table", "TR", "TH", "TD", "THead", "TBody", "TFoot"].contains node.normalizedRole then
    some (.table node.id)
  else if ["L", "LI", "Lbl", "LBody"].contains node.normalizedRole then some (.list node.id)
  else if ["H", "H1", "H2", "H3", "H4", "H5", "H6"].contains node.normalizedRole then
    some (.heading node.id)
  else if node.normalizedRole = "Link" then some (.link node.id)
  else none

/-- The objects `push_accessibility_semantics` pushes. -/
def accessibilitySemantics (graph : AccessibilityGraph) : List AccessibilityModelKind :=
  (graph.markedContent.zipIdx.flatMap fun entry =>
    (if entry.1.hasText then [.textChunk entry.2] else [])
      ++ (if entry.1.hasImage then [.imageChunk entry.2] else []))
  ++ (List.range graph.objectReferences.length).map AccessibilityModelKind.annotation
  ++ (List.range graph.artifacts.length).map AccessibilityModelKind.artifact
  ++ graph.nodes.filterMap semanticNodeKind

/-- `AccessibilityModel::linked_objects`. -/
def accessibilityLinkedObjects (graph : AccessibilityGraph) (kind : AccessibilityModelKind)
    (budget : Nat) : Except PdfvError (List ModelObjectRef) :=
  match kind with
  | .document =>
    pushLinked budget [] (((graph.nodes.map fun node => AccessibilityModelKind.structureElement node.id)
      ++ accessibilitySemantics graph).map (ModelObjectRef.accessibility graph))
  | .structureElement id =>
    match graph.nodes[id]? with
    | none => .error (.limit "accessibility_node")
    | some node =>
      pushLinked budget [] (node.children.map fun child =>
        ModelObjectRef.accessibility graph (.structureElement child))
  | _ => .ok []

/-- `ContentStreamModel::summary`. -/
def ContentStreamModel.summary (crates : Crates) (limits : ResourceLimits)
    (model : ContentStreamModel) : Except PdfvError ContentStreamSummary :=
  (do
    let decoded ← model.stream.decodedBytes crates limits
    summarizeContentStream model.key s!"{model.contextPrefix}/contentStream[{model.ordinal}]" decoded
      limits : Except ParseError ContentStreamSummary).mapError PdfvError.parse

/-- `ContentStreamModel::effective_resources`. -/
def ContentStreamModel.effectiveResources (doc : ModelDocument) (limits : ResourceLimits)
    (model : ContentStreamModel) : Except PdfvError EffectiveResources :=
  match model.resourceContext, model.pageKey with
  | some resources, _ => .ok ⟨[resources], false⟩
  | none, none => .ok ⟨[], false⟩
  | none, some pageKey => effectiveResourcesForPageKey doc limits pageKey

/-- The place of the fact with a given ordinal in a content stream. -/
def ContentStreamModel.place (model : ContentStreamModel) (ordinal : Nat) : ContentPlace :=
  ⟨model.key, model.pageOrdinal, model.ordinal, ordinal⟩

namespace ModelGraph

variable (graph : ModelGraph) (budget : Nat)

/-- The accessibility object of the document. -/
def pushAccessibility (objects : List ModelObjectRef) : Except PdfvError (List ModelObjectRef) :=
  if graph.materializesAccessibility then do
    let accessibility ← buildAccessibilityGraph graph.crates graph.document graph.limits
    pushLinked budget objects [.accessibility accessibility .document]
  else .ok objects

/-- The stream object of an indirect object; the catalog has none. -/
def streamObject (object : IndirectObject) : Option ModelObjectRef :=
  match object.object with
  | .stream stream =>
    if some object.key = graph.document.catalog then none
    else some (.stream ⟨object.key, object.offset, stream⟩)
  | _ => none

/-- `ModelGraph::push_streams`. -/
def pushStreams (objects : List ModelObjectRef) : Except PdfvError (List ModelObjectRef) :=
  if graph.materializes .stream then
    pushLinked budget objects (graph.document.objects.values.filterMap graph.streamObject)
  else .ok objects

/-- `ModelGraph::push_generic_roots`. -/
def pushGenericRoots (objects : List ModelObjectRef) : Except PdfvError (List ModelObjectRef) :=
  if graph.materializesGenericRoots then do
    let models ← graph.document.genericModels graph.limits budget
    pushLinked budget objects ((models.filter fun model => graph.materializes model.family).map
      ModelObjectRef.generic)
  else .ok objects

/-- `DocumentModel::linked_objects`. -/
def documentLinkedObjects : Except PdfvError (List ModelObjectRef) := do
  let objects ← pushLinked budget [] (graph.document.catalogModel.toList.map ModelObjectRef.catalog)
  let objects ← graph.pushAccessibility budget objects
  let objects ← graph.pushStreams budget objects
  graph.pushGenericRoots budget objects

/-- `CatalogModel::linked_objects`. -/
def catalogLinkedObjects (catalog : CatalogModel) : Except PdfvError (List ModelObjectRef) := do
  let doc := graph.document
  let objects ←
    pushLinked budget [] ((doc.metadataModel catalog).toList.map ModelObjectRef.metadata)
  let outputIntents ← doc.outputIntentModels catalog (budget - objects.length)
  let objects ← pushLinked budget objects (outputIntents.reverse.map ModelObjectRef.outputIntent)
  let pages ← doc.pageModels graph.limits catalog (budget - objects.length)
  let objects ← pushLinked budget objects (pages.reverse.map ModelObjectRef.page)
  let models ← pushLinked (budget - objects.length) [] (doc.catalogGenericModels catalog)
  pushLinked budget objects
    ((models.reverse.filter fun model => graph.materializes model.family).map
      ModelObjectRef.generic)

/-- `page_linked_objects`. -/
def pageLinkedObjects (page : PageModel) : Except PdfvError (List ModelObjectRef) := do
  let doc := graph.document
  let streams ← doc.pageContentStreams page budget
  let objects ← pushLinked budget [] (streams.reverse.map ModelObjectRef.contentStream)
  let annotations ← doc.annotationModels page (budget - objects.length)
  let objects ← pushLinked budget objects (annotations.reverse.map ModelObjectRef.annotation)
  let fonts ← doc.fontModels graph.limits page (budget - objects.length)
  let objects ← pushLinked budget objects (fonts.reverse.map ModelObjectRef.font)
  let actions ← doc.actionModelsFromEntries page.dictionary ["AA"] page.ordinal "root/page"
    (budget - objects.length)
  pushLinked budget objects (actions.reverse.map ModelObjectRef.generic)

/-- `AnnotationModel::linked_objects`. -/
def annotationLinkedObjects (model : AnnotationModel) :
    Except PdfvError (List ModelObjectRef) := do
  let doc := graph.document
  let context := s!"root/page[{model.pageOrdinal}]/annotation[{model.ordinal}]"
  let field : GenericModel :=
    ⟨.formField, model.key, model.offset, model.dictionary, none, s!"{context}/formField[0]",
      model.ordinal⟩
  let objects ← pushLinked budget []
    (if entryIsName model.dictionary.value "Subtype" "Widget" then [.generic field] else [])
  let actions ← doc.actionModelsFromEntries model.dictionary ["A", "AA"] model.ordinal
    "root/annotation" (budget - objects.length)
  let objects ← pushLinked budget objects (actions.reverse.map ModelObjectRef.generic)
  pushLinked budget objects ((doc.dictionaryBackedModel (model.dictionary.get "FS") .fileSpec
    model.ordinal s!"{context}/fileSpec[0]").toList.map ModelObjectRef.generic)

/-- The resource uses of a content stream. -/
def pushResourceUses (model : ContentStreamModel) (summary : ContentStreamSummary)
    (objects : List ModelObjectRef) : Except PdfvError (List ModelObjectRef) :=
  if graph.materializes .resourceUse then do
    let effective ← model.effectiveResources graph.document graph.limits
    pushLinked budget objects (summary.resourceUses.mapIdx fun ordinal use =>
      .resourceUse (model.place ordinal) use (resolveResourceUse graph.document effective use))
  else .ok objects

/-- `ContentStreamModel::linked_objects`: the summary is made whatever is materialised. -/
def contentStreamLinkedObjects (model : ContentStreamModel) :
    Except PdfvError (List ModelObjectRef) := do
  let summary ← model.summary graph.crates graph.limits
  let objects ← pushLinked budget []
    (if graph.materializes .operator then
      summary.facts.mapIdx fun ordinal fact => .operator (model.place ordinal) fact
    else [])
  let objects ← pushLinked budget objects
    (if graph.materializes .markedContent then
      summary.markedContent.mapIdx fun ordinal span => .markedContent (model.place ordinal) span
    else [])
  let objects ← pushLinked budget objects
    (if graph.materializes .inlineImage then
      (summary.facts.filter OperatorFact.isInlineImage).mapIdx fun ordinal fact =>
        .inlineImage (model.place ordinal) fact
    else [])
  graph.pushResourceUses budget model summary objects

/-- `form_field_linked_objects`. Of several parents only the first is linked. -/
def formFieldLinkedObjects (model : GenericModel) : Except PdfvError (List GenericModel) := do
  let doc := graph.document
  let objects ← doc.genericModelsFromEntry (model.dictionary.get "Kids") .formField model.context
    budget
  let parents ← doc.genericModelsFromEntry (model.dictionary.get "Parent") .formField model.context
    (budget - objects.length)
  let objects ← pushLinked budget objects (parents.take 1)
  let actions ← doc.actionModelsFromEntries model.dictionary ["A", "AA"] model.ordinal
    model.context (budget - objects.length)
  let objects ← pushLinked budget objects actions.reverse
  pushLinked budget objects (doc.dictionaryBackedModel (model.dictionary.get "F") .fileSpec
    model.ordinal s!"{model.context}/fileSpec[0]").toList

/-- `action_linked_objects`. -/
def actionLinkedObjects (model : GenericModel) : Except PdfvError (List GenericModel) := do
  let doc := graph.document
  let objects ← doc.genericModelsFromEntry (model.dictionary.get "Next") .action model.context budget
  let objects ← pushLinked budget objects
    (doc.dictionaryBackedModel ((model.dictionary.get "F").or (model.dictionary.get "FS"))
      .fileSpec model.ordinal s!"{model.context}/fileSpec[0]").toList
  pushLinked budget objects (doc.modelFromValue (model.dictionary.get "D") .destination
    model.ordinal s!"{model.context}/destination[0]").toList

/-- `outline_linked_objects`. -/
def outlineLinkedObjects (model : GenericModel) : Except PdfvError (List GenericModel) := do
  let doc := graph.document
  let objects ← ["First", "Last", "Next", "Prev"].foldlM (fun (objects : List GenericModel) key => do
    let linked ← doc.genericModelsFromEntry (model.dictionary.get key) .outline model.context
      (budget - objects.length)
    pushLinked budget objects linked) []
  let actions ← doc.actionModelsFromEntries model.dictionary ["A"] model.ordinal model.context
    (budget - objects.length)
  let objects ← pushLinked budget objects actions.reverse
  pushLinked budget objects (doc.modelFromValue (model.dictionary.get "Dest") .destination
    model.ordinal s!"{model.context}/destination[0]").toList

/-- `names_linked_objects`. -/
def namesLinkedObjects (model : GenericModel) : Except PdfvError (List GenericModel) := do
  let objects ← collectNameTreeEntries graph.document .destination budget
    (model.dictionary.get "Dests") model.context []
  collectNameTreeEntries graph.document .fileSpec budget (model.dictionary.get "EmbeddedFiles")
    model.context objects

/-- The content stream of a form XObject. -/
def xobjectContentStream (model : GenericModel) : Option ContentStreamModel :=
  model.key.bind fun key => (graph.document.objects.get? key).bind fun object =>
    match object.object with
    | .stream stream =>
      some ⟨none, graph.document.resolveDictionaryValue (model.dictionary.get "Resources"),
        model.context, model.ordinal, 0, key, object.offset, stream⟩
    | _ => none

/-- `xobject_linked_objects`. -/
def xobjectLinkedObjects (model : GenericModel) : Except PdfvError (List ModelObjectRef) :=
  if graph.materializes .contentStream then
    pushLinked budget [] ((graph.xobjectContentStream model).toList.map
      ModelObjectRef.contentStream)
  else .ok []

/-- `generic_linked_objects`. -/
def genericLinkedObjects (model : GenericModel) : Except PdfvError (List ModelObjectRef) :=
  let generics := fun (models : Except PdfvError (List GenericModel)) =>
    models.map fun models => models.map ModelObjectRef.generic
  match model.family with
  | .acroForm =>
    generics (graph.document.genericModelsFromEntry (model.dictionary.get "Fields") .formField
      model.context budget)
  | .formField => generics (graph.formFieldLinkedObjects budget model)
  | .action => generics (graph.actionLinkedObjects budget model)
  | .outline => generics (graph.outlineLinkedObjects budget model)
  | .names => generics (graph.namesLinkedObjects budget model)
  | .destination =>
    generics (graph.document.actionModelsFromEntries model.dictionary ["A"] model.ordinal
      model.context budget)
  | .xObject | .formXObject => graph.xobjectLinkedObjects budget model
  | _ => .ok []

/-- `ModelObjectRef::linked_objects`. -/
def linkedObjects (object : ModelObjectRef) : Except PdfvError (List ModelObjectRef) :=
  match object with
  | .document => graph.documentLinkedObjects budget
  | .catalog catalog => graph.catalogLinkedObjects budget catalog
  | .page page => graph.pageLinkedObjects budget page
  | ModelObjectRef.annotation model => graph.annotationLinkedObjects budget model
  | .contentStream model => graph.contentStreamLinkedObjects budget model
  | .accessibility accessibility kind => accessibilityLinkedObjects accessibility kind budget
  | .generic model => graph.genericLinkedObjects budget model
  | .metadata _ | .font _ | .outputIntent _ | .operator _ _ | .markedContent _ _
  | .inlineImage _ _ | .resourceUse _ _ _ | .stream _ => .ok []

end ModelGraph

end Pdfv
