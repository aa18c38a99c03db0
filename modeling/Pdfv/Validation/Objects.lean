import Pdfv.Accessibility.Structure
import Pdfv.Profile.Evaluator
/-!
# Validation model objects

The objects a validation run visits: one structure for each wrapper of the source, and
`ModelObjectRef` over them, with the object type, supertypes, link names, location, context and
identity key of each. The supertypes and the links are constants of the wrapper, so they are
functions here.
-/

namespace Pdfv

/-- The accessibility objects of one graph. -/
inductive AccessibilityModelKind where
  | document
  | structureElement (node : Nat)
  | textChunk (ordinal : Nat)
  | imageChunk (ordinal : Nat)
  | annotation (ordinal : Nat)
  | artifact (ordinal : Nat)
  | table (node : Nat)
  | list (node : Nat)
  | heading (node : Nat)
  | link (node : Nat)
deriving DecidableEq, Repr

/-! ## Wrappers -/

/-- Catalog object. -/
structure CatalogModel where
  key : ObjectKey
  offset : Nat
  metadata : Option ObjectKey
  pages : Option ObjectKey

/-- Metadata stream object. The active flavour is read from the graph that made the object. -/
structure MetadataModel where
  key : ObjectKey
  offset : Nat

/-- Page dictionary object. -/
structure PageModel where
  key : ObjectKey
  offset : Nat
  ordinal : Nat
  dictionary : Located Dictionary

/-- Font dictionary object. -/
structure FontModel where
  pageOrdinal : Nat
  key : Option ObjectKey
  offset : Option Nat
  name : PdfName
  dictionary : Located Dictionary

/-- Annotation dictionary object. -/
structure AnnotationModel where
  pageOrdinal : Nat
  ordinal : Nat
  key : Option ObjectKey
  offset : Option Nat
  dictionary : Located Dictionary

/-- Output intent dictionary object. -/
structure OutputIntentModel where
  ordinal : Nat
  key : Option ObjectKey
  offset : Option Nat
  dictionary : Located Dictionary

/-- Content stream object of a page or of a form XObject. -/
structure ContentStreamModel where
  pageKey : Option ObjectKey
  resourceContext : Option (Located Dictionary)
  contextPrefix : String
  pageOrdinal : Nat
  ordinal : Nat
  key : ObjectKey
  offset : Nat
  stream : StreamObject

/-- The place of a fact in a content stream. -/
structure ContentPlace where
  source : ObjectKey
  pageOrdinal : Nat
  streamOrdinal : Nat
  ordinal : Nat

/-- Basic stream object. -/
structure StreamModel where
  key : ObjectKey
  offset : Nat
  stream : StreamObject

/-- Generic dictionary-backed model family object. The dictionary is a copy; its place says where the
value it was made from is stored. -/
structure GenericModel where
  family : Family
  key : Option ObjectKey
  offset : Option Nat
  dictionary : Located Dictionary
  directValue : Option ModelValue
  context : String
  ordinal : Nat

/-- Validation model object reference. -/
inductive ModelObjectRef where
  | document
  | catalog (model : CatalogModel)
  | metadata (model : MetadataModel)
  | page (model : PageModel)
  | font (model : FontModel)
  | annotation (model : AnnotationModel)
  | outputIntent (model : OutputIntentModel)
  | contentStream (model : ContentStreamModel)
  | operator (place : ContentPlace) (fact : OperatorFact)
  | markedContent (place : ContentPlace) (span : MarkedContentSpan)
  | inlineImage (place : ContentPlace) (fact : OperatorFact)
  | resourceUse (place : ContentPlace) (use : ResourceUse) (resolved : ResolvedResourceUse)
  | accessibility (graph : AccessibilityGraph) (kind : AccessibilityModelKind)
  | stream (model : StreamModel)
  | generic (model : GenericModel)

namespace AccessibilityModelKind

/-- The object type of an accessibility object. -/
def objectType : AccessibilityModelKind → Family
  | document => .accessibilityDocument
  | structureElement _ => .structureElement
  | textChunk _ => .textChunk
  | imageChunk _ => .imageChunk
  | annotation _ => Family.accessibilityAnnotation
  | artifact _ => .artifact
  | table _ => .table
  | list _ => .list
  | heading _ => .heading
  | link _ => .link

/-- The number in the identity key; the document has none. -/
def index : AccessibilityModelKind → Nat
  | document => 0
  | structureElement i | textChunk i | imageChunk i | annotation i | artifact i | table i | list i
  | heading i | link i => i

/-- `AccessibilityModel::identity_key`. -/
def identityKey : AccessibilityModelKind → String
  | document => "accessibilityDocument"
  | kind => s!"{kind.objectType.text}:{kind.index}"

/-- The last segment of the context path. An annotation of the graph is called `annotation` there. -/
def segment : AccessibilityModelKind → String
  | annotation _ => "annotation"
  | kind => kind.objectType.text

/-- `AccessibilityModel::context`. -/
def context : AccessibilityModelKind → String
  | document => "root/accessibility"
  | kind => s!"root/accessibility/{kind.segment}[{kind.index}]"

/-- `unknown_location`. -/
def unknownLocation : ObjectLocation :=
  ⟨none, none, some ⟨"root/accessibility/unknown"⟩⟩

/-- `AccessibilityModel::location`. -/
def location (graph : AccessibilityGraph) : AccessibilityModelKind → ObjectLocation
  | document => ⟨none, none, some ⟨"root/accessibility"⟩⟩
  | structureElement i | table i | list i | heading i | link i =>
    (graph.nodes[i]?).elim unknownLocation AccessibilityNode.location
  | textChunk i | imageChunk i =>
    (graph.markedContent[i]?).elim unknownLocation AccessibilityMarkedContent.location
  | annotation i =>
    ⟨(graph.objectReferences[i]?).bind AccessibilityObjectReference.object, none, some ⟨s!"root/accessibility/annotation[{i}]"⟩⟩
  | artifact i => (graph.artifacts[i]?).elim unknownLocation AccessibilityArtifact.location

end AccessibilityModelKind

/-- Link names and target families of a family, as the registry lists them. -/
def familyLinks : Family → List (String × Family)
  | .document => [("catalog", .catalog), ("streams", .stream),
      ("accessibility", .accessibilityDocument), ("security", .security),
      ("signatures", .signature)]
  | .catalog => [("metadata", .metadata), ("pages", .page), ("outputIntents", .outputIntent),
      ("acroForm", .acroForm), ("structureTreeRoot", .structureTreeRoot),
      ("optionalContentProperties", .optionalContentProperties), ("names", .names),
      ("outlines", .outline), ("destinations", .destination), ("permissions", .permissions)]
  | .page => [("resources", .resource), ("fonts", .font), ("annotations", Family.annotation),
      ("contentStreams", .contentStream), ("additionalActions", .action)]
  | .contentStream => [("operators", .operator), ("markedContent", .markedContent),
      ("inlineImages", .inlineImage), ("usedResources", .resourceUse)]
  | .operator => [("resource", .resourceUse), ("markedContentProperties", .object)]
  | Family.annotation => [("action", .action), ("additionalActions", .action),
      ("fileSpec", .fileSpec), ("formField", .formField)]
  | .action => [("next", .action), ("fileSpec", .fileSpec), ("destination", .destination)]
  | .formField => [("kids", .formField), ("parent", .formField), ("action", .action),
      ("additionalActions", .action), ("fileSpec", .fileSpec)]
  | .acroForm => [("fields", .formField)]
  | .outline => [("first", .outline), ("last", .outline), ("next", .outline),
      ("previous", .outline), ("action", .action), ("destination", .destination)]
  | .names => [("destinations", .destination), ("files", .fileSpec)]
  | .destination => [("action", .action)]
  | .xObject | .formXObject => [("contentStreams", .contentStream)]
  | .accessibilityDocument | .structureTreeRoot => [("structureElements", .structureElement),
      ("textChunks", .textChunk), ("imageChunks", .imageChunk),
      ("annotations", Family.accessibilityAnnotation), ("artifacts", .artifact), ("tables", .table),
      ("lists", .list), ("headings", .heading), ("links", .link)]
  | .structureElement => [("children", .structureElement), ("textChunks", .textChunk),
      ("imageChunks", .imageChunk), ("annotations", Family.accessibilityAnnotation)]
  | _ => []

/-- `ModelRegistry::link_target`. -/
def linkTarget (family : Family) (link : PropertyName) : Option Family :=
  (familyLinks family).lookup link

/-- The `number:generation` part of an identity key. -/
def ObjectKey.identity (key : ObjectKey) : String :=
  s!"{key.number}:{key.generation}"

/-- The object number in an identity key; a direct object has 0. -/
def numberOrZero (key : Option ObjectKey) : Nat :=
  key.elim 0 ObjectKey.number

/-- The identity of a content-stream fact. -/
def ContentPlace.identity (place : ContentPlace) : String :=
  s!"{place.pageOrdinal}:{place.streamOrdinal}:{place.source.number}:{place.ordinal}"

/-- The context path of a content-stream fact. -/
def ContentPlace.context (place : ContentPlace) (segment : String) : String :=
  s!"root/page[{place.pageOrdinal}]/contentStream[{place.streamOrdinal}]/{segment}[{place.ordinal}]"

/-- `generic_identity_key`. -/
def genericIdentityKey (family : Family) (key : Option ObjectKey) (ordinal : Nat)
    (context : String) : String :=
  match key with
  | none => s!"{family.text}:inline:{ordinal}:{context}"
  | some key => s!"{family.text}:{key.identity}"

namespace ModelObjectRef

/-- `ModelObjectRef::object_type`. -/
def objectType : ModelObjectRef → Family
  | document => .document
  | catalog _ => .catalog
  | metadata _ => .metadata
  | page _ => .page
  | font _ => .font
  | annotation _ => Family.annotation
  | outputIntent _ => .outputIntent
  | contentStream _ => .contentStream
  | operator _ _ => .operator
  | markedContent _ _ => .markedContent
  | inlineImage _ _ => .inlineImage
  | resourceUse _ _ _ => .resourceUse
  | accessibility _ kind => kind.objectType
  | stream _ => .stream
  | generic model => model.family

/-- `ModelObjectRef::super_types`. -/
def superTypes : ModelObjectRef → List Family
  | document => []
  | metadata _ | contentStream _ => [.stream, .object]
  | operator _ fact => if fact.isUnknown then [.undefinedOperator, .object] else [.object]
  | inlineImage _ _ => [.operator]
  | accessibility _ .document => [.structureTreeRoot]
  | _ => [.object]

/-- `ModelObjectRef::links`. -/
def links : ModelObjectRef → List (String × Family)
  | metadata _ | font _ | outputIntent _ | markedContent _ _ | inlineImage _ _ | resourceUse _ _ _
  | stream _ => []
  | accessibility _ .document => familyLinks .accessibilityDocument
  | accessibility _ (.structureElement _) => familyLinks .structureElement
  | accessibility _ _ => []
  | generic model => genericLinks model.family
  | object => familyLinks object.objectType
where
  /-- `family_links`. -/
  genericLinks : Family → List (String × Family)
    | .page => familyLinks .page
    | Family.annotation => familyLinks Family.annotation
    | .action => familyLinks .action
    | .formField => familyLinks .formField
    | .acroForm => familyLinks .acroForm
    | .outline => familyLinks .outline
    | .names => familyLinks .names
    | .destination => familyLinks .destination
    | .xObject | .formXObject => familyLinks .xObject
    | _ => []

/-- `ModelObjectRef::context`. -/
def context : ModelObjectRef → String
  | document => "root"
  | catalog _ => "root/catalog[0]"
  | metadata _ => "root/catalog[0]/metadata[0]"
  | page model => s!"root/page[{model.ordinal}]"
  | font model => s!"root/page[{model.pageOrdinal}]/font[{utf8Lossy model.name.bytes}]"
  | annotation model => s!"root/page[{model.pageOrdinal}]/annotation[{model.ordinal}]"
  | outputIntent model => s!"root/catalog[0]/outputIntent[{model.ordinal}]"
  | contentStream model => s!"{model.contextPrefix}/contentStream[{model.ordinal}]"
  | operator place _ => place.context "operator"
  | markedContent place _ => place.context "markedContent"
  | inlineImage place _ => place.context "inlineImage"
  | resourceUse place _ _ => place.context "resourceUse"
  | accessibility _ kind => kind.context
  | stream model => s!"root/stream[{model.key.number}]"
  | generic model => model.context

/-- `ModelObjectRef::location`. -/
def location (object : ModelObjectRef) : ObjectLocation :=
  let path : Option BoundedText := some ⟨object.context⟩
  match object with
  | document => ⟨none, none, path⟩
  | catalog model => ⟨some model.key, some model.offset, path⟩
  | metadata model => ⟨some model.key, some model.offset, path⟩
  | page model => ⟨some model.key, some model.offset, path⟩
  | font model => ⟨model.key, model.offset, path⟩
  | annotation model => ⟨model.key, model.offset, path⟩
  | outputIntent model => ⟨model.key, model.offset, path⟩
  | contentStream model => ⟨some model.key, some model.offset, path⟩
  | operator _ fact => fact.location
  | markedContent _ span => span.location
  | inlineImage _ fact => fact.location
  | resourceUse _ use _ => use.location
  | accessibility graph kind => kind.location graph
  | stream model => ⟨some model.key, some model.offset, path⟩
  | generic model => ⟨model.key, model.offset, path⟩

/-- `ModelObjectRef::identity_key`. -/
def identityKey : ModelObjectRef → String
  | document => "document"
  | catalog model => s!"catalog:{model.key.identity}"
  | metadata model => s!"metadata:{model.key.identity}"
  | page model => s!"page:{model.key.identity}"
  | font model =>
    s!"font:{model.pageOrdinal}:{numberOrZero model.key}:{utf8Lossy model.name.bytes}"
  | annotation model =>
    s!"annotation:{model.pageOrdinal}:{model.ordinal}:{numberOrZero model.key}"
  | outputIntent model => s!"outputIntent:{model.ordinal}:{numberOrZero model.key}"
  | contentStream model => s!"contentStream:{model.pageOrdinal}:{model.key.identity}"
  | operator place _ => s!"operator:{place.identity}"
  | markedContent place _ => s!"markedContent:{place.identity}"
  | inlineImage place _ => s!"inlineImage:{place.identity}"
  | resourceUse place _ _ => s!"resourceUse:{place.identity}"
  | accessibility _ kind => kind.identityKey
  | stream model => s!"stream:{model.key.identity}"
  | generic model => genericIdentityKey model.family model.key model.ordinal model.context

end ModelObjectRef

end Pdfv
