import Pdfv.Content.Summary
import Pdfv.Profile.Rules
/-!
# Values of the document

The validation model holds references into the parsed document. A `Located` value is such a
reference: the value and the place it is stored at. Reading an entry of a located dictionary, or
following a reference, gives a located value again. The second part classifies dictionaries and
looks up named resources.
-/

namespace Pdfv

/-- What the validation model reads of a parsed document: everything but the warnings, which go
into the report only. -/
structure ModelDocument where
  version : PdfVersion
  catalog : Option ObjectKey
  objects : ObjectStore
  trailers : List Trailer
  parseFacts : List ParseFact

/-- The document behind a validation session. -/
def ParsedDocument.model (doc : ParsedDocument) : ModelDocument :=
  ⟨doc.version, doc.catalog, doc.objects, doc.trailers, doc.parseFacts⟩

/-- One step into a value: a dictionary entry or an array item. -/
inductive Selector where
  | entry (name : PdfName)
  | item (index : Nat)
deriving DecidableEq, Repr

/-- Where a value is stored: an indirect object, and the way from there into nested values. -/
structure Place where
  root : ObjectKey
  path : List Selector
deriving DecidableEq, Repr

namespace Place

/-- The place of an indirect object itself. -/
def indirect (key : ObjectKey) : Place :=
  ⟨key, []⟩

/-- The place one step further in. -/
def child (place : Place) (selector : Selector) : Place :=
  { place with path := place.path ++ [selector] }

end Place

/-- A value of the document and where it is stored. -/
structure Located (α : Type) where
  place : Place
  value : α

namespace Located

/-- `Dictionary::get`. -/
def get (dictionary : Located Dictionary) (key : String) : Option (Located CosObject) :=
  (dictionary.value.get key).map fun value =>
    ⟨dictionary.place.child (.entry (PdfName.fromStatic key)), value⟩

/-- `Dictionary::iter`. -/
def entries (dictionary : Located Dictionary) : List (PdfName × Located CosObject) :=
  dictionary.value.map fun entry => (entry.1, ⟨dictionary.place.child (.entry entry.1), entry.2⟩)

/-- The items of an array. -/
def items (values : Located (List CosObject)) : List (Located CosObject) :=
  values.value.mapIdx fun index value => ⟨values.place.child (.item index), value⟩

/-- `CosObject::as_dictionary`. -/
def asDictionary (object : Located CosObject) : Option (Located Dictionary) :=
  object.value.asDictionary.map fun dictionary => ⟨object.place, dictionary⟩

end Located

/-- `object_refs_from_array`. -/
def objectRefsFromArray : Option (Located CosObject) → List ObjectKey
  | some ⟨_, .array values⟩ => values.filterMap fun value =>
    match value with
    | .reference key => some key
    | _ => none
  | _ => []

/-- `array_values`: nothing unless the value itself is an array. -/
def arrayValues : Option (Located CosObject) → List (Located CosObject)
  | some ⟨place, .array values⟩ => Located.items ⟨place, values⟩
  | _ => []

/-- A dictionary, with the key and offset of the indirect object it was found in, if any. -/
structure NamedDictionary where
  key : Option ObjectKey
  offset : Option Nat
  dictionary : Located Dictionary

namespace ModelDocument

variable (doc : ModelDocument)

/-- The stored object under a key, as a located value. -/
def located (key : ObjectKey) : Option (Located CosObject) :=
  (doc.objects.get? key).map fun object => ⟨.indirect key, object.object⟩

/-- `page_dictionary`: the dictionary stored under a key. -/
def pageDictionary (key : ObjectKey) : Option (Located Dictionary) :=
  (doc.located key).bind Located.asDictionary

/-- `resolve_dictionary_value`. -/
def resolveDictionaryValue : Option (Located CosObject) → Option (Located Dictionary)
  | some ⟨place, .dictionary entries⟩ => some ⟨place, entries⟩
  | some ⟨_, .reference key⟩ => doc.pageDictionary key
  | _ => none

/-- `resolve_named_dictionary`. -/
def resolveNamedDictionary : Located CosObject → Option NamedDictionary
  | ⟨place, .dictionary entries⟩ => some ⟨none, none, ⟨place, entries⟩⟩
  | ⟨_, .reference key⟩ =>
    (doc.objects.get? key).bind fun object =>
      (object.object.asDictionary).map fun dictionary =>
        ⟨some key, some object.offset, ⟨.indirect key, dictionary⟩⟩
  | _ => none

end ModelDocument

/-! ## Classification -/

/-- The first row whose name the entry has. -/
def classifyName {α : Type} (table : List (String × α)) : Option CosObject → Option α
  | some (.name name) => (table.find? fun row => name.matchesText row.1).map Prod.snd
  | _ => none

/-- `classify_font_dictionary`. -/
def classifyFontDictionary (dictionary : Dictionary) : Option String :=
  classifyName [("Type0", "type0"), ("Type1", "type1"), ("MMType1", "mmType1"),
    ("TrueType", "trueType"), ("Type3", "type3"), ("CIDFontType0", "cidFontType0"),
    ("CIDFontType2", "cidFontType2")] (dictionary.get "Subtype")

/-- `classify_xobject`. -/
def classifyXObject (dictionary : Dictionary) : Option Family :=
  classifyName [("Image", .image), ("Form", .xObject), ("PS", .postScriptXObject)]
    (dictionary.get "Subtype")

/-- The `/Subtype` part of `classify_dictionary`. -/
def classifySubtype (dictionary : Dictionary) : Option Family :=
  classifyName [("Image", .image), ("Form", .formXObject), ("PS", .postScriptXObject),
    ("Widget", .formField)] (dictionary.get "Subtype")

/-- The `/Type` part of `classify_dictionary`. -/
def classifyType (dictionary : Dictionary) : Option Family :=
  classifyName [("Pages", .pageTree), ("Action", .action), ("StructTreeRoot", .structureTreeRoot),
    ("StructElem", .structureElement), ("Sig", .signature), ("EmbeddedFile", .embeddedFontFile),
    ("OCProperties", .optionalContentProperties),
    ("XObject", (classifyXObject dictionary).getD .xObject), ("Font", .font),
    ("Annot", Family.annotation), ("Metadata", .metadata), ("OutputIntent", .outputIntent),
    ("Filespec", .fileSpec)] (dictionary.get "Type")

/-- Whether an entry is present. -/
def Dictionary.has (dictionary : Dictionary) (key : String) : Bool :=
  (dictionary.get key).isSome

/-- The entries by which `classify_dictionary` recognises the other dictionaries. -/
def classifyEntries (dictionary : Dictionary) : Option Family :=
  if dictionary.has "Fields" then some .acroForm
  else if dictionary.has "Filter" && dictionary.has "V" then some .security
  else if dictionary.has "CMapName" then some .cMap
  else if dictionary.has "ShadingType" then some .shading
  else if dictionary.has "FunctionType" then some .function
  else if dictionary.has "PatternType" then some .pattern
  else if dictionary.has "N" && dictionary.has "Alternate" then some .iccProfile
  else if dictionary.has "ByteRange" then some .signature
  else none

/-- `classify_dictionary`. -/
def classifyDictionary (dictionary : Dictionary) : Option Family :=
  (classifySubtype dictionary).or ((classifyType dictionary).or (classifyEntries dictionary))

/-! ## Colour spaces -/

/-- `name_key`. -/
def nameKey (value : String) : Option PdfName :=
  (PdfName.new (utf8 value) {}).toOption

/-- `insert_name`. -/
def insertName (dictionary : Dictionary) (key value : String) : Option Dictionary := do
  let name ← nameKey key
  let value ← nameKey value
  return dictionary.insert name (.name value)

/-- `copy_array_entry`. -/
def copyArrayEntry (values : List CosObject) (dictionary : Dictionary) (index : Nat)
    (key : String) : Option Dictionary := do
  let name ← nameKey key
  let value ← values[index]?
  return dictionary.insert name value

/-- `copy_dictionary_entry`. -/
def copyDictionaryEntry (source : Dictionary) (target : Dictionary) (key : String) :
    Option Dictionary :=
  match source.get key with
  | some value => (nameKey key).map fun name => target.insert name value
  | none => some target

/-- `infer_color_space_dictionary_family`. -/
def inferColorSpaceDictionaryFamily (dictionary : Dictionary) : String :=
  if dictionary.has "N" then "ICCBased"
  else if dictionary.has "HiVal" || dictionary.has "Lookup" then "Indexed"
  else if dictionary.has "TintTransform" && (dictionary.has "Components" || dictionary.has "Process"
      || dictionary.has "Colorants") then "DeviceN"
  else if dictionary.has "TintTransform" then "Separation"
  else "unknown"

/-- A dictionary with its family added when it has none. -/
def addColorSpaceFamily (dictionary : Dictionary) : Option Dictionary :=
  if dictionary.has "Family" then some dictionary
  else insertName dictionary "Family" (inferColorSpaceDictionaryFamily dictionary)

/-- `color_space_array_dictionary`. The parts of the array are read as values only: the result is a
new dictionary. -/
def colorSpaceArrayDictionary (doc : ModelDocument) (place : Place) (values : List CosObject) :
    Option Dictionary := do
  let .name familyName ← values.head? | none
  let family := utf8Lossy familyName.bytes
  let dictionary ← insertName [] "Family" family
  if family = "ICCBased" then
    let profile ← values[1]?
    let key ← nameKey "ICCProfile"
    let dictionary := dictionary.insert key profile
    match doc.resolveDictionaryValue (some ⟨place.child (.item 1), profile⟩) with
    | some profileDictionary =>
      ["N", "Alternate", "Range", "Metadata", "Filter"].foldlM
        (copyDictionaryEntry profileDictionary.value) dictionary
    | none => some dictionary
  else if family = "Indexed" then
    [(1, "Base"), (2, "HiVal"), (3, "Lookup")].foldlM
      (fun (target : Dictionary) (row : Nat × String) => copyArrayEntry values target row.1 row.2)
      dictionary
  else if family = "Separation" then
    [(1, "Name"), (2, "Alternate"), (3, "TintTransform")].foldlM
      (fun (target : Dictionary) (row : Nat × String) => copyArrayEntry values target row.1 row.2)
      dictionary
  else if family = "DeviceN" then
    let dictionary ← [(1, "Components"), (2, "Alternate"), (3, "TintTransform")].foldlM
      (fun (target : Dictionary) (row : Nat × String) => copyArrayEntry values target row.1 row.2)
      dictionary
    match doc.resolveDictionaryValue
        (values[4]?.map fun value => ⟨place.child (.item 4), value⟩) with
    | some attributes =>
      ["Colorants", "Process"].foldlM (copyDictionaryEntry attributes.value) dictionary
    | none => some dictionary
  else if ["DeviceGray", "DeviceRGB", "DeviceCMYK", "CalGray", "CalRGB", "Lab"].contains family then
    some dictionary
  else none

/-- `normalize_color_space_object`. -/
def normalizeColorSpaceObject (doc : ModelDocument) (place : Place) : CosObject → Option Dictionary
  | .name name => (nameKey "Family").map fun key => Dictionary.insert [] key (.name name)
  | .array values => colorSpaceArrayDictionary doc place values
  | .dictionary entries => addColorSpaceFamily entries
  | .stream stream => addColorSpaceFamily stream.dictionary
  | _ => none

/-- `normalize_color_space_resource`. -/
def normalizeColorSpaceResource (doc : ModelDocument) : Located CosObject → Option NamedDictionary
  | ⟨_, .reference key⟩ =>
    (doc.objects.get? key).bind fun object =>
      (normalizeColorSpaceObject doc (.indirect key) object.object).map fun dictionary =>
        ⟨some key, some object.offset, ⟨.indirect key, dictionary⟩⟩
  | ⟨place, value⟩ =>
    (normalizeColorSpaceObject doc place value).map fun dictionary =>
      ⟨none, none, ⟨place, dictionary⟩⟩

/-! ## Resources -/

/-- The resource dictionaries in force at a page, outermost first. -/
structure EffectiveResources where
  dictionaries : List (Located Dictionary)
  cyclic : Bool

/-- The walk from a page to its ancestors: `contexts` is how many more nodes may be visited,
`dictionaries` what was found so far, innermost first. -/
def collectResources (doc : ModelDocument) (contexts : Nat) (visited : List ObjectKey)
    (dictionaries : List (Located Dictionary)) (key : ObjectKey) :
    Except PdfvError EffectiveResources :=
  if key ∈ visited then .ok ⟨dictionaries.reverse, true⟩
  else
    match contexts with
    | 0 => .error (.limit "max_resource_contexts")
    | contexts + 1 =>
      match doc.pageDictionary key with
      | none => .ok ⟨dictionaries.reverse, false⟩
      | some dictionary =>
        let dictionaries :=
          match doc.resolveDictionaryValue (dictionary.get "Resources") with
          | some resources => dictionaries ++ [resources]
          | none => dictionaries
        match dictionary.value.get "Parent" with
        | some (.reference parent) =>
          collectResources doc contexts (key :: visited) dictionaries parent
        | _ => .ok ⟨dictionaries.reverse, false⟩

/-- `effective_resources_for_page_key`. -/
def effectiveResourcesForPageKey (doc : ModelDocument) (limits : ResourceLimits)
    (pageKey : ObjectKey) : Except PdfvError EffectiveResources :=
  collectResources doc limits.maxResourceContexts [] [] pageKey

/-- The entry of a resource dictionary that holds a family. -/
def ResourceFamily.dictionaryName : ResourceFamily → String
  | .font => "Font"
  | .colorSpace => "ColorSpace"
  | .extGState => "ExtGState"
  | .shading => "Shading"
  | .xObject => "XObject"

/-- A sub-dictionary of a resource dictionary, when it is stored directly. -/
def directCollection (resources : Located Dictionary) (name : String) :
    Option (Located Dictionary) :=
  match resources.get name with
  | some ⟨place, .dictionary entries⟩ => some ⟨place, entries⟩
  | _ => none

/-- `resource_value`. -/
def resourceValue (resources : Located Dictionary) (family : ResourceFamily) (name : PdfName) :
    Option (Located CosObject) :=
  (directCollection resources family.dictionaryName).bind fun collection =>
    (collection.entries.find? fun entry => entry.1 = name).map Prod.snd

/-- `resolved_resource_family`. -/
def resolvedResourceFamily (doc : ModelDocument) (expected : ResourceFamily)
    (value : Located CosObject) : Option String :=
  match expected with
  | .font => (doc.resolveNamedDictionary value).map fun found =>
    (classifyFontDictionary found.dictionary.value).getD "font"
  | .colorSpace => some "colorSpace"
  | .extGState => (doc.resolveNamedDictionary value).map fun _ => "extGState"
  | .shading => (doc.resolveNamedDictionary value).map fun _ => "shading"
  | .xObject => (doc.resolveNamedDictionary value).bind fun found =>
    (classifyXObject found.dictionary.value).map Family.text

/-- Outcome of looking a named resource up. -/
inductive ResourceResolutionStatus where
  | resolved
  | missing
  | wrongType
  | cyclic
deriving DecidableEq, Repr

/-- A resource use after resolution. -/
structure ResolvedResourceUse where
  status : ResourceResolutionStatus
  family : ResourceFamily
  object : Option ObjectKey
  objectFamily : Option String
deriving DecidableEq, Repr

/-- The innermost value of a named resource. -/
def EffectiveResources.lookup (resources : EffectiveResources) (family : ResourceFamily)
    (name : PdfName) : Option (Located CosObject) :=
  resources.dictionaries.reverse.findSome? fun dictionary => resourceValue dictionary family name

/-- The reference in a value. -/
def CosObject.asReference : CosObject → Option ObjectKey
  | .reference key => some key
  | _ => none

/-- `resolve_resource_use`. -/
def resolveResourceUse (doc : ModelDocument) (resources : EffectiveResources)
    (use : ResourceUse) : ResolvedResourceUse :=
  if resources.cyclic then ⟨.cyclic, use.family, none, none⟩
  else
    match resources.lookup use.family use.name with
    | none => ⟨.missing, use.family, none, none⟩
    | some value =>
      let objectFamily := resolvedResourceFamily doc use.family value
      ⟨if objectFamily.isSome then .resolved else .wrongType, use.family, value.value.asReference,
        objectFamily⟩

/-- Texts in the order of a `BTreeSet<String>`, each once, joined. -/
def joinedNames (names : List String) : String :=
  "&".intercalate
    ((names.foldl (fun set name => OrdList.insert (utf8 name) name set) []).map Prod.snd)

/-- `undefined_resource_names`. -/
def undefinedResourceNames (doc : ModelDocument) (resources : EffectiveResources)
    (uses : List ResourceUse) : String :=
  joinedNames ((uses.filter fun use => (resolveResourceUse doc resources use).status = .missing).map
    fun use => utf8Lossy use.name.bytes)

/-- `resource_names`. -/
def resourceNames (resources : EffectiveResources) : String :=
  joinedNames (resources.dictionaries.flatMap fun dictionary =>
    ["Font", "ColorSpace", "ExtGState", "Shading", "XObject"].flatMap fun family =>
      ((directCollection dictionary family).elim [] fun collection =>
        collection.entries.map fun entry => utf8Lossy entry.1.bytes))

end Pdfv
