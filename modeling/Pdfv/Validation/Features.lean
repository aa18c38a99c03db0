import Pdfv.Validation.Session
/-!
# Features and policies

`extractFeatures`: the walk over the graph with all families that records the properties of the
selected objects, with the strings that carry content redacted. `evaluatePolicy` decides the rules
of a policy on what was recorded. The property schemas of the registry are a parameter.
-/

namespace Pdfv

open Fallible

/-- The names in the property schema of each registered family. -/
abbrev PropertySchema : Type :=
  Family → List PropertyName

/-! ## Selections -/

/-- Feature family selection. -/
inductive FeatureSelection where
  | none
  | all
  | families (families : List ObjectTypeName)

/-- `FeatureSelection::is_enabled`. -/
def FeatureSelection.isEnabled : FeatureSelection → Bool
  | .none => false
  | _ => true

/-- `ModelRegistry::has_family`. -/
def ObjectTypeName.isRegistered : ObjectTypeName → Bool
  | .family _ => true
  | .unregistered _ _ => false

/-- The families of a `BTreeSet`: ordered by name, each once. -/
def familySet (families : List ObjectTypeName) : List ObjectTypeName :=
  (families.foldl (fun (set : OrdMap String ObjectTypeName) family => set.insert family.text family)
    OrdMap.empty).values

/-- `selected_feature_families`. -/
def selectedFeatureFamilies : FeatureSelection → Except PdfvError (List ObjectTypeName)
  | .none | .all => .ok (familySet (Family.all.map ObjectTypeName.family))
  | .families families =>
    if families.all ObjectTypeName.isRegistered then .ok (familySet families)
    else .error (.configuration (.invalidValue "extract" ⟨"unknown feature family"⟩))

/-! ## Feature objects -/

/-- Feature property value. -/
inductive FeatureValue where
  | null
  | bool (value : Bool)
  | number (value : Double)
  | string (value : BoundedText)
  | redactedString (bytes : Nat)
  | objectKey (key : ObjectKey)
  | list (values : List FeatureValue)

mutual

/-- `FeatureValue::from`. -/
def FeatureValue.ofModel : ModelValue → FeatureValue
  | .null => .null
  | .bool value => .bool value
  | .number value => .number value
  | .string value => .string value
  | .objectKey key => .objectKey key
  | .list values => .list (FeatureValue.ofModels values)

/-- `FeatureValue::from` on each value. -/
def FeatureValue.ofModels : List ModelValue → List FeatureValue
  | [] => []
  | value :: values => FeatureValue.ofModel value :: FeatureValue.ofModels values

end

/-- `SAFE_FEATURE_STRING_PROPERTIES`. -/
def safeFeatureStringProperties : List PropertyName :=
  ["BaseFont", "CharSet", "CIDToGIDMap", "CIDFontOrdering", "CIDFontRegistry", "CMapOrdering",
   "CMapRegistry", "CMapName", "Encoding", "FT", "Filter", "family", "S", "Subtype", "Subtype2",
   "Type", "BMNameValue", "TR2NameValue", "SMaskNameValue", "colorSpace", "cmapName", "deviceClass",
   "fontFileSubtype", "fontName", "iccColorSpace", "iccDeviceClass", "iccPcs", "iccVersion",
   "gOutputCS", "gDocumentOutputCS", "gPageOutputCS", "gTransparencyCS",
   "firstChildStandardTypeNamespaceURL", "name", "kidsStandardTypes", "language", "ListNumbering",
   "NoteType", "normalizedRole", "operator", "pcs", "conformance", "conformancePrefix", "header",
   "partPrefix", "role", "roleAttribute", "structureRole", "resolvedFamily", "revPrefix", "status",
   "tag", "unknownHeaders", "version"]

/-- Whether the strings of a property are kept. -/
def isSafeFeature (property : PropertyName) : Bool :=
  safeFeatureStringProperties.contains property

mutual

/-- `safe_feature_value`. -/
def safeFeatureValue (property : PropertyName) : ModelValue → FeatureValue
  | .string value =>
    if isSafeFeature property then .string value
    else .redactedString (saturateU64 (utf8 value.text).length)
  | .list values => .list (safeFeatureValues property values)
  | other => .ofModel other

/-- `safe_feature_value` on each value of a list. -/
def safeFeatureValues (property : PropertyName) : List ModelValue → List FeatureValue
  | [] => []
  | value :: values => safeFeatureValue property value :: safeFeatureValues property values

end

/-- One extracted validation-model object. -/
structure FeatureObject where
  family : ObjectTypeName
  location : ObjectLocation
  context : BoundedText
  properties : OrdMap PropertyName FeatureValue

/-- Read-only feature extraction report. -/
structure FeatureReport where
  objects : List FeatureObject
  visitedObjects : Nat
  selectedFamilies : List ObjectTypeName
  truncated : Bool

section Extraction

variable (services : ModelServices) (schema : PropertySchema) (graph : ModelGraph)

/-- One property of a feature object; an unknown one is left out. -/
def addFeatureProperty (object : ModelObjectRef) (values : OrdMap PropertyName FeatureValue)
    (property : PropertyName) : Except PdfvError (OrdMap PropertyName FeatureValue) :=
  match services.property graph object property with
  | .ok value => .ok (values.insert property (safeFeatureValue property value))
  | .error (.profile (.unknownProperty _)) => .ok values
  | .error e => .error e

/-- `feature_object`; the type of every model object is registered. -/
def featureObject (object : ModelObjectRef) : Except PdfvError FeatureObject := do
  let properties ← (schema object.objectType).foldlM (addFeatureProperty services graph object)
    OrdMap.empty
  return ⟨.family object.objectType, object.location, ⟨object.context⟩, properties⟩

/-- A visited object is recorded when its family is selected. -/
def collectFeature (selected : List ObjectTypeName) (objects : List FeatureObject)
    (object : ModelObjectRef) : Except PdfvError (List FeatureObject) :=
  if .family object.objectType ∈ selected then do
    let feature ← featureObject services schema graph object
    return objects ++ [feature]
  else .ok objects

end Extraction

/-- The graph a feature extraction walks. -/
def featureGraph (services : ModelServices) (document : ModelDocument) (limits : ResourceLimits) :
    ModelGraph :=
  ModelGraph.withAllFamilies services.crates document limits

/-- `ValidationSession::extract_features`: the object limit ends the extraction. -/
def extractFeatures (services : ModelServices) (schema : PropertySchema) (document : ModelDocument)
    (limits : ResourceLimits) (selection : FeatureSelection) : Except PdfvError FeatureReport := do
  let selected ← selectedFeatureFamilies selection
  let graph := featureGraph services document limits
  match graph.walk.run limits.maxObjects (collectFeature services schema graph selected) walkRoots
      [] with
  | ⟨objects, visited, .finished⟩ => .ok ⟨objects, visited, selected, false⟩
  | ⟨objects, visited, .stopped e⟩ =>
    if e = .limit "max_objects" then .ok ⟨objects, visited, selected, true⟩ else .error e
  | ⟨_, _, .failed e⟩ => .error e

/-! ## Policies -/

/-- Bounded policy comparison operator. -/
inductive PolicyOperator where
  | exists
  | absent
  | equals
  | notEquals
  | min
  | max
deriving DecidableEq, Repr

/-- Policy comparison value; a number is an `i32`. -/
inductive PolicyValue where
  | bool (value : Bool)
  | number (value : Int)
  | string (value : BoundedText)
deriving DecidableEq, Repr

/-- One bounded policy rule. -/
structure PolicyRule where
  id : Identifier
  description : BoundedText
  family : ObjectTypeName
  field : PropertyName
  operator : PolicyOperator
  value : Option PolicyValue

/-- Bounded policy rules. -/
structure PolicySet where
  name : Option BoundedText
  rules : List PolicyRule

/-- One policy rule result. -/
structure PolicyRuleResult where
  id : Identifier
  description : BoundedText
  passed : Bool
  matched : Nat
  message : BoundedText
deriving DecidableEq, Repr

/-- Policy evaluation report. -/
structure PolicyReport where
  name : Option BoundedText
  isCompliant : Bool
  results : List PolicyRuleResult
deriving DecidableEq, Repr

/-- `PolicySet::validate`. -/
def PolicySet.validate (policy : PolicySet) : Except PdfvError Unit := do
  failIf policy.rules.isEmpty
    (.policy (.invalidField "rules" ⟨"policy must contain at least one rule"⟩))
  failIf (policy.rules.length > 1024)
    (.policy (.invalidField "rules" ⟨"policy rule count exceeds limit"⟩))

/-- `policy_invalid`. -/
def policyInvalid (field reason : String) : PdfvError :=
  .policy (.invalidField field ⟨reason⟩)

/-- `ModelRegistry::has_family_property`. -/
def ObjectTypeName.hasProperty (schema : PropertySchema) (field : PropertyName) :
    ObjectTypeName → Bool
  | .family found => (schema found).contains field
  | .unregistered _ _ => false

/-- The value check of one rule. -/
def checkPolicyValue (rule : PolicyRule) : Except PdfvError Unit :=
  match rule.operator with
  | .exists | .absent =>
    failIf rule.value.isSome
      (policyInvalid "value" "exists and absent operators do not accept values")
  | .equals | .notEquals =>
    failIf rule.value.isNone (policyInvalid "value" "comparison operator requires a value")
  | .min | .max =>
    match rule.value with
    | some (.number _) => .ok ()
    | _ => .error (policyInvalid "value" "numeric operator requires a number value")

/-- The checks of one rule. -/
def checkPolicyRule (schema : PropertySchema) (rule : PolicyRule) : Except PdfvError Unit := do
  failIf (!rule.family.isRegistered) (policyInvalid "family" "unknown policy feature family")
  failIf (!rule.family.hasProperty schema rule.field)
    (policyInvalid "field" "unknown policy feature field for family")
  checkPolicyValue rule

/-- `validate_policy_schema`. -/
def validatePolicySchema (schema : PropertySchema) (policy : PolicySet) : Except PdfvError Unit :=
  policy.rules.forM (checkPolicyRule schema)

/-- `feature_selection_for_tasks`. -/
def featureSelectionForTasks (selection : FeatureSelection) :
    Option PolicySet → FeatureSelection
  | none => selection
  | some policy =>
    match selection with
    | .none | .all => .all
    | .families families => .families (familySet (families ++ policy.rules.map PolicyRule.family))

/-- `required_policy_value`. -/
def requiredPolicyValue (rule : PolicyRule) : Except PdfvError PolicyValue :=
  match rule.value with
  | some value => .ok value
  | none => .error (policyInvalid "value" "operator requires a comparison value")

/-- `required_policy_number`. -/
def requiredPolicyNumber (rule : PolicyRule) : Except PdfvError Double := do
  match ← requiredPolicyValue rule with
  | .number value => return .ofInt value
  | _ => .error (policyInvalid "value" "operator requires a numeric comparison value")

/-- `policy_value_matches`. -/
def policyValueMatches : FeatureValue → PolicyValue → Bool
  | .bool actual, .bool expected => actual = expected
  | .number actual, .number expected => ((actual.sub (.ofInt expected)).abs).lt .epsilon
  | .string actual, .string expected => actual = expected
  | _, _ => false

/-- `feature_number`. -/
def featureNumber : FeatureValue → Option Double
  | .number value => if value.isFinite then some value else none
  | _ => none

/-- Whether the values of a field satisfy a rule. -/
def policyVerdict (rule : PolicyRule) (values : List FeatureValue) : Except PdfvError Bool :=
  match rule.operator with
  | .exists => .ok (!values.isEmpty)
  | .absent => .ok values.isEmpty
  | .equals => do
    let expected ← requiredPolicyValue rule
    return values.any fun actual => policyValueMatches actual expected
  | .notEquals => do
    let expected ← requiredPolicyValue rule
    return values.all fun actual => !policyValueMatches actual expected
  | .min => do
    let expected ← requiredPolicyNumber rule
    return (values.filterMap featureNumber).any fun actual => expected.le actual
  | .max => do
    let expected ← requiredPolicyNumber rule
    return (values.filterMap featureNumber).any fun actual => actual.le expected

/-- `policy_message`. -/
def policyMessage (rule : PolicyRule) (passed : Bool) (matched : Nat) :
    Except PdfvError BoundedText :=
  let status := if passed then "passed" else "failed"
  BoundedText.new s!"policy rule {rule.id.text} {status} with {matched} matching feature objects" 256

/-- The recorded objects of the family of a rule. -/
def FeatureReport.matching (features : FeatureReport) (rule : PolicyRule) : List FeatureObject :=
  features.objects.filter fun object => object.family = rule.family

/-- `evaluate_policy_rule`. -/
def evaluatePolicyRule (rule : PolicyRule) (features : FeatureReport) :
    Except PdfvError PolicyRuleResult := do
  let found := features.matching rule
  let passed ← policyVerdict rule (found.filterMap fun object => object.properties.get? rule.field)
  let matched := saturateU64 found.length
  let message ← policyMessage rule passed matched
  return ⟨rule.id, rule.description, passed, matched, message⟩

/-- `evaluate_policy`. -/
def evaluatePolicy (policy : PolicySet) (features : FeatureReport) :
    Except PdfvError PolicyReport := do
  let results ← policy.rules.mapM fun rule => evaluatePolicyRule rule features
  return ⟨policy.name, results.all PolicyRuleResult.passed, results⟩

end Pdfv
