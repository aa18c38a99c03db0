import Pdfv.Validation.Features
import Pdfv.Validation.Allowance
/-!
# Policy verdicts

What a policy rule is decided on (`mem_fieldValues`): the redacted values of the objects that the
extraction visits. From there, when a verdict is the one on the whole document
(`evaluatePolicyRule_decided_iff`).
-/

namespace Pdfv

open Fallible

/-! ## Recorded properties -/

section Recorded

variable {services : ModelServices} {schema : PropertySchema} {graph : ModelGraph}

/-- The recorded value of a property: nothing when the object does not know it. -/
def recordedValue (services : ModelServices) (graph : ModelGraph) (object : ModelObjectRef)
    (field : PropertyName) : Option FeatureValue :=
  match services.property graph object field with
  | .ok value => some (safeFeatureValue field value)
  | .error _ => none

theorem addFeatureProperty_ok {object : ModelObjectRef} {values values' : OrdMap PropertyName FeatureValue}
    {property : PropertyName}
    (h : addFeatureProperty services graph object values property = .ok values')
    (field : PropertyName) :
    values'.get? field = if field = property then
        (recordedValue services graph object field).or (values.get? field)
      else values.get? field := by
  unfold addFeatureProperty at h
  unfold recordedValue
  split at h
  · rename_i value hvalue
    cases h
    rw [OrdMap.get?_insert]
    by_cases heq : field = property
    · rw [if_pos heq, if_pos heq, heq, hvalue]
      rfl
    · rw [if_neg heq, if_neg heq]
  · rename_i hvalue
    cases h
    by_cases heq : field = property
    · rw [if_pos heq, heq, hvalue]
      rfl
    · rw [if_neg heq]
  · cases h

theorem foldlM_addFeatureProperty {object : ModelObjectRef} {properties : List PropertyName}
    {values values' : OrdMap PropertyName FeatureValue}
    (h : properties.foldlM (addFeatureProperty services graph object) values = .ok values')
    (field : PropertyName) (hvalues : values.get? field = none
      ∨ values.get? field = recordedValue services graph object field) :
    values'.get? field = if field ∈ properties then recordedValue services graph object field
      else values.get? field := by
  induction properties generalizing values with
  | nil =>
    cases pure_eq_ok.mp h
    rw [if_neg List.not_mem_nil]
  | cons property properties ih =>
    rw [List.foldlM_cons] at h
    obtain ⟨next, hnext, h⟩ := bind_eq_ok.mp h
    have hfield := addFeatureProperty_ok hnext field
    by_cases heq : field = property
    · rw [if_pos heq] at hfield
      have hrecorded : next.get? field = recordedValue services graph object field := by
        rw [hfield]
        rcases hvalues with hvalues | hvalues
        · rw [hvalues, Option.or_none]
        · rw [hvalues, Option.or_self]
      rw [ih h (.inr hrecorded), hrecorded, ite_self, if_pos (by rw [heq]; exact List.mem_cons_self)]
    · rw [if_neg heq] at hfield
      rw [ih h (by rw [hfield]; exact hvalues), hfield]
      simp only [List.mem_cons, heq, false_or]

/-- A feature object has the family of its object, and the recorded values of the properties in the
schema. -/
theorem featureObject_ok {object : ModelObjectRef} {feature : FeatureObject}
    (h : featureObject services schema graph object = .ok feature) :
    feature.family = .family object.objectType ∧ ∀ field ∈ schema object.objectType,
      feature.properties.get? field = recordedValue services graph object field := by
  unfold featureObject at h
  obtain ⟨properties, hproperties, h⟩ := bind_eq_ok.mp h
  cases pure_eq_ok.mp h
  refine ⟨rfl, ?_⟩
  intro field hfield
  rw [foldlM_addFeatureProperty hproperties field (.inl (OrdMap.get?_empty field)), if_pos hfield]

/-- Whether the family of an object is selected. -/
def isSelected (selected : List ObjectTypeName) (object : ModelObjectRef) : Bool :=
  .family object.objectType ∈ selected

/-- The extraction records the visited objects of the selected families, in order. -/
theorem foldlM_collectFeature {selected : List ObjectTypeName} {objects : List ModelObjectRef}
    {start features : List FeatureObject}
    (h : objects.foldlM (collectFeature services schema graph selected) start = .ok features) :
    ∃ recorded, features = start ++ recorded
      ∧ List.Forall₂ (fun object feature => featureObject services schema graph object = .ok feature)
        (objects.filter (isSelected selected)) recorded := by
  induction objects generalizing start with
  | nil =>
    cases pure_eq_ok.mp h
    exact ⟨[], (List.append_nil _).symm, .nil⟩
  | cons object objects ih =>
    rw [List.foldlM_cons] at h
    obtain ⟨next, hnext, h⟩ := bind_eq_ok.mp h
    obtain ⟨recorded, hfeatures, hrecorded⟩ := ih h
    unfold collectFeature at hnext
    by_cases hselected : isSelected selected object = true
    · rw [if_pos (of_decide_eq_true hselected)] at hnext
      obtain ⟨feature, hfeature, hnext⟩ := bind_eq_ok.mp hnext
      cases pure_eq_ok.mp hnext
      rw [List.filter_cons_of_pos hselected]
      exact ⟨feature :: recorded, by rw [hfeatures, List.append_assoc]; rfl, .cons hfeature hrecorded⟩
    · rw [if_neg fun hmem => hselected (decide_eq_true hmem)] at hnext
      cases hnext
      rw [List.filter_cons_of_neg hselected]
      exact ⟨recorded, hfeatures, hrecorded⟩

/-! ### The selected families -/

theorem get?_familySet (families : List ObjectTypeName) (set : OrdMap String ObjectTypeName)
    (family : ObjectTypeName) :
    (families.foldl (fun (set : OrdMap String ObjectTypeName) family => set.insert family.text family)
      set).get? family.text = if family ∈ families then some family else set.get? family.text := by
  induction families generalizing set with
  | nil => rw [List.foldl_nil, if_neg List.not_mem_nil]
  | cons other families ih =>
    rw [List.foldl_cons, ih, OrdMap.get?_insert]
    by_cases heq : family = other
    · rw [heq, if_pos rfl, ite_self, if_pos List.mem_cons_self]
    · rw [if_neg fun htext => heq (ObjectTypeName.text_injective htext)]
      simp only [List.mem_cons, heq, false_or]

theorem mem_familySet {families : List ObjectTypeName} {family : ObjectTypeName}
    (h : family ∈ families) : family ∈ familySet families := by
  have hget := get?_familySet families OrdMap.empty family
  rw [if_pos h] at hget
  exact List.mem_map_of_mem (OrdMap.mem_entries_iff.mpr hget)

/-- The extraction for a policy selects the families of its rules. -/
theorem selectedFeatureFamilies_policy {selection : FeatureSelection} {policy : PolicySet}
    {selected : List ObjectTypeName} {rule : PolicyRule} (hrule : rule ∈ policy.rules)
    (hregistered : rule.family.isRegistered = true)
    (h : selectedFeatureFamilies (featureSelectionForTasks selection (some policy)) = .ok selected) :
    rule.family ∈ selected := by
  have hall : rule.family ∈ familySet (Family.all.map ObjectTypeName.family) := by
    apply mem_familySet
    cases hfamily : rule.family with
    | family found => exact List.mem_map_of_mem (Family.mem_all found)
    | unregistered name hname =>
      rw [hfamily] at hregistered
      cases hregistered
  cases selection with
  | none =>
    cases h
    exact hall
  | all =>
    cases h
    exact hall
  | families families =>
    unfold featureSelectionForTasks selectedFeatureFamilies at h
    dsimp only at h
    split at h
    · cases h
      exact mem_familySet (mem_familySet
        (List.mem_append_right families (List.mem_map_of_mem hrule)))
    · cases h

/-! ### The recorded objects -/

/-- The objects a feature extraction visits before the object limit ends it. -/
def extractedObjects (services : ModelServices) (document : ModelDocument)
    (limits : ResourceLimits) : List ModelObjectRef :=
  ((featureGraph services document limits).walk.visit limits.maxObjects walkRoots).result

/-- What an extraction records: the selected objects among those it visits. -/
theorem extractFeatures_ok {document : ModelDocument} {limits : ResourceLimits}
    {selection : FeatureSelection} {features : FeatureReport}
    (h : extractFeatures services schema document limits selection = .ok features) :
    ∃ selected, selectedFeatureFamilies selection = .ok selected
      ∧ List.Forall₂ (fun object feature => featureObject services schema
          (featureGraph services document limits) object = .ok feature)
        ((extractedObjects services document limits).filter (isSelected selected)) features.objects
      ∧ (features.truncated = false → ((featureGraph services document limits).walk.visit
          limits.maxObjects walkRoots).ending = .finished) := by
  unfold extractFeatures at h
  obtain ⟨selected, hselected, h⟩ := bind_eq_ok.mp h
  refine ⟨selected, hselected, ?_⟩
  have hrun := @Walk.Graph.run_eq_foldlM _ _ _ _ _ (featureGraph services document limits).walk
    limits.maxObjects (collectFeature services schema (featureGraph services document limits) selected)
    walkRoots []
  unfold extractedObjects
  cases hvisit : (featureGraph services document limits).walk.visit limits.maxObjects walkRoots with
  | mk objects count ending =>
    rw [hvisit] at hrun
    cases hfold : objects.foldlM (collectFeature services schema
        (featureGraph services document limits) selected) [] with
    | error e =>
      rw [hfold] at hrun
      dsimp only at hrun h
      split at h
      · rename_i heq
        rw [heq] at hrun
        cases hrun
      · rename_i heq
        rw [heq] at hrun
        cases hrun
      · cases h
    | ok recorded =>
      rw [hfold] at hrun
      dsimp only at hrun h
      obtain ⟨found, hfound, hrecorded⟩ := foldlM_collectFeature hfold
      rw [List.nil_append] at hfound
      cases hfound
      split at h
      · rename_i heq
        cases heq.symm.trans hrun
        cases h
        exact ⟨hrecorded, fun _ => rfl⟩
      · rename_i heq
        cases heq.symm.trans hrun
        split at h
        · cases h
          refine ⟨hrecorded, ?_⟩
          intro hfalse
          cases hfalse
        · cases h
      · cases h

/-- Whether an object is of the family of a rule. -/
def isOfFamily (rule : PolicyRule) (object : ModelObjectRef) : Bool :=
  .family object.objectType = rule.family

theorem recordedValues_eq {rule : PolicyRule} {objects : List ModelObjectRef}
    {features : List FeatureObject} (hfield : rule.family.hasProperty schema rule.field = true)
    (h : List.Forall₂ (fun object feature => featureObject services schema graph object = .ok feature)
      objects features) :
    (features.filter fun feature => feature.family = rule.family).filterMap
        (fun feature => feature.properties.get? rule.field)
      = (objects.filter (isOfFamily rule)).filterMap
        (fun object => recordedValue services graph object rule.field) := by
  induction h with
  | nil => rfl
  | @cons object feature objects features hfeature _ ih =>
    obtain ⟨hfamily, hget⟩ := featureObject_ok hfeature
    by_cases hof : isOfFamily rule object = true
    · have hrule : .family object.objectType = rule.family := of_decide_eq_true hof
      have hmem : rule.field ∈ schema object.objectType := by
        rw [← hrule] at hfield
        exact List.contains_iff_mem.mp hfield
      rw [List.filter_cons_of_pos hof, List.filter_cons_of_pos (by simp [hfamily, hrule]),
        List.filterMap_cons, List.filterMap_cons, hget rule.field hmem, ih]
    · have hne : ¬ feature.family = rule.family := by
        rw [hfamily]
        exact fun heq => hof (decide_eq_true heq)
      rw [List.filter_cons_of_neg hof, List.filter_cons_of_neg (by simp [hne]), ih]

/-- The values a rule is decided on: the recorded values of the field on the objects of the family
that the extraction visits. -/
theorem fieldValues_eq {document : ModelDocument} {limits : ResourceLimits}
    {selection : FeatureSelection} {policy : PolicySet} {rule : PolicyRule} {features : FeatureReport}
    (hrule : rule ∈ policy.rules) (hfield : rule.family.hasProperty schema rule.field = true)
    (h : extractFeatures services schema document limits
      (featureSelectionForTasks selection (some policy)) = .ok features) :
    ((features.matching rule).filterMap fun feature => feature.properties.get? rule.field)
      = ((extractedObjects services document limits).filter (isOfFamily rule)).filterMap
        fun object => recordedValue services (featureGraph services document limits) object rule.field := by
  obtain ⟨selected, hselected, hrecorded, -⟩ := extractFeatures_ok h
  have hregistered : rule.family.isRegistered = true := by
    cases hfamily : rule.family with
    | family found => rfl
    | unregistered name hname =>
      rw [hfamily] at hfield
      cases hfield
  have hmem := selectedFeatureFamilies_policy hrule hregistered hselected
  refine (recordedValues_eq hfield hrecorded).trans ?_
  rw [List.filter_filter]
  congr 1
  apply List.filter_congr
  intro object _
  by_cases hof : isOfFamily rule object = true
  · have hin : isSelected selected object = true := by
      apply decide_eq_true
      rw [of_decide_eq_true hof]
      exact hmem
    rw [hof, hin]
    rfl
  · rw [Bool.not_eq_true] at hof
    rw [hof]
    rfl

end Recorded

/-! ## Verdicts -/

section Verdicts

variable (services : ModelServices) (graph : ModelGraph) (rule : PolicyRule)

/-- The object has the field of the rule. -/
def HasField (object : ModelObjectRef) : Prop :=
  isOfFamily rule object = true ∧ ∃ value, services.property graph object rule.field = .ok value

/-- The object has a value of the field that the rule compares as equal, before redaction. -/
def HasMatch (expected : PolicyValue) (object : ModelObjectRef) : Prop :=
  isOfFamily rule object = true ∧ ∃ value, services.property graph object rule.field = .ok value
    ∧ policyValueMatches (.ofModel value) expected = true

/-- The object has exactly this string as the value of the field. -/
def HasString (text : BoundedText) (object : ModelObjectRef) : Prop :=
  isOfFamily rule object = true
    ∧ services.property graph object rule.field = .ok (.string text)

/-- The values a rule is decided on when these objects are visited. -/
def fieldValues (objects : List ModelObjectRef) : List FeatureValue :=
  (objects.filter (isOfFamily rule)).filterMap fun object =>
    recordedValue services graph object rule.field

/-- The verdict on a rule is the one on all objects of the document, and the end of an extraction
hides no violation. -/
structure DecidedOnDocument (objects : List ModelObjectRef) (truncated passed : Bool) : Prop where
  equals : rule.operator = .equals → ∀ text, rule.value = some (.string text) →
    (passed = true ↔ ∃ object ∈ objects, HasString services graph rule text object)
  notEquals : rule.operator = .notEquals → ∀ text, rule.value = some (.string text) →
    (passed = true ↔ ¬ ∃ object ∈ objects, HasString services graph rule text object)
  absentCut : truncated = true → rule.operator = .absent →
    (∃ object ∈ objects, HasField services graph rule object) → passed = false
  notEqualsCut : truncated = true → rule.operator = .notEquals → ∀ expected,
    rule.value = some expected → (∃ object ∈ objects, HasMatch services graph rule expected object) →
      passed = false

/-- If an object decides the rule, then one among the visited objects does, and its value is not
redacted. -/
def DecidedByVisited (visited objects : List ModelObjectRef) : Prop :=
  match rule.operator, rule.value with
  | .absent, _ => (∃ object ∈ objects, HasField services graph rule object) →
    ∃ object ∈ visited, HasField services graph rule object
  | .equals, some (.string text) | .notEquals, some (.string text) =>
    (∃ object ∈ objects, HasString services graph rule text object) →
      isSafeFeature rule.field = true ∧ ∃ object ∈ visited, HasString services graph rule text object
  | .notEquals, some expected => (∃ object ∈ objects, HasMatch services graph rule expected object) →
    ∃ object ∈ visited, HasMatch services graph rule expected object
  | _, _ => True

variable {services graph rule}

theorem hasMatch_string {text : BoundedText} {object : ModelObjectRef} :
    HasMatch services graph rule (.string text) object ↔ HasString services graph rule text object := by
  unfold HasMatch HasString
  apply and_congr_right
  intro _
  constructor
  · rintro ⟨value, hvalue, hmatch⟩
    cases value with
    | string actual =>
      have heq : actual = text := of_decide_eq_true hmatch
      rw [hvalue, heq]
    | null | bool _ | number _ | objectKey _ | list _ => cases hmatch
  · intro hvalue
    exact ⟨.string text, hvalue, decide_eq_true rfl⟩

/-- A recorded value matches when the value does, unless it is a redacted string. -/
theorem policyValueMatches_safe (field : PropertyName) (value : ModelValue) (expected : PolicyValue) :
    policyValueMatches (safeFeatureValue field value) expected = true
      ↔ policyValueMatches (.ofModel value) expected = true
        ∧ ∀ text, expected = .string text → isSafeFeature field = true := by
  cases value with
  | string actual =>
    simp only [safeFeatureValue, FeatureValue.ofModel]
    by_cases hsafe : isSafeFeature field = true
    · rw [if_pos hsafe]
      simp only [hsafe, implies_true, and_true]
    · rw [if_neg hsafe]
      cases expected with
      | string text => simp [policyValueMatches, hsafe]
      | bool _ => simp [policyValueMatches]
      | number _ => simp [policyValueMatches]
  | null => simp [safeFeatureValue, FeatureValue.ofModel, policyValueMatches]
  | bool actual => cases expected <;> simp [safeFeatureValue, FeatureValue.ofModel, policyValueMatches]
  | number actual =>
    cases expected <;> simp [safeFeatureValue, FeatureValue.ofModel, policyValueMatches]
  | objectKey key => simp [safeFeatureValue, FeatureValue.ofModel, policyValueMatches]
  | list values => simp [safeFeatureValue, FeatureValue.ofModel, policyValueMatches]

theorem mem_fieldValues {objects : List ModelObjectRef} {found : FeatureValue} :
    found ∈ fieldValues services graph rule objects ↔ ∃ object ∈ objects,
      isOfFamily rule object = true ∧ ∃ value, services.property graph object rule.field = .ok value
        ∧ found = safeFeatureValue rule.field value := by
  unfold fieldValues
  rw [List.mem_filterMap]
  constructor
  · rintro ⟨object, hobject, hrecorded⟩
    obtain ⟨hmem, hof⟩ := List.mem_filter.mp hobject
    unfold recordedValue at hrecorded
    split at hrecorded
    · rename_i value hvalue
      cases hrecorded
      exact ⟨object, hmem, hof, value, hvalue, rfl⟩
    · cases hrecorded
  · rintro ⟨object, hmem, hof, value, hvalue, rfl⟩
    refine ⟨object, List.mem_filter.mpr ⟨hmem, hof⟩, ?_⟩
    unfold recordedValue
    rw [hvalue]

theorem fieldValues_ne_nil {objects : List ModelObjectRef} :
    (fieldValues services graph rule objects).isEmpty = false
      ↔ ∃ object ∈ objects, HasField services graph rule object := by
  rw [List.isEmpty_eq_false_iff_exists_mem]
  constructor
  · rintro ⟨found, hfound⟩
    obtain ⟨object, hmem, hof, value, hvalue, -⟩ := mem_fieldValues.mp hfound
    exact ⟨object, hmem, hof, value, hvalue⟩
  · rintro ⟨object, hmem, hof, value, hvalue⟩
    exact ⟨_, mem_fieldValues.mpr ⟨object, hmem, hof, value, hvalue, rfl⟩⟩

/-- A visited value matches exactly when an object matches and strings of the field are kept. -/
theorem fieldValues_any {objects : List ModelObjectRef} {expected : PolicyValue} :
    ((fieldValues services graph rule objects).any fun actual =>
        policyValueMatches actual expected) = true
      ↔ (∀ text, expected = .string text → isSafeFeature rule.field = true)
        ∧ ∃ object ∈ objects, HasMatch services graph rule expected object := by
  rw [List.any_eq_true]
  constructor
  · rintro ⟨found, hfound, hmatch⟩
    obtain ⟨object, hmem, hof, value, hvalue, rfl⟩ := mem_fieldValues.mp hfound
    obtain ⟨hvalueMatch, hsafe⟩ := (policyValueMatches_safe _ _ _).mp hmatch
    exact ⟨hsafe, object, hmem, hof, value, hvalue, hvalueMatch⟩
  · rintro ⟨hsafe, object, hmem, hof, value, hvalue, hmatch⟩
    exact ⟨_, mem_fieldValues.mpr ⟨object, hmem, hof, value, hvalue, rfl⟩,
      (policyValueMatches_safe _ _ _).mpr ⟨hmatch, hsafe⟩⟩

section Decided

variable {visited objects : List ModelObjectRef} {truncated passed : Bool}

theorem decided_absent (hop : rule.operator = .absent) (hfull : truncated = false → visited = objects)
    (hpassed : passed = (fieldValues services graph rule visited).isEmpty) :
    DecidedOnDocument services graph rule objects truncated passed
      ↔ DecidedByVisited services graph rule visited objects := by
  unfold DecidedByVisited
  rw [hop]
  dsimp only
  constructor
  · intro h hfound
    cases htruncated : truncated with
    | false =>
      rw [hfull htruncated]
      exact hfound
    | true =>
      have hfailed := h.absentCut htruncated hop hfound
      rw [hpassed] at hfailed
      exact fieldValues_ne_nil.mp hfailed
  · intro h
    refine ⟨?_, ?_, ?_, ?_⟩
    · intro hequals
      rw [hop] at hequals
      cases hequals
    · intro hnotEquals
      rw [hop] at hnotEquals
      cases hnotEquals
    · intro _ _ hfound
      rw [hpassed]
      exact fieldValues_ne_nil.mpr (h hfound)
    · intro _ hnotEquals
      rw [hop] at hnotEquals
      cases hnotEquals

theorem decided_equals {expected : PolicyValue} (hop : rule.operator = .equals)
    (hvalue : rule.value = some expected) (hsub : ∀ object ∈ visited, object ∈ objects)
    (hpassed : passed = (fieldValues services graph rule visited).any fun actual =>
      policyValueMatches actual expected) :
    DecidedOnDocument services graph rule objects truncated passed
      ↔ DecidedByVisited services graph rule visited objects := by
  have hother : ∀ operator, rule.operator = operator → operator ≠ .equals → False := by
    intro operator hoperator hne
    exact hne (hoperator.symm.trans hop)
  have hverdict : passed = true ↔ (∀ text, expected = .string text → isSafeFeature rule.field = true)
      ∧ ∃ object ∈ visited, HasMatch services graph rule expected object := by
    rw [hpassed]
    exact fieldValues_any
  unfold DecidedByVisited
  rw [hop, hvalue]
  constructor
  · intro h
    cases expected with
    | string text =>
      intro hfound
      obtain ⟨hsafe, object, hmem, hmatch⟩ :=
        hverdict.mp ((h.equals hop text hvalue).mpr hfound)
      exact ⟨hsafe text rfl, object, hmem, hasMatch_string.mp hmatch⟩
    | bool _ | number _ => trivial
  · intro h
    refine ⟨?_, fun hnot => (hother _ hnot (by decide)).elim,
      fun _ habsent => (hother _ habsent (by decide)).elim,
      fun _ hnot => (hother _ hnot (by decide)).elim⟩
    intro _ text htext
    cases hvalue.symm.trans htext
    rw [hverdict]
    constructor
    · rintro ⟨-, object, hmem, hmatch⟩
      exact ⟨object, hsub object hmem, hasMatch_string.mp hmatch⟩
    · intro hfound
      obtain ⟨hsafe, object, hmem, hstring⟩ := h hfound
      exact ⟨fun _ _ => hsafe, object, hmem, hasMatch_string.mpr hstring⟩

theorem decided_notEquals {expected : PolicyValue} (hop : rule.operator = .notEquals)
    (hvalue : rule.value = some expected) (hsub : ∀ object ∈ visited, object ∈ objects)
    (hfull : truncated = false → visited = objects)
    (hpassed : passed = (fieldValues services graph rule visited).all fun actual =>
      !policyValueMatches actual expected) :
    DecidedOnDocument services graph rule objects truncated passed
      ↔ DecidedByVisited services graph rule visited objects := by
  have hother : ∀ operator, rule.operator = operator → operator ≠ .notEquals → False := by
    intro operator hoperator hne
    exact hne (hoperator.symm.trans hop)
  have hverdict : passed = false
      ↔ (∀ text, expected = .string text → isSafeFeature rule.field = true)
        ∧ ∃ object ∈ visited, HasMatch services graph rule expected object := by
    rw [hpassed, ← List.not_any_eq_all_not, Bool.not_eq_false']
    exact fieldValues_any
  unfold DecidedByVisited
  rw [hop, hvalue]
  constructor
  · intro h
    cases expected with
    | string text =>
      intro hfound
      have hfailed : passed = false := by
        rw [← Bool.not_eq_true]
        intro hpass
        exact (h.notEquals hop text hvalue).mp hpass hfound
      obtain ⟨hsafe, object, hmem, hmatch⟩ := hverdict.mp hfailed
      exact ⟨hsafe text rfl, object, hmem, hasMatch_string.mp hmatch⟩
    | bool _ | number _ =>
      intro hfound
      cases htruncated : truncated with
      | false =>
        rw [hfull htruncated]
        exact hfound
      | true => exact (hverdict.mp (h.notEqualsCut htruncated hop _ hvalue hfound)).2
  · intro h
    refine ⟨fun hequals => (hother _ hequals (by decide)).elim, ?_,
      fun _ habsent => (hother _ habsent (by decide)).elim, ?_⟩
    · intro _ text htext
      cases hvalue.symm.trans htext
      rw [← not_iff_not, not_not, Bool.not_eq_true, hverdict]
      constructor
      · rintro ⟨-, object, hmem, hmatch⟩
        exact ⟨object, hsub object hmem, hasMatch_string.mp hmatch⟩
      · intro hfound
        obtain ⟨hsafe, object, hmem, hstring⟩ := h hfound
        exact ⟨fun _ _ => hsafe, object, hmem, hasMatch_string.mpr hstring⟩
    · intro _ _ other hother hfound
      cases hvalue.symm.trans hother
      rw [hverdict]
      cases expected with
      | string text =>
        obtain ⟨object, hmem, hmatch⟩ := hfound
        obtain ⟨hsafe, seen, hseen, hstring⟩ := h ⟨object, hmem, hasMatch_string.mp hmatch⟩
        exact ⟨fun _ _ => hsafe, seen, hseen, hasMatch_string.mpr hstring⟩
      | bool _ | number _ =>
        refine ⟨?_, h hfound⟩
        intro text htext
        cases htext

/-- The other operators are not concerned. -/
theorem decided_other (hother : rule.operator = .exists ∨ rule.operator = .min
      ∨ rule.operator = .max) :
    DecidedOnDocument services graph rule objects truncated passed
      ↔ DecidedByVisited services graph rule visited objects := by
  have hvisited : DecidedByVisited services graph rule visited objects := by
    unfold DecidedByVisited
    rcases hother with hop | hop | hop <;> rw [hop] <;> trivial
  have hne : ∀ operator, rule.operator = operator → operator = .exists ∨ operator = .min
      ∨ operator = .max := by
    intro operator hoperator
    rwa [hoperator] at hother
  refine iff_of_true ⟨fun h => ?_, fun h => ?_, fun _ h => ?_, fun _ h => ?_⟩ hvisited
  all_goals simpa using hne _ h

end Decided

/-- Every rule of an accepted policy was checked. -/
theorem checkPolicyRule_of_mem {schema : PropertySchema} {rules : List PolicyRule}
    (h : rules.forM (checkPolicyRule schema) = .ok ()) (hrule : rule ∈ rules) :
    checkPolicyRule schema rule = .ok () := by
  induction rules with
  | nil => cases hrule
  | cons first rules ih =>
    have h : (checkPolicyRule schema first >>= fun _ => rules.forM (checkPolicyRule schema))
        = .ok () := h
    obtain ⟨_, hfirst, h⟩ := bind_eq_ok.mp h
    rcases List.mem_cons.mp hrule with rfl | hrule
    · exact hfirst
    · exact ih h hrule

theorem evaluatePolicyRule_ok {features : FeatureReport} {result : PolicyRuleResult}
    (h : evaluatePolicyRule rule features = .ok result) :
    policyVerdict rule ((features.matching rule).filterMap fun object =>
      object.properties.get? rule.field) = .ok result.passed := by
  unfold evaluatePolicyRule at h
  obtain ⟨passed, hpassed, h⟩ := bind_eq_ok.mp h
  obtain ⟨message, -, h⟩ := bind_eq_ok.mp h
  cases pure_eq_ok.mp h
  exact hpassed

theorem requiredPolicyValue_ok {expected : PolicyValue} (h : requiredPolicyValue rule = .ok expected) :
    rule.value = some expected := by
  unfold requiredPolicyValue at h
  split at h
  · rename_i value hvalue
    cases h
    exact hvalue
  · cases h

/-- The verdict of a rule is decided on the document exactly when an object that decides it, if the
document has one, is among the objects visited before the object limit, and a string that decides it
is a value of a property whose strings are kept. -/
theorem evaluatePolicyRule_decided_iff (services : ModelServices) (schema : PropertySchema)
    (document : ModelDocument) (limits : ResourceLimits) (selection : FeatureSelection)
    (policy : PolicySet) (rule : PolicyRule) (features : FeatureReport) (result : PolicyRuleResult)
    (maxObjects : Nat) (objects : List ModelObjectRef)
    (hpolicy : validatePolicySchema schema policy = .ok ()) (hrule : rule ∈ policy.rules)
    (hfeatures : extractFeatures services schema document limits
      (featureSelectionForTasks selection (some policy)) = .ok features)
    (hresult : evaluatePolicyRule rule features = .ok result)
    (hmax : limits.maxObjects ≤ maxObjects)
    (hall : ((featureGraph services document limits).withObjects maxObjects).visitedObjects
      = .ok objects) :
    DecidedOnDocument services (featureGraph services document limits) rule objects
        features.truncated result.passed
      ↔ DecidedByVisited services (featureGraph services document limits) rule
        (extractedObjects services document limits) objects := by
  have hcheck := checkPolicyRule_of_mem hpolicy hrule
  unfold checkPolicyRule at hcheck
  obtain ⟨_, -, hcheck⟩ := bind_eq_ok.mp hcheck
  obtain ⟨_, hfield, -⟩ := bind_eq_ok.mp hcheck
  have hfield : rule.family.hasProperty schema rule.field = true := by
    simpa using failIf_eq_ok.mp hfield
  obtain ⟨hinitial, hcomplete⟩ := @visit_initial (featureGraph services document limits) _ _ hmax hall
  have hsub : ∀ object ∈ extractedObjects services document limits, object ∈ objects :=
    fun object hobject => hinitial.subset hobject
  have hfull : features.truncated = false → extractedObjects services document limits = objects := by
    intro huncut
    obtain ⟨_, -, -, hfinished⟩ := extractFeatures_ok hfeatures
    exact hcomplete (hfinished huncut)
  have hverdict := evaluatePolicyRule_ok hresult
  rw [fieldValues_eq hrule hfield hfeatures] at hverdict
  unfold policyVerdict at hverdict
  by_cases hother : rule.operator = .exists ∨ rule.operator = .min ∨ rule.operator = .max
  · exact decided_other hother
  · cases hop : rule.operator with
    | absent =>
      rw [hop] at hverdict
      have hpassed : result.passed = _ := (Except.ok.inj hverdict).symm
      exact decided_absent hop hfull hpassed
    | equals =>
      rw [hop] at hverdict
      obtain ⟨expected, hvalue, hverdict⟩ := bind_eq_ok.mp hverdict
      exact decided_equals hop (requiredPolicyValue_ok hvalue) hsub (pure_eq_ok.mp hverdict).symm
    | notEquals =>
      rw [hop] at hverdict
      obtain ⟨expected, hvalue, hverdict⟩ := bind_eq_ok.mp hverdict
      exact decided_notEquals hop (requiredPolicyValue_ok hvalue) hsub hfull
        (pure_eq_ok.mp hverdict).symm
    | _ => simp [hop] at hother

end Verdicts

/-! ### A redacted title -/

/-- A document whose information dictionary has a title. -/
def draftSource : Bytes :=
  utf8 ("%PDF-1.7\n1 0 obj<</Type/Catalog>>endobj\n2 0 obj<</Title(Draft)>>endobj\n"
    ++ "trailer<</Root 1 0 R/Info 2 0 R>>\n%%EOF")

/-- The title in the information dictionary of the document. -/
def documentTitle (document : ModelDocument) : ModelValue :=
  match document.trailers.getLast?.bind fun trailer => trailer.dictionary.get "Info" with
  | some (.reference key) =>
    match (document.pageDictionary key).bind fun info => info.get "Title" with
    | some ⟨_, .string value⟩ => .string ⟨utf8Lossy value.bytes⟩
    | _ => .null
  | _ => .null

/-- Services that know the title of a document. -/
def titleServices : ModelServices :=
  { ModelServices.unused with
    property := fun graph object property =>
      if object.objectType = .document ∧ property = "Title" then .ok (documentTitle graph.document)
      else .error (.profile (.unknownProperty ⟨property⟩)) }

/-- The title is a property of documents. -/
def titleSchema : PropertySchema :=
  fun family => if family = .document then ["Title"] else []

/-- The rule that the title is `Draft`. -/
def titleRule : PolicyRule :=
  ⟨⟨"title"⟩, ⟨"title"⟩, .family .document, "Title", .equals, some (.string ⟨"Draft"⟩)⟩

/-- Whether an object has the title `Draft`. -/
def hasDraftTitle (graph : ModelGraph) (object : ModelObjectRef) : Bool :=
  isOfFamily titleRule object && match titleServices.property graph object titleRule.field with
    | .ok (.string title) => title = ⟨"Draft"⟩
    | _ => false

theorem hasDraftTitle_iff {graph : ModelGraph} {object : ModelObjectRef} :
    hasDraftTitle graph object = true
      ↔ HasString titleServices graph titleRule ⟨"Draft"⟩ object := by
  unfold hasDraftTitle HasString
  rw [Bool.and_eq_true]
  apply and_congr_right
  intro _
  constructor
  · intro h
    split at h
    · rename_i title htitle
      rw [htitle, of_decide_eq_true h]
    · cases h
  · intro h
    rw [h]
    exact decide_eq_true rfl

/-- The run of the policy on `draftSource`: the rule fails, and the document has the title. -/
theorem titleRule_run :
    (match Parser.parse ⟨{}, none⟩ Crates.unused draftSource with
      | .ok doc =>
        match extractFeatures titleServices titleSchema doc.model {}
            (featureSelectionForTasks .none (some ⟨none, [titleRule]⟩)),
          (featureGraph titleServices doc.model {}).visitedObjects with
        | .ok features, .ok objects =>
          match evaluatePolicyRule titleRule features with
          | .ok result => !result.passed && !features.truncated
            && objects.any (hasDraftTitle (featureGraph titleServices doc.model {}))
          | .error _ => false
        | _, _ => false
      | .error _ => false) = true := by
  have hbytes := draftSource.eq_def
  simp only [utf8_append] at hbytes
  repeat rw [utf8_ofList] at hbytes
  rw [hbytes]
  decide +kernel

/-- The values of the run. -/
theorem titleRule_values :
    ∃ doc features result objects, Parser.parse ⟨{}, none⟩ Crates.unused draftSource = .ok doc
      ∧ extractFeatures titleServices titleSchema doc.model {}
        (featureSelectionForTasks .none (some ⟨none, [titleRule]⟩)) = .ok features
      ∧ evaluatePolicyRule titleRule features = .ok result
      ∧ (featureGraph titleServices doc.model {}).visitedObjects = .ok objects
      ∧ result.passed = false ∧ features.truncated = false
      ∧ ∃ object ∈ objects, HasString titleServices (featureGraph titleServices doc.model {}) titleRule
        ⟨"Draft"⟩ object := by
  have hrun := titleRule_run
  cases hparse : Parser.parse ⟨{}, none⟩ Crates.unused draftSource with
  | error e =>
    rw [hparse] at hrun
    cases hrun
  | ok doc =>
    rw [hparse] at hrun
    dsimp only at hrun
    split at hrun
    · rename_i features objects hfeatures hobjects
      split at hrun
      · rename_i result hresult
        simp only [Bool.and_eq_true, Bool.not_eq_true', List.any_eq_true] at hrun
        obtain ⟨⟨hpassed, htruncated⟩, object, hmem, htitle⟩ := hrun
        exact ⟨doc, features, result, objects, rfl, hfeatures, hresult, hobjects, hpassed, htruncated,
          object, hmem, hasDraftTitle_iff.mp htitle⟩
      · cases hrun
    · cases hrun

theorem titleSchema_accepts :
    validatePolicySchema titleSchema ⟨none, [titleRule]⟩ = .ok () := by
  decide +kernel

/-- The title of the document is `Draft`, the extraction is complete, and the rule that asks for
that title fails: the title was redacted. -/
theorem evaluatePolicyRule_redacted_counterexample :
    ∃ doc features result objects, Parser.parse ⟨{}, none⟩ Crates.unused draftSource = .ok doc
      ∧ validatePolicySchema titleSchema ⟨none, [titleRule]⟩ = .ok ()
      ∧ extractFeatures titleServices titleSchema doc.model {}
        (featureSelectionForTasks .none (some ⟨none, [titleRule]⟩)) = .ok features
      ∧ evaluatePolicyRule titleRule features = .ok result
      ∧ (featureGraph titleServices doc.model {}).visitedObjects = .ok objects
      ∧ ¬ DecidedOnDocument titleServices (featureGraph titleServices doc.model {}) titleRule objects
        features.truncated result.passed := by
  obtain ⟨doc, features, result, objects, hparse, hfeatures, hresult, hobjects, hpassed, -, hfound⟩ :=
    titleRule_values
  refine ⟨doc, features, result, objects, hparse, titleSchema_accepts, hfeatures, hresult, hobjects,
    ?_⟩
  intro hdecided
  have htrue := (hdecided.equals rfl ⟨"Draft"⟩ rfl).mpr hfound
  rw [hpassed] at htrue
  cases htrue

/-- The theorem on that run: the title is an object of the traversal, and its strings are not kept. -/
theorem evaluatePolicyRule_decided_iff_title :
    ∃ doc features result objects, Parser.parse ⟨{}, none⟩ Crates.unused draftSource = .ok doc
      ∧ evaluatePolicyRule titleRule features = .ok result
      ∧ (DecidedOnDocument titleServices (featureGraph titleServices doc.model {}) titleRule objects
          features.truncated result.passed
        ↔ DecidedByVisited titleServices (featureGraph titleServices doc.model {}) titleRule
          (extractedObjects titleServices doc.model {}) objects) := by
  obtain ⟨doc, features, result, objects, hparse, hfeatures, hresult, hobjects, -⟩ := titleRule_values
  exact ⟨doc, features, result, objects, hparse, hresult,
    evaluatePolicyRule_decided_iff titleServices titleSchema doc.model {} .none ⟨none, [titleRule]⟩
      titleRule features result _ objects titleSchema_accepts List.mem_cons_self hfeatures hresult
      (Nat.le_refl _) hobjects⟩

end Pdfv
