import Pdfv.Validation.Features
import Pdfv.Profile.XmlImport
/-!
# Schema checks of imported rules

`apply_model_schema_checks` looks every property path of a rule up in the registry before the rule may
run: each link in the schema of the family the links before it lead to, the property in the schema of
the last family. A rule with a path that does not bind becomes unsupported. The evaluator then follows
the links from object to object; on the objects of the rule's own type it only meets families on which
the registry found the next name (`applyModelSchemaChecks_typed`).
-/

namespace Pdfv

open Fallible

/-! ## Paths in the registry -/

mutual

/-- `collect_property_paths`. -/
def propertyPaths : RuleExpr → List PropertyPath
  | .property path => [path]
  | .unary _ expr => propertyPaths expr
  | .binary _ left right => propertyPaths left ++ propertyPaths right
  | .conditional condition whenTrue whenFalse =>
    propertyPaths condition ++ propertyPaths whenTrue ++ propertyPaths whenFalse
  | .call _ args => argumentPaths args
  | .bool _ | .number _ | .string _ | .null | .unsupported _ _ => []

/-- `collect_property_paths` on the arguments of a call. -/
def argumentPaths : List RuleExpr → List PropertyPath
  | [] => []
  | arg :: rest => propertyPaths arg ++ argumentPaths rest

end

/-- `ModelRegistry::link_target`, on the name of a type. -/
def ObjectTypeName.target : ObjectTypeName → PropertyName → Option ObjectTypeName
  | .family found, link => (linkTarget found link).map .family
  | .unregistered _ _, _ => none

/-- The loop of `unsupported_property_path_reason` and the lookup after it. -/
def unboundReason (schema : PropertySchema) (terminal : PropertyName) :
    ObjectTypeName → List PropertyName → Option String
  | family, [] =>
    if family.hasProperty schema terminal then none
    else some s!"unknown validation model property {terminal} on {family.text}"
  | family, link :: links =>
    match family.target link with
    | none => some s!"unknown validation model link {link} on {family.text}"
    | some target => unboundReason schema terminal target links

/-- `unsupported_property_path_reason`. -/
def unsupportedPropertyPathReason (schema : PropertySchema) (objectType : ObjectTypeName)
    (path : PropertyPath) : Except PdfvError (Option BoundedText) :=
  match path.getLast? with
  | none => .ok (some ⟨"empty model property path"⟩)
  | some terminal =>
    match unboundReason schema terminal objectType path.dropLast with
    | none => .ok none
    | some reason => (BoundedText.new reason 512).map some

/-- The loop of `unsupported_property_reason`: the first path with a reason decides. -/
def firstUnsupported (schema : PropertySchema) (objectType : ObjectTypeName) :
    List PropertyPath → Except PdfvError (Option BoundedText)
  | [] => .ok none
  | path :: rest => do
    match ← unsupportedPropertyPathReason schema objectType path with
    | some reason => return some reason
    | none => firstUnsupported schema objectType rest

/-- `unsupported_property_reason`. -/
def unsupportedPropertyReason (schema : PropertySchema) (objectType : ObjectTypeName)
    (expr : RuleExpr) : Except PdfvError (Option BoundedText) :=
  firstUnsupported schema objectType (propertyPaths expr)

/-! ## The checks of a profile -/

/-- The reason for which a lowered rule is not supported. -/
def ruleReason (schema : PropertySchema) (rule : Rule) : Except PdfvError (Option BoundedText) :=
  if rule.objectType.isRegistered then
    unsupportedPropertyReason schema rule.objectType rule.test
  else
    (BoundedText.new s!"unknown validation model family {rule.objectType.text}" 512).map some

/-- The debug text of a test, when it is not too long. -/
def testFragment (debugExpr : RuleExpr → String) (test : RuleExpr) : BoundedText :=
  match BoundedText.new (debugExpr test) maxProfileStringBytes with
  | .ok fragment => fragment
  | .error _ => ⟨"rule expression exceeds limit"⟩

/-- The rule that one turn of `apply_model_schema_checks` leaves behind. -/
def schemaCheckedRule (schema : PropertySchema) (debugExpr : RuleExpr → String) (rule : Rule) :
    Except PdfvError Rule :=
  if rule.test.isUnsupported then .ok rule
  else do
    match ← ruleReason schema rule with
    | some reason => return { rule with test := .unsupported (testFragment debugExpr rule.test) reason }
    | none => return rule

/-- The rules checked so far, with the numbers of those that are supported and of those that are not. -/
structure SchemaCheckState where
  rules : List Rule
  supported : Nat
  unsupported : Nat

/-- One turn of the loop of `apply_model_schema_checks`. -/
def SchemaCheckState.step (schema : PropertySchema) (debugExpr : RuleExpr → String)
    (s : SchemaCheckState) (rule : Rule) : Except PdfvError SchemaCheckState := do
  let checked ← schemaCheckedRule schema debugExpr rule
  if checked.test.isUnsupported then
    return { s with rules := s.rules ++ [checked], unsupported := saturateU64 (s.unsupported + 1) }
  else
    return { s with rules := s.rules ++ [checked], supported := saturateU64 (s.supported + 1) }

/-- `apply_model_schema_checks`. -/
def applyModelSchemaChecks (schema : PropertySchema) (debugExpr : RuleExpr → String)
    (summary : ProfileImportSummary) : Except PdfvError ProfileImportSummary := do
  let s ← summary.profile.rules.foldlM (SchemaCheckState.step schema debugExpr) ⟨[], 0, 0⟩
  return {
    profile := { summary.profile with rules := s.rules }
    supportedRules := s.supported
    unsupportedRules := s.unsupported }

/-! ## What a path that binds reaches -/

/-- The family that the links of a path lead to. -/
def linkFamily : ObjectTypeName → List PropertyName → Option ObjectTypeName
  | family, [] => some family
  | family, link :: links => (family.target link).bind fun target => linkFamily target links

/-- The registry knows every link of the path and the property at its end. -/
def PathBinds (schema : PropertySchema) (objectType : ObjectTypeName) (path : PropertyPath) : Prop :=
  ∃ terminal family, path.getLast? = some terminal ∧ linkFamily objectType path.dropLast = some family
    ∧ family.hasProperty schema terminal = true

theorem unboundReason_none {schema : PropertySchema} {terminal : PropertyName}
    {links : List PropertyName} {objectType : ObjectTypeName} :
    unboundReason schema terminal objectType links = none
      ↔ ∃ family, linkFamily objectType links = some family
        ∧ family.hasProperty schema terminal = true := by
  induction links generalizing objectType with
  | nil =>
    unfold unboundReason linkFamily
    by_cases hproperty : objectType.hasProperty schema terminal = true
    · rw [if_pos hproperty]
      exact iff_of_true rfl ⟨objectType, rfl, hproperty⟩
    · rw [if_neg hproperty]
      refine iff_of_false nofun ?_
      rintro ⟨family, heq, hfound⟩
      cases heq
      exact hproperty hfound
  | cons link links ih =>
    unfold unboundReason linkFamily
    cases objectType.target link with
    | none => exact iff_of_false nofun fun ⟨_, h, _⟩ => by cases h
    | some target => exact ih

theorem unsupportedPropertyPathReason_none {schema : PropertySchema} {objectType : ObjectTypeName}
    {path : PropertyPath} {found : Option BoundedText}
    (h : unsupportedPropertyPathReason schema objectType path = .ok found) :
    found = none ↔ PathBinds schema objectType path := by
  unfold unsupportedPropertyPathReason at h
  unfold PathBinds
  cases hlast : path.getLast? with
  | none =>
    rw [hlast] at h
    cases h
    exact iff_of_false nofun fun ⟨_, _, h, _⟩ => by cases h
  | some terminal =>
    rw [hlast] at h
    dsimp only at h
    have hbinds : (∃ name family, some terminal = some name
        ∧ linkFamily objectType path.dropLast = some family
        ∧ family.hasProperty schema name = true)
        ↔ unboundReason schema terminal objectType path.dropLast = none := by
      rw [unboundReason_none]
      constructor
      · rintro ⟨name, family, heq, hfound⟩
        cases heq
        exact ⟨family, hfound⟩
      · rintro ⟨family, hfound⟩
        exact ⟨terminal, family, rfl, hfound⟩
    rw [hbinds]
    cases hreason : unboundReason schema terminal objectType path.dropLast with
    | none =>
      rw [hreason] at h
      cases h
      exact iff_of_true rfl rfl
    | some reason =>
      rw [hreason] at h
      dsimp only at h
      cases hnew : BoundedText.new reason 512 with
      | error e =>
        rw [hnew] at h
        cases h
      | ok text =>
        rw [hnew] at h
        cases h
        exact iff_of_false nofun nofun

theorem firstUnsupported_none {schema : PropertySchema} {objectType : ObjectTypeName}
    {paths : List PropertyPath} {found : Option BoundedText}
    (h : firstUnsupported schema objectType paths = .ok found) :
    found = none ↔ ∀ path ∈ paths, PathBinds schema objectType path := by
  induction paths with
  | nil =>
    cases h
    exact iff_of_true rfl nofun
  | cons path rest ih =>
    unfold firstUnsupported at h
    obtain ⟨first, hfirst, h⟩ := bind_eq_ok.mp h
    have hbinds := unsupportedPropertyPathReason_none hfirst
    rw [List.forall_mem_cons, ← hbinds]
    cases first with
    | some reason =>
      cases h
      exact iff_of_false nofun fun h => nomatch h.1
    | none => rw [ih h, eq_self_iff_true, true_and]

/-! ## What the checks make of the rules -/

/-- What the checks make of a rule: a rule that may run has only paths that bind, and one that may not
run any more has one that does not bind, or a type that is not registered. -/
inductive SchemaChecked (schema : PropertySchema) (debugExpr : RuleExpr → String) (rule : Rule) :
    Rule → Prop where
  | skipped (h : rule.test.isUnsupported = true) : SchemaChecked schema debugExpr rule rule
  | bound (h : rule.test.isUnsupported = false) (registered : rule.objectType.isRegistered = true)
    (binds : ∀ path ∈ propertyPaths rule.test, PathBinds schema rule.objectType path) :
    SchemaChecked schema debugExpr rule rule
  | unbound (h : rule.test.isUnsupported = false) (reason : BoundedText)
    (breaks : rule.objectType.isRegistered = true →
      ∃ path ∈ propertyPaths rule.test, ¬ PathBinds schema rule.objectType path) :
    SchemaChecked schema debugExpr rule
      { rule with test := .unsupported (testFragment debugExpr rule.test) reason }

theorem schemaCheckedRule_checked {schema : PropertySchema} {debugExpr : RuleExpr → String}
    {rule checked : Rule} (h : schemaCheckedRule schema debugExpr rule = .ok checked) :
    SchemaChecked schema debugExpr rule checked := by
  unfold schemaCheckedRule at h
  cases hunsupported : rule.test.isUnsupported with
  | true =>
    rw [hunsupported, if_pos rfl] at h
    cases h
    exact .skipped hunsupported
  | false =>
    rw [hunsupported, if_neg Bool.false_ne_true] at h
    obtain ⟨found, hfound, h⟩ := bind_eq_ok.mp h
    have hbinds : rule.objectType.isRegistered = true →
        (found = none ↔ ∀ path ∈ propertyPaths rule.test, PathBinds schema rule.objectType path) := by
      intro hregistered
      unfold ruleReason at hfound
      rw [if_pos hregistered] at hfound
      exact firstUnsupported_none hfound
    cases found with
    | some reason =>
      cases h
      refine .unbound hunsupported reason fun hregistered => ?_
      have hnot := mt (hbinds hregistered).mpr nofun
      push Not at hnot
      exact hnot
    | none =>
      cases h
      have hregistered : rule.objectType.isRegistered = true := by
        by_contra hnot
        unfold ruleReason at hfound
        rw [if_neg hnot] at hfound
        cases hnew : BoundedText.new s!"unknown validation model family {rule.objectType.text}" 512 with
        | error e =>
          rw [hnew] at hfound
          cases hfound
        | ok text =>
          rw [hnew] at hfound
          cases hfound
      exact .bound hunsupported hregistered ((hbinds hregistered).mp rfl)

/-- The checks of some rules, and the counts of what came out. -/
structure SchemaCheckState.Counted (schema : PropertySchema) (debugExpr : RuleExpr → String)
    (rules : List Rule) (s : SchemaCheckState) : Prop where
  rules : List.Forall₂ (SchemaChecked schema debugExpr) rules s.rules
  supported : s.supported = saturateU64 (s.rules.countP fun rule => !rule.test.isUnsupported)
  unsupported : s.unsupported = saturateU64 (s.rules.countP fun rule => rule.test.isUnsupported)

theorem SchemaCheckState.Counted.step {schema : PropertySchema} {debugExpr : RuleExpr → String}
    {rules : List Rule} {s s' : SchemaCheckState} (hs : s.Counted schema debugExpr rules) {rule : Rule}
    (h : s.step schema debugExpr rule = .ok s') : s'.Counted schema debugExpr (rules ++ [rule]) := by
  obtain ⟨checked, hchecked, h⟩ := bind_eq_ok.mp h
  have hrules : List.Forall₂ (SchemaChecked schema debugExpr) (rules ++ [rule])
      (s.rules ++ [checked]) :=
    List.rel_append hs.rules (.cons (schemaCheckedRule_checked hchecked) .nil)
  by_cases hunsupported : checked.test.isUnsupported = true
  · rw [if_pos hunsupported] at h
    cases h
    refine ⟨hrules, ?_, ?_⟩
    · simp [hs.supported, List.countP_append, hunsupported]
    · simp [hs.unsupported, List.countP_append, hunsupported, saturateU64_add]
  · rw [if_neg hunsupported] at h
    cases h
    refine ⟨hrules, ?_, ?_⟩
    · simp [hs.supported, List.countP_append, hunsupported, saturateU64_add]
    · simp [hs.unsupported, List.countP_append, hunsupported]

theorem SchemaCheckState.Counted.run {schema : PropertySchema} {debugExpr : RuleExpr → String}
    {before rules : List Rule} {s s' : SchemaCheckState} (hs : s.Counted schema debugExpr before)
    (h : rules.foldlM (SchemaCheckState.step schema debugExpr) s = .ok s') :
    s'.Counted schema debugExpr (before ++ rules) := by
  induction rules generalizing before s with
  | nil =>
    cases h
    rw [List.append_nil]
    exact hs
  | cons rule rules ih =>
    obtain ⟨next, hnext, hrest⟩ := bind_eq_ok.mp (List.foldlM_cons.symm.trans h)
    have hall := ih (hs.step hnext) hrest
    rwa [List.append_assoc] at hall

/-! ## Following a path that binds -/

section Following

variable {graph : ModelGraph}

/-- The objects of one link have its target family. -/
theorem followLink_target {link : PropertyName} {candidate : ModelObjectRef}
    {linked : List ModelObjectRef} (h : followLink graph link candidate = .ok linked) :
    ∃ target, linkTarget candidate.objectType link = some target
      ∧ ∀ o ∈ linked, o.objectType = target := by
  unfold followLink at h
  cases htarget : linkTarget candidate.objectType link with
  | none =>
    rw [htarget] at h
    obtain ⟨_, -, h⟩ := bind_eq_ok.mp h
    cases h
  | some target =>
    rw [htarget] at h
    dsimp only at h
    split at h
    · obtain ⟨all, -, h⟩ := bind_eq_ok.mp h
      cases h
      refine ⟨target, rfl, fun o ho => ?_⟩
      exact of_decide_eq_true (List.mem_filter.mp ho).2
    · obtain ⟨_, -, h⟩ := bind_eq_ok.mp h
      cases h

/-- One link after the other, the reached objects have the family of the registry. -/
theorem followLinks_family {family : Family} {links : List PropertyName}
    {current reached : List ModelObjectRef} (hcurrent : ∀ o ∈ current, o.objectType = family)
    {last : ObjectTypeName} (hlinks : linkFamily (.family family) links = some last)
    (h : followLinks graph current links = .ok reached) :
    ∀ o ∈ reached, .family o.objectType = last := by
  induction links generalizing current family with
  | nil =>
    cases h
    cases hlinks
    intro o ho
    rw [hcurrent o ho]
  | cons link links ih =>
    obtain ⟨next, hnext, hrest⟩ := bind_eq_ok.mp (List.foldlM_cons.symm.trans h)
    obtain ⟨rows, hrows, hnext⟩ := bind_eq_ok.mp hnext
    obtain ⟨_, -, hnext⟩ := bind_eq_ok.mp hnext
    cases hnext
    obtain ⟨target, htarget, hlinks⟩ := Option.bind_eq_some_iff.mp hlinks
    obtain ⟨found, hfound, rfl⟩ := Option.map_eq_some_iff.mp htarget
    have hnext : ∀ o ∈ rows.flatten, o.objectType = found := by
      intro o ho
      obtain ⟨row, hrow, ho⟩ := List.mem_flatten.mp ho
      obtain ⟨candidate, hcandidate, hlinked⟩ := mem_mapM_ok hrows hrow
      obtain ⟨target, htarget, hall⟩ := followLink_target hlinked
      rw [hcurrent candidate hcandidate, hfound] at htarget
      cases htarget
      exact hall o ho
    exact ih hnext hlinks hrest

/-- The families after a part of the links and after one link more. -/
theorem linkFamily_split {objectType last : ObjectTypeName} {before after : List PropertyName}
    {link : PropertyName} (h : linkFamily objectType (before ++ link :: after) = some last) :
    ∃ mid target, linkFamily objectType before = some mid ∧ mid.target link = some target := by
  induction before generalizing objectType with
  | nil =>
    obtain ⟨target, htarget, -⟩ := Option.bind_eq_some_iff.mp h
    exact ⟨objectType, target, rfl, htarget⟩
  | cons first before ih =>
    obtain ⟨next, hnext, hrest⟩ := Option.bind_eq_some_iff.mp h
    obtain ⟨mid, target, hmid, htarget⟩ := ih hrest
    exact ⟨mid, target, Option.bind_eq_some_iff.mpr ⟨next, hnext, hmid⟩, htarget⟩

/-- On an object the evaluator finds every link of the path in the registry, and the property at its
end among those of the families that it reaches. -/
structure RunsTyped (schema : PropertySchema) (graph : ModelGraph) (object : ModelObjectRef)
    (path : PropertyPath) : Prop where
  links : ∀ before link after reached, path.dropLast = before ++ link :: after →
    followLinks graph [object] before = .ok reached →
      ∀ o ∈ reached, (linkTarget o.objectType link).isSome = true
  terminal : ∀ reached, followLinks graph [object] path.dropLast = .ok reached →
    ∃ terminal, path.getLast? = some terminal ∧ ∀ o ∈ reached, terminal ∈ schema o.objectType

theorem ObjectTypeName.mem_of_hasProperty {schema : PropertySchema} {property : PropertyName}
    {family : Family} (h : (ObjectTypeName.family family).hasProperty schema property = true) :
    property ∈ schema family :=
  List.contains_iff_mem.mp h

/-- A path that binds runs typed on the objects of the type it binds from. -/
theorem PathBinds.runsTyped {schema : PropertySchema} {objectType : ObjectTypeName}
    {path : PropertyPath} (h : PathBinds schema objectType path) {object : ModelObjectRef}
    (hobject : .family object.objectType = objectType) : RunsTyped schema graph object path := by
  obtain ⟨terminal, family, hterminal, hlinks, hproperty⟩ := h
  subst hobject
  have hself : ∀ o ∈ [object], o.objectType = object.objectType := by
    intro o ho
    rw [List.mem_singleton.mp ho]
  refine ⟨fun before link after reached heq hreached o ho => ?_, fun reached hreached => ?_⟩
  · rw [heq] at hlinks
    obtain ⟨mid, target, hmid, htarget⟩ := linkFamily_split hlinks
    rw [← followLinks_family hself hmid hreached o ho] at htarget
    obtain ⟨found, hfound, -⟩ := Option.map_eq_some_iff.mp htarget
    rw [hfound]
    rfl
  · refine ⟨terminal, hterminal, fun o ho => ?_⟩
    rw [← followLinks_family hself hlinks hreached o ho] at hproperty
    exact ObjectTypeName.mem_of_hasProperty hproperty

end Following

/-! ## Families that are materialised -/

theorem mem_pathLinkTargets {before after : List PropertyName} {objectType : ObjectTypeName}
    {family : Family} (hne : before ≠ [])
    (h : linkFamily objectType before = some (.family family)) :
    family ∈ pathLinkTargets objectType (before ++ after) := by
  induction before generalizing objectType with
  | nil => exact absurd rfl hne
  | cons link before ih =>
    obtain ⟨next, hnext, hrest⟩ := Option.bind_eq_some_iff.mp h
    cases objectType with
    | unregistered name hname => cases hnext
    | family found =>
      obtain ⟨target, htarget, rfl⟩ := Option.map_eq_some_iff.mp hnext
      rw [List.cons_append, pathLinkTargets, htarget]
      dsimp only
      cases before with
      | nil =>
        cases hrest
        exact List.mem_cons_self
      | cons second before => exact List.mem_cons_of_mem _ (ih nofun hrest)

mutual

/-- The targets of every path of a test are collected. -/
theorem pathLinkTargets_subset (objectType : ObjectTypeName) :
    ∀ (test : RuleExpr) (path : PropertyPath), path ∈ propertyPaths test →
      pathLinkTargets objectType path.dropLast ⊆ ruleLinkTargets objectType test
  | .property own, path, h => by
    rw [propertyPaths, List.mem_singleton] at h
    subst h
    rw [ruleLinkTargets]
    exact List.Subset.refl _
  | .unary op expr, path, h => by
    rw [propertyPaths] at h
    rw [ruleLinkTargets]
    exact pathLinkTargets_subset objectType expr path h
  | .binary op left right, path, h => by
    rw [propertyPaths, List.mem_append] at h
    rw [ruleLinkTargets]
    rcases h with h | h
    · exact List.subset_append_of_subset_left _ (pathLinkTargets_subset objectType left path h)
    · exact List.subset_append_of_subset_right _ (pathLinkTargets_subset objectType right path h)
  | .conditional condition whenTrue whenFalse, path, h => by
    rw [propertyPaths, List.mem_append, List.mem_append] at h
    rw [ruleLinkTargets]
    rcases h with (h | h) | h
    · exact List.subset_append_of_subset_left _ (List.subset_append_of_subset_left _
        (pathLinkTargets_subset objectType condition path h))
    · exact List.subset_append_of_subset_left _ (List.subset_append_of_subset_right _
        (pathLinkTargets_subset objectType whenTrue path h))
    · exact List.subset_append_of_subset_right _
        (pathLinkTargets_subset objectType whenFalse path h)
  | .call function args, path, h => by
    rw [propertyPaths] at h
    rw [ruleLinkTargets]
    exact argumentLinkTargets_subset objectType args path h
  | .bool _, path, h => by cases h
  | .number _, path, h => by cases h
  | .string _, path, h => by cases h
  | .null, path, h => by cases h
  | .unsupported _ _, path, h => by cases h

theorem argumentLinkTargets_subset (objectType : ObjectTypeName) :
    ∀ (args : List RuleExpr) (path : PropertyPath), path ∈ argumentPaths args →
      pathLinkTargets objectType path.dropLast ⊆ argumentLinkTargets objectType args
  | [], path, h => by cases h
  | arg :: rest, path, h => by
    rw [argumentPaths, List.mem_append] at h
    rw [argumentLinkTargets]
    rcases h with h | h
    · exact List.subset_append_of_subset_left _ (pathLinkTargets_subset objectType arg path h)
    · exact List.subset_append_of_subset_right _ (argumentLinkTargets_subset objectType rest path h)

end

/-- A run materialises the families that the paths of its rules go through. -/
theorem materializes_of_path {crates : Crates} {document : ModelDocument} {limits : ResourceLimits}
    {flavour : ValidationFlavour} {rules : List Rule} {rule : Rule} (hrule : rule ∈ rules)
    (hsupported : rule.test.isUnsupported = false) {path : PropertyPath}
    (hpath : path ∈ propertyPaths rule.test) {before after : List PropertyName}
    (heq : path.dropLast = before ++ after) (hne : before ≠ []) {family : Family}
    (hfamily : linkFamily rule.objectType before = some (.family family)) :
    (ModelGraph.forRules crates document limits rules flavour).materializes family = true := by
  have hmem : family ∈ ruleLinkTargets rule.objectType rule.test := by
    refine pathLinkTargets_subset rule.objectType rule.test path hpath ?_
    rw [heq]
    exact mem_pathLinkTargets hne hfamily
  refine List.any_eq_true.mpr ⟨.family family, ?_, decide_eq_true rfl⟩
  refine List.mem_flatMap.mpr ⟨rule, List.mem_filter.mpr ⟨hrule, ?_⟩, ?_⟩
  · rw [hsupported]
    rfl
  · exact List.mem_cons_of_mem _ (List.mem_map.mpr ⟨family, hmem, rfl⟩)

/-! ## The checked profile -/

theorem unsupportedPropertyPathReason_of_binds {schema : PropertySchema} {objectType : ObjectTypeName}
    {path : PropertyPath} (h : PathBinds schema objectType path) :
    unsupportedPropertyPathReason schema objectType path = .ok none := by
  obtain ⟨terminal, family, hterminal, hfound⟩ := h
  unfold unsupportedPropertyPathReason
  rw [hterminal]
  dsimp only
  rw [unboundReason_none.mpr ⟨family, hfound⟩]

theorem firstUnsupported_of_binds {schema : PropertySchema} {objectType : ObjectTypeName}
    {paths : List PropertyPath} (h : ∀ path ∈ paths, PathBinds schema objectType path) :
    firstUnsupported schema objectType paths = .ok none := by
  induction paths with
  | nil => rfl
  | cons path rest ih =>
    obtain ⟨hpath, hrest⟩ := List.forall_mem_cons.mp h
    rw [firstUnsupported, unsupportedPropertyPathReason_of_binds hpath, ok_bind]
    exact ih hrest

theorem exists_of_forall₂_mem {α β : Type} {R : α → β → Prop} {l : List α} {l' : List β}
    (h : List.Forall₂ R l l') {b : β} (hb : b ∈ l') : ∃ a ∈ l, R a b := by
  induction h with
  | nil => cases hb
  | cons hhead _ ih =>
    rcases List.mem_cons.mp hb with rfl | hb
    · exact ⟨_, List.mem_cons_self, hhead⟩
    · obtain ⟨a, ha, hab⟩ := ih hb
      exact ⟨a, List.mem_cons_of_mem _ ha, hab⟩

/-- A checked rule passes the checks as it is. -/
theorem SchemaChecked.again {schema : PropertySchema} {debugExpr : RuleExpr → String}
    {rule checked : Rule} (h : SchemaChecked schema debugExpr rule checked) :
    schemaCheckedRule schema debugExpr checked = .ok checked := by
  unfold schemaCheckedRule
  cases h with
  | skipped hunsupported => rw [if_pos hunsupported]
  | bound hsupported hregistered hbinds =>
    rw [hsupported, if_neg Bool.false_ne_true]
    unfold ruleReason
    rw [if_pos hregistered]
    unfold unsupportedPropertyReason
    rw [firstUnsupported_of_binds hbinds]
    rfl
  | unbound _ _ _ => rfl

theorem foldlM_step_again {schema : PropertySchema} {debugExpr : RuleExpr → String}
    {rules : List Rule} (h : ∀ rule ∈ rules, schemaCheckedRule schema debugExpr rule = .ok rule)
    (s : SchemaCheckState) :
    ∃ s', rules.foldlM (SchemaCheckState.step schema debugExpr) s = .ok s'
      ∧ s'.rules = s.rules ++ rules := by
  induction rules generalizing s with
  | nil => exact ⟨s, rfl, (List.append_nil _).symm⟩
  | cons rule rules ih =>
    obtain ⟨hrule, hrules⟩ := List.forall_mem_cons.mp h
    obtain ⟨next, hnext, hnextRules⟩ : ∃ next, s.step schema debugExpr rule = .ok next
        ∧ next.rules = s.rules ++ [rule] := by
      unfold SchemaCheckState.step
      rw [hrule, ok_bind]
      split <;> exact ⟨_, rfl, rfl⟩
    obtain ⟨s', hs', hall⟩ := ih hrules next
    refine ⟨s', ?_, ?_⟩
    · rw [List.foldlM_cons, hnext, ok_bind, hs']
    · rw [hall, hnextRules, List.append_assoc]
      rfl

theorem applyModelSchemaChecks_counted {schema : PropertySchema} {debugExpr : RuleExpr → String}
    {summary checked : ProfileImportSummary}
    (h : applyModelSchemaChecks schema debugExpr summary = .ok checked) :
    SchemaCheckState.Counted schema debugExpr summary.profile.rules
      ⟨checked.profile.rules, checked.supportedRules, checked.unsupportedRules⟩
      ∧ checked.profile.identity = summary.profile.identity
      ∧ checked.profile.flavour = summary.profile.flavour := by
  obtain ⟨s, hs, h⟩ := bind_eq_ok.mp h
  cases h
  have hstart : SchemaCheckState.Counted schema debugExpr [] ⟨[], 0, 0⟩ := ⟨.nil, rfl, rfl⟩
  exact ⟨hstart.run hs, rfl, rfl⟩

theorem applyModelSchemaChecks_again {schema : PropertySchema} {debugExpr : RuleExpr → String}
    {summary checked : ProfileImportSummary}
    (h : applyModelSchemaChecks schema debugExpr summary = .ok checked) :
    applyModelSchemaChecks schema debugExpr checked = .ok checked := by
  obtain ⟨hcounted, -, -⟩ := applyModelSchemaChecks_counted h
  have hagain : ∀ rule ∈ checked.profile.rules, schemaCheckedRule schema debugExpr rule = .ok rule := by
    intro rule hrule
    obtain ⟨source, -, hchecked⟩ := exists_of_forall₂_mem hcounted.rules hrule
    exact hchecked.again
  obtain ⟨s, hs, hrules⟩ := foldlM_step_again hagain ⟨[], 0, 0⟩
  have hstart : SchemaCheckState.Counted schema debugExpr [] ⟨[], 0, 0⟩ := ⟨.nil, rfl, rfl⟩
  have hcounted' := hstart.run hs
  have hsupported := hcounted'.supported.trans ((congrArg _ (by rw [hrules]; rfl)).trans
    hcounted.supported.symm)
  have hunsupported := hcounted'.unsupported.trans ((congrArg _ (by rw [hrules]; rfl)).trans
    hcounted.unsupported.symm)
  unfold applyModelSchemaChecks
  rw [hs, ok_bind, hsupported, hunsupported, hrules]
  rfl

/-- The checks keep a rule exactly when its type is registered and its paths bind, and make any other
one unsupported; the counts are those of the rules that come out, and another pass changes nothing. A
rule that is kept runs typed on the objects of its type, and a run materialises the families its paths
go through. -/
theorem applyModelSchemaChecks_typed {schema : PropertySchema} {debugExpr : RuleExpr → String}
    {summary checked : ProfileImportSummary}
    (h : applyModelSchemaChecks schema debugExpr summary = .ok checked) :
    List.Forall₂ (SchemaChecked schema debugExpr) summary.profile.rules checked.profile.rules
    ∧ checked.supportedRules
      = saturateU64 (checked.profile.rules.countP fun rule => !rule.test.isUnsupported)
    ∧ checked.unsupportedRules
      = saturateU64 (checked.profile.rules.countP fun rule => rule.test.isUnsupported)
    ∧ applyModelSchemaChecks schema debugExpr checked = .ok checked
    ∧ ∀ rule ∈ checked.profile.rules, rule.test.isUnsupported = false →
      ∀ path ∈ propertyPaths rule.test,
        (∀ graph object, .family object.objectType = rule.objectType →
          RunsTyped schema graph object path)
        ∧ ∀ crates document limits flavour before after family, path.dropLast = before ++ after →
          before ≠ [] → linkFamily rule.objectType before = some (.family family) →
            (ModelGraph.forRules crates document limits checked.profile.rules flavour).materializes
              family = true := by
  obtain ⟨hcounted, -, -⟩ := applyModelSchemaChecks_counted h
  refine ⟨hcounted.rules, hcounted.supported, hcounted.unsupported, applyModelSchemaChecks_again h, ?_⟩
  intro rule hrule hsupported path hpath
  refine ⟨fun graph object hobject => ?_, fun crates document limits flavour before after family heq
    hne hfamily => materializes_of_path hrule hsupported hpath heq hne hfamily⟩
  obtain ⟨source, -, hchecked⟩ := exists_of_forall₂_mem hcounted.rules hrule
  cases hchecked with
  | skipped hunsupported =>
    rw [hunsupported] at hsupported
    cases hsupported
  | bound _ _ hbinds => exact (hbinds path hpath).runsTyped hobject
  | unbound _ _ _ => cases hsupported

/-! ## A profile of three rules -/

/-- The catalog has a version and the document a trailer; no other family has a property. -/
def catalogSchema : PropertySchema
  | .catalog => ["Version"]
  | .document => ["trailer"]
  | _ => []

def schemaRule (id : String) (objectType : Family) (path : PropertyPath) : Rule :=
  ⟨⟨id⟩, .family objectType, false, ⟨id⟩, .property path, ⟨id⟩, []⟩

/-- A path over a link, a property that the registry does not know and a link that it does not know. -/
def threeRuleSummary : ProfileImportSummary where
  profile := {
    identity := ⟨⟨"sample"⟩, ⟨"sample"⟩, none⟩
    flavour := ⟨⟨"pdfa"⟩, 1, ⟨"b"⟩, Nat.one_pos⟩
    rules := [schemaRule "kept" .document ["catalog", "Version"],
      schemaRule "property" .catalog ["trailer"], schemaRule "link" .page ["catalog", "Version"]] }
  supportedRules := 3
  unsupportedRules := 0

theorem applyModelSchemaChecks_typed_three :
    ∃ checked, applyModelSchemaChecks catalogSchema (fun _ => "") threeRuleSummary = .ok checked
      ∧ checked.supportedRules = 1 ∧ checked.unsupportedRules = 2
      ∧ ∀ graph, RunsTyped catalogSchema graph .document ["catalog", "Version"] := by
  obtain ⟨checked, hchecked, hcounts⟩ : ∃ checked,
      applyModelSchemaChecks catalogSchema (fun _ => "") threeRuleSummary = .ok checked
        ∧ schemaRule "kept" .document ["catalog", "Version"] ∈ checked.profile.rules
        ∧ checked.supportedRules = 1 ∧ checked.unsupportedRules = 2 :=
    ⟨_, rfl, List.mem_cons_self, rfl, rfl⟩
  obtain ⟨hmem, hsupported, hunsupported⟩ := hcounts
  obtain ⟨-, -, -, -, hruns⟩ := applyModelSchemaChecks_typed hchecked
  exact ⟨checked, hchecked, hsupported, hunsupported, fun graph =>
    (hruns _ hmem rfl _ List.mem_cons_self).1 graph .document rfl⟩

end Pdfv
