import Pdfv.Validation.Accounting
import Pdfv.Validation.IdentityKeys
import Pdfv.Accessibility.Headings
import Pdfv.Profile.XmlImport
import Pdfv.Parser.StoredKeys
/-!
# The deferred rules on headings

A document uses `H` or numbered headings, not both. The profile has a deferred rule on each kind, whose
test asks for a variable that the objects of the other kind set. The importer drops the variables, both
rules are checked on every structure element, and the variable is looked up there as a property of the
element alone. `deferredHeadings_iff` says when the rules still fail on the mixed documents only.
-/

namespace Pdfv

open Loop Fallible

/-! ## Properties of structure elements -/

/-- `STRUCTURE_ELEMENT_PROPERTIES`. -/
def structureElementProperties : List PropertyName :=
  ["role", "normalizedRole", "page", "pageIndex", "childCount", "contentItemCount",
   "associatedMarkedContentCount", "associatedAnnotationCount", "tag", "containsLang", "parentLang",
   "inheritedLang", "gContainsCatalogLang", "E", "roleAttribute", "hasOneInteractiveChild", "usesH",
   "usesHn", "hasCorrectNestingLevel", "noteID", "hasDuplicateNoteID", "hasConnectedHeader",
   "unknownHeaders", "isGrouping", "widgetAnnotsCount", "isSignature", "hasParentFormulaOrMathML",
   "numberOfColumnWithWrongRowSpan", "numberOfRowWithWrongColumnSpan", "wrongColumnSpan",
   "hasIntersection", "ListNumbering", "NoteType", "orphanRefs", "ghostRefs", "hasAltText",
   "altTextBytes", "hasActualText", "actualTextBytes", "hasLanguage", "hasAttributes", "hasClass",
   "hasId", "idTreeResolved", "classMapResolved", "Type", "S", "P", "K", "Pg", "Alt", "ActualText",
   "Lang", "A", "C", "ID", "containsParent", "containsRef", "parentStandardType",
   "parentStandardTypeNamespaceURL", "parentType", "parentNamespaceURL", "structParentStandardType",
   "structParentType", "firstChildStandardTypeNamespaceURL", "kidsStandardTypes", "hasContentItems",
   "containsLabels", "isArtifact", "isTaggedContent", "parentsTags", "isNotMappedToStandardType",
   "circularMappingExist", "roleMapToSameNamespaceTag", "remappedStandardType"]

/-- `ModelObjectRef::property` on structure elements: a node is asked in its structure tree, the model
of an indirect object reads the dictionary. Other objects and other names are left to `other`. -/
def elementProperty
    (other : ModelGraph → ModelObjectRef → PropertyName → Except PdfvError ModelValue)
    (graph : ModelGraph) (object : ModelObjectRef) (name : PropertyName) :
    Except PdfvError ModelValue :=
  match object with
  | .accessibility tree (.structureElement id) =>
    match tree.nodes[id]? with
    | some node => structureElementProperty tree graph.document node name
    | none => .error (.limit "accessibility_node")
  | .generic model =>
    if model.family = .structureElement ∧ name ∈ structureElementProperties then
      .ok ((model.dictionary.value.get name).elim .null ModelValue.ofCos)
    else other graph object name
  | object => other graph object name

/-- The services with the source's properties of structure elements. -/
def ModelServices.readingElements (services : ModelServices) : ModelServices :=
  { services with property := elementProperty services.property }

/-! ## The two rules -/

/-- The test `name == false`. -/
def notSet (name : PropertyName) : RuleExpr :=
  .binary .eq (.property [name]) (.bool false)

/-- A rule that is imported from a deferred rule on an object type, with a given test. -/
def ImportedDeferred (object test : String) (rule : Rule) : Prop :=
  ∃ objectType reason, mapVerapdfObjectType object = .ok (objectType, reason)
    ∧ ∃ builder : XmlRuleBuilder, builder.objectType = some objectType
      ∧ builder.unsupportedReason = reason ∧ builder.deferred = true ∧ builder.test = some ⟨test⟩
      ∧ builder.finish = .ok rule

theorem finish_eq_ok {builder : XmlRuleBuilder} {rule : Rule} (h : builder.finish = .ok rule) :
    builder.objectType = some rule.objectType ∧ rule.deferred = builder.deferred
      ∧ ∃ test, builder.test = some test
        ∧ XmlRuleBuilder.ruleTest test builder.unsupportedReason = .ok rule.test := by
  unfold XmlRuleBuilder.finish at h
  split at h
  · cases h
  · cases h
  · cases h
  · rename_i id objectType test hid hobject htest
    obtain ⟨expr, hexpr, h⟩ := bind_eq_ok.mp h
    cases pure_eq_ok.mp h
    exact ⟨hobject, rfl, test, htest, hexpr⟩

theorem parse_usesHn : (match parseImportedExpr "usesHn == false" with
    | .ok (.binary .eq (.property path) (.bool value)) => decide (path = ["usesHn"] ∧ value = false)
    | _ => false) = true := by
  decide +kernel

theorem parse_usesH : (match parseImportedExpr "usesH == false" with
    | .ok (.binary .eq (.property path) (.bool value)) => decide (path = ["usesH"] ∧ value = false)
    | _ => false) = true := by
  decide +kernel

theorem eq_notSet {result : Except (ParseStop SlicePanic) RuleExpr} {name : PropertyName}
    (h : (match result with
      | .ok (.binary .eq (.property path) (.bool value)) => decide (path = [name] ∧ value = false)
      | _ => false) = true) : result = .ok (notSet name) := by
  split at h
  · rename_i path value
    obtain ⟨rfl, rfl⟩ := of_decide_eq_true h
    rfl
  · cases h

/-- Both rules are rules on structure elements. -/
theorem ImportedDeferred.spec {object test : String} {name : PropertyName} {rule : Rule}
    (hobject : mapVerapdfObjectType object = .ok (.family .structureElement, none))
    (htest : parseImportedExpr test = .ok (notSet name)) (h : ImportedDeferred object test rule) :
    rule.objectType = .family .structureElement ∧ rule.deferred = true ∧ rule.test = notSet name := by
  obtain ⟨objectType, reason, hmap, builder, htype, hreason, hdeferred, hbuilt, hfinish⟩ := h
  rw [hobject] at hmap
  cases hmap
  obtain ⟨hrule, hruleDeferred, source, hsource, hexpr⟩ := finish_eq_ok hfinish
  rw [htype] at hrule
  rw [hbuilt] at hsource
  cases hsource
  rw [hreason] at hexpr
  unfold XmlRuleBuilder.ruleTest at hexpr
  dsimp only at hexpr
  rw [htest] at hexpr
  exact ⟨(Option.some.inj hrule).symm, hruleDeferred.trans hdeferred, (Except.ok.inj hexpr).symm⟩

theorem seh_spec {rule : Rule} (h : ImportedDeferred "SEH" "usesHn == false" rule) :
    rule.objectType = .family .structureElement ∧ rule.deferred = true
      ∧ rule.test = notSet "usesHn" :=
  h.spec rfl (eq_notSet parse_usesHn)

theorem sehn_spec {rule : Rule} (h : ImportedDeferred "SEHn" "usesH == false" rule) :
    rule.objectType = .family .structureElement ∧ rule.deferred = true
      ∧ rule.test = notSet "usesH" :=
  h.spec rfl (eq_notSet parse_usesH)

/-! ## What a test of a rule says -/

section Evaluation

variable {services : ModelServices} {graph : ModelGraph} {object : ModelObjectRef} {rule : Rule}
  {name : PropertyName}

/-- A value that is there costs no instruction. -/
theorem value_run (value : ModelValue) (used : Nat) :
    (StateT.pure value : StateT Nat (Except PdfvError) ModelValue) used = .ok (value, used) :=
  rfl

/-- Two levels of expressions are evaluated, unless no nesting is allowed at all. -/
theorem evaluateRule_notSet (htest : rule.test = notSet name) :
    evaluateRule services graph object rule
      = if graph.limits.maxObjectDepth = 0 then .error (budgetExceeded "depth")
        else (services.property graph object name).map fun value =>
          if value.equal (.bool false) then .passed else .failed := by
  unfold evaluateRule
  rw [htest]
  by_cases hdepth : graph.limits.maxObjectDepth = 0
  · rw [if_pos hdepth]
    simp [evaluate, notSet, evalExpr, chargeInstruction, hdepth, maxRuleInstructions, maxRuleDepth,
      failIf, StateT.run, bind, Except.bind, StateT.bind, pure, Except.pure]
  · rw [if_neg hdepth]
    have hone : ¬ graph.limits.maxObjectDepth < 1 := by omega
    cases hvalue : services.property graph object name with
    | error e =>
      simp [evaluate, notSet, evalExpr, chargeInstruction, hone, maxRuleInstructions, maxRuleDepth,
        failIf, StateT.run, bind, Except.bind, StateT.bind, resolveProperty, hvalue, Except.map, pure,
        Except.pure, liftM, monadLift, MonadLift.monadLift, StateT.lift]
    | ok value =>
      simp [evaluate, notSet, evalExpr, chargeInstruction, hone, maxRuleInstructions, maxRuleDepth,
        failIf, StateT.run, bind, Except.bind, StateT.bind, resolveProperty, hvalue, Except.map,
        applyBinary, ModelValue.expectBool, pure, Except.pure, value_run, liftM, monadLift,
        MonadLift.monadLift, StateT.lift]

theorem equal_false {value : ModelValue} : value.equal (.bool false) = true ↔ value = .bool false := by
  cases value <;> simp [ModelValue.equal, ModelValue.beq]

/-- A rule fails where its property is read and is not `false`. -/
theorem evaluateRule_failed_iff (htest : rule.test = notSet name) {value : ModelValue}
    (hvalue : services.property graph object name = .ok value) :
    evaluateRule services graph object rule = .ok .failed
      ↔ 0 < graph.limits.maxObjectDepth ∧ value ≠ .bool false := by
  rw [evaluateRule_notSet htest, hvalue]
  by_cases hdepth : graph.limits.maxObjectDepth = 0
  · rw [if_pos hdepth]
    simp [hdepth]
  · rw [if_neg hdepth]
    have hpos : 0 < graph.limits.maxObjectDepth := by omega
    simp only [Except.map, Except.ok.injEq, hpos, true_and]
    by_cases hequal : value.equal (.bool false) = true
    · rw [if_pos hequal]
      simp [equal_false.mp hequal]
    · have hne : value ≠ .bool false := fun heq => hequal (equal_false.mpr heq)
      simp [hequal, hne]

end Evaluation

/-! ## What a run visits -/

section Visited

variable {graph : ModelGraph} {objects : List ModelObjectRef}

theorem mem_of_identityKey {object : ModelObjectRef}
    (h : object.identityKey ∈ objects.map ModelObjectRef.identityKey) :
    ∃ other ∈ objects, other.identityKey = object.identityKey :=
  List.mem_map.mp h

/-- A run visits what its objects link to, up to the identity keys. -/
theorem visitedObjects_covers (h : graph.visitedObjects = .ok objects) :
    (∀ object ∈ walkRoots, object.identityKey ∈ objects.map ModelObjectRef.identityKey)
      ∧ ∀ object ∈ objects, ∃ budget linked, graph.linkedObjects budget object = .ok linked
        ∧ ∀ next ∈ linked, next.identityKey ∈ objects.map ModelObjectRef.identityKey := by
  obtain ⟨hresult, hfinished⟩ := visitedObjects_ok h
  have hcovers := Walk.Graph.visit_covers hfinished
  rwa [hresult] at hcovers

theorem visited_document (h : graph.visitedObjects = .ok objects) :
    ∃ budget linked, graph.documentLinkedObjects budget = .ok linked
      ∧ ∀ next ∈ linked, next.identityKey ∈ objects.map ModelObjectRef.identityKey := by
  obtain ⟨hroots, hlinks⟩ := visitedObjects_covers h
  obtain ⟨object, hobject, hkey⟩ :=
    mem_of_identityKey (hroots .document (List.mem_singleton.mpr rfl))
  have hdocument : object = .document :=
    eq_document (visitedObjects_sourced h object hobject) (objectType_of_identityKey hkey)
  rw [hdocument] at hobject
  exact hlinks .document hobject

/-- A run that needs the structure tree visits each of its nodes. -/
theorem visited_nodes (h : graph.visitedObjects = .ok objects)
    (hmaterializes : graph.materializesAccessibility = true) :
    ∃ tree, buildAccessibilityGraph graph.crates graph.document graph.limits = .ok tree
      ∧ ∀ node ∈ tree.nodes, ModelObjectRef.accessibility tree (.structureElement node.id) ∈ objects := by
  obtain ⟨budget, linked, hlinked, hkeys⟩ := visited_document h
  obtain ⟨tree, htree, hmem⟩ := documentLinkedObjects_accessibility hmaterializes hlinked
  refine ⟨tree, htree, ?_⟩
  obtain ⟨object, hobject, hkey⟩ := mem_of_identityKey (hkeys _ hmem)
  obtain ⟨other, rfl, hother⟩ := eq_accessibilityDocument (visitedObjects_sourced h object hobject)
    (objectType_of_identityKey hkey)
  cases htree.symm.trans hother
  obtain ⟨budget', linked', hlinked', hkeys'⟩ := (visitedObjects_covers h).2 _ hobject
  intro node hnode
  have hnext : ModelObjectRef.accessibility tree (.structureElement node.id) ∈ linked' := by
    have hlinked' : accessibilityLinkedObjects tree .document budget' = .ok linked' := hlinked'
    rw [pushLinked_eq hlinked']
    refine List.mem_append_right _ (List.mem_map_of_mem (List.mem_append_left _ ?_))
    exact List.mem_map_of_mem hnode
  obtain ⟨found, hfound, hfoundKey⟩ := mem_of_identityKey (hkeys' _ hnext)
  obtain ⟨tree', rfl, htree'⟩ :=
    node_of_identityKey (visitedObjects_sourced h found hfound) hfoundKey
  cases htree.symm.trans htree'
  exact hfound

/-- A run that needs structure elements and generic roots visits a model of every indirect structure
element. -/
theorem visited_madeFrom (h : graph.visitedObjects = .ok objects)
    (hkeyed : StoreKeyed graph.document.objects) (hroots : graph.materializesGenericRoots = true)
    (hmaterializes : graph.materializes .structureElement = true) {source : IndirectObject}
    {dictionary : Dictionary} (hsource : source ∈ graph.document.objects.values)
    (hdictionary : source.object.asDictionary = some dictionary)
    (hclass : classifyDictionary dictionary = some .structureElement) :
    ∃ model, ModelObjectRef.generic model ∈ objects ∧ model.family = .structureElement
      ∧ model.dictionary.value = dictionary := by
  obtain ⟨budget, linked, hlinked, hkeys⟩ := visited_document h
  obtain ⟨model, hmade, hfamily, hmem⟩ := documentLinkedObjects_madeFrom hroots hmaterializes hsource
    hdictionary hclass (by decide) hlinked
  obtain ⟨object, hobject, hkey⟩ := mem_of_identityKey (hkeys _ hmem)
  obtain ⟨other, rfl, hother, found, hfound, hfoundMade, hfoundKey⟩ :=
    madeFrom_of_identityKey hfamily hmade (visitedObjects_sourced h object hobject) hkey
  cases hkeyed.eq_of_key hfound hsource hfoundKey
  refine ⟨other, hobject, hother, ?_⟩
  exact Option.some.inj (hfoundMade.dictionary.symm.trans hdictionary)

theorem objectType_of_types {object : ModelObjectRef} (h : Family.structureElement ∈ object.types) :
    object.objectType = .structureElement := by
  rcases List.mem_cons.mp h with htype | hsuper
  · exact htype.symm
  · exfalso
    revert hsuper
    cases object with
    | accessibility tree kind => cases kind <;> simp [ModelObjectRef.superTypes]
    | operator place fact =>
      show Family.structureElement ∈ (if fact.isUnknown then [.undefinedOperator, .object]
        else [.object]) → False
      split <;> simp
    | _ => simp [ModelObjectRef.superTypes]

end Visited

/-! ## Where the rules fail -/

section Headings

variable (nodes : List AccessibilityNode)

/-- The tree has an element of the standard type `H`. -/
def UsesH : Prop :=
  ∃ node ∈ nodes, node.normalizedRole = "H"

/-- The tree has an element of a standard type `Hn`. -/
def UsesHn : Prop :=
  ∃ node ∈ nodes, (headingNumber node.normalizedRole).isSome

/-- The tree has one of `H1` to `H6`, which the source knows. -/
def UsesKnownHn : Prop :=
  ∃ node ∈ nodes, 0 < headingLevel node.normalizedRole

/-- An indirect object is classified as a structure element, and its dictionary does not set both
variables to `false` itself. -/
def HasUnmarkedElement (doc : ModelDocument) : Prop :=
  ∃ source ∈ doc.objects.values, ∃ dictionary, source.object.asDictionary = some dictionary
    ∧ classifyDictionary dictionary = some .structureElement
    ∧ ∃ name ∈ ["usesH", "usesHn"], dictionary.get name ≠ some (.boolean false)

/-- One of the two rules fails somewhere. -/
def FailsHeadings (seh sehn : Rule) (checks : List Check) : Prop :=
  ∃ c ∈ checks, (c.rule = seh ∨ c.rule = sehn) ∧ c.isFailed = true

/-- When the rules fail on the mixed documents only, and on all of them: a mixed document needs one
level of nesting to be allowed. In any other document no element is an `H` or one of `H1` to `H6`, and
no indirect structure element is checked without its tree. -/
structure HeadingsAgree (graph : ModelGraph) : Prop where
  mixed : UsesH nodes → UsesHn nodes → 0 < graph.limits.maxObjectDepth
  unmixed : ¬ (UsesH nodes ∧ UsesHn nodes) → 0 < graph.limits.maxObjectDepth → ¬ UsesH nodes
    ∧ ¬ UsesKnownHn nodes
    ∧ ¬ (graph.materializesGenericRoots = true ∧ HasUnmarkedElement graph.document)

end Headings

theorem headingNumber_of_level {role : String} (h : 0 < headingLevel role) :
    (headingNumber role).isSome := by
  unfold headingLevel at h
  split at h <;> first | decide | exact absurd h (by decide)

theorem UsesKnownHn.usesHn {nodes : List AccessibilityNode} (h : UsesKnownHn nodes) : UsesHn nodes := by
  obtain ⟨node, hnode, hlevel⟩ := h
  exact ⟨node, hnode, headingNumber_of_level hlevel⟩

theorem ofCos_eq_false {value : Option CosObject} :
    value.elim .null ModelValue.ofCos = .bool false ↔ value = some (.boolean false) := by
  cases value with
  | none => simp
  | some value =>
    cases value with
    | integer value =>
      simp only [Option.elim_some, ModelValue.ofCos]
      split <;> simp
    | _ => simp [ModelValue.ofCos]

section Failures

variable {services : ModelServices} {graph : ModelGraph} {objects : List ModelObjectRef}
  {checks : List Check} {rules : List Rule} {seh sehn : Rule}

/-- What the rules read of an object that they apply to. -/
theorem element_fails {object : ModelObjectRef} {rule : Rule} {name : PropertyName}
    (hsourced : object.Sourced graph) (htype : object.objectType = .structureElement)
    (hname : name = "usesH" ∨ name = "usesHn") (htest : rule.test = notSet name)
    (hfails : evaluateRule services.readingElements graph object rule = .ok .failed) :
    0 < graph.limits.maxObjectDepth
      ∧ ((∃ tree, buildAccessibilityGraph graph.crates graph.document graph.limits = .ok tree
          ∧ (UsesH tree.nodes ∨ UsesKnownHn tree.nodes))
        ∨ graph.materializesGenericRoots = true ∧ HasUnmarkedElement graph.document) := by
  rcases structureElement_cases hsourced htype with
    ⟨tree, id, rfl, htree, -⟩ | ⟨model, rfl, hfamily, hroots, source, hsource, hmade⟩
  · cases hnode : tree.nodes[id]? with
    | none =>
      exfalso
      rw [evaluateRule_notSet htest] at hfails
      have hproperty : services.readingElements.property graph
          (.accessibility tree (.structureElement id)) name = .error (.limit "accessibility_node") := by
        simp [ModelServices.readingElements, elementProperty, hnode]
      rw [hproperty] at hfails
      split at hfails <;> cases hfails
    | some node =>
      have hmem := List.mem_of_getElem? hnode
      rcases hname with rfl | rfl
      · have hproperty : services.readingElements.property graph
            (.accessibility tree (.structureElement id)) "usesH"
            = .ok (.bool (node.normalizedRole = "H")) := by
          simp only [ModelServices.readingElements, elementProperty, hnode]
          rfl
        obtain ⟨hdepth, hvalue⟩ := (evaluateRule_failed_iff htest hproperty).mp hfails
        refine ⟨hdepth, .inl ⟨tree, htree, .inl ⟨node, hmem, ?_⟩⟩⟩
        simpa using hvalue
      · have hproperty : services.readingElements.property graph
            (.accessibility tree (.structureElement id)) "usesHn"
            = .ok (.bool (headingLevel node.normalizedRole > 0)) := by
          simp only [ModelServices.readingElements, elementProperty, hnode]
          rfl
        obtain ⟨hdepth, hvalue⟩ := (evaluateRule_failed_iff htest hproperty).mp hfails
        refine ⟨hdepth, .inl ⟨tree, htree, .inr ⟨node, hmem, ?_⟩⟩⟩
        simp only [ne_eq, ModelValue.bool.injEq, decide_eq_false_iff_not, not_not] at hvalue
        exact hvalue
  · have hknown : name ∈ structureElementProperties := by
      rcases hname with rfl | rfl <;> decide
    have hproperty : services.readingElements.property graph (.generic model) name
        = .ok ((model.dictionary.value.get name).elim .null ModelValue.ofCos) := by
      simp only [ModelServices.readingElements, elementProperty]
      rw [if_pos ⟨hfamily, hknown⟩]
    obtain ⟨hdepth, hvalue⟩ := (evaluateRule_failed_iff htest hproperty).mp hfails
    rw [ne_eq, ofCos_eq_false] at hvalue
    refine ⟨hdepth, .inr ⟨hroots, source, hsource, _, hmade.dictionary, ?_, name, ?_, hvalue⟩⟩
    · rw [hmade.classified, hfamily]
    · rcases hname with rfl | rfl <;> decide

theorem checkOf_isFailed {c : Check} {pair : ModelObjectRef × Rule}
    (h : checkOf services graph pair = .ok c) :
    c.isFailed = true ↔ evaluateRule services graph pair.1 pair.2 = .ok .failed := by
  unfold checkOf at h
  split at h
  · rename_i heq
    cases h
    simp [Check.isFailed, heq]
  · rename_i heq
    cases h
    simp [Check.isFailed, heq]
  · rename_i heq
    cases h
    simp [Check.isFailed, heq]
  · cases h

/-- The check of a rule on a visited object. -/
theorem exists_check (hevaluations : Evaluations services graph rules checks)
    (hobjects : graph.visitedObjects = .ok objects) {object : ModelObjectRef} {rule : Rule}
    (hobject : object ∈ objects) (hrule : rule ∈ rules) (happlies : appliesTo object rule = true) :
    ∃ c ∈ checks, c.rule = rule
      ∧ (c.isFailed = true ↔ evaluateRule services graph object rule = .ok .failed) := by
  obtain ⟨objects', hobjects', -, hperm⟩ := hevaluations.objects
  cases hobjects.symm.trans hobjects'
  have hpair : (object, rule) ∈ applicablePairs rules objects :=
    List.mem_flatMap.mpr ⟨object, hobject,
      List.mem_map_of_mem (List.mem_filter.mpr ⟨hrule, happlies⟩)⟩
  obtain ⟨c, hc, hcpair⟩ := List.mem_map.mp (hperm.symm.subset hpair)
  have hcheck := hevaluations.evaluated c hc
  rw [hcpair] at hcheck
  exact ⟨c, hc, congrArg Prod.snd hcpair, checkOf_isFailed hcheck⟩

theorem appliesTo_element {object : ModelObjectRef} {rule : Rule} {name : PropertyName}
    (htype : rule.objectType = .family .structureElement) (htest : rule.test = notSet name)
    (hobject : object.objectType = .structureElement) : appliesTo object rule = true := by
  simp [appliesTo, htest, notSet, RuleExpr.isUnsupported, htype, ModelObjectRef.types, hobject]

/-- The rules fail where a structure element is a heading, or is checked without its tree. -/
theorem failsHeadings_iff {tree : AccessibilityGraph}
    (hevaluations : Evaluations services.readingElements graph rules checks)
    (hkeyed : StoreKeyed graph.document.objects)
    (htree : buildAccessibilityGraph graph.crates graph.document graph.limits = .ok tree)
    (hmaterializes : graph.materializesAccessibility = true)
    (hfamily : graph.materializes .structureElement = true)
    (hseh : seh ∈ rules) (hsehType : seh.objectType = .family .structureElement)
    (hsehTest : seh.test = notSet "usesHn") (hsehn : sehn ∈ rules)
    (hsehnType : sehn.objectType = .family .structureElement)
    (hsehnTest : sehn.test = notSet "usesH") :
    FailsHeadings seh sehn checks ↔ 0 < graph.limits.maxObjectDepth
      ∧ (UsesH tree.nodes ∨ UsesKnownHn tree.nodes
        ∨ graph.materializesGenericRoots = true ∧ HasUnmarkedElement graph.document) := by
  obtain ⟨objects, hobjects, -, hperm⟩ := hevaluations.objects
  constructor
  · rintro ⟨c, hc, hrule, hfailed⟩
    have hpair : c.pair ∈ applicablePairs rules objects :=
      hperm.subset (List.mem_map_of_mem hc)
    obtain ⟨object, hobject, hmem⟩ := List.mem_flatMap.mp hpair
    obtain ⟨rule, hkept, heq⟩ := List.mem_map.mp hmem
    obtain ⟨-, happlies⟩ := List.mem_filter.mp hkept
    have hcheck := hevaluations.evaluated c hc
    rw [← heq] at hcheck
    have hfails := (checkOf_isFailed hcheck).mp hfailed
    have hsame : rule = c.rule := congrArg Prod.snd heq
    have htype : object.objectType = .structureElement := by
      have hruleType : rule.objectType = .family .structureElement := by
        rw [hsame]
        rcases hrule with hrule | hrule <;> rw [hrule] <;> assumption
      simp only [appliesTo, Bool.and_eq_true, List.any_eq_true, decide_eq_true_eq] at happlies
      obtain ⟨-, family, hmemType, hfamilyType⟩ := happlies
      rw [hruleType] at hfamilyType
      cases hfamilyType
      exact objectType_of_types hmemType
    have hname : ∃ name, (name = "usesH" ∨ name = "usesHn") ∧ rule.test = notSet name := by
      rw [hsame]
      rcases hrule with hrule | hrule
      · exact ⟨"usesHn", .inr rfl, hrule ▸ hsehTest⟩
      · exact ⟨"usesH", .inl rfl, hrule ▸ hsehnTest⟩
    obtain ⟨name, hname, htest⟩ := hname
    obtain ⟨hdepth, hwhy⟩ := element_fails (visitedObjects_sourced hobjects object hobject) htype hname
      htest hfails
    refine ⟨hdepth, ?_⟩
    rcases hwhy with ⟨tree', htree', huses⟩ | hgeneric
    · cases htree.symm.trans htree'
      rcases huses with huses | huses
      · exact .inl huses
      · exact .inr (.inl huses)
    · exact .inr (.inr hgeneric)
  · rintro ⟨hdepth, hwhy⟩
    obtain ⟨tree', htree', hvisited⟩ := visited_nodes hobjects hmaterializes
    cases htree.symm.trans htree'
    have hlinked := (buildAccessibilityGraph_linked htree).1
    have hnodeAt : ∀ node ∈ tree.nodes, tree.nodes[node.id]? = some node := by
      intro node hnode
      obtain ⟨i, hi⟩ := List.mem_iff_getElem?.mp hnode
      rw [hlinked.ids i node hi, hi]
    rcases hwhy with ⟨node, hnode, hrole⟩ | ⟨node, hnode, hlevel⟩ |
      ⟨hroots, source, hsource, dictionary, hdictionary, hclass, name, hname, hvalue⟩
    · have hproperty : services.readingElements.property graph
          (.accessibility tree (.structureElement node.id)) "usesH"
          = .ok (.bool (node.normalizedRole = "H")) := by
        simp only [ModelServices.readingElements, elementProperty, hnodeAt node hnode]
        rfl
      obtain ⟨c, hc, hrule, hfailed⟩ := exists_check hevaluations hobjects (hvisited node hnode) hsehn
        (appliesTo_element hsehnType hsehnTest rfl)
      refine ⟨c, hc, .inr hrule, hfailed.mpr ?_⟩
      exact (evaluateRule_failed_iff hsehnTest hproperty).mpr ⟨hdepth, by simp [hrole]⟩
    · have hproperty : services.readingElements.property graph
          (.accessibility tree (.structureElement node.id)) "usesHn"
          = .ok (.bool (headingLevel node.normalizedRole > 0)) := by
        simp only [ModelServices.readingElements, elementProperty, hnodeAt node hnode]
        rfl
      obtain ⟨c, hc, hrule, hfailed⟩ := exists_check hevaluations hobjects (hvisited node hnode) hseh
        (appliesTo_element hsehType hsehTest rfl)
      refine ⟨c, hc, .inl hrule, hfailed.mpr ?_⟩
      refine (evaluateRule_failed_iff hsehTest hproperty).mpr ⟨hdepth, ?_⟩
      simp only [gt_iff_lt, hlevel, decide_true]
      simp
    · obtain ⟨model, hmodel, hmodelFamily, hmodelDictionary⟩ :=
        visited_madeFrom hobjects hkeyed hroots hfamily hsource hdictionary hclass
      have hknown : name ∈ structureElementProperties := by
        revert hname
        simp only [List.mem_cons, List.not_mem_nil, or_false]
        rintro (rfl | rfl) <;> decide
      have hproperty : services.readingElements.property graph (.generic model) name
          = .ok ((dictionary.get name).elim .null ModelValue.ofCos) := by
        simp only [ModelServices.readingElements, elementProperty]
        rw [if_pos ⟨hmodelFamily, hknown⟩, hmodelDictionary]
      have hne : (dictionary.get name).elim .null ModelValue.ofCos ≠ ModelValue.bool false := by
        rw [ne_eq, ofCos_eq_false]
        exact hvalue
      simp only [List.mem_cons, List.not_mem_nil, or_false] at hname
      rcases hname with rfl | rfl
      · obtain ⟨c, hc, hrule, hfailed⟩ := exists_check hevaluations hobjects hmodel hsehn
          (appliesTo_element hsehnType hsehnTest hmodelFamily)
        refine ⟨c, hc, .inr hrule, hfailed.mpr ?_⟩
        exact (evaluateRule_failed_iff hsehnTest hproperty).mpr ⟨hdepth, hne⟩
      · obtain ⟨c, hc, hrule, hfailed⟩ := exists_check hevaluations hobjects hmodel hseh
          (appliesTo_element hsehType hsehTest hmodelFamily)
        refine ⟨c, hc, .inl hrule, hfailed.mpr ?_⟩
        exact (evaluateRule_failed_iff hsehTest hproperty).mpr ⟨hdepth, hne⟩

end Failures

/-! ## The run -/

theorem materializes_of_mem {services : ModelServices} {document : ModelDocument}
    {limits : ResourceLimits} {profile : ValidationProfile} {rule : Rule} {family : Family}
    (hrule : rule ∈ profile.rules) (htype : rule.objectType = .family family)
    (hsupported : rule.test.isUnsupported = false) :
    ObjectTypeName.family family
      ∈ (profileGraph services document limits profile).materializedFamilies := by
  refine List.mem_flatMap.mpr ⟨rule, List.mem_filter.mpr ⟨hrule, by simp [hsupported]⟩, ?_⟩
  rw [htype]
  exact List.mem_cons_self

/-- In every run with the two rules, they fail on the mixed documents and on no others exactly under
`HeadingsAgree`. -/
theorem deferredHeadings_iff (services : ModelServices) (parser : Parser) (crates : Crates)
    (source : Bytes) (secret : Option Bytes) (doc : ParsedDocument)
    (hparse : parser.parseWithOptions crates source secret = .ok doc) (limits : ResourceLimits)
    (cap : FailureCap) (recordPassed : Bool) (profile : ValidationProfile) (report : ProfileReport)
    (hrun : validateProfile services.readingElements doc.model limits cap.value recordPassed profile
      = .ok report)
    (seh sehn : Rule) (hseh : seh ∈ profile.rules)
    (hsehImported : ImportedDeferred "SEH" "usesHn == false" seh) (hsehn : sehn ∈ profile.rules)
    (hsehnImported : ImportedDeferred "SEHn" "usesH == false" sehn) :
    ∃ checks tree, ExactAccounting cap.value recordPassed checks report
      ∧ profileChecks services.readingElements
        (profileGraph services.readingElements doc.model limits profile) profile.rules = .ok checks
      ∧ buildAccessibilityGraph services.crates doc.model limits = .ok tree
      ∧ ((FailsHeadings seh sehn checks ↔ UsesH tree.nodes ∧ UsesHn tree.nodes)
        ↔ HeadingsAgree tree.nodes
          (profileGraph services.readingElements doc.model limits profile)) := by
  obtain ⟨checks, state, hchecks, hevaluations, -, haccounted, rfl⟩ :=
    validateProfile_accounted cap.lt hrun
  obtain ⟨hsehType, -, hsehTest⟩ := seh_spec hsehImported
  obtain ⟨hsehnType, -, hsehnTest⟩ := sehn_spec hsehnImported
  have hmaterialized : ObjectTypeName.family .structureElement
      ∈ (profileGraph services.readingElements doc.model limits profile).materializedFamilies := by
    refine materializes_of_mem hseh hsehType ?_
    rw [hsehTest]
    rfl
  have haccessibility : (profileGraph services.readingElements doc.model limits
      profile).materializesAccessibility = true :=
    List.any_eq_true.mpr ⟨_, hmaterialized, rfl⟩
  have hfamily : (profileGraph services.readingElements doc.model limits profile).materializes
      .structureElement = true := List.any_eq_true.mpr ⟨_, hmaterialized, by simp⟩
  obtain ⟨objects, hobjects, -⟩ := hevaluations.objects
  obtain ⟨tree, htree, -⟩ := visited_nodes hobjects haccessibility
  refine ⟨checks, tree, haccounted.exact, hchecks, htree, ?_⟩
  rw [failsHeadings_iff hevaluations (parseWithOptions_keyed hparse) htree haccessibility hfamily hseh
    hsehType hsehTest hsehn hsehnType hsehnTest]
  constructor
  · intro h
    refine ⟨fun hH hHn => (h.mpr ⟨hH, hHn⟩).1, ?_⟩
    intro hunmixed hdepth
    refine ⟨?_, ?_, ?_⟩
    · exact fun hH => hunmixed (h.mp ⟨hdepth, .inl hH⟩)
    · exact fun hHn => hunmixed (h.mp ⟨hdepth, .inr (.inl hHn)⟩)
    · exact fun hgeneric => hunmixed (h.mp ⟨hdepth, .inr (.inr hgeneric)⟩)
  · intro h
    constructor
    · rintro ⟨hdepth, hwhy⟩
      by_contra hunmixed
      obtain ⟨hH, hHn, hgeneric⟩ := h.unmixed hunmixed hdepth
      rcases hwhy with hwhy | hwhy | hwhy
      · exact hH hwhy
      · exact hHn hwhy
      · exact hgeneric hwhy
    · intro hmixed
      exact ⟨h.mixed hmixed.1 hmixed.2, .inl hmixed.1⟩

/-! ### Two documents -/

/-- What the profile says of both rules. -/
def headingBuilder (id test : String) : XmlRuleBuilder where
  objectType := some (.family .structureElement)
  unsupportedReason := none
  deferred := true
  id := some ⟨id⟩
  description := some ⟨"All documents shall be either strongly or weakly structured, but not both"⟩
  test := some ⟨test⟩
  message := some ⟨"Document uses both H and H# tags"⟩

/-- The rule that such a builder makes. -/
def headingRule (id : String) (name : PropertyName) : Rule where
  id := ⟨id⟩
  objectType := .family .structureElement
  deferred := true
  description := ⟨"All documents shall be either strongly or weakly structured, but not both"⟩
  test := notSet name
  errorMessage := ⟨"Document uses both H and H# tags"⟩
  references := []

theorem headingBuilder_finish {id test : String} {name : PropertyName}
    (h : parseImportedExpr test = .ok (notSet name)) :
    (headingBuilder id test).finish = .ok (headingRule id name) := by
  unfold XmlRuleBuilder.finish headingBuilder
  dsimp only
  unfold XmlRuleBuilder.ruleTest
  dsimp only
  rw [h]
  rfl

/-- The rule on `SEH`. -/
def sehRule : Rule :=
  headingRule "iso-14289-1-7-4-4-2" "usesHn"

/-- The rule on `SEHn`. -/
def sehnRule : Rule :=
  headingRule "iso-14289-1-7-4-4-3" "usesH"

theorem sehRule_imported : ImportedDeferred "SEH" "usesHn == false" sehRule :=
  ⟨_, _, rfl, _, rfl, rfl, rfl, rfl, headingBuilder_finish (eq_notSet parse_usesHn)⟩

theorem sehnRule_imported : ImportedDeferred "SEHn" "usesH == false" sehnRule :=
  ⟨_, _, rfl, _, rfl, rfl, rfl, rfl, headingBuilder_finish (eq_notSet parse_usesH)⟩

/-- A document with the given structure elements. -/
def headingsSource (elements : String) : Bytes :=
  utf8 ("%PDF-1.7\n1 0 obj<</Type/Catalog/StructTreeRoot 2 0 R>>endobj\n"
    ++ "2 0 obj<</Type/StructTreeRoot/K[" ++ elements ++ "]>>endobj\ntrailer<</Root 1 0 R>>\n%%EOF")

/-- The run with the two rules on such a document. -/
def headingsRun (elements : String) : Option (ParsedDocument × AccessibilityGraph × ProfileReport) :=
  match Parser.parse ⟨{}, none⟩ Crates.unused (headingsSource elements) with
  | .ok doc =>
    match buildAccessibilityGraph Crates.unused doc.model {},
      validateProfile ModelServices.unused.readingElements doc.model {} 1 false
        (sampleProfile [sehRule, sehnRule]) with
    | .ok tree, .ok report => some (doc, tree, report)
    | _, _ => none
  | .error _ => none

theorem headingsRun_some {elements : String} {doc : ParsedDocument} {tree : AccessibilityGraph}
    {report : ProfileReport} (h : headingsRun elements = some (doc, tree, report)) :
    Parser.parseWithOptions ⟨{}, none⟩ Crates.unused (headingsSource elements) none = .ok doc
      ∧ buildAccessibilityGraph Crates.unused doc.model {} = .ok tree
      ∧ validateProfile ModelServices.unused.readingElements doc.model {} 1 false
        (sampleProfile [sehRule, sehnRule]) = .ok report := by
  unfold headingsRun at h
  split at h
  · rename_i hparse
    split at h
    · rename_i htree hreport
      cases h
      exact ⟨hparse, htree, hreport⟩
    · cases h
  · cases h

theorem usesH_iff {nodes : List AccessibilityNode} :
    UsesH nodes ↔ "H" ∈ nodes.map AccessibilityNode.normalizedRole := by
  simp [UsesH]

theorem mixedHeadings_run : (match headingsRun "<</S/H>><</S/H1>>" with
    | some (_, tree, _) => decide (tree.nodes.map AccessibilityNode.normalizedRole = ["H", "H1"])
    | none => false) = true := by
  decide +kernel

/-- A document with an `H` and an `H1`. -/
theorem deferredHeadings_iff_mixed : ∃ doc tree checks,
    buildAccessibilityGraph Crates.unused doc {} = .ok tree
      ∧ tree.nodes.map AccessibilityNode.normalizedRole = ["H", "H1"]
      ∧ profileChecks ModelServices.unused.readingElements
        (profileGraph ModelServices.unused.readingElements doc {} (sampleProfile [sehRule, sehnRule]))
        [sehRule, sehnRule] = .ok checks
      ∧ (FailsHeadings sehRule sehnRule checks ↔ UsesH tree.nodes ∧ UsesHn tree.nodes) := by
  have hrun := mixedHeadings_run
  split at hrun
  · rename_i doc tree report hheadings
    have hroles := of_decide_eq_true hrun
    obtain ⟨hparse, htree, hreport⟩ := headingsRun_some hheadings
    obtain ⟨checks, tree', -, hchecks, htree', hiff⟩ := deferredHeadings_iff ModelServices.unused
      ⟨{}, none⟩ Crates.unused _ none doc hparse {} ⟨1, by decide, by decide⟩ false
      (sampleProfile [sehRule, sehnRule]) report hreport sehRule sehnRule List.mem_cons_self
      sehRule_imported (List.mem_cons_of_mem _ List.mem_cons_self) sehnRule_imported
    cases htree.symm.trans htree'
    refine ⟨doc.model, tree, checks, htree, hroles, hchecks, hiff.mpr ?_⟩
    have hH : UsesH tree.nodes := by
      rw [usesH_iff, hroles]
      decide
    have hHn : UsesHn tree.nodes := by
      have hmem : "H1" ∈ tree.nodes.map AccessibilityNode.normalizedRole := by
        rw [hroles]
        decide
      obtain ⟨node, hnode, hrole⟩ := List.mem_map.mp hmem
      refine ⟨node, hnode, ?_⟩
      rw [hrole]
      decide
    refine ⟨fun _ _ => Nat.succ_pos 127, ?_⟩
    intro hunmixed
    exact absurd ⟨hH, hHn⟩ hunmixed
  · cases hrun

theorem singleHeading_run : (match headingsRun "<</S/H1>>" with
    | some (_, tree, _) => decide (tree.nodes.map AccessibilityNode.normalizedRole = ["H1"])
    | none => false) = true := by
  decide +kernel

/-- The rule on `H` fails on a document whose only heading is an `H1`. -/
theorem singleHeading_fails : ∃ doc tree checks report,
    Parser.parse ⟨{}, none⟩ Crates.unused (headingsSource "<</S/H1>>") = .ok doc
      ∧ validateProfile ModelServices.unused.readingElements doc.model {} 1 false
        (sampleProfile [sehRule, sehnRule]) = .ok report
      ∧ profileChecks ModelServices.unused.readingElements
        (profileGraph ModelServices.unused.readingElements doc.model {}
          (sampleProfile [sehRule, sehnRule])) [sehRule, sehnRule] = .ok checks
      ∧ buildAccessibilityGraph Crates.unused doc.model {} = .ok tree
      ∧ FailsHeadings sehRule sehnRule checks ∧ ¬ (UsesH tree.nodes ∧ UsesHn tree.nodes) := by
  have hrun := singleHeading_run
  split at hrun
  · rename_i doc tree report hheadings
    have hroles := of_decide_eq_true hrun
    obtain ⟨hparse, htree, hreport⟩ := headingsRun_some hheadings
    obtain ⟨checks, state, hchecks, hevaluations, -, -, -⟩ :=
      validateProfile_accounted (by decide) hreport
    refine ⟨doc, tree, checks, report, hparse, hreport, hchecks, htree, ?_, ?_⟩
    · have hmem : "H1" ∈ tree.nodes.map AccessibilityNode.normalizedRole := by
        rw [hroles]
        decide
      obtain ⟨node, hnode, hrole⟩ := List.mem_map.mp hmem
      refine (failsHeadings_iff hevaluations (parseWithOptions_keyed hparse) htree rfl rfl
        List.mem_cons_self rfl rfl (List.mem_cons_of_mem _ List.mem_cons_self) rfl rfl).mpr
        ⟨Nat.succ_pos 127, .inr (.inl ⟨node, hnode, ?_⟩)⟩
      rw [hrole]
      decide
    · rintro ⟨hH, -⟩
      rw [usesH_iff, hroles] at hH
      revert hH
      decide
  · cases hrun

end Pdfv
