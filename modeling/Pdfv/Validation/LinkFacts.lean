import Pdfv.Validation.Graph
/-!
# Which objects are linked

A generic model is either reached by an entry of a known name, and then it has one of few families, or
it is made from an indirect object. An accessibility object belongs to the graph of the document. The
facts are collected along the functions that build the lists of links, up to `linkedObjects_sourced`.
-/

namespace Pdfv

open Loop Fallible

/-- The families of generic models. -/
def genericFamilies : List Family :=
  [.pageTree, .resource, .names, .outline, .destination, .acroForm, .optionalContentProperties,
   .permissions, .cMap, .embeddedFontFile, .image, .xObject, .formXObject, .postScriptXObject,
   .action, .formField, .fileSpec, .colorSpace, .iccProfile, .extGState, .pattern, .shading,
   .function, .structureTreeRoot, .structureElement, .signature, .security]

/-- The family of a generic model is one of the generic families. -/
def GenericModel.Listed (model : GenericModel) : Prop :=
  model.family ∈ genericFamilies

/-- A model object whose family, if it is generic, is one of the generic families. -/
def ModelObjectRef.Listed : ModelObjectRef → Prop
  | generic model => model.Listed
  | _ => True

/-- The families of the models that an entry of a known name leads to. -/
def namedFamilies : List Family :=
  [.resource, .names, .outline, .destination, .acroForm, .optionalContentProperties, .permissions,
   .image, .xObject, .postScriptXObject, .action, .formField, .fileSpec, .colorSpace, .extGState,
   .pattern, .shading, .structureTreeRoot]

/-- A generic model that an entry of a known name leads to. -/
def GenericModel.Named (model : GenericModel) : Prop :=
  model.family ∈ namedFamilies

/-- A model object that is no accessibility object, and whose name is known if it is generic. -/
def ModelObjectRef.Named : ModelObjectRef → Prop
  | generic model => model.Named
  | accessibility _ _ => False
  | _ => True

/-- A generic model that is made from an indirect object. -/
structure GenericModel.MadeFrom (model : GenericModel) (object : IndirectObject) : Prop where
  key : model.key = some object.key
  dictionary : object.object.asDictionary = some model.dictionary.value
  classified : classifyDictionary model.dictionary.value = some model.family
  kept : model.family ∉ ModelDocument.skippedIndirectFamilies

/-- Where a generic model comes from. -/
def GenericModel.Sourced (graph : ModelGraph) (model : GenericModel) : Prop :=
  model.Named ∨ graph.materializesGenericRoots = true
    ∧ ∃ object ∈ graph.document.objects.values, model.MadeFrom object

/-- A structure element is a node of the graph, or a child of one. -/
def AccessibilityModelKind.Inside (accessibility : AccessibilityGraph) : AccessibilityModelKind → Prop
  | structureElement id => ∃ node ∈ accessibility.nodes, id = node.id ∨ id ∈ node.children
  | _ => True

/-- Where a model object comes from: the accessibility objects belong to the graph of the document. -/
def ModelObjectRef.Sourced (graph : ModelGraph) : ModelObjectRef → Prop
  | generic model => model.Sourced graph
  | accessibility tree kind =>
    buildAccessibilityGraph graph.crates graph.document graph.limits = .ok tree ∧ kind.Inside tree
  | _ => True

theorem ModelObjectRef.Named.sourced {graph : ModelGraph} {object : ModelObjectRef}
    (h : object.Named) : object.Sourced graph := by
  cases object with
  | generic model => exact .inl h
  | accessibility tree kind => exact h.elim
  | _ => trivial

/-! ## Lists -/

/-- A pushed list has the old objects and the new. -/
theorem pushLinked_eq {α : Type} {budget : Nat} {objects items linked : List α}
    (h : pushLinked budget objects items = .ok linked) : linked = objects ++ items := by
  unfold pushLinked at h
  split at h
  · cases h
    rfl
  · cases h

theorem pushLinked_forall {α : Type} {P : α → Prop} {budget : Nat} {objects items linked : List α}
    (h : pushLinked budget objects items = .ok linked) (hobjects : ∀ o ∈ objects, P o)
    (hitems : ∀ o ∈ items, P o) : ∀ o ∈ linked, P o := by
  rw [pushLinked_eq h]
  intro o ho
  rcases List.mem_append.mp ho with ho | ho
  · exact hobjects o ho
  · exact hitems o ho

theorem forall_map_generic {models : List GenericModel} (h : ∀ m ∈ models, m.Named) :
    ∀ o ∈ models.map ModelObjectRef.generic, o.Named := by
  intro o ho
  obtain ⟨model, hmodel, rfl⟩ := List.mem_map.mp ho
  exact h model hmodel

/-- Objects that are not generic models are listed. -/
theorem forall_map_named {α : Type} {f : α → ModelObjectRef} (hf : ∀ a, (f a).Named)
    (items : List α) : ∀ o ∈ items.map f, o.Named := by
  intro o ho
  obtain ⟨a, _, rfl⟩ := List.mem_map.mp ho
  exact hf a

theorem forall_nil {α : Type} {P : α → Prop} : ∀ o ∈ ([] : List α), P o := by
  intro o ho
  cases ho

theorem forall_toList {α : Type} {P : α → Prop} {x : Option α} (h : ∀ a, x = some a → P a) :
    ∀ a ∈ x.toList, P a := by
  intro a ha
  exact h a (Option.mem_toList.mp ha)

/-- A list that grows by at most one model for each item. -/
theorem foldl_append_forall {α β : Type} {P : β → Prop} (f : List β → α → List β)
    {items : List α} (hf : ∀ a ∈ items, ∀ models, (∀ m ∈ models, P m) → ∀ m ∈ f models a, P m)
    (models : List β) (hmodels : ∀ m ∈ models, P m) : ∀ m ∈ items.foldl f models, P m := by
  induction items generalizing models with
  | nil => exact hmodels
  | cons a items ih =>
    exact ih (fun b hb => hf b (List.mem_cons_of_mem a hb)) (f models a)
      (hf a List.mem_cons_self models hmodels)

theorem append_toList_forall {α : Type} {P : α → Prop} {models : List α} {x : Option α}
    (hmodels : ∀ m ∈ models, P m) (hx : ∀ a, x = some a → P a) : ∀ m ∈ models ++ x.toList, P m := by
  intro m hm
  rcases List.mem_append.mp hm with hm | hm
  · exact hmodels m hm
  · exact forall_toList hx m hm

/-! ## Models of values -/

section Models

variable {doc : ModelDocument} {family : Family}

theorem dictionaryBackedModel_family {value : Option (Located CosObject)} {ordinal : Nat}
    {context : String} {model : GenericModel}
    (h : doc.dictionaryBackedModel value family ordinal context = some model) :
    model.family = family := by
  obtain ⟨found, _, rfl⟩ := Option.map_eq_some_iff.mp h
  rfl

theorem modelFromValue_family {value : Option (Located CosObject)} {ordinal : Nat}
    {context : String} {model : GenericModel}
    (h : doc.modelFromValue value family ordinal context = some model) : model.family = family := by
  unfold ModelDocument.modelFromValue at h
  split at h
  · split at h
    · cases h
      rfl
    · cases h
  · exact dictionaryBackedModel_family h

theorem modelsFromEntry_family (value : Option (Located CosObject)) (contextPrefix : String) :
    ∀ m ∈ doc.modelsFromEntry value family contextPrefix, m.family = family := by
  unfold ModelDocument.modelsFromEntry
  split
  · refine foldl_append_forall _ ?_ [] forall_nil
    intro item _ models hmodels
    exact append_toList_forall hmodels fun _ h => modelFromValue_family h
  · exact forall_toList fun _ h => modelFromValue_family h

theorem actionModels_family (value : Option (Located CosObject)) (key : String) (ordinal : Nat)
    (context : String) (actions : List GenericModel) (hactions : ∀ m ∈ actions, m.family = .action) :
    ∀ m ∈ doc.actionModels value key ordinal context actions, m.family = .action := by
  unfold ModelDocument.actionModels
  split
  · refine foldl_append_forall _ ?_ actions hactions
    intro entry _ models hmodels
    exact append_toList_forall hmodels fun _ h => dictionaryBackedModel_family h
  · exact append_toList_forall hactions fun _ h => dictionaryBackedModel_family h

theorem actionModelsFromEntries_family {dictionary : Located Dictionary} {keys : List String}
    {ordinal : Nat} {contextPrefix : String} {budget : Nat} {models : List GenericModel}
    (h : doc.actionModelsFromEntries dictionary keys ordinal contextPrefix budget = .ok models) :
    ∀ m ∈ models, m.family = .action := by
  refine pushLinked_forall h forall_nil (foldl_append_forall _ ?_ [] forall_nil)
  intro key _ actions hactions
  exact actionModels_family _ _ _ _ actions hactions

/-- A model of a named family is named. -/
theorem named_of_family {model : GenericModel} (hf : family ∈ namedFamilies)
    (h : model.family = family) : model.Named := by
  rw [GenericModel.Named, h]
  exact hf

theorem dictionaryBackedModel_named (hf : family ∈ namedFamilies)
    {value : Option (Located CosObject)} {ordinal : Nat} {context : String} {model : GenericModel}
    (h : doc.dictionaryBackedModel value family ordinal context = some model) : model.Named :=
  named_of_family hf (dictionaryBackedModel_family h)

theorem modelFromValue_named (hf : family ∈ namedFamilies) {value : Option (Located CosObject)}
    {ordinal : Nat} {context : String} {model : GenericModel}
    (h : doc.modelFromValue value family ordinal context = some model) : model.Named :=
  named_of_family hf (modelFromValue_family h)

theorem genericModelsFromEntry_named (hf : family ∈ namedFamilies)
    {value : Option (Located CosObject)} {contextPrefix : String} {budget : Nat}
    {models : List GenericModel}
    (h : doc.genericModelsFromEntry value family contextPrefix budget = .ok models) :
    ∀ m ∈ models, m.Named :=
  pushLinked_forall h forall_nil fun m hm =>
    named_of_family hf (modelsFromEntry_family value contextPrefix m hm)

theorem actionModelsFromEntries_named {dictionary : Located Dictionary} {keys : List String}
    {ordinal : Nat} {contextPrefix : String} {budget : Nat} {models : List GenericModel}
    (h : doc.actionModelsFromEntries dictionary keys ordinal contextPrefix budget = .ok models) :
    ∀ m ∈ models, m.Named := fun m hm =>
  named_of_family (by decide) (actionModelsFromEntries_family h m hm)

/-- What holds of every row of a classification table holds of what it finds. -/
theorem classifyName_forall {α : Type} {P : α → Prop} {table : List (String × α)}
    {value : Option CosObject} {a : α} (htable : ∀ row ∈ table, P row.2)
    (h : classifyName table value = some a) : P a := by
  unfold classifyName at h
  split at h
  · obtain ⟨row, hrow, rfl⟩ := Option.map_eq_some_iff.mp h
    exact htable row (List.mem_of_find?_eq_some hrow)
  · cases h

theorem classifyXObject_mem {dictionary : Dictionary} {found : Family}
    (h : classifyXObject dictionary = some found) : found ∈ namedFamilies := by
  refine classifyName_forall ?_ h
  decide

theorem namedFamilies_generic : namedFamilies ⊆ genericFamilies := by
  decide

/-- What an indirect object is classified as is a generic family, unless it has a wrapper of its
own. -/
theorem classifyDictionary_mem {dictionary : Dictionary} {found : Family}
    (h : classifyDictionary dictionary = some found) :
    found ∈ genericFamilies ++ ModelDocument.skippedIndirectFamilies := by
  unfold classifyDictionary at h
  rcases Option.or_eq_some_iff.mp h with h | ⟨_, h⟩
  · refine classifyName_forall ?_ h
    decide
  rcases Option.or_eq_some_iff.mp h with h | ⟨_, h⟩
  · have hx : (classifyXObject dictionary).getD .xObject
        ∈ genericFamilies ++ ModelDocument.skippedIndirectFamilies := by
      cases hx : classifyXObject dictionary with
      | none => decide
      | some family => exact List.mem_append_left _ (namedFamilies_generic (classifyXObject_mem hx))
    refine classifyName_forall ?_ h
    simp only [List.forall_mem_cons, hx]
    decide
  · unfold classifyEntries at h
    repeat' split at h
    all_goals first | (cases h; decide) | cases h

end Models

/-! ## Generic roots -/

section Roots

variable {doc : ModelDocument}

theorem catalogGenericModels_named (catalog : CatalogModel) :
    ∀ m ∈ doc.catalogGenericModels catalog, m.Named := by
  have hrows : ∀ row ∈ ModelDocument.catalogGenericRows, row.1 ∈ namedFamilies := by decide
  unfold ModelDocument.catalogGenericModels
  split
  · exact forall_nil
  · intro m hm
    rcases List.mem_append.mp hm with hm | hm
    · refine foldl_append_forall _ ?_ [] forall_nil m hm
      intro row hrow models hmodels
      exact append_toList_forall hmodels fun _ h => dictionaryBackedModel_named (hrows row hrow) h
    · obtain ⟨item, _, hitem⟩ := List.mem_filterMap.mp hm
      exact dictionaryBackedModel_named (by decide) hitem

theorem resourceModel_named {family : Family} (hf : family ∈ namedFamilies) {ordinal : Nat}
    {context : String} {value : Located CosObject} {model : GenericModel}
    (h : doc.resourceModel family ordinal context value = some model) : model.Named := by
  unfold ModelDocument.resourceModel at h
  split at h
  · obtain ⟨found, _, rfl⟩ := Option.map_eq_some_iff.mp h
    exact hf
  · obtain ⟨found, _, rfl⟩ := Option.map_eq_some_iff.mp h
    show (if family = .xObject then (classifyXObject found.dictionary.value).getD family else family)
      ∈ namedFamilies
    split
    · cases hx : classifyXObject found.dictionary.value with
      | none => exact hf
      | some family => exact classifyXObject_mem hx
    · exact hf

theorem pageGenericModels_named (pageOrdinal : Nat) (effective : EffectiveResources) :
    ∀ m ∈ doc.pageGenericModels pageOrdinal effective, m.Named := by
  have hrows : ∀ row ∈ ModelDocument.resourceRows, row.2 ∈ namedFamilies := by decide
  intro m hm
  obtain ⟨entry, _, hm⟩ := List.mem_flatMap.mp hm
  rcases List.mem_cons.mp hm with rfl | hm
  · show Family.resource ∈ namedFamilies
    decide
  · obtain ⟨row, hrow, hm⟩ := List.mem_flatMap.mp hm
    obtain ⟨item, _, hitem⟩ := List.mem_filterMap.mp hm
    exact resourceModel_named (hrows row hrow) hitem

theorem indirectGenericModels_madeFrom (count : Nat) :
    ∀ m ∈ doc.indirectGenericModels count, ∃ object ∈ doc.objects.values, m.MadeFrom object := by
  intro m hm
  obtain ⟨index, hindex, rfl⟩ := List.mem_mapIdx.mp hm
  obtain ⟨object, hobject, hentry⟩ := List.mem_filterMap.mp (List.getElem_mem hindex)
  obtain ⟨dictionary, hdictionary, hentry⟩ := Option.bind_eq_some_iff.mp hentry
  obtain ⟨family, hfamily, heq⟩ := Option.map_eq_some_iff.mp hentry
  obtain ⟨hclass, hskip⟩ := Option.filter_eq_some_iff.mp hfamily
  rw [← heq]
  refine ⟨object, hobject, rfl, hdictionary, hclass, ?_⟩
  intro hmem
  rw [List.contains_iff_mem.mpr hmem] at hskip
  cases hskip

/-- Every indirect object of a generic family has its model. -/
theorem exists_madeFrom (count : Nat) {object : IndirectObject} {dictionary : Dictionary}
    {family : Family} (hobject : object ∈ doc.objects.values)
    (hdictionary : object.object.asDictionary = some dictionary)
    (hclass : classifyDictionary dictionary = some family)
    (hkept : family ∉ ModelDocument.skippedIndirectFamilies) :
    ∃ m ∈ doc.indirectGenericModels count, m.MadeFrom object ∧ m.family = family := by
  unfold ModelDocument.indirectGenericModels
  dsimp only
  generalize hfound : (doc.objects.values.filterMap fun object =>
    object.object.asDictionary.bind fun dictionary =>
      ((classifyDictionary dictionary).filter fun family =>
        !ModelDocument.skippedIndirectFamilies.contains family).map fun family =>
          (object, dictionary, family)) = found
  have hmem : (object, dictionary, family) ∈ found := by
    rw [← hfound]
    refine List.mem_filterMap.mpr ⟨object, hobject, ?_⟩
    rw [hdictionary, Option.bind_some, hclass, Option.filter_some, if_pos, Option.map_some]
    simpa using hkept
  obtain ⟨index, hindex, heq⟩ := List.getElem_of_mem hmem
  refine ⟨_, List.mem_mapIdx.mpr ⟨index, hindex, rfl⟩, ?_⟩
  rw [heq]
  exact ⟨⟨rfl, hdictionary, hclass, hkept⟩, rfl⟩

theorem rootGenericModels_named {limits : ResourceLimits} {budget : Nat}
    {models : List GenericModel} (h : doc.rootGenericModels limits budget = .ok models) :
    ∀ m ∈ models, m.Named := by
  unfold ModelDocument.rootGenericModels at h
  split at h
  · cases h
    exact forall_nil
  · rename_i catalog _
    obtain ⟨first, hfirst, h⟩ := bind_eq_ok.mp h
    obtain ⟨pages, _, h⟩ := bind_eq_ok.mp h
    have hstart := pushLinked_forall hfirst forall_nil (catalogGenericModels_named catalog)
    refine @foldlM_inv _ _ _ _ (fun models : List GenericModel => ∀ m ∈ models, m.Named) _ ?_ _ _
      hstart h
    intro page _ models models' hmodels hpush
    obtain ⟨effective, _, hpush⟩ := bind_eq_ok.mp hpush
    exact pushLinked_forall hpush hmodels (pageGenericModels_named _ _)

theorem genericModels_sourced {limits : ResourceLimits} {budget : Nat} {models : List GenericModel}
    (h : doc.genericModels limits budget = .ok models) :
    ∀ m ∈ models, m.Named ∨ ∃ object ∈ doc.objects.values, m.MadeFrom object := by
  obtain ⟨roots, hroots, h⟩ := bind_eq_ok.mp h
  exact pushLinked_forall h (fun m hm => .inl (rootGenericModels_named hroots m hm))
    (fun m hm => .inr (indirectGenericModels_madeFrom _ m hm))

theorem collectNameTreeEntries_named {family : Family} (hf : family ∈ namedFamilies)
    {budget : Nat} {root : Option (Located CosObject)} {context : String}
    {objects models : List GenericModel} (hobjects : ∀ m ∈ objects, m.Named)
    (h : collectNameTreeEntries doc family budget root context objects = .ok models) :
    ∀ m ∈ models, m.Named := by
  unfold collectNameTreeEntries at h
  obtain ⟨stack, _, h⟩ := bind_eq_ok.mp h
  have hgoal : ∀ models, runLoop (nameTreeStep doc family budget) (fun s => .ok s.objects)
      (doc.weight + root.elim 0 (fun root => root.value.weight) + 2) ⟨stack, [], 0, objects⟩
      = .ok models → ∀ m ∈ models, m.Named := by
    refine runLoop_inv (fun s : NameTreeSearch => ∀ m ∈ s.objects, m.Named)
      (fun result : Except PdfvError (List GenericModel) =>
        ∀ models, result = .ok models → ∀ m ∈ models, m.Named) ?_ ?_ ?_ hobjects
    · intro s s' hs hstep
      unfold nameTreeStep at hstep
      split at hstep
      · cases hstep
      · split at hstep
        · cases hstep
          exact hs
        · split at hstep
          · rename_i next hscan
            cases hstep
            unfold scanNameTreeNode at hscan
            obtain ⟨_, _, hscan⟩ := bind_eq_ok.mp hscan
            obtain ⟨objects', hpush, hscan⟩ := bind_eq_ok.mp hscan
            obtain ⟨stack', _, hscan⟩ := bind_eq_ok.mp hscan
            cases pure_eq_ok.mp hscan
            refine pushLinked_forall hpush hs ?_
            intro m hm
            refine foldl_append_forall _ ?_ s.objects hs m (List.mem_of_mem_drop hm)
            intro value _ models hmodels
            exact append_toList_forall hmodels fun _ h => modelFromValue_named hf h
          · cases hstep
    · intro s result hs hstep models hresult
      unfold nameTreeStep at hstep
      split at hstep
      · cases hstep
        cases hresult
        exact hs
      · split at hstep
        · cases hstep
        · split at hstep
          · cases hstep
          · cases hstep
            cases hresult
    · intro s hs models hresult
      cases hresult
      exact hs
  exact hgoal models h

end Roots

/-! ## Links of model objects -/

section Links

variable {graph : ModelGraph} {budget : Nat} {linked : List ModelObjectRef}

theorem documentLinkedObjects_sourced (h : graph.documentLinkedObjects budget = .ok linked) :
    ∀ o ∈ linked, o.Sourced graph := by
  unfold ModelGraph.documentLinkedObjects at h
  obtain ⟨catalogs, hcatalogs, h⟩ := bind_eq_ok.mp h
  obtain ⟨semantics, hsemantics, h⟩ := bind_eq_ok.mp h
  obtain ⟨streams, hstreams, h⟩ := bind_eq_ok.mp h
  have h1 : ∀ o ∈ catalogs, o.Sourced graph := by
    refine pushLinked_forall hcatalogs forall_nil fun o ho => ModelObjectRef.Named.sourced ?_
    exact forall_map_named (by intro _; trivial) _ o ho
  have h2 : ∀ o ∈ semantics, o.Sourced graph := by
    unfold ModelGraph.pushAccessibility at hsemantics
    split at hsemantics
    · obtain ⟨accessibility, hgraph, hsemantics⟩ := bind_eq_ok.mp hsemantics
      refine pushLinked_forall hsemantics h1 ?_
      intro o ho
      cases List.mem_singleton.mp ho
      exact ⟨hgraph, trivial⟩
    · cases hsemantics
      exact h1
  have h3 : ∀ o ∈ streams, o.Sourced graph := by
    unfold ModelGraph.pushStreams at hstreams
    split at hstreams
    · refine pushLinked_forall hstreams h2 ?_
      intro o ho
      obtain ⟨object, _, hobject⟩ := List.mem_filterMap.mp ho
      unfold ModelGraph.streamObject at hobject
      split at hobject
      · split at hobject
        · cases hobject
        · cases hobject
          trivial
      · cases hobject
    · cases hstreams
      exact h2
  unfold ModelGraph.pushGenericRoots at h
  split at h
  · rename_i hroots
    obtain ⟨models, hmodels, h⟩ := bind_eq_ok.mp h
    refine pushLinked_forall h h3 ?_
    intro o ho
    obtain ⟨model, hmodel, rfl⟩ := List.mem_map.mp ho
    rcases genericModels_sourced hmodels model (List.mem_of_mem_filter hmodel) with hnamed | hmade
    · exact .inl hnamed
    · exact .inr ⟨hroots, hmade⟩
  · cases h
    exact h3

/-- The document links to the structure tree where it is asked for. -/
theorem documentLinkedObjects_accessibility (hmaterializes : graph.materializesAccessibility = true)
    (h : graph.documentLinkedObjects budget = .ok linked) :
    ∃ tree, buildAccessibilityGraph graph.crates graph.document graph.limits = .ok tree
      ∧ ModelObjectRef.accessibility tree .document ∈ linked := by
  unfold ModelGraph.documentLinkedObjects at h
  obtain ⟨catalogs, -, h⟩ := bind_eq_ok.mp h
  obtain ⟨semantics, hsemantics, h⟩ := bind_eq_ok.mp h
  obtain ⟨streams, hstreams, h⟩ := bind_eq_ok.mp h
  unfold ModelGraph.pushAccessibility at hsemantics
  rw [if_pos hmaterializes] at hsemantics
  obtain ⟨tree, htree, hsemantics⟩ := bind_eq_ok.mp hsemantics
  refine ⟨tree, htree, ?_⟩
  have hsemantics : ModelObjectRef.accessibility tree .document ∈ semantics := by
    rw [pushLinked_eq hsemantics]
    exact List.mem_append_right _ (List.mem_singleton.mpr rfl)
  have hstreams : ModelObjectRef.accessibility tree .document ∈ streams := by
    unfold ModelGraph.pushStreams at hstreams
    split at hstreams
    · rw [pushLinked_eq hstreams]
      exact List.mem_append_left _ hsemantics
    · cases hstreams
      exact hsemantics
  unfold ModelGraph.pushGenericRoots at h
  split at h
  · obtain ⟨models, -, h⟩ := bind_eq_ok.mp h
    rw [pushLinked_eq h]
    exact List.mem_append_left _ hstreams
  · cases h
    exact hstreams

/-- The document links to the models of the indirect objects where they are asked for. -/
theorem documentLinkedObjects_madeFrom {object : IndirectObject} {dictionary : Dictionary}
    {family : Family} (hroots : graph.materializesGenericRoots = true)
    (hmaterializes : graph.materializes family = true)
    (hobject : object ∈ graph.document.objects.values)
    (hdictionary : object.object.asDictionary = some dictionary)
    (hclass : classifyDictionary dictionary = some family)
    (hkept : family ∉ ModelDocument.skippedIndirectFamilies)
    (h : graph.documentLinkedObjects budget = .ok linked) :
    ∃ model, model.MadeFrom object ∧ model.family = family ∧ ModelObjectRef.generic model ∈ linked := by
  unfold ModelGraph.documentLinkedObjects at h
  obtain ⟨catalogs, -, h⟩ := bind_eq_ok.mp h
  obtain ⟨semantics, -, h⟩ := bind_eq_ok.mp h
  obtain ⟨streams, -, h⟩ := bind_eq_ok.mp h
  unfold ModelGraph.pushGenericRoots at h
  rw [if_pos hroots] at h
  obtain ⟨models, hmodels, h⟩ := bind_eq_ok.mp h
  obtain ⟨roots, -, hmodels⟩ := bind_eq_ok.mp hmodels
  obtain ⟨model, hmodel, hmade, hfamily⟩ :=
    exists_madeFrom roots.length hobject hdictionary hclass hkept
  refine ⟨model, hmade, hfamily, ?_⟩
  rw [pushLinked_eq h]
  refine List.mem_append_right _ (List.mem_map_of_mem (List.mem_filter.mpr ⟨?_, ?_⟩))
  · rw [pushLinked_eq hmodels]
    exact List.mem_append_right _ hmodel
  · rw [hfamily]
    exact hmaterializes

theorem catalogLinkedObjects_named {catalog : CatalogModel}
    (h : graph.catalogLinkedObjects budget catalog = .ok linked) : ∀ o ∈ linked, o.Named := by
  unfold ModelGraph.catalogLinkedObjects at h
  dsimp only at h
  obtain ⟨metadata, hmetadata, h⟩ := bind_eq_ok.mp h
  obtain ⟨intents, _, h⟩ := bind_eq_ok.mp h
  obtain ⟨withIntents, hintents, h⟩ := bind_eq_ok.mp h
  obtain ⟨pages, _, h⟩ := bind_eq_ok.mp h
  obtain ⟨withPages, hpages, h⟩ := bind_eq_ok.mp h
  obtain ⟨models, hmodels, h⟩ := bind_eq_ok.mp h
  have h1 : ∀ o ∈ metadata, o.Named :=
    pushLinked_forall hmetadata forall_nil (forall_map_named (by intro _; trivial) _)
  have h2 := pushLinked_forall hintents h1 (forall_map_named (by intro _; trivial) _)
  have h3 := pushLinked_forall hpages h2 (forall_map_named (by intro _; trivial) _)
  have h4 := pushLinked_forall hmodels forall_nil (catalogGenericModels_named catalog)
  refine pushLinked_forall h h3 (forall_map_generic ?_)
  intro m hm
  exact h4 m (List.mem_reverse.mp (List.mem_of_mem_filter hm))

theorem pageLinkedObjects_named {page : PageModel}
    (h : graph.pageLinkedObjects budget page = .ok linked) : ∀ o ∈ linked, o.Named := by
  unfold ModelGraph.pageLinkedObjects at h
  dsimp only at h
  obtain ⟨streams, _, h⟩ := bind_eq_ok.mp h
  obtain ⟨withStreams, hstreams, h⟩ := bind_eq_ok.mp h
  obtain ⟨notes, _, h⟩ := bind_eq_ok.mp h
  obtain ⟨withNotes, hnotes, h⟩ := bind_eq_ok.mp h
  obtain ⟨fonts, _, h⟩ := bind_eq_ok.mp h
  obtain ⟨withFonts, hfonts, h⟩ := bind_eq_ok.mp h
  obtain ⟨actions, hactions, h⟩ := bind_eq_ok.mp h
  have h1 : ∀ o ∈ withStreams, o.Named :=
    pushLinked_forall hstreams forall_nil (forall_map_named (by intro _; trivial) _)
  have h2 := pushLinked_forall hnotes h1 (forall_map_named (by intro _; trivial) _)
  have h3 := pushLinked_forall hfonts h2 (forall_map_named (by intro _; trivial) _)
  refine pushLinked_forall h h3 (forall_map_generic ?_)
  intro m hm
  exact actionModelsFromEntries_named hactions m (List.mem_reverse.mp hm)

theorem annotationLinkedObjects_named {model : AnnotationModel}
    (h : graph.annotationLinkedObjects budget model = .ok linked) : ∀ o ∈ linked, o.Named := by
  unfold ModelGraph.annotationLinkedObjects at h
  dsimp only at h
  obtain ⟨fields, hfields, h⟩ := bind_eq_ok.mp h
  obtain ⟨actions, hactions, h⟩ := bind_eq_ok.mp h
  obtain ⟨withActions, hwith, h⟩ := bind_eq_ok.mp h
  have h1 : ∀ o ∈ fields, o.Named := by
    refine pushLinked_forall hfields forall_nil ?_
    split
    · intro o ho
      cases List.mem_singleton.mp ho
      show Family.formField ∈ namedFamilies
      decide
    · exact forall_nil
  have h2 := pushLinked_forall hwith h1 (forall_map_generic fun m hm =>
    actionModelsFromEntries_named hactions m (List.mem_reverse.mp hm))
  refine pushLinked_forall h h2 (forall_map_generic ?_)
  exact forall_toList fun _ h => dictionaryBackedModel_named (by decide) h

theorem contentStreamLinkedObjects_named {model : ContentStreamModel}
    (h : graph.contentStreamLinkedObjects budget model = .ok linked) : ∀ o ∈ linked, o.Named := by
  have hidx : ∀ {α : Type} (f : Nat → α → ModelObjectRef) (items : List α),
      (∀ i a, (f i a).Named) → ∀ o ∈ items.mapIdx f, o.Named := by
    intro α f items hf o ho
    obtain ⟨index, hindex, rfl⟩ := List.mem_mapIdx.mp ho
    exact hf _ _
  unfold ModelGraph.contentStreamLinkedObjects at h
  obtain ⟨summary, _, h⟩ := bind_eq_ok.mp h
  obtain ⟨operators, hoperators, h⟩ := bind_eq_ok.mp h
  obtain ⟨spans, hspans, h⟩ := bind_eq_ok.mp h
  obtain ⟨images, himages, h⟩ := bind_eq_ok.mp h
  have h1 : ∀ o ∈ operators, o.Named := by
    refine pushLinked_forall hoperators forall_nil ?_
    split
    · exact hidx _ _ fun _ _ => trivial
    · exact forall_nil
  have h2 : ∀ o ∈ spans, o.Named := by
    refine pushLinked_forall hspans h1 ?_
    split
    · exact hidx _ _ fun _ _ => trivial
    · exact forall_nil
  have h3 : ∀ o ∈ images, o.Named := by
    refine pushLinked_forall himages h2 ?_
    split
    · exact hidx _ _ fun _ _ => trivial
    · exact forall_nil
  unfold ModelGraph.pushResourceUses at h
  split at h
  · obtain ⟨effective, _, h⟩ := bind_eq_ok.mp h
    exact pushLinked_forall h h3 (hidx _ _ fun _ _ => trivial)
  · cases h
    exact h3

theorem accessibilitySemantics_inside (accessibility : AccessibilityGraph) :
    ∀ kind ∈ accessibilitySemantics accessibility, kind.Inside accessibility := by
  intro kind hkind
  cases kind with
  | structureElement id =>
    simp [accessibilitySemantics, semanticNodeKind] at hkind
    grind
  | _ => trivial

theorem accessibilityLinkedObjects_sourced {accessibility : AccessibilityGraph}
    {kind : AccessibilityModelKind}
    (hgraph : buildAccessibilityGraph graph.crates graph.document graph.limits = .ok accessibility)
    (h : accessibilityLinkedObjects accessibility kind budget = .ok linked) :
    ∀ o ∈ linked, o.Sourced graph := by
  unfold accessibilityLinkedObjects at h
  split at h
  · refine pushLinked_forall h forall_nil ?_
    intro o ho
    obtain ⟨linkedKind, hkind, rfl⟩ := List.mem_map.mp ho
    refine ⟨hgraph, ?_⟩
    rcases List.mem_append.mp hkind with hkind | hkind
    · obtain ⟨node, hnode, rfl⟩ := List.mem_map.mp hkind
      exact ⟨node, hnode, .inl rfl⟩
    · exact accessibilitySemantics_inside accessibility linkedKind hkind
  · split at h
    · cases h
    · rename_i node hnode
      refine pushLinked_forall h forall_nil ?_
      intro o ho
      obtain ⟨child, hchild, rfl⟩ := List.mem_map.mp ho
      exact ⟨hgraph, node, List.mem_of_getElem? hnode, .inr hchild⟩
  · cases h
    exact forall_nil

theorem formFieldLinkedObjects_named {model : GenericModel} {models : List GenericModel}
    (h : graph.formFieldLinkedObjects budget model = .ok models) : ∀ m ∈ models, m.Named := by
  unfold ModelGraph.formFieldLinkedObjects at h
  dsimp only at h
  obtain ⟨kids, hkids, h⟩ := bind_eq_ok.mp h
  obtain ⟨parents, hparents, h⟩ := bind_eq_ok.mp h
  obtain ⟨withParent, hwith, h⟩ := bind_eq_ok.mp h
  obtain ⟨actions, hactions, h⟩ := bind_eq_ok.mp h
  obtain ⟨withActions, hwith', h⟩ := bind_eq_ok.mp h
  have h1 := genericModelsFromEntry_named (by decide) hkids
  have h2 := pushLinked_forall hwith h1 fun m hm =>
    genericModelsFromEntry_named (by decide) hparents m (List.mem_of_mem_take hm)
  have h3 := pushLinked_forall hwith' h2 fun m hm =>
    actionModelsFromEntries_named hactions m (List.mem_reverse.mp hm)
  exact pushLinked_forall h h3 (forall_toList fun _ h =>
    dictionaryBackedModel_named (by decide) h)

theorem actionLinkedObjects_named {model : GenericModel} {models : List GenericModel}
    (h : graph.actionLinkedObjects budget model = .ok models) : ∀ m ∈ models, m.Named := by
  unfold ModelGraph.actionLinkedObjects at h
  dsimp only at h
  obtain ⟨next, hnext, h⟩ := bind_eq_ok.mp h
  obtain ⟨withFile, hfile, h⟩ := bind_eq_ok.mp h
  have h1 := genericModelsFromEntry_named (by decide) hnext
  have h2 := pushLinked_forall hfile h1 (forall_toList fun _ h =>
    dictionaryBackedModel_named (by decide) h)
  exact pushLinked_forall h h2 (forall_toList fun _ h => modelFromValue_named (by decide) h)

theorem outlineLinkedObjects_named {model : GenericModel} {models : List GenericModel}
    (h : graph.outlineLinkedObjects budget model = .ok models) : ∀ m ∈ models, m.Named := by
  unfold ModelGraph.outlineLinkedObjects at h
  dsimp only at h
  obtain ⟨outlines, houtlines, h⟩ := bind_eq_ok.mp h
  obtain ⟨actions, hactions, h⟩ := bind_eq_ok.mp h
  obtain ⟨withActions, hwith, h⟩ := bind_eq_ok.mp h
  have h1 : ∀ m ∈ outlines, m.Named := by
    refine @foldlM_inv _ _ _ _ (fun models : List GenericModel => ∀ m ∈ models, m.Named) _ ?_ _ _
      forall_nil houtlines
    intro key _ objects objects' hobjects hstep
    obtain ⟨found, hfound, hstep⟩ := bind_eq_ok.mp hstep
    exact pushLinked_forall hstep hobjects (genericModelsFromEntry_named (by decide) hfound)
  have h2 := pushLinked_forall hwith h1 fun m hm =>
    actionModelsFromEntries_named hactions m (List.mem_reverse.mp hm)
  exact pushLinked_forall h h2 (forall_toList fun _ h => modelFromValue_named (by decide) h)

theorem namesLinkedObjects_named {model : GenericModel} {models : List GenericModel}
    (h : graph.namesLinkedObjects budget model = .ok models) : ∀ m ∈ models, m.Named := by
  unfold ModelGraph.namesLinkedObjects at h
  obtain ⟨first, hfirst, h⟩ := bind_eq_ok.mp h
  have h1 := collectNameTreeEntries_named (by decide) forall_nil hfirst
  exact collectNameTreeEntries_named (by decide) h1 h

theorem genericLinkedObjects_named {model : GenericModel}
    (h : graph.genericLinkedObjects budget model = .ok linked) : ∀ o ∈ linked, o.Named := by
  have hgeneric : ∀ {x : Except PdfvError (List GenericModel)},
      (∀ models, x = .ok models → ∀ m ∈ models, m.Named) →
      x.map (fun models => models.map ModelObjectRef.generic) = .ok linked →
      ∀ o ∈ linked, o.Named := by
    intro x hx hmap
    cases x with
    | error e => cases hmap
    | ok models =>
      cases hmap
      exact forall_map_generic (hx models rfl)
  unfold ModelGraph.genericLinkedObjects at h
  dsimp only at h
  split at h
  · exact hgeneric (fun _ h => genericModelsFromEntry_named (by decide) h) h
  · exact hgeneric (fun _ h => formFieldLinkedObjects_named h) h
  · exact hgeneric (fun _ h => actionLinkedObjects_named h) h
  · exact hgeneric (fun _ h => outlineLinkedObjects_named h) h
  · exact hgeneric (fun _ h => namesLinkedObjects_named h) h
  · exact hgeneric (fun _ h => actionModelsFromEntries_named h) h
  all_goals first
    | (cases h
       exact forall_nil)
    | (unfold ModelGraph.xobjectLinkedObjects at h
       split at h
       · exact pushLinked_forall h forall_nil (forall_map_named (by intro _; trivial) _)
       · cases h
         exact forall_nil)

/-- The links of a sourced object are sourced. -/
theorem linkedObjects_sourced {object : ModelObjectRef} (hobject : object.Sourced graph)
    (h : graph.linkedObjects budget object = .ok linked) : ∀ o ∈ linked, o.Sourced graph := by
  cases object with
  | document => exact documentLinkedObjects_sourced h
  | catalog catalog => exact fun o ho => (catalogLinkedObjects_named h o ho).sourced
  | page page => exact fun o ho => (pageLinkedObjects_named h o ho).sourced
  | annotation model => exact fun o ho => (annotationLinkedObjects_named h o ho).sourced
  | contentStream model => exact fun o ho => (contentStreamLinkedObjects_named h o ho).sourced
  | accessibility accessibility kind => exact accessibilityLinkedObjects_sourced hobject.1 h
  | generic model => exact fun o ho => (genericLinkedObjects_named h o ho).sourced
  | _ =>
    cases h
    exact forall_nil

/-- A sourced generic model has one of the generic families. -/
theorem GenericModel.Sourced.listed {model : GenericModel} (h : model.Sourced graph) :
    model.Listed := by
  rcases h with hnamed | ⟨-, object, -, hmade⟩
  · exact namedFamilies_generic hnamed
  · rcases List.mem_append.mp (classifyDictionary_mem hmade.classified) with hmem | hskipped
    · exact hmem
    · exact absurd hskipped hmade.kept

theorem ModelObjectRef.Sourced.listed {object : ModelObjectRef} (h : object.Sourced graph) :
    object.Listed := by
  cases object with
  | generic model => exact GenericModel.Sourced.listed h
  | _ => trivial

end Links

end Pdfv
