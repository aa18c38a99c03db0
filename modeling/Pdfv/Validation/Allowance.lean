import Pdfv.Validation.Accounting
/-!
# A larger allowance of objects

The object limit bounds the page tree, every list of links and the walk itself, and nothing else
reads it. So the links of an object under a smaller limit or budget are the links under a larger one,
or the limit error (`linkedObjects_cutShort`), and a walk that the limit cuts off has visited the
first objects of the complete one (`visit_initial`).
-/

namespace Pdfv

open Loop Fallible

/-- The same limits with another object limit. -/
def ResourceLimits.withObjects (limits : ResourceLimits) (maxObjects : Nat) : ResourceLimits :=
  { limits with maxObjects }

/-- The same graph with another object limit. -/
def ModelGraph.withObjects (graph : ModelGraph) (maxObjects : Nat) : ModelGraph :=
  { graph with limits := graph.limits.withObjects maxObjects }

/-- The error of the object limit. -/
abbrev objectLimit : PdfvError :=
  .limit "max_objects"

/-! ## What does not read the object limit -/

section Ignored

variable {limits limits' : ResourceLimits}

/-- The decoders read one limit. -/
def DecoderRegistry.ReadsDecodeLimit (registry : DecoderRegistry) : Prop :=
  ∀ name decoder, registry.get? name = some decoder → ∀ input params limits limits',
    ResourceLimits.maxStreamDecodeBytes limits = ResourceLimits.maxStreamDecodeBytes limits' →
      decoder input params limits = decoder input params limits'

theorem registerMany_readsDecodeLimit {registry : DecoderRegistry} {names : List String}
    {decoder : StreamDecoder} (h : registry.ReadsDecodeLimit)
    (hdecoder : ∀ input params limits limits',
      ResourceLimits.maxStreamDecodeBytes limits = ResourceLimits.maxStreamDecodeBytes limits' →
        decoder input params limits = decoder input params limits') :
    (registry.registerMany names decoder).ReadsDecodeLimit := by
  unfold DecoderRegistry.registerMany
  induction names generalizing registry with
  | nil => exact h
  | cons name names ih =>
    apply ih
    intro name' decoder' hget
    rw [OrdMap.get?_insert] at hget
    split at hget
    · cases hget
      exact hdecoder
    · exact h name' decoder' hget

theorem DecoderRegistry.new_readsDecodeLimit (crates : Crates) :
    (DecoderRegistry.new crates).ReadsDecodeLimit := by
  have hempty : DecoderRegistry.ReadsDecodeLimit OrdMap.empty := by
    intro name decoder hget
    cases hget
  unfold DecoderRegistry.new
  refine registerMany_readsDecodeLimit (registerMany_readsDecodeLimit
    (registerMany_readsDecodeLimit (registerMany_readsDecodeLimit (registerMany_readsDecodeLimit
      (registerMany_readsDecodeLimit (registerMany_readsDecodeLimit hempty ?_) ?_) ?_) ?_) ?_) ?_)
    ?_
  all_goals
    intro input params limits limits' hlimit
    simp only [flateDecoder, asciiHexDecoder, ascii85Decoder, runLengthDecoder, lzwDecoder,
      cryptDecoder, metadataModeDecoder, hlimit]

theorem applyFilters_readsDecodeLimit {registry : DecoderRegistry} (h : registry.ReadsDecodeLimit)
    (hlimit : limits.maxStreamDecodeBytes = limits'.maxStreamDecodeBytes)
    (params : List DecodeParams) (index : Nat) (filters : List PdfName) (decoded : DecodedStream) :
    applyFilters registry limits params index filters decoded
      = applyFilters registry limits' params index filters decoded := by
  induction filters generalizing index decoded with
  | nil => rfl
  | cons filter filters ih =>
    simp only [applyFilters, ih, applyFilter]
    cases hget : registry.get? filter with
    | none => rfl
    | some decoder => simp only [h filter decoder hget _ _ limits limits' hlimit, hlimit]

theorem decodedBytes_withObjects (crates : Crates) (limits : ResourceLimits) (maxObjects : Nat)
    {D : Type} (stream : StreamOf D) :
    stream.decodedBytes crates (limits.withObjects maxObjects) = stream.decodedBytes crates limits := by
  have hfilters := @applyFilters_readsDecodeLimit (limits.withObjects maxObjects) limits _
    (DecoderRegistry.new_readsDecodeLimit crates) rfl
  simp only [StreamOf.decodedBytes, StreamOf.decodedBytesWithRegistry, hfilters]
  rfl

variable (crates : Crates) (doc : ModelDocument) (limits : ResourceLimits) (maxObjects : Nat)

theorem summary_withObjects (model : ContentStreamModel) :
    model.summary crates (limits.withObjects maxObjects) = model.summary crates limits := by
  simp only [ContentStreamModel.summary, decodedBytes_withObjects]
  rfl

theorem collectNums_withObjects (pageOrdinals : OrdMap ObjectKey Nat)
    (owners : OrdMap Int ParentTreeOwner) (tree : NumberTree)
    (pairs : List (CosObject × Option CosObject)) :
    collectNums doc (limits.withObjects maxObjects) pageOrdinals owners tree pairs
      = collectNums doc limits pageOrdinals owners tree pairs := by
  induction pairs generalizing tree with
  | nil => rfl
  | cons pair pairs ih =>
    simp only [collectNums, ih]
    rfl

theorem collectIds_withObjects (tree : OrdMap String ObjectKey) (warnings : List ValidationWarning)
    (pairs : List (CosObject × Option CosObject)) :
    collectIds (limits.withObjects maxObjects) tree warnings pairs
      = collectIds limits tree warnings pairs := by
  induction pairs generalizing tree warnings with
  | nil => rfl
  | cons pair pairs ih =>
    simp only [collectIds, ih]
    rfl

theorem collectParentTree_withObjects (pageOrdinals : OrdMap ObjectKey Nat)
    (owners : OrdMap Int ParentTreeOwner) (value : CosObject) (warnings : List ValidationWarning) :
    collectParentTree doc (limits.withObjects maxObjects) pageOrdinals owners value warnings
      = collectParentTree doc limits pageOrdinals owners value warnings := by
  have hstep : collectParentTreeStep doc (limits.withObjects maxObjects) pageOrdinals owners
      = collectParentTreeStep doc limits pageOrdinals owners := by
    funext s
    simp only [collectParentTreeStep, collectNums_withObjects]
  unfold collectParentTree
  rw [hstep]

theorem collectIdTree_withObjects (value : CosObject) (warnings : List ValidationWarning) :
    collectIdTree doc (limits.withObjects maxObjects) value warnings
      = collectIdTree doc limits value warnings := by
  have hstep : collectIdTreeStep doc (limits.withObjects maxObjects)
      = collectIdTreeStep doc limits := by
    funext s
    simp only [collectIdTreeStep, collectIds_withObjects]
  unfold collectIdTree
  rw [hstep]

theorem collectStreamAssociations_withObjects (parentTree : NumberTree) (page : PageContent)
    (graph : AccessibilityGraph) (entry : KeyedStream × Nat) :
    collectStreamAssociations doc parentTree crates (limits.withObjects maxObjects) page graph entry
      = collectStreamAssociations doc parentTree crates limits page graph entry := by
  simp only [collectStreamAssociations, decodedBytes_withObjects]
  rfl

theorem collectContentAssociations_withObjects (parentTree : NumberTree)
    (pages : List PageContent) (graph : AccessibilityGraph) :
    collectContentAssociations doc parentTree crates (limits.withObjects maxObjects) pages graph
      = collectContentAssociations doc parentTree crates limits pages graph := by
  have hstream : ∀ page, collectStreamAssociations doc parentTree crates
      (limits.withObjects maxObjects) page
      = collectStreamAssociations doc parentTree crates limits page := by
    intro page
    funext graph entry
    exact collectStreamAssociations_withObjects crates doc limits maxObjects parentTree page graph
      entry
  simp only [collectContentAssociations, hstream]

end Ignored

/-! ## What the object limit cuts short -/

section Cut

variable {limits : ResourceLimits} {maxObjects budget budget' : Nat}

theorem pushLinked_cutShort {α : Type} (h : budget ≤ budget') (objects items : List α) :
    CutShort objectLimit (pushLinked budget objects items) (pushLinked budget' objects items) := by
  unfold pushLinked
  by_cases hfits : (items.isEmpty || objects.length + items.length ≤ budget) = true
  · rw [if_pos hfits, if_pos]
    · exact .refl _
    · rw [Bool.or_eq_true, decide_eq_true_iff] at hfits ⊢
      exact hfits.imp id fun hle => hle.trans h
  · rw [if_neg hfits]
    exact .error _

theorem failIf_cutShort {bad bad' : Prop} [Decidable bad] [Decidable bad'] (h : bad' → bad) :
    CutShort objectLimit (failIf bad objectLimit) (failIf bad' objectLimit) := by
  unfold failIf
  by_cases hbad : bad
  · rw [if_pos hbad]
    exact .error _
  · rw [if_neg hbad, if_neg fun hbad' => hbad (h hbad')]
    exact .refl _

/-! ### The page tree -/

theorem collectPages_cutShort (doc : ModelDocument) (h : limits.maxObjects ≤ maxObjects) :
    CutShort objectLimit (collectPages doc limits)
      (collectPages doc (limits.withObjects maxObjects)) := by
  unfold collectPages
  split
  · exact .refl _
  · apply CutShort.runLoop
    intro s
    unfold collectPagesStep
    cases s.stack with
    | nil => exact .inl rfl
    | cons key stack =>
      dsimp only
      by_cases hseen : key ∈ s.visited
      · rw [if_pos hseen, if_pos hseen]
        exact .inl rfl
      · rw [if_neg hseen, if_neg hseen]
        by_cases hfull : s.visited.length + 1 > limits.maxObjects
        · rw [if_pos hfull]
          exact .inr rfl
        · rw [if_neg hfull, if_neg (by show ¬ _ > maxObjects; omega)]
          exact .inl rfl

theorem buildAccessibilityGraph_cutShort (crates : Crates) (doc : ModelDocument)
    (h : limits.maxObjects ≤ maxObjects) :
    CutShort objectLimit (buildAccessibilityGraph crates doc limits)
      (buildAccessibilityGraph crates doc (limits.withObjects maxObjects)) := by
  unfold buildAccessibilityGraph
  refine (collectPages_cutShort doc h).bind fun pages _ => ?_
  simp only [collectIdTree_withObjects, collectParentTree_withObjects,
    collectContentAssociations_withObjects]
  exact .refl _

theorem checkedPageNode_cutShort (h : limits.maxObjects ≤ maxObjects)
    (s : ModelDocument.PageModelSearch) :
    ModelDocument.checkedPageNode limits.maxObjects s = ModelDocument.checkedPageNode maxObjects s
      ∨ ModelDocument.checkedPageNode limits.maxObjects s = .done (.error objectLimit) := by
  unfold ModelDocument.checkedPageNode
  by_cases hfull : s.visited.length > limits.maxObjects
  · rw [if_pos hfull]
    exact .inr rfl
  · rw [if_neg hfull, if_neg (by omega)]
    exact .inl rfl

theorem pageModels_cutShort (doc : ModelDocument) (h : limits.maxObjects ≤ maxObjects)
    (hbudget : budget ≤ budget') (catalog : CatalogModel) :
    CutShort objectLimit (doc.pageModels limits catalog budget)
      (doc.pageModels (limits.withObjects maxObjects) catalog budget') := by
  unfold ModelDocument.pageModels
  split
  · exact .refl _
  · apply CutShort.runLoop
    intro s
    unfold ModelDocument.pageModelStep
    cases s.stack with
    | nil => exact .inl rfl
    | cons key stack =>
      dsimp only
      by_cases hseen : key ∈ s.visited
      · rw [if_pos hseen, if_pos hseen]
        exact .inl rfl
      · rw [if_neg hseen, if_neg hseen]
        split
        · exact .inl rfl
        · split
          · exact .inl rfl
          · split
            · by_cases hfull : s.pages.length ≥ budget
              · rw [if_pos hfull]
                exact .inr rfl
              · rw [if_neg hfull, if_neg (by omega)]
                exact checkedPageNode_cutShort h _
            · exact checkedPageNode_cutShort h _

/-! ### Name trees -/

theorem pushNameTreeNode_cutShort (doc : ModelDocument) (h : budget ≤ budget')
    (stack : List NameTreeNode) (value : Option (Located CosObject)) (context : String) :
    CutShort objectLimit (pushNameTreeNode doc budget stack value context)
      (pushNameTreeNode doc budget' stack value context) := by
  unfold pushNameTreeNode
  refine (failIf_cutShort ?_).bind fun _ _ => .refl _
  omega

theorem scanNameTreeNode_cutShort (doc : ModelDocument) (family : Family) (h : budget ≤ budget')
    (s : NameTreeSearch) (node : NameTreeNode) (stack : List NameTreeNode) :
    CutShort objectLimit (scanNameTreeNode doc family budget s node stack)
      (scanNameTreeNode doc family budget' s node stack) := by
  unfold scanNameTreeNode
  refine (failIf_cutShort ?_).bind fun _ _ => ?_
  · omega
  · refine (pushLinked_cutShort h _ _).bind fun objects _ => ?_
    refine (CutShort.foldlM (fun stack kid => ?_) _ _).bind fun _ _ => .refl _
    exact pushNameTreeNode_cutShort doc (by omega) stack _ _

theorem collectNameTreeEntries_cutShort (doc : ModelDocument) (family : Family)
    (h : budget ≤ budget') (root : Option (Located CosObject)) (context : String)
    (objects : List GenericModel) :
    CutShort objectLimit (collectNameTreeEntries doc family budget root context objects)
      (collectNameTreeEntries doc family budget' root context objects) := by
  unfold collectNameTreeEntries
  refine (pushNameTreeNode_cutShort doc h _ _ _).bind fun stack _ => ?_
  apply CutShort.runLoop
  intro s
  unfold nameTreeStep
  split
  · exact .inl rfl
  · rename_i node stack _
    split
    · exact .inl rfl
    · rcases scanNameTreeNode_cutShort doc family h s node stack with heq | heq
      · rw [heq]
        exact .inl rfl
      · rw [heq]
        exact .inr rfl

/-! ### Models -/

theorem genericModelsFromEntry_cutShort (doc : ModelDocument) (h : budget ≤ budget')
    (value : Option (Located CosObject)) (family : Family) (context : String) :
    CutShort objectLimit (doc.genericModelsFromEntry value family context budget)
      (doc.genericModelsFromEntry value family context budget') :=
  pushLinked_cutShort h _ _

theorem actionModelsFromEntries_cutShort (doc : ModelDocument) (h : budget ≤ budget')
    (dictionary : Located Dictionary) (keys : List String) (ordinal : Nat) (context : String) :
    CutShort objectLimit (doc.actionModelsFromEntries dictionary keys ordinal context budget)
      (doc.actionModelsFromEntries dictionary keys ordinal context budget') :=
  pushLinked_cutShort h _ _

theorem fontModels_cutShort (doc : ModelDocument) (h : budget ≤ budget') (page : PageModel) :
    CutShort objectLimit (doc.fontModels limits page budget)
      (doc.fontModels (limits.withObjects maxObjects) page budget') :=
  CutShort.bind_same (effectiveResourcesForPageKey doc limits page.key) fun _ _ =>
    pushLinked_cutShort h _ _

theorem rootGenericModels_cutShort (doc : ModelDocument) (h : limits.maxObjects ≤ maxObjects)
    (hbudget : budget ≤ budget') :
    CutShort objectLimit (doc.rootGenericModels limits budget)
      (doc.rootGenericModels (limits.withObjects maxObjects) budget') := by
  unfold ModelDocument.rootGenericModels
  split
  · exact .refl _
  · refine (pushLinked_cutShort hbudget _ _).bind fun models _ => ?_
    refine (pageModels_cutShort doc h hbudget _).bind fun pages _ => ?_
    apply CutShort.foldlM
    intro models page
    exact CutShort.bind_same (effectiveResourcesForPageKey doc limits page.key) fun _ _ =>
      pushLinked_cutShort hbudget _ _

theorem genericModels_cutShort (doc : ModelDocument) (h : limits.maxObjects ≤ maxObjects)
    (hbudget : budget ≤ budget') :
    CutShort objectLimit (doc.genericModels limits budget)
      (doc.genericModels (limits.withObjects maxObjects) budget') :=
  (rootGenericModels_cutShort doc h hbudget).bind fun _ _ => pushLinked_cutShort hbudget _ _

/-! ### Links -/

section Links

variable {graph : ModelGraph} (h : graph.limits.maxObjects ≤ maxObjects) (hbudget : budget ≤ budget')

include h hbudget

theorem documentLinkedObjects_cutShort :
    CutShort objectLimit (graph.documentLinkedObjects budget)
      ((graph.withObjects maxObjects).documentLinkedObjects budget') := by
  unfold ModelGraph.documentLinkedObjects
  refine (pushLinked_cutShort hbudget _ _).bind fun objects _ => ?_
  refine CutShort.bind ?_ fun objects _ => CutShort.bind ?_ fun objects _ => ?_
  · exact CutShort.ite (fun _ => (buildAccessibilityGraph_cutShort _ _ h).bind fun _ _ =>
      pushLinked_cutShort hbudget _ _) fun _ => .refl _
  · exact CutShort.ite (fun _ => pushLinked_cutShort hbudget _ _) fun _ => .refl _
  · exact CutShort.ite (fun _ => (genericModels_cutShort _ h hbudget).bind fun _ _ =>
      pushLinked_cutShort hbudget _ _) fun _ => .refl _

theorem catalogLinkedObjects_cutShort (catalog : CatalogModel) :
    CutShort objectLimit (graph.catalogLinkedObjects budget catalog)
      ((graph.withObjects maxObjects).catalogLinkedObjects budget' catalog) := by
  unfold ModelGraph.catalogLinkedObjects
  refine (pushLinked_cutShort hbudget _ _).bind fun objects _ => ?_
  refine (pushLinked_cutShort (by omega) _ _).bind fun outputIntents _ => ?_
  refine (pushLinked_cutShort hbudget _ _).bind fun objects _ => ?_
  refine (pageModels_cutShort _ h (by omega) _).bind fun pages _ => ?_
  refine (pushLinked_cutShort hbudget _ _).bind fun objects _ => ?_
  refine (pushLinked_cutShort (by omega) _ _).bind fun models _ => ?_
  exact pushLinked_cutShort hbudget _ _

omit h in
theorem pageLinkedObjects_cutShort (page : PageModel) :
    CutShort objectLimit (graph.pageLinkedObjects budget page)
      ((graph.withObjects maxObjects).pageLinkedObjects budget' page) := by
  unfold ModelGraph.pageLinkedObjects
  refine (pushLinked_cutShort hbudget _ _).bind fun streams _ => ?_
  refine (pushLinked_cutShort hbudget _ _).bind fun objects _ => ?_
  refine (pushLinked_cutShort (by omega) _ _).bind fun annotations _ => ?_
  refine (pushLinked_cutShort hbudget _ _).bind fun objects _ => ?_
  refine (fontModels_cutShort _ (by omega) _).bind fun fonts _ => ?_
  refine (pushLinked_cutShort hbudget _ _).bind fun objects _ => ?_
  refine (actionModelsFromEntries_cutShort _ (by omega) _ _ _ _).bind fun actions _ => ?_
  exact pushLinked_cutShort hbudget _ _

omit h in
theorem annotationLinkedObjects_cutShort (model : AnnotationModel) :
    CutShort objectLimit (graph.annotationLinkedObjects budget model)
      ((graph.withObjects maxObjects).annotationLinkedObjects budget' model) := by
  unfold ModelGraph.annotationLinkedObjects
  refine (pushLinked_cutShort hbudget _ _).bind fun objects _ => ?_
  refine (actionModelsFromEntries_cutShort _ (by omega) _ _ _ _).bind fun actions _ => ?_
  refine (pushLinked_cutShort hbudget _ _).bind fun objects _ => ?_
  exact pushLinked_cutShort hbudget _ _

omit h in
theorem contentStreamLinkedObjects_cutShort (model : ContentStreamModel) :
    CutShort objectLimit (graph.contentStreamLinkedObjects budget model)
      ((graph.withObjects maxObjects).contentStreamLinkedObjects budget' model) := by
  unfold ModelGraph.contentStreamLinkedObjects
  rw [show (graph.withObjects maxObjects).crates = graph.crates from rfl,
    show (graph.withObjects maxObjects).limits = graph.limits.withObjects maxObjects from rfl,
    summary_withObjects]
  refine CutShort.bind_same _ fun summary _ => ?_
  refine (pushLinked_cutShort hbudget _ _).bind fun objects _ => ?_
  refine (pushLinked_cutShort hbudget _ _).bind fun objects _ => ?_
  refine (pushLinked_cutShort hbudget _ _).bind fun objects _ => ?_
  exact CutShort.ite (fun _ => CutShort.bind_same
    (model.effectiveResources graph.document graph.limits) fun _ _ =>
      pushLinked_cutShort hbudget _ _) fun _ => .refl _

omit h in
theorem formFieldLinkedObjects_cutShort (model : GenericModel) :
    CutShort objectLimit (graph.formFieldLinkedObjects budget model)
      ((graph.withObjects maxObjects).formFieldLinkedObjects budget' model) := by
  unfold ModelGraph.formFieldLinkedObjects
  refine (genericModelsFromEntry_cutShort _ hbudget _ _ _).bind fun objects _ => ?_
  refine (genericModelsFromEntry_cutShort _ (by omega) _ _ _).bind fun parents _ => ?_
  refine (pushLinked_cutShort hbudget _ _).bind fun objects _ => ?_
  refine (actionModelsFromEntries_cutShort _ (by omega) _ _ _ _).bind fun actions _ => ?_
  refine (pushLinked_cutShort hbudget _ _).bind fun objects _ => ?_
  exact pushLinked_cutShort hbudget _ _

omit h in
theorem actionLinkedObjects_cutShort (model : GenericModel) :
    CutShort objectLimit (graph.actionLinkedObjects budget model)
      ((graph.withObjects maxObjects).actionLinkedObjects budget' model) := by
  unfold ModelGraph.actionLinkedObjects
  refine (genericModelsFromEntry_cutShort _ hbudget _ _ _).bind fun objects _ => ?_
  refine (pushLinked_cutShort hbudget _ _).bind fun objects _ => ?_
  exact pushLinked_cutShort hbudget _ _

omit h in
theorem outlineLinkedObjects_cutShort (model : GenericModel) :
    CutShort objectLimit (graph.outlineLinkedObjects budget model)
      ((graph.withObjects maxObjects).outlineLinkedObjects budget' model) := by
  unfold ModelGraph.outlineLinkedObjects
  refine (CutShort.foldlM (fun objects key => ?_) _ _).bind fun objects _ => ?_
  · exact (genericModelsFromEntry_cutShort _ (by omega) _ _ _).bind fun _ _ =>
      pushLinked_cutShort hbudget _ _
  · refine (actionModelsFromEntries_cutShort _ (by omega) _ _ _ _).bind fun actions _ => ?_
    refine (pushLinked_cutShort hbudget _ _).bind fun objects _ => ?_
    exact pushLinked_cutShort hbudget _ _

omit h in
theorem namesLinkedObjects_cutShort (model : GenericModel) :
    CutShort objectLimit (graph.namesLinkedObjects budget model)
      ((graph.withObjects maxObjects).namesLinkedObjects budget' model) := by
  unfold ModelGraph.namesLinkedObjects
  refine (collectNameTreeEntries_cutShort _ _ hbudget _ _ _).bind fun objects _ => ?_
  exact collectNameTreeEntries_cutShort _ _ hbudget _ _ _

omit h in
theorem genericLinkedObjects_cutShort (model : GenericModel) :
    CutShort objectLimit (graph.genericLinkedObjects budget model)
      ((graph.withObjects maxObjects).genericLinkedObjects budget' model) := by
  have hx : CutShort objectLimit (graph.xobjectLinkedObjects budget model)
      ((graph.withObjects maxObjects).xobjectLinkedObjects budget' model) :=
    CutShort.ite (fun _ => pushLinked_cutShort hbudget _ _) fun _ => .refl _
  unfold ModelGraph.genericLinkedObjects
  dsimp only
  split
  · exact (genericModelsFromEntry_cutShort _ hbudget _ _ _).map _
  · exact (formFieldLinkedObjects_cutShort hbudget model).map _
  · exact (actionLinkedObjects_cutShort hbudget model).map _
  · exact (outlineLinkedObjects_cutShort hbudget model).map _
  · exact (namesLinkedObjects_cutShort hbudget model).map _
  · exact (actionModelsFromEntries_cutShort _ hbudget _ _ _ _).map _
  · exact hx
  · exact hx
  · exact .refl _

omit h in
theorem accessibilityLinkedObjects_cutShort (accessibility : AccessibilityGraph)
    (kind : AccessibilityModelKind) :
    CutShort objectLimit (accessibilityLinkedObjects accessibility kind budget)
      (accessibilityLinkedObjects accessibility kind budget') := by
  unfold accessibilityLinkedObjects
  split
  · exact pushLinked_cutShort hbudget _ _
  · split
    · exact .refl _
    · exact pushLinked_cutShort hbudget _ _
  · exact .refl _

/-- The links of an object within a budget are its links within a larger one, or the limit error. -/
theorem linkedObjects_cutShort (object : ModelObjectRef) :
    CutShort objectLimit (graph.linkedObjects budget object)
      ((graph.withObjects maxObjects).linkedObjects budget' object) := by
  cases object with
  | document => exact documentLinkedObjects_cutShort h hbudget
  | catalog catalog => exact catalogLinkedObjects_cutShort h hbudget catalog
  | page page => exact pageLinkedObjects_cutShort hbudget page
  | annotation model => exact annotationLinkedObjects_cutShort hbudget model
  | contentStream model => exact contentStreamLinkedObjects_cutShort hbudget model
  | accessibility accessibility kind =>
    exact accessibilityLinkedObjects_cutShort hbudget accessibility kind
  | generic model => exact genericLinkedObjects_cutShort hbudget model
  | metadata _ | font _ | outputIntent _ | operator _ _ | markedContent _ _ | inlineImage _ _
  | resourceUse _ _ _ | stream _ => exact .refl _

end Links

end Cut

/-! ## Walks -/

/-- Under a larger limit the graph has all the links it has under a smaller one. -/
theorem walk_extends {graph : ModelGraph} {maxObjects : Nat}
    (h : graph.limits.maxObjects ≤ maxObjects) :
    Walk.Extends graph.walk (graph.withObjects maxObjects).walk where
  key := rfl
  expand := fun hbudget hlinked => (linkedObjects_cutShort h hbudget _).eq_of_ok hlinked

/-- A walk that the object limit cuts off has visited the first objects of the complete one, and one
that it does not cut off has visited them all. -/
theorem visit_initial {graph : ModelGraph} {maxObjects : Nat} {objects : List ModelObjectRef}
    (h : graph.limits.maxObjects ≤ maxObjects)
    (hall : (graph.withObjects maxObjects).visitedObjects = .ok objects) :
    (graph.walk.visit graph.limits.maxObjects walkRoots).result <+: objects
      ∧ ((graph.walk.visit graph.limits.maxObjects walkRoots).ending = .finished →
        (graph.walk.visit graph.limits.maxObjects walkRoots).result = objects) := by
  obtain ⟨hresult, hending⟩ := visitedObjects_ok hall
  rw [← hresult]
  exact (walk_extends h).visit_extends h walkRoots hending

end Pdfv
