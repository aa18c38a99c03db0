import Pdfv.Validation.LinkFacts
import Pdfv.Validation.Session
import Pdfv.Basic.Labelled
/-!
# Links by name

The registry names the links of each family, and a property path names the links to follow. The
evaluator follows a link by its target family: it takes all linked objects of the family, also those of
another link with the same target. Here the linked objects carry the name of the link they belong to. A
path reaches exactly the objects of the named links where it does not stray through another link
(`resolveProperty_names_iff`).
-/

namespace Pdfv

open Fallible

/-! ## Named links -/

/-- The name of the only link that leads to a family. -/
def soleLink (links : List (String × Family)) (target : Family) : Option String :=
  match links.filter fun row => row.2 = target with
  | [row] => some row.1
  | _ => none

/-- The models of a link, with its name. -/
def named (link : String) (models : List GenericModel) : List (String × GenericModel) :=
  models.map fun model => (link, model)

namespace ModelDocument

variable (doc : ModelDocument)

/-- The actions of an entry, after other actions. -/
def entryActions (dictionary : Located Dictionary) (ordinal : Nat) (contextPrefix key : String)
    (actions : List GenericModel) : List GenericModel :=
  doc.actionModels (dictionary.get key) key ordinal s!"{contextPrefix}[{ordinal}]/{key}" actions

/-- The action of `/A`. -/
def ownActions (dictionary : Located Dictionary) (ordinal : Nat) (contextPrefix : String) :
    List GenericModel :=
  doc.entryActions dictionary ordinal contextPrefix "A" []

/-- The actions of `/AA`; they are numbered after the action of `/A`. -/
def additionalActions (dictionary : Located Dictionary) (ordinal : Nat) (contextPrefix : String) :
    List GenericModel :=
  let own := doc.ownActions dictionary ordinal contextPrefix
  (doc.entryActions dictionary ordinal contextPrefix "AA" own).drop own.length

/-- The actions of `/A` and `/AA`, the last first. -/
def namedActions (dictionary : Located Dictionary) (ordinal : Nat) (contextPrefix : String) :
    List (String × GenericModel) :=
  (named "action" (doc.ownActions dictionary ordinal contextPrefix)
    ++ named "additionalActions" (doc.additionalActions dictionary ordinal contextPrefix)).reverse

/-- The links of an annotation. -/
def annotationNamedLinks (model : AnnotationModel) : List (String × GenericModel) :=
  let context := s!"root/page[{model.pageOrdinal}]/annotation[{model.ordinal}]"
  let field : GenericModel :=
    ⟨.formField, model.key, model.offset, model.dictionary, none, s!"{context}/formField[0]",
      model.ordinal⟩
  named "formField" (if entryIsName model.dictionary.value "Subtype" "Widget" then [field] else [])
    ++ doc.namedActions model.dictionary model.ordinal "root/annotation"
    ++ named "fileSpec" (doc.dictionaryBackedModel (model.dictionary.get "FS") .fileSpec
      model.ordinal s!"{context}/fileSpec[0]").toList

/-- The links of a form field: `/Kids`, the first of `/Parent`, the actions and `/F`. -/
def formFieldNamedLinks (model : GenericModel) : List (String × GenericModel) :=
  named "kids" (doc.modelsFromEntry (model.dictionary.get "Kids") .formField model.context)
    ++ named "parent"
      ((doc.modelsFromEntry (model.dictionary.get "Parent") .formField model.context).take 1)
    ++ doc.namedActions model.dictionary model.ordinal model.context
    ++ named "fileSpec" (doc.dictionaryBackedModel (model.dictionary.get "F") .fileSpec
      model.ordinal s!"{model.context}/fileSpec[0]").toList

/-- The entries of an outline item that lead to outline items, with the names of their links. -/
def outlineRows : List (String × String) :=
  [("First", "first"), ("Last", "last"), ("Next", "next"), ("Prev", "previous")]

/-- The links of an outline item. -/
def outlineNamedLinks (model : GenericModel) : List (String × GenericModel) :=
  (outlineRows.flatMap fun row =>
    named row.2 (doc.modelsFromEntry (model.dictionary.get row.1) .outline model.context))
    ++ (named "action" (doc.ownActions model.dictionary model.ordinal model.context)).reverse
    ++ named "destination" (doc.modelFromValue (model.dictionary.get "Dest") .destination
      model.ordinal s!"{model.context}/destination[0]").toList

end ModelDocument

namespace ModelGraph

variable (graph : ModelGraph)

/-- The linked objects of an object, each with the name of the only link to its family. -/
def soleLinks (object : ModelObjectRef) : List (Option String × ModelObjectRef) :=
  ((graph.linkedObjects graph.limits.maxObjects object).toOption.getD []).map fun linked =>
    (soleLink (familyLinks object.objectType) linked.objectType, linked)

/-- The linked objects of an object, each with the name of its link. In the families whose links share
targets, the name is that of the dictionary entry. -/
def namedLinks (object : ModelObjectRef) : List (Option String × ModelObjectRef) :=
  let generics := fun (links : List (String × GenericModel)) =>
    links.map fun link => (some link.1, ModelObjectRef.generic link.2)
  match object with
  | ModelObjectRef.annotation model => generics (graph.document.annotationNamedLinks model)
  | .generic model =>
    match model.family with
    | .formField => generics (graph.document.formFieldNamedLinks model)
    | .outline => generics (graph.document.outlineNamedLinks model)
    | _ => graph.soleLinks object
  | _ => graph.soleLinks object

end ModelGraph

/-! ## The targets of named links -/

theorem named_forall {links : List (String × Family)} {link : String} {target : Family}
    {models : List GenericModel} (hlink : links.lookup link = some target)
    (hmodels : ∀ m ∈ models, m.family = target) :
    ∀ entry ∈ named link models, links.lookup entry.1 = some entry.2.family := by
  intro entry hentry
  obtain ⟨model, hmodel, rfl⟩ := List.mem_map.mp hentry
  rw [hmodels model hmodel]
  exact hlink

theorem forall_append {α : Type} {P : α → Prop} {first second : List α} (h : ∀ a ∈ first, P a)
    (h' : ∀ a ∈ second, P a) : ∀ a ∈ first ++ second, P a :=
  List.forall_mem_append.mpr ⟨h, h'⟩

section Targets

variable {doc : ModelDocument}

theorem ownActions_family (dictionary : Located Dictionary) (ordinal : Nat)
    (contextPrefix : String) :
    ∀ m ∈ doc.ownActions dictionary ordinal contextPrefix, m.family = .action := by
  unfold ModelDocument.ownActions ModelDocument.entryActions
  exact actionModels_family _ _ _ _ _ forall_nil

theorem additionalActions_family (dictionary : Located Dictionary) (ordinal : Nat)
    (contextPrefix : String) :
    ∀ m ∈ doc.additionalActions dictionary ordinal contextPrefix, m.family = .action := by
  intro m hm
  exact actionModels_family _ _ _ _ _ (ownActions_family dictionary ordinal contextPrefix) m
    (List.mem_of_mem_drop hm)

theorem namedActions_targets {links : List (String × Family)}
    (haction : links.lookup "action" = some .action)
    (hadditional : links.lookup "additionalActions" = some .action)
    (dictionary : Located Dictionary) (ordinal : Nat) (contextPrefix : String) :
    ∀ entry ∈ doc.namedActions dictionary ordinal contextPrefix,
      links.lookup entry.1 = some entry.2.family := by
  intro entry hentry
  exact forall_append (named_forall haction (ownActions_family dictionary ordinal contextPrefix))
    (named_forall hadditional (additionalActions_family dictionary ordinal contextPrefix)) entry
    (List.mem_reverse.mp hentry)

theorem annotationNamedLinks_targets (model : AnnotationModel) :
    ∀ entry ∈ doc.annotationNamedLinks model,
      linkTarget Family.annotation entry.1 = some entry.2.family := by
  refine forall_append (forall_append (named_forall rfl ?_) (namedActions_targets rfl rfl _ _ _))
    (named_forall rfl (forall_toList fun _ h => dictionaryBackedModel_family h))
  split
  · exact fun m hm => by rw [List.mem_singleton.mp hm]
  · exact forall_nil

theorem formFieldNamedLinks_targets (model : GenericModel) :
    ∀ entry ∈ doc.formFieldNamedLinks model,
      linkTarget .formField entry.1 = some entry.2.family := by
  refine forall_append (forall_append (forall_append (named_forall rfl ?_) (named_forall rfl ?_))
    (namedActions_targets rfl rfl _ _ _))
    (named_forall rfl (forall_toList fun _ h => dictionaryBackedModel_family h))
  · exact modelsFromEntry_family _ _
  · exact fun m hm => modelsFromEntry_family _ _ m (List.mem_of_mem_take hm)

theorem outlineNamedLinks_targets (model : GenericModel) :
    ∀ entry ∈ doc.outlineNamedLinks model, linkTarget .outline entry.1 = some entry.2.family := by
  refine forall_append (forall_append ?_ ?_)
    (named_forall rfl (forall_toList fun _ h => modelFromValue_family h))
  · intro entry hentry
    obtain ⟨row, hrow, hentry⟩ := List.mem_flatMap.mp hentry
    have hlink : ∀ row ∈ ModelDocument.outlineRows, linkTarget .outline row.2 = some .outline := by
      decide
    exact named_forall (hlink row hrow) (modelsFromEntry_family _ _) entry hentry
  · intro entry hentry
    exact named_forall rfl (ownActions_family _ _ _) entry (List.mem_reverse.mp hentry)

/-- No family has two links of one name. -/
theorem familyLinks_nodup (family : Family) : ((familyLinks family).map Prod.fst).Nodup := by
  cases family <;> decide

theorem lookup_of_mem {links : List (String × Family)} (hnodup : (links.map Prod.fst).Nodup)
    {row : String × Family} (hrow : row ∈ links) : links.lookup row.1 = some row.2 := by
  induction links with
  | nil => cases hrow
  | cons head links ih =>
    obtain ⟨hnot, hrest⟩ := List.nodup_cons.mp hnodup
    rcases List.mem_cons.mp hrow with rfl | hrow
    · exact List.lookup_cons_self
    · have hne : row.1 ≠ head.1 := by
        intro heq
        exact hnot (heq ▸ List.mem_map_of_mem hrow)
      rw [List.lookup_cons, beq_eq_false_iff_ne.mpr hne]
      exact ih hrest hrow

/-- The sole link of a family that leads to a target leads there. -/
theorem soleLink_target {family target : Family} {link : String}
    (h : soleLink (familyLinks family) target = some link) : linkTarget family link = some target := by
  unfold soleLink at h
  split at h
  · rename_i row hrow
    cases h
    have hmem : row ∈ (familyLinks family).filter fun row => row.2 = target := by
      rw [hrow]
      exact List.mem_singleton_self row
    obtain ⟨hlink, htarget⟩ := List.mem_filter.mp hmem
    rw [← of_decide_eq_true htarget]
    exact lookup_of_mem (familyLinks_nodup family) hlink
  · cases h

end Targets

/-- A named link leads to objects of its target family. -/
theorem namedLinks_target {graph : ModelGraph} {object linked : ModelObjectRef} {link : String}
    (h : (some link, linked) ∈ graph.namedLinks object) :
    linkTarget object.objectType link = some linked.objectType := by
  have hsole : (some link, linked) ∈ graph.soleLinks object →
      linkTarget object.objectType link = some linked.objectType := by
    intro h
    obtain ⟨found, -, heq⟩ := List.mem_map.mp h
    obtain ⟨hlink, rfl⟩ := Prod.mk.inj heq
    exact soleLink_target hlink
  have hgenerics : ∀ {links : List (String × GenericModel)} {family : Family},
      (∀ entry ∈ links, linkTarget family entry.1 = some entry.2.family) →
      (some link, linked) ∈ links.map (fun entry => (some entry.1, ModelObjectRef.generic entry.2)) →
      linkTarget family link = some linked.objectType := by
    intro links family hlinks h
    obtain ⟨entry, hentry, heq⟩ := List.mem_map.mp h
    obtain ⟨hlink, rfl⟩ := Prod.mk.inj heq
    cases hlink
    exact hlinks entry hentry
  unfold ModelGraph.namedLinks at h
  dsimp only at h
  split at h
  · exact hgenerics (annotationNamedLinks_targets _) h
  · rename_i model
    show linkTarget model.family link = _
    split at h
    · rename_i hfamily
      rw [hfamily]
      exact hgenerics (formFieldNamedLinks_targets _) h
    · rename_i hfamily
      rw [hfamily]
      exact hgenerics (outlineNamedLinks_targets _) h
    · exact hsole h
  · exact hsole h

/-! ## The linked objects are the named ones -/

section Linked

variable {graph : ModelGraph} {budget : Nat}

@[simp] theorem named_models (link : String) (models : List GenericModel) :
    (named link models).map Prod.snd = models := by
  rw [named, List.map_map]
  exact List.map_id models

/-- New actions go after the old ones. -/
theorem actionModels_prefix (doc : ModelDocument) (value : Option (Located CosObject)) (key : String)
    (ordinal : Nat) (context : String) (actions : List GenericModel) :
    actions <+: doc.actionModels value key ordinal context actions := by
  have hfold : ∀ (entries : List (PdfName × Located CosObject)) (actions : List GenericModel),
      actions <+: entries.foldl (fun actions entry =>
        actions ++ (doc.dictionaryBackedModel (some entry.2) .action actions.length
          s!"{context}/action[{ordinal}:{utf8Lossy entry.1.bytes}]").toList) actions := by
    intro entries
    induction entries with
    | nil => exact fun actions => List.prefix_refl actions
    | cons entry entries ih => exact fun actions => (List.prefix_append _ _).trans (ih _)
  unfold ModelDocument.actionModels
  split
  · exact hfold _ _
  · exact List.prefix_append _ _

/-- The actions of both entries, in their order. -/
theorem actionModelsFromEntries_both {doc : ModelDocument} {dictionary : Located Dictionary}
    {ordinal : Nat} {contextPrefix : String} {actions : List GenericModel}
    (h : doc.actionModelsFromEntries dictionary ["A", "AA"] ordinal contextPrefix budget
      = .ok actions) :
    actions.reverse = (doc.namedActions dictionary ordinal contextPrefix).map Prod.snd := by
  have hprefix : doc.ownActions dictionary ordinal contextPrefix <+:
      doc.entryActions dictionary ordinal contextPrefix "AA"
        (doc.ownActions dictionary ordinal contextPrefix) :=
    actionModels_prefix doc _ _ _ _ _
  obtain ⟨more, hmore⟩ := hprefix
  have hadditional : doc.additionalActions dictionary ordinal contextPrefix = more := by
    unfold ModelDocument.additionalActions
    dsimp only
    rw [← hmore, List.drop_left]
  rw [ModelDocument.namedActions, hadditional, List.map_reverse, List.map_append, named_models,
    named_models, hmore, pushLinked_eq h]
  rfl

theorem annotationLinkedObjects_eq {model : AnnotationModel} {linked : List ModelObjectRef}
    (h : graph.annotationLinkedObjects budget model = .ok linked) :
    linked = (graph.document.annotationNamedLinks model).map fun entry => .generic entry.2 := by
  unfold ModelGraph.annotationLinkedObjects at h
  dsimp only at h
  obtain ⟨fields, hfields, h⟩ := bind_eq_ok.mp h
  obtain ⟨actions, hactions, h⟩ := bind_eq_ok.mp h
  obtain ⟨withActions, hwith, h⟩ := bind_eq_ok.mp h
  rw [pushLinked_eq h, pushLinked_eq hwith, pushLinked_eq hfields,
    actionModelsFromEntries_both hactions, ModelDocument.annotationNamedLinks]
  split <;> simp [named, Function.comp_def]

theorem formFieldLinkedObjects_eq {model : GenericModel} {models : List GenericModel}
    (h : graph.formFieldLinkedObjects budget model = .ok models) :
    models = (graph.document.formFieldNamedLinks model).map Prod.snd := by
  unfold ModelGraph.formFieldLinkedObjects at h
  dsimp only at h
  obtain ⟨kids, hkids, h⟩ := bind_eq_ok.mp h
  obtain ⟨parents, hparents, h⟩ := bind_eq_ok.mp h
  obtain ⟨withParent, hwith, h⟩ := bind_eq_ok.mp h
  obtain ⟨actions, hactions, h⟩ := bind_eq_ok.mp h
  obtain ⟨withActions, hwith', h⟩ := bind_eq_ok.mp h
  rw [pushLinked_eq h, pushLinked_eq hwith', pushLinked_eq hwith, pushLinked_eq hkids,
    pushLinked_eq hparents, actionModelsFromEntries_both hactions,
    ModelDocument.formFieldNamedLinks]
  simp

theorem outlineLinkedObjects_eq {model : GenericModel} {models : List GenericModel}
    (h : graph.outlineLinkedObjects budget model = .ok models) :
    models = (graph.document.outlineNamedLinks model).map Prod.snd := by
  unfold ModelGraph.outlineLinkedObjects at h
  dsimp only at h
  obtain ⟨outlines, houtlines, h⟩ := bind_eq_ok.mp h
  obtain ⟨actions, hactions, h⟩ := bind_eq_ok.mp h
  obtain ⟨withActions, hwith, h⟩ := bind_eq_ok.mp h
  have hrow : ∀ {key : String} {before after : List GenericModel},
      (do
        let linked ← graph.document.genericModelsFromEntry (model.dictionary.get key) .outline
          model.context (budget - before.length)
        pushLinked budget before linked : Except PdfvError (List GenericModel)) = .ok after →
      after = before
        ++ graph.document.modelsFromEntry (model.dictionary.get key) .outline model.context := by
    intro key before after hstep
    obtain ⟨found, hfound, hstep⟩ := bind_eq_ok.mp hstep
    rw [pushLinked_eq hstep, pushLinked_eq hfound]
    rfl
  simp only [List.foldlM_cons, List.foldlM_nil] at houtlines
  obtain ⟨first, hfirst, houtlines⟩ := bind_eq_ok.mp houtlines
  obtain ⟨last, hlast, houtlines⟩ := bind_eq_ok.mp houtlines
  obtain ⟨next, hnext, houtlines⟩ := bind_eq_ok.mp houtlines
  obtain ⟨previous, hprevious, houtlines⟩ := bind_eq_ok.mp houtlines
  cases pure_eq_ok.mp houtlines
  have hown : actions
      = graph.document.ownActions model.dictionary model.ordinal model.context :=
    pushLinked_eq hactions
  rw [pushLinked_eq h, pushLinked_eq hwith, hrow hprevious, hrow hnext, hrow hlast, hrow hfirst,
    hown, ModelDocument.outlineNamedLinks]
  simp [ModelDocument.outlineRows]

/-- The linked objects of an object are those of its named links. -/
theorem linkedObjects_eq_named {object : ModelObjectRef} {linked : List ModelObjectRef}
    (h : graph.linkedObjects graph.limits.maxObjects object = .ok linked) :
    (graph.namedLinks object).map Prod.snd = linked := by
  have hsole : (graph.soleLinks object).map Prod.snd = linked := by
    rw [ModelGraph.soleLinks, h, List.map_map]
    exact List.map_id _
  have hgenerics : ∀ {links : List (String × GenericModel)}
      {found : Except PdfvError (List GenericModel)},
      (∀ models, found = .ok models → models = links.map Prod.snd) →
      found.map (fun models => models.map ModelObjectRef.generic) = .ok linked →
      (links.map fun entry => (some entry.1, ModelObjectRef.generic entry.2)).map Prod.snd
        = linked := by
    intro links found hfound hmap
    cases found with
    | error e => cases hmap
    | ok models =>
      cases hmap
      rw [hfound models rfl]
      simp only [List.map_map, Function.comp_def]
  unfold ModelGraph.namedLinks
  dsimp only
  split
  · rw [annotationLinkedObjects_eq h, List.map_map]
    rfl
  · rename_i model
    change graph.genericLinkedObjects graph.limits.maxObjects model = .ok linked at h
    split
    · rename_i hfamily
      rw [ModelGraph.genericLinkedObjects, hfamily] at h
      exact hgenerics (fun _ h => formFieldLinkedObjects_eq h) h
    · rename_i hfamily
      rw [ModelGraph.genericLinkedObjects, hfamily] at h
      exact hgenerics (fun _ h => outlineLinkedObjects_eq h) h
    · exact hsole
  · exact hsole

end Linked

/-! ## Paths of named links -/

namespace ModelGraph

/-- The model objects of a graph with their named links. -/
def labelled (graph : ModelGraph) : LabelledGraph ModelObjectRef PropertyName Family where
  edges := graph.namedLinks
  sort := ModelObjectRef.objectType
  target object := linkTarget object.objectType
  wellSorted := namedLinks_target

/-- The objects a path of links leads to, each link followed by its name. -/
def namedObjects (graph : ModelGraph) (links : List PropertyName) (object : ModelObjectRef) :
    List ModelObjectRef :=
  LabelledGraph.reached graph.labelled.byLabel links object

/-- At some object that the path leads to, another link than the named one leads to an object of the
same family, from which the rest of the path can be completed. -/
def StraysFrom (graph : ModelGraph) (links : List PropertyName) (object : ModelObjectRef) : Prop :=
  graph.labelled.Strays links object

end ModelGraph

/-- The value of a property at the objects a path leads to: null at none, the value itself at one, and
the list of the values at several. -/
def pathValue (services : ModelServices) (graph : ModelGraph) (terminal : PropertyName)
    (objects : List ModelObjectRef) : Except PdfvError ModelValue := do
  let values ← objects.mapM fun object => services.property graph object terminal
  match values with
  | [] => return .null
  | [value] => return value
  | values => return .list values

section Paths

variable {graph : ModelGraph}

/-- One link leads to the linked objects of its target family. -/
theorem followLink_eq {link : PropertyName} {candidate : ModelObjectRef}
    {next : List ModelObjectRef} (h : followLink graph link candidate = .ok next) :
    next = graph.labelled.bySort candidate link := by
  unfold followLink at h
  split at h
  · obtain ⟨reason, -, h⟩ := bind_eq_ok.mp h
    cases h
  · rename_i target htarget
    split at h
    · obtain ⟨linked, hlinked, h⟩ := bind_eq_ok.mp h
      cases pure_eq_ok.mp h
      rw [← linkedObjects_eq_named hlinked, List.filter_map]
      congr 1
      refine List.filter_congr fun edge _ => ?_
      show decide (edge.2.objectType = target)
        = decide (linkTarget candidate.objectType link = some edge.2.objectType)
      simp only [htarget, Option.some_inj, eq_comm]
    · obtain ⟨reason, -, h⟩ := bind_eq_ok.mp h
      cases h

/-- The objects a run reaches are those of the path followed by family. -/
theorem followLinks_eq {links : List PropertyName} {current reached : List ModelObjectRef}
    (h : followLinks graph current links = .ok reached) :
    reached = current.flatMap (LabelledGraph.reached graph.labelled.bySort links) := by
  induction links generalizing current with
  | nil =>
    cases pure_eq_ok.mp h
    exact (List.flatMap_singleton' _).symm
  | cons link links ih =>
    unfold followLinks at h
    rw [List.foldlM_cons] at h
    obtain ⟨next, hnext, h⟩ := bind_eq_ok.mp h
    obtain ⟨parts, hparts, hnext⟩ := bind_eq_ok.mp hnext
    obtain ⟨-, -, hnext⟩ := bind_eq_ok.mp hnext
    cases pure_eq_ok.mp hnext
    rw [ih h, mapM_eq_map (fun _ _ => followLink_eq) hparts, ← List.flatMap_def, List.flatMap_assoc]
    rfl

/-- The value of a path is the value at the objects its links lead to. -/
theorem resolveProperty_eq (services : ModelServices) (object : ModelObjectRef)
    (links : List PropertyName) (terminal : PropertyName) :
    resolveProperty services graph object (links ++ [terminal])
      = (do pathValue services graph terminal (← followLinks graph [object] links)) := by
  unfold resolveProperty
  rw [List.getLast?_concat, List.dropLast_concat]
  cases links with
  | nil =>
    show services.property graph object terminal = pathValue services graph terminal [object]
    unfold pathValue
    rw [List.mapM_cons]
    cases services.property graph object terminal <;> rfl
  | cons link links => rfl

/-- Where the links of a path can be followed, its value is that of exactly the objects its links name
if and only if the path strays nowhere. -/
theorem resolveProperty_names_iff (graph : ModelGraph) (object : ModelObjectRef)
    (links : List PropertyName) (reached : List ModelObjectRef)
    (h : followLinks graph [object] links = .ok reached) :
    (reached = graph.namedObjects links object ∧ ∀ services terminal,
      resolveProperty services graph object (links ++ [terminal])
        = pathValue services graph terminal (graph.namedObjects links object)) ↔
      ¬ graph.StraysFrom links object := by
  have hreached : reached = LabelledGraph.reached graph.labelled.bySort links object := by
    rw [followLinks_eq h, List.flatMap_singleton]
  unfold ModelGraph.StraysFrom
  rw [← LabelledGraph.reached_bySort_iff, ← hreached]
  refine ⟨fun h => h.1, fun hsame => ⟨hsame, fun services terminal => ?_⟩⟩
  rw [resolveProperty_eq, h, hsame]
  rfl

end Paths

/-! ## A field and its parent -/

/-- A field, object 1, with one kid, object 2, which has no kids. -/
def familyOfFields : ModelGraph where
  crates := Crates.unused
  document := ⟨⟨1, 7⟩, none,
    (OrdMap.empty.insert (.ofNumber 1) ⟨.ofNumber 1, 0, .dictionary
      [(PdfName.fromStatic "Kids", .array [.reference (.ofNumber 2)])]⟩).insert (.ofNumber 2)
        ⟨.ofNumber 2, 0, .dictionary [(PdfName.fromStatic "Parent", .reference (.ofNumber 1))]⟩,
    [], []⟩
  limits := {}
  materializedFamilies := [.family .formField]
  activeFlavour := none

/-- The kid, as a run makes it. -/
def kidField : ModelObjectRef :=
  .generic ⟨.formField, some (.ofNumber 2), some 0, ⟨.indirect (.ofNumber 2),
    [(PdfName.fromStatic "Parent", .reference (.ofNumber 1))]⟩, none,
    "root/catalog[0]/acroForm[0]/formField[0]/formField[0]", 0⟩

/-- A table that gives the identity of an object under every name. -/
def identityServices : ModelServices :=
  { ModelServices.unused with property := fun _ object _ => .ok (.string ⟨object.identityKey⟩) }

/-- The kids of a field without kids: its parent. -/
theorem kidField_kids :
    (followLinks familyOfFields [kidField] ["kids"]).toOption.map (·.map ModelObjectRef.identityKey)
      = some ["formField:1:0"] ∧
    familyOfFields.namedObjects ["kids"] kidField = [] ∧
    resolveProperty identityServices familyOfFields kidField ["kids", "T"]
      = .ok (.string ⟨"formField:1:0"⟩) ∧
    pathValue identityServices familyOfFields "T" [] = .ok .null := by
  refine ⟨by decide, ?_, ?_, rfl⟩
  · exact List.length_eq_zero_iff.mp (by decide)
  · rfl

/-- The parent of the field is reached by its name. -/
theorem kidField_parent :
    ∃ reached, followLinks familyOfFields [kidField] ["parent"] = .ok reached ∧
      reached = familyOfFields.namedObjects ["parent"] kidField ∧
      reached.map ModelObjectRef.identityKey = ["formField:1:0"] := by
  obtain ⟨reached, h⟩ : ∃ reached, followLinks familyOfFields [kidField] ["parent"] = .ok reached :=
    ⟨_, rfl⟩
  have hkeys : (followLinks familyOfFields [kidField] ["parent"]).toOption.map
      (·.map ModelObjectRef.identityKey) = some ["formField:1:0"] := by
    decide
  have hlinks : (familyOfFields.namedLinks kidField).map Prod.fst = [some "parent"] := by
    decide
  have hstays : ¬ familyOfFields.StraysFrom ["parent"] kidField := by
    intro hstrays
    obtain ⟨edge, hedge, hother, -⟩ := LabelledGraph.strays_one_iff.mp hstrays
    have hmem : edge.1 ∈ (familyOfFields.namedLinks kidField).map Prod.fst := List.mem_map_of_mem hedge
    rw [hlinks] at hmem
    exact hother (List.mem_singleton.mp hmem)
  refine ⟨reached, h, ?_, ?_⟩
  · exact ((resolveProperty_names_iff familyOfFields kidField ["parent"] reached h).mpr hstays).1
  · rw [h] at hkeys
    exact Option.some.inj hkeys

end Pdfv
