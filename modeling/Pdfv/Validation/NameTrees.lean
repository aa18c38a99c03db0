import Pdfv.Validation.PageTree
/-!
# Name trees

`collect_name_tree_entries` walks a name tree with a stack. A node is where its dictionary is stored
(`Located`); the nodes it scans are those a traversal of the tree meets, each once. Their models stand
for the values of their `/Names` arrays, one for each (`ModelsOf`), under different contexts. The limit
counts models, scanned nodes, and pending nodes together with models, so the walk fails only where
models and tree entries together exceed it (`collectNameTreeEntries_exact`).
-/

namespace Pdfv

open Loop Traversal Fallible

/-! ## Nodes -/

namespace Located

/-- The key of the indirect object that a dictionary is. -/
def ownKey (dictionary : Located Dictionary) : Option ObjectKey :=
  if dictionary.place.path = [] then some dictionary.place.root else none

/-- The entries of the `/Kids` array of a node. -/
def kidEntries (node : Located Dictionary) : List (Located CosObject) :=
  arrayValues (node.get "Kids")

end Located

namespace ModelDocument

variable (doc : ModelDocument)

/-- The node that an entry of a name tree is or refers to. -/
def nameTreeNode (entry : Located CosObject) : Option (Located Dictionary) :=
  (doc.resolveNamedDictionary entry).map NamedDictionary.dictionary

/-- The nodes below a node, the last one first. -/
def nameTreeLinks (node : Located Dictionary) : List (Located Dictionary) :=
  (node.kidEntries.filterMap doc.nameTreeNode).reverse

/-- The dictionaries, references to dictionaries and, for destinations, arrays that name tree values
are. -/
def isNameTreeValue (family : Family) (value : Located CosObject) : Bool :=
  match value.value with
  | .dictionary _ => true
  | .reference key => (doc.dictionaryAt key).isSome
  | .array _ => family = .destination
  | _ => false

/-- The values of a node that models are made for. -/
def entryValues (family : Family) (node : Located Dictionary) : List (Located CosObject) :=
  (nameTreeValues (arrayValues (node.get "Names"))).filter (doc.isNameTreeValue family)

/-- The place of a dictionary determines it. -/
def Holds (node : Located Dictionary) : Prop :=
  ∀ key, node.ownKey = some key → doc.dictionaryAt key = some node.value

end ModelDocument

/-- The model of the value at an ordinal. -/
def IsEntryModel (doc : ModelDocument) (family : Family) (item : Located CosObject × Nat)
    (model : GenericModel) : Prop :=
  ∃ node : String,
    doc.modelFromValue (some item.1) family item.2 s!"{node}/{family.text}[{item.2}]" = some model

/-- One model for each value, in their order, with ordinals from `start` on. -/
def ModelsOf (doc : ModelDocument) (family : Family) (start : Nat)
    (values : List (Located CosObject)) (models : List GenericModel) : Prop :=
  List.Forall₂ (IsEntryModel doc family) (values.zipIdx start) models

variable {doc : ModelDocument} {family : Family} {budget : Nat}

/-! ### Places -/

theorem Place.child_inj {place place' : Place} {selector selector' : Selector}
    (h : place.child selector = place'.child selector') :
    place = place' ∧ selector = selector' := by
  obtain ⟨root, path⟩ := place
  obtain ⟨root', path'⟩ := place'
  simp only [Place.child, Place.mk.injEq] at h
  obtain ⟨rfl, hpath⟩ := h
  obtain ⟨rfl, hselector⟩ := List.append_inj' hpath rfl
  cases hselector
  exact ⟨rfl, rfl⟩

theorem Place.child_path (place : Place) (selector : Selector) :
    (place.child selector).path ≠ [] := by
  simp [Place.child]

theorem ownKey_eq_some {node : Located Dictionary} {key : ObjectKey} :
    node.ownKey = some key ↔ node.place = .indirect key := by
  obtain ⟨⟨root, path⟩, value⟩ := node
  simp only [Located.ownKey, Place.indirect, Place.mk.injEq]
  split
  · simp [*]
  · simp [*]

/-- Two stored dictionaries at one place are one. -/
theorem ModelDocument.Holds.eq_of_place {node other : Located Dictionary} (h : doc.Holds node)
    (h' : doc.Holds other) {key : ObjectKey} (hkey : node.ownKey = some key)
    (hplace : other.place = node.place) : other = node := by
  have hother : other.ownKey = some key :=
    ownKey_eq_some.mpr (hplace.trans (ownKey_eq_some.mp hkey))
  have hvalue := (h key hkey).symm.trans (h' key hother)
  obtain ⟨place, value⟩ := node
  obtain ⟨place', value'⟩ := other
  cases hplace
  cases hvalue
  rfl

/-- A node is a stored dictionary, or the entry itself. -/
theorem nameTreeNode_cases {entry : Located CosObject} {found : NamedDictionary}
    (h : doc.resolveNamedDictionary entry = some found) :
    (∃ key, entry.value = .reference key ∧ found.key = some key ∧
      found.dictionary.place = .indirect key ∧ doc.dictionaryAt key = some found.dictionary.value) ∨
    (entry.value = .dictionary found.dictionary.value ∧ found.key = none ∧
      found.dictionary.place = entry.place) := by
  unfold ModelDocument.resolveNamedDictionary at h
  split at h
  · cases h
    exact .inr ⟨rfl, rfl, rfl⟩
  · rename_i place key
    obtain ⟨object, hobject, h⟩ := Option.bind_eq_some_iff.mp h
    obtain ⟨dictionary, hdictionary, rfl⟩ := Option.map_eq_some_iff.mp h
    refine .inl ⟨key, rfl, rfl, rfl, ?_⟩
    unfold ModelDocument.dictionaryAt
    rw [hobject, Option.bind_some, hdictionary]
  · cases h

/-! ## Models -/

theorem modelFromValue_isSome (value : Located CosObject) (ordinal : Nat) (context : String) :
    (doc.modelFromValue (some value) family ordinal context).isSome
      = doc.isNameTreeValue family value := by
  obtain ⟨place, value⟩ := value
  cases value with
  | array values =>
    show (if family = .destination then _ else _ : Option GenericModel).isSome = decide _
    split
    · rename_i h; rw [decide_eq_true h]; rfl
    · rename_i h; rw [decide_eq_false h]; rfl
  | reference key =>
    unfold ModelDocument.modelFromValue ModelDocument.dictionaryBackedModel
      ModelDocument.isNameTreeValue ModelDocument.dictionaryAt
    rw [Option.isSome_map, Option.bind_some, ModelDocument.resolveNamedDictionary]
    show _ = ((doc.objects.get? key).bind fun object => object.object.asDictionary).isSome
    cases doc.objects.get? key with
    | none => rfl
    | some object => rw [Option.bind_some, Option.isSome_map, Option.bind_some]
  | dictionary entries => rfl
  | _ => rfl

theorem modelFromValue_context {value : Located CosObject} {ordinal : Nat} {context : String}
    {model : GenericModel}
    (h : doc.modelFromValue (some value) family ordinal context = some model) :
    model.context = context := by
  obtain ⟨place, value⟩ := value
  have hbacked : ∀ value, doc.dictionaryBackedModel value family ordinal context = some model →
      model.context = context := by
    intro value hmodel
    obtain ⟨found, -, rfl⟩ := Option.map_eq_some_iff.mp hmodel
    rfl
  cases value with
  | array values =>
    unfold ModelDocument.modelFromValue at h
    dsimp only at h
    split at h
    · cases h
      rfl
    · cases h
  | _ => exact hbacked _ h

/-- The models of one node. -/
theorem nameTreeModels_spec (context : String) (objects : List GenericModel)
    (values : List (Located CosObject)) :
    ∃ models, nameTreeModels doc family context objects values = objects ++ models ∧
      ModelsOf doc family objects.length (values.filter (doc.isNameTreeValue family)) models := by
  induction values generalizing objects with
  | nil => exact ⟨[], (List.append_nil _).symm, .nil⟩
  | cons value values ih =>
    have hsome := @modelFromValue_isSome doc family value objects.length
      s!"{context}/{family.text}[{objects.length}]"
    unfold nameTreeModels at ih ⊢
    rw [List.foldl_cons]
    cases hmodel : doc.modelFromValue (some value) family objects.length
      s!"{context}/{family.text}[{objects.length}]" with
    | none =>
      rw [hmodel] at hsome
      rw [List.filter_cons_of_neg (by rw [← hsome]; decide)]
      obtain ⟨models, hmodels, hspec⟩ := ih objects
      exact ⟨models, by rw [← hmodels]; simp, hspec⟩
    | some model =>
      rw [hmodel] at hsome
      rw [List.filter_cons_of_pos (by rw [← hsome]; rfl)]
      obtain ⟨models, hmodels, hspec⟩ := ih (objects ++ [model])
      refine ⟨model :: models, ?_, ?_⟩
      · rw [← List.append_cons] at hmodels
        exact hmodels
      · rw [List.length_append, List.length_singleton] at hspec
        exact .cons ⟨context, hmodel⟩ hspec

/-! ### Contexts -/

theorem toList_toString (n : Nat) : (toString n).toList = Nat.toDigits 10 n :=
  Nat.toList_repr

/-- The ordinal can be read off a context. -/
theorem ordinal_of_context {node other : String} {n m : Nat}
    (h : s!"{node}/{family.text}[{n}]" = s!"{other}/{family.text}[{m}]") : n = m := by
  have hdigits : ∀ (k : Nat), ∀ c ∈ (Nat.toDigits 10 k).reverse, (c != '[') = true := by
    intro k c hc
    have hdigit := Nat.isDigit_of_mem_toDigits (by decide) (by decide) (List.mem_reverse.mp hc)
    rw [bne_iff_ne]
    rintro rfl
    exact absurd hdigit (by decide)
  have hread : ∀ (k : Nat) (rest : List Char),
      ((Nat.toDigits 10 k).reverse ++ '[' :: rest).takeWhile (· != '[')
        = (Nat.toDigits 10 k).reverse := by
    intro k rest
    rw [List.takeWhile_append_of_pos (hdigits k), List.takeWhile_cons_of_neg (by decide),
      List.append_nil]
  have hlists : ∀ (node : String) (k : Nat), (s!"{node}/{family.text}[{k}]").toList.reverse
      = ']' :: ((Nat.toDigits 10 k).reverse ++ '[' :: (node ++ "/" ++ family.text).toList.reverse) := by
    intro node k
    show (node ++ "/" ++ family.text ++ "[" ++ toString k ++ "]").toList.reverse = _
    rw [String.toList_append, String.toList_append, String.toList_append, toList_toString,
      List.reverse_append, List.reverse_append, List.reverse_append]
    rfl
  have hsame := congrArg (fun text => text.toList.reverse) h
  rw [hlists, hlists, List.cons.injEq] at hsame
  have hreverse := congrArg (List.takeWhile (· != '[')) hsame.2
  rw [hread, hread] at hreverse
  have hvalue := congrArg (fun digits => Nat.ofDigitChars 10 digits.reverse 0) hreverse
  simpa only [List.reverse_reverse, Nat.ofDigitChars_ten_toDigits] using hvalue

theorem ModelsOf.context_of_mem {start : Nat} {values : List (Located CosObject)}
    {models : List GenericModel} (h : ModelsOf doc family start values models) {model : GenericModel}
    (hmem : model ∈ models) :
    ∃ (node : String) (n : Nat), start ≤ n ∧ model.context = s!"{node}/{family.text}[{n}]" := by
  induction values generalizing start models with
  | nil =>
    cases h
    cases hmem
  | cons value values ih =>
    obtain ⟨first, rest, ⟨node, hfirst⟩, hrest, rfl⟩ := List.forall₂_cons_left_iff.mp h
    rcases List.mem_cons.mp hmem with rfl | hmem
    · exact ⟨node, start, Nat.le_refl _, modelFromValue_context hfirst⟩
    · obtain ⟨node, n, hn, hcontext⟩ := ih hrest hmem
      exact ⟨node, n, Nat.le_of_succ_le hn, hcontext⟩

/-- The models of a list of values have different contexts. -/
theorem ModelsOf.contexts_nodup {start : Nat} {values : List (Located CosObject)}
    {models : List GenericModel} (h : ModelsOf doc family start values models) :
    (models.map GenericModel.context).Nodup := by
  induction values generalizing start models with
  | nil =>
    cases h
    exact List.nodup_nil
  | cons value values ih =>
    obtain ⟨model, rest, ⟨node, hmodel⟩, hrest, rfl⟩ := List.forall₂_cons_left_iff.mp h
    refine List.nodup_cons.mpr ⟨fun hmem => ?_, ih hrest⟩
    obtain ⟨other, hother, hcontext⟩ := List.mem_map.mp hmem
    obtain ⟨other, n, hn, hother⟩ := ModelsOf.context_of_mem hrest hother
    rw [modelFromValue_context hmodel, hother] at hcontext
    have hordinal := ordinal_of_context hcontext
    omega

theorem ModelsOf.append {start : Nat} {values more : List (Located CosObject)}
    {models rest : List GenericModel} (h : ModelsOf doc family start values models)
    (hrest : ModelsOf doc family (start + values.length) more rest) :
    ModelsOf doc family start (values ++ more) (models ++ rest) := by
  unfold ModelsOf at *
  rw [List.zipIdx_append]
  exact List.rel_append h hrest

theorem ModelsOf.length {start : Nat} {values : List (Located CosObject)}
    {models : List GenericModel} (h : ModelsOf doc family start values models) :
    models.length = values.length := by
  rw [← @List.length_zipIdx _ values start]
  exact (List.Forall₂.length_eq h).symm

/-! ## Pushing nodes -/

/-- A pending node carries the key of its dictionary. -/
def NameTreeNode.Keyed (node : NameTreeNode) : Prop :=
  node.key = node.dictionary.ownKey

/-- An entry of a name tree: a reference, or a value stored in a dictionary or an array. -/
def Inner (entry : Located CosObject) : Prop :=
  ∃ place selector, entry.place = Place.child place selector

theorem resolveNamedDictionary_keyed {entry : Located CosObject} (hinner : Inner entry)
    {found : NamedDictionary} (h : doc.resolveNamedDictionary entry = some found)
    (context : String) : (⟨found.key, found.dictionary, context⟩ : NameTreeNode).Keyed := by
  rcases nameTreeNode_cases h with ⟨key, -, hkey, hplace, -⟩ | ⟨-, hkey, hplace⟩
  · exact hkey.trans (ownKey_eq_some.mpr hplace).symm
  · obtain ⟨place, selector, hchild⟩ := hinner
    refine hkey.trans ?_
    show none = Located.ownKey found.dictionary
    unfold Located.ownKey
    rw [hplace, hchild, if_neg (place.child_path selector)]

theorem kidEntries_inner {node : Located Dictionary} {entry : Located CosObject}
    (h : entry ∈ node.kidEntries) : Inner entry := by
  unfold Located.kidEntries arrayValues at h
  split at h
  · unfold Located.items at h
    obtain ⟨index, hindex, rfl⟩ := List.mem_mapIdx.mp h
    exact ⟨_, _, rfl⟩
  · cases h

/-- What pushing an entry does: it fails on a full stack, and else adds the node of the entry. -/
theorem pushNameTreeNode_spec {stack : List NameTreeNode} {entry : Located CosObject}
    (hinner : Inner entry) (context : String) :
    if budget ≤ stack.length then
      pushNameTreeNode doc budget stack (some entry) context = .error (.limit "max_objects")
    else ∃ pushed : List NameTreeNode,
      pushNameTreeNode doc budget stack (some entry) context = .ok (pushed ++ stack) ∧
      pushed.map NameTreeNode.dictionary = (doc.nameTreeNode entry).toList ∧
      ∀ node ∈ pushed, node.Keyed := by
  unfold pushNameTreeNode
  split
  case isTrue hfull => rw [failIf, if_pos hfull]; rfl
  case isFalse hroom =>
    rw [failIf, if_neg hroom, Option.bind_some]
    unfold ModelDocument.nameTreeNode
    cases hfound : doc.resolveNamedDictionary entry with
    | none => exact ⟨[], rfl, rfl, fun _ hmem => absurd hmem List.not_mem_nil⟩
    | some found =>
      refine ⟨[⟨found.key, found.dictionary, context⟩], rfl, rfl, fun node hmem => ?_⟩
      rw [List.mem_singleton.mp hmem]
      exact resolveNamedDictionary_keyed hinner hfound context

theorem pushed_length {pushed : List NameTreeNode} {entry : Located CosObject}
    (h : pushed.map NameTreeNode.dictionary = (doc.nameTreeNode entry).toList) :
    pushed.length ≤ 1 := by
  rw [← List.length_map NameTreeNode.dictionary, h]
  cases doc.nameTreeNode entry with
  | none => exact Nat.zero_le 1
  | some node => exact Nat.le_refl 1

/-- What pushing the kids of a node does: it fails where the stack would hold too much, and else adds
their nodes. -/
theorem pushKids_spec (room : Nat) (context : String) {entries : List (Located CosObject × Nat)}
    (hinner : ∀ entry ∈ entries, Inner entry.1) (stack : List NameTreeNode) :
    (∃ pushed, entries.foldlM (fun stack kid => pushNameTreeNode doc room stack (some kid.1)
          s!"{context}/kid[{kid.2}]") stack = .ok (pushed ++ stack) ∧
        pushed.map NameTreeNode.dictionary
          = ((entries.map Prod.fst).filterMap doc.nameTreeNode).reverse ∧
        ∀ node ∈ pushed, node.Keyed) ∨
      (entries.foldlM (fun stack kid => pushNameTreeNode doc room stack (some kid.1)
          s!"{context}/kid[{kid.2}]") stack = .error (.limit "max_objects") ∧
        room < stack.length + entries.length) := by
  induction entries generalizing stack with
  | nil => exact .inl ⟨[], rfl, rfl, fun _ hmem => absurd hmem List.not_mem_nil⟩
  | cons entry entries ih =>
    obtain ⟨hentry, hinner⟩ := List.forall_mem_cons.mp hinner
    have hpush := @pushNameTreeNode_spec doc room stack entry.1 hentry
      s!"{context}/kid[{entry.2}]"
    rw [List.foldlM_cons]
    split at hpush
    case isTrue hfull =>
      rw [hpush, error_bind]
      exact .inr ⟨rfl, by rw [List.length_cons]; omega⟩
    case isFalse =>
      obtain ⟨first, hfirst, hdictionaries, hkeyed⟩ := hpush
      have hone := pushed_length hdictionaries
      rw [hfirst, ok_bind]
      obtain ⟨rest, hrest, hnodes, hrestKeyed⟩ | ⟨hrest, hroom⟩ := ih hinner (first ++ stack)
      · refine .inl ⟨rest ++ first, by rw [hrest, List.append_assoc], ?_, ?_⟩
        · rw [List.map_append, hnodes, hdictionaries, List.map_cons]
          cases hnode : doc.nameTreeNode entry.1 with
          | none => rw [List.filterMap_cons_none hnode, Option.toList_none, List.append_nil]
          | some node =>
            rw [List.filterMap_cons_some hnode, Option.toList_some, List.reverse_cons]
        · exact List.forall_mem_append.mpr ⟨hrestKeyed, hkeyed⟩
      · refine .inr ⟨hrest, ?_⟩
        rw [List.length_append] at hroom
        rw [List.length_cons]
        omega

/-! ## Scanning a node -/

/-- What scanning a node leaves. -/
structure Scanned (doc : ModelDocument) (family : Family) (budget : Nat) (s : NameTreeSearch)
    (node : NameTreeNode) (stack : List NameTreeNode) (s' : NameTreeSearch) : Prop where
  scanned : s'.scanned = s.scanned + 1
  visited : s'.visited = node.key.toList ++ s.visited
  objects : ∃ models, s'.objects = s.objects ++ models ∧
    ModelsOf doc family s.objects.length (doc.entryValues family node.dictionary) models
  bounded : s'.objects.length ≤ max budget s.objects.length
  stack : ∃ pushed, s'.stack = pushed ++ stack ∧
    pushed.map NameTreeNode.dictionary = doc.nameTreeLinks node.dictionary ∧
    ∀ node ∈ pushed, node.Keyed

/-- A node is scanned, or there are too many nodes, or too many models and entries. -/
theorem scanNameTreeNode_spec (s : NameTreeSearch) (node : NameTreeNode)
    (stack : List NameTreeNode) :
    (∃ s', scanNameTreeNode doc family budget s node stack = .ok s' ∧
        Scanned doc family budget s node stack s') ∨
      (scanNameTreeNode doc family budget s node stack = .error (.limit "max_objects") ∧
        (budget < s.scanned + 1 ∨ budget < s.objects.length
          + (doc.entryValues family node.dictionary).length
          + (stack.length + node.dictionary.kidEntries.length))) := by
  obtain ⟨models, hmodels, hspec⟩ := @nameTreeModels_spec doc family node.context s.objects
    (nameTreeValues (arrayValues (node.dictionary.get "Names")))
  have hlength := ModelsOf.length hspec
  unfold scanNameTreeNode
  by_cases hscanned : s.scanned + 1 > budget
  · refine .inr ⟨?_, .inl hscanned⟩
    dsimp only
    rw [failIf_of hscanned]
    rfl
  · dsimp only
    rw [failIf_of_not hscanned, ok_bind, hmodels, List.drop_left]
    by_cases hroom : models.isEmpty || s.objects.length + models.length ≤ budget
    · rw [pushLinked, if_pos hroom, ok_bind]
      have hkids : ∀ entry ∈ node.dictionary.kidEntries.zipIdx, Inner entry.1 := fun entry hmem =>
        kidEntries_inner (List.fst_mem_of_mem_zipIdx hmem)
      have hpush := @pushKids_spec doc (budget - (s.objects ++ models).length) node.context _ hkids
        stack
      obtain ⟨pushed, hpushed, hnodes, hkeyed⟩ | ⟨hfull, hover⟩ := hpush
      · refine .inl ⟨⟨pushed ++ stack, node.key.toList ++ s.visited, s.scanned + 1,
          s.objects ++ models⟩, ?_, rfl, rfl, ⟨models, rfl, hspec⟩, ?_, pushed, rfl, ?_, hkeyed⟩
        · rw [show (arrayValues (node.dictionary.get "Kids")).zipIdx.foldlM _ stack = _ from hpushed]
          rfl
        · rw [List.length_append]
          rw [Bool.or_eq_true, List.isEmpty_iff, decide_eq_true_eq] at hroom
          rcases hroom with rfl | hroom
          · exact Nat.le_max_right _ _
          · exact Nat.le_trans hroom (Nat.le_max_left _ _)
        · rw [hnodes, List.zipIdx_map_fst]
          rfl
      · refine .inr ⟨?_, .inr ?_⟩
        · rw [show (arrayValues (node.dictionary.get "Kids")).zipIdx.foldlM _ stack = _ from hfull]
          rfl
        · rw [List.length_zipIdx, List.length_append] at hover
          rw [show (doc.entryValues family node.dictionary).length = models.length from hlength.symm]
          omega
    · refine .inr ⟨by rw [pushLinked, if_neg hroom]; rfl, .inr ?_⟩
      rw [Bool.or_eq_true, not_or, decide_eq_true_eq] at hroom
      rw [show (doc.entryValues family node.dictionary).length = models.length from hlength.symm]
      omega

/-! ## Stored nodes and inner nodes -/

/-- The place of an item of the `/Kids` array of a dictionary. -/
def kidPlace (place : Place) (index : Nat) : Place :=
  (place.child (.entry (PdfName.fromStatic "Kids"))).child (.item index)

theorem kidPlace_inj {place place' : Place} {index index' : Nat}
    (h : kidPlace place index = kidPlace place' index') : place = place' ∧ index = index' := by
  obtain ⟨hplace, hindex⟩ := Place.child_inj h
  cases hindex
  exact ⟨(Place.child_inj hplace).1, rfl⟩

/-- The places of the nodes that are no indirect objects. -/
def innerPlaces (nodes : List (Located Dictionary)) : List Place :=
  (nodes.filter fun node => node.ownKey.isNone).map Located.place

theorem innerPlaces_inner {node : Located Dictionary} (h : node.ownKey = none)
    (nodes : List (Located Dictionary)) :
    innerPlaces (node :: nodes) = node.place :: innerPlaces nodes := by
  simp [innerPlaces, h]

theorem innerPlaces_stored {node : Located Dictionary} {key : ObjectKey}
    (h : node.ownKey = some key) (nodes : List (Located Dictionary)) :
    innerPlaces (node :: nodes) = innerPlaces nodes := by
  simp [innerPlaces, h]

theorem innerPlaces_append (nodes more : List (Located Dictionary)) :
    innerPlaces (nodes ++ more) = innerPlaces nodes ++ innerPlaces more := by
  unfold innerPlaces
  rw [List.filter_append, List.map_append]

theorem innerPlaces_perm {nodes nodes' : List (Located Dictionary)} (h : nodes.Perm nodes') :
    (innerPlaces nodes).Perm (innerPlaces nodes') :=
  (h.filter _).map _

theorem mem_innerPlaces {nodes : List (Located Dictionary)} {node : Located Dictionary}
    (h : node ∈ nodes) (hinner : node.ownKey = none) : node.place ∈ innerPlaces nodes :=
  List.mem_map.mpr ⟨node, List.mem_filter.mpr ⟨h, Option.isNone_iff_eq_none.mpr hinner⟩, rfl⟩

theorem kidEntries_place {node : Located Dictionary} {entry : Located CosObject}
    (h : entry ∈ node.kidEntries) : ∃ index, entry.place = kidPlace node.place index := by
  unfold Located.kidEntries arrayValues Located.get at h
  split at h
  · rename_i hkids
    obtain ⟨value, -, hvalue⟩ := Option.map_eq_some_iff.mp hkids
    cases hvalue
    obtain ⟨index, -, rfl⟩ := List.mem_mapIdx.mp h
    exact ⟨index, rfl⟩
  · cases h

theorem kidEntries_nodup (node : Located Dictionary) :
    (node.kidEntries.map Located.place).Nodup := by
  unfold Located.kidEntries arrayValues
  split
  · rename_i place values _
    have hplaces : (Located.items ⟨place, values⟩).map Located.place
        = (List.range values.length).map fun index => place.child (.item index) := by
      apply List.ext_getElem
      · simp [Located.items]
      · intro index _ _
        simp [Located.items]
    rw [hplaces]
    refine List.nodup_range.map fun index index' h => ?_
    cases (Place.child_inj h).2
    rfl
  · exact List.nodup_nil

theorem nameTreeNode_holds {entry : Located CosObject} (hinner : Inner entry)
    {node : Located Dictionary} (h : doc.nameTreeNode entry = some node) : doc.Holds node := by
  obtain ⟨found, hfound, rfl⟩ := Option.map_eq_some_iff.mp h
  intro key hkey
  rcases nameTreeNode_cases hfound with ⟨key', -, -, hplace, hvalue⟩ | ⟨-, -, hplace⟩
  · rw [ownKey_eq_some.mpr hplace] at hkey
    cases hkey
    exact hvalue
  · obtain ⟨place, selector, hchild⟩ := hinner
    rw [ownKey_eq_some, hplace, hchild] at hkey
    exact absurd (congrArg Place.path hkey) (place.child_path selector)

theorem nameTreeNode_inner {entry : Located CosObject} {node : Located Dictionary}
    (h : doc.nameTreeNode entry = some node) (hinner : node.ownKey = none) :
    node.place = entry.place := by
  obtain ⟨found, hfound, rfl⟩ := Option.map_eq_some_iff.mp h
  rcases nameTreeNode_cases hfound with ⟨key, -, -, hplace, -⟩ | ⟨-, -, hplace⟩
  · rw [ownKey_eq_some.mpr hplace] at hinner
    cases hinner
  · exact hplace

theorem innerPlaces_sublist (entries : List (Located CosObject)) :
    (innerPlaces (entries.filterMap doc.nameTreeNode)).Sublist (entries.map Located.place) := by
  induction entries with
  | nil => exact List.Sublist.slnil
  | cons entry entries ih =>
    rw [List.map_cons]
    cases hnode : doc.nameTreeNode entry with
    | none =>
      rw [List.filterMap_cons_none hnode]
      exact ih.cons _
    | some node =>
      rw [List.filterMap_cons_some hnode]
      cases hkey : node.ownKey with
      | none =>
        rw [innerPlaces_inner hkey, nameTreeNode_inner hnode hkey]
        exact ih.cons_cons _
      | some key =>
        rw [innerPlaces_stored hkey]
        exact ih.cons _

theorem mem_nameTreeLinks {node next : Located Dictionary} (h : next ∈ doc.nameTreeLinks node) :
    ∃ entry ∈ node.kidEntries, doc.nameTreeNode entry = some next :=
  List.mem_filterMap.mp (List.mem_reverse.mp h)

theorem nameTreeLinks_holds {node next : Located Dictionary} (h : next ∈ doc.nameTreeLinks node) :
    doc.Holds next := by
  obtain ⟨entry, hentry, hnode⟩ := mem_nameTreeLinks h
  exact nameTreeNode_holds (kidEntries_inner hentry) hnode

theorem innerPlaces_links (node : Located Dictionary) :
    (innerPlaces (doc.nameTreeLinks node)).Nodup ∧
      ∀ place ∈ innerPlaces (doc.nameTreeLinks node), ∃ index, place = kidPlace node.place index := by
  have hperm := innerPlaces_perm (List.reverse_perm (node.kidEntries.filterMap doc.nameTreeNode))
  have hsub := @innerPlaces_sublist doc node.kidEntries
  refine ⟨hperm.nodup_iff.mpr (hsub.nodup (kidEntries_nodup node)), fun place hplace => ?_⟩
  obtain ⟨entry, hentry, rfl⟩ := List.mem_map.mp (hsub.subset (hperm.mem_iff.mp hplace))
  exact kidEntries_place hentry

/-! ## Termination -/

/-- The weight of the entry that a node was read from. -/
def nodeWeight (node : Located Dictionary) : Nat :=
  match node.ownKey with
  | some _ => 1
  | none => CosObject.weightEntries node.value + 1

theorem nodeWeight_pos (node : Located Dictionary) : 0 < nodeWeight node := by
  unfold nodeWeight
  split
  · exact Nat.one_pos
  · exact Nat.succ_pos _

/-- The weight of pending nodes. -/
def nodesWeight (nodes : List (Located Dictionary)) : Nat :=
  (nodes.map nodeWeight).sum

@[simp] theorem nodesWeight_cons (node : Located Dictionary) (nodes : List (Located Dictionary)) :
    nodesWeight (node :: nodes) = nodeWeight node + nodesWeight nodes := by
  simp [nodesWeight]

@[simp] theorem nodesWeight_append (nodes more : List (Located Dictionary)) :
    nodesWeight (nodes ++ more) = nodesWeight nodes + nodesWeight more := by
  simp [nodesWeight]

theorem nodesWeight_reverse (nodes : List (Located Dictionary)) :
    nodesWeight nodes.reverse = nodesWeight nodes := by
  unfold nodesWeight
  rw [List.map_reverse, List.sum_reverse]

/-- A node weighs what its entry weighs. -/
theorem nodeWeight_entry {entry : Located CosObject} (hinner : Inner entry)
    {node : Located Dictionary} (h : doc.nameTreeNode entry = some node) :
    nodeWeight node ≤ entry.value.weight := by
  obtain ⟨found, hfound, rfl⟩ := Option.map_eq_some_iff.mp h
  rcases nameTreeNode_cases hfound with ⟨key, -, -, hplace, -⟩ | ⟨hvalue, -, hplace⟩
  · unfold nodeWeight
    rw [ownKey_eq_some.mpr hplace]
    exact CosObject.weight_pos entry.value
  · obtain ⟨place, selector, hchild⟩ := hinner
    have hkey : found.dictionary.ownKey = none := by
      unfold Located.ownKey
      rw [hplace, hchild, if_neg (place.child_path selector)]
    unfold nodeWeight
    rw [hkey, hvalue, CosObject.weight]

theorem nodesWeight_entries {entries : List (Located CosObject)}
    (hinner : ∀ entry ∈ entries, Inner entry) :
    nodesWeight (entries.filterMap doc.nameTreeNode) ≤ itemsWeight (entries.map Located.value) := by
  induction entries with
  | nil => exact Nat.le_refl _
  | cons entry entries ih =>
    obtain ⟨hentry, hinner⟩ := List.forall_mem_cons.mp hinner
    have hrest := ih hinner
    rw [List.map_cons, itemsWeight_cons]
    cases hnode : doc.nameTreeNode entry with
    | none =>
      rw [List.filterMap_cons_none hnode]
      omega
    | some node =>
      have hweight := nodeWeight_entry hentry hnode
      rw [List.filterMap_cons_some hnode, nodesWeight_cons]
      omega

/-- The nodes below a node weigh less than its dictionary. -/
theorem nameTreeLinks_weight (node : Located Dictionary) :
    nodesWeight (doc.nameTreeLinks node) ≤ CosObject.weightEntries node.value := by
  unfold ModelDocument.nameTreeLinks
  rw [nodesWeight_reverse]
  refine Nat.le_trans (nodesWeight_entries fun entry h => kidEntries_inner h) ?_
  refine Nat.le_trans ?_ (kidItems_weight node.value "Kids")
  unfold Located.kidEntries arrayValues Located.get
  cases node.value.get "Kids" with
  | none => exact Nat.le_refl _
  | some value =>
    cases value with
    | array values =>
      have hvalues : (Located.items ⟨node.place.child (.entry (PdfName.fromStatic "Kids")),
          values⟩).map Located.value = values := by
        apply List.ext_getElem
        · simp [Located.items]
        · intro index _ _
          simp [Located.items]
      rw [Option.map_some]
      dsimp only
      rw [hvalues]
      exact Nat.le_refl _
    | _ => exact Nat.zero_le _

/-- The keys of the nodes that are indirect objects. -/
def ownKeys (nodes : List (Located Dictionary)) : List ObjectKey :=
  nodes.filterMap Located.ownKey

/-- The measure of a walk over a name tree. -/
def nameTreeWeight (doc : ModelDocument) (seen stack : List (Located Dictionary)) : Nat :=
  nodesWeight stack + unvisitedWeight doc (ownKeys seen)

theorem nameTreeWeight_again {seen stack : List (Located Dictionary)} {node : Located Dictionary} :
    nameTreeWeight doc seen stack < nameTreeWeight doc seen (node :: stack) := by
  have hpos := nodeWeight_pos node
  unfold nameTreeWeight
  rw [nodesWeight_cons]
  omega

/-- An indirect object that was not seen has a new key. -/
theorem ownKey_new {seen : List (Located Dictionary)} {node : Located Dictionary}
    (hnode : doc.Holds node) (hseen : ∀ other ∈ seen, doc.Holds other) (hnew : node ∉ seen)
    {key : ObjectKey} (hkey : node.ownKey = some key) : key ∉ ownKeys seen := by
  intro hmem
  obtain ⟨other, hother, hsame⟩ := List.mem_filterMap.mp hmem
  have hplace : other.place = node.place :=
    (ownKey_eq_some.mp hsame).trans (ownKey_eq_some.mp hkey).symm
  exact hnew (hnode.eq_of_place (hseen other hother) hkey hplace ▸ hother)

theorem nameTreeWeight_enter {seen stack : List (Located Dictionary)} {node : Located Dictionary}
    (hnode : doc.Holds node) (hseen : ∀ other ∈ seen, doc.Holds other) (hnew : node ∉ seen) :
    nameTreeWeight doc (node :: seen) (doc.nameTreeLinks node ++ stack)
      < nameTreeWeight doc seen (node :: stack) := by
  have hlinks := @nameTreeLinks_weight doc node
  unfold nameTreeWeight
  rw [nodesWeight_append, nodesWeight_cons]
  cases hkey : node.ownKey with
  | none =>
    have hkeys : ownKeys (node :: seen) = ownKeys seen := List.filterMap_cons_none hkey
    unfold nodeWeight
    rw [hkeys, hkey]
    dsimp only
    omega
  | some key =>
    have hkeys : ownKeys (node :: seen) = key :: ownKeys seen := List.filterMap_cons_some hkey
    obtain ⟨object, hobject, hdictionary⟩ := Option.bind_eq_some_iff.mp (hnode key hkey)
    have hrest := unvisitedWeight_cons doc hobject (ownKey_new hnode hseen hnew hkey)
    have hweight := asDictionary_weight hdictionary
    unfold nodeWeight
    rw [hkeys, hkey]
    dsimp only
    omega

/-- A name tree has an order in which a walk meets its nodes. -/
theorem nameTree_visits {roots : List (Located Dictionary)} (hroots : ∀ root ∈ roots, doc.Holds root) :
    ∃ order, Visits doc.nameTreeLinks [] roots order :=
  Visits.exists_of_measure (fun _ _ _ h => nameTreeLinks_holds h) (nameTreeWeight doc)
    (fun _ _ _ _ => nameTreeWeight_again)
    (fun _ _ _ hnode hseen hnew => nameTreeWeight_enter hnode hseen hnew)
    (fun _ hmem => absurd hmem List.not_mem_nil) hroots

/-! ## The walk -/

/-- What the state of a walk keeps: pending nodes carry their keys and are stored dictionaries, the
visited keys are those of the seen nodes, no inner node is met twice, and every inner node is the root
or a kid of a seen node. -/
structure Walked (doc : ModelDocument) (rootPlace : Place) (seen : List (Located Dictionary))
    (s : NameTreeSearch) : Prop where
  keyed : ∀ node ∈ s.stack, node.Keyed
  stack_holds : ∀ node ∈ s.stack, doc.Holds node.dictionary
  seen_holds : ∀ node ∈ seen, doc.Holds node
  visited : ∀ key, key ∈ s.visited ↔ key ∈ ownKeys seen
  distinct : (innerPlaces (seen ++ s.stack.map NameTreeNode.dictionary)).Nodup
  kids : ∀ place ∈ innerPlaces (seen ++ s.stack.map NameTreeNode.dictionary),
    place = rootPlace ∨ ∃ parent ∈ seen, ∃ index, place = kidPlace parent.place index

section Walk

variable {rootPlace : Place} {seen : List (Located Dictionary)} {s : NameTreeSearch}
  {node : NameTreeNode} {stack : List NameTreeNode}

/-- An inner node on the stack was not seen. -/
theorem Walked.inner_new (h : Walked doc rootPlace seen s) (hmem : node ∈ s.stack)
    (hinner : node.dictionary.ownKey = none) {other : Located Dictionary} (hother : other ∈ seen) :
    other.place ≠ node.dictionary.place := by
  intro hplace
  have hdistinct := h.distinct
  rw [innerPlaces_append] at hdistinct
  have hotherKey : other.ownKey = none := by
    cases hkey : other.ownKey with
    | none => rfl
    | some key =>
      have hsame := ownKey_eq_some.mpr (hplace ▸ ownKey_eq_some.mp hkey)
      rw [hinner] at hsame
      cases hsame
  refine (List.nodup_append.mp hdistinct).2.2 _ (mem_innerPlaces hother hotherKey) _
    (mem_innerPlaces (List.mem_map_of_mem hmem) hinner) hplace

/-- A seen node on the stack is an indirect object whose key was visited. -/
theorem Walked.seen_key (h : Walked doc rootPlace seen s) (hmem : node ∈ s.stack)
    (hseen : node.dictionary ∈ seen) : ∃ key, node.key = some key ∧ key ∈ s.visited := by
  have hkeyed := h.keyed node hmem
  cases hkey : node.dictionary.ownKey with
  | none => exact absurd rfl (h.inner_new hmem hkey hseen)
  | some key =>
    exact ⟨key, hkeyed.trans hkey,
      (h.visited key).mpr (List.mem_filterMap.mpr ⟨_, hseen, hkey⟩)⟩

/-- The key of a node that was not seen is new. -/
theorem Walked.new_key (h : Walked doc rootPlace seen s) (hmem : node ∈ s.stack)
    (hnew : node.dictionary ∉ seen) {key : ObjectKey} (hkey : node.key = some key) :
    key ∉ s.visited := by
  rw [h.visited]
  exact ownKey_new (h.stack_holds node hmem) h.seen_holds hnew ((h.keyed node hmem).symm.trans hkey)

theorem Walked.new_place (h : Walked doc rootPlace seen s) (hmem : node ∈ s.stack)
    (hnew : node.dictionary ∉ seen) {other : Located Dictionary} (hother : other ∈ seen) :
    other.place ≠ node.dictionary.place := by
  cases hkey : node.dictionary.ownKey with
  | none => exact h.inner_new hmem hkey hother
  | some key =>
    intro hplace
    exact hnew ((h.stack_holds node hmem).eq_of_place (h.seen_holds other hother) hkey hplace
      ▸ hother)

theorem Walked.drop (h : Walked doc rootPlace seen s) (hstack : s.stack = node :: stack)
    (hseen : node.dictionary ∈ seen) : Walked doc rootPlace seen { s with stack := stack } := by
  have hmem : node ∈ s.stack := hstack ▸ List.mem_cons_self
  obtain ⟨key, hkey, -⟩ := h.seen_key hmem hseen
  have hplaces : innerPlaces (seen ++ s.stack.map NameTreeNode.dictionary)
      = innerPlaces (seen ++ stack.map NameTreeNode.dictionary) := by
    rw [hstack, List.map_cons, innerPlaces_append, innerPlaces_append,
      innerPlaces_stored ((h.keyed node hmem).symm.trans hkey)]
  have hsub : ∀ other ∈ stack, other ∈ s.stack := fun other hother =>
    hstack ▸ List.mem_cons_of_mem _ hother
  exact ⟨fun other hother => h.keyed other (hsub other hother),
    fun other hother => h.stack_holds other (hsub other hother), h.seen_holds, h.visited,
    hplaces ▸ h.distinct, hplaces ▸ h.kids⟩

/-- The nodes below a scanned node are new. -/
theorem Walked.scan (hroot : ∀ place index, rootPlace ≠ kidPlace place index)
    (h : Walked doc rootPlace seen s) (hstack : s.stack = node :: stack)
    (hnew : node.dictionary ∉ seen) {s' : NameTreeSearch}
    (hscan : Scanned doc family budget s node stack s') :
    Walked doc rootPlace (node.dictionary :: seen) s' := by
  have hmem : node ∈ s.stack := hstack ▸ List.mem_cons_self
  obtain ⟨pushed, hpushed, hlinks, hkeyed⟩ := hscan.stack
  obtain ⟨hnodup, hkids⟩ := @innerPlaces_links doc node.dictionary
  have hsub : ∀ other ∈ stack, other ∈ s.stack := fun other hother =>
    hstack ▸ List.mem_cons_of_mem _ hother
  -- what waits afterwards, besides what waited or was seen before
  have hperm : (innerPlaces (node.dictionary :: seen ++ s'.stack.map NameTreeNode.dictionary)).Perm
      (innerPlaces (doc.nameTreeLinks node.dictionary)
        ++ innerPlaces (seen ++ s.stack.map NameTreeNode.dictionary)) := by
    rw [← innerPlaces_append]
    refine innerPlaces_perm ?_
    rw [hpushed, hstack, List.map_append, hlinks, List.map_cons]
    refine ((List.perm_append_comm_assoc seen _ _).cons _).trans ?_
    exact List.perm_middle.symm.trans (List.perm_middle.symm.append_left _)
  have hfresh : ∀ place ∈ innerPlaces (doc.nameTreeLinks node.dictionary),
      place ∉ innerPlaces (seen ++ s.stack.map NameTreeNode.dictionary) := by
    intro place hplace hold
    obtain ⟨index, rfl⟩ := hkids place hplace
    rcases h.kids _ hold with hplace | ⟨parent, hparent, index', hplace⟩
    · exact hroot _ _ hplace.symm
    · exact h.new_place hmem hnew hparent (kidPlace_inj hplace).1.symm
  refine ⟨?_, ?_, ?_, ?_, ?_, ?_⟩
  · rw [hpushed]
    exact List.forall_mem_append.mpr ⟨hkeyed, fun other hother => h.keyed other (hsub other hother)⟩
  · rw [hpushed]
    refine List.forall_mem_append.mpr ⟨fun other hother => ?_,
      fun other hother => h.stack_holds other (hsub other hother)⟩
    exact nameTreeLinks_holds (hlinks ▸ List.mem_map_of_mem hother)
  · exact List.forall_mem_cons.mpr ⟨h.stack_holds node hmem, h.seen_holds⟩
  · intro key
    rw [hscan.visited, List.mem_append, h.visited, h.keyed node hmem, Option.mem_toList]
    unfold ownKeys
    rw [List.mem_filterMap, List.mem_filterMap]
    simp
  · exact hperm.nodup_iff.mpr (List.nodup_append.mpr ⟨hnodup, h.distinct,
      fun place hplace other hother heq => hfresh place hplace (heq ▸ hother)⟩)
  · intro place hplace
    rcases List.mem_append.mp (hperm.mem_iff.mp hplace) with hplace | hplace
    · obtain ⟨index, rfl⟩ := hkids place hplace
      exact .inr ⟨_, List.mem_cons_self, index, rfl⟩
    · rcases h.kids place hplace with hplace | ⟨parent, hparent, hplace⟩
      · exact .inl hplace
      · exact .inr ⟨parent, List.mem_cons_of_mem _ hparent, hplace⟩

/-- The entries of the name tree below the given nodes, with one for each node that waits. -/
def entryCount (order : List (Located Dictionary)) (waiting : Nat) : Nat :=
  waiting + (order.flatMap Located.kidEntries).length

/-- What a walk gives: the models of the values of all nodes, or the limit, when there are too many
nodes, or too many models and entries. -/
inductive WalkResult (doc : ModelDocument) (family : Family) (budget : Nat)
    (order : List (Located Dictionary)) (s : NameTreeSearch) :
    Except PdfvError (List GenericModel) → Prop where
  | collected (models : List GenericModel)
    (h : ModelsOf doc family s.objects.length (order.flatMap (doc.entryValues family)) models)
    (hbounded : (s.objects ++ models).length ≤ max budget s.objects.length) :
    WalkResult doc family budget order s (.ok (s.objects ++ models))
  | limited (h : budget < s.scanned + order.length ∨ budget < s.objects.length
      + (order.flatMap (doc.entryValues family)).length + entryCount order s.stack.length) :
    WalkResult doc family budget order s (.error (.limit "max_objects"))

/-- The walk comes to its own end. -/
theorem nameTree_run (hroot : ∀ place index, rootPlace ≠ kidPlace place index)
    {waiting order : List (Located Dictionary)} (h : Visits doc.nameTreeLinks seen waiting order)
    (s : NameTreeSearch) (hwaiting : s.stack.map NameTreeNode.dictionary = waiting)
    (hwalked : Walked doc rootPlace seen s) :
    ∃ n r, EndsIn (nameTreeStep doc family budget) n s r ∧
      n ≤ nameTreeWeight doc seen waiting + 1 ∧ WalkResult doc family budget order s r := by
  induction h generalizing s with
  | done seen =>
    have hstack : s.stack = [] := List.map_eq_nil_iff.mp hwaiting
    have hstep : nameTreeStep doc family budget s = .done (.ok s.objects) := by
      unfold nameTreeStep
      rw [hstack]
    have hresult : WalkResult doc family budget [] s (.ok (s.objects ++ [])) :=
      .collected [] .nil (by rw [List.append_nil]; exact Nat.le_max_right _ _)
    rw [List.append_nil] at hresult
    exact ⟨1, _, .done hstep, Nat.le_add_left 1 _, hresult⟩
  | @again seen waiting order dictionary hseen rest ih =>
    obtain ⟨node, stack, hstack, rfl, hrest⟩ := List.map_eq_cons_iff.mp hwaiting
    obtain ⟨key, hkey, hvisited⟩ := hwalked.seen_key (hstack ▸ List.mem_cons_self) hseen
    have hstep : nameTreeStep doc family budget s = .next { s with stack := stack } := by
      unfold nameTreeStep
      rw [hstack]
      dsimp only
      rw [hkey, Option.elim_some, if_pos (List.contains_iff_mem.mpr hvisited)]
    obtain ⟨n, r, hends, hn, hresult⟩ := ih _ hrest (hwalked.drop hstack hseen)
    have hlighter := @nameTreeWeight_again doc seen waiting node.dictionary
    refine ⟨n + 1, r, .next hstep hends, by omega, ?_⟩
    cases hresult with
    | collected models hmodels hbounded => exact .collected models hmodels hbounded
    | limited hover =>
      refine .limited (hover.imp_right fun hover => ?_)
      unfold entryCount at hover ⊢
      rw [hstack, List.length_cons]
      dsimp only at hover
      omega
  | @enter seen waiting order dictionary hnew rest ih =>
    obtain ⟨node, stack, hstack, rfl, hrest⟩ := List.map_eq_cons_iff.mp hwaiting
    have hmem : node ∈ s.stack := hstack ▸ List.mem_cons_self
    have hlighter := @nameTreeWeight_enter doc seen waiting _ (hwalked.stack_holds node hmem)
      hwalked.seen_holds hnew
    have hunvisited : ¬ (node.key.elim false fun key => s.visited.contains key) = true := by
      cases hkey : node.key with
      | none => exact Bool.false_ne_true
      | some key =>
        rw [Option.elim_some, List.contains_iff_mem]
        exact hwalked.new_key hmem hnew hkey
    obtain ⟨s', hscan, hscanned⟩ | ⟨hscan, hover⟩ :=
      @scanNameTreeNode_spec doc family budget s node stack
    · have hstep : nameTreeStep doc family budget s = .next s' := by
        unfold nameTreeStep
        rw [hstack]
        dsimp only
        rw [if_neg hunvisited, hscan]
      obtain ⟨models, hobjects, hmodels⟩ := hscanned.objects
      obtain ⟨pushed, hpushed, hlinks, -⟩ := hscanned.stack
      have hlength := hmodels.length
      have hbounded := hscanned.bounded
      have hstack' : s'.stack.map NameTreeNode.dictionary
          = doc.nameTreeLinks node.dictionary ++ stack.map NameTreeNode.dictionary := by
        rw [hpushed, List.map_append, hlinks]
      obtain ⟨n, r, hends, hn, hresult⟩ := ih s' (hrest ▸ hstack')
        (hwalked.scan hroot hstack hnew hscanned)
      refine ⟨n + 1, r, .next hstep hends, by omega, ?_⟩
      rw [hobjects, List.length_append] at hbounded
      cases hresult with
      | collected rest hrestModels hrestBounded =>
        rw [hobjects, List.length_append, hlength] at hrestModels
        simp only [hobjects, List.length_append] at hrestBounded
        have hall := hmodels.append hrestModels
        rw [← List.flatMap_cons] at hall
        rw [hobjects, List.append_assoc]
        refine .collected _ hall ?_
        rw [List.length_append, List.length_append]
        omega
      | limited hover =>
        have hpushedLength : pushed.length ≤ node.dictionary.kidEntries.length := by
          rw [← List.length_map NameTreeNode.dictionary, hlinks, ModelDocument.nameTreeLinks,
            List.length_reverse]
          exact List.length_filterMap_le _ _
        refine .limited (hover.imp (fun hover => ?_) (fun hover => ?_))
        · rw [hscanned.scanned] at hover
          rw [List.length_cons]
          omega
        · unfold entryCount at hover ⊢
          rw [hobjects, hpushed, List.length_append, List.length_append] at hover
          rw [hstack, List.length_cons, List.flatMap_cons, List.flatMap_cons, List.length_append,
            List.length_append]
          omega
    · have hstep : nameTreeStep doc family budget s = .done (.error (.limit "max_objects")) := by
        unfold nameTreeStep
        rw [hstack]
        dsimp only
        rw [if_neg hunvisited, hscan]
      refine ⟨1, _, .done hstep, Nat.le_add_left 1 _, .limited (hover.imp ?_ ?_)⟩
      · intro hover
        rw [List.length_cons]
        omega
      · intro hover
        unfold entryCount
        rw [hstack, List.length_cons, List.flatMap_cons, List.flatMap_cons, List.length_append,
          List.length_append]
        omega

end Walk

/-! ## Name trees are enumerated exactly -/

theorem nameTreeLinks_length (node : Located Dictionary) :
    (doc.nameTreeLinks node).length ≤ node.kidEntries.length := by
  rw [ModelDocument.nameTreeLinks, List.length_reverse]
  exact List.length_filterMap_le _ _

/-- Every node but those that wait is met through an entry. -/
theorem order_length_le {seen stack order : List (Located Dictionary)}
    (h : Visits doc.nameTreeLinks seen stack order) : order.length ≤ entryCount order stack.length := by
  unfold entryCount
  induction h with
  | done => exact Nat.zero_le _
  | again _ _ ih =>
    rw [List.length_cons]
    omega
  | @enter seen stack order node _ _ ih =>
    have hlinks := @nameTreeLinks_length doc node
    rw [List.length_append] at ih
    rw [List.length_cons, List.length_cons, List.flatMap_cons, List.length_append]
    omega

/-- The first push. -/
theorem pushRoot_spec (names : Located Dictionary) (key context : String) :
    if budget = 0 then
      pushNameTreeNode doc budget [] (names.get key) context = .error (.limit "max_objects")
    else ∃ stack : List NameTreeNode,
      pushNameTreeNode doc budget [] (names.get key) context = .ok stack ∧
      stack.map NameTreeNode.dictionary = ((names.get key).bind doc.nameTreeNode).toList ∧
      ∀ node ∈ stack, node.Keyed := by
  cases hentry : names.get key with
  | none =>
    unfold pushNameTreeNode
    split
    case isTrue hzero =>
      rw [failIf_of (by rw [hzero]; exact Nat.le_refl 0)]
      rfl
    case isFalse hroom =>
      rw [failIf_of_not (by rw [List.length_nil]; omega)]
      exact ⟨[], rfl, rfl, fun _ hmem => absurd hmem List.not_mem_nil⟩
  | some entry =>
    have hinner : Inner entry := by
      obtain ⟨value, -, rfl⟩ := Option.map_eq_some_iff.mp hentry
      exact ⟨_, _, rfl⟩
    have hpush := @pushNameTreeNode_spec doc budget [] entry hinner context
    split
    case isTrue hzero =>
      rw [if_pos (by rw [hzero]; exact Nat.zero_le _)] at hpush
      exact hpush
    case isFalse hroom =>
      rw [if_neg (by rw [List.length_nil]; omega)] at hpush
      obtain ⟨pushed, hpushed, hdictionaries, hkeyed⟩ := hpush
      exact ⟨pushed, by rw [hpushed, List.append_nil], hdictionaries, hkeyed⟩

/-- The state before the first pass. -/
theorem Walked.start {names : Located Dictionary} {key : String} {stack : List NameTreeNode}
    (hdictionaries : stack.map NameTreeNode.dictionary
      = ((names.get key).bind doc.nameTreeNode).toList)
    (hkeyed : ∀ node ∈ stack, node.Keyed) (objects : List GenericModel) :
    Walked doc (names.place.child (.entry (PdfName.fromStatic key))) [] ⟨stack, [], 0, objects⟩ := by
  have hroot : ∀ node ∈ ((names.get key).bind doc.nameTreeNode).toList, doc.Holds node ∧
      (node.ownKey = none → node.place = names.place.child (.entry (PdfName.fromStatic key))) := by
    intro node hnode
    obtain ⟨entry, hentry, hnode⟩ := Option.bind_eq_some_iff.mp (Option.mem_toList.mp hnode)
    obtain ⟨value, -, rfl⟩ := Option.map_eq_some_iff.mp hentry
    exact ⟨nameTreeNode_holds ⟨_, _, rfl⟩ hnode, fun hinner => nameTreeNode_inner hnode hinner⟩
  refine ⟨hkeyed, fun node hnode => ?_, fun _ hmem => absurd hmem List.not_mem_nil,
    fun _ => Iff.rfl, ?_, fun place hplace => .inl ?_⟩
  · exact (hroot _ (hdictionaries ▸ List.mem_map_of_mem hnode)).1
  · rw [List.nil_append, hdictionaries]
    refine ((List.filter_sublist).map Located.place).nodup ?_
    cases (names.get key).bind doc.nameTreeNode with
    | none => exact List.nodup_nil
    | some node => exact List.nodup_singleton _
  · rw [List.nil_append, hdictionaries] at hplace
    obtain ⟨node, hnode, rfl⟩ := List.mem_map.mp hplace
    obtain ⟨hnode, hinner⟩ := List.mem_filter.mp hnode
    exact (hroot node hnode).2 (Option.isNone_iff_eq_none.mp hinner)

/-- The root weighs what the entry weighs that it was read from. -/
theorem rootWeight_le (doc : ModelDocument) (names : Located Dictionary) (key : String) :
    nodesWeight ((names.get key).bind doc.nameTreeNode).toList
      ≤ (names.get key).elim 0 fun root => root.value.weight := by
  cases hentry : names.get key with
  | none => exact Nat.le_refl 0
  | some entry =>
    obtain ⟨value, -, hvalue⟩ := Option.map_eq_some_iff.mp hentry
    rw [Option.bind_some, Option.elim_some]
    cases hnode : doc.nameTreeNode entry with
    | none => exact Nat.zero_le _
    | some node =>
      have hweight := nodeWeight_entry ⟨_, _, congrArg Located.place hvalue.symm⟩ hnode
      show nodeWeight node + 0 ≤ _
      omega

/-- What `collect_name_tree_entries` does for the tree under an entry of a dictionary: the nodes it
meets are those reachable from the root; it comes to its own end; when it succeeds it adds one model for
each value of these nodes, under different contexts and within the limit; and it fails only with the
limit, where the models and the entries of the tree exceed it. -/
theorem collectNameTreeEntries_exact (doc : ModelDocument) (family : Family) (budget : Nat)
    (names : Located Dictionary) (key context : String) (objects : List GenericModel) :
    ∃ order : List (Located Dictionary), order.Nodup ∧
      (∀ node, node ∈ order ↔ ∃ root ∈ ((names.get key).bind doc.nameTreeNode).toList,
        Relation.ReflTransGen (fun node kid => kid ∈ doc.nameTreeLinks node) root node) ∧
      (∀ stack, pushNameTreeNode doc budget [] (names.get key) context = .ok stack →
        ∃ n, EndsIn (nameTreeStep doc family budget) n ⟨stack, [], 0, objects⟩
          (collectNameTreeEntries doc family budget (names.get key) context objects)) ∧
      (∀ all, collectNameTreeEntries doc family budget (names.get key) context objects = .ok all →
        ∃ models, all = objects ++ models ∧
          ModelsOf doc family objects.length (order.flatMap (doc.entryValues family)) models ∧
          (models.map GenericModel.context).Nodup ∧ all.length ≤ max budget objects.length) ∧
      (∀ e, collectNameTreeEntries doc family budget (names.get key) context objects = .error e →
        e = .limit "max_objects" ∧ budget < objects.length
          + (order.flatMap (doc.entryValues family)).length + entryCount order 1) := by
  have hholds : ∀ node ∈ ((names.get key).bind doc.nameTreeNode).toList, doc.Holds node := by
    intro node hnode
    obtain ⟨entry, hentry, hnode⟩ := Option.bind_eq_some_iff.mp (Option.mem_toList.mp hnode)
    obtain ⟨value, -, rfl⟩ := Option.map_eq_some_iff.mp hentry
    exact nameTreeNode_holds ⟨_, _, rfl⟩ hnode
  obtain ⟨order, horder⟩ := nameTree_visits hholds
  have hlength := order_length_le horder
  have hone : ((names.get key).bind doc.nameTreeNode).toList.length ≤ 1 := by
    cases (names.get key).bind doc.nameTreeNode with
    | none => exact Nat.zero_le 1
    | some node => exact Nat.le_refl 1
  refine ⟨order, horder.nodup, horder.mem_iff, ?_⟩
  have hpush := @pushRoot_spec doc budget names key context
  unfold collectNameTreeEntries
  split at hpush
  case isTrue hzero =>
    rw [hpush, error_bind]
    refine ⟨nofun, nofun, fun e he => ?_⟩
    cases he
    refine ⟨rfl, ?_⟩
    unfold entryCount
    omega
  case isFalse =>
    obtain ⟨stack, hstack, hdictionaries, hkeyed⟩ := hpush
    have hstackLength : stack.length ≤ 1 := by
      rw [← List.length_map NameTreeNode.dictionary, hdictionaries]
      exact hone
    rw [hstack, ok_bind]
    obtain ⟨n, r, hends, hn, hresult⟩ := @nameTree_run doc family budget _ [] (fun place index h => by
      cases (Place.child_inj h).2) _ order horder ⟨stack, [], 0, objects⟩ hdictionaries
      (Walked.start hdictionaries hkeyed objects)
    have hfuel : nameTreeWeight doc [] ((names.get key).bind doc.nameTreeNode).toList
        ≤ doc.weight + (names.get key).elim 0 fun root => root.value.weight := by
      have hroot := rootWeight_le doc names key
      unfold nameTreeWeight
      rw [show ownKeys [] = [] from rfl, unvisitedWeight_nil]
      omega
    rw [hends.runLoop (by omega)]
    cases hresult with
    | collected models hmodels hbounded =>
      refine ⟨fun _ h => ⟨n, by cases h; exact hends⟩, fun all hall => ?_, nofun⟩
      cases hall
      exact ⟨models, rfl, hmodels, hmodels.contexts_nodup, hbounded⟩
    | limited hover =>
      refine ⟨fun _ h => ⟨n, by cases h; exact hends⟩, nofun, fun e he => ?_⟩
      cases he
      refine ⟨rfl, ?_⟩
      unfold entryCount at hover hlength ⊢
      dsimp only at hover
      omega

/-! ## Two name trees -/

/-- A names dictionary with one tree. -/
def namesDictionary (root : Dictionary) : Located Dictionary :=
  ⟨.indirect (.ofNumber 2), [(PdfName.fromStatic "Dests", .dictionary root)]⟩

/-- A root with two kids and no values. -/
def twoKids : Located Dictionary :=
  namesDictionary [(PdfName.fromStatic "Kids", .array [.dictionary [], .dictionary []])]

/-- The tree gives no models, but a limit of one object refuses it. -/
theorem twoKids_refused :
    (collectNameTreeEntries (treeDocument []) .destination 10 (twoKids.get "Dests") "names"
        []).toOption.map List.length = some 0 ∧
      (collectNameTreeEntries (treeDocument []) .destination 1 (twoKids.get "Dests") "names"
        []).toOption.isNone = true := by
  decide

/-- A root with one value. -/
def oneName : Located Dictionary :=
  namesDictionary [(PdfName.fromStatic "Names", .array [.null, .array []])]

theorem oneName_collected :
    ∃ models : List GenericModel,
      collectNameTreeEntries (treeDocument []) .destination 2 (oneName.get "Dests") "names" []
        = .ok ([] ++ models) ∧
      (models.map GenericModel.context).Nodup ∧ ([] ++ models).length ≤ 2 := by
  have hsome : (collectNameTreeEntries (treeDocument []) .destination 2 (oneName.get "Dests") "names"
      []).toOption.isSome = true := by decide
  obtain ⟨_, -, -, -, hok, -⟩ :=
    collectNameTreeEntries_exact (treeDocument []) .destination 2 oneName "Dests" "names" []
  cases hresult : collectNameTreeEntries (treeDocument []) .destination 2 (oneName.get "Dests")
      "names" [] with
  | error e =>
    rw [hresult] at hsome
    cases hsome
  | ok all =>
    obtain ⟨models, hall, -, hcontexts, hlength⟩ := hok all hresult
    exact ⟨models, by rw [hall], hcontexts, hall ▸ hlength⟩

end Pdfv
