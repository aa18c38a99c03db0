import Pdfv.Accessibility.Forest
/-!
# The entries of the parent tree

The parent tree is a number tree: a key, the `/StructParents` of a page or the `/StructParent` of an
object, with its structure elements. `numberTreeEntries` lists its entries in the order of its nodes, and
`listedElement` is the element an entry lists at an identifier. The source reads the tree into a map that
is filed by page (`collectParentTree_eq`): what the map has for a page and an identifier is the newest
element filed there (`mcidRefs_lookup`).
-/

namespace Pdfv

open Loop Fallible

/-! ## Listed entries -/

/-- The pairs of one `/Nums` array, after the entries found so far; nothing more is listed once the cap
is reached. -/
def listNums (limits : ResourceLimits) (entries : List (Int × CosObject)) :
    List (CosObject × Option CosObject) → List (Int × CosObject) × Bool
  | [] => (entries, false)
  | (first, second) :: rest =>
    if entries.length ≥ limits.maxParentTreeEntries then (entries, true)
    else
      match first, second with
      | .integer key, some value => listNums limits (entries ++ [(key, value)]) rest
      | _, _ => listNums limits entries rest

/-- One node of a number tree whose entries are listed. -/
def numberTreeStep (doc : ModelDocument) (limits : ResourceLimits)
    (s : TreeSearch (List (Int × CosObject))) :
    Step (TreeSearch (List (Int × CosObject))) (List (Int × CosObject)) :=
  match s.stack with
  | [] => .done s.tree
  | value :: stack =>
    match enterTreeNode doc s stack "" value with
    | (s, none) => .next s
    | (s, some dictionary) =>
      match listNums limits s.tree (chunkPairs (dictionary.directItems "Nums")) with
      | (tree, true) => .done tree
      | (tree, false) => .next { s with tree }

/-- The entries of a number tree in the order of its nodes, as far as the cap allows. -/
def numberTreeEntries (doc : ModelDocument) (limits : ResourceLimits) (value : CosObject) :
    List (Int × CosObject) :=
  runLoop (numberTreeStep doc limits) TreeSearch.tree (doc.weight + value.weight + 1)
    ⟨[value], [], [], []⟩

/-- The entries of the parent tree of a structure tree. -/
def parentTreeEntries (doc : ModelDocument) (limits : ResourceLimits) (structTree : Dictionary) :
    List (Int × CosObject) :=
  (structTree.get "ParentTree").elim [] (numberTreeEntries doc limits)

/-- The structure element at a place of an array. -/
def elementAt (values : List CosObject) (mcid : Int) : Option ObjectKey :=
  if 0 ≤ mcid then (values[mcid.toNat]?).bind CosObject.asReference else none

/-- The array that a value is or refers to. -/
def arrayOf (doc : ModelDocument) : CosObject → List CosObject
  | .array values => values
  | .reference key =>
    match (doc.objects.get? key).map IndirectObject.object with
    | some (.array values) => values
    | _ => []
  | _ => []

/-- The element that the parent tree lists at an identifier in the array of a key; where several entries
have the key, the newest that lists one. -/
def listedElement (doc : ModelDocument) (entries : List (Int × CosObject)) (parent mcid : Int) :
    Option ObjectKey :=
  entries.reverse.findSome? fun entry =>
    if entry.1 = parent then elementAt (arrayOf doc entry.2) mcid else none

/-! ## Filed entries -/

section Filing

variable (doc : ModelDocument) (pageOrdinals : OrdMap ObjectKey Nat)
  (owners : OrdMap Int ParentTreeOwner)

/-- The page that an entry of the parent tree is filed under: none for a key that an annotation or an
XObject owns; else the first page with the key, or a stand-in where no page has it. -/
def filedUnder (parentKey : Int) : Option ObjectKey :=
  if (owners.get? parentKey).any fun owner => owner.kind ≠ .page then none
  else parentTreePage doc pageOrdinals parentKey

/-- The element that a value gives at an identifier where it is filed: a reference is taken for the
element at 0. -/
def filedItem (value : CosObject) (mcid : Int) : Option ObjectKey :=
  match value with
  | .array values => elementAt values mcid
  | .reference element => if mcid = 0 then some element else none
  | _ => none

/-- The newest element that is filed under a page at an identifier. -/
def filedElement (entries : List (Int × CosObject)) (page : ObjectKey) (mcid : Int) :
    Option ObjectKey :=
  entries.reverse.findSome? fun entry =>
    if filedUnder doc pageOrdinals owners entry.1 = some page then filedItem entry.2 mcid else none

/-- The tree that the entries make. -/
def numberTreeOf (entries : List (Int × CosObject)) : NumberTree :=
  entries.foldl (fun tree entry =>
    collectParentTreeValue doc pageOrdinals owners entry.1 entry.2
      { tree with entries := tree.entries + 1 }) ⟨0, [], OrdMap.empty⟩

end Filing

section ParentTree

variable {doc : ModelDocument} {limits : ResourceLimits} {pageOrdinals : OrdMap ObjectKey Nat}
  {owners : OrdMap Int ParentTreeOwner}

theorem numberTreeOf_concat (entries : List (Int × CosObject)) (entry : Int × CosObject) :
    numberTreeOf doc pageOrdinals owners (entries ++ [entry])
      = collectParentTreeValue doc pageOrdinals owners entry.1 entry.2
          { numberTreeOf doc pageOrdinals owners entries with
            entries := (numberTreeOf doc pageOrdinals owners entries).entries + 1 } := by
  rw [numberTreeOf, List.foldl_append]
  rfl

theorem collectParentTreeValue_entries (parentKey : Int) (value : CosObject) (tree : NumberTree) :
    (collectParentTreeValue doc pageOrdinals owners parentKey value tree).entries = tree.entries := by
  unfold collectParentTreeValue
  dsimp only
  repeat' split
  all_goals rfl

theorem numberTreeOf_entries (entries : List (Int × CosObject)) :
    (numberTreeOf doc pageOrdinals owners entries).entries = entries.length := by
  induction entries using List.reverseRecOn with
  | nil => rfl
  | append_singleton entries entry ih =>
    rw [numberTreeOf_concat, collectParentTreeValue_entries, ih, List.length_append]
    rfl

theorem elementAt_concat (values : List CosObject) (value : CosObject) (mcid : Int) :
    elementAt (values ++ [value]) mcid
      = if mcid = values.length then value.asReference else elementAt values mcid := by
  unfold elementAt
  by_cases hzero : 0 ≤ mcid
  · rw [if_pos hzero, if_pos hzero]
    split
    · rename_i heq
      rw [heq, Int.toNat_natCast, List.getElem?_concat_length]
      rfl
    · rename_i hne
      by_cases hlt : mcid.toNat < values.length
      · rw [List.getElem?_append_left hlt]
      · rw [List.getElem?_eq_none (by rw [List.length_append, List.length_singleton]; omega),
          List.getElem?_eq_none (by omega)]
  · rw [if_neg hzero, if_neg hzero, if_neg (by omega)]

theorem lookup_single (page target : ObjectKey) (i mcid : Int) (element : ObjectKey) :
    [((page, i), element)].lookup (target, mcid)
      = if page = target then if mcid = i then some element else none else none := by
  have hpair : ((target, mcid) == (page, i)) = decide (page = target ∧ mcid = i) := by
    rw [Bool.eq_iff_iff, beq_iff_eq, decide_eq_true_eq, Prod.mk.injEq, eq_comm]
  rw [List.lookup_cons, hpair]
  by_cases hpage : page = target
  · by_cases hi : mcid = i
    · simp [hpage, hi]
    · simp [hi]
  · simp [hpage]

/-- The references of one value, as they are looked up. -/
theorem parentTreeRefs_lookup (page target : ObjectKey) (value : CosObject) (mcid : Int) :
    (parentTreeRefs page value).reverse.lookup (target, mcid)
      = if page = target then filedItem value mcid else none := by
  cases value with
  | array values =>
    show ((values.zipIdx.filterMap fun item => item.1.asReference.map fun element =>
      ((page, (item.2 : Int)), element)).reverse).lookup (target, mcid)
        = if page = target then elementAt values mcid else none
    induction values using List.reverseRecOn with
    | nil =>
      have hnone : elementAt [] mcid = none := by
        unfold elementAt
        split <;> rfl
      rw [hnone, ite_self]
      rfl
    | append_singleton values value ih =>
      rw [List.zipIdx_append, List.filterMap_append, List.reverse_append, List.lookup_append, ih,
        elementAt_concat]
      simp only [List.zipIdx_cons, List.zipIdx_nil, Nat.zero_add, List.filterMap_cons,
        List.filterMap_nil]
      cases hvalue : value.asReference with
      | none =>
        rw [Option.map_none, List.reverse_nil, List.lookup_nil, Option.none_or]
        by_cases hpage : page = target
        · rw [if_pos hpage, if_pos hpage]
          split
          · rename_i heq
            have hend : elementAt values mcid = none := by
              unfold elementAt
              rw [heq, Int.toNat_natCast, List.getElem?_eq_none (Nat.le_refl _)]
              exact ite_self _
            exact hend
          · rfl
        · rw [if_neg hpage, if_neg hpage]
      | some element =>
        rw [Option.map_some, List.reverse_singleton, lookup_single]
        by_cases hpage : page = target
        · simp only [hpage, if_true]
          split <;> simp
        · simp [hpage]
  | reference element =>
    show [((page, (0 : Int)), element)].lookup (target, mcid) = _
    exact lookup_single page target 0 mcid element
  | _ => exact (ite_self _).symm

/-- One value is filed before the older ones. -/
theorem collectParentTreeValue_lookup (parentKey : Int) (value : CosObject) (tree : NumberTree)
    (page : ObjectKey) (mcid : Int) :
    (collectParentTreeValue doc pageOrdinals owners parentKey value tree).mcidRefs.lookup (page, mcid)
      = (if filedUnder doc pageOrdinals owners parentKey = some page then filedItem value mcid
          else none).or (tree.mcidRefs.lookup (page, mcid)) := by
  unfold collectParentTreeValue filedUnder
  dsimp only
  cases parentTreePage doc pageOrdinals parentKey with
  | none =>
    cases owners.get? parentKey with
    | none => rfl
    | some owner =>
      by_cases hkind : owner.kind = .page
      · simp [hkind]
      · simp only [hkind, if_neg, Option.any_some, ne_eq, not_false_eq_true, decide_true, if_true,
          reduceCtorEq, Option.none_or]
        split <;> rfl
  | some found =>
    have hentry : ((parentTreeRefs found value).reverse ++ tree.mcidRefs).lookup (page, mcid)
        = (if found = page then filedItem value mcid else none).or
          (tree.mcidRefs.lookup (page, mcid)) := by
      rw [List.lookup_append, parentTreeRefs_lookup]
    cases owners.get? parentKey with
    | none => simpa using hentry
    | some owner =>
      by_cases hkind : owner.kind = .page
      · simpa [hkind] using hentry
      · simp only [hkind, if_neg, Option.any_some, ne_eq, not_false_eq_true, decide_true, if_true,
          reduceCtorEq, Option.none_or]
        split <;> rfl

/-- What is filed under a page and an identifier is the newest element the entries give there. -/
theorem mcidRefs_lookup (entries : List (Int × CosObject)) (page : ObjectKey) (mcid : Int) :
    (numberTreeOf doc pageOrdinals owners entries).mcidRefs.lookup (page, mcid)
      = filedElement doc pageOrdinals owners entries page mcid := by
  induction entries using List.reverseRecOn with
  | nil => rfl
  | append_singleton entries entry ih =>
    rw [numberTreeOf_concat, collectParentTreeValue_lookup]
    unfold filedElement at ih ⊢
    rw [List.reverse_append, List.reverse_singleton, List.singleton_append, List.findSome?_cons, ih]
    cases (if filedUnder doc pageOrdinals owners entry.1 = some page then filedItem entry.2 mcid
      else none) <;> rfl

/-- The source's loop and the listing are at the same nodes. -/
structure SameNodes (doc : ModelDocument) (pageOrdinals : OrdMap ObjectKey Nat)
    (owners : OrdMap Int ParentTreeOwner) (s : TreeSearch NumberTree)
    (t : TreeSearch (List (Int × CosObject))) : Prop where
  stack : s.stack = t.stack
  visited : s.visited = t.visited
  tree : s.tree = numberTreeOf doc pageOrdinals owners t.tree

theorem SameNodes.enter {s : TreeSearch NumberTree} {t : TreeSearch (List (Int × CosObject))}
    (h : SameNodes doc pageOrdinals owners s t) (stack : List CosObject) (cycle other : String)
    (value : CosObject) :
    SameNodes doc pageOrdinals owners (enterTreeNode doc s stack cycle value).1
        (enterTreeNode doc t stack other value).1
      ∧ (enterTreeNode doc s stack cycle value).2 = (enterTreeNode doc t stack other value).2 := by
  unfold enterTreeNode
  cases doc.dictionaryRefOrInline value with
  | none => exact ⟨⟨rfl, h.visited, h.tree⟩, rfl⟩
  | some found =>
    dsimp only
    rw [h.visited]
    split
    · exact ⟨⟨rfl, rfl, h.tree⟩, rfl⟩
    · exact ⟨⟨rfl, rfl, h.tree⟩, rfl⟩

theorem collectNums_eq (entries : List (Int × CosObject))
    (pairs : List (CosObject × Option CosObject)) :
    collectNums doc limits pageOrdinals owners (numberTreeOf doc pageOrdinals owners entries) pairs
      = ((numberTreeOf doc pageOrdinals owners (listNums limits entries pairs).1),
        (listNums limits entries pairs).2) := by
  induction pairs generalizing entries with
  | nil => rfl
  | cons pair pairs ih =>
    obtain ⟨first, second⟩ := pair
    unfold collectNums listNums
    rw [numberTreeOf_entries]
    split
    · rfl
    · have hlength := @numberTreeOf_entries doc pageOrdinals owners entries
      cases first with
      | integer key =>
        cases second with
        | none => exact ih entries
        | some value =>
          dsimp only
          rw [← ih, numberTreeOf_concat, hlength]
      | _ => exact ih entries

/-- The source's loop and the listing go through the nodes together. -/
theorem collectParentTree_eq (value : CosObject) (warnings : List ValidationWarning) :
    (collectParentTree doc limits pageOrdinals owners value warnings).1
      = numberTreeOf doc pageOrdinals owners (numberTreeEntries doc limits value) := by
  unfold collectParentTree numberTreeEntries
  refine @runLoop_rel _ _ _ _ (SameNodes doc pageOrdinals owners)
    (fun (result : NumberTree × List ValidationWarning) entries =>
      result.1 = numberTreeOf doc pageOrdinals owners entries) _ _ _ _ ?_ ?_ _ _ _ ?_
  · intro s t h
    unfold collectParentTreeStep numberTreeStep
    rw [h.stack]
    cases t.stack with
    | nil => exact h.tree
    | cons value stack =>
      obtain ⟨hsame, hfound⟩ := h.enter stack "parent tree cycle detected" "" value
      dsimp only
      generalize enterTreeNode doc s stack "parent tree cycle detected" value = entered at hsame hfound
      generalize enterTreeNode doc t stack "" value = listed at hsame hfound
      obtain ⟨entered, found⟩ := entered
      obtain ⟨listed, found'⟩ := listed
      cases hfound
      cases found with
      | none => exact hsame
      | some dictionary =>
        dsimp only at hsame ⊢
        rw [hsame.tree, collectNums_eq]
        cases hnums : listNums limits listed.tree (chunkPairs (dictionary.directItems "Nums")) with
        | mk entries capped =>
          cases capped with
          | true => exact rfl
          | false => exact ⟨hsame.stack, hsame.visited, rfl⟩
  · exact fun s t h => h.tree
  · exact ⟨rfl, rfl, rfl⟩

end ParentTree

end Pdfv
