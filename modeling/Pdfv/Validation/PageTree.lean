import Pdfv.Validation.Graph
import Pdfv.Accessibility.Forest
import Pdfv.Basic.DepthFirst
import Pdfv.Basic.LossyText
/-!
# The readers of the page tree

Validation and accessibility each walk the page tree with a stack. Within the object limit both return
the pages of the tree in depth-first order, numbered from zero (`pageModels_numbered`,
`collectPages_numbered`). `first_page_id` does not walk: it takes the first reference of the root's
`/Kids`, which is the first page only where that reference leads to it (`pageReaders_agree_iff`).
-/

namespace Pdfv

open Loop Traversal

namespace ModelDocument

variable (doc : ModelDocument)

/-- `first_page_id`. -/
def firstPageId : Option Nat :=
  (doc.catalog.bind doc.pageDictionary).bind fun catalog =>
    (doc.resolveDictionaryValue (catalog.get "Pages")).bind fun pages =>
      (objectRefsFromArray (pages.get "Kids")).head?.map ObjectKey.number

/-! ## The page tree -/

/-- Whether a page is stored under a key. -/
def isPage (key : ObjectKey) : Bool :=
  (doc.dictionaryAt key).any fun dictionary => entryIsName dictionary "Type" "Page"

/-- The references in the `/Kids` of the dictionary stored under a key. -/
def kidKeys (key : ObjectKey) : List ObjectKey :=
  ((doc.dictionaryAt key).elim [] fun dictionary => dictionary.directItems "Kids").filterMap
    CosObject.asReference

/-- The nodes below a node of the page tree; a page is a leaf. -/
def pageTreeLinks (key : ObjectKey) : List ObjectKey :=
  if doc.isPage key then [] else doc.kidKeys key

/-- The root of the page tree. -/
def pageTreeRoot : Option ObjectKey :=
  (doc.catalogDictionary.bind fun catalog => catalog.get "Pages").bind CosObject.asReference

/-- What stands in the list of pages for a key, if a page is stored there. -/
def numbered {β : Type} (render : ObjectKey → Nat → Option β) : Nat → List ObjectKey → List β
  | _, [] => []
  | ordinal, key :: keys =>
    match render key ordinal with
    | some page => page :: numbered render (ordinal + 1) keys
    | none => numbered render ordinal keys

/-- The page of `collect_pages` under a key. -/
def renderContent (key : ObjectKey) (ordinal : Nat) : Option PageContent :=
  ((doc.dictionaryAt key).filter fun dictionary => entryIsName dictionary "Type" "Page").map
    fun dictionary => ⟨key, ordinal, dictionary⟩

/-- The page of `PageModel::from_catalog` under a key. -/
def renderModel (key : ObjectKey) (ordinal : Nat) : Option PageModel :=
  (doc.objects.get? key).bind fun object =>
    (object.object.asDictionary.filter fun dictionary => entryIsName dictionary "Type" "Page").map
      fun dictionary => ⟨key, object.offset, ordinal, ⟨.indirect key, dictionary⟩⟩

end ModelDocument

theorem entryIsName_iff_nameText {dictionary : Dictionary} {key value : String}
    (h : ∀ c ∈ value.toList, c.toNat < 128) (hread : utf8Lossy (utf8 value) = value) :
    dictionary.nameText key = some value ↔ entryIsName dictionary key value = true := by
  unfold Dictionary.nameText entryIsName
  cases dictionary.get key with
  | none => simp
  | some found =>
    cases found with
    | name name =>
      show some (utf8Lossy name.bytes) = some value ↔ decide (name.bytes = utf8 value) = true
      rw [Option.some_inj, decide_eq_true_eq]
      exact ⟨fun htext => utf8Lossy_eq_ascii h htext, fun hbytes => hbytes ▸ hread⟩
    | _ => simp [CosObject.nameValue]

theorem nameText_page (dictionary : Dictionary) :
    dictionary.nameText "Type" = some "Page" ↔ entryIsName dictionary "Type" "Page" = true :=
  entryIsName_iff_nameText (by decide) (by decide)

section Readers

variable {doc : ModelDocument}

theorem numbered_cons {β : Type} (render : ObjectKey → Nat → Option β) (ordinal : Nat)
    (key : ObjectKey) (keys : List ObjectKey) :
    ModelDocument.numbered render ordinal (key :: keys) = (render key ordinal).toList
      ++ ModelDocument.numbered render (ordinal + (render key ordinal).toList.length) keys := by
  rw [ModelDocument.numbered]
  cases render key ordinal <;> rfl

theorem renderContent_of_page {key : ObjectKey} {ordinal : Nat} :
    (doc.renderContent key ordinal).map (fun page => (page.key, page.ordinal))
      = if doc.isPage key then some (key, ordinal) else none := by
  unfold ModelDocument.renderContent ModelDocument.isPage
  cases doc.dictionaryAt key with
  | none => rfl
  | some dictionary =>
    by_cases hpage : entryIsName dictionary "Type" "Page" = true
    · simp [hpage, Option.filter_some]
    · simp [hpage, Option.filter_some]

/-- The page of the accessibility module that a page of validation is. -/
def PageModel.content (page : PageModel) : PageContent :=
  ⟨page.key, page.ordinal, page.dictionary.value⟩

theorem renderModel_content (key : ObjectKey) (ordinal : Nat) :
    (doc.renderModel key ordinal).map PageModel.content = doc.renderContent key ordinal := by
  unfold ModelDocument.renderModel ModelDocument.renderContent ModelDocument.dictionaryAt
  cases doc.objects.get? key with
  | none => rfl
  | some object =>
    rw [Option.bind_some, Option.bind_some, Option.map_map]
    rfl

theorem renderModel_length (key : ObjectKey) (ordinal : Nat) :
    (doc.renderModel key ordinal).toList.length = if doc.isPage key then 1 else 0 := by
  have hrender := @renderContent_of_page doc key ordinal
  rw [← renderModel_content, Option.map_map] at hrender
  cases hmodel : doc.renderModel key ordinal with
  | none =>
    rw [hmodel] at hrender
    split at hrender
    case isTrue => cases hrender
    case isFalse hpage => rw [if_neg hpage]; rfl
  | some page =>
    rw [hmodel] at hrender
    split at hrender
    case isTrue hpage => rw [if_pos hpage]; rfl
    case isFalse => cases hrender

theorem numbered_map {β γ : Type} {render : ObjectKey → Nat → Option β}
    {render' : ObjectKey → Nat → Option γ} {f : β → γ}
    (h : ∀ key ordinal, (render key ordinal).map f = render' key ordinal) (ordinal : Nat)
    (keys : List ObjectKey) :
    (ModelDocument.numbered render ordinal keys).map f
      = ModelDocument.numbered render' ordinal keys := by
  induction keys generalizing ordinal with
  | nil => rfl
  | cons key keys ih =>
    rw [ModelDocument.numbered, ModelDocument.numbered, ← h]
    cases render key ordinal with
    | none => exact ih ordinal
    | some page => exact congrArg _ (ih (ordinal + 1))

/-- The pages stand in the order of the keys, numbered from the first. -/
theorem numbered_contents (ordinal : Nat) (keys : List ObjectKey) :
    (ModelDocument.numbered doc.renderContent ordinal keys).map (fun page => (page.key, page.ordinal))
      = (keys.filter doc.isPage).zipIdx ordinal := by
  rw [numbered_map fun _ _ => renderContent_of_page]
  induction keys generalizing ordinal with
  | nil => rfl
  | cons key keys ih =>
    rw [ModelDocument.numbered]
    by_cases hpage : doc.isPage key = true
    · rw [List.filter_cons_of_pos hpage, if_pos hpage, List.zipIdx_cons, ← ih]
    · rw [List.filter_cons_of_neg hpage, if_neg hpage, ← ih]

/-! ## Termination -/

theorem length_le_itemsWeight (values : List CosObject) : values.length ≤ itemsWeight values := by
  induction values with
  | nil => exact Nat.le_refl 0
  | cons value values ih =>
    have hpos := CosObject.weight_pos value
    rw [List.length_cons, itemsWeight_cons]
    omega

theorem directItems_length (dictionary : Dictionary) (key : String) :
    (dictionary.directItems key).length ≤ CosObject.weightEntries dictionary := by
  refine Nat.le_trans ?_ (kidItems_weight dictionary key)
  unfold Dictionary.directItems
  split
  · rename_i values h
    rw [h]
    exact length_le_itemsWeight values
  · exact Nat.zero_le _

theorem asDictionary_weight {value : CosObject} {dictionary : Dictionary}
    (h : value.asDictionary = some dictionary) :
    CosObject.weightEntries dictionary < value.weight := by
  unfold CosObject.asDictionary at h
  split at h
  · cases h
    rw [CosObject.weight]
    omega
  · cases h
    rw [CosObject.weight]
    omega
  · cases h

/-- What a node puts on the stack is lighter than the object it is read from. -/
theorem pageTreeLinks_weight {key : ObjectKey} {seen : List ObjectKey} (hnew : key ∉ seen) :
    (doc.pageTreeLinks key).length + unvisitedWeight doc (key :: seen)
      ≤ unvisitedWeight doc seen := by
  unfold ModelDocument.pageTreeLinks
  split
  · simpa using unvisitedWeight_mono doc (List.subset_cons_self key seen)
  · unfold ModelDocument.kidKeys ModelDocument.dictionaryAt
    cases hobject : doc.objects.get? key with
    | none => simpa using unvisitedWeight_mono doc (List.subset_cons_self key seen)
    | some object =>
      have hrest := unvisitedWeight_cons doc hobject hnew
      rw [Option.bind_some]
      cases hdictionary : object.object.asDictionary with
      | none => simpa using unvisitedWeight_mono doc (List.subset_cons_self key seen)
      | some dictionary =>
        have hkids := directItems_length dictionary "Kids"
        have hobjectWeight := asDictionary_weight hdictionary
        have hrefs := List.length_filterMap_le CosObject.asReference (dictionary.directItems "Kids")
        show ((dictionary.directItems "Kids").filterMap CosObject.asReference).length + _ ≤ _
        omega

/-- The measure of a walk over the page tree. -/
def pageTreeWeight (doc : ModelDocument) (seen stack : List ObjectKey) : Nat :=
  stack.length + unvisitedWeight doc seen

theorem pageTreeWeight_enter {key : ObjectKey} {seen : List ObjectKey} (hnew : key ∉ seen)
    (stack : List ObjectKey) :
    pageTreeWeight doc (key :: seen) (doc.pageTreeLinks key ++ stack)
      < pageTreeWeight doc seen (key :: stack) := by
  have hlinks := @pageTreeLinks_weight doc _ _ hnew
  unfold pageTreeWeight
  rw [List.length_append, List.length_cons]
  omega

/-- The page tree has a depth-first order. -/
theorem pageTree_visits (doc : ModelDocument) (roots : List ObjectKey) :
    ∃ order, Visits doc.pageTreeLinks [] roots order :=
  Visits.exists_of_measure (fun _ _ _ _ => trivial) (pageTreeWeight doc)
    (fun _ _ _ _ => Nat.add_lt_add_right (Nat.lt_succ_self _) _)
    (fun _ _ stack _ _ hnew => pageTreeWeight_enter hnew stack)
    (fun _ hmem => absurd hmem List.not_mem_nil) (fun _ _ => trivial)

/-! ## `collect_pages` -/

theorem collectPagesStep_enter {limits : ResourceLimits} {key : ObjectKey}
    {seen stack : List ObjectKey} (hnew : key ∉ seen) (hroom : seen.length < limits.maxObjects)
    (pages : List PageContent) :
    collectPagesStep doc limits ⟨key :: stack, seen, pages⟩
      = .next ⟨doc.pageTreeLinks key ++ stack, key :: seen,
          pages ++ (doc.renderContent key pages.length).toList⟩ := by
  unfold collectPagesStep ModelDocument.pageTreeLinks ModelDocument.isPage ModelDocument.kidKeys
    ModelDocument.renderContent
  dsimp only
  rw [if_neg hnew, if_neg (by omega)]
  cases doc.dictionaryAt key with
  | none => simp
  | some dictionary =>
    by_cases hpage : entryIsName dictionary "Type" "Page" = true
    · simp [nameText_page, hpage, Option.filter_some]
    · simp [nameText_page, hpage, Option.filter_some]

theorem collectPagesStep_lighter {limits : ResourceLimits} (s s' : PageSearch)
    (h : collectPagesStep doc limits s = .next s') :
    pageTreeWeight doc s'.visited s'.stack < pageTreeWeight doc s.visited s.stack := by
  obtain ⟨stack, seen, pages⟩ := s
  cases stack with
  | nil => cases h
  | cons key stack =>
    by_cases hmem : key ∈ seen
    · unfold collectPagesStep at h
      dsimp only at h
      rw [if_pos hmem] at h
      cases h
      exact Nat.add_lt_add_right (Nat.lt_succ_self _) _
    · by_cases hroom : seen.length < limits.maxObjects
      · rw [collectPagesStep_enter hmem hroom] at h
        cases h
        exact pageTreeWeight_enter hmem stack
      · unfold collectPagesStep at h
        dsimp only at h
        rw [if_neg hmem, if_pos (by omega)] at h
        cases h

theorem collectPages_finishes {limits : ResourceLimits} {seen stack order : List ObjectKey}
    (h : Visits doc.pageTreeLinks seen stack order) (pages : List PageContent)
    (hfits : seen.length + order.length ≤ limits.maxObjects) :
    Finishes (collectPagesStep doc limits) ⟨stack, seen, pages⟩
      (.ok (pages ++ ModelDocument.numbered doc.renderContent pages.length order)) := by
  induction h generalizing pages with
  | done seen =>
    refine .done ?_
    rw [ModelDocument.numbered, List.append_nil]
    rfl
  | @again seen stack order key hmem _ ih =>
    refine .next ?_ (ih pages hfits)
    unfold collectPagesStep
    dsimp only
    rw [if_pos hmem]
  | @enter seen stack order key hnot _ ih =>
    rw [List.length_cons] at hfits
    refine .next (collectPagesStep_enter hnot (by omega) pages) ?_
    rw [numbered_cons, ← List.append_assoc, ← List.length_append]
    exact ih _ (by rw [List.length_cons]; omega)

/-! ## `PageModel::from_catalog` -/

theorem pageModelStep_enter {maxObjects budget : Nat} {key : ObjectKey} {seen stack : List ObjectKey}
    (hnew : key ∉ seen) (hroom : seen.length < maxObjects) (pages : List PageModel)
    (hbudget : doc.isPage key = true → pages.length < budget) :
    doc.pageModelStep maxObjects budget ⟨key :: stack, seen, pages⟩
      = .next ⟨doc.pageTreeLinks key ++ stack, key :: seen,
          pages ++ (doc.renderModel key pages.length).toList⟩ := by
  unfold ModelDocument.isPage ModelDocument.dictionaryAt at hbudget
  unfold ModelDocument.pageModelStep ModelDocument.pageTreeLinks ModelDocument.isPage
    ModelDocument.kidKeys ModelDocument.dictionaryAt ModelDocument.renderModel
    ModelDocument.checkedPageNode
  dsimp only
  rw [if_neg hnew]
  cases hobject : doc.objects.get? key with
  | none => simp
  | some object =>
    rw [hobject, Option.bind_some] at hbudget
    dsimp only
    cases hdictionary : object.object.asDictionary with
    | none => simp [hdictionary]
    | some dictionary =>
      rw [hdictionary] at hbudget
      dsimp only
      by_cases hpage : entryIsName dictionary "Type" "Page" = true
      · have hspare := hbudget hpage
        rw [if_pos hpage, if_neg (by omega), if_neg (by rw [List.length_cons]; omega)]
        simp [hdictionary, hpage, Option.filter_some]
      · rw [if_neg hpage, if_neg (by rw [List.length_cons]; omega)]
        simp [hdictionary, hpage, Option.filter_some]

theorem pageModelStep_next {maxObjects budget : Nat} {key : ObjectKey} {seen stack : List ObjectKey}
    {pages : List PageModel} {s' : ModelDocument.PageModelSearch} (hnew : key ∉ seen)
    (h : doc.pageModelStep maxObjects budget ⟨key :: stack, seen, pages⟩ = .next s') :
    s'.stack = doc.pageTreeLinks key ++ stack ∧ s'.visited = key :: seen := by
  unfold ModelDocument.pageModelStep ModelDocument.checkedPageNode at h
  unfold ModelDocument.pageTreeLinks ModelDocument.isPage ModelDocument.kidKeys
    ModelDocument.dictionaryAt
  dsimp only at h
  rw [if_neg hnew] at h
  cases hobject : doc.objects.get? key with
  | none =>
    rw [hobject] at h
    cases h
    simp
  | some object =>
    rw [hobject] at h
    dsimp only at h
    rw [Option.bind_some]
    cases hdictionary : object.object.asDictionary with
    | none =>
      rw [hdictionary] at h
      cases h
      simp
    | some dictionary =>
      rw [hdictionary] at h
      dsimp only at h
      split at h
      case isTrue hpage =>
        split at h
        · cases h
        · split at h
          · cases h
          · cases h
            simp [hpage]
      case isFalse hpage =>
        split at h
        · cases h
        · cases h
          simp [hpage]

theorem pageModelStep_lighter {maxObjects budget : Nat} (s s' : ModelDocument.PageModelSearch)
    (h : doc.pageModelStep maxObjects budget s = .next s') :
    pageTreeWeight doc s'.visited s'.stack < pageTreeWeight doc s.visited s.stack := by
  obtain ⟨stack, seen, pages⟩ := s
  cases stack with
  | nil => cases h
  | cons key stack =>
    by_cases hmem : key ∈ seen
    · unfold ModelDocument.pageModelStep at h
      dsimp only at h
      rw [if_pos hmem] at h
      cases h
      exact Nat.add_lt_add_right (Nat.lt_succ_self _) _
    · obtain ⟨hstack, hvisited⟩ := pageModelStep_next hmem h
      rw [hstack, hvisited]
      exact pageTreeWeight_enter hmem stack

theorem pageModels_finishes {maxObjects budget : Nat} {seen stack order : List ObjectKey}
    (h : Visits doc.pageTreeLinks seen stack order) (pages : List PageModel)
    (hfits : seen.length + order.length ≤ maxObjects)
    (hbudget : pages.length + (order.filter doc.isPage).length ≤ budget) :
    Finishes (doc.pageModelStep maxObjects budget) ⟨stack, seen, pages⟩
      (.ok (pages ++ ModelDocument.numbered doc.renderModel pages.length order)) := by
  induction h generalizing pages with
  | done seen =>
    refine .done ?_
    rw [ModelDocument.numbered, List.append_nil]
    rfl
  | @again seen stack order key hmem _ ih =>
    refine .next ?_ (ih pages hfits hbudget)
    unfold ModelDocument.pageModelStep
    dsimp only
    rw [if_pos hmem]
  | @enter seen stack order key hnot _ ih =>
    rw [List.length_cons] at hfits
    refine .next (pageModelStep_enter hnot (by omega) pages fun hpage => ?_) ?_
    · rw [List.filter_cons_of_pos hpage, List.length_cons] at hbudget
      omega
    · rw [numbered_cons, ← List.append_assoc, ← List.length_append]
      refine ih _ (by rw [List.length_cons]; omega) ?_
      rw [List.length_append, renderModel_length]
      by_cases hpage : doc.isPage key = true
      · rw [List.filter_cons_of_pos hpage, List.length_cons] at hbudget
        rw [if_pos hpage]
        omega
      · rw [List.filter_cons_of_neg hpage] at hbudget
        rw [if_neg hpage]
        omega

/-! ## The readers -/

theorem catalogModel_pages {catalog : CatalogModel} (h : doc.catalogModel = some catalog) :
    catalog.pages = doc.pageTreeRoot := by
  unfold ModelDocument.catalogModel at h
  unfold ModelDocument.pageTreeRoot ModelDocument.catalogDictionary ModelDocument.dictionaryAt
  obtain ⟨key, hkey, h⟩ := Option.bind_eq_some_iff.mp h
  obtain ⟨object, hobject, h⟩ := Option.bind_eq_some_iff.mp h
  obtain ⟨dictionary, hdictionary, rfl⟩ := Option.map_eq_some_iff.mp h
  rw [hkey, Option.bind_some, hobject, Option.bind_some, hdictionary, Option.bind_some]

theorem pageDictionary_value (key : ObjectKey) :
    (doc.pageDictionary key).map Located.value = doc.dictionaryAt key := by
  unfold ModelDocument.pageDictionary ModelDocument.located ModelDocument.dictionaryAt
  cases doc.objects.get? key with
  | none => rfl
  | some object =>
    show Option.map _ (Option.map _ _) = _
    rw [Option.map_map]
    exact Option.map_id'

/-- `first_page_id` takes the first reference of the root's `/Kids`. -/
theorem firstPageId_of_root {root : ObjectKey} (h : doc.pageTreeRoot = some root) :
    doc.firstPageId = (doc.kidKeys root).head?.map ObjectKey.number := by
  obtain ⟨value, hvalue, hroot⟩ := Option.bind_eq_some_iff.mp h
  obtain ⟨dictionary, hdictionary, hpages⟩ := Option.bind_eq_some_iff.mp hvalue
  obtain ⟨key, hkey, hdictionary⟩ := Option.bind_eq_some_iff.mp hdictionary
  rw [← pageDictionary_value] at hdictionary
  obtain ⟨catalog, hcatalog, rfl⟩ := Option.map_eq_some_iff.mp hdictionary
  have hreference : value = .reference root := by
    unfold CosObject.asReference at hroot
    split at hroot
    · cases hroot
      rfl
    · cases hroot
  unfold ModelDocument.firstPageId ModelDocument.kidKeys
  rw [hkey, Option.bind_some, hcatalog, Option.bind_some, Located.get, hpages, hreference,
    ← pageDictionary_value]
  show Option.bind (doc.pageDictionary root) _ = _
  cases doc.pageDictionary root with
  | none => rfl
  | some pages =>
    rw [Option.bind_some]
    show _ = ((pages.value.directItems "Kids").filterMap CosObject.asReference).head?.map _
    refine congrArg _ (congrArg _ ?_)
    unfold Located.get Dictionary.directItems objectRefsFromArray
    cases pages.value.get "Kids" with
    | none => rfl
    | some kids => cases kids <;> rfl

/-- What the readers of the page tree agree on: the pages of the order, numbered from zero, and the
object number of the first of them. -/
structure PageReadersAgree (doc : ModelDocument) (limits : ResourceLimits) (catalog : CatalogModel)
    (budget : Nat) (order : List ObjectKey) : Prop where
  pages : ∃ pages, doc.pageModels limits catalog budget = .ok pages ∧
    collectPages doc limits = .ok (pages.map PageModel.content) ∧
    pages.map (fun page => (page.key, page.ordinal)) = (order.filter doc.isPage).zipIdx
  first : ∀ key, (order.filter doc.isPage).head? = some key → doc.firstPageId = some key.number

/-- The tree has no page, the first reference in the `/Kids` of its root leads to a page and the root
is none, or that reference has the object number of the first page. -/
def FirstKidLeads (doc : ModelDocument) (order : List ObjectKey) : Prop :=
  (∀ key ∈ order, doc.isPage key = false) ∨
    ∃ root kid, doc.pageTreeRoot = some root ∧ (doc.kidKeys root).head? = some kid ∧
      (doc.isPage root = false ∧ doc.isPage kid = true ∨
        ∃ key, (order.filter doc.isPage).head? = some key ∧ kid.number = key.number)

theorem pageReaders_pages {limits : ResourceLimits} {catalog : CatalogModel} {budget : Nat}
    {order : List ObjectKey} (hcatalog : doc.catalogModel = some catalog)
    (h : Visits doc.pageTreeLinks [] catalog.pages.toList order)
    (hfits : order.length ≤ limits.maxObjects)
    (hbudget : (order.filter doc.isPage).length ≤ budget) :
    ∃ pages, doc.pageModels limits catalog budget = .ok pages ∧
      collectPages doc limits = .ok (pages.map PageModel.content) ∧
      pages.map (fun page => (page.key, page.ordinal)) = (order.filter doc.isPage).zipIdx := by
  have hweight : ∀ root, pageTreeWeight doc [] [root] < doc.weight + 2 := fun root => by
    unfold pageTreeWeight
    rw [unvisitedWeight_nil, List.length_singleton]
    omega
  have hroot := catalogModel_pages hcatalog
  refine ⟨ModelDocument.numbered doc.renderModel 0 order, ?_, ?_, ?_⟩
  · unfold ModelDocument.pageModels
    cases hpages : catalog.pages with
    | none =>
      rw [hpages] at h
      cases h
      rfl
    | some root =>
      rw [hpages] at h
      exact (runLoop_finishes pageModelStep_lighter (hweight root)).unique
        (pageModels_finishes h [] (by simpa using hfits) (by simpa using hbudget))
  · unfold collectPages
    rw [numbered_map renderModel_content]
    rw [show (doc.catalogDictionary.bind fun catalog =>
      (catalog.get "Pages").bind CosObject.asReference) = catalog.pages by
        rw [hroot, ModelDocument.pageTreeRoot, Option.bind_assoc]]
    cases hpages : catalog.pages with
    | none =>
      rw [hpages] at h
      cases h
      rfl
    | some root =>
      rw [hpages] at h
      exact (runLoop_finishes collectPagesStep_lighter (hweight root)).unique
        (collectPages_finishes h [] (by simpa using hfits))
  · have hcontents := @numbered_contents doc 0 order
    rw [← numbered_map renderModel_content, List.map_map] at hcontents
    exact hcontents

/-- A first reference that leads to a page leads to the first page. -/
theorem first_page_of_kid {order : List ObjectKey} {root kid : ObjectKey}
    (h : Visits doc.pageTreeLinks [] [root] order) (hkid : (doc.kidKeys root).head? = some kid)
    (hroot : doc.isPage root = false) (hpage : doc.isPage kid = true) :
    (order.filter doc.isPage).head? = some kid := by
  obtain ⟨kids, hkids⟩ := List.head?_eq_some_iff.mp hkid
  have hlinks : doc.pageTreeLinks root = kid :: kids := by
    rw [ModelDocument.pageTreeLinks, hroot, ← hkids]
    rfl
  cases h with
  | again hmem => cases hmem
  | enter _ hbelow =>
    rw [hlinks] at hbelow
    cases hbelow with
    | again hmem =>
      rw [List.mem_singleton.mp hmem, hroot] at hpage
      cases hpage
    | enter _ _ =>
      rw [List.filter_cons_of_neg (by rw [hroot]; decide), List.filter_cons_of_pos hpage,
        List.head?_cons]

theorem firstPageId_iff {order : List ObjectKey}
    (h : Visits doc.pageTreeLinks [] doc.pageTreeRoot.toList order) :
    (∀ key, (order.filter doc.isPage).head? = some key → doc.firstPageId = some key.number)
      ↔ FirstKidLeads doc order := by
  constructor
  · intro hfirst
    cases hhead : (order.filter doc.isPage).head? with
    | none =>
      refine .inl fun key hkey => ?_
      by_contra hpage
      have hmem := List.mem_filter.mpr ⟨hkey, Bool.of_not_eq_false hpage⟩
      rw [List.head?_eq_none_iff.mp hhead] at hmem
      cases hmem
    | some key =>
      cases hroot : doc.pageTreeRoot with
      | none =>
        rw [hroot] at h
        cases h
        cases hhead
      | some root =>
        have hid := hfirst key hhead
        rw [firstPageId_of_root hroot] at hid
        obtain ⟨kid, hkid, hnumber⟩ := Option.map_eq_some_iff.mp hid
        exact .inr ⟨root, kid, hroot, hkid, .inr ⟨key, hhead, hnumber⟩⟩
  · rintro (hnone | ⟨root, kid, hroot, hkid, hlead⟩) key hhead
    · have hmem := List.mem_filter.mp (List.mem_of_mem_head? hhead)
      rw [hnone key hmem.1] at hmem
      cases hmem.2
    · rw [firstPageId_of_root hroot, hkid, Option.map_some, Option.some_inj]
      rcases hlead with ⟨hinner, hpage⟩ | ⟨first, hfirst, hnumber⟩
      · rw [hroot] at h
        rw [first_page_of_kid h hkid hinner hpage] at hhead
        cases hhead
        rfl
      · rw [hhead] at hfirst
        cases hfirst
        exact hnumber

/-- The page tree has one depth-first order, of the nodes its root leads to, and within the object
limit the readers agree on its pages exactly where the root's first kid leads to the first of them. -/
theorem pageReaders_agree_iff (doc : ModelDocument) (limits : ResourceLimits)
    (catalog : CatalogModel) (hcatalog : doc.catalogModel = some catalog) (budget : Nat) :
    ∃ order, DepthFirst doc.pageTreeLinks [] catalog.pages.toList order ∧ order.Nodup ∧
      (∀ key, key ∈ order ↔ ∃ root ∈ catalog.pages.toList,
        Relation.ReflTransGen (fun node kid => kid ∈ doc.pageTreeLinks node) root key) ∧
      (order.length ≤ limits.maxObjects → (order.filter doc.isPage).length ≤ budget →
        (PageReadersAgree doc limits catalog budget order ↔ FirstKidLeads doc order)) := by
  obtain ⟨order, horder⟩ := pageTree_visits doc catalog.pages.toList
  refine ⟨order, depthFirst_iff_visits.mpr horder, horder.nodup, horder.mem_iff,
    fun hfits hbudget => ?_⟩
  have hpages := pageReaders_pages hcatalog horder hfits hbudget
  rw [catalogModel_pages hcatalog] at horder
  rw [← firstPageId_iff horder]
  exact ⟨fun h => h.first, fun hfirst => ⟨hpages, hfirst⟩⟩

end Readers

/-! ## Two page trees -/

/-- A document whose catalog, object 1, has the page tree at object 2. -/
def treeDocument (nodes : List (ObjectKey × Dictionary)) : ModelDocument :=
  ⟨⟨1, 7⟩, some (.ofNumber 1),
    nodes.foldl (fun objects node => objects.insert node.1 ⟨node.1, 0, .dictionary node.2⟩)
      (OrdMap.empty.insert (.ofNumber 1) ⟨.ofNumber 1, 0,
        .dictionary [(PdfName.fromStatic "Pages", .reference (.ofNumber 2))]⟩), [], []⟩

/-- A node of the page tree. -/
def kidsNode (kids : List ObjectKey) : Dictionary :=
  [(PdfName.fromStatic "Kids", .array (kids.map .reference))]

/-- A page. -/
def pageNode : Dictionary :=
  [(PdfName.fromStatic "Type", .name (PdfName.fromStatic "Page"))]

/-- The only page is below an intermediate node. -/
def nestedPages : ModelDocument :=
  treeDocument [(.ofNumber 2, kidsNode [.ofNumber 3]), (.ofNumber 3, kidsNode [.ofNumber 4]),
    (.ofNumber 4, pageNode)]

theorem nestedPages_readers :
    (nestedPages.catalogModel.map fun catalog =>
        (nestedPages.pageModels {} catalog 10).toOption.map (·.map fun page => page.key.number))
      = some (some [4]) ∧
    nestedPages.firstPageId = some 3 := by
  decide

/-- The only page is a kid of the root. -/
def flatPages : ModelDocument :=
  treeDocument [(.ofNumber 2, kidsNode [.ofNumber 3]), (.ofNumber 3, pageNode)]

def flatCatalog : CatalogModel :=
  ⟨.ofNumber 1, 0, none, some (.ofNumber 2)⟩

theorem flatPages_visits :
    Visits flatPages.pageTreeLinks [] [.ofNumber 2] [.ofNumber 2, .ofNumber 3] := by
  refine .enter List.not_mem_nil ?_
  rw [show flatPages.pageTreeLinks (.ofNumber 2) = [.ofNumber 3] by decide]
  refine .enter (by decide) ?_
  rw [show flatPages.pageTreeLinks (.ofNumber 3) = [] by decide]
  exact .done _

theorem flatPages_readers :
    PageReadersAgree flatPages {} flatCatalog 10 [.ofNumber 2, .ofNumber 3] := by
  obtain ⟨order, horder, -, -, hagree⟩ := pageReaders_agree_iff flatPages {} flatCatalog rfl 10
  obtain rfl := (depthFirst_iff_visits.mp horder).unique flatPages_visits
  exact (hagree (by decide) (by decide)).mpr
    (.inr ⟨.ofNumber 2, .ofNumber 3, by decide, by decide,
      .inl ⟨by decide, by decide⟩⟩)

end Pdfv
