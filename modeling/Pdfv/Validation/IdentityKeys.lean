import Pdfv.Validation.LinkFacts
/-!
# Identity keys

The walk knows a model object by its identity key. The key starts with the name of the type, so objects
of different types are different to the walk (`objectType_of_identityKey`). Two structure elements with
one key are the same node of a structure tree, or were made from one indirect object
(`structureElement_of_identityKey`).
-/

namespace Pdfv

/-! ## Names and numbers before a colon -/

/-- What follows the name of the type in a key: nothing, or a colon and more. -/
def IsKeyTail (tail : List Char) : Prop :=
  tail = [] ∨ ∃ rest, tail = ':' :: rest

theorem append_tail_inj {a b s t : List Char} (ha : ':' ∉ a) (hb : ':' ∉ b) (hs : IsKeyTail s)
    (ht : IsKeyTail t) (h : a ++ s = b ++ t) : a = b ∧ s = t := by
  induction a generalizing b with
  | nil =>
    cases b with
    | nil => exact ⟨rfl, h⟩
    | cons c b =>
      exfalso
      rcases hs with rfl | ⟨rest, rfl⟩
      · simp at h
      · simp only [List.nil_append, List.cons_append, List.cons.injEq] at h
        apply hb
        rw [h.1]
        exact List.mem_cons_self
  | cons c a ih =>
    cases b with
    | nil =>
      exfalso
      rcases ht with rfl | ⟨rest, rfl⟩
      · simp at h
      · simp only [List.nil_append, List.cons_append, List.cons.injEq] at h
        apply ha
        rw [← h.1]
        exact List.mem_cons_self
    | cons d b =>
      simp only [List.cons_append, List.cons.injEq] at h
      obtain ⟨rfl, hrest⟩ := h
      obtain ⟨rfl, rfl⟩ := ih (fun hmem => ha (List.mem_cons_of_mem _ hmem))
        (fun hmem => hb (List.mem_cons_of_mem _ hmem)) hrest
      exact ⟨rfl, rfl⟩

theorem colon_not_in_toDigits (n : Nat) : ':' ∉ Nat.toDigits 10 n := by
  intro hmem
  have hdigit := Nat.isDigit_of_mem_toDigits (by decide) (by decide) hmem
  revert hdigit
  decide

theorem toDigits_inj {m n : Nat} (h : Nat.toDigits 10 m = Nat.toDigits 10 n) : m = n := by
  rw [← Nat.ofDigitChars_toDigits (b := 10) (n := m) (by decide) (by decide), h,
    Nat.ofDigitChars_toDigits (by decide) (by decide)]

theorem colon_not_in_text (family : Family) : ':' ∉ family.text.toList := by
  cases family <;> decide

theorem Family.text_inj {a b : Family} (h : a.text = b.text) : a = b := by
  have ha := Family.ofText_text a
  rw [h, Family.ofText_text] at ha
  exact (Option.some.inj ha).symm

/-! ## Keys start with the type -/

theorem isKeyTail_nil : IsKeyTail [] :=
  .inl rfl

theorem isKeyTail_cons (rest : List Char) : IsKeyTail (':' :: rest) :=
  .inr ⟨rest, rfl⟩

/-- What follows the type and a colon in a key that has a colon. -/
def ModelObjectRef.keyRest : ModelObjectRef → String
  | document => ""
  | catalog model => model.key.identity
  | metadata model => model.key.identity
  | page model => model.key.identity
  | font model => s!"{model.pageOrdinal}:{numberOrZero model.key}:{utf8Lossy model.name.bytes}"
  | annotation model => s!"{model.pageOrdinal}:{model.ordinal}:{numberOrZero model.key}"
  | outputIntent model => s!"{model.ordinal}:{numberOrZero model.key}"
  | contentStream model => s!"{model.pageOrdinal}:{model.key.identity}"
  | operator place _ => place.identity
  | markedContent place _ => place.identity
  | inlineImage place _ => place.identity
  | resourceUse place _ _ => place.identity
  | accessibility _ kind => s!"{kind.index}"
  | stream model => model.key.identity
  | generic model =>
    match model.key with
    | none => s!"inline:{model.ordinal}:{model.context}"
    | some key => key.identity

/-- What follows the type in a key. -/
def ModelObjectRef.keyTail : ModelObjectRef → List Char
  | document => []
  | accessibility _ .document => []
  | object => ':' :: object.keyRest.toList

theorem isKeyTail_keyTail (object : ModelObjectRef) : IsKeyTail object.keyTail := by
  unfold ModelObjectRef.keyTail
  split
  · exact isKeyTail_nil
  · exact isKeyTail_nil
  · exact isKeyTail_cons _

theorem identityKey_eq (object : ModelObjectRef) :
    object.identityKey.toList = object.objectType.text.toList ++ object.keyTail := by
  cases object with
  | document => exact (List.append_nil _).symm
  | accessibility tree kind =>
    cases kind with
    | document => exact (List.append_nil _).symm
    | _ =>
      simp [ModelObjectRef.identityKey, AccessibilityModelKind.identityKey, ModelObjectRef.objectType,
        AccessibilityModelKind.index, ModelObjectRef.keyTail, ModelObjectRef.keyRest]
      rfl
  | generic model =>
    cases hkey : model.key <;>
      · simp [ModelObjectRef.identityKey, genericIdentityKey, ModelObjectRef.objectType,
          ModelObjectRef.keyTail, ModelObjectRef.keyRest, hkey]
        rfl
  | _ =>
    simp [ModelObjectRef.identityKey, ModelObjectRef.objectType, Family.text, ModelObjectRef.keyTail,
      ModelObjectRef.keyRest]
    rfl

/-- Objects of different types have different keys. -/
theorem objectType_of_identityKey {a b : ModelObjectRef} (h : a.identityKey = b.identityKey) :
    a.objectType = b.objectType := by
  have hlist := congrArg String.toList h
  rw [identityKey_eq, identityKey_eq] at hlist
  obtain ⟨htext, -⟩ := append_tail_inj (colon_not_in_text _) (colon_not_in_text _)
    (isKeyTail_keyTail a) (isKeyTail_keyTail b) hlist
  exact Family.text_inj (String.toList_inj.mp htext)

/-! ## The document and its structure tree -/

section Sourced

variable {graph : ModelGraph} {object : ModelObjectRef}

theorem eq_document (hsourced : object.Sourced graph) (h : object.objectType = .document) :
    object = .document := by
  cases object with
  | document => rfl
  | accessibility tree kind => cases kind <;> cases h
  | generic model =>
    have hlisted : model.family ∈ genericFamilies := hsourced.listed
    rw [show model.family = .document from h] at hlisted
    exact absurd hlisted (by decide)
  | _ => cases h

theorem eq_accessibilityDocument (hsourced : object.Sourced graph)
    (h : object.objectType = .accessibilityDocument) : ∃ tree, object = .accessibility tree .document
      ∧ buildAccessibilityGraph graph.crates graph.document graph.limits = .ok tree := by
  cases object with
  | accessibility tree kind =>
    cases kind with
    | document => exact ⟨tree, rfl, hsourced.1⟩
    | _ => cases h
  | generic model =>
    have hlisted : model.family ∈ genericFamilies := hsourced.listed
    rw [show model.family = .accessibilityDocument from h] at hlisted
    exact absurd hlisted (by decide)
  | _ => cases h

/-- A structure element is a node of the structure tree, or a model of an indirect object. -/
theorem structureElement_cases (hsourced : object.Sourced graph)
    (h : object.objectType = .structureElement) :
    (∃ tree id, object = .accessibility tree (.structureElement id)
        ∧ buildAccessibilityGraph graph.crates graph.document graph.limits = .ok tree
        ∧ ∃ node ∈ tree.nodes, id = node.id ∨ id ∈ node.children)
      ∨ ∃ model, object = .generic model ∧ model.family = .structureElement
        ∧ graph.materializesGenericRoots = true
        ∧ ∃ source ∈ graph.document.objects.values, model.MadeFrom source := by
  cases object with
  | accessibility tree kind =>
    cases kind with
    | structureElement id => exact .inl ⟨tree, id, rfl, hsourced.1, hsourced.2⟩
    | _ => cases h
  | generic model =>
    have hfamily : model.family = .structureElement := h
    rcases hsourced with hnamed | hmade
    · unfold GenericModel.Named at hnamed
      rw [hfamily] at hnamed
      exact absurd hnamed (by decide)
    · exact .inr ⟨model, rfl, hfamily, hmade⟩
  | _ => cases h

/-! ## Structure elements -/

theorem identityKey_node (tree : AccessibilityGraph) (id : Nat) :
    (ModelObjectRef.accessibility tree (.structureElement id)).identityKey.toList
      = Family.structureElement.text.toList ++ ':' :: Nat.toDigits 10 id := by
  rw [identityKey_eq]
  simp [ModelObjectRef.keyTail, ModelObjectRef.keyRest, AccessibilityModelKind.index,
    ModelObjectRef.objectType, AccessibilityModelKind.objectType]

theorem identityKey_madeFrom {model : GenericModel} {source : IndirectObject}
    (h : model.MadeFrom source) : (ModelObjectRef.generic model).identityKey.toList
      = model.family.text.toList
        ++ ':' :: (Nat.toDigits 10 source.key.number
          ++ ':' :: Nat.toDigits 10 source.key.generation) := by
  rw [identityKey_eq]
  simp [ModelObjectRef.keyTail, ModelObjectRef.keyRest, ObjectKey.identity, h.key,
    ModelObjectRef.objectType]
  rfl

theorem node_ne_madeFrom {tree : AccessibilityGraph} {id : Nat} {model : GenericModel}
    {source : IndirectObject} (hfamily : model.family = .structureElement)
    (hmade : model.MadeFrom source) :
    (ModelObjectRef.accessibility tree (.structureElement id)).identityKey
      ≠ (ModelObjectRef.generic model).identityKey := by
  intro h
  have hlist := congrArg String.toList h
  rw [identityKey_node, identityKey_madeFrom hmade, hfamily] at hlist
  have htail := List.append_cancel_left hlist
  rw [List.cons.injEq] at htail
  apply colon_not_in_toDigits id
  rw [htail.2]
  exact List.mem_append_right _ List.mem_cons_self

/-- Only the node itself has its key. -/
theorem node_of_identityKey {tree : AccessibilityGraph} {id : Nat} (hsourced : object.Sourced graph)
    (h : object.identityKey
      = (ModelObjectRef.accessibility tree (.structureElement id)).identityKey) :
    ∃ other, object = .accessibility other (.structureElement id)
      ∧ buildAccessibilityGraph graph.crates graph.document graph.limits = .ok other := by
  rcases structureElement_cases hsourced (objectType_of_identityKey h) with
    ⟨other, id', rfl, hother, -⟩ | ⟨model, rfl, hfamily, -, source, -, hmade⟩
  · have hlist := congrArg String.toList h
    rw [identityKey_node, identityKey_node] at hlist
    have htail := List.append_cancel_left hlist
    rw [List.cons.injEq] at htail
    cases toDigits_inj htail.2
    exact ⟨other, rfl, hother⟩
  · exact absurd h.symm (node_ne_madeFrom hfamily hmade)

/-- A structure element with the key of one made from an indirect object was made from an object with
the same key. -/
theorem madeFrom_of_identityKey {model : GenericModel} {source : IndirectObject}
    (hfamily : model.family = .structureElement) (hmade : model.MadeFrom source)
    (hsourced : object.Sourced graph)
    (h : object.identityKey = (ModelObjectRef.generic model).identityKey) :
    ∃ other, object = .generic other ∧ other.family = .structureElement
      ∧ ∃ found ∈ graph.document.objects.values, other.MadeFrom found ∧ found.key = source.key := by
  rcases structureElement_cases hsourced ((objectType_of_identityKey h).trans hfamily) with
    ⟨tree, id, rfl, -, -⟩ | ⟨other, rfl, hother, -, found, hfound, hfoundMade⟩
  · exact absurd h (node_ne_madeFrom hfamily hmade)
  · refine ⟨other, rfl, hother, found, hfound, hfoundMade, ?_⟩
    have hlist := congrArg String.toList h
    rw [identityKey_madeFrom hmade, identityKey_madeFrom hfoundMade, hfamily, hother] at hlist
    have htail := List.append_cancel_left hlist
    rw [List.cons.injEq] at htail
    obtain ⟨hnumber, hrest⟩ := append_tail_inj (colon_not_in_toDigits _) (colon_not_in_toDigits _)
      (isKeyTail_cons _) (isKeyTail_cons _) htail.2
    rw [List.cons.injEq] at hrest
    have hnumber := toDigits_inj hnumber
    have hgeneration := toDigits_inj hrest.2
    cases hkey : found.key
    cases hkey' : source.key
    simp_all

end Sourced

end Pdfv
