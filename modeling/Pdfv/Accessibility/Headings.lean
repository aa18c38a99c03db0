import Pdfv.Accessibility.DocumentOrder
import Pdfv.Profile.Builtin
/-!
# The nesting of headings

Headings follow one another in the order of the document. `hasCorrectHeadingNesting` looks at the
headings around an element, though, and not at those before it: `headingNesting_iff` says where the two
agree.
-/

namespace Pdfv

open Loop Fallible

/-! ## Headings -/

/-- `n` of the standard type `Hn`. -/
def headingNumber (role : String) : Option Nat :=
  match role.toList with
  | 'H' :: first :: rest =>
    if first ≠ '0' && (first :: rest).all Char.isDigit then some (decimalValue (first :: rest)) else none
  | _ => none

section Nesting

variable (nodes : List AccessibilityNode) (node : AccessibilityNode)

/-- The level of the last heading among the given elements. -/
def lastHeading (elements : List AccessibilityNode) : Option Nat :=
  elements.reverse.findSome? fun element => headingNumber element.normalizedRole

/-- The level of the heading that precedes an element in the order of the document. -/
def precedingHeading : Option Nat :=
  lastHeading ((documentOrder nodes).takeWhile fun other => other.id ≠ node.id)

/-- A heading `Hn` goes at most one level deeper than the one before it, and the first is an `H1`. -/
def NestsCorrectly (n : Nat) : Prop :=
  match precedingHeading nodes node with
  | some k => n ≤ 1 + k
  | none => n = 1

/-- The nearest of the elements around an element that is one of `H1` to `H6` has a smaller number. -/
def EnclosedBelow (n : Nat) : Prop :=
  ∃ chain level, Ancestors nodes node.parent chain
    ∧ (chain.map fun above => headingLevel above.normalizedRole).find? (0 < ·) = some level ∧ level < n

/-- Where a heading `Hn` stands when the source is right about it: it is an `H1`, or what is around it
says what the nodes before it say. Up to `H6` that is, whether the nearest heading around it has a
smaller number and whether the last heading before it is deep enough; from `H7` on it is deep enough. -/
structure WellPlaced (n : Nat) : Prop where
  enclosed : 1 < n → n ≤ 6 → (EnclosedBelow nodes node n
    ↔ ∃ k, lastHeading (nodes.take node.id) = some k ∧ n ≤ 1 + k)
  deep : 6 < n → ∃ k, lastHeading (nodes.take node.id) = some k ∧ n ≤ 1 + k

end Nesting

section Levels

theorem decimal_le (digits : List Char) (n : Nat) :
    n ≤ digits.foldl (fun n c => n * 10 + (c.toNat - 48)) n := by
  induction digits generalizing n with
  | nil => exact Nat.le_refl n
  | cons c digits ih =>
    have hle := ih (n * 10 + (c.toNat - 48))
    rw [List.foldl_cons]
    omega

/-- The number of a heading starts with one of the digits from 1 on. -/
theorem headingNumber_some {role : String} {n : Nat} (h : headingNumber role = some n) :
    ∃ first rest, role.toList = 'H' :: first :: rest ∧ 49 ≤ first.toNat ∧ first.toNat ≤ 57
      ∧ n = decimalValue (first :: rest) := by
  unfold headingNumber at h
  split at h
  · rename_i first rest hrole
    split at h
    · rename_i hdigits
      simp only [Bool.and_eq_true, decide_eq_true_eq, List.all_cons] at hdigits
      obtain ⟨hzero, hfirst, -⟩ := hdigits
      have hrange : 48 ≤ first.toNat ∧ first.toNat ≤ 57 := Char.isDigit_iff_toNat.mp hfirst
      have hne : first.toNat ≠ 48 := by
        intro heq
        exact hzero (Char.toNat_inj.mp heq)
      exact ⟨first, rest, hrole, by omega, hrange.2, (Option.some.inj h).symm⟩
    · cases h
  · cases h

theorem headingNumber_pos {role : String} {n : Nat} (h : headingNumber role = some n) : 0 < n := by
  obtain ⟨first, rest, -, hlow, -, rfl⟩ := headingNumber_some h
  have hle := decimal_le rest (0 * 10 + (first.toNat - 48))
  unfold decimalValue
  rw [List.foldl_cons]
  omega

theorem headingLevel_long {role : String} (h : 2 < role.toList.length) : headingLevel role = 0 := by
  unfold headingLevel
  split <;> first | rfl | exact absurd h (by decide)

/-- The source knows the headings up to `H6`. -/
theorem headingLevel_eq {role : String} {n : Nat} (h : headingNumber role = some n) :
    headingLevel role = if n ≤ 6 then n else 0 := by
  obtain ⟨first, rest, hrole, hlow, hhigh, rfl⟩ := headingNumber_some h
  cases rest with
  | nil =>
    obtain rfl : role = String.ofList ['H', first] := by rw [← hrole, String.ofList_toList]
    have hdigit : first.toNat = 49 ∨ first.toNat = 50 ∨ first.toNat = 51 ∨ first.toNat = 52
        ∨ first.toNat = 53 ∨ first.toNat = 54 ∨ first.toNat = 55 ∨ first.toNat = 56
        ∨ first.toNat = 57 := by omega
    obtain hfirst | hfirst | hfirst | hfirst | hfirst | hfirst | hfirst | hfirst | hfirst := hdigit <;>
      · rw [← Char.ofNat_toNat first, hfirst]
        decide
  | cons second rest =>
    have hvalue : 10 ≤ decimalValue (first :: second :: rest) := by
      have hle := decimal_le rest ((0 * 10 + (first.toNat - 48)) * 10 + (second.toNat - 48))
      unfold decimalValue
      rw [List.foldl_cons, List.foldl_cons]
      omega
    rw [if_neg (by omega)]
    apply headingLevel_long
    simp [hrole]

end Levels

section Agreement

variable {crates : Crates} {doc : ModelDocument} {limits : ResourceLimits}
  {graph : AccessibilityGraph} {node : AccessibilityNode}

/-- What stands before a node in the order of the document are the nodes before it. -/
theorem precedingHeading_eq (hgraph : buildAccessibilityGraph crates doc limits = .ok graph)
    (hnode : node ∈ graph.nodes) :
    precedingHeading graph.nodes node = lastHeading (graph.nodes.take node.id) := by
  obtain ⟨hlinked, -, -⟩ := buildAccessibilityGraph_linked hgraph
  unfold precedingHeading
  rw [buildAccessibilityGraph_documentOrder hgraph]
  congr 1
  obtain ⟨i, hi⟩ := List.mem_iff_getElem?.mp hnode
  obtain ⟨hlt, hget⟩ := List.getElem?_eq_some_iff.mp hi
  have hid := hlinked.ids i node hi
  have hsplit : graph.nodes = graph.nodes.take i ++ node :: graph.nodes.drop (i + 1) := by
    rw [← hget, List.getElem_cons_drop, List.take_append_drop]
  have hbefore : ∀ other ∈ graph.nodes.take i, decide (other.id ≠ node.id) = true := by
    intro other hother
    obtain ⟨j, hj⟩ := List.mem_iff_getElem?.mp hother
    rw [List.getElem?_take] at hj
    split at hj
    · have hother := hlinked.ids j other hj
      apply decide_eq_true
      omega
    · cases hj
  rw [hid] at hbefore ⊢
  conv_lhs => rw [hsplit]
  rw [List.takeWhile_append_of_pos hbefore, List.takeWhile_cons_of_neg (by simp [hid]), List.append_nil]

theorem nestsCorrectly_iff (hgraph : buildAccessibilityGraph crates doc limits = .ok graph)
    (hnode : node ∈ graph.nodes) (n : Nat) : NestsCorrectly graph.nodes node n
      ↔ n = 1 ∧ lastHeading (graph.nodes.take node.id) = none
        ∨ ∃ k, lastHeading (graph.nodes.take node.id) = some k ∧ n ≤ 1 + k := by
  unfold NestsCorrectly
  rw [precedingHeading_eq hgraph hnode]
  cases lastHeading (graph.nodes.take node.id) with
  | none => simp
  | some k => simp

/-- The climb of `has_correct_heading_nesting` stops at the first heading. -/
theorem findSome?_headingLevel (chain : List AccessibilityNode) (level : Nat) :
    (chain.findSome? fun above =>
        if headingLevel above.normalizedRole > 0 then
          some (decide (headingLevel above.normalizedRole < level)) else none)
      = ((chain.map fun above => headingLevel above.normalizedRole).find? (0 < ·)).map
          fun above => decide (above < level) := by
  induction chain with
  | nil => rfl
  | cons above chain ih =>
    rw [List.findSome?_cons, List.map_cons, List.find?_cons]
    by_cases hlevel : headingLevel above.normalizedRole > 0
    · simp [hlevel]
    · simpa [hlevel] using ih

theorem hasCorrectHeadingNesting_iff (hlinked : Linked graph.nodes) (hnode : node ∈ graph.nodes)
    {n : Nat} (hn : headingNumber node.normalizedRole = some n) :
    hasCorrectHeadingNesting graph node = true ↔ n = 1 ∨ 6 < n ∨ EnclosedBelow graph.nodes node n := by
  have hpos := headingNumber_pos hn
  obtain ⟨chain, hchain, hlength⟩ := hlinked.ancestors_of_mem hnode
  have hunique : ∀ other, Ancestors graph.nodes node.parent other → other = chain :=
    fun other hother => hother.unique hchain
  unfold hasCorrectHeadingNesting
  rw [headingLevel_eq hn]
  by_cases hdeep : n ≤ 6
  · rw [if_pos hdeep]
    by_cases hone : n ≤ 1
    · simp only [hone, if_true, true_iff]
      exact .inl (by omega)
    · simp only [hone, if_false]
      rw [climb_eq hchain hlength, findSome?_headingLevel]
      constructor
      · intro hbelow
        cases hlevel : (chain.map fun above => headingLevel above.normalizedRole).find? (0 < ·) with
        | none =>
          rw [hlevel] at hbelow
          cases hbelow
        | some level =>
          rw [hlevel] at hbelow
          exact .inr (.inr ⟨chain, level, hchain, hlevel, by simpa using hbelow⟩)
      · rintro (hone' | hdeep' | ⟨other, level, hother, hlevel, hlt⟩)
        · omega
        · omega
        · rw [hunique other hother] at hlevel
          rw [hlevel]
          simpa using hlt
  · rw [if_neg hdeep]
    simp only [Nat.zero_le, if_true, true_iff]
    exact .inr (.inl (Nat.lt_of_not_le hdeep))

/-- The nesting of a heading is judged by the order of the document exactly where the headings around
it say what the headings before it say. -/
theorem headingNesting_iff (hgraph : buildAccessibilityGraph crates doc limits = .ok graph)
    (hnode : node ∈ graph.nodes) {n : Nat} (hn : headingNumber node.normalizedRole = some n) :
    (structureElementProperty graph doc node "hasCorrectNestingLevel" = .ok (.bool true)
        ↔ NestsCorrectly graph.nodes node n)
      ↔ WellPlaced graph.nodes node n := by
  obtain ⟨hlinked, -, -⟩ := buildAccessibilityGraph_linked hgraph
  have hpos := headingNumber_pos hn
  have hproperty : structureElementProperty graph doc node "hasCorrectNestingLevel"
      = .ok (.bool (hasCorrectHeadingNesting graph node)) := rfl
  have hcode : structureElementProperty graph doc node "hasCorrectNestingLevel" = .ok (.bool true)
      ↔ n = 1 ∨ 6 < n ∨ EnclosedBelow graph.nodes node n := by
    rw [hproperty, ← hasCorrectHeadingNesting_iff hlinked hnode hn]
    simp
  have hfirst : n = 1 → NestsCorrectly graph.nodes node n := by
    intro hone
    rw [nestsCorrectly_iff hgraph hnode]
    cases hlast : lastHeading (graph.nodes.take node.id) with
    | none => exact .inl ⟨hone, rfl⟩
    | some k => exact .inr ⟨k, rfl, by omega⟩
  have hlater : 1 < n → (NestsCorrectly graph.nodes node n
      ↔ ∃ k, lastHeading (graph.nodes.take node.id) = some k ∧ n ≤ 1 + k) := by
    intro hone
    rw [nestsCorrectly_iff hgraph hnode]
    constructor
    · rintro (⟨heq, -⟩ | hk)
      · omega
      · exact hk
    · exact .inr
  rw [hcode]
  constructor
  · intro h
    refine ⟨?_, ?_⟩
    · intro hone hsix
      rw [← hlater hone, ← h]
      constructor
      · exact fun henclosed => .inr (.inr henclosed)
      · rintro (heq | hgt | henclosed)
        · omega
        · omega
        · exact henclosed
    · intro hsix
      exact (hlater (by omega)).mp (h.mp (.inr (.inl hsix)))
  · intro h
    by_cases hone : n = 1
    · exact iff_of_true (.inl hone) (hfirst hone)
    · have hgt : 1 < n := by omega
      rw [hlater hgt]
      by_cases hsix : n ≤ 6
      · rw [← h.enclosed hgt hsix]
        constructor
        · rintro (heq | hdeep | henclosed)
          · omega
          · omega
          · exact henclosed
        · exact fun henclosed => .inr (.inr henclosed)
      · have hdeep : 6 < n := by omega
        exact iff_of_true (.inr (.inl hdeep)) (h.deep hdeep)

end Agreement

/-- A heading with another inside it, and a third after it. -/
def siblingHeadingsSource : Bytes :=
  utf8 ("%PDF-1.7\n1 0 obj<</Type/Catalog/StructTreeRoot 2 0 R>>endobj\n"
    ++ "2 0 obj<</Type/StructTreeRoot/K 3 0 R>>endobj\n"
    ++ "3 0 obj<</S/Document/K[4 0 R<</S/H2>>]>>endobj\n4 0 obj<</S/H1/K<</S/H2>>>>endobj\n"
    ++ "trailer<</Root 1 0 R>>\n%%EOF")

/-- The nodes of `siblingHeadingsSource` in the order of the document; the last follows an `H2`, and no
heading is around it. -/
theorem siblingHeadings_run :
    (match Parser.parse ⟨{}, none⟩ Crates.unused siblingHeadingsSource with
      | .ok doc =>
        match buildAccessibilityGraph Crates.unused doc.model {} with
        | .ok graph =>
          match documentOrder graph.nodes with
          | [_, _, _, last] =>
            graph.nodes.map (fun node => (node.id, node.normalizedRole, node.parent))
                = [(0, "Document", none), (1, "H1", some 0), (2, "H2", some 1), (3, "H2", some 0)]
              && precedingHeading graph.nodes last = some 2 && !hasCorrectHeadingNesting graph last
          | _ => false
        | .error _ => false
      | .error _ => false) = true := by
  have hbytes := siblingHeadingsSource.eq_def
  simp only [utf8_append] at hbytes
  repeat rw [utf8_ofList] at hbytes
  rw [hbytes]
  decide +kernel

theorem siblingHeadings_parts : ∃ doc graph document outer inner last,
    Parser.parse ⟨{}, none⟩ Crates.unused siblingHeadingsSource = .ok doc
      ∧ buildAccessibilityGraph Crates.unused doc.model {} = .ok graph
      ∧ graph.nodes = [document, outer, inner, last]
      ∧ graph.nodes.map (fun node => (node.id, node.normalizedRole, node.parent))
        = [(0, "Document", none), (1, "H1", some 0), (2, "H2", some 1), (3, "H2", some 0)]
      ∧ precedingHeading graph.nodes last = some 2 ∧ hasCorrectHeadingNesting graph last = false := by
  have hrun := siblingHeadings_run
  split at hrun
  · rename_i doc hparse
    split at hrun
    · rename_i graph hgraph
      split at hrun
      · rename_i document outer inner last horder
        simp only [Bool.and_eq_true, decide_eq_true_eq, Bool.not_eq_true'] at hrun
        obtain ⟨⟨hnodes, hpreceding⟩, hfalse⟩ := hrun
        rw [buildAccessibilityGraph_documentOrder hgraph] at horder
        exact ⟨doc, graph, document, outer, inner, last, hparse, hgraph, horder, hnodes, hpreceding,
          hfalse⟩
      · cases hrun
    · cases hrun
  · cases hrun

/-- The heading inside the other is well placed. -/
theorem headingNesting_iff_inner : ∃ doc graph, ∃ inner ∈ graph.nodes,
    buildAccessibilityGraph Crates.unused doc {} = .ok graph
      ∧ headingNumber inner.normalizedRole = some 2
      ∧ (structureElementProperty graph doc inner "hasCorrectNestingLevel" = .ok (.bool true)
        ↔ NestsCorrectly graph.nodes inner 2) := by
  obtain ⟨doc, graph, document, outer, inner, last, -, hgraph, hnodes, hfields, -⟩ :=
    siblingHeadings_parts
  have hinner : inner ∈ graph.nodes := by simp [hnodes]
  rw [hnodes] at hfields
  simp only [List.map_cons, List.map_nil, List.cons.injEq, Prod.mk.injEq, and_true] at hfields
  obtain ⟨⟨-, hdocumentRole, hdocumentParent⟩, ⟨-, houterRole, houterParent⟩,
    ⟨hinnerId, hinnerRole, hinnerParent⟩, -⟩ := hfields
  have hnumber : headingNumber inner.normalizedRole = some 2 := by
    rw [hinnerRole]
    decide
  have hlast : lastHeading (graph.nodes.take inner.id) = some 1 := by
    rw [hinnerId, hnodes]
    simp only [lastHeading, List.take_succ_cons, List.take_zero, List.reverse_cons, List.reverse_nil,
      List.nil_append, List.cons_append, List.findSome?_cons, houterRole]
    have hone : headingNumber "H1" = some 1 := by decide
    rw [hone]
  have hchain : Ancestors graph.nodes inner.parent [outer, document] := by
    rw [hinnerParent]
    refine .parent (by rw [hnodes]; rfl) ?_
    rw [houterParent]
    refine .parent (by rw [hnodes]; rfl) ?_
    rw [hdocumentParent]
    exact .root
  have henclosed : EnclosedBelow graph.nodes inner 2 := by
    refine ⟨_, 1, hchain, ?_, by decide⟩
    rw [List.map_cons, List.map_cons, List.map_nil, houterRole, hdocumentRole]
    decide
  refine ⟨doc.model, graph, inner, hinner, hgraph, hnumber,
    (headingNesting_iff hgraph hinner hnumber).mpr ⟨?_, ?_⟩⟩
  · intro _ _
    exact iff_of_true henclosed ⟨1, hlast, by decide⟩
  · intro hdeep
    omega

/-- An `H2` after another `H2` is nested correctly, and its property says that it is not. -/
theorem siblingHeading_rejected : ∃ doc graph, ∃ last ∈ graph.nodes,
    Parser.parse ⟨{}, none⟩ Crates.unused siblingHeadingsSource = .ok doc
      ∧ buildAccessibilityGraph Crates.unused doc.model {} = .ok graph
      ∧ headingNumber last.normalizedRole = some 2 ∧ NestsCorrectly graph.nodes last 2
      ∧ structureElementProperty graph doc.model last "hasCorrectNestingLevel" = .ok (.bool false) := by
  obtain ⟨doc, graph, document, outer, inner, last, hparse, hgraph, hnodes, hfields, hpreceding,
    hfalse⟩ := siblingHeadings_parts
  rw [hnodes] at hfields
  simp only [List.map_cons, List.map_nil, List.cons.injEq, Prod.mk.injEq, and_true] at hfields
  have hrole : last.normalizedRole = "H2" := hfields.2.2.2.2.1
  refine ⟨doc, graph, last, by simp [hnodes], hparse, hgraph, ?_, ?_, ?_⟩
  · rw [hrole]
    decide
  · unfold NestsCorrectly
    rw [hpreceding]
    decide
  · change Except.ok (ModelValue.bool (hasCorrectHeadingNesting graph last)) = _
    rw [hfalse]

end Pdfv
