import Pdfv.Accessibility.DocumentOrder
import Mathlib.Algebra.Order.BigOperators.Group.List
import Mathlib.Algebra.Order.Group.Nat
/-!
# The headers of a table cell

A table has rows, a row has cells, and a cell stands in the first column that is free; a header with a
scope is the header of the cells in its row or column. `hasConnectedTableHeader` looks for headers in the
whole document and in nested tables and does not ask where they stand: `tableHeaders_iff` says for which
cells this makes no difference.
-/

namespace Pdfv

open Fallible

/-! ## The grid of a table -/

section Grid

variable (graph : AccessibilityGraph)

/-- The nearest of the elements around an element that is of one of the types. -/
def innermost (types : List String) (node : AccessibilityNode) : Option AccessibilityNode :=
  climb graph (fun above => if types.contains above.normalizedRole then some (some above) else none) none
    none graph.nodes.length node.parent

/-- The innermost table around an element is the given one. -/
def inTable (table node : AccessibilityNode) : Bool :=
  (innermost graph ["Table"] node).any fun own => own.id = table.id

/-- The rows of a table, from the first to the last. -/
def gridRows (table : AccessibilityNode) : List AccessibilityNode :=
  (documentOrder graph.nodes).filter fun row => row.normalizedRole = "TR" && inTable graph table row

/-- The cells of a row, from the first to the last. -/
def gridCells (row : AccessibilityNode) : List AccessibilityNode :=
  (documentOrder graph.nodes).filter fun cell =>
    ["TH", "TD"].contains cell.normalizedRole
      && (innermost graph ["TR", "Table"] cell).any fun own => own.id = row.id

/-- A cell with its place in the grid. -/
structure PlacedCell where
  id : Nat
  row : Nat
  column : Nat
  rowSpan : Nat
  colSpan : Nat
deriving DecidableEq

/-- The cell is at a place of the grid. -/
def PlacedCell.covers (cell : PlacedCell) (row column : Nat) : Bool :=
  cell.row ≤ row && row < cell.row + cell.rowSpan
    && cell.column ≤ column && column < cell.column + cell.colSpan

/-- The first free column of a row from a column on. No placed cell is passed twice. -/
def firstFree (placed : List PlacedCell) (row : Nat) : Nat → Nat → Nat
  | 0, column => column
  | passes + 1, column =>
    match placed.find? fun cell => cell.covers row column with
    | none => column
    | some cell => firstFree placed row passes (cell.column + cell.colSpan)

/-- The cells of a row are placed one after the other. -/
def placeCells (row : Nat) : List AccessibilityNode → Nat → List PlacedCell → List PlacedCell
  | [], _, placed => placed
  | cell :: cells, column, placed =>
    let column := firstFree placed row placed.length column
    placeCells row cells (column + cell.colSpan)
      (⟨cell.id, row, column, cell.rowSpan, cell.colSpan⟩ :: placed)

/-- The cells of a table in their places. -/
def tableLayout (table : AccessibilityNode) : List PlacedCell :=
  (gridRows graph table).zipIdx.foldl
    (fun placed row => placeCells row.2 (gridCells graph row.1) 0 placed) []

/-- Two runs of rows or columns have one in common. -/
def overlap (start span otherStart otherSpan : Nat) : Bool :=
  start < otherStart + otherSpan && otherStart < start + span

/-- A header with a scope stands in a row or a column of a cell. -/
def headsCell (scope : Option String) (header cell : PlacedCell) : Bool :=
  (scope = some "Row" || scope = some "Both")
      && overlap header.row header.rowSpan cell.row cell.rowSpan
    || (scope = some "Column" || scope = some "Both")
      && overlap header.column header.colSpan cell.column cell.colSpan

variable (cell : AccessibilityNode)

/-- The header cells of the table of a cell. -/
def ownHeaders : List AccessibilityNode :=
  (documentOrder graph.nodes).filter fun header =>
    header.normalizedRole = "TH"
      && (innermost graph ["Table"] cell).any fun table => inTable graph table header

/-- An id of `/Headers` is that of a header cell of the table. -/
def namesOwnHeader (id : String) : Bool :=
  (ownHeaders graph cell).any fun header => header.idText = some id

/-- The ids of `/Headers` that name no header cell of the table. -/
def unnamedIds : List String :=
  cell.headers.filter fun id => !namesOwnHeader graph cell id

/-- A header cell of the table with a scope stands in a row or a column of the cell. -/
def isHeaded : Bool :=
  (innermost graph ["Table"] cell).any fun table =>
    (ownHeaders graph cell).any fun header =>
      (tableLayout graph table).any fun headerPlace =>
        headerPlace.id = header.id && (tableLayout graph table).any fun place =>
          place.id = cell.id && headsCell header.scope headerPlace place

/-- The two properties of a cell say whether it has headers, and which of those it names are not headers
of its table. -/
structure HeadersOfTable (doc : ModelDocument) : Prop where
  connected : structureElementProperty graph doc cell "hasConnectedHeader" = .ok (.bool true)
    ↔ cell.headers ≠ [] ∧ (∀ id ∈ cell.headers, namesOwnHeader graph cell id = true)
      ∨ isHeaded graph cell = true
  unknown : structureElementProperty graph doc cell "unknownHeaders"
    = .ok (textValue (",".intercalate (unnamedIds graph cell)))

/-! ## What the source looks at instead -/

/-- The ids of `/Headers` that are ids of no header cell of the document. -/
def unknownIds : List String :=
  cell.headers.filter fun id => !headerResolvesToTableHeader graph id

/-- The ids of `/Headers` that are ids of header cells, but of other tables only. -/
def foreignIds : List String :=
  cell.headers.filter fun id => headerResolvesToTableHeader graph id && !namesOwnHeader graph cell id

/-- Inside the table of a cell, or inside a table in that table, there is a header cell with a scope. -/
def ScopeInside : Prop :=
  ∃ table, innermost graph ["Table"] cell = some table
    ∧ ∃ header ∈ graph.nodes, IsInside graph.nodes table header
      ∧ header.normalizedRole = "TH" ∧ header.scope.isSome

/-- The cells for which it makes no difference: those without `/Headers` that a scoped header is the
header of, and those with `/Headers` that name no header of another table and have all of them known, or
no scope around, or such a header. An empty id alone cannot be told from no id. -/
inductive HeadersSettled : Prop where
  | unnamed (hnone : cell.headers = []) (hheaded : isHeaded graph cell = true)
  | named (hsome : cell.headers ≠ []) (hforeign : foreignIds graph cell = [])
      (hknown : unknownIds graph cell = [] ∨ ¬ ScopeInside graph cell ∨ isHeaded graph cell = true)
  | emptyId (hforeign : foreignIds graph cell = [""]) (hknown : unknownIds graph cell = [])
      (hheaded : isHeaded graph cell = true)

end Grid

/-! ## Texts -/

section Joined

theorem length_intercalate {texts : List String} (h : texts ≠ []) :
    (",".intercalate texts).length + 1 = (texts.map String.length).sum + texts.length := by
  induction texts with
  | nil => exact absurd rfl h
  | cons text texts ih =>
    by_cases hrest : texts = []
    · simp [hrest]
    · rw [String.intercalate_cons_of_ne_nil hrest, String.length_append, String.length_append,
        List.map_cons, List.sum_cons, List.length_cons]
      have hcomma : ",".length = 1 := rfl
      have hlength := ih hrest
      omega

/-- Leaving a text out of a list makes the joined text shorter. -/
theorem intercalate_inj_of_sublist {texts more : List String} (h : texts.Sublist more) (hne : texts ≠ [])
    (heq : ",".intercalate texts = ",".intercalate more) : texts = more := by
  have hmore : more ≠ [] := by
    rintro rfl
    exact hne (List.sublist_nil.mp h)
  have hlength := length_intercalate hne
  have hlengthMore := length_intercalate hmore
  rw [heq] at hlength
  have hsum := (h.map String.length).sum_le_sum fun n _ => Nat.zero_le n
  have hle := h.length_le
  exact h.eq_of_length (by omega)

theorem intercalate_eq_empty_iff {texts : List String} :
    ",".intercalate texts = "" ↔ texts = [] ∨ texts = [""] := by
  constructor
  · intro heq
    by_cases hne : texts = []
    · exact .inl hne
    · right
      have hlength := length_intercalate hne
      rw [heq] at hlength
      have hempty : ("" : String).length = 0 := rfl
      cases texts with
      | nil => exact absurd rfl hne
      | cons text texts =>
        rw [List.map_cons, List.sum_cons, List.length_cons] at hlength
        have hrest : texts = [] := List.length_eq_zero_iff.mp (by omega)
        rw [hrest, String.intercalate_singleton] at heq
        rw [heq, hrest]
  · rintro (rfl | rfl) <;> simp

end Joined

/-! ## Where the two agree -/

section Agreement

variable {crates : Crates} {doc : ModelDocument} {limits : ResourceLimits}
  {graph : AccessibilityGraph} {cell : AccessibilityNode}

theorem tableAncestor_eq (node : AccessibilityNode) :
    tableAncestor graph node = innermost graph ["Table"] node := by
  unfold tableAncestor innermost
  congr 1
  funext above
  simp

/-- What is nearest around an element is one of the elements around it. -/
theorem innermost_inside (hlinked : Linked graph.nodes) {types : List String}
    {node found : AccessibilityNode} (hnode : node ∈ graph.nodes)
    (h : innermost graph types node = some found) :
    found ∈ graph.nodes ∧ IsInside graph.nodes found node := by
  obtain ⟨chain, hchain, hlength⟩ := hlinked.ancestors_of_mem hnode
  unfold innermost at h
  rw [climb_eq hchain hlength] at h
  have hmem : found ∈ chain := by
    cases hfirst : chain.findSome? fun above =>
        if types.contains above.normalizedRole then some (some above) else none with
    | none =>
      rw [hfirst] at h
      cases h
    | some first =>
      rw [hfirst] at h
      obtain ⟨above, habove, hdecide⟩ := List.exists_of_findSome?_eq_some hfirst
      split at hdecide
      · cases hdecide
        cases h
        exact habove
      · cases hdecide
  exact ⟨hchain.mem_nodes hmem, chain, hchain, hmem⟩

theorem mem_ownHeaders (hgraph : buildAccessibilityGraph crates doc limits = .ok graph)
    (hcell : cell ∈ graph.nodes) {header : AccessibilityNode} (h : header ∈ ownHeaders graph cell) :
    header ∈ graph.nodes ∧ header.normalizedRole = "TH"
      ∧ ∃ table, innermost graph ["Table"] cell = some table ∧ IsInside graph.nodes table header := by
  obtain ⟨hlinked, -, -⟩ := buildAccessibilityGraph_linked hgraph
  unfold ownHeaders at h
  rw [buildAccessibilityGraph_documentOrder hgraph] at h
  obtain ⟨hmem, hheader⟩ := List.mem_filter.mp h
  simp only [Bool.and_eq_true, decide_eq_true_eq, Option.any_eq_true] at hheader
  obtain ⟨hrole, table, htable, hin⟩ := hheader
  unfold inTable at hin
  simp only [Option.any_eq_true, decide_eq_true_eq] at hin
  obtain ⟨own, hown, hid⟩ := hin
  obtain ⟨hownMem, hinside⟩ := innermost_inside hlinked hmem hown
  obtain ⟨htableMem, -⟩ := innermost_inside hlinked hcell htable
  have hsame : own = table := hlinked.eq_of_id hownMem htableMem hid
  exact ⟨hmem, hrole, table, htable, hsame ▸ hinside⟩

/-- A header of the table is a header of the document. -/
theorem known_of_own (hgraph : buildAccessibilityGraph crates doc limits = .ok graph)
    (hcell : cell ∈ graph.nodes) {id : String} (h : namesOwnHeader graph cell id = true) :
    headerResolvesToTableHeader graph id = true := by
  obtain ⟨header, hheader, hid⟩ := List.any_eq_true.mp h
  obtain ⟨hmem, hrole, -⟩ := mem_ownHeaders hgraph hcell hheader
  refine List.any_eq_true.mpr ⟨header, hmem, ?_⟩
  rw [hrole, of_decide_eq_true hid]
  simp

theorem scopeInside_of_headed (hgraph : buildAccessibilityGraph crates doc limits = .ok graph)
    (hcell : cell ∈ graph.nodes) (h : isHeaded graph cell = true) : ScopeInside graph cell := by
  unfold isHeaded at h
  simp only [Option.any_eq_true, List.any_eq_true, Bool.and_eq_true] at h
  obtain ⟨-, -, header, hheader, headerPlace, -, -, place, -, -, hheads⟩ := h
  obtain ⟨hmem, hrole, table, htable, hinside⟩ := mem_ownHeaders hgraph hcell hheader
  refine ⟨table, htable, header, hmem, hinside, hrole, ?_⟩
  cases hscope : header.scope with
  | none =>
    rw [hscope] at hheads
    simp [headsCell] at hheads
  | some scope => rfl

theorem scopedTableHeaderApplies_iff (hgraph : buildAccessibilityGraph crates doc limits = .ok graph)
    (hcell : cell ∈ graph.nodes) :
    scopedTableHeaderApplies graph cell = true ↔ ScopeInside graph cell := by
  obtain ⟨hlinked, -, -⟩ := buildAccessibilityGraph_linked hgraph
  unfold scopedTableHeaderApplies
  simp only [tableAncestor_eq, Option.any_eq_true, List.any_eq_true, Bool.and_eq_true,
    decide_eq_true_eq]
  constructor
  · rintro ⟨table, htable, header, hheader, hrole, hscope⟩
    obtain ⟨htableMem, -⟩ := innermost_inside hlinked hcell htable
    obtain ⟨hmem, hinside⟩ := (mem_tableDescendants hgraph htableMem).mp hheader
    exact ⟨table, htable, header, hmem, hinside, hrole, hscope⟩
  · rintro ⟨table, htable, header, hmem, hinside, hrole, hscope⟩
    obtain ⟨htableMem, -⟩ := innermost_inside hlinked hcell htable
    exact ⟨table, htable, header, (mem_tableDescendants hgraph htableMem).mpr ⟨hmem, hinside⟩, hrole,
      hscope⟩

theorem unknown_sublist (hgraph : buildAccessibilityGraph crates doc limits = .ok graph)
    (hcell : cell ∈ graph.nodes) : (unknownIds graph cell).Sublist (unnamedIds graph cell) := by
  apply List.monotone_filter_right
  intro id hid
  rw [Bool.not_eq_true']
  by_contra hown
  rw [known_of_own hgraph hcell (Bool.not_eq_false _ ▸ hown)] at hid
  cases hid

/-- Without foreign ids, the ids that name no header of the table are the unknown ones. -/
theorem foreignIds_eq_nil_iff (hgraph : buildAccessibilityGraph crates doc limits = .ok graph)
    (hcell : cell ∈ graph.nodes) :
    foreignIds graph cell = [] ↔ unknownIds graph cell = unnamedIds graph cell := by
  constructor
  · intro hforeign
    apply List.filter_congr
    intro id hid
    have hnot := List.filter_eq_nil_iff.mp hforeign id hid
    cases hown : namesOwnHeader graph cell id with
    | true => rw [known_of_own hgraph hcell hown]
    | false => simpa [hown] using hnot
  · intro hsame
    apply List.filter_eq_nil_iff.mpr
    intro id hid hforeign
    obtain ⟨hknown, hown⟩ := Bool.and_eq_true_iff.mp hforeign
    have hunnamed : id ∈ unnamedIds graph cell := List.mem_filter.mpr ⟨hid, hown⟩
    rw [← hsame] at hunnamed
    have hunknown := (List.mem_filter.mp hunnamed).2
    rw [hknown] at hunknown
    cases hunknown

/-- Without unknown ids, they are the foreign ones. -/
theorem unnamedIds_foreign (hunknown : unknownIds graph cell = []) :
    unnamedIds graph cell = foreignIds graph cell := by
  apply List.filter_congr
  intro id hid
  have hnot := List.filter_eq_nil_iff.mp hunknown id hid
  have hknown : headerResolvesToTableHeader graph id = true := by simpa using hnot
  rw [hknown, Bool.true_and]

variable (htd : cell.normalizedRole = "TD")
include htd

/-- What the source computes for a data cell. -/
theorem hasConnectedTableHeader_iff (hgraph : buildAccessibilityGraph crates doc limits = .ok graph)
    (hcell : cell ∈ graph.nodes) : hasConnectedTableHeader graph cell = true
      ↔ cell.headers ≠ [] ∧ unknownIds graph cell = [] ∨ ScopeInside graph cell := by
  rw [← scopedTableHeaderApplies_iff hgraph hcell]
  unfold hasConnectedTableHeader headersResolveToTableHeaders unknownIds
  rw [htd, List.filter_eq_nil_iff]
  simp

theorem unknownHeaders_eq : unknownHeaders graph cell
    = if unknownIds graph cell ≠ [] then ",".intercalate (unknownIds graph cell)
      else if hasConnectedTableHeader graph cell then "" else "missing" := by
  unfold unknownHeaders
  rw [if_neg (by simpa using htd)]
  unfold unknownIds
  simp only [Bool.not_eq_true', List.isEmpty_eq_false_iff]

/-- The properties against what they are to be, without the tables of names. -/
theorem headersOfTable_iff (hgraph : buildAccessibilityGraph crates doc limits = .ok graph)
    (hcell : cell ∈ graph.nodes) : HeadersOfTable graph cell doc
      ↔ ((cell.headers ≠ [] ∧ unknownIds graph cell = [] ∨ ScopeInside graph cell)
          ↔ (cell.headers ≠ [] ∧ unnamedIds graph cell = [] ∨ isHeaded graph cell = true))
        ∧ (if unknownIds graph cell ≠ [] then ",".intercalate (unknownIds graph cell)
            else if hasConnectedTableHeader graph cell then "" else "missing")
          = ",".intercalate (unnamedIds graph cell) := by
  have hconnected : structureElementProperty graph doc cell "hasConnectedHeader"
      = .ok (.bool (hasConnectedTableHeader graph cell)) := rfl
  have hunknown : structureElementProperty graph doc cell "unknownHeaders"
      = .ok (textValue (unknownHeaders graph cell)) := rfl
  have hnamed : unnamedIds graph cell = [] ↔ ∀ id ∈ cell.headers, namesOwnHeader graph cell id = true := by
    unfold unnamedIds
    rw [List.filter_eq_nil_iff]
    simp
  rw [← hasConnectedTableHeader_iff htd hgraph hcell, ← unknownHeaders_eq htd, hnamed]
  constructor
  · intro h
    have htrue := h.connected
    have htext := h.unknown
    rw [hconnected] at htrue
    rw [hunknown] at htext
    refine ⟨?_, ?_⟩
    · rw [← htrue]
      simp
    · simpa [textValue, unnamedIds] using htext
  · rintro ⟨htrue, htext⟩
    refine ⟨?_, ?_⟩
    · rw [hconnected, ← htrue]
      simp
    · rw [hunknown, htext]

/-- The header properties of a data cell are those of its table exactly for the settled cells. -/
theorem tableHeaders_iff (hgraph : buildAccessibilityGraph crates doc limits = .ok graph)
    (hcell : cell ∈ graph.nodes) : HeadersOfTable graph cell doc ↔ HeadersSettled graph cell := by
  rw [headersOfTable_iff htd hgraph hcell]
  have hscope := scopeInside_of_headed hgraph hcell
  have hsource := hasConnectedTableHeader_iff htd hgraph hcell
  have hforeignIff := foreignIds_eq_nil_iff hgraph hcell
  by_cases hheaders : cell.headers = []
  · -- nothing is named, and only a scope can help
    have hunknown : unknownIds graph cell = [] := by simp [unknownIds, hheaders]
    have hforeign : foreignIds graph cell = [] := by simp [foreignIds, hheaders]
    have hunnamed : unnamedIds graph cell = [] := by simp [unnamedIds, hheaders]
    simp only [hheaders, hunknown, hunnamed, ne_eq, not_true_eq_false, false_and, false_or, if_false,
      String.intercalate_nil]
    constructor
    · rintro ⟨hiff, htext⟩
      refine .unnamed hheaders (hiff.mp ?_)
      by_contra hnone
      rw [if_neg] at htext
      · exact absurd htext (by decide)
      · rw [hsource]
        simp [hheaders, hnone]
    · intro h
      have hheaded : isHeaded graph cell = true := by
        cases h with
        | unnamed _ hheaded => exact hheaded
        | named hsome _ _ => exact absurd hheaders hsome
        | emptyId hempty _ _ =>
          rw [hforeign] at hempty
          cases hempty
      refine ⟨iff_of_true (hscope hheaded) hheaded, if_pos ?_⟩
      rw [hsource]
      exact .inr (hscope hheaded)
  · by_cases hunknown : unknownIds graph cell = []
    · -- every id is that of a header somewhere
      have hunnamed := unnamedIds_foreign hunknown
      have hconnected : hasConnectedTableHeader graph cell = true := hsource.mpr (.inl ⟨hheaders, hunknown⟩)
      simp only [hheaders, hunknown, hunnamed, hconnected, ne_eq, not_false_eq_true, not_true_eq_false,
        true_and, true_or, if_true, if_false, true_iff]
      rw [@eq_comm _ "", intercalate_eq_empty_iff]
      constructor
      · rintro ⟨hown | hheaded, hforeign | hempty⟩
        · exact .named hheaders hforeign (.inl hunknown)
        · exact .named hheaders hown (.inl hunknown)
        · exact .named hheaders hforeign (.inl hunknown)
        · exact .emptyId hempty hunknown hheaded
      · intro h
        cases h with
        | unnamed hnone _ => exact absurd hnone hheaders
        | named _ hforeign _ => exact ⟨.inl hforeign, .inl hforeign⟩
        | emptyId hempty _ hheaded => exact ⟨.inr hheaded, .inr hempty⟩
    · -- some id is unknown: the text tells the foreign ones
      have hunnamed : unnamedIds graph cell ≠ [] := by
        intro hnone
        have hsub := unknown_sublist hgraph hcell
        rw [hnone] at hsub
        exact hunknown (List.sublist_nil.mp hsub)
      simp only [hunknown, hunnamed, ne_eq, not_false_eq_true, and_false, false_or, if_true]
      constructor
      · rintro ⟨hiff, htext⟩
        have hsame := intercalate_inj_of_sublist (unknown_sublist hgraph hcell) hunknown htext
        refine .named hheaders ?_ (.inr ?_)
        · exact hforeignIff.mpr hsame
        · by_cases hheaded : isHeaded graph cell = true
          · exact .inr hheaded
          · exact .inl fun hinside => hheaded (hiff.mp hinside)
      · intro h
        cases h with
        | unnamed hnone _ => exact absurd hnone hheaders
        | named _ hforeign hknown =>
          refine ⟨⟨fun hinside => ?_, hscope⟩, ?_⟩
          · rcases hknown with hnone | hnot | hheaded
            · exact absurd hnone hunknown
            · exact absurd hinside hnot
            · exact hheaded
          · rw [hforeignIff.mp hforeign]
        | emptyId _ hnone _ => exact absurd hnone hunknown

end Agreement

/-- Two tables of one column. The cell of the first has a scoped header, and the cell of the second names
that header. -/
def twoTablesSource : Bytes :=
  utf8 ("%PDF-1.7\n1 0 obj<</Type/Catalog/StructTreeRoot 2 0 R>>endobj\n"
    ++ "2 0 obj<</Type/StructTreeRoot/K[3 0 R 4 0 R]>>endobj\n"
    ++ "3 0 obj<</S/Table/K[<</S/TR/K<</S/TH/ID(a)/A<</Scope/Column>>>>>><</S/TR/K<</S/TD>>>>]>>endobj\n"
    ++ "4 0 obj<</S/Table/K[<</S/TR/K<</S/TH>>>><</S/TR/K<</S/TD/A<</Headers[(a)]>>>>>>]>>endobj\n"
    ++ "trailer<</Root 1 0 R>>\n%%EOF")

theorem twoTables_run :
    (match Parser.parse ⟨{}, none⟩ Crates.unused twoTablesSource with
      | .ok doc =>
        match buildAccessibilityGraph Crates.unused doc.model {} with
        | .ok graph =>
          match graph.nodes with
          | [_, _, _, _, first, _, _, _, _, second] =>
            first.normalizedRole = "TD" && first.headers.isEmpty && isHeaded graph first
              && second.normalizedRole = "TD" && second.headers = ["a"]
              && !namesOwnHeader graph second "a" && !isHeaded graph second
              && hasConnectedTableHeader graph second
          | _ => false
        | .error _ => false
      | .error _ => false) = true := by
  have hbytes := twoTablesSource.eq_def
  simp only [utf8_append] at hbytes
  repeat rw [utf8_ofList] at hbytes
  rw [hbytes]
  decide +kernel

theorem twoTables_parts : ∃ doc graph, ∃ first ∈ graph.nodes, ∃ second ∈ graph.nodes,
    Parser.parse ⟨{}, none⟩ Crates.unused twoTablesSource = .ok doc
      ∧ buildAccessibilityGraph Crates.unused doc.model {} = .ok graph
      ∧ first.normalizedRole = "TD" ∧ first.headers = [] ∧ isHeaded graph first = true
      ∧ second.normalizedRole = "TD" ∧ second.headers = ["a"]
      ∧ namesOwnHeader graph second "a" = false ∧ isHeaded graph second = false
      ∧ hasConnectedTableHeader graph second = true := by
  have hrun := twoTables_run
  split at hrun
  · rename_i doc hparse
    split at hrun
    · rename_i graph hgraph
      split at hrun
      · rename_i first _ _ _ _ second hnodes
        simp only [Bool.and_eq_true, decide_eq_true_eq, Bool.not_eq_true', List.isEmpty_iff] at hrun
        obtain ⟨⟨⟨⟨⟨⟨⟨hfirst, hnone⟩, hheaded⟩, hsecond⟩, hsome⟩, hforeign⟩, hnot⟩, hconnected⟩ := hrun
        exact ⟨doc, graph, first, by simp [hnodes], second, by simp [hnodes], hparse, hgraph, hfirst,
          hnone, hheaded, hsecond, hsome, hforeign, hnot, hconnected⟩
      · cases hrun
    · cases hrun
  · cases hrun

theorem tableHeaders_iff_scoped : ∃ doc graph, ∃ cell ∈ graph.nodes,
    buildAccessibilityGraph Crates.unused doc {} = .ok graph ∧ cell.normalizedRole = "TD"
      ∧ HeadersOfTable graph cell doc := by
  obtain ⟨doc, graph, first, hmem, -, -, -, hgraph, hrole, hnone, hheaded, -⟩ := twoTables_parts
  exact ⟨doc.model, graph, first, hmem, hgraph, hrole,
    (tableHeaders_iff hrole hgraph hmem).mpr (.unnamed hnone hheaded)⟩

/-- A cell that names a header of another table counts as a cell with a header of its own. -/
theorem foreignHeader_accepted : ∃ doc graph, ∃ cell ∈ graph.nodes,
    Parser.parse ⟨{}, none⟩ Crates.unused twoTablesSource = .ok doc
      ∧ buildAccessibilityGraph Crates.unused doc.model {} = .ok graph ∧ cell.normalizedRole = "TD"
      ∧ structureElementProperty graph doc.model cell "hasConnectedHeader" = .ok (.bool true)
      ∧ ¬ HeadersOfTable graph cell doc.model := by
  obtain ⟨doc, graph, -, -, second, hmem, hparse, hgraph, -, -, -, hrole, hheaders, hforeign, hnot,
    hconnected⟩ := twoTables_parts
  have hproperty : structureElementProperty graph doc.model second "hasConnectedHeader"
      = .ok (.bool true) := by
    change Except.ok (ModelValue.bool (hasConnectedTableHeader graph second)) = _
    rw [hconnected]
  refine ⟨doc, graph, second, hmem, hparse, hgraph, hrole, hproperty, ?_⟩
  intro h
  rcases h.connected.mp hproperty with ⟨-, hnamed⟩ | hheaded
  · have hown := hnamed "a" (by simp [hheaders])
    rw [hforeign] at hown
    cases hown
  · rw [hnot] at hheaded
    cases hheaded

end Pdfv
