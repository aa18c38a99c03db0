import Pdfv.Accessibility.TableGrid
/-!
# The analysis of tables

The analysis of a table against its own grid: the cells of its own rows in their places. The analysis
takes the rows and cells of nested tables for its own, and it measures a row by its last cell alone, so
that a row which cells from above fill up to its end is found too short. `tableRecognised_iff` says for
which tables neither matters.
-/

namespace Pdfv

open Loop Fallible Preorder Slots

/-! ## Tables and what is found about them -/

section Analysis

variable (graph : AccessibilityGraph) (table : AccessibilityNode)

/-- The rows and cells inside the table are its own: no row stands in a nested table, and no cell of a
row stands in another row or table inside that row. -/
structure Unnested : Prop where
  rows : ∀ row ∈ graph.nodes, IsInside graph.nodes table row → row.normalizedRole = "TR" →
    inTable graph table row = true
  cells : ∀ row ∈ gridRows graph table, ∀ cell ∈ graph.nodes, IsInside graph.nodes row cell →
    ["TH", "TD"].contains cell.normalizedRole = true →
    (innermost graph ["TR", "Table"] cell).any (fun own => own.id = row.id) = true

/-- The grid and the widths of the rows that the analysis computes. -/
def tableWidths : Except PdfvError (TableGrid × List Nat) :=
  (tableRows graph table).zipIdx.foldlM (placeRow graph (tableRows graph table).length) (⟨[], false, 0⟩, [])

/-- The rows that the analysis finds wrong. It reports their number and the first of them. -/
def reportedRows : Except PdfvError (List Nat) :=
  (tableWidths graph table).map fun found => wrongRows found.2

/-- What is found about a table is what its own grid shows. -/
structure TableRecognised (analysis : TableAnalysis) : Prop where
  intersection : analysis.hasIntersection = true ↔ Clash (tableLayout graph table)
  rows : reportedRows graph table
    = .ok (unevenRows (tableLayout graph table) (gridRows graph table).length)
  count : analysis.wrongColumnSpanRows
    = if unevenRows (tableLayout graph table) (gridRows graph table).length = [] then none
      else some (unevenRows (tableLayout graph table) (gridRows graph table).length).length
  detail : analysis.wrongColumnSpanDetail
    = (unevenRows (tableLayout graph table) (gridRows graph table).length).head?.map fun index =>
      s!"row:{index}"
  regular : Regular (tableLayout graph table) (gridRows graph table).length →
    analysis.hasIntersection = false ∧ analysis.wrongRowSpanColumns = none
      ∧ analysis.wrongColumnSpanRows = none

end Analysis

/-! ## The analysis -/

section Recognised

variable {graph : AccessibilityGraph} {table : AccessibilityNode}

/-- The analysis is what the grid and the widths give, also for a table without rows. -/
theorem tableAnalysis_eq (htable : table.normalizedRole = "Table") {analysis : TableAnalysis}
    (hok : tableAnalysis graph table = .ok analysis) :
    ∃ found, tableWidths graph table = .ok found ∧ analysis = {
      hasIntersection := found.1.hasIntersection
      wrongRowSpanColumns :=
        if found.1.wrongRowSpanColumns > 0 then some found.1.wrongRowSpanColumns else none
      wrongColumnSpanRows :=
        if wrongRows found.2 = [] then none else some (wrongRows found.2).length
      wrongColumnSpanDetail := (wrongRows found.2).head?.map fun index => s!"row:{index}" } := by
  unfold tableAnalysis at hok
  rw [if_neg (by simp [htable])] at hok
  dsimp only at hok
  unfold tableWidths
  split at hok
  · rename_i hempty
    rw [List.isEmpty_iff] at hempty
    cases hok
    rw [hempty]
    exact ⟨_, rfl, rfl⟩
  · obtain ⟨found, hfound, hok⟩ := bind_eq_ok.mp hok
    cases hok
    refine ⟨found, hfound, ?_⟩
    unfold wrongRows
    simp only [List.isEmpty_iff]

/-- The layout of a table whose rows and cells are those that the source finds. -/
theorem tableLayout_eq (hrows : tableRows graph table = gridRows graph table)
    (hcells : ∀ row ∈ gridRows graph table, tableCells graph row = gridCells graph row) :
    tableLayout graph table = (tableRows graph table).zipIdx.foldl
      (fun placed row => placeCells row.2 (tableCells graph row.1) 0 placed) [] := by
  unfold tableLayout
  rw [hrows]
  apply List.foldl_ext
  intro placed row hrow
  obtain ⟨hlt, heq⟩ := List.mem_zipIdx' hrow
  rw [hcells row.1 (heq ▸ List.getElem_mem hlt)]

/-- With its own rows and cells, a table is recognised exactly when its rows are closed. -/
theorem recognised_iff_closed (htable : table.normalizedRole = "Table")
    (hrows : tableRows graph table = gridRows graph table)
    (hcells : ∀ row ∈ gridRows graph table, tableCells graph row = gridCells graph row)
    (hspans : ∀ row ∈ tableRows graph table, ∀ cell ∈ tableCells graph row, 0 < cell.rowSpan)
    {analysis : TableAnalysis} (hok : tableAnalysis graph table = .ok analysis) :
    TableRecognised graph table analysis
      ↔ RowsClosed (tableLayout graph table) (gridRows graph table).length := by
  obtain ⟨⟨grid, widths⟩, hwidths, rfl⟩ := tableAnalysis_eq htable hok
  have hstart : RowsPlaced (tableRows graph table).length 0 ⟨[], false, 0⟩ [] [] := by
    refine ⟨⟨fun slot => ?_, ?_, ?_⟩, ?_, rfl, ?_⟩
    · simp [Covered]
    · simp [Clash]
    · exact fun hpos => absurd hpos (Nat.lt_irrefl 0)
    · exact fun cell hcell => absurd hcell List.not_mem_nil
    · exact fun row hrow => absurd hrow (Nat.not_lt_zero row)
  have hplaced := hstart.rows hspans (show _ = Except.ok (grid, widths) from hwidths)
  rw [← tableLayout_eq hrows hcells, Nat.zero_add, hrows] at hplaced
  have hreported : reportedRows graph table = .ok (wrongRows widths) := by
    unfold reportedRows
    rw [hwidths]
    rfl
  have hiff : wrongRows widths = unevenRows (tableLayout graph table) (gridRows graph table).length
      ↔ RowsClosed (tableLayout graph table) (gridRows graph table).length := by
    rcases Nat.eq_zero_or_pos (gridRows graph table).length with hzero | hpos
    · rw [hzero] at hplaced ⊢
      refine iff_of_true ?_ ⟨fun row hrow => ?_, fun row hrow => ?_⟩
      · rw [hplaced.widths]
        rfl
      · exact absurd hrow (Nat.not_lt_zero row)
      · exact absurd hrow (Nat.not_lt_zero row)
    · exact wrongRows_eq_unevenRows_iff hplaced.widths hplaced.below hplaced.filled hpos
  rw [← hiff]
  constructor
  · intro hrecognised
    have hrowsReported := hrecognised.rows
    rw [hreported] at hrowsReported
    exact Except.ok.inj hrowsReported
  · intro heq
    refine ⟨hplaced.grid.intersection, by rw [hreported, heq], by rw [heq], by rw [heq], ?_⟩
    intro hregular
    refine ⟨?_, ?_, ?_⟩
    · rw [← Bool.not_eq_true, hplaced.grid.intersection]
      exact hregular.not_clash
    · exact if_neg fun hpos => hregular.within hplaced.below (hplaced.grid.beyond hpos)
    · rw [heq, hregular.unevenRows]
      rfl

/-! ## Own rows and cells -/

/-- Two parts of a list without duplicates that have the same elements are the same. -/
theorem eq_of_sublists {α : Type} {l s s' : List α} (hl : l.Nodup) (hs : s.Sublist l)
    (hs' : s'.Sublist l) (hmem : ∀ a, a ∈ s ↔ a ∈ s') : s = s' := by
  induction l generalizing s s' with
  | nil => rw [List.sublist_nil.mp hs, List.sublist_nil.mp hs']
  | cons a l ih =>
    obtain ⟨ha, hl⟩ := List.nodup_cons.mp hl
    cases hs with
    | cons _ hs =>
      cases hs' with
      | cons _ hs' => exact ih hl hs hs' hmem
      | cons_cons _ hs' => exact absurd (hs.subset ((hmem a).mpr List.mem_cons_self)) ha
    | cons_cons _ hs =>
      cases hs' with
      | cons _ hs' => exact absurd (hs'.subset ((hmem a).mp List.mem_cons_self)) ha
      | cons_cons _ hs' =>
        rw [ih hl hs hs' fun b => ?_]
        have hb := hmem b
        rw [List.mem_cons, List.mem_cons] at hb
        constructor
        · intro hmem
          exact (hb.mp (.inr hmem)).resolve_left fun heq => ha (heq ▸ hs.subset hmem)
        · intro hmem
          exact (hb.mpr (.inr hmem)).resolve_left fun heq => ha (heq ▸ hs'.subset hmem)

variable {crates : Crates} {doc : ModelDocument} {limits : ResourceLimits}

theorem nodes_nodup (hgraph : buildAccessibilityGraph crates doc limits = .ok graph) :
    graph.nodes.Nodup := by
  obtain ⟨hlinked, -, -⟩ := buildAccessibilityGraph_linked hgraph
  have hids := hlinked.ids_eq
  exact List.Nodup.of_map AccessibilityNode.id (hids ▸ List.nodup_range)

/-- What is inside an element is found in the order of the document. -/
theorem tableDescendants_sublist (hgraph : buildAccessibilityGraph crates doc limits = .ok graph)
    {outer : AccessibilityNode} (houter : outer ∈ graph.nodes) :
    (tableDescendants graph outer).Sublist graph.nodes := by
  obtain ⟨hlinked, -, -⟩ := buildAccessibilityGraph_linked hgraph
  have hlt := hlinked.lt_length houter
  have hstart := Preorder.visit_children_prefix hlinked.parentIn_lt
    (buildAccessibilityGraph_numbered hgraph) hlt (Nat.le_succ graph.nodes.length)
  have hrange : (List.range' (outer.id + 1) (graph.nodes.length - (outer.id + 1))).Sublist
      (List.range graph.nodes.length) := by
    have hsplit : List.range graph.nodes.length = List.range' 0 (outer.id + 1)
        ++ List.range' (outer.id + 1) (graph.nodes.length - (outer.id + 1)) := by
      rw [List.range_eq_range', ← show outer.id + 1 + (graph.nodes.length - (outer.id + 1))
        = graph.nodes.length by omega, ← List.range'_append]
      simp
    rw [hsplit]
    exact List.sublist_append_right _ _
  unfold tableDescendants
  rw [descendantsLoop_eq, hlinked.children_eq, hlinked.children outer houter]
  unfold childIds
  rw [hlinked.filter_parent]
  have hsub := (hstart.sublist.trans hrange).filterMap graph.node
  rwa [show (List.range graph.nodes.length).filterMap graph.node = graph.nodes from
    filterMap_getElem?_range graph.nodes] at hsub

/-- The nearest element of a type around an element, when it is this one. -/
theorem inside_of_innermost (hgraph : buildAccessibilityGraph crates doc limits = .ok graph)
    {types : List String} {outer inner : AccessibilityNode} (houter : outer ∈ graph.nodes)
    (hinner : inner ∈ graph.nodes)
    (h : (innermost graph types inner).any (fun own => own.id = outer.id) = true) :
    IsInside graph.nodes outer inner := by
  obtain ⟨hlinked, -, -⟩ := buildAccessibilityGraph_linked hgraph
  simp only [Option.any_eq_true] at h
  obtain ⟨own, hown, hid⟩ := h
  obtain ⟨hmem, hinside⟩ := innermost_inside hlinked hinner hown
  rwa [hlinked.eq_of_id hmem houter (of_decide_eq_true hid)] at hinside

theorem tableRows_eq (hgraph : buildAccessibilityGraph crates doc limits = .ok graph)
    (hmem : table ∈ graph.nodes) (hunnested : Unnested graph table) :
    tableRows graph table = gridRows graph table := by
  unfold tableRows gridRows
  rw [buildAccessibilityGraph_documentOrder hgraph]
  refine eq_of_sublists (nodes_nodup hgraph)
    (List.filter_sublist.trans (tableDescendants_sublist hgraph hmem)) List.filter_sublist fun row => ?_
  rw [List.mem_filter, List.mem_filter, mem_tableDescendants hgraph hmem, Bool.and_eq_true,
    decide_eq_true_eq]
  constructor
  · rintro ⟨⟨hrow, hinside⟩, hrole⟩
    exact ⟨hrow, hrole, hunnested.rows row hrow hinside hrole⟩
  · rintro ⟨hrow, hrole, hown⟩
    exact ⟨⟨hrow, inside_of_innermost hgraph hmem hrow hown⟩, hrole⟩

theorem tableCells_eq (hgraph : buildAccessibilityGraph crates doc limits = .ok graph)
    (hunnested : Unnested graph table) {row : AccessibilityNode} (hrow : row ∈ gridRows graph table) :
    tableCells graph row = gridCells graph row := by
  have hmem : row ∈ graph.nodes := by
    unfold gridRows at hrow
    rw [buildAccessibilityGraph_documentOrder hgraph] at hrow
    exact (List.mem_filter.mp hrow).1
  have hrole : ∀ cell : AccessibilityNode,
      (cell.normalizedRole = "TH" || cell.normalizedRole = "TD")
        = ["TH", "TD"].contains cell.normalizedRole := by
    intro cell
    simp
  unfold tableCells gridCells
  rw [buildAccessibilityGraph_documentOrder hgraph]
  refine eq_of_sublists (nodes_nodup hgraph)
    (List.filter_sublist.trans (tableDescendants_sublist hgraph hmem)) List.filter_sublist fun cell => ?_
  rw [List.mem_filter, List.mem_filter, mem_tableDescendants hgraph hmem, Bool.and_eq_true, hrole]
  constructor
  · rintro ⟨⟨hcell, hinside⟩, hrole⟩
    exact ⟨hcell, hrole, hunnested.cells row hrow cell hcell hinside hrole⟩
  · rintro ⟨hcell, hrole, hown⟩
    exact ⟨⟨hcell, inside_of_innermost hgraph hmem hcell hown⟩, hrole⟩

/-! ## Spans -/

theorem attributePositive_pos {dictionary : Dictionary} {name : String} :
    0 < (doc.attributePositive dictionary name).getD 1 := by
  cases hvalue : doc.attributePositive dictionary name with
  | none => exact Nat.one_pos
  | some value =>
    unfold ModelDocument.attributePositive at hvalue
    obtain ⟨found, -, hfound⟩ := List.exists_of_findSome?_eq_some hvalue
    have hspec := (Option.filter_eq_some_iff.mp hfound).2
    rw [Bool.and_eq_true, decide_eq_true_eq, decide_eq_true_eq] at hspec
    exact hspec.2

/-- The elements of a traversal span a row at least. -/
def Spanning (s : TraversalState) : Prop :=
  Numbered s ∧ ∀ node ∈ s.graph.nodes, 0 < node.rowSpan

theorem Spanning.step {structTree : Dictionary} {map : List (String × String)}
    {pageOrdinals : OrdMap ObjectKey Nat} {s s' : TraversalState} (h : Spanning s)
    (hstep : traverseStep doc limits structTree map pageOrdinals s = .next s') : Spanning s' := by
  obtain ⟨hnumbered, hspans⟩ := h
  refine ⟨hnumbered.step hstep, ?_⟩
  obtain ⟨item, stack, -, hpass⟩ := traverseStep_next hstep
  cases hpass with
  | dropped _ hnodes _ =>
    rw [hnodes]
    exact hspans
  | spread _ _ _ hgraph _ =>
    rw [hgraph]
    exact hspans
  | element found role node kids _ _ _ _ _ _ _ hnode hnodes =>
    obtain ⟨contentItems, containsRef, hnode⟩ := hnode
    rw [hnodes, addChild_nodes hnumbered.1]
    intro other hother
    rcases List.mem_append.mp hother with hother | hother
    · obtain ⟨old, hold, rfl⟩ := List.mem_map.mp hother
      unfold withChild
      split
      · exact hspans old hold
      · exact hspans old hold
    · rw [List.mem_singleton.mp hother, hnode]
      exact attributePositive_pos

theorem rowSpan_pos (hgraph : buildAccessibilityGraph crates doc limits = .ok graph) :
    ∀ node ∈ graph.nodes, 0 < node.rowSpan := by
  rcases buildAccessibilityGraph_nodes hgraph with hnone | hsome
  · rw [hnone]
    exact fun node hnode => absurd hnode List.not_mem_nil
  · obtain ⟨structTree, pageOrdinals, root, start, traversed, -, hstart, htraversed, hnodes⟩ := hsome
    rw [hnodes]
    have hinitial : Spanning (traversalStart root start) := by
      unfold Spanning Numbered traversalStart
      rw [hstart]
      exact ⟨⟨fun i node hnode => (by cases hnode), Growing.start⟩,
        fun node hnode => absurd hnode List.not_mem_nil⟩
    suffices hended : ∀ graph, traverseStructureTree doc limits structTree (roleMap structTree)
        pageOrdinals root start = .ok graph → ∃ s, Spanning s ∧ graph = s.graph by
      obtain ⟨s, hs, rfl⟩ := hended traversed htraversed
      exact hs.2
    refine runLoop_inv Spanning (fun (r : Except PdfvError AccessibilityGraph) =>
      ∀ graph, r = .ok graph → ∃ s, Spanning s ∧ graph = s.graph) ?_ ?_ ?_ hinitial
    · exact fun s s' hs hstep => hs.step hstep
    · rintro s r hs hdone graph rfl
      exact ⟨s, hs, traverseStep_done hdone⟩
    · rintro s hs graph hgive
      cases hgive
      exact ⟨s, hs, rfl⟩

/-- A table without nested rows and cells is recognised exactly when its rows are closed. -/
theorem tableRecognised_iff (hgraph : buildAccessibilityGraph crates doc limits = .ok graph)
    (hmem : table ∈ graph.nodes) (htable : table.normalizedRole = "Table")
    (hunnested : Unnested graph table) {analysis : TableAnalysis}
    (hok : tableAnalysis graph table = .ok analysis) :
    TableRecognised graph table analysis
      ↔ RowsClosed (tableLayout graph table) (gridRows graph table).length := by
  refine recognised_iff_closed htable (tableRows_eq hgraph hmem hunnested)
    (fun row hrow => tableCells_eq hgraph hunnested hrow) (fun row hrow cell hcell => ?_) hok
  have hrow := (tableDescendants_sublist hgraph hmem).subset (List.mem_filter.mp hrow).1
  exact rowSpan_pos hgraph cell
    ((tableDescendants_sublist hgraph hrow).subset (List.mem_filter.mp hcell).1)

/-! ## Checks -/

/-- The rows and cells that the source finds are the own ones. -/
theorem unnested_of_found (hgraph : buildAccessibilityGraph crates doc limits = .ok graph)
    (hmem : table ∈ graph.nodes)
    (hrows : ∀ row ∈ tableRows graph table, inTable graph table row = true)
    (hcells : ∀ row ∈ gridRows graph table, ∀ cell ∈ tableCells graph row,
      (innermost graph ["TR", "Table"] cell).any (fun own => own.id = row.id) = true) :
    Unnested graph table := by
  refine ⟨fun row hrow hinside hrole => hrows row ?_, fun row hrow cell hcell hinside hrole =>
    hcells row hrow cell ?_⟩
  · exact List.mem_filter.mpr
      ⟨(mem_tableDescendants hgraph hmem).mpr ⟨hrow, hinside⟩, decide_eq_true hrole⟩
  · have hrowMem : row ∈ graph.nodes := by
      unfold gridRows at hrow
      rw [buildAccessibilityGraph_documentOrder hgraph] at hrow
      exact (List.mem_filter.mp hrow).1
    exact List.mem_filter.mpr
      ⟨(mem_tableDescendants hgraph hrowMem).mpr ⟨hcell, hinside⟩, by simpa using hrole⟩

/-- A layout is regular when its cells stay in a rectangle and cover each place of it once. -/
theorem regular_of_bounded {placed : List PlacedCell} {rows columns : Nat}
    (hbounds : ∀ cell ∈ placed, cell.row + cell.rowSpan ≤ rows ∧ cell.ending ≤ columns)
    (honce : ∀ row < rows, ∀ column < columns,
      placed.countP (fun cell => cell.covers row column) = 1) : Regular placed rows := by
  refine ⟨columns, fun row column => ?_⟩
  split
  · rename_i hin
    exact honce row hin.1 column hin.2
  · rename_i hout
    refine List.countP_eq_zero.mpr fun cell hcell hcovers => ?_
    have hbound := hbounds cell hcell
    rw [PlacedCell.covers_iff] at hcovers
    omega

end Recognised

/-! ## Tables -/

/-- A document with one table of these rows. -/
def tableSource (rows : String) : Bytes :=
  utf8 ("%PDF-1.7\n1 0 obj<</Type/Catalog/StructTreeRoot 2 0 R>>endobj\n"
    ++ "2 0 obj<</Type/StructTreeRoot/K 3 0 R>>endobj\n"
    ++ "3 0 obj<</S/Table/K[" ++ rows ++ "]>>endobj\n"
    ++ "trailer<</Root 1 0 R>>\n%%EOF")

/-- The first element of the document is a table with an analysis that passes a check. -/
def firstTable (source : Bytes)
    (check : AccessibilityGraph → AccessibilityNode → TableAnalysis → Bool) : Bool :=
  ((Parser.parse ⟨{}, none⟩ Crates.unused source).toOption.bind fun doc =>
    (buildAccessibilityGraph Crates.unused doc.model {}).toOption.bind fun graph =>
      graph.nodes.head?.bind fun table =>
        (tableAnalysis graph table).toOption.map fun analysis =>
          table.normalizedRole = "Table" && check graph table analysis) = some true

theorem toOption_eq_some {ε α : Type} {x : Except ε α} {a : α} (h : x.toOption = some a) :
    x = .ok a := by
  cases x with
  | error e => cases h
  | ok b =>
    cases h
    rfl

theorem firstTable_spec {source : Bytes}
    {check : AccessibilityGraph → AccessibilityNode → TableAnalysis → Bool}
    (h : firstTable source check = true) : ∃ doc graph table analysis,
      buildAccessibilityGraph Crates.unused doc {} = .ok graph ∧ table ∈ graph.nodes
        ∧ table.normalizedRole = "Table" ∧ tableAnalysis graph table = .ok analysis
        ∧ check graph table analysis = true := by
  obtain ⟨doc, -, h⟩ := Option.bind_eq_some_iff.mp (of_decide_eq_true h)
  obtain ⟨graph, hgraph, h⟩ := Option.bind_eq_some_iff.mp h
  obtain ⟨table, htable, h⟩ := Option.bind_eq_some_iff.mp h
  obtain ⟨analysis, hanalysis, h⟩ := Option.map_eq_some_iff.mp h
  obtain ⟨hrole, hcheck⟩ := Bool.and_eq_true_iff.mp h
  exact ⟨doc.model, graph, table, analysis, toOption_eq_some hgraph, List.mem_of_head? htable,
    of_decide_eq_true hrole, toOption_eq_some hanalysis, hcheck⟩

/-- Two rows, the second ended by a cell of its own that is below one of two columns. -/
def closedTable : Bytes :=
  tableSource "<</S/TR/K[<</S/TH/A<</RowSpan 2>>>><</S/TD>>]>><</S/TR/K[<</S/TD>>]>>"

/-- The bytes of this document. -/
def closedTableBytes : Bytes :=
  [37, 80, 68, 70, 45, 49, 46, 55, 10, 49, 32, 48, 32, 111, 98, 106, 60, 60, 47, 84, 121, 112, 101,
   47, 67, 97, 116, 97, 108, 111, 103, 47, 83, 116, 114, 117, 99, 116, 84, 114, 101, 101, 82, 111,
   111, 116, 32, 50, 32, 48, 32, 82, 62, 62, 101, 110, 100, 111, 98, 106, 10, 50, 32, 48, 32, 111,
   98, 106, 60, 60, 47, 84, 121, 112, 101, 47, 83, 116, 114, 117, 99, 116, 84, 114, 101, 101, 82,
   111, 111, 116, 47, 75, 32, 51, 32, 48, 32, 82, 62, 62, 101, 110, 100, 111, 98, 106, 10, 51, 32,
   48, 32, 111, 98, 106, 60, 60, 47, 83, 47, 84, 97, 98, 108, 101, 47, 75, 91, 60, 60, 47, 83, 47,
   84, 82, 47, 75, 91, 60, 60, 47, 83, 47, 84, 72, 47, 65, 60, 60, 47, 82, 111, 119, 83, 112, 97,
   110, 32, 50, 62, 62, 62, 62, 60, 60, 47, 83, 47, 84, 68, 62, 62, 93, 62, 62, 60, 60, 47, 83, 47,
   84, 82, 47, 75, 91, 60, 60, 47, 83, 47, 84, 68, 62, 62, 93, 62, 62, 93, 62, 62, 101, 110, 100,
   111, 98, 106, 10, 116, 114, 97, 105, 108, 101, 114, 60, 60, 47, 82, 111, 111, 116, 32, 49, 32,
   48, 32, 82, 62, 62, 10, 37, 37, 69, 79, 70]

theorem closedTable_eq : closedTable = closedTableBytes := by
  unfold closedTable tableSource
  rw [utf8_append, utf8_append, utf8_append, utf8_append, utf8_append, utf8_eq_flatMap rfl,
    utf8_eq_flatMap rfl, utf8_eq_flatMap rfl, utf8_eq_flatMap rfl, utf8_eq_flatMap rfl,
    utf8_eq_flatMap rfl]
  decide +kernel

theorem closedTable_run : firstTable closedTable (fun graph table _ =>
    (tableRows graph table).all (fun row => inTable graph table row)
      && (gridRows graph table).all (fun row => (tableCells graph row).all fun cell =>
        (innermost graph ["TR", "Table"] cell).any fun own => own.id = row.id)
      && decide (∀ row < (gridRows graph table).length, rowEnd (tableLayout graph table) row
        = widestRow (tableLayout graph table) (gridRows graph table).length
        ∧ 0 < rowEnd (tableLayout graph table) row)) = true := by
  rw [closedTable_eq]
  decide +kernel

/-- A cell from above in the first column. -/
theorem tableRecognised_closed : ∃ doc graph table analysis,
    buildAccessibilityGraph Crates.unused doc {} = .ok graph ∧ table ∈ graph.nodes
      ∧ tableAnalysis graph table = .ok analysis ∧ TableRecognised graph table analysis := by
  obtain ⟨doc, graph, table, analysis, hgraph, hmem, hrole, hok, hcheck⟩ :=
    firstTable_spec closedTable_run
  simp only [Bool.and_eq_true, List.all_eq_true, decide_eq_true_eq] at hcheck
  obtain ⟨⟨hrows, hcells⟩, hends⟩ := hcheck
  refine ⟨doc, graph, table, analysis, hgraph, hmem, hok,
    (tableRecognised_iff hgraph hmem hrole (unnested_of_found hgraph hmem hrows hcells) hok).mpr
      ⟨fun row hrow _ _ => (hends row hrow).1, fun row hrow hzero => ?_⟩⟩
  have := (hends row hrow).2
  omega

/-- The same two rows with the tall cell in the last column. -/
def openTable : Bytes :=
  tableSource "<</S/TR/K[<</S/TH>><</S/TD/A<</RowSpan 2>>>>]>><</S/TR/K[<</S/TD>>]>>"

/-- The bytes of this document. -/
def openTableBytes : Bytes :=
  [37, 80, 68, 70, 45, 49, 46, 55, 10, 49, 32, 48, 32, 111, 98, 106, 60, 60, 47, 84, 121, 112, 101,
   47, 67, 97, 116, 97, 108, 111, 103, 47, 83, 116, 114, 117, 99, 116, 84, 114, 101, 101, 82, 111,
   111, 116, 32, 50, 32, 48, 32, 82, 62, 62, 101, 110, 100, 111, 98, 106, 10, 50, 32, 48, 32, 111,
   98, 106, 60, 60, 47, 84, 121, 112, 101, 47, 83, 116, 114, 117, 99, 116, 84, 114, 101, 101, 82,
   111, 111, 116, 47, 75, 32, 51, 32, 48, 32, 82, 62, 62, 101, 110, 100, 111, 98, 106, 10, 51, 32,
   48, 32, 111, 98, 106, 60, 60, 47, 83, 47, 84, 97, 98, 108, 101, 47, 75, 91, 60, 60, 47, 83, 47,
   84, 82, 47, 75, 91, 60, 60, 47, 83, 47, 84, 72, 62, 62, 60, 60, 47, 83, 47, 84, 68, 47, 65, 60,
   60, 47, 82, 111, 119, 83, 112, 97, 110, 32, 50, 62, 62, 62, 62, 93, 62, 62, 60, 60, 47, 83, 47,
   84, 82, 47, 75, 91, 60, 60, 47, 83, 47, 84, 68, 62, 62, 93, 62, 62, 93, 62, 62, 101, 110, 100,
   111, 98, 106, 10, 116, 114, 97, 105, 108, 101, 114, 60, 60, 47, 82, 111, 111, 116, 32, 49, 32,
   48, 32, 82, 62, 62, 10, 37, 37, 69, 79, 70]

theorem openTable_eq : openTable = openTableBytes := by
  unfold openTable tableSource
  rw [utf8_append, utf8_append, utf8_append, utf8_append, utf8_append, utf8_eq_flatMap rfl,
    utf8_eq_flatMap rfl, utf8_eq_flatMap rfl, utf8_eq_flatMap rfl, utf8_eq_flatMap rfl,
    utf8_eq_flatMap rfl]
  decide +kernel

theorem openTable_run : firstTable openTable (fun graph table analysis =>
    analysis.wrongColumnSpanRows = some 1
      && (tableLayout graph table).all (fun cell =>
        cell.row + cell.rowSpan ≤ (gridRows graph table).length && cell.ending ≤ 2)
      && (List.range (gridRows graph table).length).all fun row => (List.range 2).all fun column =>
        (tableLayout graph table).countP (fun cell => cell.covers row column) = 1) = true := by
  rw [openTable_eq]
  decide +kernel

/-- A regular table of two rows and two columns: its second row is found too short. -/
theorem openTable_refused : ∃ doc graph table analysis,
    buildAccessibilityGraph Crates.unused doc {} = .ok graph ∧ table ∈ graph.nodes
      ∧ table.normalizedRole = "Table" ∧ tableAnalysis graph table = .ok analysis
      ∧ Regular (tableLayout graph table) (gridRows graph table).length
      ∧ analysis.wrongColumnSpanRows = some 1 ∧ ¬ TableRecognised graph table analysis := by
  obtain ⟨doc, graph, table, analysis, hgraph, hmem, hrole, hok, hcheck⟩ :=
    firstTable_spec openTable_run
  simp only [Bool.and_eq_true, List.all_eq_true, decide_eq_true_eq, List.mem_range] at hcheck
  obtain ⟨⟨hone, hbounds⟩, honce⟩ := hcheck
  have hregular := regular_of_bounded hbounds honce
  refine ⟨doc, graph, table, analysis, hgraph, hmem, hrole, hok, hregular, hone, fun hrecognised => ?_⟩
  have hnone := (hrecognised.regular hregular).2.2
  rw [hone] at hnone
  cases hnone

end Pdfv
