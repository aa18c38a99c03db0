import Pdfv.Accessibility.TableHeaders
import Pdfv.Basic.Slots
/-!
# The grid of a table

The cells of a table in their places (`tableLayout`), and what the source computes while it places them:
the places that are taken, whether one is taken twice, and the end of each row (`RowsPlaced`). A row may
cover more than what lies before its end, by cells from above; `wrongRows_eq_unevenRows_iff` says when
this makes no difference to the rows that are found wrong.
-/

namespace Pdfv

open Fallible Slots

/-! ## The own grid -/

section Layout

variable (placed : List PlacedCell)

/-- A cell is at this place. -/
def Covered (row column : Nat) : Prop :=
  ∃ cell ∈ placed, cell.covers row column = true

/-- Two cells have a place in common. -/
def PlacedCell.Meets (cell other : PlacedCell) : Prop :=
  ∃ row column, cell.covers row column = true ∧ other.covers row column = true

/-- Two of the cells claim the same place. -/
def Clash : Prop :=
  ¬ placed.Pairwise fun cell other => ¬ cell.Meets other

/-- The first column to the right of a cell. -/
def PlacedCell.ending (cell : PlacedCell) : Nat :=
  cell.column + cell.colSpan

/-- The first column to the right of all cells. -/
def gridWidth : Nat :=
  largest (placed.map PlacedCell.ending)

/-- The number of places that are covered in a row, by its own cells and by cells from above. -/
def rowSlots (row : Nat) : Nat :=
  (List.range (gridWidth placed)).countP fun column => placed.any fun cell => cell.covers row column

/-- The number of places of the widest row. -/
def widestRow (rows : Nat) : Nat :=
  largest ((List.range rows).map (rowSlots placed))

/-- The rows that do not cover as many places as the widest. -/
def unevenRows (rows : Nat) : List Nat :=
  (List.range rows).filter fun row => rowSlots placed row ≠ widestRow placed rows

/-- The cells cover a rectangle, each place once. -/
def Regular (rows : Nat) : Prop :=
  ∃ columns, ∀ row column,
    placed.countP (fun cell => cell.covers row column) = if row < rows ∧ column < columns then 1 else 0

/-- The first column to the right of the own cells of a row. -/
def rowEnd (row : Nat) : Nat :=
  largest ((placed.filter fun cell => cell.row = row).map PlacedCell.ending)

/-- Every row that is as wide as the widest ends with a cell of its own, unless it has none, and a row
without cells is as wide as the widest. -/
structure RowsClosed (rows : Nat) : Prop where
  ended : ∀ row < rows, 0 < rowEnd placed row → rowSlots placed row = widestRow placed rows →
    rowEnd placed row = widestRow placed rows
  filled : ∀ row < rows, rowEnd placed row = 0 → rowSlots placed row = widestRow placed rows

end Layout

/-! ## Free columns -/

section Placement

variable {placed : List PlacedCell}

theorem PlacedCell.covers_iff {cell : PlacedCell} {row column : Nat} :
    cell.covers row column = true ↔ (cell.row ≤ row ∧ row < cell.row + cell.rowSpan)
      ∧ cell.column ≤ column ∧ column < cell.ending := by
  unfold PlacedCell.covers PlacedCell.ending
  simp only [Bool.and_eq_true, decide_eq_true_eq]
  tauto

@[simp] theorem covered_cons {cell : PlacedCell} {row column : Nat} :
    Covered (cell :: placed) row column
      ↔ cell.covers row column = true ∨ Covered placed row column := by
  unfold Covered
  simp

/-- The first free column is found: every pass leaves a cell behind. -/
theorem firstFree_spec (row : Nat) {passes column : Nat}
    (hpasses : placed.countP (fun cell => column < cell.ending) ≤ passes) :
    FirstFree (Covered placed row) column (firstFree placed row passes column) := by
  induction passes generalizing column with
  | zero =>
    apply FirstFree.of_free
    rintro ⟨cell, hcell, hcovers⟩
    have hnone := List.countP_eq_zero.mp (Nat.le_zero.mp hpasses) cell hcell
    exact hnone (decide_eq_true (PlacedCell.covers_iff.mp hcovers).2.2)
  | succ passes ih =>
    rw [firstFree]
    cases hfind : placed.find? fun cell => cell.covers row column with
    | none =>
      apply FirstFree.of_free
      rintro ⟨cell, hcell, hcovers⟩
      exact List.find?_eq_none.mp hfind cell hcell hcovers
    | some cell =>
      have hcell := List.mem_of_find?_eq_some hfind
      have hcovers : cell.covers row column = true :=
        List.find?_some (p := fun cell : PlacedCell => cell.covers row column) hfind
      rw [PlacedCell.covers_iff] at hcovers
      have hfewer : placed.countP (fun other => cell.ending < other.ending)
          < placed.countP fun other => column < other.ending := by
        refine countP_lt (fun other _ hother => ?_) hcell (decide_eq_true hcovers.2.2) (by simp)
        have := of_decide_eq_true hother
        exact decide_eq_true (by omega)
      refine (@ih cell.ending (by omega)).later (by omega) fun between hstart hend => ?_
      exact ⟨cell, hcell, PlacedCell.covers_iff.mpr ⟨hcovers.1, by omega, hend⟩⟩

/-- The search of the source finds the first column that is not taken. -/
theorem firstFreeColumn_spec {occupied : List (Nat × Nat)} {row fuel column found : Nat}
    (hfuel : occupied.countP (fun slot => slot.1 = row ∧ column ≤ slot.2) ≤ fuel)
    (h : firstFreeColumn occupied row fuel column = .ok found) :
    FirstFree (fun column => (row, column) ∈ occupied) column found := by
  induction fuel generalizing column with
  | zero =>
    cases h
    apply FirstFree.of_free
    intro hmem
    have hnone := List.countP_eq_zero.mp (Nat.le_zero.mp hfuel) (row, found) hmem
    exact hnone (by simp)
  | succ fuel ih =>
    rw [firstFreeColumn] at h
    split at h
    · rename_i hmem
      obtain ⟨next, hnext, h⟩ := bind_eq_ok.mp h
      obtain ⟨_, -, hnext⟩ := bind_eq_ok.mp hnext
      cases hnext
      have hfewer : occupied.countP (fun slot => slot.1 = row ∧ column + 1 ≤ slot.2)
          < occupied.countP fun slot => slot.1 = row ∧ column ≤ slot.2 := by
        refine countP_lt (fun slot _ hslot => ?_) hmem (by simp) (by simp)
        have := of_decide_eq_true hslot
        exact decide_eq_true (by omega)
      refine (ih (by omega) h).later (Nat.le_succ column) fun between hstart hend => ?_
      rw [show between = column by omega]
      exact hmem
    · rename_i hmem
      cases h
      exact FirstFree.of_free hmem

/-! ## Placing a cell -/

/-- The places that a cell takes, from its first. -/
def cellOffsets (cell : AccessibilityNode) : List (Nat × Nat) :=
  (List.range cell.rowSpan).flatMap fun rowOffset =>
    (List.range cell.colSpan).map fun columnOffset => (rowOffset, columnOffset)

theorem cellOffsets_nodup (cell : AccessibilityNode) : (cellOffsets cell).Nodup :=
  List.Nodup.product List.nodup_range List.nodup_range

theorem covers_iff_offset {cell : AccessibilityNode} {row column : Nat} {slot : Nat × Nat} :
    (PlacedCell.mk cell.id row column cell.rowSpan cell.colSpan).covers slot.1 slot.2 = true
      ↔ ∃ offset ∈ cellOffsets cell, slot = (row + offset.1, column + offset.2) := by
  rw [PlacedCell.covers_iff]
  unfold cellOffsets PlacedCell.ending
  simp only [List.mem_flatMap, List.mem_map, List.mem_range]
  constructor
  · rintro ⟨⟨hrow, hrow'⟩, hcolumn, hcolumn'⟩
    exact ⟨_, ⟨slot.1 - row, by omega, slot.2 - column, by omega, rfl⟩,
      Prod.ext (by dsimp only; omega) (by dsimp only; omega)⟩
  · rintro ⟨_, ⟨rowOffset, hrow, columnOffset, hcolumn, rfl⟩, rfl⟩
    dsimp only
    omega

theorem occupyCell_ok {row column : Nat} {grid grid' : TableGrid} {offset : Nat × Nat}
    (h : occupyCell row column grid offset = .ok grid') :
    grid' = if (row + offset.1, column + offset.2) ∈ grid.occupied then
        { grid with hasIntersection := true }
      else { grid with occupied := (row + offset.1, column + offset.2) :: grid.occupied } := by
  unfold occupyCell checkedAdd at h
  obtain ⟨targetRow, hrow, h⟩ := bind_eq_ok.mp h
  obtain ⟨_, -, hrow⟩ := bind_eq_ok.mp hrow
  cases hrow
  obtain ⟨targetColumn, hcolumn, h⟩ := bind_eq_ok.mp h
  obtain ⟨_, -, hcolumn⟩ := bind_eq_ok.mp hcolumn
  cases hcolumn
  split at h
  · rename_i hmem
    cases h
    rw [if_pos hmem]
  · rename_i hmem
    cases h
    rw [if_neg hmem]

/-- The places of a cell are taken afterwards, and an intersection is found exactly when one of them
was taken before. -/
theorem occupyCells_ok {row column : Nat} {offsets : List (Nat × Nat)} (hoffsets : offsets.Nodup)
    {grid grid' : TableGrid} (h : offsets.foldlM (occupyCell row column) grid = .ok grid') :
    (∀ slot, slot ∈ grid'.occupied ↔ slot ∈ grid.occupied
        ∨ ∃ offset ∈ offsets, slot = (row + offset.1, column + offset.2))
      ∧ (grid'.hasIntersection = true ↔ grid.hasIntersection = true
        ∨ ∃ offset ∈ offsets, (row + offset.1, column + offset.2) ∈ grid.occupied)
      ∧ grid'.wrongRowSpanColumns = grid.wrongRowSpanColumns := by
  induction offsets generalizing grid with
  | nil =>
    cases h
    simp
  | cons offset offsets ih =>
    rw [List.foldlM_cons] at h
    obtain ⟨next, hnext, h⟩ := bind_eq_ok.mp h
    obtain ⟨hfresh, hoffsets⟩ := List.nodup_cons.mp hoffsets
    obtain ⟨hoccupied, hintersection, hwrong⟩ := ih hoffsets h
    have hother : ∀ other ∈ offsets,
        (row + other.1, column + other.2) ≠ (row + offset.1, column + offset.2) := by
      intro other hother heq
      obtain ⟨hrow, hcolumn⟩ := Prod.mk.inj heq
      have hsame : other = offset := Prod.ext (by omega) (by omega)
      exact hfresh (hsame ▸ hother)
    have hnext := occupyCell_ok hnext
    by_cases hmem : (row + offset.1, column + offset.2) ∈ grid.occupied
    · rw [if_pos hmem] at hnext
      subst hnext
      refine ⟨fun slot => ?_, ?_, hwrong⟩
      · rw [hoccupied, List.exists_mem_cons_iff]
        constructor
        · rintro (hslot | hslot)
          · exact .inl hslot
          · exact .inr (.inr hslot)
        · rintro (hslot | rfl | hslot)
          · exact .inl hslot
          · exact .inl hmem
          · exact .inr hslot
      · rw [hintersection]
        exact iff_of_true (.inl rfl) (.inr ⟨offset, List.mem_cons_self, hmem⟩)
    · rw [if_neg hmem] at hnext
      subst hnext
      refine ⟨fun slot => ?_, ?_, hwrong⟩
      · rw [hoccupied, List.exists_mem_cons_iff, List.mem_cons]
        tauto
      · rw [hintersection, List.exists_mem_cons_iff]
        have hlater : (∃ other ∈ offsets, (row + other.1, column + other.2)
              ∈ (row + offset.1, column + offset.2) :: grid.occupied)
            ↔ ∃ other ∈ offsets, (row + other.1, column + other.2) ∈ grid.occupied := by
          refine exists_congr fun other => and_congr_right fun hmem' => ?_
          rw [List.mem_cons, or_iff_right (hother other hmem')]
        rw [hlater, or_iff_right (a := (row + offset.1, column + offset.2) ∈ grid.occupied) hmem]

/-- The grid of the source shows the cells that have been placed. -/
structure Shows (rows : Nat) (grid : TableGrid) (placed : List PlacedCell) : Prop where
  occupied : ∀ slot : Nat × Nat, slot ∈ grid.occupied ↔ Covered placed slot.1 slot.2
  intersection : grid.hasIntersection = true ↔ Clash placed
  beyond : 0 < grid.wrongRowSpanColumns →
    ∃ cell ∈ placed, 0 < cell.colSpan ∧ rows < cell.row + cell.rowSpan

theorem clash_cons {cell : PlacedCell} :
    Clash (cell :: placed)
      ↔ Clash placed ∨ ∃ row column, cell.covers row column = true ∧ Covered placed row column := by
  unfold Clash PlacedCell.Meets Covered
  rw [List.pairwise_cons, not_and_or, or_comm]
  refine or_congr_right ?_
  push Not
  constructor
  · rintro ⟨other, hother, row, column, hcell, hcovers⟩
    exact ⟨row, column, hcell, other, hother, hcovers⟩
  · rintro ⟨row, column, hcell, other, hother, hcovers⟩
    exact ⟨other, hother, row, column, hcell, hcovers⟩

/-- One cell: it goes to the first free column. -/
theorem placeCell_ok {rows row column width column' width' : Nat} {grid grid' : TableGrid}
    {cell : AccessibilityNode} (hgrid : Shows rows grid placed)
    (h : placeCell rows row (grid, column, width) cell = .ok (grid', column', width')) :
    Shows rows grid' (⟨cell.id, row, firstFree placed row placed.length column, cell.rowSpan,
        cell.colSpan⟩ :: placed)
      ∧ column' = firstFree placed row placed.length column + cell.colSpan
      ∧ width' = max width column' := by
  unfold placeCell at h
  obtain ⟨found, hfound, h⟩ := bind_eq_ok.mp h
  obtain ⟨wrong, hwrong, h⟩ := bind_eq_ok.mp h
  obtain ⟨next, hnext, h⟩ := bind_eq_ok.mp h
  obtain ⟨end', hend, h⟩ := bind_eq_ok.mp h
  obtain ⟨_, -, hend⟩ := bind_eq_ok.mp hend
  cases hend
  cases h
  have hfree : firstFree placed row placed.length column = found := by
    have hsource := firstFreeColumn_spec (Nat.le_trans List.countP_le_length (Nat.le_succ _)) hfound
    have hspec := @firstFree_spec placed row placed.length column List.countP_le_length
    exact hspec.unique (hsource.congr fun other => hgrid.occupied (row, other))
  rw [hfree]
  obtain ⟨hoccupied, hintersection, hsame⟩ := occupyCells_ok (cellOffsets_nodup cell) hnext
  refine ⟨⟨?_, ?_, ?_⟩, rfl, rfl⟩
  · intro slot
    rw [hoccupied, ← covers_iff_offset, covered_cons, hgrid.occupied, or_comm]
  · rw [hintersection, hgrid.intersection, clash_cons]
    refine or_congr_right ?_
    constructor
    · rintro ⟨offset, hoffset, hmem⟩
      exact ⟨_, _, covers_iff_offset.mpr ⟨offset, hoffset, rfl⟩, (hgrid.occupied _).mp hmem⟩
    · rintro ⟨row', column', hcovers, hcovered⟩
      obtain ⟨offset, hoffset, hslot⟩ := (@covers_iff_offset cell row found (row', column')).mp hcovers
      exact ⟨offset, hoffset, hslot ▸ (hgrid.occupied (row', column')).mpr hcovered⟩
  · intro hpositive
    rw [hsame] at hpositive
    unfold countWrongRowSpan checkedAdd at hwrong
    split at hwrong
    · rename_i hbeyond
      obtain ⟨_, -, hwrong⟩ := bind_eq_ok.mp hwrong
      cases hwrong
      by_cases hspan : 0 < cell.colSpan
      · exact ⟨_, List.mem_cons_self, hspan, hbeyond.2⟩
      · obtain ⟨other, hother, hrest⟩ := hgrid.beyond (by dsimp only at hpositive; omega)
        exact ⟨other, List.mem_cons_of_mem _ hother, hrest⟩
    · cases hwrong
      obtain ⟨other, hother, hrest⟩ := hgrid.beyond hpositive
      exact ⟨other, List.mem_cons_of_mem _ hother, hrest⟩

/-! ## Placing the rows -/

/-- All columns of a row up to this one are covered. -/
def Filled (placed : List PlacedCell) (row column : Nat) : Prop :=
  ∀ other < column, Covered placed row other

theorem Filled.append {row column : Nat} (h : Filled placed row column) (more : List PlacedCell) :
    Filled (more ++ placed) row column := by
  intro other hother
  obtain ⟨cell, hcell, hcovers⟩ := h other hother
  exact ⟨cell, List.mem_append_right more hcell, hcovers⟩

theorem rowEnd_cons_self {cell : PlacedCell} {row : Nat} (h : cell.row = row) :
    rowEnd (cell :: placed) row = max cell.ending (rowEnd placed row) := by
  unfold rowEnd
  rw [List.filter_cons_of_pos (by simpa using h), List.map_cons, largest_cons]

theorem rowEnd_append_other {more : List PlacedCell} {row : Nat} (h : ∀ cell ∈ more, cell.row ≠ row) :
    rowEnd (more ++ placed) row = rowEnd placed row := by
  unfold rowEnd
  rw [List.filter_append, List.filter_eq_nil_iff.mpr fun cell hcell => by simpa using h cell hcell,
    List.nil_append]

theorem rowEnd_eq_zero {row : Nat} (h : ∀ cell ∈ placed, cell.row ≠ row) : rowEnd placed row = 0 := by
  unfold rowEnd
  rw [List.filter_eq_nil_iff.mpr fun cell hcell => by simpa using h cell hcell]
  rfl

/-- What holds when the cells of a row have been placed up to a column. -/
structure RowPlaced (rows row : Nat) (grid : TableGrid) (placed : List PlacedCell) (column : Nat) :
    Prop where
  grid : Shows rows grid placed
  ending : rowEnd placed row = column
  filled : Filled placed row column

theorem RowPlaced.cell {rows row column column' width' : Nat} {grid grid' : TableGrid}
    {cell : AccessibilityNode} (h : RowPlaced rows row grid placed column) (hspan : 0 < cell.rowSpan)
    (hok : placeCell rows row (grid, column, column) cell = .ok (grid', column', width')) :
    RowPlaced rows row grid' (⟨cell.id, row, firstFree placed row placed.length column, cell.rowSpan,
        cell.colSpan⟩ :: placed) column'
      ∧ column' = firstFree placed row placed.length column + cell.colSpan ∧ width' = column' := by
  obtain ⟨hgrid, hcolumn, hwidth⟩ := placeCell_ok h.grid hok
  have hfree := @firstFree_spec placed row placed.length column List.countP_le_length
  have hstart := hfree.start_le
  refine ⟨⟨hgrid, ?_, ?_⟩, hcolumn, by omega⟩
  · rw [rowEnd_cons_self rfl, h.ending, hcolumn]
    unfold PlacedCell.ending
    dsimp only
    omega
  · intro other hother
    rw [covered_cons]
    rcases Nat.lt_or_ge other (firstFree placed row placed.length column) with hlt | hge
    · right
      rcases Nat.lt_or_ge other column with hbefore | hafter
      · exact h.filled other hbefore
      · exact hfree.taken_before other hafter hlt
    · left
      rw [PlacedCell.covers_iff]
      unfold PlacedCell.ending
      dsimp only
      omega

/-- A row: its cells fill it up to the end of the last. -/
theorem RowPlaced.cells {rows row column column' width' : Nat} {grid grid' : TableGrid}
    {cells : List AccessibilityNode} (h : RowPlaced rows row grid placed column)
    (hspans : ∀ cell ∈ cells, 0 < cell.rowSpan)
    (hok : cells.foldlM (placeCell rows row) (grid, column, column) = .ok (grid', column', width')) :
    RowPlaced rows row grid' (placeCells row cells column placed) width'
      ∧ ∃ more, placeCells row cells column placed = more ++ placed ∧ ∀ cell ∈ more, cell.row = row := by
  induction cells generalizing grid placed column with
  | nil =>
    cases hok
    exact ⟨h, [], rfl, fun cell hcell => absurd hcell List.not_mem_nil⟩
  | cons cell cells ih =>
    rw [List.foldlM_cons] at hok
    obtain ⟨⟨next, column₁, width₁⟩, hnext, hok⟩ := bind_eq_ok.mp hok
    obtain ⟨hplaced, hcolumn, rfl⟩ := h.cell (hspans cell List.mem_cons_self) hnext
    obtain ⟨hrest, more, hmore, hrow⟩ :=
      ih hplaced (fun cell hcell => hspans cell (List.mem_cons_of_mem _ hcell)) hok
    rw [hcolumn] at hrest hmore
    refine ⟨hrest, more ++ [_], hmore.trans (List.append_cons ..), fun other hother => ?_⟩
    rcases List.mem_append.mp hother with hother | hother
    · exact hrow other hother
    · rw [List.mem_singleton.mp hother]

/-- What holds when the rows of a table have been placed up to a row. -/
structure RowsPlaced (rows count : Nat) (grid : TableGrid) (placed : List PlacedCell)
    (widths : List Nat) : Prop where
  grid : Shows rows grid placed
  below : ∀ cell ∈ placed, cell.row < count
  widths : widths = (List.range count).map (rowEnd placed)
  filled : ∀ row < count, Filled placed row (rowEnd placed row)

variable {graph : AccessibilityGraph}

theorem RowsPlaced.row {rows count : Nat} {grid grid' : TableGrid} {widths widths' : List Nat}
    {row : AccessibilityNode} (h : RowsPlaced rows count grid placed widths)
    (hspans : ∀ cell ∈ tableCells graph row, 0 < cell.rowSpan)
    (hok : placeRow graph rows (grid, widths) (row, count) = .ok (grid', widths')) :
    RowsPlaced rows (count + 1) grid' (placeCells count (tableCells graph row) 0 placed) widths' := by
  have hother : ∀ cell ∈ placed, cell.row ≠ count := fun cell hcell => (h.below cell hcell).ne
  have hstart : RowPlaced rows count grid placed 0 :=
    ⟨h.grid, rowEnd_eq_zero hother, fun other hlt => absurd hlt (Nat.not_lt_zero other)⟩
  unfold placeRow at hok
  obtain ⟨⟨next, column, width⟩, hnext, hok⟩ := bind_eq_ok.mp hok
  cases hok
  obtain ⟨hplaced, more, hmore, hrow⟩ := hstart.cells hspans hnext
  rw [hmore] at hplaced ⊢
  have hkept : ∀ above < count, rowEnd (more ++ placed) above = rowEnd placed above := by
    intro above habove
    refine rowEnd_append_other fun cell hcell => ?_
    rw [hrow cell hcell]
    exact habove.ne'
  refine ⟨hplaced.grid, fun cell hcell => ?_, ?_, fun other hlt => ?_⟩
  · rcases List.mem_append.mp hcell with hcell | hcell
    · rw [hrow cell hcell]
      exact Nat.lt_succ_self count
    · exact Nat.lt_succ_of_lt (h.below cell hcell)
  · rw [List.range_succ, List.map_append, List.map_singleton, hplaced.ending]
    congr 1
    rw [h.widths]
    exact List.map_congr_left fun above habove => (hkept above (List.mem_range.mp habove)).symm
  · rcases Nat.lt_succ_iff_lt_or_eq.mp hlt with hlt | rfl
    · rw [hkept other hlt]
      exact (h.filled other hlt).append more
    · rw [hplaced.ending]
      exact hplaced.filled

/-- A table. -/
theorem RowsPlaced.rows {rows count : Nat} {grid grid' : TableGrid} {widths widths' : List Nat}
    {nodes : List AccessibilityNode} (h : RowsPlaced rows count grid placed widths)
    (hspans : ∀ row ∈ nodes, ∀ cell ∈ tableCells graph row, 0 < cell.rowSpan)
    (hok : (nodes.zipIdx count).foldlM (placeRow graph rows) (grid, widths) = .ok (grid', widths')) :
    RowsPlaced rows (count + nodes.length) grid'
      ((nodes.zipIdx count).foldl
        (fun placed row => placeCells row.2 (tableCells graph row.1) 0 placed) placed) widths' := by
  induction nodes generalizing grid widths placed count with
  | nil =>
    cases hok
    exact h
  | cons row nodes ih =>
    rw [List.zipIdx_cons, List.foldlM_cons] at hok
    obtain ⟨⟨next, widths₁⟩, hnext, hok⟩ := bind_eq_ok.mp hok
    have hplaced := h.row (hspans row List.mem_cons_self) hnext
    have hrest := ih hplaced (fun row hrow => hspans row (List.mem_cons_of_mem _ hrow)) hok
    rw [List.zipIdx_cons, List.foldl_cons, List.length_cons, Nat.add_comm nodes.length,
      ← Nat.add_assoc]
    exact hrest

/-! ## Rows and their widths -/

variable {rows : Nat}

theorem ending_le_gridWidth {cell : PlacedCell} (h : cell ∈ placed) : cell.ending ≤ gridWidth placed :=
  le_largest (List.mem_map_of_mem h)

theorem rowEnd_le_gridWidth (row : Nat) : rowEnd placed row ≤ gridWidth placed := by
  unfold rowEnd
  rw [largest_le_iff]
  intro ending hending
  obtain ⟨cell, hcell, rfl⟩ := List.mem_map.mp hending
  exact ending_le_gridWidth (List.mem_filter.mp hcell).1

theorem rowSlots_le_gridWidth (row : Nat) : rowSlots placed row ≤ gridWidth placed := by
  have hle := List.countP_le_length (l := List.range (gridWidth placed))
    (p := fun column => placed.any fun cell => cell.covers row column)
  rwa [List.length_range] at hle

theorem any_covers_iff {row column : Nat} :
    (placed.any fun cell => cell.covers row column) = true ↔ Covered placed row column :=
  List.any_eq_true

/-- A row covers at least what its own cells fill. -/
theorem rowEnd_le_rowSlots {row : Nat} (h : Filled placed row (rowEnd placed row)) :
    rowEnd placed row ≤ rowSlots placed row := by
  have hsub : List.Sublist (List.range (rowEnd placed row)) (List.range (gridWidth placed)) :=
    List.range_sublist.mpr (rowEnd_le_gridWidth row)
  have hall : (List.range (rowEnd placed row)).countP
      (fun column => placed.any fun cell => cell.covers row column) = rowEnd placed row := by
    rw [List.countP_eq_length.mpr, List.length_range]
    intro column hcolumn
    exact any_covers_iff.mpr (h column (List.mem_range.mp hcolumn))
  have hle := hsub.countP_le (p := fun column => placed.any fun cell => cell.covers row column)
  rwa [hall] at hle

/-- Some row ends in the last column. -/
theorem exists_rowEnd_eq (hbelow : ∀ cell ∈ placed, cell.row < rows) (hrows : 0 < rows) :
    ∃ row < rows, rowEnd placed row = gridWidth placed := by
  by_cases hplaced : placed = []
  · exact ⟨0, hrows, by rw [hplaced]; rfl⟩
  · have hmem := largest_mem (l := placed.map PlacedCell.ending) (by simpa using hplaced)
    obtain ⟨cell, hcell, hending⟩ := List.mem_map.mp hmem
    refine ⟨cell.row, hbelow cell hcell, Nat.le_antisymm (rowEnd_le_gridWidth _) ?_⟩
    show largest _ ≤ _
    rw [← hending]
    exact le_largest (List.mem_map_of_mem (List.mem_filter.mpr ⟨hcell, by simp⟩))

/-- The widest row has as many places as there are columns. -/
theorem widestRow_eq (hbelow : ∀ cell ∈ placed, cell.row < rows) (hrows : 0 < rows)
    (hfilled : ∀ row < rows, Filled placed row (rowEnd placed row)) :
    widestRow placed rows = gridWidth placed := by
  apply Nat.le_antisymm
  · unfold widestRow
    rw [largest_le_iff]
    intro slots hslots
    obtain ⟨row, -, rfl⟩ := List.mem_map.mp hslots
    exact rowSlots_le_gridWidth row
  · obtain ⟨row, hrow, hend⟩ := exists_rowEnd_eq hbelow hrows
    rw [← hend]
    exact Nat.le_trans (rowEnd_le_rowSlots (hfilled row hrow))
      (le_largest (List.mem_map_of_mem (List.mem_range.mpr hrow)))

/-- The widest row of the source is the widest row. -/
theorem largest_rowEnds (hbelow : ∀ cell ∈ placed, cell.row < rows) (hrows : 0 < rows) :
    largest ((List.range rows).map (rowEnd placed)) = gridWidth placed := by
  apply Nat.le_antisymm
  · rw [largest_le_iff]
    intro ending hending
    obtain ⟨row, -, rfl⟩ := List.mem_map.mp hending
    exact rowEnd_le_gridWidth row
  · obtain ⟨row, hrow, hend⟩ := exists_rowEnd_eq hbelow hrows
    rw [← hend]
    exact le_largest (List.mem_map_of_mem (List.mem_range.mpr hrow))

/-- `wrong_rows`. -/
def wrongRows (widths : List Nat) : List Nat :=
  (widths.zipIdx.filter fun row => row.1 > 0 && row.1 ≠ widths.foldl max 0).map Prod.snd

/-- The rows that the source finds wrong: those with cells that do not end in the last column. -/
theorem wrongRows_eq {widths : List Nat} (hwidths : widths = (List.range rows).map (rowEnd placed))
    (hbelow : ∀ cell ∈ placed, cell.row < rows) (hrows : 0 < rows) :
    wrongRows widths = (List.range rows).filter fun row =>
      0 < rowEnd placed row && rowEnd placed row ≠ gridWidth placed := by
  have hlargest : widths.foldl max 0 = gridWidth placed := by
    rw [hwidths]
    exact largest_rowEnds hbelow hrows
  have hindexed : widths.zipIdx = (List.range rows).map fun row => (rowEnd placed row, row) := by
    rw [hwidths]
    apply List.ext_getElem
    · simp
    · intro i h h'
      simp
  unfold wrongRows
  rw [hlargest, hindexed, List.filter_map, List.map_map]
  exact List.map_id'' (fun _ => rfl) _

/-- The rows found wrong are the uneven rows exactly when the rows are closed. -/
theorem wrongRows_eq_unevenRows_iff {widths : List Nat}
    (hwidths : widths = (List.range rows).map (rowEnd placed))
    (hbelow : ∀ cell ∈ placed, cell.row < rows)
    (hfilled : ∀ row < rows, Filled placed row (rowEnd placed row)) (hrows : 0 < rows) :
    wrongRows widths = unevenRows placed rows ↔ RowsClosed placed rows := by
  have hwidest := widestRow_eq hbelow hrows hfilled
  rw [wrongRows_eq hwidths hbelow hrows]
  unfold unevenRows
  rw [hwidest]
  constructor
  · intro heq
    have hmem : ∀ row < rows, (0 < rowEnd placed row ∧ rowEnd placed row ≠ gridWidth placed)
        ↔ rowSlots placed row ≠ gridWidth placed := by
      intro row hrow
      have := congrArg (row ∈ ·) heq
      simpa [List.mem_filter, hrow] using this
    refine ⟨fun row hrow hpositive hslots => ?_, fun row hrow hzero => ?_⟩
    · rw [hwidest] at hslots ⊢
      by_contra hne
      exact (hmem row hrow).mp ⟨hpositive, hne⟩ hslots
    · rw [hwidest]
      by_contra hne
      have := ((hmem row hrow).mpr hne).1
      omega
  · intro hclosed
    apply List.filter_congr
    intro row hrow
    have hrow := List.mem_range.mp hrow
    have hended := hclosed.ended row hrow
    have hzero := hclosed.filled row hrow
    rw [hwidest] at hended hzero
    have hle := rowEnd_le_rowSlots (hfilled row hrow)
    have hslots : rowSlots placed row ≤ gridWidth placed := rowSlots_le_gridWidth row
    have hiff : (0 < rowEnd placed row ∧ rowEnd placed row ≠ gridWidth placed)
        ↔ rowSlots placed row ≠ gridWidth placed := by
      omega
    rw [Bool.eq_iff_iff]
    simpa using hiff

/-! ## Regular tables -/

/-- Where no place is covered twice, no two cells clash. -/
theorem not_clash_of_countP (h : ∀ row column,
    placed.countP (fun cell => cell.covers row column) ≤ 1) : ¬ Clash placed := by
  unfold Clash
  rw [not_not]
  induction placed with
  | nil => exact List.Pairwise.nil
  | cons cell placed ih =>
    refine List.pairwise_cons.mpr ⟨?_, ih fun row column => ?_⟩
    · rintro other hother ⟨row, column, hcell, hcovers⟩
      have hle := h row column
      rw [List.countP_cons_of_pos (p := fun cell : PlacedCell => cell.covers row column) hcell] at hle
      have hone : 0 < placed.countP fun cell => cell.covers row column :=
        List.countP_pos_iff.mpr ⟨other, hother, hcovers⟩
      omega
    · have hle := h row column
      rw [List.countP_cons] at hle
      omega

theorem Regular.not_clash (h : Regular placed rows) : ¬ Clash placed := by
  obtain ⟨columns, hcovers⟩ := h
  refine not_clash_of_countP fun row column => ?_
  rw [hcovers]
  split <;> omega

/-- No cell of a regular table reaches below the last row. -/
theorem Regular.within (h : Regular placed rows) (hbelow : ∀ cell ∈ placed, cell.row < rows) :
    ¬ ∃ cell ∈ placed, 0 < cell.colSpan ∧ rows < cell.row + cell.rowSpan := by
  rintro ⟨cell, hcell, hspan, hbeyond⟩
  obtain ⟨columns, hcovers⟩ := h
  have hrow := hbelow cell hcell
  have hone : 0 < placed.countP fun other => other.covers (cell.row + cell.rowSpan - 1) cell.column := by
    refine List.countP_pos_iff.mpr ⟨cell, hcell, PlacedCell.covers_iff.mpr ?_⟩
    unfold PlacedCell.ending
    omega
  rw [hcovers, if_neg (by omega)] at hone
  exact absurd hone (Nat.lt_irrefl 0)

/-- All rows of a regular table are equally wide. -/
theorem Regular.unevenRows (h : Regular placed rows) : unevenRows placed rows = [] := by
  obtain ⟨columns, hcovers⟩ := h
  have hsame : ∀ row < rows, ∀ other < rows, rowSlots placed row = rowSlots placed other := by
    intro row hrow other hother
    unfold rowSlots
    apply List.countP_congr
    intro column _
    rw [any_covers_iff, any_covers_iff]
    have hone : ∀ row < rows, Covered placed row column ↔ column < columns := by
      intro row hrow
      have hcount := hcovers row column
      unfold Covered
      rw [← List.countP_pos_iff (p := fun cell : PlacedCell => cell.covers row column), hcount]
      split
      · rename_i hin
        exact iff_of_true Nat.one_pos hin.2
      · rename_i hout
        exact iff_of_false (Nat.lt_irrefl 0) fun hcolumn => hout ⟨hrow, hcolumn⟩
    rw [hone row hrow, hone other hother]
  refine List.filter_eq_nil_iff.mpr fun row hrow => ?_
  have hrow := List.mem_range.mp hrow
  have hmem := largest_mem (l := (List.range rows).map (rowSlots placed)) (by
    simp
    omega)
  obtain ⟨other, hother, heq⟩ := List.mem_map.mp hmem
  rw [hsame row hrow other (List.mem_range.mp hother), heq]
  simp [widestRow]

end Placement

end Pdfv
