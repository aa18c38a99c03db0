import Pdfv.Accessibility.Forest
import Pdfv.Profile.Evaluator
/-!
# Properties of structure elements

`structureElementProperty`, as three tables of names and values in the order in which the source tries
them, and the functions behind the values: headings, notes, table headers and the analysis of tables.
-/

namespace Pdfv

open Fallible

/-! ## Values -/

/-- `unknown_property`. -/
def unknownProperty {α : Type} (name : PropertyName) : Except PdfvError α :=
  .error (.profile (.unknownProperty ⟨name⟩))

/-- `usize_to_f64` and `u64_to_f64`, as a value. -/
def countValue (count : Nat) : Except PdfvError ModelValue :=
  if count < u32Size then .ok (.number (.ofInt count)) else .error (.limit "numeric_property")

/-- A text as a value. -/
def textValue (text : String) : ModelValue :=
  .string ⟨text⟩

/-- `optional_string_model_value`. -/
def optionalText (text : Option String) : ModelValue :=
  text.elim .null textValue

/-- `optional_usize_model_value`. -/
def optionalCount (count : Option Nat) : Except PdfvError ModelValue :=
  count.elim (.ok .null) countValue

/-- `presence_model_value`. -/
def presence (present : Bool) : ModelValue :=
  if present then .bool true else .null

/-- Rows of property names and the value they share. -/
abbrev PropertyTable : Type :=
  List (List PropertyName × Except PdfvError ModelValue)

/-- The value of the first row that has the name. -/
def PropertyTable.value (table : PropertyTable) (name : PropertyName) : Except PdfvError ModelValue :=
  match table.find? fun row => row.1.contains name with
  | some row => row.2
  | none => unknownProperty name

/-- `heading_level`. -/
def headingLevel : String → Nat
  | "H1" => 1
  | "H2" => 2
  | "H3" => 3
  | "H4" => 4
  | "H5" => 5
  | "H6" => 6
  | _ => 0

/-- `is_grouping_role`. -/
def isGroupingRole (role : String) : Bool :=
  ["Document", "Part", "Art", "Sect", "Div", "BlockQuote", "Caption", "TOC", "TOCI", "Index",
    "NonStruct", "Private", "Aside", "DocumentFragment", "Title"].contains role

/-! ## Ancestors and descendants -/

section Nodes

variable (graph : AccessibilityGraph)

/-- `AccessibilityGraph::node`. -/
def AccessibilityGraph.node (id : Nat) : Option AccessibilityNode :=
  graph.nodes[id]?

/-- A loop up the parents: the first ancestor that decides ends it. A parent has a smaller id than its
child, so as many passes as there are nodes are enough. -/
def climb {ρ : Type} (decide : AccessibilityNode → Option ρ) (missing atRoot : ρ) :
    Nat → Option Nat → ρ
  | _, none => atRoot
  | 0, some _ => atRoot
  | fuel + 1, some parent =>
    match graph.node parent with
    | none => missing
    | some node =>
      match decide node with
      | some result => result
      | none => climb decide missing atRoot fuel node.parent

/-- `parent_language`. -/
def parentLanguage (node : AccessibilityNode) (includeCatalog : Bool) : Option String :=
  climb graph (fun parent => parent.language.map some) none
    (if includeCatalog then graph.language else none) graph.nodes.length node.parent

/-- `has_correct_heading_nesting`. -/
def hasCorrectHeadingNesting (node : AccessibilityNode) : Bool :=
  let level := headingLevel node.normalizedRole
  if level ≤ 1 then true
  else
    climb graph (fun parent =>
      let parentLevel := headingLevel parent.normalizedRole
      if parentLevel > 0 then some (parentLevel < level) else none) false false graph.nodes.length
      node.parent

/-- `has_parent_formula_or_mathml`. -/
def hasParentFormulaOrMathml (node : AccessibilityNode) : Bool :=
  climb graph (fun parent =>
    if parent.normalizedRole = "Formula" ∨ parent.normalizedRole = "MathML" then some true else none)
    false false graph.nodes.length node.parent

/-- `table_ancestor`. -/
def tableAncestor (node : AccessibilityNode) : Option AccessibilityNode :=
  climb graph (fun parent => if parent.normalizedRole = "Table" then some (some parent) else none)
    none none graph.nodes.length node.parent

/-- The loop of `parent_tags`. -/
def parentTagsLoop : Nat → Option Nat → List ModelValue
  | _, none => []
  | 0, some _ => []
  | fuel + 1, some parent =>
    match graph.node parent with
    | none => []
    | some node => textValue node.normalizedRole :: parentTagsLoop fuel node.parent

/-- `parent_tags`. -/
def parentTags (node : AccessibilityNode) : ModelValue :=
  .list (parentTagsLoop graph graph.nodes.length node.parent)

/-- The loop of `table_descendants`: every node is below at most one other. -/
def descendantsLoop : Nat → List Nat → List AccessibilityNode
  | _, [] => []
  | 0, _ :: _ => []
  | fuel + 1, id :: stack =>
    match graph.node id with
    | none => descendantsLoop fuel stack
    | some child => child :: descendantsLoop fuel (child.children ++ stack)

/-- `table_descendants`. -/
def tableDescendants (node : AccessibilityNode) : List AccessibilityNode :=
  descendantsLoop graph (graph.nodes.length + 1) node.children

/-- `child_standard_types`. -/
def childStandardTypes (node : AccessibilityNode) : String :=
  "&".intercalate ((node.children.filterMap graph.node).map AccessibilityNode.normalizedRole)

/-! ## Notes and references -/

/-- `has_duplicate_note_id`. -/
def hasDuplicateNoteId (node : AccessibilityNode) : Bool :=
  node.normalizedRole = "Note" && node.idText.isSome && graph.nodes.any fun other =>
    other.id ≠ node.id && other.normalizedRole = "Note" && other.idText = node.idText

/-- The node of a role with an id. -/
def hasNodeWithId (role : String) (id : String) : Bool :=
  graph.nodes.any fun candidate => candidate.normalizedRole = role && candidate.idText = some id

/-- `note_orphan_refs`. -/
def noteOrphanRefs (node : AccessibilityNode) : Option String :=
  if node.normalizedRole ≠ "Note" then none
  else node.idText.bind fun id => if hasNodeWithId graph "Reference" id then none else some "missing"

/-- `note_ghost_refs`. -/
def noteGhostRefs (node : AccessibilityNode) : Option String :=
  if node.normalizedRole ≠ "Reference" then none
  else node.idText.bind fun id => if hasNodeWithId graph "Note" id then none else some id

/-! ## Tables -/

/-- `header_resolves_to_table_header`. -/
def headerResolvesToTableHeader (header : String) : Bool :=
  hasNodeWithId graph "TH" header

/-- `headers_resolve_to_table_headers`. -/
def headersResolveToTableHeaders (node : AccessibilityNode) : Bool :=
  !node.headers.isEmpty && node.headers.all (headerResolvesToTableHeader graph)

/-- `scoped_table_header_applies`. -/
def scopedTableHeaderApplies (node : AccessibilityNode) : Bool :=
  (tableAncestor graph node).any fun table =>
    (tableDescendants graph table).any fun candidate =>
      candidate.normalizedRole = "TH" && candidate.scope.isSome

/-- `has_connected_table_header`. -/
def hasConnectedTableHeader (node : AccessibilityNode) : Bool :=
  node.normalizedRole = "TH" || node.normalizedRole = "THead"
    || node.normalizedRole = "TD"
      && (headersResolveToTableHeaders graph node || scopedTableHeaderApplies graph node)

/-- `unknown_headers`. -/
def unknownHeaders (node : AccessibilityNode) : String :=
  if node.normalizedRole ≠ "TD" then ""
  else
    let unresolved := node.headers.filter fun header => !headerResolvesToTableHeader graph header
    if !unresolved.isEmpty then ",".intercalate unresolved
    else if hasConnectedTableHeader graph node then "" else "missing"

/-- `table_rows`. -/
def tableRows (table : AccessibilityNode) : List AccessibilityNode :=
  (tableDescendants graph table).filter fun node => node.normalizedRole = "TR"

/-- `table_cells`. -/
def tableCells (row : AccessibilityNode) : List AccessibilityNode :=
  (tableDescendants graph row).filter fun node =>
    node.normalizedRole = "TH" || node.normalizedRole = "TD"

/-- `TableAnalysis`. -/
structure TableAnalysis where
  hasIntersection : Bool := false
  wrongRowSpanColumns : Option Nat := none
  wrongColumnSpanRows : Option Nat := none
  wrongColumnSpanDetail : Option String := none

/-- The cells of a table that are taken, and what was found wrong so far. -/
structure TableGrid where
  occupied : List (Nat × Nat)
  hasIntersection : Bool
  wrongRowSpanColumns : Nat

/-- `checked_add` on `usize`. -/
def checkedAdd (limit : String) (a b : Nat) : Except PdfvError Nat := do
  failIf (a + b ≥ u64Size) (PdfvError.limit limit)
  return a + b

/-- The first free column from `column` on; there are as many taken cells as there can be passes. -/
def firstFreeColumn (occupied : List (Nat × Nat)) (row : Nat) : Nat → Nat → Except PdfvError Nat
  | 0, column => .ok column
  | fuel + 1, column =>
    if (row, column) ∈ occupied then do
      let next ← checkedAdd "table_columns" column 1
      firstFreeColumn occupied row fuel next
    else .ok column

/-- One grid cell of a table cell. -/
def occupyCell (row column : Nat) (grid : TableGrid) (offset : Nat × Nat) :
    Except PdfvError TableGrid := do
  let targetRow ← checkedAdd "table_rows" row offset.1
  let targetColumn ← checkedAdd "table_columns" column offset.2
  if (targetRow, targetColumn) ∈ grid.occupied then return { grid with hasIntersection := true }
  else return { grid with occupied := (targetRow, targetColumn) :: grid.occupied }

/-- The columns that reach below the last row, with those of a cell. -/
def countWrongRowSpan (rowCount row : Nat) (wrong : Nat) (cell : AccessibilityNode) :
    Except PdfvError Nat :=
  if row + cell.rowSpan < u64Size ∧ row + cell.rowSpan > rowCount then
    checkedAdd "table_wrong_row_span_columns" wrong cell.colSpan
  else .ok wrong

/-- One cell of a row, with the grid, the next column and the width of the row so far. -/
def placeCell (rowCount row : Nat) (s : TableGrid × Nat × Nat) (cell : AccessibilityNode) :
    Except PdfvError (TableGrid × Nat × Nat) := do
  let (grid, column, width) := s
  let column ← firstFreeColumn grid.occupied row (grid.occupied.length + 1) column
  let wrong ← countWrongRowSpan rowCount row grid.wrongRowSpanColumns cell
  let offsets := (List.range cell.rowSpan).flatMap fun rowOffset =>
    (List.range cell.colSpan).map fun columnOffset => (rowOffset, columnOffset)
  let grid ← offsets.foldlM (occupyCell row column) { grid with wrongRowSpanColumns := wrong }
  let column ← checkedAdd "table_columns" column cell.colSpan
  return (grid, column, max width column)

/-- One row, with the grid and the widths of the rows above. -/
def placeRow (rowCount : Nat) (s : TableGrid × List Nat) (row : AccessibilityNode × Nat) :
    Except PdfvError (TableGrid × List Nat) := do
  let (grid, _, width) ← (tableCells graph row.1).foldlM (placeCell rowCount row.2) (s.1, 0, 0)
  return (grid, s.2 ++ [width])

/-- `table_analysis`. -/
def tableAnalysis (node : AccessibilityNode) : Except PdfvError TableAnalysis :=
  if node.normalizedRole ≠ "Table" then .ok {}
  else
    let rows := tableRows graph node
    if rows.isEmpty then .ok {}
    else do
      let (grid, widths) ← rows.zipIdx.foldlM (placeRow graph rows.length) (⟨[], false, 0⟩, [])
      let expected := widths.foldl max 0
      let wrongRows := (widths.zipIdx.filter fun row => row.1 > 0 && row.1 ≠ expected).map Prod.snd
      return {
        hasIntersection := grid.hasIntersection
        wrongRowSpanColumns :=
          if grid.wrongRowSpanColumns > 0 then some grid.wrongRowSpanColumns else none
        wrongColumnSpanRows := if wrongRows.isEmpty then none else some wrongRows.length
        wrongColumnSpanDetail := wrongRows.head?.map fun index => s!"row:{index}" }

/-! ## Annotations -/

/-- The object references of a node. -/
def nodeReferences (node : AccessibilityNode) : List AccessibilityObjectReference :=
  graph.objectReferences.filter fun reference => reference.node = node.id

/-- `associatedAnnotationCount`. -/
def associatedAnnotationCount (node : AccessibilityNode) : Nat :=
  (nodeReferences graph node).length

variable (doc : ModelDocument)

/-- `widget_annotation_count`. -/
def widgetAnnotationCount (node : AccessibilityNode) : Nat :=
  (nodeReferences graph node).countP fun reference =>
    (reference.object.bind doc.dictionaryAt).any fun dictionary =>
      entryIsName dictionary "Subtype" "Widget"

/-- `is_signature_structure_node`. -/
def isSignatureStructureNode (node : AccessibilityNode) : Bool :=
  node.normalizedRole = "Form" && ((nodeReferences graph node).filterMap fun reference =>
    reference.object.bind doc.dictionaryAt).any fun dictionary => entryIsName dictionary "FT" "Sig"

/-! ## The tables of names -/

variable (node : AccessibilityNode)

/-- `structure_element_pdfua_property`. -/
def structureElementPdfuaTable : PropertyTable :=
  [(["E"], .ok (presence node.hasExpansionText)),
   (["expansionTextBytes"], countValue node.expansionTextBytes),
   (["parentLang"], .ok (optionalText (parentLanguage graph node false))),
   (["inheritedLang"], .ok (optionalText (parentLanguage graph node true))),
   (["gContainsCatalogLang"], .ok (.bool graph.language.isSome)),
   (["roleAttribute"], .ok (optionalText node.roleAttribute)),
   (["ListNumbering"], .ok (textValue (node.listNumbering.getD "None"))),
   (["NoteType"], .ok (textValue (node.noteType.getD "None"))),
   (["noteID"], .ok (optionalText node.idText)),
   (["hasOneInteractiveChild"], .ok (.bool (widgetAnnotationCount graph doc node = 1))),
   (["usesH"], .ok (.bool (node.normalizedRole = "H"))),
   (["usesHn"], .ok (.bool (headingLevel node.normalizedRole > 0))),
   (["hasCorrectNestingLevel"], .ok (.bool (hasCorrectHeadingNesting graph node))),
   (["hasDuplicateNoteID"], .ok (.bool (hasDuplicateNoteId graph node))),
   (["hasConnectedHeader"], .ok (.bool (hasConnectedTableHeader graph node))),
   (["unknownHeaders"], .ok (textValue (unknownHeaders graph node))),
   (["isGrouping"], .ok (.bool (isGroupingRole node.normalizedRole))),
   (["widgetAnnotsCount"], countValue (widgetAnnotationCount graph doc node)),
   (["isSignature"], .ok (.bool (isSignatureStructureNode graph doc node))),
   (["hasParentFormulaOrMathML"], .ok (.bool (hasParentFormulaOrMathml graph node))),
   (["hasIntersection"],
     (tableAnalysis graph node).map fun analysis => .bool analysis.hasIntersection)]

/-- `structure_element_relationship_property`. -/
def structureElementRelationshipTable : PropertyTable :=
  [(["parentStandardTypeNamespaceURL", "parentNamespaceURL"], .ok (optionalText node.namespaceUrl)),
   (["firstChildStandardTypeNamespaceURL"], .ok (optionalText (node.children.findSome? fun child =>
     (graph.node child).bind AccessibilityNode.namespaceUrl))),
   (["numberOfColumnWithWrongRowSpan"],
     (tableAnalysis graph node).bind fun analysis => optionalCount analysis.wrongRowSpanColumns),
   (["numberOfRowWithWrongColumnSpan"],
     (tableAnalysis graph node).bind fun analysis => optionalCount analysis.wrongColumnSpanRows),
   (["wrongColumnSpan"],
     (tableAnalysis graph node).map fun analysis => optionalText analysis.wrongColumnSpanDetail),
   (["orphanRefs"], .ok (optionalText (noteOrphanRefs graph node))),
   (["ghostRefs"], .ok (optionalText (noteGhostRefs graph node))),
   (["kidsStandardTypes"], .ok (textValue (childStandardTypes graph node)))]

/-- The names that `structure_element_property` itself matches. -/
def structureElementTable : PropertyTable :=
  [(["role", "S", "parentType", "structParentType"], .ok (textValue node.role)),
   (["tag", "normalizedRole", "parentStandardType", "structParentStandardType"],
     .ok (textValue node.normalizedRole)),
   (["page", "Pg"], .ok (node.page.elim .null .objectKey)),
   (["pageIndex"], optionalCount node.pageOrdinal),
   (["childCount"], countValue node.children.length),
   (["contentItemCount", "K"], countValue node.contentItems.length),
   (["associatedMarkedContentCount"],
     countValue (graph.markedContent.countP fun marked => marked.node = some node.id)),
   (["associatedAnnotationCount"], countValue (associatedAnnotationCount graph node)),
   (["hasAltText"], .ok (.bool node.hasAltText)),
   (["altTextBytes"], countValue node.altTextBytes),
   (["hasActualText"], .ok (.bool node.hasActualText)),
   (["actualTextBytes"], countValue node.actualTextBytes),
   (["hasLanguage", "containsLang"], .ok (.bool node.hasLanguage)),
   (["hasAttributes"], .ok (.bool node.hasAttributes)),
   (["hasClass"], .ok (.bool node.hasClass)),
   (["hasId"], .ok (.bool node.hasId)),
   (["idTreeResolved"], .ok (.bool node.idTreeResolved)),
   (["classMapResolved"], .ok (.bool node.classMapResolved)),
   (["Alt"], .ok (presence node.hasAltText)),
   (["ActualText"], .ok (presence node.hasActualText)),
   (["Lang"], .ok (optionalText node.language)),
   (["A"], .ok (presence node.hasAttributes)),
   (["C"], .ok (presence node.hasClass)),
   (["ID"], .ok (optionalText node.idText)),
   (["P", "containsParent"], .ok (.bool node.containsParent)),
   (["containsRef"], .ok (.bool node.containsRef)),
   (["hasContentItems", "isTaggedContent"], .ok (.bool (!node.contentItems.isEmpty))),
   (["containsLabels"], .ok (.bool (node.children.any fun child =>
     (graph.node child).any fun child => child.normalizedRole = "Lbl"))),
   (["isArtifact"], .ok (.bool (node.normalizedRole = "Artifact"))),
   (["parentsTags"], .ok (parentTags graph node)),
   (["isNotMappedToStandardType"], .ok (.bool node.nonStandardRole)),
   (["circularMappingExist"], .ok (.bool node.circularRoleMapping)),
   (["roleMapToSameNamespaceTag"], .ok (.bool (node.role = node.normalizedRole))),
   (["remappedStandardType"], .ok (.bool (node.role ≠ node.normalizedRole))),
   (["Type"], .ok (textValue "StructElem"))]

/-- `structure_element_property`. -/
def structureElementProperty (name : PropertyName) : Except PdfvError ModelValue :=
  PropertyTable.value (structureElementPdfuaTable graph doc node
    ++ structureElementRelationshipTable graph node ++ structureElementTable graph node) name

end Nodes

end Pdfv
