import Pdfv.Basic.Brackets
import Pdfv.Content.Operations
/-!
# What marked-content spans carry

The operators `BMC` and `BDC` open a bracket and `EMC` closes the one opened last. The loop of
`summarize_content_stream` keeps a depth and a stack of places beside the spans it records; they are a
tracker of these brackets, so that a span has the depth and the flags of its own content
(`summarizeContentStream_spans`). Depths are counted without the bound of the source's `u32`.
-/

namespace Pdfv

open Loop Fallible Brackets

/-! ## Operators -/

section Operators

variable {op : OperatorName} {operands : List Operand} {location : ObjectLocation}
  {bytes : Bytes} {limits : ResourceLimits} {s s' : SummaryState}

/-- What an operator does to the open spans. -/
def spanRole (op : String) : Role :=
  if op = "BMC" ∨ op = "BDC" then .opens
  else if op = "EMC" then .closes
  else .plain

/-- The operator shows text. -/
def showsText (op : String) : Bool :=
  ["Tj", "TJ", "'", "\""].contains op

/-- The operator shows an image, or an XObject that it names. -/
def showsImage (op : String) (operands : List Operand) : Bool :=
  op = "BI" || op = "Do" && (firstNameOperand operands).isSome

/-- An operator as the loop finds it: with the operands before it and its place. -/
structure FoundOperator where
  op : OperatorName
  operands : List Operand
  location : ObjectLocation

namespace FoundOperator

def role (found : FoundOperator) : Role :=
  spanRole found.op.text

/-- The span that an operator opens at a depth. -/
def span (found : FoundOperator) (depth : Nat) : MarkedContentSpan where
  tag := (firstNameOperand found.operands).getD ⟨utf8 "Unknown"⟩
  nestingDepth := depth
  mcid := inlineMcid found.operands
  properties := propertiesReference found.operands
  propertiesName := propertiesName found.operands
  hasText := false
  hasImage := false
  location := found.location

/-- What an operator shows is carried by a span that it stands in. -/
def mark (found : FoundOperator) (span : MarkedContentSpan) : MarkedContentSpan :=
  { span with
    hasText := span.hasText || showsText found.op.text
    hasImage := span.hasImage || showsImage found.op.text found.operands }

end FoundOperator

/-- The spans and the open ones of a state. -/
def SummaryState.tracker (s : SummaryState) : Tracker MarkedContentSpan :=
  ⟨s.summary.markedContent, s.markedStack⟩

/-- The spans and the depth of a state follow an operator. -/
structure Tracks (found : FoundOperator) (s s' : SummaryState) : Prop where
  spans : s'.tracker
    = s.tracker.step FoundOperator.role FoundOperator.span FoundOperator.mark found
  depth : s'.markedDepth = openStep FoundOperator.role s.markedDepth found

theorem modifyAll_id (places : List Nat) (items : List MarkedContentSpan) :
    places.foldl (fun items i => items.modify i id) items = items := by
  induction places generalizing items with
  | nil => rfl
  | cons place places ih => rw [List.foldl_cons, List.modify_id, ih]

/-- An operator that neither opens nor closes a span, and shows nothing. -/
theorem tracks_of_quiet {found : FoundOperator} (hrole : found.role = .plain)
    (htext : showsText found.op.text = false)
    (himage : showsImage found.op.text found.operands = false) (hspans : s'.tracker = s.tracker)
    (hdepth : s'.markedDepth = s.markedDepth) : Tracks found s s' := by
  have hid : found.mark = id := by
    funext span
    unfold FoundOperator.mark
    rw [htext, himage, Bool.or_false, Bool.or_false]
    rfl
  constructor
  · unfold Tracker.step Tracker.markOpen
    rw [hrole, hid]
    dsimp only
    rw [modifyAll_id]
    exact hspans
  · unfold openStep
    rw [hrole]
    exact hdepth

/-- An operator that only shows. -/
theorem tracks_of_shows {found : FoundOperator} (hrole : found.role = .plain)
    (hspans : s'.tracker = s.tracker.markOpen found.mark)
    (hdepth : s'.markedDepth = s.markedDepth) : Tracks found s s' := by
  constructor
  · unfold Tracker.step
    rw [hrole]
    exact hspans
  · unfold openStep
    rw [hrole]
    exact hdepth

/-- An operator of another row is none of a row. -/
theorem notMem_of_kind {kind other : OperatorKind} (ops : List String) {op : String}
    (h : operatorKind op = kind) (hrow : (other, ops) ∈ operatorTable) (hne : kind ≠ other) :
    op ∉ ops := by
  intro hmem
  rw [← operatorKind_iff _ hrow, h] at hmem
  exact hne hmem

theorem plain_of_kind {kind : OperatorKind} (h : operatorKind op.text = kind)
    (hkind : kind ∉ [.markedContent, .endMarkedContent]) :
    FoundOperator.role ⟨op, operands, location⟩ = .plain := by
  simp only [List.mem_cons, List.not_mem_nil, or_false, not_or] at hkind
  have hmarked := notMem_of_kind ["BMC", "BDC", "MP", "DP"] h (by decide) hkind.1
  have hend := notMem_of_kind ["EMC"] h (by decide) hkind.2
  simp only [List.mem_cons, List.not_mem_nil, or_false, not_or] at hmarked hend
  show spanRole op.text = .plain
  unfold spanRole
  rw [if_neg (by simp [hmarked.1, hmarked.2.1]), if_neg hend]

theorem quiet_text {kind : OperatorKind} {op : String} (h : operatorKind op = kind)
    (hkind : kind ≠ .textShow) : showsText op = false := by
  have htext := notMem_of_kind ["Tj", "TJ", "'", "\""] h (by decide) hkind
  unfold showsText
  rw [← Bool.not_eq_true, List.contains_iff_mem]
  exact htext

theorem quiet_image {kind : OperatorKind} {op : String} {operands : List Operand}
    (h : operatorKind op = kind) (hinline : kind ≠ .inlineImage) (hx : kind ≠ .xObject) :
    showsImage op operands = false := by
  have hinline := notMem_of_kind ["BI"] h (by decide) hinline
  have hx := notMem_of_kind ["Do"] h (by decide) hx
  rw [List.mem_singleton] at hinline hx
  unfold showsImage
  simp [hinline, hx]

theorem pushNamedUse_tracker (s : SummaryState) (family : ResourceFamily) (op : OperatorName)
    (location : ObjectLocation) : (s.pushNamedUse family op location).tracker = s.tracker ∧
      (s.pushNamedUse family op location).markedDepth = s.markedDepth := by
  unfold SummaryState.pushNamedUse
  split <;> exact ⟨rfl, rfl⟩

theorem newName_ok {value : Bytes} {name : PdfName} (h : PdfName.new value limits = .ok name) :
    name = ⟨value⟩ := by
  unfold PdfName.new at h
  split at h
  · cases h
  · cases h
    rfl

/-- What `BMC`, `BDC`, `MP` and `DP` leave behind, when the tag is known. -/
theorem beginMarkedContent_state (h : s.beginMarkedContent limits op location = .ok s') :
    s'.markedDepth = (if op.text = "BMC" ∨ op.text = "BDC" then s.markedDepth + 1 else s.markedDepth) ∧
    s'.tracker = if op.text = "BMC" ∨ op.text = "BDC" then
        ⟨s.tracker.items ++ [FoundOperator.span ⟨op, s.operands, location⟩ (s.markedDepth + 1)],
          s.tracker.items.length :: s.tracker.stack⟩
      else s.tracker := by
  unfold SummaryState.beginMarkedContent at h
  unfold FoundOperator.span
  dsimp only at h ⊢
  split at h
  · rename_i tag hname
    cases pure_eq_ok.mp h
    rw [hname]
    by_cases hopens : op.text = "BMC" ∨ op.text = "BDC"
    · rw [if_pos hopens, if_pos hopens, if_pos hopens]
      exact ⟨rfl, rfl⟩
    · rw [if_neg hopens, if_neg hopens, if_neg hopens]
      exact ⟨rfl, rfl⟩
  · rename_i hname
    obtain ⟨tag, htag, h⟩ := bind_eq_ok.mp h
    cases newName_ok htag
    cases pure_eq_ok.mp h
    rw [hname]
    by_cases hopens : op.text = "BMC" ∨ op.text = "BDC"
    · rw [if_pos hopens, if_pos hopens, if_pos hopens]
      exact ⟨rfl, rfl⟩
    · rw [if_neg hopens, if_neg hopens, if_neg hopens]
      exact ⟨rfl, rfl⟩

theorem beginMarkedContent_tracks (h : s.beginMarkedContent limits op location = .ok s')
    (hkind : operatorKind op.text = .markedContent) (hdepth : s.markedDepth = s.markedStack.length) :
    Tracks ⟨op, s.operands, location⟩ s s' := by
  have hmem := (operatorKind_iff ["BMC", "BDC", "MP", "DP"] (by decide)).mp hkind
  obtain ⟨hdepth', hspans⟩ := beginMarkedContent_state h
  by_cases hopens : op.text = "BMC" ∨ op.text = "BDC"
  · have hrole : FoundOperator.role ⟨op, s.operands, location⟩ = .opens := if_pos hopens
    rw [if_pos hopens] at hdepth' hspans
    constructor
    · unfold Tracker.step
      rw [hrole, hspans, hdepth]
      rfl
    · unfold openStep
      rw [hrole]
      exact hdepth'
  · rw [if_neg hopens] at hdepth' hspans
    have hother : op.text = "MP" ∨ op.text = "DP" := by
      simp only [List.mem_cons, List.not_mem_nil, or_false] at hmem
      tauto
    refine tracks_of_quiet ?_ ?_ ?_ hspans hdepth'
    · rcases hother with hop | hop <;>
      · show spanRole op.text = .plain
        rw [hop]
        rfl
    · rcases hother with hop | hop <;>
      · show showsText op.text = false
        rw [hop]
        rfl
    · rcases hother with hop | hop <;>
      · show showsImage op.text s.operands = false
        rw [hop]
        rfl

/-- An operator does to the spans what its role says. -/
theorem classifyOperator_tracks (h : classifyOperator bytes limits op location s = .ok s')
    (hdepth : s.markedDepth = s.markedStack.length) : Tracks ⟨op, s.operands, location⟩ s s' := by
  have hquiet : ∀ {kind}, operatorKind op.text = kind →
      kind ∉ [OperatorKind.inlineImage, .textShow, .markedContent, .endMarkedContent, .xObject] →
      s'.tracker = s.tracker → s'.markedDepth = s.markedDepth →
      Tracks ⟨op, s.operands, location⟩ s s' := by
    intro kind hkind hother hspans hdepth
    simp only [List.mem_cons, List.not_mem_nil, or_false, not_or] at hother
    exact tracks_of_quiet (plain_of_kind hkind (by simp [hother])) (quiet_text hkind hother.2.1)
      (quiet_image hkind hother.1 hother.2.2.2.2) hspans hdepth
  unfold classifyOperator at h
  split at h
  · rename_i hkind
    have hop := (operatorKind_iff ["BI"] (by decide)).mp hkind
    rw [List.mem_singleton] at hop
    obtain ⟨⟨image, pos⟩, -, h⟩ := bind_eq_ok.mp h
    cases pure_eq_ok.mp h
    refine tracks_of_shows (plain_of_kind hkind (by decide)) ?_ rfl
    · have hmark : FoundOperator.mark ⟨op, s.operands, location⟩
          = fun span => { span with hasImage := true } := by
        funext span
        unfold FoundOperator.mark
        dsimp only
        rw [hop]
        simp [showsText, showsImage]
      rw [hmark]
      rfl
  · rename_i hkind
    cases h
    exact hquiet hkind (by decide) rfl rfl
  · rename_i hkind
    cases h
    obtain ⟨hspans, hdepth'⟩ := pushNamedUse_tracker s .font op location
    refine hquiet hkind (by decide) ?_ ?_
    · split
      · exact hspans
      · rfl
    · split
      · exact hdepth'
      · rfl
  · rename_i hkind
    cases h
    exact hquiet hkind (by decide) rfl rfl
  · rename_i hkind
    have hop := (operatorKind_iff ["Tj", "TJ", "'", "\""] (by decide)).mp hkind
    cases h
    refine tracks_of_shows (plain_of_kind hkind (by decide)) ?_ rfl
    have htext : showsText op.text = true := List.contains_iff_mem.mpr hop
    have himage : showsImage op.text s.operands = false :=
      quiet_image hkind (by decide) (by decide)
    have hmark : FoundOperator.mark ⟨op, s.operands, location⟩
        = fun span => { span with hasText := true } := by
      funext span
      unfold FoundOperator.mark
      dsimp only
      rw [htext, himage, Bool.or_true, Bool.or_false]
    rw [hmark]
    rfl
  · rename_i hkind
    exact beginMarkedContent_tracks h hkind hdepth
  · rename_i hkind
    have hop := (operatorKind_iff ["EMC"] (by decide)).mp hkind
    rw [List.mem_singleton] at hop
    obtain ⟨tag, -, h⟩ := bind_eq_ok.mp h
    cases pure_eq_ok.mp h
    have hrole : FoundOperator.role ⟨op, s.operands, location⟩ = .closes := by
      show spanRole op.text = .closes
      rw [hop]
      rfl
    constructor
    · unfold Tracker.step
      rw [hrole]
      rfl
    · unfold openStep
      rw [hrole]
      rfl
  · rename_i hkind
    cases h
    refine hquiet hkind (by decide) ?_ ?_
    · split <;> rfl
    · split <;> rfl
  · rename_i hkind
    cases h
    exact hquiet hkind (by decide) rfl rfl
  · rename_i hkind
    cases h
    exact hquiet hkind (by decide) rfl rfl
  · rename_i hkind
    cases h
    obtain ⟨hspans, hdepth'⟩ := pushNamedUse_tracker s .extGState op location
    exact hquiet hkind (by decide) hspans hdepth'
  · rename_i hkind
    obtain ⟨hspans, hdepth'⟩ := pushNamedUse_tracker s .colorSpace op location
    obtain ⟨fact, rfl⟩ := pushColorFact_ok h
    exact hquiet hkind (by decide) hspans hdepth'
  · rename_i hkind
    obtain ⟨fact, rfl⟩ := pushColorFact_ok h
    exact hquiet hkind (by decide) rfl rfl
  · rename_i hkind
    obtain ⟨hspans, hdepth'⟩ := pushNamedUse_tracker s .shading op location
    obtain ⟨fact, rfl⟩ := pushColorFact_ok h
    exact hquiet hkind (by decide) hspans hdepth'
  · rename_i hkind
    have hop := (operatorKind_iff ["Do"] (by decide)).mp hkind
    rw [List.mem_singleton] at hop
    have hrole : FoundOperator.role ⟨op, s.operands, location⟩ = .plain :=
      plain_of_kind hkind (by decide)
    have htext : showsText op.text = false := by
      rw [hop]
      rfl
    split at h
    · rename_i name hname
      cases h
      refine tracks_of_shows hrole ?_ rfl
      have himage : showsImage op.text s.operands = true := by
        unfold showsImage
        rw [hop, hname]
        rfl
      have hmark : FoundOperator.mark ⟨op, s.operands, location⟩
          = fun span => { span with hasImage := true } := by
        funext span
        unfold FoundOperator.mark
        dsimp only
        rw [htext, himage, Bool.or_true, Bool.or_false]
      rw [hmark]
      rfl
    · rename_i hname
      obtain ⟨fact, rfl⟩ := pushUnknown_ok h
      refine tracks_of_quiet hrole htext ?_ rfl rfl
      show showsImage op.text s.operands = false
      unfold showsImage
      rw [hop, hname]
      rfl
  · rename_i hkind
    cases h
    exact hquiet hkind (by decide) rfl rfl
  · rename_i hkind
    cases h
    exact hquiet hkind (by decide) rfl rfl
  · rename_i hkind
    obtain ⟨fact, rfl⟩ := pushUnknown_ok h
    exact hquiet hkind (by decide) rfl rfl

end Operators

/-! ## Whole streams -/

section Streams

variable {source : ObjectKey} {locationPath : String} {bytes : Bytes} {limits : ResourceLimits}

/-- The operands that the operator of an operation finds: those that the caps leave. -/
def Operation.kept (limits : ResourceLimits) (operation : Operation) : List Operand :=
  (operation.operands.foldl (keepOperand limits) ([], 0)).1

/-- The operator of an operation, with its place in the stream. -/
def Operation.found (source : ObjectKey) (locationPath : String) (limits : ResourceLimits)
    (entry : Operation × Nat) : FoundOperator :=
  ⟨entry.1.op, entry.1.kept limits,
    operatorLocation source locationPath entry.2 entry.1.offset⟩

/-- A stream is read to its end: operations, and operands that no operator follows. -/
structure ContentRead (bytes : Bytes) (limits : ResourceLimits) (pos : Nat)
    (operations : List Operation) (dangling : List Operand) : Prop where
  reads : ∃ stop last next, OperationsRead bytes limits pos operations stop ∧
    OperandsRead bytes limits stop dangling last ∧
    ContentTokenizer.nextToken bytes limits last = .ok (none, next)

/-- Operations, and operands that no operator follows, with one more operand before them. -/
def withOperand (operand : Operand) :
    List Operation × List Operand → List Operation × List Operand
  | ([], dangling) => ([], operand :: dangling)
  | (operation :: rest, dangling) =>
    ({ operation with operands := operand :: operation.operands } :: rest, dangling)

/-- An operand before what is read. -/
theorem ContentRead.operand {pos next : Nat} {operations : List Operation} {dangling : List Operand}
    {operand : Operand}
    (htoken : ContentTokenizer.nextToken bytes limits pos = .ok (some (.operand operand), next))
    (h : ContentRead bytes limits next operations dangling) :
    ContentRead bytes limits pos (withOperand operand (operations, dangling)).1
      (withOperand operand (operations, dangling)).2 := by
  obtain ⟨stop, last, final, hoperations, hdangling, hend⟩ := h.reads
  cases hoperations with
  | nil => exact ⟨pos, last, final, .nil pos, .cons htoken hdangling, hend⟩
  | cons hoperands hoperator hafter hrest =>
    exact ⟨stop, last, final, .cons (.cons htoken hoperands) hoperator hafter hrest, hdangling, hend⟩

theorem pushOperands_tracker {s s' : SummaryState} {operands : List Operand}
    (h : operands.foldlM (fun (s : SummaryState) operand => s.pushOperand limits operand) s = .ok s') :
    s'.tracker = s.tracker ∧ s'.markedDepth = s.markedDepth := by
  induction operands generalizing s with
  | nil =>
    cases pure_eq_ok.mp h
    exact ⟨rfl, rfl⟩
  | cons operand operands ih =>
    rw [List.foldlM_cons] at h
    obtain ⟨next, hnext, h⟩ := bind_eq_ok.mp h
    obtain ⟨htracker, hdepth⟩ := ih h
    rw [htracker, hdepth]
    unfold SummaryState.pushOperand at hnext
    dsimp only at hnext
    split_ifs at hnext <;>
    · cases hnext
      exact ⟨rfl, rfl⟩

/-- An operation does to the spans what its operator does. -/
theorem performOperation_tracks {s s' : SummaryState} {operation : Operation}
    (hnone : s.operands = []) (hzero : s.operandBytes = 0)
    (hdepth : s.markedDepth = s.markedStack.length)
    (h : performOperation source locationPath bytes limits s operation = .ok s') :
    Tracks (Operation.found source locationPath limits (operation, s.summary.operatorsSeen + 1)) s s' := by
  unfold performOperation at h
  obtain ⟨mid, hmid, h⟩ := bind_eq_ok.mp h
  obtain ⟨hkept, hseen, -⟩ := pushOperands_ok hmid
  obtain ⟨htracker, hmidDepth⟩ := pushOperands_tracker hmid
  have hoperands : mid.operands = operation.kept limits := by
    rw [hnone, hzero] at hkept
    unfold Operation.kept
    rw [← hkept]
  have hstack : mid.markedDepth = mid.markedStack.length := by
    rw [hmidDepth, hdepth]
    exact congrArg (fun t => t.stack.length) htracker.symm
  unfold acceptOperator at h
  obtain ⟨-, -, h⟩ := bind_eq_ok.mp h
  obtain ⟨after, hafter, h⟩ := bind_eq_ok.mp h
  cases pure_eq_ok.mp h
  obtain ⟨hspans, hafterDepth⟩ := classifyOperator_tracks hafter hstack
  dsimp only at hspans hafterDepth
  rw [hoperands, hseen] at hspans hafterDepth
  constructor
  · rw [← htracker]
    exact hspans
  · rw [← hmidDepth]
    exact hafterDepth

/-- Operations do to the spans what their operators do, one after the other. -/
theorem performOperations_tracks {operations : List Operation} {s s' : SummaryState}
    (hnone : s.operands = []) (hzero : s.operandBytes = 0)
    (hdepth : s.markedDepth = s.markedStack.length)
    (h : operations.foldlM (performOperation source locationPath bytes limits) s = .ok s') :
    s'.tracker = s.tracker.run FoundOperator.role FoundOperator.span FoundOperator.mark
      ((operations.zipIdx (s.summary.operatorsSeen + 1)).map
        (Operation.found source locationPath limits)) := by
  induction operations generalizing s with
  | nil =>
    cases pure_eq_ok.mp h
    rfl
  | cons operation operations ih =>
    rw [List.foldlM_cons] at h
    obtain ⟨next, hnext, h⟩ := bind_eq_ok.mp h
    obtain ⟨-, hnone', hzero', hseen, -⟩ := performOperation_ok hnone hzero hnext
    have htracks := performOperation_tracks hnone hzero hdepth hnext
    have hdepth' : next.markedDepth = next.markedStack.length := by
      have hlength := congrArg (fun t => t.stack.length) htracks.spans
      rw [Tracker.length_stack_step] at hlength
      rw [htracks.depth, hdepth]
      exact hlength.symm
    rw [ih hnone' hzero' hdepth' h, htracks.spans, hseen, List.zipIdx_cons, List.map_cons]
    rfl

/-- An operator that opens or closes a span shows nothing. -/
theorem markPlain_eq (found : FoundOperator) (span : MarkedContentSpan) :
    Tracker.markPlain FoundOperator.role FoundOperator.mark span found = found.mark span := by
  unfold Tracker.markPlain
  by_cases hrole : found.role = .plain
  · rw [if_pos hrole]
  · have hop : found.op.text = "BMC" ∨ found.op.text = "BDC" ∨ found.op.text = "EMC" := by
      by_contra hnone
      rw [not_or, not_or] at hnone
      apply hrole
      unfold FoundOperator.role spanRole
      rw [if_neg (by tauto), if_neg hnone.2.2]
    have hquiet : showsText found.op.text = false ∧ showsImage found.op.text found.operands = false := by
      rcases hop with hop | hop | hop <;>
      · rw [hop]
        exact ⟨rfl, rfl⟩
    rw [if_neg hrole]
    unfold FoundOperator.mark
    rw [hquiet.1, hquiet.2, Bool.or_false, Bool.or_false]

/-- Elements mark a span with what they show. -/
theorem foldl_markPlain (l : List FoundOperator) (span : MarkedContentSpan) :
    l.foldl (Tracker.markPlain FoundOperator.role FoundOperator.mark) span =
      { span with
        hasText := span.hasText || l.any fun found => showsText found.op.text
        hasImage := span.hasImage || l.any fun found =>
          showsImage found.op.text found.operands } := by
  induction l generalizing span with
  | nil => simp
  | cons found rest ih =>
    rw [List.foldl_cons, markPlain_eq, ih]
    unfold FoundOperator.mark
    simp only [List.any_cons, Bool.or_assoc]

/-- What the operator of an operation does to the open spans. -/
def Operation.role (operation : Operation) : Role :=
  spanRole operation.op.text

/-- The operators of a list of operations, the first at a place. -/
def foundOperators (source : ObjectKey) (locationPath : String) (limits : ResourceLimits)
    (operations : List Operation) (place : Nat) : List FoundOperator :=
  (operations.zipIdx place).map (Operation.found source locationPath limits)

end Streams

end Pdfv
