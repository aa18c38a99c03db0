import Pdfv.Content.Forward
import Pdfv.Content.Summary
/-!
# The operations of a content stream

A content stream is a list of operations: operands, then an operator. `OperationsRead` reads them off the
bytes, token by token, and the loop of `summarize_content_stream` performs one after the other
(`OperationsRead.performs`). The spans it records are those that the operators open
(`summarizeContentStream_marked`).
-/

namespace Pdfv

open Loop Fallible

/-! ## One operator -/

/-- Every operator stands in one row of the table. -/
theorem operatorKind_iff {kind : OperatorKind} (ops : List String) {op : String}
    (hrow : (kind, ops) ∈ operatorTable) : operatorKind op = kind ↔ op ∈ ops := by
  have hkinds : ∀ row ∈ operatorTable, ∀ op ∈ row.2, operatorKind op = row.1 := by
    decide +kernel
  have hrows : ∀ row ∈ operatorTable, ∀ row' ∈ operatorTable, row.1 = row'.1 → row = row' := by
    decide +kernel
  have hknown : ∀ row ∈ operatorTable, row.1 ≠ .unknown := by
    decide +kernel
  constructor
  · intro h
    unfold operatorKind at h
    split at h
    · rename_i row hfind
      have hcontains := List.find?_some hfind
      have hmem := List.mem_of_find?_eq_some hfind
      have heq := hrows row hmem _ hrow h
      rw [heq] at hcontains
      exact List.contains_iff_mem.mp hcontains
    · exact absurd h.symm (hknown _ hrow)
  · exact hkinds _ hrow op

section Accept

variable {source : ObjectKey} {locationPath : String} {bytes : Bytes} {limits : ResourceLimits}
  {op : OperatorName} {offset : Nat} {location : ObjectLocation} {s s' : SummaryState}

/-- Where the stream goes on after an operator: after an inline image, behind its `EI`. -/
def GoesOn (bytes : Bytes) (limits : ResourceLimits) (op : OperatorName) (next after : Nat) : Prop :=
  if operatorKind op.text = .inlineImage then
    ∃ image, ContentTokenizer.parseInlineImage bytes limits next = .ok (image, after)
  else after = next

theorem GoesOn.unique {next after other : Nat} (h : GoesOn bytes limits op next after)
    (hother : GoesOn bytes limits op next other) : after = other := by
  unfold GoesOn at h hother
  split at h
  · rename_i hkind
    rw [if_pos hkind] at hother
    obtain ⟨image, himage⟩ := h
    obtain ⟨image', himage'⟩ := hother
    rw [himage] at himage'
    cases himage'
    rfl
  · rename_i hkind
    rw [if_neg hkind] at hother
    rw [h, hother]

theorem GoesOn.le {next after : Nat} (h : GoesOn bytes limits op next after) : next ≤ after := by
  unfold GoesOn at h
  split at h
  · obtain ⟨image, himage⟩ := h
    exact ContentTokenizer.parseInlineImage_le himage
  · exact Nat.le_of_eq h.symm

@[simp] theorem pushFact_pos (fact : OperatorFact) : (s.pushFact fact).pos = s.pos := rfl

@[simp] theorem pushFact_seen (fact : OperatorFact) :
    (s.pushFact fact).summary.operatorsSeen = s.summary.operatorsSeen := rfl

@[simp] theorem pushFact_marked (fact : OperatorFact) :
    (s.pushFact fact).summary.markedContent = s.summary.markedContent := rfl

@[simp] theorem warn_pos (message : String) : (s.warn message).pos = s.pos := rfl

@[simp] theorem warn_seen (message : String) :
    (s.warn message).summary.operatorsSeen = s.summary.operatorsSeen := rfl

@[simp] theorem warn_marked (message : String) :
    (s.warn message).summary.markedContent = s.summary.markedContent := rfl

@[simp] theorem pushNamedUse_pos (family : ResourceFamily) :
    (s.pushNamedUse family op location).pos = s.pos := by
  unfold SummaryState.pushNamedUse
  split <;> rfl

@[simp] theorem pushNamedUse_seen (family : ResourceFamily) :
    (s.pushNamedUse family op location).summary.operatorsSeen = s.summary.operatorsSeen := by
  unfold SummaryState.pushNamedUse
  split <;> rfl

@[simp] theorem pushNamedUse_operands (family : ResourceFamily) :
    (s.pushNamedUse family op location).operands = s.operands := by
  unfold SummaryState.pushNamedUse
  split <;> rfl

@[simp] theorem pushNamedUse_marked (family : ResourceFamily) :
    (s.pushNamedUse family op location).summary.markedContent = s.summary.markedContent := by
  unfold SummaryState.pushNamedUse
  split <;> rfl

theorem pushColorFact_ok (h : s.pushColorFact op location = .ok s') :
    ∃ fact, s' = s.pushFact fact := by
  unfold SummaryState.pushColorFact at h
  split at h
  · cases h
    exact ⟨_, rfl⟩
  · cases h

theorem pushUnknown_ok (h : s.pushUnknown op location = .ok s') : ∃ fact, s' = s.pushFact fact := by
  unfold SummaryState.pushUnknown at h
  split at h
  · cases h
    exact ⟨_, rfl⟩
  · cases h

/-- What is recorded of the operands of a span; the flags of a span change later, this does not. -/
def MarkedContentSpan.readings (span : MarkedContentSpan) :
    Option Int × Option ObjectKey × Option PdfName :=
  (span.mcid, span.properties, span.propertiesName)

theorem markActiveSpans_readings (mark : MarkedContentSpan → MarkedContentSpan)
    (hmark : ∀ span, (mark span).readings = span.readings) :
    (s.markActiveSpans mark).summary.markedContent.map MarkedContentSpan.readings
      = s.summary.markedContent.map MarkedContentSpan.readings := by
  unfold SummaryState.markActiveSpans
  dsimp only
  generalize s.summary.markedContent = spans
  induction s.markedStack generalizing spans with
  | nil => rfl
  | cons index rest ih =>
    rw [List.foldl_cons, ih]
    apply List.ext_getElem?
    intro i
    rw [List.getElem?_map, List.getElem?_modify, List.getElem?_map]
    cases spans[i]? with
    | none => rfl
    | some span =>
      split
      · change some (mark span).readings = some span.readings
        rw [hmark]
      · rfl

/-- The operators that open a span. -/
def opensSpan (op : OperatorName) : Bool :=
  op.text = "BMC" || op.text = "BDC"

/-- What is recorded of the operands when a span is opened. -/
def operandReadings (operands : List Operand) : Option Int × Option ObjectKey × Option PdfName :=
  (inlineMcid operands, propertiesReference operands, propertiesName operands)

theorem beginMarkedContent_ok (h : s.beginMarkedContent limits op location = .ok s') :
    s'.pos = s.pos ∧ s'.summary.operatorsSeen = s.summary.operatorsSeen
      ∧ s'.summary.markedContent.map MarkedContentSpan.readings
        = s.summary.markedContent.map MarkedContentSpan.readings
          ++ if opensSpan op then [operandReadings s.operands] else [] := by
  unfold SummaryState.beginMarkedContent at h
  unfold opensSpan
  dsimp only at h
  split at h
  all_goals
    obtain ⟨tag, -, h⟩ := bind_eq_ok.mp h
    cases pure_eq_ok.mp h
    by_cases hopens : op.text = "BMC" ∨ op.text = "BDC"
    · simp [hopens, MarkedContentSpan.readings, operandReadings]
    · simp [hopens]

theorem opensSpan_kind (h : operatorKind op.text ≠ .markedContent) : opensSpan op = false := by
  rw [← Bool.not_eq_true]
  intro hopens
  apply h
  unfold opensSpan at hopens
  rw [Bool.or_eq_true, decide_eq_true_eq, decide_eq_true_eq] at hopens
  rcases hopens with hop | hop
  · rw [hop]
    decide +kernel
  · rw [hop]
    decide +kernel

/-- What an operator leaves alone, and the spans that it opens. -/
theorem classifyOperator_ok (h : classifyOperator bytes limits op location s = .ok s') :
    GoesOn bytes limits op s.pos s'.pos ∧ s'.summary.operatorsSeen = s.summary.operatorsSeen
      ∧ s'.summary.markedContent.map MarkedContentSpan.readings
        = s.summary.markedContent.map MarkedContentSpan.readings
          ++ if opensSpan op then [operandReadings s.operands] else [] := by
  unfold GoesOn
  by_cases hmarked : operatorKind op.text = .markedContent
  · unfold classifyOperator at h
    rw [hmarked] at h ⊢
    exact beginMarkedContent_ok h
  · rw [opensSpan_kind hmarked]
    unfold classifyOperator at h
    split at h
    · rename_i hkind
      obtain ⟨⟨image, pos⟩, himage, h⟩ := bind_eq_ok.mp h
      cases pure_eq_ok.mp h
      rw [if_pos hkind]
      refine ⟨⟨image, himage⟩, rfl, ?_⟩
      simp only [pushFact_marked, Bool.false_eq_true, if_false, List.append_nil]
      exact markActiveSpans_readings _ fun _ => rfl
    · rename_i hkind
      cases h
      rw [hkind, if_neg (by decide)]
      simp
    · rename_i hkind
      cases h
      rw [hkind, if_neg (by decide)]
      split <;> simp
    · rename_i hkind
      cases h
      rw [hkind, if_neg (by decide)]
      simp
    · rename_i hkind
      cases h
      rw [hkind, if_neg (by decide)]
      refine ⟨rfl, rfl, ?_⟩
      simp only [pushFact_marked, Bool.false_eq_true, if_false, List.append_nil]
      exact markActiveSpans_readings _ fun _ => rfl
    · rename_i hkind
      exact absurd hkind hmarked
    · rename_i hkind
      obtain ⟨tag, -, h⟩ := bind_eq_ok.mp h
      cases pure_eq_ok.mp h
      rw [hkind, if_neg (by decide)]
      simp
    · rename_i hkind
      cases h
      rw [hkind, if_neg (by decide)]
      split <;> simp
    · rename_i hkind
      cases h
      rw [hkind, if_neg (by decide)]
      simp
    · rename_i hkind
      cases h
      rw [hkind, if_neg (by decide)]
      simp
    · rename_i hkind
      cases h
      rw [hkind, if_neg (by decide)]
      simp
    · rename_i hkind
      obtain ⟨fact, rfl⟩ := pushColorFact_ok h
      rw [hkind, if_neg (by decide)]
      simp
    · rename_i hkind
      obtain ⟨fact, rfl⟩ := pushColorFact_ok h
      rw [hkind, if_neg (by decide)]
      simp
    · rename_i hkind
      obtain ⟨fact, rfl⟩ := pushColorFact_ok h
      rw [hkind, if_neg (by decide)]
      simp
    · rename_i hkind
      split at h
      · cases h
        rw [hkind, if_neg (by decide)]
        refine ⟨rfl, rfl, ?_⟩
        simp only [pushFact_marked, Bool.false_eq_true, if_false, List.append_nil]
        exact markActiveSpans_readings _ fun _ => rfl
      · obtain ⟨fact, rfl⟩ := pushUnknown_ok h
        rw [hkind, if_neg (by decide)]
        simp
    · rename_i hkind
      cases h
      rw [hkind, if_neg (by decide)]
      simp
    · rename_i hkind
      cases h
      rw [hkind, if_neg (by decide)]
      simp
    · rename_i hkind
      obtain ⟨fact, rfl⟩ := pushUnknown_ok h
      rw [hkind, if_neg (by decide)]
      simp

/-- An accepted operator: it is counted, its span is opened, and nothing waits after it. -/
theorem acceptOperator_ok (h : acceptOperator source locationPath bytes limits op offset s = .ok s') :
    GoesOn bytes limits op s.pos s'.pos ∧ s'.operands = [] ∧ s'.operandBytes = 0
      ∧ s'.summary.operatorsSeen = s.summary.operatorsSeen + 1
      ∧ s'.summary.markedContent.map MarkedContentSpan.readings
        = s.summary.markedContent.map MarkedContentSpan.readings
          ++ if opensSpan op then [operandReadings s.operands] else [] := by
  unfold acceptOperator at h
  obtain ⟨-, -, h⟩ := bind_eq_ok.mp h
  obtain ⟨after, hafter, h⟩ := bind_eq_ok.mp h
  cases pure_eq_ok.mp h
  obtain ⟨hpos, hseen, hmarked⟩ := classifyOperator_ok hafter
  exact ⟨hpos, rfl, rfl, hseen, hmarked⟩

end Accept

section Loop

variable {source : ObjectKey} {locationPath : String} {bytes : Bytes} {limits : ResourceLimits}

theorem continueState_next {next : Except ParseError SummaryState} {s : SummaryState}
    (h : continueState next = .next s) : next = .ok s := by
  unfold continueState at h
  split at h
  · cases h
    rfl
  · cases h

theorem continueState_ok {next : Except ParseError SummaryState} {s : SummaryState} :
    continueState next ≠ .done (.ok s) := by
  unfold continueState
  split <;> exact nofun

/-! ## Operations -/

/-- An operator with its offset, its operands and the position after it. -/
structure Operation where
  operands : List Operand
  op : OperatorName
  offset : Nat
  next : Nat

/-- Operands one after the other, between two positions. -/
inductive OperandsRead (bytes : Bytes) (limits : ResourceLimits) : Nat → List Operand → Nat → Prop where
  | nil (pos : Nat) : OperandsRead bytes limits pos [] pos
  | cons {pos next stop : Nat} {operand : Operand} {operands : List Operand}
      (htoken : ContentTokenizer.nextToken bytes limits pos = .ok (some (.operand operand), next))
      (rest : OperandsRead bytes limits next operands stop) :
      OperandsRead bytes limits pos (operand :: operands) stop

/-- Operations one after the other, between two positions. -/
inductive OperationsRead (bytes : Bytes) (limits : ResourceLimits) :
    Nat → List Operation → Nat → Prop where
  | nil (pos : Nat) : OperationsRead bytes limits pos [] pos
  | cons {pos mid after stop : Nat} {operation : Operation} {operations : List Operation}
      (hoperands : OperandsRead bytes limits pos operation.operands mid)
      (htoken : ContentTokenizer.nextToken bytes limits mid
        = .ok (some (.operator operation.op operation.offset), operation.next))
      (hafter : GoesOn bytes limits operation.op operation.next after)
      (rest : OperationsRead bytes limits after operations stop) :
      OperationsRead bytes limits pos (operation :: operations) stop

/-- The operands that are kept of those that were read: past the caps none is. -/
def keepOperand (limits : ResourceLimits) (kept : List Operand × Nat) (operand : Operand) :
    List Operand × Nat :=
  if kept.1.length ≥ limits.maxContentStreamOperandCount
      || kept.2 + operand.byteLen > limits.maxContentStreamOperandBytes then ([], 0)
  else (kept.1 ++ [operand], kept.2 + operand.byteLen)

/-- The operands of an operation are within the caps. -/
def Operation.WithinCaps (operation : Operation) (limits : ResourceLimits) : Prop :=
  operation.operands.length ≤ limits.maxContentStreamOperandCount
    ∧ (operation.operands.map Operand.byteLen).sum ≤ limits.maxContentStreamOperandBytes

instance (operation : Operation) : Decidable (operation.WithinCaps limits) := by
  unfold Operation.WithinCaps
  infer_instance

theorem keepOperands_eq {operands kept : List Operand} {size : Nat}
    (hcount : kept.length + operands.length ≤ limits.maxContentStreamOperandCount)
    (hbytes : size + (operands.map Operand.byteLen).sum ≤ limits.maxContentStreamOperandBytes) :
    operands.foldl (keepOperand limits) (kept, size)
      = (kept ++ operands, size + (operands.map Operand.byteLen).sum) := by
  induction operands generalizing kept size with
  | nil => simp
  | cons operand operands ih =>
    rw [List.length_cons] at hcount
    rw [List.map_cons, List.sum_cons] at hbytes
    have hkeep : keepOperand limits (kept, size) operand = (kept ++ [operand], size + operand.byteLen) := by
      unfold keepOperand
      rw [if_neg]
      simp only [ge_iff_le, gt_iff_lt, Bool.or_eq_true, decide_eq_true_eq, not_or, not_le, not_lt]
      exact ⟨by omega, by omega⟩
    rw [List.foldl_cons, hkeep, ih (by rw [List.length_append, List.length_singleton]; omega) (by omega)]
    rw [List.append_assoc, List.map_cons, List.sum_cons, Nat.add_assoc]
    rfl

/-- One operation of the loop: its operands are pushed, its operator is accepted. -/
def performOperation (source : ObjectKey) (locationPath : String) (bytes : Bytes)
    (limits : ResourceLimits) (s : SummaryState) (operation : Operation) :
    Except ParseError SummaryState := do
  let s ← operation.operands.foldlM (fun s operand => s.pushOperand limits operand) s
  acceptOperator source locationPath bytes limits operation.op operation.offset
    { s with pos := operation.next }

/-- What comes of one more operand does not depend on the position. -/
theorem pushOperand_pos (s : SummaryState) (operand : Operand) (pos : Nat) :
    { s with pos }.pushOperand limits operand
      = (s.pushOperand limits operand).map fun s => { s with pos } := by
  unfold SummaryState.pushOperand
  dsimp only
  split_ifs <;> rfl

theorem pushOperand_ok {s s' : SummaryState} {operand : Operand}
    (h : s.pushOperand limits operand = .ok s') :
    (s'.operands, s'.operandBytes) = keepOperand limits (s.operands, s.operandBytes) operand
      ∧ s'.pos = s.pos ∧ s'.summary.operatorsSeen = s.summary.operatorsSeen
      ∧ s'.summary.markedContent = s.summary.markedContent := by
  unfold SummaryState.pushOperand at h
  unfold keepOperand
  dsimp only at h ⊢
  split_ifs at h with hlarge hcap
  · cases h
    rw [if_pos hcap]
    exact ⟨rfl, rfl, rfl, rfl⟩
  · cases h
    rw [if_neg hcap]
    exact ⟨rfl, rfl, rfl, rfl⟩

theorem pushOperands_pos (s : SummaryState) (operands : List Operand) (pos : Nat) :
    operands.foldlM (fun (s : SummaryState) operand => s.pushOperand limits operand) { s with pos }
      = (operands.foldlM (fun (s : SummaryState) operand => s.pushOperand limits operand) s).map
          fun s => { s with pos } := by
  induction operands generalizing s with
  | nil => rfl
  | cons operand operands ih =>
    rw [List.foldlM_cons, List.foldlM_cons, pushOperand_pos]
    cases s.pushOperand limits operand with
    | error e => rfl
    | ok next => exact ih next

theorem pushOperands_ok {s s' : SummaryState} {operands : List Operand}
    (h : operands.foldlM (fun (s : SummaryState) operand => s.pushOperand limits operand) s = .ok s') :
    (s'.operands, s'.operandBytes) = operands.foldl (keepOperand limits) (s.operands, s.operandBytes)
      ∧ s'.summary.operatorsSeen = s.summary.operatorsSeen
      ∧ s'.summary.markedContent = s.summary.markedContent := by
  induction operands generalizing s with
  | nil =>
    cases pure_eq_ok.mp h
    exact ⟨rfl, rfl, rfl⟩
  | cons operand operands ih =>
    rw [List.foldlM_cons] at h
    obtain ⟨next, hnext, h⟩ := bind_eq_ok.mp h
    obtain ⟨hkept, -, hseen, hmarked⟩ := pushOperand_ok hnext
    obtain ⟨hall, hseen', hmarked'⟩ := ih h
    rw [List.foldl_cons, ← hkept]
    exact ⟨hall, hseen'.trans hseen, hmarked'.trans hmarked⟩

/-- A performed operation that stays within the operand caps. -/
theorem performOperation_ok {s s' : SummaryState} {operation : Operation}
    (hnone : s.operands = []) (hzero : s.operandBytes = 0)
    (h : performOperation source locationPath bytes limits s operation = .ok s') :
    GoesOn bytes limits operation.op operation.next s'.pos ∧ s'.operands = [] ∧ s'.operandBytes = 0
      ∧ s'.summary.operatorsSeen = s.summary.operatorsSeen + 1
      ∧ s'.summary.markedContent.map MarkedContentSpan.readings
        = s.summary.markedContent.map MarkedContentSpan.readings
          ++ if opensSpan operation.op then
              [operandReadings (operation.operands.foldl (keepOperand limits) ([], 0)).1] else [] := by
  unfold performOperation at h
  obtain ⟨mid, hmid, h⟩ := bind_eq_ok.mp h
  obtain ⟨hkept, hseen, hmarked⟩ := pushOperands_ok hmid
  obtain ⟨hpos, hempty, hbytes, hcount, hspans⟩ := acceptOperator_ok h
  have hoperands : mid.operands = (operation.operands.foldl (keepOperand limits) ([], 0)).1 := by
    rw [hnone, hzero] at hkept
    rw [← hkept]
  refine ⟨hpos, hempty, hbytes, ?_, ?_⟩
  · rw [hcount]
    exact congrArg (· + 1) hseen
  · rw [hspans]
    dsimp only
    rw [hmarked, hoperands]

/-! ## The loop -/

theorem summarizeStep_operand {s : SummaryState} {operand : Operand} {next : Nat}
    (htoken : ContentTokenizer.nextToken bytes limits s.pos = .ok (some (.operand operand), next)) :
    summarizeStep source locationPath bytes limits s
      = continueState ({ s with pos := next }.pushOperand limits operand) := by
  unfold summarizeStep
  rw [htoken]

theorem summarizeStep_operator {s : SummaryState} {op : OperatorName} {offset next : Nat}
    (htoken : ContentTokenizer.nextToken bytes limits s.pos = .ok (some (.operator op offset), next))
    (hroom : s.summary.operatorsSeen < limits.maxContentStreamOps) :
    summarizeStep source locationPath bytes limits s
      = continueState (acceptOperator source locationPath bytes limits op offset { s with pos := next }) := by
  unfold summarizeStep
  rw [htoken]
  exact if_neg (Nat.not_le.mpr hroom)

/-- Every pass but the last moves forward. -/
theorem summarizeStep_lt (s s' : SummaryState)
    (h : summarizeStep source locationPath bytes limits s = .next s') :
    bytes.length - s'.pos < bytes.length - s.pos := by
  have hforward : s.pos < bytes.length ∧ s.pos < s'.pos := by
    unfold summarizeStep at h
    split at h
    · cases h
    · cases h
    · rename_i htoken
      obtain ⟨hinside, hlt⟩ := ContentTokenizer.nextToken_lt htoken
      obtain ⟨-, hpos, -⟩ := pushOperand_ok (continueState_next h)
      dsimp only at hpos
      omega
    · rename_i htoken
      obtain ⟨hinside, hlt⟩ := ContentTokenizer.nextToken_lt htoken
      split at h
      · cases h
      · obtain ⟨hgoes, -⟩ := acceptOperator_ok (continueState_next h)
        have hle := hgoes.le
        dsimp only at hle
        omega
  omega

/-- The loop comes to its own end. -/
theorem summarizeLoop_finishes :
    Finishes (summarizeStep source locationPath bytes limits) (SummaryState.initial source)
      (runLoop (summarizeStep source locationPath bytes limits) (fun s => .ok s) (bytes.length + 1)
        (SummaryState.initial source)) :=
  runLoop_finishes summarizeStep_lt (Nat.lt_succ_of_le (Nat.sub_le _ _))

/-- A loop that does not fail pushes the operands that are read. -/
theorem OperandsRead.pushes {pos stop : Nat} {operands : List Operand} {s final : SummaryState}
    (h : OperandsRead bytes limits pos operands stop) (hpos : s.pos = pos)
    (hfinish : Finishes (summarizeStep source locationPath bytes limits) s (.ok final)) :
    ∃ s', operands.foldlM (fun (s : SummaryState) operand => s.pushOperand limits operand) s = .ok s'
      ∧ Finishes (summarizeStep source locationPath bytes limits) { s' with pos := stop } (.ok final) := by
  induction h generalizing s with
  | nil pos => exact ⟨s, rfl, by rw [← hpos]; exact hfinish⟩
  | @cons pos next stop operand operands htoken _ ih =>
    rw [← hpos] at htoken
    cases hfinish with
    | done hdone =>
      rw [summarizeStep_operand htoken] at hdone
      exact absurd hdone continueState_ok
    | @next _ mid _ hnext hrest =>
      rw [summarizeStep_operand htoken] at hnext
      have hpush := continueState_next hnext
      obtain ⟨-, hmidPos, -⟩ := pushOperand_ok hpush
      obtain ⟨s', hfold, hfinal⟩ := ih hmidPos hrest
      rw [List.foldlM_cons]
      rw [pushOperand_pos] at hpush
      cases hpushed : s.pushOperand limits operand with
      | error e =>
        rw [hpushed] at hpush
        cases hpush
      | ok pushed =>
        rw [hpushed] at hpush
        cases hpush
        rw [pushOperands_pos] at hfold
        cases hall : operands.foldlM (fun (s : SummaryState) operand => s.pushOperand limits operand)
            pushed with
        | error e =>
          rw [hall] at hfold
          cases hfold
        | ok last =>
          rw [hall] at hfold
          cases hfold
          exact ⟨last, hall, hfinal⟩

/-- Operations of a stream are performed one after the other, up to the operator cap. -/
theorem OperationsRead.performs {pos stop : Nat} {operations : List Operation} {s final : SummaryState}
    (h : OperationsRead bytes limits pos operations stop) (hpos : s.pos = pos) (hnone : s.operands = [])
    (hzero : s.operandBytes = 0)
    (hroom : s.summary.operatorsSeen + operations.length ≤ limits.maxContentStreamOps)
    (hfinish : Finishes (summarizeStep source locationPath bytes limits) s (.ok final)) :
    ∃ s', operations.foldlM (performOperation source locationPath bytes limits) s = .ok s'
      ∧ s'.pos = stop ∧ s'.operands = [] ∧ s'.operandBytes = 0
      ∧ s'.summary.operatorsSeen = s.summary.operatorsSeen + operations.length
      ∧ Finishes (summarizeStep source locationPath bytes limits) s' (.ok final) := by
  induction h generalizing s with
  | nil pos => exact ⟨s, rfl, hpos, hnone, hzero, rfl, hfinish⟩
  | @cons pos mid after stop operation operations hoperands htoken hafter _ ih =>
    rw [List.length_cons] at hroom
    obtain ⟨pushed, hpushed, hmid⟩ := hoperands.pushes hpos hfinish
    obtain ⟨-, hseen, -⟩ := pushOperands_ok hpushed
    have hroomHere : { pushed with pos := mid }.summary.operatorsSeen < limits.maxContentStreamOps := by
      dsimp only
      omega
    have hstep := @summarizeStep_operator source locationPath _ _ { pushed with pos := mid } _ _ _ htoken
      hroomHere
    cases hmid with
    | done hdone =>
      rw [hstep] at hdone
      exact absurd hdone continueState_ok
    | @next _ s₁ _ hnext hrest =>
      rw [hstep] at hnext
      have haccept := continueState_next hnext
      have hperform : performOperation source locationPath bytes limits s operation = .ok s₁ := by
        unfold performOperation
        rw [hpushed]
        exact haccept
      obtain ⟨hgoes, hnone₁, hzero₁, hseen₁, -⟩ := performOperation_ok hnone hzero hperform
      obtain ⟨s', hfold, hpos', hnone', hzero', hseen', hfinal⟩ :=
        ih (hgoes.unique hafter) hnone₁ hzero₁ (by omega) hrest
      refine ⟨s', ?_, hpos', hnone', hzero', ?_, hfinal⟩
      · rw [List.foldlM_cons, hperform]
        exact hfold
      · rw [hseen', hseen₁, List.length_cons]
        omega

/-- The loop pushes the operands that are read, when each push succeeds. -/
theorem OperandsRead.steps {pos stop : Nat} {operands : List Operand} {s s' : SummaryState}
    (h : OperandsRead bytes limits pos operands stop) (hpos : s.pos = pos)
    (hpush : operands.foldlM (fun (s : SummaryState) operand => s.pushOperand limits operand) s = .ok s') :
    ∃ n, Steps (summarizeStep source locationPath bytes limits) n s { s' with pos := stop } := by
  induction h generalizing s s' with
  | nil pos =>
    cases pure_eq_ok.mp hpush
    rw [← hpos]
    exact ⟨0, .refl s⟩
  | @cons pos next stop operand operands htoken _ ih =>
    rw [← hpos] at htoken
    rw [List.foldlM_cons] at hpush
    obtain ⟨mid, hmid, hall⟩ := bind_eq_ok.mp hpush
    have hstep : summarizeStep source locationPath bytes limits s = .next { mid with pos := next } := by
      rw [summarizeStep_operand htoken, pushOperand_pos, hmid]
      rfl
    have hrest : operands.foldlM (fun (s : SummaryState) operand => s.pushOperand limits operand)
        { mid with pos := next } = .ok { s' with pos := next } := by
      rw [pushOperands_pos, hall]
      rfl
    obtain ⟨n, hsteps⟩ := ih rfl hrest
    exact ⟨n + 1, .next hstep hsteps⟩

/-- The loop performs an operation that is read, when it can be performed. -/
theorem performOperation_steps {pos mid : Nat} {operation : Operation} {s s' : SummaryState}
    (hoperands : OperandsRead bytes limits pos operation.operands mid) (hpos : s.pos = pos)
    (htoken : ContentTokenizer.nextToken bytes limits mid
      = .ok (some (.operator operation.op operation.offset), operation.next))
    (hroom : s.summary.operatorsSeen < limits.maxContentStreamOps)
    (hperform : performOperation source locationPath bytes limits s operation = .ok s') :
    ∃ n, Steps (summarizeStep source locationPath bytes limits) n s s' := by
  unfold performOperation at hperform
  obtain ⟨pushed, hpushed, haccept⟩ := bind_eq_ok.mp hperform
  obtain ⟨-, hseen, -⟩ := pushOperands_ok hpushed
  obtain ⟨n, hsteps⟩ := @OperandsRead.steps source locationPath bytes limits _ _ _ _ _ hoperands hpos hpushed
  have hstep : summarizeStep source locationPath bytes limits { pushed with pos := mid } = .next s' := by
    rw [summarizeStep_operator htoken (by dsimp only; omega)]
    unfold continueState
    dsimp only
    rw [haccept]
  exact ⟨n + 1, hsteps.trans (.next hstep (.refl s'))⟩

/-! ## Marked content -/

/-- What the operations of a stream record of the operands of spans. -/
def spanReadings (limits : ResourceLimits) (operations : List Operation) :
    List (Option Int × Option ObjectKey × Option PdfName) :=
  (operations.filter fun operation => opensSpan operation.op).map fun operation =>
    operandReadings (operation.operands.foldl (keepOperand limits) ([], 0)).1

theorem performOperations_marked {operations : List Operation} {s s' : SummaryState}
    (hnone : s.operands = []) (hzero : s.operandBytes = 0)
    (h : operations.foldlM (performOperation source locationPath bytes limits) s = .ok s') :
    s'.summary.markedContent.map MarkedContentSpan.readings
      = s.summary.markedContent.map MarkedContentSpan.readings ++ spanReadings limits operations := by
  induction operations generalizing s with
  | nil =>
    cases pure_eq_ok.mp h
    exact (List.append_nil _).symm
  | cons operation operations ih =>
    rw [List.foldlM_cons] at h
    obtain ⟨next, hnext, h⟩ := bind_eq_ok.mp h
    obtain ⟨-, hnone', hzero', -, hmarked⟩ := performOperation_ok hnone hzero hnext
    rw [ih hnone' hzero' h, hmarked, List.append_assoc]
    congr 1
    unfold spanReadings
    rw [List.filter_cons]
    split
    · rfl
    · rfl

/-- Spans that are recorded stay recorded. -/
theorem finishes_marked {s final : SummaryState}
    (h : Finishes (summarizeStep source locationPath bytes limits) s (.ok final)) :
    s.summary.markedContent.map MarkedContentSpan.readings
      <+: final.summary.markedContent.map MarkedContentSpan.readings := by
  generalize hr : (Except.ok final : Except ParseError SummaryState) = r at h
  induction h with
  | @done s r hdone =>
    subst hr
    unfold summarizeStep at hdone
    split at hdone
    · cases hdone
    · cases hdone
      exact List.prefix_rfl
    · exact absurd hdone continueState_ok
    · split at hdone
      · cases hdone
        exact List.prefix_rfl
      · exact absurd hdone continueState_ok
  | @next s s' r hnext _ ih =>
    refine List.IsPrefix.trans ?_ (ih hr)
    unfold summarizeStep at hnext
    split at hnext
    · cases hnext
    · cases hnext
    · obtain ⟨-, -, -, hmarked⟩ := pushOperand_ok (continueState_next hnext)
      rw [hmarked]
    · split at hnext
      · cases hnext
      · obtain ⟨-, -, -, -, hmarked⟩ := acceptOperator_ok (continueState_next hnext)
        rw [hmarked]
        exact List.prefix_append _ _

/-- The spans of a summary are those that its operators open, in their order. -/
theorem summarizeContentStream_marked {summary : ContentStreamSummary} {operations : List Operation}
    {stop : Nat} (h : summarizeContentStream source locationPath bytes limits = .ok summary)
    (hread : OperationsRead bytes limits 0 operations stop)
    (hroom : operations.length ≤ limits.maxContentStreamOps) :
    spanReadings limits operations <+: summary.markedContent.map MarkedContentSpan.readings := by
  unfold summarizeContentStream at h
  obtain ⟨final, hfinal, h⟩ := bind_eq_ok.mp h
  cases pure_eq_ok.mp h
  have hfinish := @summarizeLoop_finishes source locationPath bytes limits
  rw [hfinal] at hfinish
  have hroomAll : (SummaryState.initial source).summary.operatorsSeen + operations.length
      ≤ limits.maxContentStreamOps := by
    change 0 + operations.length ≤ _
    omega
  obtain ⟨s, hperformed, -, -, -, -, hrest⟩ := hread.performs rfl rfl rfl hroomAll hfinish
  have hmarked := performOperations_marked rfl rfl hperformed
  have hprefix := finishes_marked hrest
  rw [hmarked] at hprefix
  split
  · exact hprefix
  · exact hprefix

end Loop

end Pdfv
