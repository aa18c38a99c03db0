import Pdfv.Content.Spans
/-!
# What operators leave in a summary

An operator with its operands decides the fact that is recorded of it, the use of a resource and, where
it opens a span, what is recorded of the span (`AppliedOperator`). A stream that is read to its end
within the caps (`StreamContent`) has exactly these in its summary, one after the other.
-/

namespace Pdfv

open Loop Fallible Brackets

/-! ## Tokens -/

deriving instance DecidableEq for ContentTokenizer.InlineImageSummary

/-- A token of a content stream; an inline image belongs to its operator. -/
inductive ContentToken where
  | operand (operand : Operand)
  | operator (op : OperatorName) (image : Option ContentTokenizer.InlineImageSummary)
deriving DecidableEq

/-- The inline image that an operator is followed by. -/
def imageAt (bytes : Bytes) (limits : ResourceLimits) (op : OperatorName) (pos : Nat) :
    Option ContentTokenizer.InlineImageSummary :=
  if operatorKind op.text = .inlineImage then
    (ContentTokenizer.parseInlineImage bytes limits pos).toOption.map Prod.fst
  else none

/-- An operator with the operands before it. -/
structure AppliedOperator where
  op : OperatorName
  operands : List Operand
  image : Option ContentTokenizer.InlineImageSummary

namespace AppliedOperator

variable (a : AppliedOperator) (location : ObjectLocation)

/-- The bytes of the operands. -/
def operandBytes : Nat :=
  (a.operands.map Operand.byteLen).sum

/-- The fact that is recorded of the operator. -/
def fact : OperatorFact :=
  match operatorKind a.op.text with
  | .inlineImage =>
    let image : ContentTokenizer.InlineImageSummary := a.image.getD ⟨none, none, none, none, []⟩
    .inlineImage image.width image.height image.colorSpace image.bitsPerComponent image.filters location
  | .textObject => .textObject a.op location
  | .textState => .textState a.op location
  | .textPosition => .textPosition a.op location
  | .textShow => .textShow a.op a.operandBytes location
  | .markedContent =>
    .markedContent ((firstNameOperand a.operands).getD ⟨utf8 "Unknown"⟩)
      (propertiesReference a.operands) location
  | .endMarkedContent => .markedContent ⟨utf8 "EMC"⟩ none location
  | .save | .restore | .graphicsState | .extGState => .graphicsState a.op location
  | .colorSpace | .color | .shading => .color a.op a.operands.length a.operandBytes location
  | .xObject =>
    match firstNameOperand a.operands with
    | some name => .xObjectInvoke name location
    | none => .unknown a.op a.operands.length location
  | .path => .path a.op location
  | .compatibility => .compatibility a.op location
  | .unknown => .unknown a.op a.operands.length location

/-- The family of resources that the operator names one of. -/
def usedFamily : Option ResourceFamily :=
  match operatorKind a.op.text with
  | .textState => if a.op.text = "Tf" then some .font else none
  | .extGState => some .extGState
  | .colorSpace => some .colorSpace
  | .shading => some .shading
  | .xObject => some .xObject
  | _ => none

/-- The use of a resource that is recorded of the operator. -/
def uses : List ResourceUse :=
  match a.usedFamily, firstNameOperand a.operands with
  | some family, some name => [⟨family, name, a.op, location⟩]
  | _, _ => []

end AppliedOperator

/-! ## What an operator records -/

section Classify

variable {source : ObjectKey} {locationPath : String} {bytes : Bytes} {limits : ResourceLimits}
  {op : OperatorName} {location : ObjectLocation} {s s' : SummaryState}

/-- A state records a fact and uses. -/
structure LeavesFact (a : AppliedOperator) (location : ObjectLocation) (s s' : SummaryState) : Prop where
  facts : s'.summary.facts = s.summary.facts ++ [a.fact location]
  uses : s'.summary.resourceUses = s.summary.resourceUses ++ a.uses location

theorem leavesFact_unnamed {a : AppliedOperator} {fact : OperatorFact} (hfact : a.fact location = fact)
    (huses : a.usedFamily = none)
    (h : s'.summary.facts = s.summary.facts ++ [fact])
    (hsame : s'.summary.resourceUses = s.summary.resourceUses) : LeavesFact a location s s' := by
  refine ⟨by rw [hfact]; exact h, ?_⟩
  unfold AppliedOperator.uses
  rw [huses, hsame]
  exact (List.append_nil _).symm

@[simp] theorem pushNamedUse_operandBytes (family : ResourceFamily) :
    (s.pushNamedUse family op location).operandBytes = s.operandBytes := by
  unfold SummaryState.pushNamedUse
  split <;> rfl

/-- An operator that names a resource and then records a fact. -/
theorem pushNamedUse_leaves {family : ResourceFamily}
    {image : Option ContentTokenizer.InlineImageSummary} {fact : OperatorFact}
    (huses : AppliedOperator.usedFamily ⟨op, s.operands, image⟩ = some family)
    (h : s' = (s.pushNamedUse family op location).pushFact fact)
    (hfact : AppliedOperator.fact ⟨op, s.operands, image⟩ location = fact) :
    LeavesFact ⟨op, s.operands, image⟩ location s s' := by
  subst h
  unfold SummaryState.pushNamedUse
  constructor
  · rw [hfact]
    split <;> rfl
  · unfold AppliedOperator.uses
    rw [huses]
    dsimp only
    split
    · rename_i name hname
      rw [hname]
      rfl
    · rename_i hname
      rw [hname]
      exact (List.append_nil _).symm

theorem pushColorFact_state (h : s.pushColorFact op location = .ok s') :
    s' = s.pushFact (.color op s.operands.length s.operandBytes location) := by
  unfold SummaryState.pushColorFact at h
  split at h
  · cases h
    rfl
  · cases h

theorem pushUnknown_state (h : s.pushUnknown op location = .ok s') :
    s' = s.pushFact (.unknown op s.operands.length location) := by
  unfold SummaryState.pushUnknown at h
  split at h
  · cases h
    rfl
  · cases h

/-- A classified operator leaves its fact and its use. -/
theorem classifyOperator_leaves (h : classifyOperator bytes limits op location s = .ok s')
    (hbytes : s.operandBytes = (s.operands.map Operand.byteLen).sum) :
    LeavesFact ⟨op, s.operands, imageAt bytes limits op s.pos⟩ location s s' := by
  unfold classifyOperator at h
  cases hkind : operatorKind op.text with
  | inlineImage =>
    rw [hkind] at h
    dsimp only at h
    obtain ⟨⟨image, pos⟩, himage, h⟩ := bind_eq_ok.mp h
    cases pure_eq_ok.mp h
    refine leavesFact_unnamed ?_ (by simp only [AppliedOperator.usedFamily, hkind]) rfl rfl
    unfold AppliedOperator.fact imageAt
    dsimp only
    rw [hkind, if_pos rfl, himage]
    rfl
  | textObject =>
    rw [hkind] at h
    dsimp only at h
    cases h
    exact leavesFact_unnamed (by simp only [AppliedOperator.fact, hkind])
      (by simp only [AppliedOperator.usedFamily, hkind]) rfl rfl
  | textState =>
    rw [hkind] at h
    dsimp only at h
    cases h
    have hfact : AppliedOperator.fact ⟨op, s.operands, imageAt bytes limits op s.pos⟩ location
        = .textState op location := by
      simp only [AppliedOperator.fact, hkind]
    by_cases hfont : op.text = "Tf"
    · have hfamily : AppliedOperator.usedFamily ⟨op, s.operands, imageAt bytes limits op s.pos⟩
          = some .font := by
        simp only [AppliedOperator.usedFamily, hkind, if_pos hfont]
      exact pushNamedUse_leaves hfamily (by rw [if_pos hfont]) hfact
    · rw [if_neg hfont]
      exact leavesFact_unnamed hfact
        (by simp only [AppliedOperator.usedFamily, hkind, if_neg hfont]) rfl rfl
  | textPosition =>
    rw [hkind] at h
    dsimp only at h
    cases h
    exact leavesFact_unnamed (by simp only [AppliedOperator.fact, hkind])
      (by simp only [AppliedOperator.usedFamily, hkind]) rfl rfl
  | textShow =>
    rw [hkind] at h
    dsimp only at h
    cases h
    refine leavesFact_unnamed ?_ (by simp only [AppliedOperator.usedFamily, hkind]) rfl rfl
    simp only [AppliedOperator.fact, hkind, AppliedOperator.operandBytes, ← hbytes]
    rfl
  | markedContent =>
    rw [hkind] at h
    dsimp only at h
    have hfact : AppliedOperator.fact ⟨op, s.operands, imageAt bytes limits op s.pos⟩ location
        = .markedContent ((firstNameOperand s.operands).getD ⟨utf8 "Unknown"⟩)
          (propertiesReference s.operands) location := by
      simp only [AppliedOperator.fact, hkind]
    refine leavesFact_unnamed hfact (by simp only [AppliedOperator.usedFamily, hkind]) ?_ ?_
    · unfold SummaryState.beginMarkedContent at h
      dsimp only at h
      split at h
      · rename_i tag hname
        cases pure_eq_ok.mp h
        rw [hname]
        split <;> rfl
      · rename_i hname
        obtain ⟨tag, htag, h⟩ := bind_eq_ok.mp h
        cases newName_ok htag
        cases pure_eq_ok.mp h
        rw [hname]
        split <;> rfl
    · unfold SummaryState.beginMarkedContent at h
      dsimp only at h
      split at h
      all_goals
        obtain ⟨tag, -, h⟩ := bind_eq_ok.mp h
        cases pure_eq_ok.mp h
        split <;> rfl
  | endMarkedContent =>
    rw [hkind] at h
    dsimp only at h
    obtain ⟨tag, htag, h⟩ := bind_eq_ok.mp h
    cases newName_ok htag
    cases pure_eq_ok.mp h
    exact leavesFact_unnamed (by simp only [AppliedOperator.fact, hkind])
      (by simp only [AppliedOperator.usedFamily, hkind]) rfl rfl
  | save =>
    rw [hkind] at h
    dsimp only at h
    cases h
    have hfact : AppliedOperator.fact ⟨op, s.operands, imageAt bytes limits op s.pos⟩ location
        = .graphicsState op location := by
      simp only [AppliedOperator.fact, hkind]
    refine leavesFact_unnamed hfact (by simp only [AppliedOperator.usedFamily, hkind]) ?_ ?_
    · split <;> rfl
    · split <;> rfl
  | restore =>
    rw [hkind] at h
    dsimp only at h
    cases h
    exact leavesFact_unnamed (by simp only [AppliedOperator.fact, hkind])
      (by simp only [AppliedOperator.usedFamily, hkind]) rfl rfl
  | graphicsState =>
    rw [hkind] at h
    dsimp only at h
    cases h
    exact leavesFact_unnamed (by simp only [AppliedOperator.fact, hkind])
      (by simp only [AppliedOperator.usedFamily, hkind]) rfl rfl
  | extGState =>
    rw [hkind] at h
    dsimp only at h
    cases h
    exact pushNamedUse_leaves (by simp only [AppliedOperator.usedFamily, hkind]) rfl
      (by simp only [AppliedOperator.fact, hkind])
  | colorSpace =>
    rw [hkind] at h
    dsimp only at h
    rw [pushColorFact_state h]
    refine pushNamedUse_leaves (by simp only [AppliedOperator.usedFamily, hkind]) rfl ?_
    simp only [AppliedOperator.fact, hkind, AppliedOperator.operandBytes, pushNamedUse_operands,
      pushNamedUse_operandBytes, hbytes]
  | color =>
    rw [hkind] at h
    dsimp only at h
    rw [pushColorFact_state h]
    refine leavesFact_unnamed ?_ (by simp only [AppliedOperator.usedFamily, hkind]) rfl rfl
    simp only [AppliedOperator.fact, hkind, AppliedOperator.operandBytes, ← hbytes]
  | shading =>
    rw [hkind] at h
    dsimp only at h
    rw [pushColorFact_state h]
    refine pushNamedUse_leaves (by simp only [AppliedOperator.usedFamily, hkind]) rfl ?_
    simp only [AppliedOperator.fact, hkind, AppliedOperator.operandBytes, pushNamedUse_operands,
      pushNamedUse_operandBytes, hbytes]
  | xObject =>
    rw [hkind] at h
    dsimp only at h
    split at h
    · rename_i name hname
      cases h
      constructor
      · simp only [AppliedOperator.fact, hkind, hname]
        rfl
      · simp only [AppliedOperator.uses, AppliedOperator.usedFamily, hkind, hname]
        rfl
    · rename_i hname
      rw [pushUnknown_state h]
      constructor
      · simp only [AppliedOperator.fact, hkind, hname]
        rfl
      · simp only [AppliedOperator.uses, AppliedOperator.usedFamily, hkind, hname]
        exact (List.append_nil _).symm
  | path =>
    rw [hkind] at h
    dsimp only at h
    cases h
    exact leavesFact_unnamed (by simp only [AppliedOperator.fact, hkind])
      (by simp only [AppliedOperator.usedFamily, hkind]) rfl rfl
  | compatibility =>
    rw [hkind] at h
    dsimp only at h
    cases h
    exact leavesFact_unnamed (by simp only [AppliedOperator.fact, hkind])
      (by simp only [AppliedOperator.usedFamily, hkind]) rfl rfl
  | unknown =>
    rw [hkind] at h
    dsimp only at h
    rw [pushUnknown_state h]
    exact leavesFact_unnamed (by simp only [AppliedOperator.fact, hkind])
      (by simp only [AppliedOperator.usedFamily, hkind]) rfl rfl

end Classify

/-! ## Whole streams -/

/-- No location. -/
def ObjectLocation.unknown : ObjectLocation :=
  ⟨none, none, none⟩

/-- The fact, locations aside. -/
def OperatorFact.unlocated : OperatorFact → OperatorFact
  | .textObject op _ => .textObject op .unknown
  | .textState op _ => .textState op .unknown
  | .textPosition op _ => .textPosition op .unknown
  | .textShow op bytes _ => .textShow op bytes .unknown
  | .markedContent tag properties _ => .markedContent tag properties .unknown
  | .graphicsState op _ => .graphicsState op .unknown
  | .color op operandCount operandBytes _ => .color op operandCount operandBytes .unknown
  | .xObjectInvoke name _ => .xObjectInvoke name .unknown
  | .inlineImage width height colorSpace bitsPerComponent filters _ =>
    .inlineImage width height colorSpace bitsPerComponent filters .unknown
  | .path op _ => .path op .unknown
  | .compatibility op _ => .compatibility op .unknown
  | .unknown op operandCount _ => .unknown op operandCount .unknown

/-- The use, locations aside. -/
def ResourceUse.unlocated (resourceUse : ResourceUse) : ResourceUse :=
  { resourceUse with location := .unknown }

/-- What is compared of a span: its own identifier, and the one that its property list gives. -/
structure SpanRecord where
  tag : PdfName
  mcid : Option Int
  resolved : Option Int
  depth : Nat
  hasText : Bool
  hasImage : Bool

/-- The identifiers of a record. -/
def SpanRecord.identifiers (record : SpanRecord) : Option Int × Option Int :=
  (record.mcid, record.resolved)

/-- A way to find the identifier of a span. -/
abbrev McidReader :=
  Option Int × Option ObjectKey × Option PdfName → Option Int

def MarkedContentSpan.record (resolve : McidReader) (span : MarkedContentSpan) : SpanRecord :=
  ⟨span.tag, span.mcid, resolve span.readings, span.nestingDepth, span.hasText, span.hasImage⟩

namespace AppliedOperator

variable (a : AppliedOperator)

/-- What the operator does to the open spans. -/
def role : Role :=
  spanRole a.op.text

/-- The span that the operator opens, with what stands in it. -/
def record (resolve : McidReader) (depth : Nat) (content : List AppliedOperator) : SpanRecord :=
  ⟨(firstNameOperand a.operands).getD ⟨utf8 "Unknown"⟩, inlineMcid a.operands,
    resolve (operandReadings a.operands), depth, content.any fun b => showsText b.op.text,
    content.any fun b => showsImage b.op.text b.operands⟩

theorem unlocated_fact (location : ObjectLocation) :
    (a.fact location).unlocated = a.fact .unknown := by
  unfold fact
  split <;> first | rfl | (split <;> rfl)

theorem unlocated_uses (location : ObjectLocation) :
    (a.uses location).map ResourceUse.unlocated = a.uses .unknown := by
  unfold uses
  split <;> rfl

end AppliedOperator

/-- The operator of an operation, with its operands. -/
def Operation.applied (bytes : Bytes) (limits : ResourceLimits) (operation : Operation) :
    AppliedOperator :=
  ⟨operation.op, operation.operands, imageAt bytes limits operation.op operation.next⟩

section Streams

variable {source : ObjectKey} {locationPath : String} {bytes : Bytes} {limits : ResourceLimits}

theorem pushOperands_leaves {s s' : SummaryState} {operands : List Operand}
    (h : operands.foldlM (fun (s : SummaryState) operand => s.pushOperand limits operand) s = .ok s') :
    s'.summary.facts = s.summary.facts ∧ s'.summary.resourceUses = s.summary.resourceUses := by
  induction operands generalizing s with
  | nil =>
    cases pure_eq_ok.mp h
    exact ⟨rfl, rfl⟩
  | cons operand operands ih =>
    rw [List.foldlM_cons] at h
    obtain ⟨next, hnext, h⟩ := bind_eq_ok.mp h
    obtain ⟨hfacts, huses⟩ := ih h
    rw [hfacts, huses]
    unfold SummaryState.pushOperand at hnext
    dsimp only at hnext
    split_ifs at hnext <;>
    · cases hnext
      exact ⟨rfl, rfl⟩

/-- An operation within the caps leaves the fact and the use of its operator. -/
theorem performOperation_leaves {s s' : SummaryState} {operation : Operation}
    (hnone : s.operands = []) (hzero : s.operandBytes = 0) (hcaps : operation.WithinCaps limits)
    (h : performOperation source locationPath bytes limits s operation = .ok s') :
    ∃ location, LeavesFact (operation.applied bytes limits) location s s' := by
  unfold performOperation at h
  obtain ⟨mid, hmid, h⟩ := bind_eq_ok.mp h
  obtain ⟨hkept, -, -⟩ := pushOperands_ok hmid
  obtain ⟨hfacts, huses⟩ := pushOperands_leaves hmid
  rw [hnone, hzero, keepOperands_eq (by simpa using hcaps.1) (by simpa using hcaps.2)] at hkept
  simp only [List.nil_append, Nat.zero_add, Prod.mk.injEq] at hkept
  unfold acceptOperator at h
  obtain ⟨-, -, h⟩ := bind_eq_ok.mp h
  obtain ⟨after, hafter, h⟩ := bind_eq_ok.mp h
  cases pure_eq_ok.mp h
  have hrecords := classifyOperator_leaves hafter (by rw [hkept.1, hkept.2])
  dsimp only at hrecords
  rw [hkept.1] at hrecords
  obtain ⟨hrecorded, hnamed⟩ := hrecords
  exact ⟨_, ⟨by rw [← hfacts]; exact hrecorded, by rw [← huses]; exact hnamed⟩⟩

/-- Operations leave the facts and the uses of their operators, one after the other. -/
theorem performOperations_leaves {operations : List Operation} {s s' : SummaryState}
    (hnone : s.operands = []) (hzero : s.operandBytes = 0)
    (hcaps : ∀ operation ∈ operations, operation.WithinCaps limits)
    (h : operations.foldlM (performOperation source locationPath bytes limits) s = .ok s') :
    s'.summary.facts.map OperatorFact.unlocated = s.summary.facts.map OperatorFact.unlocated
        ++ operations.map (fun operation => (operation.applied bytes limits).fact .unknown)
      ∧ s'.summary.resourceUses.map ResourceUse.unlocated
        = s.summary.resourceUses.map ResourceUse.unlocated
          ++ operations.flatMap (fun operation => (operation.applied bytes limits).uses .unknown) := by
  induction operations generalizing s with
  | nil =>
    cases pure_eq_ok.mp h
    exact ⟨(List.append_nil _).symm, (List.append_nil _).symm⟩
  | cons operation operations ih =>
    obtain ⟨hfirst, hrest⟩ := List.forall_mem_cons.mp hcaps
    rw [List.foldlM_cons] at h
    obtain ⟨next, hnext, h⟩ := bind_eq_ok.mp h
    obtain ⟨-, hnone', hzero', -, -⟩ := performOperation_ok hnone hzero hnext
    obtain ⟨location, hfacts, huses⟩ := performOperation_leaves hnone hzero hfirst hnext
    obtain ⟨hfacts', huses'⟩ := ih hnone' hzero' hrest h
    constructor
    · rw [hfacts', hfacts, List.map_append, List.append_assoc, List.map_singleton,
        AppliedOperator.unlocated_fact, List.map_cons]
      rfl
    · rw [huses', huses, List.map_append, List.append_assoc, AppliedOperator.unlocated_uses,
        List.flatMap_cons]

/-- The operator of an operation with all of its operands, with its place in the stream. -/
def Operation.foundWhole (source : ObjectKey) (locationPath : String) (entry : Operation × Nat) :
    FoundOperator :=
  ⟨entry.1.op, entry.1.operands, operatorLocation source locationPath entry.2 entry.1.offset⟩

/-- The spans of operations within the caps are those that their operators open. -/
theorem performOperations_opened {operations : List Operation} {s : SummaryState}
    (resolve : McidReader) (hcaps : ∀ operation ∈ operations, operation.WithinCaps limits)
    (h : operations.foldlM (performOperation source locationPath bytes limits)
      (SummaryState.initial source) = .ok s) :
    s.summary.markedContent.map (MarkedContentSpan.record resolve)
      = opened AppliedOperator.role (fun a => a.record resolve) 0
          (operations.map (Operation.applied bytes limits)) [] := by
  have htracker := performOperations_tracks rfl rfl rfl h
  have hwf : (Tracker.mk ([] : List MarkedContentSpan) []).Wf :=
    ⟨List.nodup_nil, fun i hi => absurd hi List.not_mem_nil⟩
  have hitems : s.summary.markedContent
      = opened FoundOperator.role
          (fun a depth content => content.foldl
            (Tracker.markPlain FoundOperator.role FoundOperator.mark) (a.span depth)) 0
          (foundOperators source locationPath limits operations 1) [] := by
    have hopened := @Tracker.drop_items_run _ _ FoundOperator.role FoundOperator.span
      FoundOperator.mark _ hwf (foundOperators source locationPath limits operations 1)
    exact (congrArg Tracker.items htracker).trans hopened
  have hfound : foundOperators source locationPath limits operations 1
      = (operations.zipIdx 1).map (Operation.foundWhole source locationPath) := by
    refine List.map_congr_left fun entry hentry => ?_
    have hwithin := hcaps entry.1 (List.fst_mem_of_mem_zipIdx hentry)
    unfold Operation.found Operation.foundWhole Operation.kept
    rw [keepOperands_eq (by simpa using hwithin.1) (by simpa using hwithin.2), List.nil_append]
  have happlied : operations.map (Operation.applied bytes limits)
      = (operations.zipIdx 1).map (Operation.applied bytes limits ∘ Prod.fst) := by
    rw [← List.map_map, List.zipIdx_map_fst]
  rw [hitems, map_opened, hfound, happlied]
  have hleft := @opened_map _ _ FoundOperator.role
    (fun a depth content => MarkedContentSpan.record resolve (content.foldl
      (Tracker.markPlain FoundOperator.role FoundOperator.mark) (a.span depth))) _
    (Operation.foundWhole source locationPath) 0 (operations.zipIdx 1) []
  have hright := @opened_map _ _ AppliedOperator.role (fun a => a.record resolve) _
    (Operation.applied bytes limits ∘ Prod.fst) 0 (operations.zipIdx 1) []
  rw [List.map_nil] at hleft hright
  rw [hleft, hright]
  have hviews : (fun (entry : Operation × Nat) depth (content : List (Operation × Nat)) =>
        MarkedContentSpan.record resolve ((content.map
          (Operation.foundWhole source locationPath)).foldl
          (Tracker.markPlain FoundOperator.role FoundOperator.mark)
          ((Operation.foundWhole source locationPath entry).span depth)))
      = fun entry depth content =>
        ((Operation.applied bytes limits ∘ Prod.fst) entry).record resolve depth
          (content.map (Operation.applied bytes limits ∘ Prod.fst)) := by
    funext entry depth content
    rw [foldl_markPlain]
    unfold AppliedOperator.record
    rw [List.any_map, List.any_map, List.any_map, List.any_map]
    rfl
  rw [hviews]
  rfl

end Streams

/-- A decoded content stream that is read to its end, with its summary; no cap is reached. -/
structure StreamContent (limits : ResourceLimits) where
  source : ObjectKey
  locationPath : String
  bytes : Bytes
  operations : List Operation
  dangling : List Operand
  summary : ContentStreamSummary
  read : ContentRead bytes limits 0 operations dangling
  room : operations.length ≤ limits.maxContentStreamOps
  caps : ∀ operation ∈ operations, operation.WithinCaps limits
  summarised : summarizeContentStream source locationPath bytes limits = .ok summary

namespace StreamContent

variable {limits : ResourceLimits} (content : StreamContent limits)

/-- The operators, with their operands. -/
def applied : List AppliedOperator :=
  content.operations.map (Operation.applied content.bytes limits)

/-- The tokens. -/
def tokens : List ContentToken :=
  content.operations.flatMap (fun operation =>
      operation.operands.map ContentToken.operand
        ++ [.operator operation.op (imageAt content.bytes limits operation.op operation.next)])
    ++ content.dangling.map ContentToken.operand

/-- The summary is that of the operations. -/
theorem performed : ∃ s, content.operations.foldlM
      (performOperation content.source content.locationPath content.bytes limits)
      (SummaryState.initial content.source) = .ok s
    ∧ content.summary.facts = s.summary.facts
    ∧ content.summary.resourceUses = s.summary.resourceUses
    ∧ content.summary.markedContent = s.summary.markedContent := by
  have h := content.summarised
  unfold summarizeContentStream at h
  obtain ⟨final, hfinal, h⟩ := bind_eq_ok.mp h
  have hfinish :=
    @summarizeLoop_finishes content.source content.locationPath content.bytes limits
  rw [hfinal] at hfinish
  obtain ⟨stop, last, next, hoperations, hdangling, hend⟩ := content.read.reads
  have hroom : (SummaryState.initial content.source).summary.operatorsSeen
      + content.operations.length ≤ limits.maxContentStreamOps := by
    show 0 + content.operations.length ≤ _
    rw [Nat.zero_add]
    exact content.room
  obtain ⟨s, hperformed, hstop, -, -, -, hrest⟩ := hoperations.performs rfl rfl rfl hroom hfinish
  obtain ⟨pushed, hpushed, hlast⟩ := hdangling.pushes hstop hrest
  have hdone : summarizeStep content.source content.locationPath content.bytes limits
      { pushed with pos := last } = .done (.ok { pushed with pos := last }) := by
    unfold summarizeStep
    rw [hend]
  cases hlast.unique (.done hdone)
  obtain ⟨-, -, hspans⟩ := pushOperands_ok hpushed
  obtain ⟨hfacts, huses⟩ := pushOperands_leaves hpushed
  refine ⟨s, hperformed, ?_⟩
  rw [← hfacts, ← huses, ← hspans]
  rw [← pure_eq_ok.mp h]
  split <;> exact ⟨rfl, rfl, rfl⟩

theorem facts_eq : content.summary.facts.map OperatorFact.unlocated
    = content.applied.map fun a => a.fact .unknown := by
  obtain ⟨s, hperformed, hfacts, -, -⟩ := content.performed
  have h := (performOperations_leaves rfl rfl content.caps hperformed).1
  rw [hfacts, h]
  unfold applied
  rw [List.map_map]
  rfl

theorem uses_eq : content.summary.resourceUses.map ResourceUse.unlocated
    = content.applied.flatMap fun a => a.uses .unknown := by
  obtain ⟨s, hperformed, -, huses, -⟩ := content.performed
  have h := (performOperations_leaves rfl rfl content.caps hperformed).2
  rw [huses, h]
  unfold applied
  rw [List.flatMap_map]
  rfl

theorem spans_eq (resolve : McidReader) :
    content.summary.markedContent.map (MarkedContentSpan.record resolve)
      = opened AppliedOperator.role (fun a => a.record resolve) 0 content.applied [] := by
  obtain ⟨s, hperformed, -, -, hspans⟩ := content.performed
  rw [hspans]
  exact performOperations_opened resolve content.caps hperformed

end StreamContent

/-! ## Reading a stream -/

section Reading

variable (source : ObjectKey) (locationPath : String) (bytes : Bytes) (limits : ResourceLimits)

/-- The operations of a stream from a position on, and the operands that no operator follows. -/
def readOperations : Nat → Nat → Option (List Operation × List Operand)
  | 0, _ => none
  | fuel + 1, pos =>
    match ContentTokenizer.nextToken bytes limits pos with
    | .error _ => none
    | .ok (none, _) => some ([], [])
    | .ok (some (.operand operand), next) => (readOperations fuel next).map (withOperand operand)
    | .ok (some (.operator op offset), next) =>
      if operatorKind op.text = .inlineImage then
        match ContentTokenizer.parseInlineImage bytes limits next with
        | .error _ => none
        | .ok (_, after) =>
          (readOperations fuel after).map fun rest => (⟨[], op, offset, next⟩ :: rest.1, rest.2)
      else (readOperations fuel next).map fun rest => (⟨[], op, offset, next⟩ :: rest.1, rest.2)

variable {bytes limits}

/-- An operator before what is read. -/
theorem ContentRead.operator {pos next after offset : Nat} {op : OperatorName}
    {operations : List Operation} {dangling : List Operand}
    (htoken : ContentTokenizer.nextToken bytes limits pos = .ok (some (.operator op offset), next))
    (hafter : GoesOn bytes limits op next after)
    (h : ContentRead bytes limits after operations dangling) :
    ContentRead bytes limits pos (⟨[], op, offset, next⟩ :: operations) dangling := by
  obtain ⟨stop, last, final, hoperations, hdangling, hend⟩ := h.reads
  exact ⟨stop, last, final, .cons (.nil _) htoken hafter hoperations, hdangling, hend⟩

theorem readOperations_read {fuel pos : Nat} {operations : List Operation} {dangling : List Operand}
    (h : readOperations bytes limits fuel pos = some (operations, dangling)) :
    ContentRead bytes limits pos operations dangling := by
  induction fuel generalizing pos operations dangling with
  | zero => cases h
  | succ fuel ih =>
    unfold readOperations at h
    split at h
    · cases h
    · rename_i next htoken
      cases h
      exact ⟨pos, pos, next, .nil _, .nil _, htoken⟩
    · rename_i operand next htoken
      obtain ⟨⟨operations', dangling'⟩, hrest, hread⟩ := Option.map_eq_some_iff.mp h
      have hoperand := (ih hrest).operand htoken
      rw [hread] at hoperand
      exact hoperand
    · rename_i op offset next htoken
      split at h
      · rename_i hkind
        split at h
        · cases h
        · rename_i image after himage
          obtain ⟨⟨operations', dangling'⟩, hrest, hread⟩ := Option.map_eq_some_iff.mp h
          cases hread
          refine (ih hrest).operator htoken ?_
          unfold GoesOn
          rw [if_pos hkind]
          exact ⟨image, himage⟩
      · rename_i hkind
        obtain ⟨⟨operations', dangling'⟩, hrest, hread⟩ := Option.map_eq_some_iff.mp h
        cases hread
        refine (ih hrest).operator htoken ?_
        unfold GoesOn
        rw [if_neg hkind]

variable (bytes limits)

/-- The content of a stream that is read to its end within the caps. -/
def StreamContent.ofBytes : Option (StreamContent limits) :=
  match hread : readOperations bytes limits (bytes.length + 1) 0,
    hsummary : summarizeContentStream source locationPath bytes limits with
  | some (operations, dangling), .ok summary =>
    if hcaps : operations.length ≤ limits.maxContentStreamOps
        ∧ ∀ operation ∈ operations, operation.WithinCaps limits then
      some ⟨source, locationPath, bytes, operations, dangling, summary, readOperations_read hread,
        hcaps.1, hcaps.2, hsummary⟩
    else none
  | _, _ => none

variable {source locationPath bytes limits}

theorem StreamContent.ofBytes_fields {content : StreamContent limits}
    (h : StreamContent.ofBytes source locationPath bytes limits = some content) :
    content.source = source ∧ content.locationPath = locationPath ∧ content.bytes = bytes := by
  unfold StreamContent.ofBytes at h
  split at h
  · split_ifs at h
    cases h
    exact ⟨rfl, rfl, rfl⟩
  · cases h

end Reading

end Pdfv
