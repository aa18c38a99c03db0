import Mathlib.Algebra.Order.BigOperators.Group.List
import Mathlib.Algebra.Order.Group.Nat
import Pdfv.Content.Operations
import Pdfv.Content.PrintedTokens
/-!
# Printed content streams

A list of operator applications, printed with white space and comments between the tokens, is summarised
application by application (`summarizeContentStream_printed`). The fact of a marked-content operator has no
operator name of its own, and `Do` is an `xObject` fact only with a name among its operands
(`recordedFact`).
-/

namespace Pdfv

open Loop Fallible

/-! ## What an operator leaves in the summary -/

/-- The class of the facts of an operator. -/
def operatorClass : OperatorKind → String
  | .inlineImage => "inlineImage"
  | .textObject | .textState | .textPosition => "text"
  | .textShow => "textShow"
  | .markedContent | .endMarkedContent => "markedContent"
  | .save | .restore | .graphicsState | .extGState => "graphicsState"
  | .colorSpace | .color | .shading => "color"
  | .xObject => "xObject"
  | .path => "path"
  | .compatibility => "compatibility"
  | .unknown => "unknown"

/-- The name and class of the fact of an operator whose first name operand is given. -/
def recordedFact (op : String) (name : Option PdfName) : String × String :=
  match operatorKind op with
  | .markedContent | .endMarkedContent => ("markedContent", "markedContent")
  | .xObject => if name.isSome then ("Do", "xObject") else (op, "unknown")
  | kind => (op, operatorClass kind)

/-- The resource family that an operator takes a name from. -/
def resourceFamily (op : String) : Option ResourceFamily :=
  match operatorKind op with
  | .textState => if op = "Tf" then some .font else none
  | .extGState => some .extGState
  | .colorSpace => some .colorSpace
  | .shading => some .shading
  | .xObject => some .xObject
  | _ => none

/-- The resource uses of an operator whose first name operand is given. -/
def recordedUses (op : String) (name : Option PdfName) : List (ResourceFamily × PdfName × String) :=
  match resourceFamily op, name with
  | some family, some name => [(family, name, op)]
  | _, _ => []

/-- The operators whose fact counts the operands, in 16 bits. -/
def countsOperands (op : String) (name : Option PdfName) : Bool :=
  match operatorKind op with
  | .colorSpace | .color | .shading | .unknown => true
  | .xObject => name.isNone
  | _ => false

/-- The names that stand for a missing tag fit the limit on names, where one is needed. -/
def TagFits (limits : ResourceLimits) (op : String) (name : Option PdfName) : Prop :=
  (operatorKind op = .markedContent → name = none → (utf8 "Unknown").length ≤ limits.maxNameBytes)
    ∧ (operatorKind op = .endMarkedContent → (utf8 "EMC").length ≤ limits.maxNameBytes)

/-- The graphics states that are saved after an operator. -/
def savedAfter (op : String) (depth : Nat) : Nat :=
  match operatorKind op with
  | .save => depth + 1
  | .restore => depth - 1
  | _ => depth

def OperatorFact.nameAndClass (fact : OperatorFact) : String × String :=
  (fact.opName, fact.family)

def ResourceUse.entry (resourceUse : ResourceUse) : ResourceFamily × PdfName × String :=
  (resourceUse.family, resourceUse.name, resourceUse.operator.text)

/-- An operator is recorded: one fact, its resource uses, and nothing else that shows. -/
structure Records (op : String) (name : Option PdfName) (s s' : SummaryState) : Prop where
  pos : s'.pos = s.pos
  seen : s'.summary.operatorsSeen = s.summary.operatorsSeen
  facts : s'.summary.facts.map OperatorFact.nameAndClass
    = s.summary.facts.map OperatorFact.nameAndClass ++ [recordedFact op name]
  uses : s'.summary.resourceUses.map ResourceUse.entry
    = s.summary.resourceUses.map ResourceUse.entry ++ recordedUses op name
  warnings : s'.summary.warnings = s.summary.warnings
  truncated : s'.summary.truncated = s.summary.truncated
  depth : s'.graphicsDepth = savedAfter op s.graphicsDepth

section Classify

variable {bytes : Bytes} {limits : ResourceLimits} {op : String} {location : ObjectLocation}
  {s : SummaryState}

/-- A fact alone is recorded by an operator without resources. -/
theorem Records.ofFact {name : Option PdfName} {fact : OperatorFact}
    (hfact : fact.nameAndClass = recordedFact op name) (huses : recordedUses op name = [])
    (hdepth : savedAfter op s.graphicsDepth = s.graphicsDepth) : Records op name s (s.pushFact fact) where
  pos := rfl
  seen := rfl
  facts := by
    change (s.summary.facts ++ [fact]).map OperatorFact.nameAndClass = _
    rw [List.map_append, List.map_singleton, hfact]
  uses := by
    rw [huses, List.append_nil]
    rfl
  warnings := rfl
  truncated := rfl
  depth := hdepth.symm

/-- Flags of spans and the bookkeeping of marked content do not show. -/
theorem Records.before {name : Option PdfName} {s₁ s₂ : SummaryState} (h : Records op name s₁ s₂)
    (hpos : s₁.pos = s.pos) (hsummary : { s₁.summary with markedContent := s.summary.markedContent } = s.summary)
    (hdepth : s₁.graphicsDepth = s.graphicsDepth) : Records op name s s₂ where
  pos := h.pos.trans hpos
  seen := by
    rw [h.seen, ← hsummary]
  facts := by
    rw [h.facts, ← hsummary]
  uses := by
    rw [h.uses, ← hsummary]
  warnings := by
    rw [h.warnings, ← hsummary]
  truncated := by
    rw [h.truncated, ← hsummary]
  depth := by
    rw [h.depth, hdepth]

/-- A use of a named resource and a fact. -/
theorem Records.ofUse {family : ResourceFamily} {fact : OperatorFact}
    (hfamily : resourceFamily op = some family)
    (hfact : fact.nameAndClass = recordedFact op (firstNameOperand s.operands))
    (hdepth : savedAfter op s.graphicsDepth = s.graphicsDepth) :
    Records op (firstNameOperand s.operands) s ((s.pushNamedUse family ⟨op⟩ location).pushFact fact) := by
  unfold SummaryState.pushNamedUse
  split
  · rename_i name hname
    rw [hname] at hfact
    rw [hname]
    refine ⟨rfl, rfl, ?_, ?_, rfl, rfl, hdepth.symm⟩
    · change (s.summary.facts ++ [fact]).map OperatorFact.nameAndClass = _
      rw [List.map_append, List.map_singleton, hfact]
    · change (s.summary.resourceUses ++ [(⟨family, name, ⟨op⟩, location⟩ : ResourceUse)]).map
        ResourceUse.entry = _
      unfold recordedUses
      rw [hfamily, List.map_append, List.map_singleton]
      rfl
  · rename_i hname
    rw [hname] at hfact ⊢
    refine .ofFact hfact ?_ hdepth
    unfold recordedUses
    rw [hfamily]

theorem recordedUses_none {name : Option PdfName} (h : resourceFamily op = none) :
    recordedUses op name = [] := by
  unfold recordedUses
  rw [h]

/-- The kinds of operators with one fact of the operator's name, and nothing else. -/
def plainKinds : List OperatorKind :=
  [.textObject, .textPosition, .textShow, .graphicsState, .color, .path, .compatibility, .unknown]

theorem Records.ofKind {name : Option PdfName} {kind : OperatorKind} {fact : OperatorFact}
    (hkind : operatorKind op = kind) (hplain : kind ∈ plainKinds) (hname : fact.opName = op)
    (hclass : fact.family = operatorClass kind) : Records op name s (s.pushFact fact) := by
  have hfamily : resourceFamily op = none := by
    unfold resourceFamily
    rw [hkind]
    clear hkind hclass
    cases kind <;> first | rfl | exact absurd hplain (by decide)
  refine .ofFact ?_ (recordedUses_none hfamily) ?_
  · unfold OperatorFact.nameAndClass recordedFact
    rw [hname, hclass, hkind]
    clear hkind hclass
    cases kind <;> first | rfl | exact absurd hplain (by decide)
  · unfold savedAfter
    rw [hkind]
    clear hkind hclass
    cases kind <;> first | rfl | exact absurd hplain (by decide)

theorem pushColorFact_eq (h : s.operands.length < u16Size) :
    s.pushColorFact ⟨op⟩ location
      = .ok (s.pushFact (.color ⟨op⟩ s.operands.length s.operandBytes location)) :=
  if_pos h

/-- A resource and a colour fact. -/
theorem Records.ofColor {family : ResourceFamily} (hcount : s.operands.length < u16Size)
    (hfamily : resourceFamily op = some family)
    (hfact : ∀ name, recordedFact op name = (op, "color"))
    (hdepth : savedAfter op s.graphicsDepth = s.graphicsDepth) :
    ∃ s', (s.pushNamedUse family ⟨op⟩ location).pushColorFact ⟨op⟩ location = .ok s'
      ∧ Records op (firstNameOperand s.operands) s s' := by
  refine ⟨_, pushColorFact_eq ?_, .ofUse hfamily ?_ hdepth⟩
  · rw [pushNamedUse_operands]
    exact hcount
  · rw [hfact]
    rfl

/-- The marked-content operators have one fact, whatever they open. -/
theorem beginMarkedContent_records (hkind : operatorKind op = .markedContent)
    (htag : TagFits limits op (firstNameOperand s.operands)) :
    ∃ s', s.beginMarkedContent limits ⟨op⟩ location = .ok s'
      ∧ Records op (firstNameOperand s.operands) s s' := by
  have hfact : ∀ name, recordedFact op name = ("markedContent", "markedContent") := by
    intro name
    unfold recordedFact
    rw [hkind]
  have hfamily : resourceFamily op = none := by
    unfold resourceFamily
    rw [hkind]
  have hdepth : ∀ depth, savedAfter op depth = depth := by
    intro depth
    unfold savedAfter
    rw [hkind]
  unfold SummaryState.beginMarkedContent
  dsimp only
  split
  · refine ⟨_, rfl, ?_⟩
    split
    · refine Records.before (.ofFact ?_ (recordedUses_none hfamily) (hdepth _)) rfl rfl rfl
      rw [hfact]
      rfl
    · refine .ofFact ?_ (recordedUses_none hfamily) (hdepth _)
      rw [hfact]
      rfl
  · rename_i hnone
    have hunknown : PdfName.new (utf8 "Unknown") limits = .ok ⟨utf8 "Unknown"⟩ :=
      if_neg (Nat.not_lt.mpr (htag.1 hkind hnone))
    rw [hunknown]
    refine ⟨_, rfl, ?_⟩
    split
    · refine Records.before (.ofFact ?_ (recordedUses_none hfamily) (hdepth _)) rfl rfl rfl
      rw [hfact]
      rfl
    · refine .ofFact ?_ (recordedUses_none hfamily) (hdepth _)
      rw [hfact]
      rfl

/-- An operator other than `BI` is recorded, within the caps on operands, names and graphics states. -/
theorem classifyOperator_records (hinline : operatorKind op ≠ .inlineImage)
    (htag : TagFits limits op (firstNameOperand s.operands))
    (hcount : countsOperands op (firstNameOperand s.operands) = true → s.operands.length < u16Size)
    (hsave : operatorKind op = .save → s.graphicsDepth < limits.maxGraphicsStateDepth) :
    ∃ s', classifyOperator bytes limits ⟨op⟩ location s = .ok s'
      ∧ Records op (firstNameOperand s.operands) s s' := by
  unfold classifyOperator
  dsimp only
  split
  · rename_i hkind
    exact absurd hkind hinline
  · rename_i hkind
    exact ⟨_, rfl, .ofKind hkind (by decide) rfl rfl⟩
  · rename_i hkind
    split
    · rename_i hop
      refine ⟨_, rfl, .ofUse ?_ ?_ ?_⟩
      · unfold resourceFamily
        rw [hkind]
        exact if_pos hop
      · simp [recordedFact, hkind, OperatorFact.nameAndClass, OperatorFact.opName, OperatorFact.family,
          operatorClass]
      · simp [savedAfter, hkind]
    · rename_i hop
      refine ⟨_, rfl, .ofFact ?_ (recordedUses_none ?_) ?_⟩
      · simp [recordedFact, hkind, OperatorFact.nameAndClass, OperatorFact.opName, OperatorFact.family,
          operatorClass]
      · simp [resourceFamily, hkind, hop]
      · simp [savedAfter, hkind]
  · rename_i hkind
    exact ⟨_, rfl, .ofKind hkind (by decide) rfl rfl⟩
  · rename_i hkind
    have hshow : ∀ fact : OperatorFact, fact.opName = op → fact.family = "textShow" →
        Records op (firstNameOperand s.operands) (s.markActiveSpans fun span => { span with hasText := true })
          ((s.markActiveSpans fun span => { span with hasText := true }).pushFact fact) :=
      fun fact hname hclass => .ofKind hkind (by decide) hname hclass
    exact ⟨_, rfl, (hshow _ rfl rfl).before rfl rfl rfl⟩
  · rename_i hkind
    exact beginMarkedContent_records hkind htag
  · rename_i hkind
    have hname : PdfName.new (utf8 "EMC") limits = .ok ⟨utf8 "EMC"⟩ :=
      if_neg (Nat.not_lt.mpr (htag.2 hkind))
    rw [hname, ok_bind]
    refine ⟨_, rfl, Records.before (.ofFact ?_ (recordedUses_none ?_) ?_) rfl rfl rfl⟩
    · simp [recordedFact, hkind, OperatorFact.nameAndClass, OperatorFact.opName, OperatorFact.family]
    · simp [resourceFamily, hkind]
    · simp [savedAfter, hkind]
  · rename_i hkind
    rw [if_neg (Nat.not_le.mpr (hsave hkind))]
    refine ⟨_, rfl, rfl, rfl, ?_, ?_, rfl, rfl, ?_⟩
    · simp [recordedFact, hkind, OperatorFact.nameAndClass, OperatorFact.opName, OperatorFact.family,
        operatorClass, SummaryState.pushFact]
    · simp [recordedUses, resourceFamily, hkind, SummaryState.pushFact]
    · simp [savedAfter, hkind, SummaryState.pushFact]
  · rename_i hkind
    refine ⟨_, rfl, rfl, rfl, ?_, ?_, rfl, rfl, ?_⟩
    · simp [recordedFact, hkind, OperatorFact.nameAndClass, OperatorFact.opName, OperatorFact.family,
        operatorClass, SummaryState.pushFact]
    · simp [recordedUses, resourceFamily, hkind, SummaryState.pushFact]
    · simp [savedAfter, hkind, SummaryState.pushFact]
  · rename_i hkind
    exact ⟨_, rfl, .ofKind hkind (by decide) rfl rfl⟩
  · rename_i hkind
    refine ⟨_, rfl, .ofUse ?_ ?_ ?_⟩
    · simp [resourceFamily, hkind]
    · simp [recordedFact, hkind, OperatorFact.nameAndClass, OperatorFact.opName, OperatorFact.family,
        operatorClass]
    · simp [savedAfter, hkind]
  · rename_i hkind
    refine Records.ofColor (hcount ?_) ?_ ?_ ?_
    · simp [countsOperands, hkind]
    · simp [resourceFamily, hkind]
    · simp [recordedFact, hkind, operatorClass]
    · simp [savedAfter, hkind]
  · rename_i hkind
    have hcounts : countsOperands op (firstNameOperand s.operands) = true := by
      simp [countsOperands, hkind]
    exact ⟨_, pushColorFact_eq (hcount hcounts), .ofKind hkind (by decide) rfl rfl⟩
  · rename_i hkind
    refine Records.ofColor (hcount ?_) ?_ ?_ ?_
    · simp [countsOperands, hkind]
    · simp [resourceFamily, hkind]
    · simp [recordedFact, hkind, operatorClass]
    · simp [savedAfter, hkind]
  · rename_i hkind
    have hdepth : savedAfter op s.graphicsDepth = s.graphicsDepth := by
      simp [savedAfter, hkind]
    split
    · rename_i name hname
      refine ⟨_, rfl, rfl, rfl, ?_, ?_, rfl, rfl, hdepth.symm⟩
      · simp [recordedFact, hkind, hname, OperatorFact.nameAndClass, OperatorFact.opName,
          OperatorFact.family, SummaryState.pushFact, SummaryState.pushUse, SummaryState.markActiveSpans]
      · simp [recordedUses, resourceFamily, hkind, hname, ResourceUse.entry, SummaryState.pushFact,
          SummaryState.pushUse, SummaryState.markActiveSpans]
    · rename_i hname
      refine ⟨_, if_pos (hcount ?_), .ofFact ?_ ?_ hdepth⟩
      · simp [countsOperands, hkind, hname]
      · simp [recordedFact, hkind, hname, OperatorFact.nameAndClass, OperatorFact.opName,
          OperatorFact.family]
      · simp [recordedUses, hname]
  · rename_i hkind
    exact ⟨_, rfl, .ofKind hkind (by decide) rfl rfl⟩
  · rename_i hkind
    exact ⟨_, rfl, .ofKind hkind (by decide) rfl rfl⟩
  · rename_i hkind
    have hcounts : countsOperands op (firstNameOperand s.operands) = true := by
      simp [countsOperands, hkind]
    exact ⟨_, if_pos (hcount hcounts), .ofKind hkind (by decide) rfl rfl⟩

end Classify

/-! ## Printed applications -/

/-- A COS value as an operand, with the text that spells it. -/
structure SpelledOperand where
  value : CosObject
  text : Bytes

/-- The operand that the tokenizer makes of it. -/
def SpelledOperand.read (operand : SpelledOperand) : Operand :=
  readOperand operand.value operand.text

/-- An operator with its operands. -/
structure Application where
  operands : List SpelledOperand
  op : String

/-- The name given as the resource operand: the first name among the operands. -/
def Application.resourceName (application : Application) : Option PdfName :=
  application.operands.findSome? fun operand => nameInValue operand.value

def Application.fact (application : Application) : String × String :=
  recordedFact application.op application.resourceName

def Application.uses (application : Application) : List (ResourceFamily × PdfName × String) :=
  recordedUses application.op application.resourceName

/-- The tokens of a printed content stream. -/
inductive PrintedToken where
  | operand (operand : SpelledOperand)
  | operator (op : String)

def PrintedToken.text : PrintedToken → Bytes
  | operand spelled => spelled.text
  | operator op => utf8 op

/-- The text of an operand spells its value, with at most `depth` arrays and dictionaries in one another. -/
def PrintedToken.Spelled (depth : Nat) : PrintedToken → Prop
  | operand spelled => Spells depth (.value spelled.value) spelled.text
  | operator op => OperatorText op

def Application.tokens (application : Application) : List PrintedToken :=
  application.operands.map .operand ++ [.operator application.op]

/-- Tokens one after the other, with white space and comments before, between and after them. What follows
a token starts with white space or a comment. -/
inductive Printed (depth : Nat) : List PrintedToken → Bytes → Prop where
  | nil {gap : Bytes} (hgap : TokenGap gap) : Printed depth [] gap
  | cons {gap rest : Bytes} {token : PrintedToken} {tokens : List PrintedToken} (hgap : TokenGap gap)
    (htoken : token.Spelled depth) (hends : StartsGap rest) (hrest : Printed depth tokens rest) :
    Printed depth (token :: tokens) (gap ++ (token.text ++ rest))

/-- An application within the caps on names, operators and operands. -/
structure Application.Fits (limits : ResourceLimits) (application : Application) : Prop where
  names : ∀ operand ∈ application.operands, ∀ name, operand.value = .name name →
    name.bytes.length ≤ limits.maxNameBytes
  operator : (utf8 application.op).length ≤ limits.maxContentStreamOperatorNameBytes
  tag : TagFits limits application.op application.resourceName
  count : application.operands.length ≤ limits.maxContentStreamOperandCount
  counted : countsOperands application.op application.resourceName = true →
    application.operands.length < u16Size
  size : (application.operands.map fun operand => operand.read.byteLen).sum
      ≤ limits.maxContentStreamOperandBytes
    ∧ (application.operands.map fun operand => operand.read.byteLen).sum < u64Size

/-- No `q` comes when as many graphics states are saved as the limit allows. -/
def SavesFit (limits : ResourceLimits) : Nat → List Application → Prop
  | _, [] => True
  | depth, application :: rest =>
    (operatorKind application.op = .save → depth < limits.maxGraphicsStateDepth)
      ∧ SavesFit limits (savedAfter application.op depth) rest

theorem Application.firstNameOperand_read (application : Application) :
    firstNameOperand (application.operands.map SpelledOperand.read) = application.resourceName := by
  unfold firstNameOperand Application.resourceName
  rw [List.findSome?_map]
  congr 1
  funext operand
  exact asName_readOperand operand.value operand.text

section Printed

variable {source : ObjectKey} {locationPath : String} {bytes : Bytes} {limits : ResourceLimits}

/-- Every operand is pushed when all of them are within the caps. -/
theorem pushOperands_fit {operands : List Operand} {s : SummaryState}
    (hcount : s.operands.length + operands.length ≤ limits.maxContentStreamOperandCount)
    (hsize : s.operandBytes + (operands.map Operand.byteLen).sum ≤ limits.maxContentStreamOperandBytes)
    (hlarge : s.operandBytes + (operands.map Operand.byteLen).sum < u64Size) :
    operands.foldlM (fun (s : SummaryState) operand => s.pushOperand limits operand) s
      = .ok { s with
          operands := s.operands ++ operands
          operandBytes := s.operandBytes + (operands.map Operand.byteLen).sum } := by
  induction operands generalizing s with
  | nil => simp [pure, Except.pure]
  | cons operand operands ih =>
    rw [List.length_cons] at hcount
    rw [List.map_cons, List.sum_cons] at hsize hlarge
    have hpush : s.pushOperand limits operand
        = .ok { s with operands := s.operands ++ [operand], operandBytes := s.operandBytes + operand.byteLen } := by
      unfold SummaryState.pushOperand
      dsimp only
      rw [if_neg (by omega), if_neg]
      simp only [ge_iff_le, gt_iff_lt, Bool.or_eq_true, decide_eq_true_eq, not_or, not_le, not_lt]
      exact ⟨by omega, by omega⟩
    rw [List.foldlM_cons, hpush, ok_bind, ih]
    · simp [Nat.add_assoc]
    · dsimp only
      rw [List.length_append, List.length_singleton]
      omega
    · dsimp only
      omega
    · dsimp only
      omega

/-- The operands of an application, and its operator, are read off the printed text. -/
theorem Printed.reads {depth pos : Nat} {operands : List SpelledOperand} {op : String} {rest : Bytes}
    {tokens : List PrintedToken}
    (h : Printed depth (operands.map .operand ++ .operator op :: tokens) rest)
    (hat : At bytes pos rest) (hdepth : depth ≤ limits.maxObjectDepth)
    (hfits : ∀ operand ∈ operands, OperandFits limits operand.value operand.text)
    (hop : (utf8 op).length ≤ limits.maxContentStreamOperatorNameBytes) :
    ∃ mid offset next more, OperandsRead bytes limits pos (operands.map SpelledOperand.read) mid
      ∧ ContentTokenizer.nextToken bytes limits mid = .ok (some (.operator ⟨op⟩ offset), next)
      ∧ At bytes next more ∧ Printed depth tokens more := by
  induction operands generalizing pos rest with
  | nil =>
    cases h with
    | @cons gap more _ _ hgap htoken hends hrest =>
      exact ⟨pos, _, _, more, .nil pos, hat.nextToken_operator hgap htoken hop hends.endsToken,
        hat.skip.skip, hrest⟩
  | cons operand operands ih =>
    cases h with
    | @cons gap more _ _ hgap htoken hends hrest =>
      have hvalue : Spells depth (.value operand.value) operand.text := htoken
      have hread := hat.nextToken_value hgap hvalue hdepth (hfits operand List.mem_cons_self) hends.endsToken
      obtain ⟨mid, offset, next, more', hoperands, hoperator, hat', hmore⟩ :=
        ih hrest hat.skip.skip fun other hother => hfits other (List.mem_cons_of_mem _ hother)
      exact ⟨mid, offset, next, more', .cons hread hoperands, hoperator, hat', hmore⟩

theorem Application.Fits.operandFits {application : Application} (h : application.Fits limits) :
    ∀ operand ∈ application.operands, OperandFits limits operand.value operand.text := by
  intro operand hoperand
  have hsize : operand.read.byteLen
      ≤ (application.operands.map fun operand => operand.read.byteLen).sum :=
    List.single_le_sum (fun _ _ => Nat.zero_le _) _ (List.mem_map.mpr ⟨operand, hoperand, rfl⟩)
  unfold OperandFits
  split
  · rename_i name hname
    exact h.names operand hoperand name hname
  · rename_i entries hentries
    have hread : operand.read.byteLen = operand.text.length := by
      unfold SpelledOperand.read
      rw [hentries]
      rfl
    have hall := h.size.1
    omega
  · trivial

/-- What the applications of a stream leave in the summary. -/
structure Summarised (applications : List Application) (s s' : SummaryState) : Prop where
  operands : s'.operands = []
  size : s'.operandBytes = 0
  seen : s'.summary.operatorsSeen = s.summary.operatorsSeen + applications.length
  facts : s'.summary.facts.map OperatorFact.nameAndClass
    = s.summary.facts.map OperatorFact.nameAndClass ++ applications.map Application.fact
  uses : s'.summary.resourceUses.map ResourceUse.entry
    = s.summary.resourceUses.map ResourceUse.entry ++ applications.flatMap Application.uses
  warnings : s'.summary.warnings = s.summary.warnings
  truncated : s'.summary.truncated = s.summary.truncated

theorem Summarised.cons {application : Application} {applications : List Application}
    {s mid s' : SummaryState} (h : Summarised [application] s mid) (hrest : Summarised applications mid s') :
    Summarised (application :: applications) s s' where
  operands := hrest.operands
  size := hrest.size
  seen := by
    rw [hrest.seen, h.seen, List.length_singleton, List.length_cons]
    omega
  facts := by
    rw [hrest.facts, h.facts, List.append_assoc]
    rfl
  uses := by
    rw [hrest.uses, h.uses, List.flatMap_singleton, List.append_assoc, List.flatMap_cons]
  warnings := hrest.warnings.trans h.warnings
  truncated := hrest.truncated.trans h.truncated

/-- An application within the caps is performed. -/
theorem performOperation_application {application : Application} {s : SummaryState} {offset next : Nat}
    (hnone : s.operands = []) (hzero : s.operandBytes = 0) (hfits : application.Fits limits)
    (hinline : operatorKind application.op ≠ .inlineImage)
    (hsave : operatorKind application.op = .save → s.graphicsDepth < limits.maxGraphicsStateDepth)
    (hseen : s.summary.operatorsSeen + 1 < u64Size) :
    ∃ s', performOperation source locationPath bytes limits s
        ⟨application.operands.map SpelledOperand.read, ⟨application.op⟩, offset, next⟩ = .ok s'
      ∧ s'.pos = next ∧ Summarised [application] s s'
      ∧ s'.graphicsDepth = savedAfter application.op s.graphicsDepth := by
  have hsum : ((application.operands.map SpelledOperand.read).map Operand.byteLen).sum
      = (application.operands.map fun operand => operand.read.byteLen).sum := by
    rw [List.map_map]
    rfl
  have hpush := @pushOperands_fit limits (application.operands.map SpelledOperand.read) s
    (by
      have hcount := hfits.count
      rw [hnone, List.length_map, List.length_nil]
      omega)
    (by
      have hsize := hfits.size.1
      rw [hzero, hsum]
      omega)
    (by
      have hsize := hfits.size.2
      rw [hzero, hsum]
      omega)
  rw [hnone, List.nil_append] at hpush
  unfold performOperation
  dsimp only
  rw [hpush, ok_bind]
  generalize hs₁ : ({ s with
    pos := next
    operands := application.operands.map SpelledOperand.read
    operandBytes := s.operandBytes
      + ((application.operands.map SpelledOperand.read).map Operand.byteLen).sum
    summary := { s.summary with operatorsSeen := s.summary.operatorsSeen + 1 } } : SummaryState) = s₁
  have hname : firstNameOperand s₁.operands = application.resourceName := by
    rw [← hs₁]
    exact application.firstNameOperand_read
  have htag : TagFits limits application.op (firstNameOperand s₁.operands) := by
    rw [hname]
    exact hfits.tag
  have hcount : countsOperands application.op (firstNameOperand s₁.operands) = true →
      s₁.operands.length < u16Size := by
    rw [hname, ← hs₁]
    dsimp only
    rw [List.length_map]
    exact hfits.counted
  have hsave₁ : operatorKind application.op = .save → s₁.graphicsDepth < limits.maxGraphicsStateDepth := by
    rw [← hs₁]
    exact hsave
  obtain ⟨s₂, hclassify, hrecords⟩ := @classifyOperator_records bytes limits application.op
    (operatorLocation source locationPath (s.summary.operatorsSeen + 1) offset) s₁ hinline htag hcount hsave₁
  rw [hname] at hrecords
  refine ⟨{ s₂ with operands := [], operandBytes := 0 }, ?_, ?_, ?_, ?_⟩
  · unfold acceptOperator
    dsimp only
    rw [(failIf_eq_ok (u := ())).mpr (Nat.not_le.mpr hseen), ok_bind, hs₁, hclassify]
    rfl
  · change s₂.pos = next
    rw [hrecords.pos, ← hs₁]
  · refine ⟨rfl, rfl, ?_, ?_, ?_, ?_, ?_⟩
    · change s₂.summary.operatorsSeen = _
      rw [hrecords.seen, ← hs₁]
      rfl
    · change s₂.summary.facts.map OperatorFact.nameAndClass = _
      rw [hrecords.facts, ← hs₁]
      rfl
    · change s₂.summary.resourceUses.map ResourceUse.entry = _
      rw [hrecords.uses, ← hs₁, List.flatMap_singleton]
      rfl
    · change s₂.summary.warnings = _
      rw [hrecords.warnings, ← hs₁]
    · change s₂.summary.truncated = _
      rw [hrecords.truncated, ← hs₁]
  · change s₂.graphicsDepth = _
    rw [hrecords.depth, ← hs₁]

/-- The loop runs over printed applications, one after the other. -/
theorem Printed.runs {depth : Nat} {applications : List Application} {s : SummaryState} {rest : Bytes}
    (h : Printed depth (applications.flatMap Application.tokens) rest) (hat : At bytes s.pos rest)
    (hdepth : depth ≤ limits.maxObjectDepth) (hnone : s.operands = []) (hzero : s.operandBytes = 0)
    (hfits : ∀ application ∈ applications, application.Fits limits)
    (hinline : ∀ application ∈ applications, operatorKind application.op ≠ .inlineImage)
    (hsaves : SavesFit limits s.graphicsDepth applications)
    (hroom : s.summary.operatorsSeen + applications.length ≤ limits.maxContentStreamOps)
    (hseen : s.summary.operatorsSeen + applications.length < u64Size) :
    ∃ n s' gap, Steps (summarizeStep source locationPath bytes limits) n s s' ∧ At bytes s'.pos gap ∧ TokenGap gap
      ∧ Summarised applications s s' := by
  induction applications generalizing s rest with
  | nil =>
    cases h with
    | nil hgap =>
      refine ⟨0, s, rest, .refl s, hat, hgap, hnone, hzero, rfl, ?_, ?_, rfl, rfl⟩
      · rw [List.map_nil, List.append_nil]
      · rw [List.flatMap_nil, List.append_nil]
  | cons application applications ih =>
    rw [List.length_cons] at hroom hseen
    have happlication := hfits application List.mem_cons_self
    have htokens : Printed depth (application.operands.map .operand ++
        .operator application.op :: applications.flatMap Application.tokens) rest := by
      have hcons : (application :: applications).flatMap Application.tokens
          = application.operands.map .operand ++
            .operator application.op :: applications.flatMap Application.tokens := by
        rw [List.flatMap_cons, Application.tokens, List.append_assoc, List.singleton_append]
      rwa [hcons] at h
    obtain ⟨mid, offset, next, more, hoperands, hoperator, hat', hmore⟩ :=
      htokens.reads hat hdepth happlication.operandFits happlication.operator
    obtain ⟨s₁, hperform, hpos₁, hone, hdepth₁⟩ := @performOperation_application source locationPath bytes
      limits application s offset next hnone hzero happlication (hinline application List.mem_cons_self)
      hsaves.1 (by omega)
    obtain ⟨m, hsteps⟩ := performOperation_steps hoperands rfl hoperator (by omega) hperform
    rw [← hpos₁] at hat'
    have hseen₁ : s₁.summary.operatorsSeen = s.summary.operatorsSeen + 1 := hone.seen
    obtain ⟨n, s', gap, hrest, hgapAt, hgap, hall⟩ := ih hmore hat' hone.operands hone.size
      (fun other hother => hfits other (List.mem_cons_of_mem _ hother))
      (fun other hother => hinline other (List.mem_cons_of_mem _ hother))
      (by rw [hdepth₁]; exact hsaves.2) (by omega) (by omega)
    exact ⟨m + n, s', gap, hsteps.trans hrest, hgapAt, hgap, hone.cons hall⟩

theorem pdfOperators_notInline : ∀ op ∈ pdfOperators, operatorKind op ≠ .inlineImage := by
  intro op hop hkind
  -- `BI` is the only inline image operator
  have hmem : op ∈ ["BI"] := (operatorKind_iff ["BI"] List.mem_cons_self).mp hkind
  rw [List.mem_singleton.mp hmem] at hop
  rcases List.mem_append.mp hop with htable | hrest
  · exact of_decide_eq_true (List.mem_filter.mp htable).2 rfl
  · exact absurd hrest (by decide)

/-- Printed applications of the operators of PDF but `BI` are summarised one by one: without warnings, with
one fact for each, and with one resource use for each resource operator that has a name among its operands. -/
theorem summarizeContentStream_printed {applications : List Application}
    (h : Printed limits.maxObjectDepth (applications.flatMap Application.tokens) bytes)
    (hops : ∀ application ∈ applications, application.op ∈ pdfOperators)
    (hfits : ∀ application ∈ applications, application.Fits limits)
    (hsaves : SavesFit limits 0 applications) (hroom : applications.length ≤ limits.maxContentStreamOps)
    (hseen : applications.length < u64Size) :
    ∃ summary, summarizeContentStream source locationPath bytes limits = .ok summary
      ∧ summary.warnings = [] ∧ summary.truncated = false ∧ summary.operatorsSeen = applications.length
      ∧ summary.facts.map OperatorFact.nameAndClass = applications.map Application.fact
      ∧ summary.resourceUses.map ResourceUse.entry = applications.flatMap Application.uses := by
  obtain ⟨n, s, gap, hsteps, hgapAt, hgap, hall⟩ :=
    @Printed.runs source locationPath bytes limits _ applications (SummaryState.initial source) bytes h
      (At.start bytes) (Nat.le_refl _) rfl rfl hfits
      (fun application happlication => pdfOperators_notInline _ (hops application happlication)) hsaves
      (by change 0 + applications.length ≤ _; omega) (by change 0 + applications.length < _; omega)
  have hlast : summarizeStep source locationPath bytes limits s = .done (.ok s) := by
    unfold summarizeStep
    rw [hgapAt.nextToken_end hgap]
  have hfinish := hsteps.finishes (.done hlast)
  have hloop := summarizeLoop_finishes.unique hfinish
  refine ⟨s.summary, ?_, ?_⟩
  · unfold summarizeContentStream
    rw [hloop, ok_bind, hall.operands]
    rfl
  · obtain ⟨-, -, hcount, hfacts, huses, hwarnings, htruncated⟩ := hall
    refine ⟨hwarnings, htruncated, ?_, ?_, ?_⟩
    · rw [hcount]
      exact Nat.zero_add _
    · rw [hfacts]
      rfl
    · rw [huses]
      rfl

end Printed

/-! ## Printed streams -/

theorem space_gap : TokenGap [32] :=
  .ws rfl .nil

theorem space_startsGap (rest : Bytes) : StartsGap (32 :: rest) := by
  intro b hb
  cases hb
  exact .inl rfl

/-- The array `[ 1 % a (b) ]`, with a line end after the comment. -/
def commentedArray : SpelledOperand :=
  ⟨.array [.integer 1, .string ⟨[98]⟩], utf8 "[ 1 % a\n(b) ]"⟩

theorem commentedArray_spells : Spells 128 (.value commentedArray.value) commentedArray.text := by
  have htext : commentedArray.text
      = 91 :: ([32] ++ ((([] ++ [49]) ++ ((32 :: 37 :: ([32, 97] ++ 10 :: [])) ++ ((40 :: ([98] ++ [41])) ++ [32])))
        ++ [93])) := by
    decide
  have hspace : QuietGap [32] := ⟨space_gap, by decide⟩
  have hcomment : QuietGap (32 :: 37 :: ([32, 97] ++ 10 :: [])) :=
    ⟨.ws rfl (.comment (by decide) rfl .nil), by decide⟩
  rw [htext]
  exact .array hspace (.item (.integer 127 (.inl rfl) (by decide) (by decide)) hcomment (by decide)
    (.lastItem (.literal 127 (.plain (by decide) (by decide) (by decide) (.nil _))) hspace))

/-- A graphics state with its resource, and shown text. -/
def shownApplications : List Application :=
  [⟨[⟨.name ⟨utf8 "GS0"⟩, 47 :: utf8 "GS0"⟩], "gs"⟩, ⟨[commentedArray], "TJ"⟩]

def shownStream : Bytes :=
  utf8 "/GS0 gs [ 1 % a\n(b) ] TJ"

theorem plainName_text : NameText (utf8 "GS0") (utf8 "GS0") := by
  have htext : utf8 "GS0" = [71, 83, 48] := by
    decide
  rw [htext]
  exact .plain (by decide) (by decide) (.plain (by decide) (by decide) (.plain (by decide) (by decide) .nil))

theorem shownStream_printed : Printed 128 (shownApplications.flatMap Application.tokens) shownStream := by
  have htext : shownStream = [] ++ ((47 :: utf8 "GS0") ++ ([32] ++ (utf8 "gs" ++ ([32] ++ (commentedArray.text
      ++ ([32] ++ (utf8 "TJ" ++ []))))))) := by
    decide
  rw [htext]
  refine .cons .nil (.name 128 plainName_text) (space_startsGap _) ?_
  refine .cons space_gap (pdfOperators_text "gs" (by decide)) (space_startsGap _) ?_
  refine .cons space_gap commentedArray_spells (space_startsGap _) ?_
  exact .cons space_gap (pdfOperators_text "TJ" (by decide)) (fun b hb => by cases hb) (.nil .nil)

/-- The shown stream is summarised. -/
theorem summarizeContentStream_printed_shown :
    ∃ summary, summarizeContentStream (.ofNumber 1) "root" shownStream {} = .ok summary
      ∧ summary.warnings = [] ∧ summary.truncated = false ∧ summary.operatorsSeen = 2
      ∧ summary.facts.map OperatorFact.nameAndClass = shownApplications.map Application.fact
      ∧ summary.resourceUses.map ResourceUse.entry = shownApplications.flatMap Application.uses := by
  have hsaves : SavesFit {} 0 shownApplications := ⟨by decide, by decide, trivial⟩
  refine @summarizeContentStream_printed _ _ shownStream {} shownApplications shownStream_printed (by decide)
    (fun application happlication => ?_) hsaves (by decide) (by decide)
  have hcases : application = ⟨[⟨.name ⟨utf8 "GS0"⟩, 47 :: utf8 "GS0"⟩], "gs"⟩
      ∨ application = ⟨[commentedArray], "TJ"⟩ := by
    simpa [shownApplications] using happlication
  rcases hcases with rfl | rfl
  · refine ⟨fun operand hoperand name hname => ?_, by decide, ⟨by decide, by decide⟩,
      by decide, by decide, ⟨by decide, by decide⟩⟩
    rw [List.mem_singleton.mp hoperand] at hname
    cases hname
    decide
  · refine ⟨fun operand hoperand name hname => ?_, by decide, ⟨by decide, by decide⟩,
      by decide, by decide, ⟨by decide, by decide⟩⟩
    rw [List.mem_singleton.mp hoperand] at hname
    cases hname

/-- A marked-content sequence with a tag. -/
def markedApplications : List Application :=
  [⟨[⟨.name ⟨utf8 "GS0"⟩, 47 :: utf8 "GS0"⟩], "BMC"⟩, ⟨[], "EMC"⟩]

def markedStream : Bytes :=
  utf8 "/GS0 BMC EMC"

theorem markedStream_printed : Printed 128 (markedApplications.flatMap Application.tokens) markedStream := by
  have htext : markedStream
      = [] ++ ((47 :: utf8 "GS0") ++ ([32] ++ (utf8 "BMC" ++ ([32] ++ (utf8 "EMC" ++ []))))) := by
    decide
  rw [htext]
  refine .cons .nil (.name 128 plainName_text) (space_startsGap _) ?_
  refine .cons space_gap (pdfOperators_text "BMC" (by decide)) (space_startsGap _) ?_
  exact .cons space_gap (pdfOperators_text "EMC" (by decide)) (fun b hb => by cases hb) (.nil .nil)

theorem markedStream_run : (match summarizeContentStream (.ofNumber 1) "root" markedStream {} with
    | .ok summary => decide (summary.facts.map OperatorFact.opName = ["markedContent", "markedContent"])
    | .error _ => false) = true := by
  decide

/-- The facts of `BMC` and `EMC` do not have the names of the operators. -/
theorem markedContent_renamed :
    Printed 128 (markedApplications.flatMap Application.tokens) markedStream
      ∧ (∀ application ∈ markedApplications, application.op ∈ pdfOperators)
      ∧ (∀ application ∈ markedApplications, application.Fits {}) ∧ SavesFit {} 0 markedApplications
      ∧ ∃ summary, summarizeContentStream (.ofNumber 1) "root" markedStream {} = .ok summary
        ∧ summary.facts.map OperatorFact.opName ≠ markedApplications.map Application.op := by
  refine ⟨markedStream_printed, by decide, fun application happlication => ?_,
    ⟨by decide, by decide, trivial⟩, ?_⟩
  · have hcases : application = ⟨[⟨.name ⟨utf8 "GS0"⟩, 47 :: utf8 "GS0"⟩], "BMC"⟩
        ∨ application = ⟨[], "EMC"⟩ := by
      simpa [markedApplications] using happlication
    rcases hcases with rfl | rfl
    · refine ⟨fun operand hoperand name hname => ?_, by decide,
        ⟨by decide, by decide⟩, by decide, by decide, ⟨by decide, by decide⟩⟩
      rw [List.mem_singleton.mp hoperand] at hname
      cases hname
      decide
    · exact ⟨fun operand hoperand => absurd hoperand List.not_mem_nil, by decide,
        ⟨by decide, by decide⟩, by decide, by decide, ⟨by decide, by decide⟩⟩
  · have hrun := markedStream_run
    split at hrun
    · rename_i summary hsummary
      refine ⟨summary, hsummary, ?_⟩
      rw [of_decide_eq_true hrun]
      decide
    · cases hrun

end Pdfv
