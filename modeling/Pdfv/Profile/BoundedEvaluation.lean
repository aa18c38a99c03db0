import Pdfv.Profile.Evaluator
import Pdfv.Basic.Budgets
/-!
# Bounded evaluation

`DefaultRuleEvaluator` as one object that evaluates rule after rule: its instruction counter stays
where a failed evaluation leaves it, and for the reader it also carries the expressions whose
evaluation began. The meaning of an expression without budgets is `RuleExpr.denote`. The evaluator
gives this meaning unless its budgets stop it, evaluates at most `maxRuleInstructions` nodes, and is
never stopped on an expression that fits both budgets.
-/

namespace Pdfv

open Fallible Budgets

/-! ## The evaluator -/

/-- `DefaultRuleEvaluator`: the instruction counter, and the expressions that passed the checks of
`eval` in the current evaluation. -/
structure DefaultRuleEvaluator where
  instructions : Nat
  evaluated : List RuleExpr

/-- A step of the evaluator, which also keeps its fields when it fails. -/
abbrev Evaluating (α : Type) := EStateM PdfvError DefaultRuleEvaluator α

namespace DefaultRuleEvaluator

/-- The checks at the start of `eval`. -/
def charge (context : EvalContext) (depth : Nat) (expr : RuleExpr) : Evaluating Unit := fun self =>
  if self.instructions + 1 > maxRuleInstructions then
    .error (budgetExceeded "instructions") { self with instructions := self.instructions + 1 }
  else if depth > maxRuleDepth ∨ depth > context.maxObjectDepth then
    .error (budgetExceeded "depth") { self with instructions := self.instructions + 1 }
  else
    .ok () { instructions := self.instructions + 1, evaluated := self.evaluated ++ [expr] }

mutual

/-- `DefaultRuleEvaluator::eval`. -/
def eval (context : EvalContext) (depth : Nat) : RuleExpr → Evaluating ModelValue
  | .bool value => do
    charge context depth (.bool value)
    return .bool value
  | .number value => do
    charge context depth (.number value)
    return .number value
  | .string value => do
    charge context depth (.string value)
    return .string value
  | .null => do
    charge context depth .null
    return .null
  | .property path => do
    charge context depth (.property path)
    context.property path
  | .unary op expr => do
    charge context depth (.unary op expr)
    let value ← eval context (depth + 1) expr
    applyUnary op value
  | .binary op left right => do
    charge context depth (.binary op left right)
    let first ← eval context (depth + 1) left
    if op = .and ∨ op = .or then
      let decided ← first.expectBool
      if decided = decide (op = .or) then return .bool decided
      else
        let second ← eval context (depth + 1) right
        return .bool (← second.expectBool)
    else
      let second ← eval context (depth + 1) right
      applyBinary op first second
  | .conditional condition whenTrue whenFalse => do
    charge context depth (.conditional condition whenTrue whenFalse)
    let value ← eval context (depth + 1) condition
    if ← value.expectBool then eval context (depth + 1) whenTrue
    else eval context (depth + 1) whenFalse
  | .call function args => do
    charge context depth (.call function args)
    match function.shape, args with
    | .one, [arg] => do
      let value ← eval context (depth + 1) arg
      applyUnaryCall context function value
    | .one, _ => throw (typeMismatch "built-in requires exactly one argument")
    | .two, [first, second] => do
      let first ← eval context (depth + 1) first
      let second ← eval context (depth + 1) second
      applyBinaryCall context function first second
    | .two, _ => throw (typeMismatch "built-in requires two arguments")
    | .fold allRequired, args => evalBooleanFold context (depth + 1) allRequired args
    | .collection _, [] =>
      throw (typeMismatch (if function = .findIndexEquals then "findIndex requires collection"
        else "filter requires collection"))
    | .collection message, collection :: predicates => do
      let collection ← eval context (depth + 1) collection
      let predicates ← evalStringArgs context (depth + 1) message predicates
      applyCollectionCall context function collection predicates
  | .unsupported fragment reason => do
    charge context depth (.unsupported fragment reason)
    throw (.profile (.unsupportedRule reason))

/-- `eval_boolean_fold`. -/
def evalBooleanFold (context : EvalContext) (depth : Nat) (allRequired : Bool) :
    List RuleExpr → Evaluating ModelValue
  | [] => return .bool allRequired
  | arg :: rest => do
    let value ← eval context depth arg
    let decided ← value.expectBool
    if decided = allRequired then evalBooleanFold context depth allRequired rest
    else return .bool decided

/-- `eval_string_args`. -/
def evalStringArgs (context : EvalContext) (depth : Nat) (message : String) :
    List RuleExpr → Evaluating (List BoundedText)
  | [] => return []
  | arg :: rest => do
    match ← eval context depth arg with
    | .string text => do
      let texts ← evalStringArgs context depth message rest
      return text :: texts
    | _ => throw (typeMismatch message)

end

/-- `RuleEvaluator::evaluate`: the counter starts over with every rule. -/
def evaluate (self : DefaultRuleEvaluator) (context : EvalContext) (test : RuleExpr) :
    EStateM.Result PdfvError DefaultRuleEvaluator RuleOutcome :=
  (do
    let value ← eval context 0 test
    let passed ← value.expectBool
    return if passed then RuleOutcome.passed else .failed : Evaluating RuleOutcome)
    { self with instructions := 0, evaluated := [] }

end DefaultRuleEvaluator

/-! ## The meaning of an expression -/

namespace RuleExpr

mutual

/-- The meaning of an expression: every operand is evaluated before the next, and `&&`, `||`,
conditionals, `all` and `exists` skip the operands they do not need. -/
def denote (context : EvalContext) : RuleExpr → Except PdfvError ModelValue
  | .bool value => .ok (.bool value)
  | .number value => .ok (.number value)
  | .string value => .ok (.string value)
  | .null => .ok .null
  | .property path => context.property path
  | .unary op expr => do applyUnary op (← expr.denote context)
  | .binary .and left right => do
    if ← (← left.denote context).expectBool then
      return .bool (← (← right.denote context).expectBool)
    else return .bool false
  | .binary .or left right => do
    if ← (← left.denote context).expectBool then return .bool true
    else return .bool (← (← right.denote context).expectBool)
  | .binary op left right => do
    let first ← left.denote context
    let second ← right.denote context
    applyBinary op first second
  | .conditional condition whenTrue whenFalse => do
    if ← (← condition.denote context).expectBool then whenTrue.denote context
    else whenFalse.denote context
  | .call .all args => do return .bool !(← someDecides context false args)
  | .call .exists args => do return .bool (← someDecides context true args)
  | .call function args =>
    match function.shape, args with
    | .one, [arg] => do applyUnaryCall context function (← arg.denote context)
    | .two, [first, second] => do
      let first ← first.denote context
      let second ← second.denote context
      applyBinaryCall context function first second
    | .collection message, collection :: predicates => do
      let collection ← collection.denote context
      let predicates ← denoteStrings context message predicates
      applyCollectionCall context function collection predicates
    | .one, _ => .error (typeMismatch "built-in requires exactly one argument")
    | .two, _ => .error (typeMismatch "built-in requires two arguments")
    | _, _ => .error (typeMismatch (if function = .findIndexEquals
        then "findIndex requires collection" else "filter requires collection"))
  | .unsupported _ reason => .error (.profile (.unsupportedRule reason))

/-- Whether an argument has the deciding value; the arguments after it are not evaluated. -/
def someDecides (context : EvalContext) (deciding : Bool) : List RuleExpr → Except PdfvError Bool
  | [] => .ok false
  | arg :: rest => do
    if (← (← arg.denote context).expectBool) = deciding then return true
    else someDecides context deciding rest

/-- Arguments that must be strings. -/
def denoteStrings (context : EvalContext) (message : String) :
    List RuleExpr → Except PdfvError (List BoundedText)
  | [] => .ok []
  | arg :: rest => do
    match ← arg.denote context with
    | .string text => return text :: (← denoteStrings context message rest)
    | _ => .error (typeMismatch message)

end

/-- The outcome of a rule without budgets. -/
def outcome (context : EvalContext) (test : RuleExpr) : Except PdfvError RuleOutcome := do
  return if ← (← test.denote context).expectBool then .passed else .failed

mutual

/-- The nodes of an expression. -/
def nodes : RuleExpr → Nat
  | .unary _ expr => 1 + expr.nodes
  | .binary _ left right => 1 + (left.nodes + right.nodes)
  | .conditional condition whenTrue whenFalse =>
    1 + (condition.nodes + (whenTrue.nodes + whenFalse.nodes))
  | .call _ args => 1 + listNodes args
  | _ => 1

/-- The nodes of expressions. -/
def listNodes : List RuleExpr → Nat
  | [] => 0
  | expr :: exprs => expr.nodes + listNodes exprs

end

mutual

/-- How deep expressions are nested in an expression; nothing is nested in a leaf. -/
def nesting : RuleExpr → Nat
  | .unary _ expr => expr.nesting + 1
  | .binary _ left right => max left.nesting right.nesting + 1
  | .conditional condition whenTrue whenFalse =>
    max condition.nesting (max whenTrue.nesting whenFalse.nesting) + 1
  | .call _ args => argsNesting args
  | _ => 0

/-- How deep expressions are nested in a call with these arguments. -/
def argsNesting : List RuleExpr → Nat
  | [] => 0
  | expr :: exprs => max (expr.nesting + 1) (argsNesting exprs)

end

end RuleExpr

/-! ## Agreement -/

/-- The errors of the two budgets of the evaluator. -/
def PdfvError.StopsEvaluation (e : PdfvError) : Prop :=
  e = budgetExceeded "instructions" ∨ e = budgetExceeded "depth"

/-- The budget of instructions; the budget of depth stops an evaluation as well. -/
def ruleBudget : Budget PdfvError DefaultRuleEvaluator where
  spent self := self.instructions
  limit := maxRuleInstructions
  keeps self := self.evaluated.length ≤ min self.instructions maxRuleInstructions
  stops e := e.StopsEvaluation

/-- The greatest depth at which an expression is evaluated. -/
def EvalContext.depthLimit (context : EvalContext) : Nat :=
  min maxRuleDepth context.maxObjectDepth

section Agreement

variable {context : EvalContext}

open DefaultRuleEvaluator

theorem charge_agrees (depth : Nat) (expr : RuleExpr) :
    Agrees ruleBudget (depth ≤ context.depthLimit) 1 (charge context depth expr) (.ok ()) := by
  intro self hself
  have hkept : self.evaluated.length ≤ min self.instructions maxRuleInstructions := hself
  unfold charge
  split
  case isTrue hover =>
    refine ⟨?_, .inr ⟨⟨_, .inl rfl, rfl⟩, fun _ => ?_⟩⟩
    · show self.evaluated.length ≤ min (self.instructions + 1) maxRuleInstructions
      omega
    · exact hover
  case isFalse hleft =>
    split
    case isTrue hdeep =>
      refine ⟨?_, .inr ⟨⟨_, .inr rfl, rfl⟩, fun hfits => ?_⟩⟩
      · show self.evaluated.length ≤ min (self.instructions + 1) maxRuleInstructions
        omega
      · unfold EvalContext.depthLimit at hfits
        omega
    case isFalse =>
      refine ⟨?_, .inl ⟨rfl, Nat.le_refl _⟩⟩
      show (self.evaluated ++ [expr]).length ≤ min (self.instructions + 1) maxRuleInstructions
      rw [List.length_append, List.length_singleton]
      omega

/-- A production: the checks, then the rest at its own cost. -/
theorem charged_agrees {depth : Nat} {expr : RuleExpr} {fits : Prop} {cost : Nat}
    {x : Evaluating ModelValue} {y : Except PdfvError ModelValue}
    (h : Agrees ruleBudget fits cost x y) :
    Agrees ruleBudget (depth ≤ context.depthLimit ∧ fits) (1 + cost)
      (charge context depth expr >>= fun _ => x) y :=
  (charge_agrees depth expr).bind fun _ => h

theorem RuleExpr.denote_binary {op : BinaryOp} (hand : op ≠ .and) (hor : op ≠ .or)
    (left right : RuleExpr) :
    (RuleExpr.binary op left right).denote context = (do
      let first ← left.denote context
      let second ← right.denote context
      applyBinary op first second) := by
  cases op <;> first | rfl | contradiction

/-- The second operand of `&&` and `||`. -/
theorem secondOperand_agrees {fits : Prop} {cost : Nat} {x : Evaluating ModelValue}
    {y : Except PdfvError ModelValue} (h : Agrees ruleBudget fits cost x y) :
    Agrees ruleBudget fits cost
      (do
        let second ← x
        return ModelValue.bool (← second.expectBool))
      (do return ModelValue.bool (← (← y).expectBool)) := by
  exact (h.bind fun second => .bind_ofExcept fun _ => .pure _).mono (fun h => ⟨h, trivial⟩)
    (Nat.le_refl _)

namespace RuleExpr

variable {function : BuiltinFunction}

theorem denote_call_one (h : function.shape = .one) (args : List RuleExpr) :
    (call function args).denote context =
      match args with
      | [arg] => do applyUnaryCall context function (← arg.denote context)
      | _ => .error (typeMismatch "built-in requires exactly one argument") := by
  cases function <;> cases h
  all_goals
    rcases args with _ | ⟨_, _ | ⟨_, _⟩⟩ <;> rfl

theorem denote_call_two (h : function.shape = .two) (args : List RuleExpr) :
    (call function args).denote context =
      match args with
      | [first, second] => do
        let first ← first.denote context
        let second ← second.denote context
        applyBinaryCall context function first second
      | _ => .error (typeMismatch "built-in requires two arguments") := by
  cases function <;> cases h
  all_goals
    rcases args with _ | ⟨_, _ | ⟨_, _ | ⟨_, _⟩⟩⟩ <;> rfl

theorem denote_call_collection {message : String} (h : function.shape = .collection message)
    (args : List RuleExpr) :
    (call function args).denote context =
      match args with
      | [] => .error (typeMismatch (if function = .findIndexEquals
          then "findIndex requires collection" else "filter requires collection"))
      | collection :: predicates => (do
        let collection ← collection.denote context
        let predicates ← denoteStrings context message predicates
        applyCollectionCall context function collection predicates) := by
  cases function <;> cases h
  all_goals
    rcases args with _ | ⟨_, _⟩ <;> rfl

theorem denote_call_fold {allRequired : Bool} (h : function.shape = .fold allRequired)
    (args : List RuleExpr) :
    (call function args).denote context = (do
      let decided ← someDecides context (!allRequired) args
      return ModelValue.bool (if decided then !allRequired else allRequired)) := by
  cases function <;> cases h
  all_goals
    rw [denote]
    refine congrArg _ (funext fun decided => ?_)
    cases decided <;> rfl

end RuleExpr

mutual

theorem eval_agrees (depth : Nat) (expr : RuleExpr) :
    Agrees ruleBudget (depth + expr.nesting ≤ context.depthLimit) expr.nodes
      (eval context depth expr) (expr.denote context) := by
  match expr with
  | .bool value | .number value | .string value =>
    rw [eval]
    exact (charged_agrees (.pure _)).mono (fun h => ⟨h, trivial⟩) (Nat.le_refl _)
  | .null =>
    rw [eval]
    exact (charged_agrees (.pure _)).mono (fun h => ⟨h, trivial⟩) (Nat.le_refl _)
  | .property path =>
    rw [eval]
    exact (charged_agrees (.ofExcept _)).mono (fun h => ⟨h, trivial⟩) (Nat.le_refl _)
  | .unary op expr =>
    rw [eval]
    refine (charged_agrees ((eval_agrees (depth + 1) expr).bind fun value =>
      .ofExcept (applyUnary op value))).mono (fun h => ?_) (Nat.le_refl _)
    rw [RuleExpr.nesting] at h
    exact ⟨by omega, by omega, trivial⟩
  | .binary op left right =>
    have hleft := eval_agrees (depth + 1) left
    have hright := eval_agrees (depth + 1) right
    rw [eval]
    have hfits : depth + (RuleExpr.binary op left right).nesting ≤ context.depthLimit →
        depth ≤ context.depthLimit ∧ depth + 1 + left.nesting ≤ context.depthLimit ∧
          depth + 1 + right.nesting ≤ context.depthLimit := fun h => by
      rw [RuleExpr.nesting] at h
      omega
    by_cases hand : op = .and
    · subst hand
      refine (charged_agrees (hleft.bind fun first => ?_)).mono hfits (Nat.le_refl _)
      rw [if_pos (.inl rfl)]
      refine .bind_ofExcept fun decided => ?_
      cases decided with
      | false => exact (Agrees.pure _).mono (fun _ => trivial) (Nat.zero_le _)
      | true => exact secondOperand_agrees hright
    · by_cases hor : op = .or
      · subst hor
        refine (charged_agrees (hleft.bind fun first => ?_)).mono hfits (Nat.le_refl _)
        rw [if_pos (.inr rfl)]
        refine .bind_ofExcept fun decided => ?_
        cases decided with
        | true => exact (Agrees.pure _).mono (fun _ => trivial) (Nat.zero_le _)
        | false => exact secondOperand_agrees hright
      · rw [RuleExpr.denote_binary hand hor]
        refine (charged_agrees (hleft.bind fun first => ?_)).mono hfits (Nat.le_refl _)
        rw [if_neg (not_or.mpr ⟨hand, hor⟩)]
        exact (hright.bind fun second => .ofExcept _).mono (fun h => ⟨h, trivial⟩)
          (Nat.le_refl _)
  | .conditional condition whenTrue whenFalse =>
    have htrue := eval_agrees (depth + 1) whenTrue
    have hfalse := eval_agrees (depth + 1) whenFalse
    have hbranch : ∀ decided : Bool,
        Agrees ruleBudget (depth + 1 + whenTrue.nesting ≤ context.depthLimit ∧
            depth + 1 + whenFalse.nesting ≤ context.depthLimit) (whenTrue.nodes + whenFalse.nodes)
          (if decided = true then eval context (depth + 1) whenTrue
            else eval context (depth + 1) whenFalse)
          (if decided = true then whenTrue.denote context else whenFalse.denote context) := by
      intro decided
      cases decided with
      | true => exact htrue.mono (fun h => h.1) (Nat.le_add_right _ _)
      | false => exact hfalse.mono (fun h => h.2) (Nat.le_add_left _ _)
    rw [eval]
    refine (charged_agrees ((eval_agrees (depth + 1) condition).bind fun value =>
      .bind_ofExcept hbranch)).mono (fun h => ?_) (Nat.le_refl _)
    rw [RuleExpr.nesting] at h
    omega
  | .call function args =>
    have hfits : depth + (RuleExpr.call function args).nesting ≤ context.depthLimit →
        depth ≤ context.depthLimit ∧
          depth + 1 + RuleExpr.argsNesting args ≤ context.depthLimit + 1 := fun h => by
      rw [RuleExpr.nesting] at h
      omega
    unfold eval
    refine (charged_agrees ?_).mono hfits (Nat.le_refl _)
    cases hshape : function.shape with
    | one =>
      rw [RuleExpr.denote_call_one hshape]
      match args with
      | [] | _ :: _ :: _ => exact (Agrees.throw _).mono (fun _ => trivial) (Nat.zero_le _)
      | [arg] =>
        refine ((eval_agrees (depth + 1) arg).bind fun value => .ofExcept _).mono (fun h => ?_)
          (Nat.le_refl _)
        rw [RuleExpr.argsNesting] at h
        exact ⟨by omega, trivial⟩
    | two =>
      rw [RuleExpr.denote_call_two hshape]
      match args with
      | [] | [_] | _ :: _ :: _ :: _ =>
        exact (Agrees.throw _).mono (fun _ => trivial) (Nat.zero_le _)
      | [first, second] =>
        refine ((eval_agrees (depth + 1) first).bind fun _ =>
          (eval_agrees (depth + 1) second).bind fun _ => .ofExcept _).mono (fun h => ?_)
          (Nat.le_refl _)
        rw [RuleExpr.argsNesting, RuleExpr.argsNesting] at h
        exact ⟨by omega, by omega, trivial⟩
    | fold allRequired =>
      rw [RuleExpr.denote_call_fold hshape]
      exact evalBooleanFold_agrees (depth + 1) allRequired args
    | collection message =>
      rw [RuleExpr.denote_call_collection hshape]
      match args with
      | [] => exact (Agrees.throw _).mono (fun _ => trivial) (Nat.zero_le _)
      | collection :: predicates =>
        refine ((eval_agrees (depth + 1) collection).bind fun _ =>
          (evalStringArgs_agrees (depth + 1) message predicates).bind fun _ => .ofExcept _).mono
          (fun h => ?_) (Nat.le_refl _)
        rw [RuleExpr.argsNesting] at h
        exact ⟨by omega, by omega, trivial⟩
  | .unsupported fragment reason =>
    rw [eval]
    exact (charged_agrees (.throw _)).mono (fun h => ⟨h, trivial⟩) (Nat.le_refl _)

theorem evalBooleanFold_agrees (depth : Nat) (allRequired : Bool) (args : List RuleExpr) :
    Agrees ruleBudget (depth + RuleExpr.argsNesting args ≤ context.depthLimit + 1)
      (RuleExpr.listNodes args) (evalBooleanFold context depth allRequired args)
      (do
        let decided ← RuleExpr.someDecides context (!allRequired) args
        return ModelValue.bool (if decided then !allRequired else allRequired)) := by
  match args with
  | [] => exact (Agrees.pure _).mono (fun _ => trivial) (Nat.le_refl _)
  | arg :: rest =>
    have hrest := evalBooleanFold_agrees depth allRequired rest
    have hdecided : ∀ decided : Bool,
        Agrees ruleBudget (depth + RuleExpr.argsNesting rest ≤ context.depthLimit + 1)
          (RuleExpr.listNodes rest)
          (if decided = allRequired then evalBooleanFold context depth allRequired rest
            else return ModelValue.bool decided)
          ((if decided = !allRequired then pure true
              else RuleExpr.someDecides context (!allRequired) rest) >>= fun decided =>
            pure (ModelValue.bool (if decided then !allRequired else allRequired))) := by
      intro decided
      by_cases h : decided = allRequired
      · rw [if_pos h, if_neg (by rw [h]; exact (Bool.eq_not_self _).mp)]
        exact hrest
      · rw [if_neg h, if_pos (Bool.eq_not_of_ne h), Bool.eq_not_of_ne h]
        exact (Agrees.pure _).mono (fun _ => trivial) (Nat.zero_le _)
    rw [evalBooleanFold, RuleExpr.someDecides, bind_assoc]
    simp only [bind_assoc]
    refine ((eval_agrees depth arg).bind fun value => .bind_ofExcept hdecided).mono (fun h => ?_)
      (Nat.le_refl _)
    rw [RuleExpr.argsNesting] at h
    omega

theorem evalStringArgs_agrees (depth : Nat) (message : String) (args : List RuleExpr) :
    Agrees ruleBudget (depth + RuleExpr.argsNesting args ≤ context.depthLimit + 1)
      (RuleExpr.listNodes args) (evalStringArgs context depth message args)
      (RuleExpr.denoteStrings context message args) := by
  match args with
  | [] => exact (Agrees.pure _).mono (fun _ => trivial) (Nat.le_refl _)
  | arg :: rest =>
    have hrest := evalStringArgs_agrees depth message rest
    rw [evalStringArgs, RuleExpr.denoteStrings]
    refine ((eval_agrees depth arg).bind fun value => (?_ : Agrees ruleBudget
      (depth + RuleExpr.argsNesting rest ≤ context.depthLimit + 1) _ _ _)).mono (fun h => ?_)
      (Nat.le_refl _)
    · cases value with
      | string text =>
        exact (hrest.bind fun texts => .pure _).mono (fun h => ⟨h, trivial⟩) (Nat.le_refl _)
      | _ => exact (Agrees.throw _).mono (fun _ => trivial) (Nat.zero_le _)
    · rw [RuleExpr.argsNesting] at h
      omega

end

end Agreement

/-! ## The evaluator without its fields -/

section Projection

variable {context : EvalContext}

open DefaultRuleEvaluator

theorem charge_projects (depth : Nat) (expr : RuleExpr) :
    Projects DefaultRuleEvaluator.instructions (charge context depth expr)
      (chargeInstruction context depth) := by
  intro self
  unfold charge chargeInstruction
  by_cases hover : self.instructions + 1 > maxRuleInstructions
  · rw [if_pos hover]
    simp only [failIf, if_pos hover]
    rfl
  · rw [if_neg hover]
    by_cases hdeep : depth > maxRuleDepth ∨ depth > context.maxObjectDepth
    · rw [if_pos hdeep]
      simp only [failIf, if_neg hover, Bool.or_eq_true, decide_eq_true_eq, if_pos hdeep]
      rfl
    · rw [if_neg hdeep]
      simp only [failIf, if_neg hover, Bool.or_eq_true, decide_eq_true_eq, if_neg hdeep]
      rfl

theorem charged_projects {depth : Nat} {expr : RuleExpr} {x : Evaluating ModelValue}
    {y : Eval ModelValue} (h : Projects DefaultRuleEvaluator.instructions x y) :
    Projects DefaultRuleEvaluator.instructions (charge context depth expr >>= fun _ => x)
      (chargeInstruction context depth >>= fun _ => y) :=
  (charge_projects depth expr).bind fun _ => h

mutual

theorem eval_projects (depth : Nat) (expr : RuleExpr) :
    Projects DefaultRuleEvaluator.instructions (eval context depth expr)
      (evalExpr context depth expr) := by
  match expr with
  | .bool value | .number value | .string value =>
    rw [eval, evalExpr]
    exact charged_projects (.pure _)
  | .null =>
    rw [eval, evalExpr]
    exact charged_projects (.pure _)
  | .property path =>
    rw [eval, evalExpr]
    exact charged_projects (.ofExcept _)
  | .unary op expr =>
    rw [eval, evalExpr]
    exact charged_projects ((eval_projects (depth + 1) expr).bind fun _ => .ofExcept _)
  | .binary op left right =>
    have hright := eval_projects (depth + 1) right
    rw [eval, evalExpr]
    refine charged_projects ((eval_projects (depth + 1) left).bind fun first => ?_)
    by_cases hlazy : op = .and ∨ op = .or
    · rw [if_pos hlazy, if_pos hlazy]
      refine (Projects.ofExcept _).bind fun decided => ?_
      by_cases h : decided = decide (op = .or)
      · rw [if_pos h, if_pos h]
        exact .pure _
      · rw [if_neg h, if_neg h]
        exact hright.bind fun _ => (Projects.ofExcept _).bind fun _ => .pure _
    · rw [if_neg hlazy, if_neg hlazy]
      exact hright.bind fun _ => .ofExcept _
  | .conditional condition whenTrue whenFalse =>
    have htrue := eval_projects (depth + 1) whenTrue
    have hfalse := eval_projects (depth + 1) whenFalse
    rw [eval, evalExpr]
    refine charged_projects ((eval_projects (depth + 1) condition).bind fun value =>
      (Projects.ofExcept _).bind fun decided => ?_)
    cases decided with
    | true => exact htrue
    | false => exact hfalse
  | .call function args =>
    unfold eval evalExpr
    refine charged_projects ?_
    cases hshape : function.shape with
    | one =>
      match args with
      | [] | _ :: _ :: _ => exact .throw _
      | [arg] => exact (eval_projects (depth + 1) arg).bind fun _ => .ofExcept _
    | two =>
      match args with
      | [] | [_] | _ :: _ :: _ :: _ => exact .throw _
      | [first, second] =>
        exact (eval_projects (depth + 1) first).bind fun _ =>
          (eval_projects (depth + 1) second).bind fun _ => .ofExcept _
    | fold allRequired => exact evalBooleanFold_projects (depth + 1) allRequired args
    | collection message =>
      match args with
      | [] => exact .throw _
      | collection :: predicates =>
        exact (eval_projects (depth + 1) collection).bind fun _ =>
          (evalStringArgs_projects (depth + 1) message predicates).bind fun _ => .ofExcept _
  | .unsupported fragment reason =>
    rw [eval, evalExpr]
    exact charged_projects (.throw _)

theorem evalBooleanFold_projects (depth : Nat) (allRequired : Bool) (args : List RuleExpr) :
    Projects DefaultRuleEvaluator.instructions (evalBooleanFold context depth allRequired args)
      (evalFold context depth allRequired args) := by
  match args with
  | [] => exact .pure _
  | arg :: rest =>
    have hrest := evalBooleanFold_projects depth allRequired rest
    rw [evalBooleanFold, evalFold]
    refine (eval_projects depth arg).bind fun value => (Projects.ofExcept _).bind fun decided => ?_
    by_cases h : decided = allRequired
    · rw [if_pos h, if_pos h]
      exact hrest
    · rw [if_neg h, if_neg h]
      exact .pure _

theorem evalStringArgs_projects (depth : Nat) (message : String) (args : List RuleExpr) :
    Projects DefaultRuleEvaluator.instructions (evalStringArgs context depth message args)
      (evalStrings context depth message args) := by
  match args with
  | [] => exact .pure _
  | arg :: rest =>
    have hrest := evalStringArgs_projects depth message rest
    rw [evalStringArgs, evalStrings]
    refine (eval_projects depth arg).bind fun value => ?_
    cases value with
    | string text => exact hrest.bind fun _ => .pure _
    | _ => exact .throw _

end

/-- The evaluator reports what `evaluate` reports, whatever it evaluated before. -/
theorem evaluate_outcome (context : EvalContext) (test : RuleExpr) (self : DefaultRuleEvaluator) :
    outcome (self.evaluate context test)
      = Pdfv.evaluate context test := by
  have hstart := @eval_projects context 0 test { instructions := 0, evaluated := [] }
  unfold DefaultRuleEvaluator.evaluate Pdfv.evaluate
  show _ = (evalExpr context 0 test 0 >>= _)
  rw [show evalExpr context 0 test 0 = _ from hstart]
  cases hrun : eval context 0 test { instructions := 0, evaluated := [] } with
  | error e self => rw [bind_error hrun]; rfl
  | ok value self =>
    rw [bind_ok hrun]
    cases hvalue : value.expectBool with
    | error e => simp only [outcome, Except.map, ok_bind, hvalue]; rfl
    | ok passed => simp only [outcome, Except.map, ok_bind, hvalue]; rfl

end Projection

/-! ## Errors of the operations -/

section Errors

/-- An error that neither budget of the evaluator reports. -/
def PdfvError.OutsideBudgets (e : PdfvError) : Prop :=
  ¬ e.StopsEvaluation

theorem typeMismatch_outside (message : String) : (typeMismatch message).OutsideBudgets := by
  rintro (h | h) <;> cases h

theorem budgetExceeded_outside {budget : String} (hinstructions : budget ≠ "instructions")
    (hdepth : budget ≠ "depth") : (budgetExceeded budget).OutsideBudgets := by
  rintro (h | h)
  · cases h
    exact hinstructions rfl
  · cases h
    exact hdepth rfl

/-- The errors of a computation are outside the budgets. -/
abbrev Unstopped {α : Type} (x : Except PdfvError α) : Prop :=
  FailsWith PdfvError.OutsideBudgets x

theorem ModelValue.expectBool_unstopped (value : ModelValue) : Unstopped value.expectBool := by
  cases value <;> first | exact .ok _ | exact .error (typeMismatch_outside _)

theorem ModelValue.expectNumber_unstopped (value : ModelValue) : Unstopped value.expectNumber := by
  cases value <;> first | exact .ok _ | exact .error (typeMismatch_outside _)

theorem ModelValue.collectionLen_unstopped (value : ModelValue) :
    Unstopped value.collectionLen := by
  cases value <;> first | exact .ok _ | exact .error (typeMismatch_outside _)

theorem ModelValue.expectIntegral_unstopped (value : ModelValue) :
    Unstopped value.expectIntegral := by
  unfold ModelValue.expectIntegral
  refine value.expectNumber_unstopped.bind fun number => ?_
  cases number with
  | finite x =>
    exact (FailsWith.failIf (typeMismatch_outside _)).bind fun _ =>
      (FailsWith.failIf (typeMismatch_outside _)).bind fun _ => .ok _
  | _ => exact .error (typeMismatch_outside _)

theorem ModelValue.expectShiftAmount_unstopped (value : ModelValue) :
    Unstopped value.expectShiftAmount := by
  refine value.expectIntegral_unstopped.bind fun shift => ?_
  split
  · exact .ok _
  · exact .error (typeMismatch_outside _)

theorem ModelValue.expectNonNegative_unstopped (value : ModelValue) :
    Unstopped value.expectNonNegative := by
  refine value.expectIntegral_unstopped.bind fun value => ?_
  split
  · exact .ok _
  · exact .error (typeMismatch_outside _)

theorem usizeToF64_unstopped (value : Nat) : Unstopped (usizeToF64 value) := by
  unfold usizeToF64
  split
  · exact .ok _
  · exact .error (budgetExceeded_outside (by decide) (by decide))

theorem i64ToF64_unstopped (value : Int) : Unstopped (i64ToF64 value) := by
  unfold i64ToF64
  split
  · exact .ok _
  · exact .error (budgetExceeded_outside (by decide) (by decide))

theorem BoundedText.new_unstopped (value : String) (maxBytes : Nat) :
    Unstopped (BoundedText.new value maxBytes) := by
  unfold BoundedText.new
  split
  · refine .error ?_
    rintro (h | h) <;> cases h
  · exact .ok _

theorem boundedParts_unstopped (maxArrayLen count : Nat) (parts : List (List Char)) :
    Unstopped (boundedParts maxArrayLen count parts) := by
  induction parts generalizing count with
  | nil => exact .ok _
  | cons part rest ih =>
    exact (FailsWith.failIf (budgetExceeded_outside (by decide) (by decide))).bind fun _ =>
      (BoundedText.new_unstopped _ _).bind fun _ => (ih _).bind fun _ => .ok _

theorem splitString_unstopped (value separator : BoundedText) (maxArrayLen : Nat) :
    Unstopped (splitString value separator maxArrayLen) :=
  (FailsWith.failIf (typeMismatch_outside _)).bind fun _ => boundedParts_unstopped _ _ _

theorem containsValue_unstopped (haystack needle : ModelValue) :
    Unstopped (containsValue haystack needle) := by
  unfold containsValue
  split <;> first | exact .ok _ | exact .error (typeMismatch_outside _)

theorem sliceValue_unstopped (collection : ModelValue) (start : Nat) :
    Unstopped (sliceValue collection start) := by
  cases collection with
  | list values => exact .ok _
  | string value => exact (BoundedText.new_unstopped _ _).bind fun _ => .ok _
  | _ => exact .error (typeMismatch_outside _)

theorem indexOfValue_unstopped (collection needle : ModelValue) :
    Unstopped (indexOfValue collection needle) := by
  unfold indexOfValue
  split <;> first | exact .ok _ | exact .error (typeMismatch_outside _)

theorem findIndexEquals_unstopped (collection : ModelValue) (predicates : List BoundedText) :
    Unstopped (findIndexEquals collection predicates) := by
  cases collection <;> first | exact .ok _ | exact .error (typeMismatch_outside _)

theorem runRegex_unstopped {α : Type} (run : String → String → Except String α)
    (pattern haystack : BoundedText) : Unstopped (runRegex run pattern haystack) := by
  refine (FailsWith.failIf (budgetExceeded_outside (by decide) (by decide))).bind fun _ => ?_
  cases run pattern.text haystack.text with
  | ok result => exact .ok _
  | error message =>
    refine .error ?_
    rintro (h | h) <;> cases h

theorem expectStrings_unstopped (first second : ModelValue) :
    Unstopped (expectStrings first second) := by
  unfold expectStrings
  split <;> first | exact .ok _ | exact .error (typeMismatch_outside _)

theorem applyUnary_unstopped (op : UnaryOp) (value : ModelValue) :
    Unstopped (applyUnary op value) := by
  unfold applyUnary
  split <;> first | exact .ok _ | exact .error (typeMismatch_outside _)

theorem applyBinary_unstopped (op : BinaryOp) (left right : ModelValue) :
    Unstopped (applyBinary op left right) := by
  have hleft := left.expectNumber_unstopped
  have hright := right.expectNumber_unstopped
  unfold applyBinary
  cases op with
  | eq | ne | and | or => exact .ok _
  | le | lt | ge | gt | add | sub | mul =>
    exact hleft.bind fun _ => hright.bind fun _ => .ok _
  | bitAnd =>
    exact left.expectIntegral_unstopped.bind fun _ => right.expectIntegral_unstopped.bind fun _ =>
      (i64ToF64_unstopped _).bind fun _ => .ok _
  | shr =>
    exact right.expectShiftAmount_unstopped.bind fun _ =>
      left.expectIntegral_unstopped.bind fun _ => (i64ToF64_unstopped _).bind fun _ => .ok _
  | div | rem =>
    exact hright.bind fun _ => (FailsWith.failIf (typeMismatch_outside _)).bind fun _ =>
      hleft.bind fun _ => .ok _

theorem filterKeeps_unstopped (regex : RegexCrate) (function : BuiltinFunction)
    (predicates : List BoundedText) (value : ModelValue) :
    Unstopped (filterKeeps regex function predicates value) := by
  unfold filterKeeps
  split
  case h_1 text =>
    split
    case h_1 | h_2 => exact .ok _
    case h_3 | h_4 =>
      split
      · exact (runRegex_unstopped _ _ _).bind fun _ => .ok _
      · exact .error (typeMismatch_outside _)
    case h_5 => exact .error (typeMismatch_outside _)
  case h_2 => exact .error (typeMismatch_outside _)

theorem filterValues_unstopped (regex : RegexCrate) (collection : ModelValue)
    (function : BuiltinFunction) (predicates : List BoundedText) :
    Unstopped (filterValues regex collection function predicates) := by
  cases collection with
  | list values =>
    exact (FailsWith.filterM (filterKeeps_unstopped regex function predicates) values).bind
      fun _ => .ok _
  | _ => exact .error (typeMismatch_outside _)

variable {context : EvalContext}

theorem applyUnaryCall_unstopped (function : BuiltinFunction) (value : ModelValue) :
    Unstopped (applyUnaryCall context function value) := by
  have hlength := value.collectionLen_unstopped
  unfold applyUnaryCall
  split
  case h_1 => split <;> first | exact .ok _ | exact .error (typeMismatch_outside _)
  case h_2 => exact hlength.bind fun _ => (usizeToF64_unstopped _).bind fun _ => .ok _
  case h_3 => exact hlength.bind fun _ => .ok _
  case h_4 => exact value.expectNumber_unstopped.bind fun _ => .ok _

theorem applyBinaryCall_unstopped (function : BuiltinFunction) (first second : ModelValue) :
    Unstopped (applyBinaryCall context function first second) := by
  have hstrings := expectStrings_unstopped first second
  unfold applyBinaryCall
  split
  case h_1 => exact (containsValue_unstopped _ _).bind fun _ => .ok _
  case h_2 => exact hstrings.bind fun _ => (runRegex_unstopped _ _ _).bind fun _ => .ok _
  case h_3 => exact hstrings.bind fun _ => (splitString_unstopped _ _ _).bind fun _ => .ok _
  case h_4 => exact second.expectNonNegative_unstopped.bind fun _ => sliceValue_unstopped _ _
  case h_5 =>
    exact (indexOfValue_unstopped _ _).bind fun _ => (i64ToF64_unstopped _).bind fun _ => .ok _
  case h_6 =>
    exact hstrings.bind fun _ => (runRegex_unstopped _ _ _).bind fun _ =>
      (i64ToF64_unstopped _).bind fun _ => .ok _

theorem applyCollectionCall_unstopped (function : BuiltinFunction) (collection : ModelValue)
    (predicates : List BoundedText) :
    Unstopped (applyCollectionCall context function collection predicates) := by
  unfold applyCollectionCall
  split
  · exact (findIndexEquals_unstopped _ _).bind fun _ => (i64ToF64_unstopped _).bind fun _ => .ok _
  · exact filterValues_unstopped _ _ _ _

mutual

theorem RuleExpr.denote_unstopped (hproperty : ∀ path, Unstopped (context.property path))
    (expr : RuleExpr) : Unstopped (expr.denote context) := by
  match expr with
  | .bool value | .number value | .string value => exact .ok _
  | .null => exact .ok _
  | .property path => exact hproperty path
  | .unary op expr =>
    exact (RuleExpr.denote_unstopped hproperty expr).bind fun _ => applyUnary_unstopped _ _
  | .binary op left right =>
    have hleft := RuleExpr.denote_unstopped hproperty left
    have hright := RuleExpr.denote_unstopped hproperty right
    have hsecond : Unstopped (do
        return ModelValue.bool (← (← right.denote context).expectBool)) :=
      hright.bind fun second => second.expectBool_unstopped.bind fun _ => .ok _
    by_cases hand : op = .and
    · subst hand
      refine hleft.bind fun first => first.expectBool_unstopped.bind fun decided => ?_
      cases decided with
      | true => exact hsecond
      | false => exact .ok _
    · by_cases hor : op = .or
      · subst hor
        refine hleft.bind fun first => first.expectBool_unstopped.bind fun decided => ?_
        cases decided with
        | true => exact .ok _
        | false => exact hsecond
      · rw [RuleExpr.denote_binary hand hor]
        exact hleft.bind fun _ => hright.bind fun _ => applyBinary_unstopped _ _ _
  | .conditional condition whenTrue whenFalse =>
    have htrue := RuleExpr.denote_unstopped hproperty whenTrue
    have hfalse := RuleExpr.denote_unstopped hproperty whenFalse
    refine (RuleExpr.denote_unstopped hproperty condition).bind fun value =>
      value.expectBool_unstopped.bind fun decided => ?_
    cases decided with
    | true => exact htrue
    | false => exact hfalse
  | .call function args =>
    cases hshape : function.shape with
    | one =>
      rw [RuleExpr.denote_call_one hshape]
      match args with
      | [] | _ :: _ :: _ => exact .error (typeMismatch_outside _)
      | [arg] =>
        exact (RuleExpr.denote_unstopped hproperty arg).bind fun _ => applyUnaryCall_unstopped _ _
    | two =>
      rw [RuleExpr.denote_call_two hshape]
      match args with
      | [] | [_] | _ :: _ :: _ :: _ => exact .error (typeMismatch_outside _)
      | [first, second] =>
        exact (RuleExpr.denote_unstopped hproperty first).bind fun _ =>
          (RuleExpr.denote_unstopped hproperty second).bind fun _ =>
            applyBinaryCall_unstopped _ _ _
    | fold allRequired =>
      rw [RuleExpr.denote_call_fold hshape]
      exact (RuleExpr.someDecides_unstopped hproperty _ args).bind fun _ => .ok _
    | collection message =>
      rw [RuleExpr.denote_call_collection hshape]
      match args with
      | [] => exact .error (typeMismatch_outside _)
      | collection :: predicates =>
        exact (RuleExpr.denote_unstopped hproperty collection).bind fun _ =>
          (RuleExpr.denoteStrings_unstopped hproperty message predicates).bind fun _ =>
            applyCollectionCall_unstopped _ _ _
  | .unsupported fragment reason =>
    refine .error ?_
    rintro (h | h) <;> cases h

theorem RuleExpr.someDecides_unstopped (hproperty : ∀ path, Unstopped (context.property path))
    (deciding : Bool) (args : List RuleExpr) :
    Unstopped (RuleExpr.someDecides context deciding args) := by
  match args with
  | [] => exact .ok _
  | arg :: rest =>
    have hrest := RuleExpr.someDecides_unstopped hproperty deciding rest
    refine (RuleExpr.denote_unstopped hproperty arg).bind fun value =>
      value.expectBool_unstopped.bind fun decided => ?_
    split
    · exact .ok _
    · exact hrest

theorem RuleExpr.denoteStrings_unstopped (hproperty : ∀ path, Unstopped (context.property path))
    (message : String) (args : List RuleExpr) :
    Unstopped (RuleExpr.denoteStrings context message args) := by
  match args with
  | [] => exact .ok _
  | arg :: rest =>
    have hrest := RuleExpr.denoteStrings_unstopped hproperty message rest
    refine (RuleExpr.denote_unstopped hproperty arg).bind fun value => ?_
    cases value with
    | string text => exact hrest.bind fun _ => .ok _
    | _ => exact .error (typeMismatch_outside _)

end

theorem RuleExpr.outcome_unstopped (hproperty : ∀ path, Unstopped (context.property path))
    (test : RuleExpr) : Unstopped (test.outcome context) :=
  (RuleExpr.denote_unstopped hproperty test).bind fun value =>
    value.expectBool_unstopped.bind fun _ => .ok _

end Errors

/-! ## Faithful evaluation -/

theorem evaluate_agrees (context : EvalContext) (test : RuleExpr) :
    Agrees ruleBudget (test.nesting ≤ context.depthLimit) test.nodes
      (do
        let value ← DefaultRuleEvaluator.eval context 0 test
        let passed ← value.expectBool
        return if passed then RuleOutcome.passed else .failed) (test.outcome context) := by
  refine ((eval_agrees 0 test).bind fun value => .bind_ofExcept fun passed => .pure _).mono
    (fun h => ⟨by omega, trivial⟩) (Nat.le_refl _)

/-- An evaluation gives the outcome of the meaning of the test or reports a spent budget, whatever
the evaluator evaluated before; it evaluates a bounded number of nodes; and a test with few enough
nodes that are not nested too deep spends neither budget. -/
theorem evaluate_faithful (context : EvalContext) (test : RuleExpr)
    (self : DefaultRuleEvaluator) :
    (outcome (self.evaluate context test) = test.outcome context ∨
      ∃ e, e.StopsEvaluation ∧ outcome (self.evaluate context test) = .error e) ∧
    (∀ other : DefaultRuleEvaluator, other.evaluate context test = self.evaluate context test) ∧
    (final (self.evaluate context test)).evaluated.length ≤ maxRuleInstructions ∧
    (test.nodes ≤ maxRuleInstructions → test.nesting ≤ context.depthLimit →
      outcome (self.evaluate context test) = test.outcome context ∧
      ((∀ path, Unstopped (context.property path)) →
        Unstopped (outcome (self.evaluate context test)))) := by
  obtain ⟨hkept, hrun⟩ := evaluate_agrees context test { instructions := 0, evaluated := [] }
    (Nat.zero_le _)
  refine ⟨hrun.imp (fun h => h.1) (fun h => h.1), fun _ => rfl,
    (Nat.le_min.mp hkept).2, fun hnodes hnesting => ?_⟩
  have hmeaning : outcome (self.evaluate context test) = test.outcome context := by
    obtain ⟨h, -⟩ | ⟨-, hover⟩ := hrun
    · exact h
    · have hspent : maxRuleInstructions < 0 + test.nodes := hover hnesting
      omega
  refine ⟨hmeaning, fun hproperty => ?_⟩
  rw [hmeaning]
  exact RuleExpr.outcome_unstopped hproperty test

/-- An object without properties. -/
def bareContext : EvalContext where
  property _ := .ok .null
  parseFacts := []
  maxObjectDepth := 1
  maxArrayLen := 8
  regex := ⟨fun _ _ => .ok false, fun _ _ => .ok none⟩

/-- A negation after an evaluation that spent its instructions. -/
theorem evaluate_faithful_negation :
    outcome ((⟨513, []⟩ : DefaultRuleEvaluator).evaluate bareContext (.unary .not (.bool false)))
        = .ok .passed ∧
      Unstopped (outcome
        ((⟨513, []⟩ : DefaultRuleEvaluator).evaluate bareContext (.unary .not (.bool false)))) := by
  obtain ⟨-, -, -, hfits⟩ :=
    evaluate_faithful bareContext (.unary .not (.bool false)) ⟨513, []⟩
  obtain ⟨hmeaning, hstopped⟩ := hfits (by decide) (by decide)
  exact ⟨hmeaning.trans rfl, hstopped fun _ => .ok _⟩

end Pdfv
