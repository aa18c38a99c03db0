import Pdfv.Profile.ExprParser
/-!
# Panics of expression import

The same productions over a reader that moves by characters (`charReader`): it never slices, and
breaks off at a literal at which the source's byte cursor goes wrong. The two readings agree up to
how they break off (`mapStop`), no reading runs out of fuel (`Settles`), and so the import returns
exactly when the reading by characters meets no such literal.
-/

namespace Pdfv

variable {π π' : Type}

/-! ## Reading by characters -/

/-- An ASCII character. -/
def isAsciiChar (c : Char) : Bool :=
  c.toNat < 128

/-- A part of an expression at which the byte cursor goes wrong: the text of a literal or of a
lambda that has other characters than ASCII, or an operand in a lambda that is one quotation
mark. -/
inductive LiteralPiece where
  | text (content : List Char)
  | operand (content : List Char)
deriving DecidableEq, Repr

/-- What a scanner passes over: everything up to the end of the literal, or up to the end of the
input. -/
def passedOver {σ : Type} (step : σ → Char → Option σ) : σ → List Char → List Char
  | _, [] => []
  | s, c :: rest =>
    match step s c with
    | none => []
    | some s => c :: passedOver step s rest

/-- A literal read by characters. -/
def scanChars {σ : Type} (step : σ → Char → Option σ) (unterminated : String) (s : σ)
    (rest : List Char) : Except (ParseStop LiteralPiece) (List Char × List Char) :=
  let content := passedOver step s rest
  if content.all isAsciiChar then
    match rest.drop content.length with
    | _ :: after => .ok (content, after)
    | [] => invalid unterminated
  else .error (.broken (.text content))

/-- A string literal of a lambda without its quotation marks. -/
def charOperand (input : List Char) : Except (ParseStop LiteralPiece) String :=
  if isQuotedText input = false then invalid "expected string literal"
  else if input.length < 2 then .error (.broken (.operand input))
  else .ok (String.ofList (input.drop 1).dropLast)

/-- Literals read by characters. -/
def charReader : LiteralReader LiteralPiece where
  scan := scanChars
  operand := charOperand

/-- An imported expression read by characters. -/
def readImportedExpr (input : String) : Except (ParseStop LiteralPiece) RuleExpr :=
  ExprParser.parseExpr charReader input

/-! ## Readings that break off differently -/

namespace ParseStop

/-- The same end, broken off with another mark. -/
def map (f : π → π') : ParseStop π → ParseStop π'
  | invalid reason => invalid reason
  | spent => spent
  | broken why => broken (f why)

end ParseStop

/-- The panic at a part. -/
def LiteralPiece.panic : LiteralPiece → SlicePanic
  | text _ => .charBoundary
  | operand _ => .reversedRange

section Map

variable (f : π → π')

/-- The same result, broken off with another mark. -/
def mapResult {α : Type} (x : Except (ParseStop π) α) : Except (ParseStop π') α :=
  x.mapError (ParseStop.map f)

@[simp] theorem mapResult_ok {α : Type} (a : α) : mapResult f (.ok a) = .ok a := rfl

@[simp] theorem mapResult_invalid {α : Type} (reason : String) :
    mapResult f (invalid reason : Except (ParseStop π) α) = invalid reason := rfl

@[simp] theorem mapResult_spent {α : Type} :
    mapResult f (.error .spent : Except (ParseStop π) α) = .error .spent := rfl

@[simp] theorem mapResult_pure {α : Type} (a : α) : mapResult f (pure a) = pure a := rfl

@[simp] theorem mapResult_bind {α β : Type} (x : Except (ParseStop π) α)
    (g : α → Except (ParseStop π) β) :
    mapResult f (x >>= g) = mapResult f x >>= fun a => mapResult f (g a) := by
  cases x with
  | error e => rfl
  | ok a => rfl

@[simp] theorem mapResult_map {α β : Type} (g : α → β) (x : Except (ParseStop π) α) :
    mapResult f (g <$> x) = g <$> mapResult f x := by
  cases x with
  | error e => rfl
  | ok a => rfl

/-- One reader is the other one with other marks. -/
structure LiteralReader.Marks (reader : LiteralReader π) (reader' : LiteralReader π') : Prop where
  scan : ∀ {σ : Type} (step : σ → Char → Option σ) (unterminated : String) (s : σ)
    (rest : List Char), reader'.scan step unterminated s rest
      = mapResult f (reader.scan step unterminated s rest)
  operand : ∀ input, reader'.operand input = mapResult f (reader.operand input)

end Map

theorem isAsciiChar_iff (c : Char) : isAsciiChar c = true ↔ c.utf8Size = 1 := by
  have hsize : c.utf8Size = 1 ↔ c.val ≤ 127 := Char.utf8Size_eq_one_iff
  rw [hsize, UInt32.le_iff_toNat_le]
  unfold isAsciiChar
  rw [decide_eq_true_eq]
  show c.val.toNat < 128 ↔ c.val.toNat ≤ 127
  omega

theorem scanBytes_eq {σ : Type} (step : σ → Char → Option σ) (unterminated : String) (s : σ)
    (rest : List Char) : scanBytes step unterminated s rest
      = mapResult LiteralPiece.panic (scanChars step unterminated s rest) := by
  induction rest generalizing s with
  | nil => rfl
  | cons c rest ih =>
    unfold scanBytes scanChars passedOver
    cases hstep : step s c with
    | none => rfl
    | some s' =>
      dsimp only
      by_cases hc : c.utf8Size = 1
      · have hascii := (isAsciiChar_iff c).mpr hc
        rw [if_pos hc, ih s', List.all_cons, hascii, Bool.true_and]
        unfold scanChars
        dsimp only
        split
        · rw [List.length_cons, List.drop_succ_cons]
          split <;> rfl
        · rfl
      · have hascii : isAsciiChar c = false := by
          rw [← Bool.not_eq_true]
          exact mt (isAsciiChar_iff c).mp hc
        rw [if_neg hc, List.all_cons, hascii, Bool.false_and]
        rfl

theorem parseStaticString_eq (input : List Char) :
    parseStaticString input = mapResult LiteralPiece.panic (charOperand input) := by
  unfold parseStaticString charOperand
  cases hquoted : isQuotedText input with
  | false => rfl
  | true =>
    have hne : input ≠ [] := by
      rintro rfl
      cases hquoted
    have hlen := List.length_pos_of_ne_nil hne
    by_cases hone : input.length = 1
    · rw [if_neg (by simp), if_pos hone, if_neg (by simp), if_pos (by omega)]
      rfl
    · rw [if_neg (by simp), if_neg hone, if_neg (by simp), if_neg (by omega)]
      rfl

/-- The source's reader is the reader by characters with panics for marks. -/
theorem byteReader_marks : charReader.Marks LiteralPiece.panic byteReader :=
  ⟨fun step unterminated s rest => scanBytes_eq step unterminated s rest,
    fun input => parseStaticString_eq input⟩

/-! ## The two readings agree -/

section Agree

variable (f : π → π')

@[simp] theorem mapResult_ite {α : Type} (p : Prop) [Decidable p] (x y : Except (ParseStop π) α) :
    mapResult f (if p then x else y) = if p then mapResult f x else mapResult f y :=
  apply_ite (mapResult f) p x y

@[simp] theorem mapResult_boundedLiteral (value : String) (maxBytes : Nat) (reason : String) :
    mapResult f (boundedLiteral value maxBytes reason) = boundedLiteral value maxBytes reason := by
  unfold boundedLiteral
  split <;> rfl

@[simp] theorem mapResult_propertyName (value : String) :
    mapResult f (propertyNameFromSource value) = propertyNameFromSource value := by
  unfold propertyNameFromSource
  split <;> rfl

@[simp] theorem mapResult_builtinFunction (value : String) :
    mapResult f (builtinFunction value) = builtinFunction value := by
  unfold builtinFunction
  simp only [mapResult_ite, mapResult_ok, mapResult_invalid]

@[simp] theorem mapResult_appendPropertyMember (expr : RuleExpr) (member : String) :
    mapResult f (appendPropertyMember expr member) = appendPropertyMember expr member := by
  unfold appendPropertyMember
  split
  · simp
  · rfl

@[simp] theorem mapResult_methodCallExpr (receiver : RuleExpr) (method : String)
    (args : List RuleExpr) :
    mapResult f (methodCallExpr receiver method args) = methodCallExpr receiver method args := by
  unfold methodCallExpr receiverFirstCall
  rcases args with _ | ⟨haystack, _ | ⟨second, rest⟩⟩
  all_goals simp only [mapResult_ite, mapResult_ok, mapResult_invalid]

theorem mapResult_mapM {α β : Type} {g : α → Except (ParseStop π) β}
    {g' : α → Except (ParseStop π') β} (h : ∀ a, mapResult f (g a) = g' a) (l : List α) :
    mapResult f (l.mapM g) = l.mapM g' := by
  induction l with
  | nil => rfl
  | cons a rest ih =>
    rw [List.mapM_cons, List.mapM_cons, mapResult_bind, h]
    simp only [mapResult_bind, mapResult_pure, ih]

@[simp] theorem mapResult_stringArgs (values : List String) :
    mapResult f (stringArgs values) = stringArgs values :=
  mapResult_mapM f (fun value => by simp) values

@[simp] theorem mapResult_patternArg (pattern : String) :
    mapResult f (LambdaPredicate.patternArg pattern) = LambdaPredicate.patternArg pattern := by
  unfold LambdaPredicate.patternArg
  simp

@[simp] theorem mapResult_intoFilterCallArgs (predicate : LambdaPredicate) :
    mapResult f predicate.intoFilterCallArgs = predicate.intoFilterCallArgs := by
  cases predicate <;> simp [LambdaPredicate.intoFilterCallArgs]

@[simp] theorem mapResult_intoFindIndexCallArgs (receiver : RuleExpr)
    (predicate : LambdaPredicate) :
    mapResult f (predicate.intoFindIndexCallArgs receiver)
      = predicate.intoFindIndexCallArgs receiver := by
  cases predicate <;> simp [LambdaPredicate.intoFindIndexCallArgs]

@[simp] theorem mapResult_regexLambdaPattern (expression parameter : List Char) (positive : Bool) :
    mapResult f (regexLambdaPattern expression parameter positive)
      = regexLambdaPattern expression parameter positive := by
  have hpattern : ∀ expression, mapResult f (regexPattern expression parameter)
      = regexPattern expression parameter := by
    intro expression
    unfold regexPattern
    split
    · split <;> rfl
    · rfl
  unfold regexLambdaPattern
  rw [mapResult_ite, hpattern]
  split
  · rfl
  · split
    · exact hpattern _
    · rfl

variable {f} {reader : LiteralReader π} {reader' : LiteralReader π'}
  (hmarks : reader.Marks f reader')
include hmarks

namespace LiteralReader

theorem comparisonValues_marks (parameter operator : List Char) (parts : List (List Char)) :
    reader'.comparisonValues parameter operator parts
      = mapResult f (reader.comparisonValues parameter operator parts) := by
  induction parts with
  | nil => rfl
  | cons part rest ih =>
    have hvalue : reader'.comparisonLambdaValue (trimChars part) parameter operator
        = mapResult f (reader.comparisonLambdaValue (trimChars part) parameter operator) := by
      unfold comparisonLambdaValue
      split
      · rw [hmarks.operand]
        simp
      · rfl
    unfold comparisonValues
    rw [hvalue, ih, mapResult_bind]
    congr 1
    funext value
    cases value with
    | none => rfl
    | some value => simp

theorem lambdaPredicate_marks (input : List Char) :
    reader'.lambdaPredicate input = mapResult f (reader.lambdaPredicate input) := by
  have hcomparison : ∀ expression parameter operator separator,
      reader'.comparisonLambdaValues expression parameter operator separator
        = mapResult f (reader.comparisonLambdaValues expression parameter operator separator) :=
    fun _ _ _ _ => comparisonValues_marks hmarks _ _ _
  unfold lambdaPredicate
  split
  · rfl
  · rw [mapResult_ite]
    congr 1
    unfold lambdaBody
    rw [mapResult_bind, mapResult_regexLambdaPattern]
    congr 1
    funext positive
    cases positive with
    | some pattern => rfl
    | none =>
      dsimp only
      rw [mapResult_bind, mapResult_regexLambdaPattern]
      congr 1
      funext negative
      cases negative with
      | some pattern => rfl
      | none =>
        dsimp only
        rw [mapResult_bind, hcomparison]
        congr 1
        funext values
        cases values with
        | some values => rfl
        | none =>
          dsimp only
          rw [mapResult_bind, hcomparison]
          congr 1
          funext values
          cases values <;> rfl

end LiteralReader

end Agree

namespace ExprParser

/-- The same parser, broken off with another mark. -/
def mapStop {α : Type} (f : π → π') (x : ExprParser π α) : ExprParser π' α := fun rest =>
  mapResult f (x rest)

section Primitives

variable (f : π → π') {α β : Type}

@[simp] theorem mapStop_pure (a : α) : mapStop f (pure a) = pure a := rfl

@[simp] theorem mapStop_get : mapStop f get = get := rfl

@[simp] theorem mapStop_set (rest : List Char) : mapStop f (set rest) = set rest := rfl

@[simp] theorem mapStop_bind (x : ExprParser π α) (g : α → ExprParser π β) :
    mapStop f (x >>= g) = mapStop f x >>= fun a => mapStop f (g a) := by
  funext rest
  exact mapResult_bind f (x rest) fun a => g a.1 a.2

@[simp] theorem mapStop_map (g : α → β) (x : ExprParser π α) :
    mapStop f (g <$> x) = g <$> mapStop f x := by
  rw [map_eq_pure_bind, map_eq_pure_bind, mapStop_bind]
  rfl

@[simp] theorem mapStop_ite (p : Prop) [Decidable p] (x y : ExprParser π α) :
    mapStop f (if p then x else y) = if p then mapStop f x else mapStop f y :=
  apply_ite (mapStop f) p x y

@[simp] theorem mapStop_lift (x : Except (ParseStop π) α) :
    mapStop f (lift x) = lift (mapResult f x) := by
  funext rest
  unfold mapStop lift
  cases x <;> rfl

@[simp] theorem mapStop_skipWs : mapStop f skipWs = skipWs := rfl

@[simp] theorem mapStop_consume (token : List Char) : mapStop f (consume token) = consume token := by
  unfold consume
  simp only [mapStop_bind, mapStop_ite, mapStop_skipWs, mapStop_get, mapStop_set, mapStop_pure]

@[simp] theorem mapStop_consumeWord (word : List Char) :
    mapStop f (consumeWord word) = consumeWord word := by
  unfold consumeWord
  simp only [mapStop_bind, mapStop_ite, mapStop_get, mapStop_set, mapStop_pure]

@[simp] theorem mapStop_expect (token : List Char) (reason : String) :
    mapStop f (expect token reason) = expect token reason := by
  unfold expect
  simp only [mapStop_bind, mapStop_ite, mapStop_consume, mapStop_pure, mapStop_lift,
    mapResult_invalid]

@[simp] theorem mapStop_consumeOp (ops : List (List Char × BinaryOp)) :
    mapStop f (consumeOp ops) = consumeOp ops := by
  induction ops with
  | nil => rfl
  | cons op ops ih =>
    unfold consumeOp
    simp only [mapStop_bind, mapStop_ite, mapStop_consume, mapStop_pure, ih]

@[simp] theorem mapStop_parseIdentifier : mapStop f parseIdentifier = parseIdentifier := by
  funext rest
  unfold mapStop parseIdentifier
  dsimp only
  rw [mapResult_ite]
  rfl

@[simp] theorem mapStop_parseExponent : mapStop f parseExponent = parseExponent := by
  funext rest
  unfold mapStop parseExponent
  cases rest with
  | nil => rfl
  | cons c rest =>
    dsimp only
    simp only [mapResult_ite, mapResult_invalid, mapResult_ok]

@[simp] theorem mapStop_parseNumber : mapStop f parseNumber = parseNumber := by
  unfold parseNumber
  simp only [mapStop_bind, mapStop_get, mapStop_set, mapStop_parseExponent]
  congr 1
  funext rest
  congr 1
  funext _
  congr 1
  funext exponent
  split
  · rfl
  · simp

theorem mapStop_repeatWhile {step : RuleExpr → ExprParser π (Option RuleExpr)}
    {step' : RuleExpr → ExprParser π' (Option RuleExpr)}
    (h : ∀ expr, mapStop f (step expr) = step' expr) (fuel : Nat) (expr : RuleExpr) :
    mapStop f (repeatWhile step fuel expr) = repeatWhile step' fuel expr := by
  induction fuel generalizing expr with
  | zero => rfl
  | succ fuel ih =>
    unfold repeatWhile
    rw [mapStop_bind, h]
    congr 1
    funext next
    cases next with
    | none => rfl
    | some expr => exact ih expr

theorem mapStop_chain {operand : ExprParser π RuleExpr} {operand' : ExprParser π' RuleExpr}
    {step : RuleExpr → ExprParser π (Option RuleExpr)}
    {step' : RuleExpr → ExprParser π' (Option RuleExpr)} (hoperand : mapStop f operand = operand')
    (hstep : ∀ expr, mapStop f (step expr) = step' expr) :
    mapStop f (chain operand step) = chain operand' step' := by
  unfold chain
  simp only [mapStop_bind, mapStop_get, hoperand, mapStop_repeatWhile f hstep]

theorem mapStop_leftAssociative (ops : List (List Char × BinaryOp))
    {operand : ExprParser π RuleExpr} {operand' : ExprParser π' RuleExpr}
    (h : mapStop f operand = operand') :
    mapStop f (leftAssociative ops operand) = leftAssociative ops operand' := by
  apply mapStop_chain f h
  intro expr
  rw [mapStop_bind, mapStop_consumeOp]
  congr 1
  funext op
  cases op with
  | none => rfl
  | some op => simp [h]

end Primitives

section Productions

variable {f : π → π'} {reader : LiteralReader π} {reader' : LiteralReader π'}
  (hmarks : reader.Marks f reader')
include hmarks

theorem mapStop_scan {σ : Type} (step : σ → Char → Option σ) (unterminated : String) (s : σ) :
    mapStop f (scan reader step unterminated s) = scan reader' step unterminated s := by
  funext rest
  exact (hmarks.scan step unterminated s rest).symm

theorem mapStop_parseString (quote : Char) :
    mapStop f (parseString reader quote) = parseString reader' quote := by
  unfold parseString
  simp [mapStop_scan hmarks]

theorem mapStop_parseRegexLiteral :
    mapStop f (parseRegexLiteral reader) = parseRegexLiteral reader' := by
  unfold parseRegexLiteral
  simp [mapStop_scan hmarks]

theorem mapStop_parseLambdaFilter (receiver : RuleExpr) :
    mapStop f (parseLambdaFilter reader receiver) = parseLambdaFilter reader' receiver := by
  unfold parseLambdaFilter takeCallContentAfterOpen
  simp [mapStop_scan hmarks, LiteralReader.lambdaPredicate_marks hmarks]

theorem mapStop_parseLambdaFindIndex (receiver : RuleExpr) :
    mapStop f (parseLambdaFindIndex reader receiver) = parseLambdaFindIndex reader' receiver := by
  unfold parseLambdaFindIndex takeCallContentAfterOpen
  simp [mapStop_scan hmarks, LiteralReader.lambdaPredicate_marks hmarks]

variable {conditional : ExprParser π RuleExpr} {conditional' : ExprParser π' RuleExpr}
  (hconditional : mapStop f conditional = conditional')
include hconditional

omit hmarks in
theorem mapStop_argsLoop (fuel : Nat) (args : List RuleExpr) :
    mapStop f (argsLoop conditional fuel args) = argsLoop conditional' fuel args := by
  induction fuel generalizing args with
  | zero => rfl
  | succ fuel ih =>
    unfold argsLoop
    simp [hconditional, ih]

omit hmarks in
theorem mapStop_parseCallArgsAfterOpen :
    mapStop f (parseCallArgsAfterOpen conditional) = parseCallArgsAfterOpen conditional' := by
  unfold parseCallArgsAfterOpen
  simp [mapStop_argsLoop hconditional]

theorem mapStop_parseMethodCall (receiver : RuleExpr) (method : String) :
    mapStop f (parseMethodCall reader conditional receiver method)
      = parseMethodCall reader' conditional' receiver method := by
  unfold parseMethodCall
  simp [mapStop_parseLambdaFilter hmarks, mapStop_parseLambdaFindIndex hmarks,
    mapStop_parseCallArgsAfterOpen hconditional]

omit hmarks hconditional in
theorem mapStop_membersLoop (fuel : Nat) (parts : PropertyPath) :
    mapStop f (membersLoop fuel parts) = membersLoop fuel parts := by
  induction fuel generalizing parts with
  | zero => rfl
  | succ fuel ih =>
    unfold membersLoop
    simp [ih]

omit hmarks in
theorem mapStop_parseProperty :
    mapStop f (parseProperty conditional) = parseProperty conditional' := by
  unfold parseProperty
  simp [mapStop_parseCallArgsAfterOpen hconditional, mapStop_membersLoop]

theorem mapStop_parsePrimary :
    mapStop f (parsePrimary reader conditional) = parsePrimary reader' conditional' := by
  unfold parsePrimary
  simp only [mapStop_bind, mapStop_ite, mapStop_consume, mapStop_consumeWord, mapStop_get,
    mapStop_expect, mapStop_pure, hconditional, mapStop_parseRegexLiteral hmarks]
  congr 1
  funext opened
  congr 2
  funext slash
  congr 2
  funext rest
  cases rest with
  | nil => exact mapStop_parseProperty hconditional
  | cons c after =>
    simp [mapStop_parseString hmarks, mapStop_parseProperty hconditional]

theorem mapStop_postfixStep (expr : RuleExpr) :
    mapStop f (postfixStep reader conditional expr) = postfixStep reader' conditional' expr := by
  unfold postfixStep
  simp [mapStop_parseMethodCall hmarks hconditional]

theorem mapStop_parseUnary (fuel : Nat) :
    mapStop f (parseUnary reader conditional fuel) = parseUnary reader' conditional' fuel := by
  induction fuel with
  | zero => rfl
  | succ fuel ih =>
    have hpostfix : mapStop f (parsePostfix reader conditional)
        = parsePostfix reader' conditional' :=
      mapStop_chain f (mapStop_parsePrimary hmarks hconditional)
        (mapStop_postfixStep hmarks hconditional)
    unfold parseUnary
    simp [ih, hpostfix]

theorem mapStop_parseShift :
    mapStop f (parseShift reader conditional) = parseShift reader' conditional' := by
  apply mapStop_leftAssociative
  apply mapStop_leftAssociative
  apply mapStop_leftAssociative
  simp [mapStop_parseUnary hmarks hconditional]

theorem mapStop_parseBitwiseAnd :
    mapStop f (parseBitwiseAnd reader conditional) = parseBitwiseAnd reader' conditional' := by
  apply mapStop_chain f (mapStop_parseShift hmarks hconditional)
  intro expr
  simp [mapStop_parseShift hmarks hconditional]

theorem mapStop_parseComparison :
    mapStop f (parseComparison reader conditional) = parseComparison reader' conditional' := by
  unfold parseComparison
  simp only [mapStop_bind, mapStop_consumeOp, mapStop_parseBitwiseAnd hmarks hconditional]
  congr 1
  funext left
  congr 1
  funext op
  cases op with
  | none => rfl
  | some op => simp [mapStop_parseBitwiseAnd hmarks hconditional]

theorem mapStop_parseOr :
    mapStop f (parseOr reader conditional) = parseOr reader' conditional' := by
  apply mapStop_leftAssociative
  apply mapStop_leftAssociative
  exact mapStop_parseComparison hmarks hconditional

omit hconditional in
theorem mapStop_parseConditional (fuel : Nat) :
    mapStop f (parseConditional reader fuel) = parseConditional reader' fuel := by
  induction fuel with
  | zero => rfl
  | succ fuel ih =>
    unfold parseConditional
    simp [ih, mapStop_parseOr hmarks ih]

omit hconditional in
/-- The two readings agree up to how they break off. -/
theorem parseExpr_marks (input : String) :
    parseExpr reader' input = mapResult f (parseExpr reader input) := by
  unfold parseExpr
  rw [← mapStop_parseConditional hmarks, mapResult_bind]
  congr 1
  funext ⟨expr, rest⟩
  dsimp only
  rw [mapResult_ite]
  congr 1
  symm
  apply mapResult_ite

end Productions

end ExprParser

/-! ## The fuel suffices -/

/-- Not out of fuel. -/
def NotSpent {α : Type} (x : Except (ParseStop π) α) : Prop :=
  x ≠ .error .spent

section NotSpent

variable {α β : Type}

@[simp] theorem notSpent_ok (a : α) : NotSpent (.ok a : Except (ParseStop π) α) := by
  intro h
  cases h

@[simp] theorem notSpent_pure (a : α) : NotSpent (pure a : Except (ParseStop π) α) :=
  notSpent_ok a

@[simp] theorem notSpent_invalid (reason : String) :
    NotSpent (invalid reason : Except (ParseStop π) α) := by
  intro h
  cases h

@[simp] theorem notSpent_broken (why : π) : NotSpent (.error (.broken why) : Except _ α) := by
  intro h
  cases h

theorem NotSpent.bind {x : Except (ParseStop π) α} {g : α → Except (ParseStop π) β}
    (hx : NotSpent x) (hg : ∀ a, NotSpent (g a)) : NotSpent (x >>= g) := by
  cases x with
  | error e =>
    intro h
    apply hx
    cases e with
    | spent => rfl
    | invalid reason => cases h
    | broken why => cases h
  | ok a => exact hg a

theorem NotSpent.map {x : Except (ParseStop π) α} (hx : NotSpent x) (g : α → β) :
    NotSpent (g <$> x) := by
  rw [map_eq_pure_bind]
  exact hx.bind fun a => notSpent_pure (g a)

theorem NotSpent.ite {p : Prop} [Decidable p] {x y : Except (ParseStop π) α} (hx : NotSpent x)
    (hy : NotSpent y) : NotSpent (if p then x else y) := by
  split
  · exact hx
  · exact hy

theorem boundedLiteral_notSpent (value : String) (maxBytes : Nat) (reason : String) :
    NotSpent (boundedLiteral value maxBytes reason : Except (ParseStop π) BoundedText) := by
  unfold boundedLiteral
  split
  · exact notSpent_ok _
  · exact notSpent_invalid _

theorem propertyName_notSpent (value : String) :
    NotSpent (propertyNameFromSource value : Except (ParseStop π) PropertyName) := by
  unfold propertyNameFromSource
  split
  · exact notSpent_ok _
  · exact notSpent_invalid _

theorem builtinFunction_notSpent (value : String) :
    NotSpent (builtinFunction value : Except (ParseStop π) BuiltinFunction) := by
  unfold builtinFunction
  repeat' apply NotSpent.ite
  all_goals first
    | exact notSpent_ok _
    | exact notSpent_invalid _

theorem appendPropertyMember_notSpent (expr : RuleExpr) (member : String) :
    NotSpent (appendPropertyMember expr member : Except (ParseStop π) RuleExpr) := by
  unfold appendPropertyMember
  split
  · exact (propertyName_notSpent member).bind fun _ => notSpent_pure _
  · exact notSpent_invalid _

theorem methodCallExpr_notSpent (receiver : RuleExpr) (method : String) (args : List RuleExpr) :
    NotSpent (methodCallExpr receiver method args : Except (ParseStop π) RuleExpr) := by
  unfold methodCallExpr receiverFirstCall
  rcases args with _ | ⟨haystack, _ | ⟨second, rest⟩⟩
  all_goals
    dsimp only
    repeat' apply NotSpent.ite
  all_goals first
    | exact notSpent_ok _
    | exact notSpent_invalid _

theorem stringArgs_notSpent (values : List String) :
    NotSpent (stringArgs values : Except (ParseStop π) (List RuleExpr)) := by
  unfold stringArgs
  induction values with
  | nil => exact notSpent_ok _
  | cons value rest ih =>
    rw [List.mapM_cons]
    apply NotSpent.bind
    · exact (boundedLiteral_notSpent _ _ _).bind fun _ => notSpent_pure _
    · intro _
      exact ih.bind fun _ => notSpent_pure _

theorem intoFilterCallArgs_notSpent (predicate : LambdaPredicate) :
    NotSpent (predicate.intoFilterCallArgs
      : Except (ParseStop π) (BuiltinFunction × List RuleExpr)) := by
  have hpattern : ∀ pattern, NotSpent
      (LambdaPredicate.patternArg pattern : Except (ParseStop π) (List RuleExpr)) :=
    fun _ => (boundedLiteral_notSpent _ _ _).bind fun _ => notSpent_pure _
  cases predicate with
  | eqAny values => exact (stringArgs_notSpent values).bind fun _ => notSpent_pure _
  | neAll values => exact (stringArgs_notSpent values).bind fun _ => notSpent_pure _
  | regexMatches pattern => exact (hpattern pattern).bind fun _ => notSpent_pure _
  | regexNotMatches pattern => exact (hpattern pattern).bind fun _ => notSpent_pure _

theorem intoFindIndexCallArgs_notSpent (receiver : RuleExpr) (predicate : LambdaPredicate) :
    NotSpent (predicate.intoFindIndexCallArgs receiver
      : Except (ParseStop π) (List RuleExpr)) := by
  cases predicate with
  | eqAny values => exact (stringArgs_notSpent values).bind fun _ => notSpent_pure _
  | neAll values => exact notSpent_invalid _
  | regexMatches pattern => exact notSpent_invalid _
  | regexNotMatches pattern => exact notSpent_invalid _

theorem regexLambdaPattern_notSpent (expression parameter : List Char) (positive : Bool) :
    NotSpent (regexLambdaPattern expression parameter positive
      : Except (ParseStop π) (Option String)) := by
  have hpattern : ∀ expression, NotSpent
      (regexPattern expression parameter : Except (ParseStop π) (Option String)) := by
    intro expression
    unfold regexPattern
    split
    · split
      · exact notSpent_ok _
      · exact notSpent_invalid _
    · exact notSpent_ok _
  unfold regexLambdaPattern
  split
  · exact hpattern _
  · split
    · exact hpattern _
    · exact notSpent_ok _

theorem lambdaPredicate_notSpent {reader : LiteralReader π}
    (hreader : ∀ input, NotSpent (reader.operand input)) (input : List Char) :
    NotSpent (reader.lambdaPredicate input) := by
  have hvalues : ∀ parameter operator parts,
      NotSpent (reader.comparisonValues parameter operator parts) := by
    intro parameter operator parts
    induction parts with
    | nil => exact notSpent_ok _
    | cons part rest ih =>
      unfold LiteralReader.comparisonValues LiteralReader.comparisonLambdaValue
      apply NotSpent.bind
      · split
        · exact NotSpent.ite (notSpent_ok _) ((hreader _).bind fun _ => notSpent_pure _)
        · exact notSpent_ok _
      · intro value
        cases value with
        | none => exact notSpent_pure _
        | some value => exact ih.bind fun _ => notSpent_pure _
  unfold LiteralReader.lambdaPredicate
  split
  · exact notSpent_invalid _
  · apply NotSpent.ite
    · exact notSpent_invalid _
    · unfold LiteralReader.lambdaBody
      apply (regexLambdaPattern_notSpent _ _ _).bind
      intro positive
      cases positive with
      | some pattern => exact notSpent_pure _
      | none =>
        apply (regexLambdaPattern_notSpent _ _ _).bind
        intro negative
        cases negative with
        | some pattern => exact notSpent_pure _
        | none =>
          apply (hvalues _ _ _).bind
          intro values
          cases values with
          | some values => exact notSpent_pure _
          | none =>
            apply (hvalues _ _ _).bind
            intro values
            cases values with
            | some values => exact notSpent_pure _
            | none => exact notSpent_invalid _

end NotSpent

/-- A result, if any, satisfies `Q`, and there is fuel. -/
def Settles {α : Type} (r : Except (ParseStop π) (α × List Char)) (Q : α → List Char → Prop) : Prop :=
  NotSpent r ∧ ∀ a rest, r = .ok (a, rest) → Q a rest

theorem Settles.ok {α : Type} {a : α} {rest : List Char} {Q : α → List Char → Prop} (h : Q a rest) :
    Settles (.ok (a, rest) : Except (ParseStop π) _) Q := by
  refine ⟨notSpent_ok _, ?_⟩
  intro a' rest' ha
  cases ha
  exact h

theorem Settles.invalid {α : Type} (reason : String) (Q : α → List Char → Prop) :
    Settles (Pdfv.invalid reason : Except (ParseStop π) _) Q := by
  refine ⟨notSpent_invalid _, ?_⟩
  intro a rest ha
  cases ha

theorem Settles.ite {α : Type} {p : Prop} [Decidable p] {x y : Except (ParseStop π) (α × List Char)}
    {Q : α → List Char → Prop} (hx : p → Settles x Q) (hy : ¬ p → Settles y Q) :
    Settles (if p then x else y) Q := by
  by_cases h : p
  · rw [if_pos h]
    exact hx h
  · rw [if_neg h]
    exact hy h

section Cursor

variable {α β : Type} {Q : α → List Char → Prop} {Q' : β → List Char → Prop} {rest : List Char}

theorem Settles.bind {x : ExprParser π α} {g : α → ExprParser π β} (hx : Settles (x rest) Q)
    (hg : ∀ a rest', Q a rest' → Settles (g a rest') Q') : Settles ((x >>= g) rest) Q' := by
  obtain ⟨hspent, hok⟩ := hx
  show Settles (x rest >>= fun a => g a.1 a.2) _
  cases hresult : x rest with
  | error e =>
    rw [hresult] at hspent
    refine ⟨?_, ?_⟩
    · intro h
      rw [Fallible.error_bind] at h
      apply hspent
      cases h
      rfl
    · intro b rest' h
      cases h
  | ok a => exact hg a.1 a.2 (hok a.1 a.2 hresult)

theorem Settles.get {g : List Char → ExprParser π β} (h : Settles (g rest rest) Q') :
    Settles ((MonadState.get >>= g) rest) Q' := h

theorem Settles.set {g : PUnit → ExprParser π β} {rest' : List Char} (h : Settles (g ⟨⟩ rest') Q') :
    Settles ((MonadStateOf.set rest' >>= g) rest) Q' := h

end Cursor

namespace ExprParser

variable {α β : Type}

/-- On fewer than `n` characters the parser has fuel, and a result comes with at least `cost` of it
characters less. -/
def Shrinks (n : Nat) (x : ExprParser π α) (cost : α → Nat) : Prop :=
  ∀ rest, rest.length < n → Settles (x rest) fun a rest' => rest'.length + cost a ≤ rest.length

/-- No more characters are left than before. -/
abbrev Runs (n : Nat) (x : ExprParser π α) : Prop :=
  Shrinks n x fun _ => 0

theorem Shrinks.mono {n n' : Nat} {x : ExprParser π α} {cost cost' : α → Nat}
    (h : Shrinks n x cost) (hn : n' ≤ n) (hcost : ∀ a, cost' a ≤ cost a) :
    Shrinks n' x cost' := by
  intro rest hrest
  obtain ⟨hspent, hok⟩ := h rest (by omega)
  refine ⟨hspent, ?_⟩
  intro a rest' ha
  have hlen := hok a rest' ha
  have hle := hcost a
  omega

theorem Shrinks.bind {n : Nat} {x : ExprParser π α} {g : α → ExprParser π β} {cost : α → Nat}
    {cost' : β → Nat} (hx : Shrinks n x cost)
    (hg : ∀ a, Shrinks (n - cost a) (g a) fun b => cost' b - cost a) :
    Shrinks n (x >>= g) cost' := by
  intro rest hrest
  apply Settles.bind (hx rest hrest)
  intro a rest' hlen
  obtain ⟨hspent, hok⟩ := hg a rest' (by omega)
  refine ⟨hspent, ?_⟩
  intro b rest'' h
  have hlen' := hok b rest'' h
  dsimp only at hlen'
  omega

theorem Shrinks.pure {n : Nat} {a : α} {cost : α → Nat} (h : cost a = 0) :
    Shrinks n (pure a : ExprParser π α) cost := by
  intro rest hrest
  apply Settles.ok
  omega

theorem Runs.pure (n : Nat) (a : α) : Runs n (Pure.pure a : ExprParser π α) :=
  Shrinks.pure rfl

theorem Runs.map {n : Nat} {x : ExprParser π α} (h : Runs n x) (g : α → β) : Runs n (g <$> x) := by
  rw [map_eq_pure_bind]
  exact Shrinks.bind h fun _ => Shrinks.pure rfl

theorem Shrinks.ite {n : Nat} {p : Prop} [Decidable p] {x y : ExprParser π α} {cost : α → Nat}
    (hx : p → Shrinks n x cost) (hy : ¬ p → Shrinks n y cost) :
    Shrinks n (if p then x else y) cost := by
  by_cases h : p
  · rw [if_pos h]
    exact hx h
  · rw [if_neg h]
    exact hy h

theorem Runs.lift {n : Nat} {x : Except (ParseStop π) α} (h : NotSpent x) : Runs n (lift x) := by
  intro rest _
  unfold ExprParser.lift
  cases x with
  | error e =>
    refine ⟨?_, ?_⟩
    · intro hspent
      apply h
      cases e with
      | spent => rfl
      | invalid reason => cases hspent
      | broken why => cases hspent
    · intro a rest' ha
      cases ha
  | ok a =>
    exact Settles.ok (le_refl _)

/-- A loop whose fuel is one more than what is left. -/
theorem Shrinks.sized {n : Nat} (loop : Nat → ExprParser π α) {cost : α → Nat}
    (h : ∀ m ≤ n, Shrinks m (loop m) cost) :
    Shrinks n (do
      let rest ← get
      loop (rest.length + 1)) cost := by
  intro rest hrest
  exact h (rest.length + 1) (by omega) rest (by omega)

theorem skipWs_runs (n : Nat) : Runs n (skipWs : ExprParser π Unit) := by
  intro rest _
  exact Settles.ok (List.dropWhile_suffix _).length_le

/-- A token was taken. -/
def taken (consumed : Bool) : Nat :=
  if consumed then 1 else 0

theorem consumeWord_shrinks {word : List Char} (hne : word ≠ []) (n : Nat) :
    Shrinks n (consumeWord word : ExprParser π Bool) taken := by
  intro rest _
  have hlen := List.length_pos_of_ne_nil hne
  show Settles ((if word.isPrefixOf rest = true then _ else _ : ExprParser π Bool) rest) _
  by_cases hword : word.isPrefixOf rest = true
  · rw [if_pos hword]
    apply Settles.ok
    have hle := (List.isPrefixOf_iff_prefix.mp hword).length_le
    simp only [taken, if_true, List.length_drop]
    omega
  · rw [if_neg hword]
    exact Settles.ok (le_refl _)

theorem consume_shrinks {token : List Char} (hne : token ≠ []) (n : Nat) :
    Shrinks n (consume token : ExprParser π Bool) taken :=
  Shrinks.bind (skipWs_runs n) fun _ => consumeWord_shrinks hne n

theorem expect_shrinks {token : List Char} (hne : token ≠ []) (reason : String) (n : Nat) :
    Shrinks n (expect token reason : ExprParser π Unit) fun _ => 1 := by
  apply Shrinks.bind (consume_shrinks hne n)
  intro consumed
  cases consumed with
  | true => exact Shrinks.pure rfl
  | false =>
    intro rest _
    exact Settles.invalid reason _

/-- Every token of the operators has a character. -/
def TokensNonempty (ops : List (List Char × BinaryOp)) : Prop :=
  ∀ op ∈ ops, op.1 ≠ []

/-- An operator was taken. -/
def joined {γ : Type} (found : Option γ) : Nat :=
  taken found.isSome

theorem consumeOp_shrinks {ops : List (List Char × BinaryOp)} (h : TokensNonempty ops) (n : Nat) :
    Shrinks n (consumeOp ops : ExprParser π (Option BinaryOp)) joined := by
  induction ops with
  | nil => exact Shrinks.pure rfl
  | cons op ops ih =>
    unfold consumeOp
    apply Shrinks.bind (consume_shrinks (h op List.mem_cons_self) n)
    intro consumed
    cases consumed with
    | true => exact Shrinks.pure rfl
    | false => exact ih fun op' hop' => h op' (List.mem_cons_of_mem _ hop')

theorem parseIdentifier_runs (n : Nat) : Runs n (parseIdentifier : ExprParser π String) := by
  intro rest _
  apply Settles.ite
  · intro _
    exact Settles.invalid _ _
  · intro _
    apply Settles.ok
    rw [List.length_drop]
    exact Nat.sub_le _ _

theorem parseExponent_runs (n : Nat) : Runs n (parseExponent : ExprParser π Int) := by
  intro rest _
  unfold parseExponent
  split
  · apply Settles.ite
    · intro _
      apply Settles.ite
      · intro _
        exact Settles.invalid _ _
      · intro _
        apply Settles.ok
        rw [List.length_drop, List.length_cons]
        dsimp only
        split
        · rw [List.length_drop]
          omega
        · omega
    · intro _
      exact Settles.ok (le_refl _)
  · exact Settles.ok (le_refl _)

/-- Moving the cursor to a text that is not longer. -/
theorem Runs.set {n : Nat} {x : ExprParser π α} (h : Runs n x) {rest rest' : List Char}
    (hrest : rest.length < n) (hle : rest'.length ≤ rest.length) :
    Settles (x rest') fun _ rest'' => rest''.length ≤ rest.length := by
  obtain ⟨hspent, hok⟩ := h rest' (by omega)
  refine ⟨hspent, ?_⟩
  intro a rest'' ha
  have hlen := hok a rest'' ha
  omega

/-- What `parseNumber` reads after the mantissa. -/
def numberTail (negative : Bool) (mantissa : List Char) : ExprParser π RuleExpr := do
  let exponent ← parseExponent
  match parseNumberText negative mantissa exponent with
  | some value => Pure.pure (.number value)
  | none => lift (invalid "invalid number literal")

theorem numberTail_runs (n : Nat) (negative : Bool) (mantissa : List Char) :
    Runs n (numberTail negative mantissa : ExprParser π RuleExpr) := by
  apply Shrinks.bind (parseExponent_runs n)
  intro exponent
  split
  · exact Runs.pure n _
  · exact Runs.lift (notSpent_invalid _)

theorem parseNumber_runs (n : Nat) : Runs n (parseNumber : ExprParser π RuleExpr) := by
  intro rest hrest
  apply Runs.set (numberTail_runs n _ _) hrest
  rw [List.length_drop]
  split
  · rw [List.length_drop]
    omega
  · omega

theorem repeatWhile_runs {n : Nat} {step : RuleExpr → ExprParser π (Option RuleExpr)}
    (hstep : ∀ expr, Shrinks n (step expr) joined) {m : Nat} (hm : m ≤ n) (expr : RuleExpr) :
    Runs m (repeatWhile step m expr) := by
  induction m generalizing expr with
  | zero =>
    intro rest hrest
    omega
  | succ m ih =>
    apply Shrinks.bind ((hstep expr).mono hm fun _ => le_refl _)
    intro next
    cases next with
    | none => exact Runs.pure _ _
    | some expr => exact ih (by omega) expr

theorem chain_runs {n : Nat} {operand : ExprParser π RuleExpr}
    {step : RuleExpr → ExprParser π (Option RuleExpr)} (hoperand : Runs n operand)
    (hstep : ∀ expr, Shrinks n (step expr) joined) : Runs n (chain operand step) := by
  apply Shrinks.bind hoperand
  intro expr
  apply Shrinks.sized fun m => repeatWhile step m expr
  intro m hm
  exact repeatWhile_runs hstep hm expr

theorem leftAssociative_runs {n : Nat} {ops : List (List Char × BinaryOp)}
    (hops : TokensNonempty ops) {operand : ExprParser π RuleExpr} (hoperand : Runs n operand) :
    Runs n (leftAssociative ops operand) := by
  apply chain_runs hoperand
  intro expr
  apply Shrinks.bind (consumeOp_shrinks hops n)
  intro op
  cases op with
  | none => exact Shrinks.pure rfl
  | some op =>
    apply Shrinks.bind (hoperand.mono (Nat.sub_le _ _) fun _ => le_refl _)
    intro right
    exact Shrinks.pure rfl

/-- The scanners leave no more than they found, and neither they nor operands take fuel. -/
structure Sound (reader : LiteralReader π) : Prop where
  scan : ∀ {σ : Type} (step : σ → Char → Option σ) (unterminated : String) (s : σ)
    (rest : List Char), Settles (reader.scan step unterminated s rest)
      fun _ rest' => rest'.length ≤ rest.length
  operand : ∀ input, NotSpent (reader.operand input)

section Productions

variable {reader : LiteralReader π} (hreader : Sound reader) {n : Nat}
  {conditional : ExprParser π RuleExpr} (hconditional : Runs n conditional)

section Literals

include hreader

theorem scan_runs {σ : Type} (n : Nat) (step : σ → Char → Option σ) (unterminated : String)
    (s : σ) : Runs n (scan reader step unterminated s) :=
  fun rest _ => hreader.scan step unterminated s rest

theorem parseString_runs (n : Nat) (quote : Char) : Runs n (parseString reader quote) := by
  apply Shrinks.bind (scan_runs hreader n _ _ _)
  intro value
  apply Shrinks.bind (Runs.lift (boundedLiteral_notSpent _ _ _))
  intro text
  exact Runs.pure _ _

theorem parseRegexLiteral_runs (n : Nat) : Runs n (parseRegexLiteral reader) := by
  apply Shrinks.bind (scan_runs hreader n _ _ _)
  intro value
  apply Shrinks.bind (Runs.lift (boundedLiteral_notSpent _ _ _))
  intro text
  exact Runs.pure _ _

theorem parseLambdaFilter_runs (n : Nat) (receiver : RuleExpr) :
    Runs n (parseLambdaFilter reader receiver) := by
  apply Shrinks.bind (scan_runs hreader n _ _ _)
  intro content
  apply Shrinks.bind (Runs.lift (lambdaPredicate_notSpent hreader.operand content))
  intro predicate
  apply Shrinks.bind (Runs.lift (intoFilterCallArgs_notSpent predicate))
  intro call
  exact Runs.pure _ _

theorem parseLambdaFindIndex_runs (n : Nat) (receiver : RuleExpr) :
    Runs n (parseLambdaFindIndex reader receiver) := by
  apply Shrinks.bind (scan_runs hreader n _ _ _)
  intro content
  apply Shrinks.bind (Runs.lift (lambdaPredicate_notSpent hreader.operand content))
  intro predicate
  apply Shrinks.bind (Runs.lift (intoFindIndexCallArgs_notSpent receiver predicate))
  intro args
  exact Runs.pure _ _

end Literals

theorem membersLoop_runs (m : Nat) (parts : PropertyPath) :
    Runs m (membersLoop m parts : ExprParser π PropertyPath) := by
  induction m generalizing parts with
  | zero =>
    intro rest hrest
    omega
  | succ m ih =>
    -- a method member is given back with its point, so the cursor is followed by hand
    intro rest hrest
    apply Settles.bind (consume_shrinks (by simp) (m + 1) rest hrest)
    intro point memberStart hstart
    cases point with
    | false => exact Settles.ok hstart
    | true =>
      have hpoint : memberStart.length + 1 ≤ rest.length := hstart
      apply Settles.get
      apply Settles.bind (parseIdentifier_runs (m + 1) memberStart (by omega))
      intro member afterMember hafter
      apply Settles.get
      apply Settles.bind (skipWs_runs (m + 1) afterMember (by omega))
      intro _ rest' _
      apply Settles.get
      by_cases hcall : rest'.head? = some '('
      · rw [if_pos hcall]
        exact Settles.ok hpoint
      · rw [if_neg hcall]
        have htail : Runs m (do
            let name ← (ExprParser.lift (propertyNameFromSource member) : ExprParser π PropertyName)
            membersLoop m (parts ++ [name])) := by
          apply Shrinks.bind (Runs.lift (propertyName_notSpent member))
          intro name
          exact ih _
        apply Settles.set
        obtain ⟨hspent, hok⟩ := htail afterMember (by omega)
        refine ⟨hspent, ?_⟩
        intro path rest'' hpath
        have hlen := hok path rest'' hpath
        dsimp only at hlen hafter ⊢
        omega

section Calls

include hconditional

theorem argsLoop_runs {m : Nat} (hm : m ≤ n) (args : List RuleExpr) :
    Runs m (argsLoop conditional m args) := by
  induction m generalizing args with
  | zero =>
    intro rest hrest
    omega
  | succ m ih =>
    apply Shrinks.bind (hconditional.mono hm fun _ => le_refl _)
    intro arg
    apply Shrinks.bind (consume_shrinks (by simp) _)
    intro closed
    cases closed with
    | true => exact Runs.pure _ _
    | false =>
      apply Shrinks.bind (expect_shrinks (by simp) _ _)
      intro _
      exact (ih (by omega) _).mono (by omega) fun _ => le_refl _

theorem parseCallArgsAfterOpen_runs : Runs n (parseCallArgsAfterOpen conditional) := by
  apply Shrinks.bind (consume_shrinks (by simp) n)
  intro closed
  cases closed with
  | true => exact Runs.pure _ _
  | false =>
    apply Shrinks.sized fun m => argsLoop conditional m []
    intro m hm
    exact argsLoop_runs hconditional (hm.trans (Nat.sub_le _ _)) []

theorem parseProperty_runs : Runs (n + 1) (parseProperty conditional) := by
  apply Shrinks.bind (parseIdentifier_runs _)
  intro first
  apply Shrinks.bind (consume_shrinks (by simp) _)
  intro opened
  cases opened with
  | true =>
    apply Shrinks.bind (parseCallArgsAfterOpen_runs hconditional)
    intro args
    apply Shrinks.bind (Runs.lift (builtinFunction_notSpent first))
    intro function
    exact Runs.pure _ _
  | false =>
    apply Shrinks.bind (Runs.lift (propertyName_notSpent first))
    intro name
    have hmembers : Runs (n + 1) (do
        let rest ← (get : ExprParser π (List Char))
        membersLoop (rest.length + 1) [name]) := by
      apply Shrinks.sized fun m => membersLoop m [name]
      intro m _
      exact membersLoop_runs m [name]
    exact hmembers.map RuleExpr.property

include hreader

theorem parseMethodCall_runs (receiver : RuleExpr) (method : String) :
    Runs n (parseMethodCall reader conditional receiver method) := by
  apply Shrinks.ite
  · intro _
    exact parseLambdaFilter_runs hreader n receiver
  · intro _
    apply Shrinks.ite
    · intro _
      exact parseLambdaFindIndex_runs hreader n receiver
    · intro _
      apply Shrinks.bind (parseCallArgsAfterOpen_runs hconditional)
      intro args
      exact Runs.lift (methodCallExpr_notSpent receiver method args)

theorem parsePrimary_runs : Runs (n + 1) (parsePrimary reader conditional) := by
  apply Shrinks.bind (consume_shrinks (by simp) _)
  intro opened
  cases opened with
  | true =>
    apply Shrinks.bind hconditional
    intro expr
    apply Shrinks.bind (expect_shrinks (by simp) _ _)
    intro _
    exact Runs.pure _ _
  | false =>
    apply Shrinks.bind (consumeWord_shrinks (by simp) _)
    intro slash
    cases slash with
    | true => exact parseRegexLiteral_runs hreader _
    | false =>
      intro rest hrest
      apply Settles.get
      cases rest with
      | nil => exact parseProperty_runs hconditional [] hrest
      | cons c after =>
        have hword : ∀ (word : List Char) (value : RuleExpr) (other : ExprParser π RuleExpr),
            word ≠ [] → Runs (n + 1) other → Runs (n + 1) (do
              if ← consumeWord word then return value else other) := by
          intro word value other hne hother
          apply Shrinks.bind (consumeWord_shrinks hne _)
          intro found
          cases found with
          | true => exact Runs.pure _ _
          | false => exact hother
        dsimp only
        by_cases hquote : isQuote c = true
        · rw [if_pos hquote]
          apply Settles.set
          refine Runs.set (parseString_runs hreader (n + 1) c) hrest ?_
          rw [List.length_cons]
          omega
        · rw [if_neg hquote]
          apply hword _ _ _ (by simp) _ _ hrest
          apply hword _ _ _ (by simp)
          apply hword _ _ _ (by simp)
          apply Shrinks.ite
          · intro _
            exact parseNumber_runs _
          · intro _
            exact parseProperty_runs hconditional

theorem postfixStep_shrinks (expr : RuleExpr) :
    Shrinks (n + 1) (postfixStep reader conditional expr) joined := by
  apply Shrinks.bind (consume_shrinks (by simp) _)
  intro point
  cases point with
  | false => exact Shrinks.pure rfl
  | true =>
    have hsome : ∀ {x : ExprParser π RuleExpr}, Runs n x →
        Shrinks n (do return some (← x)) fun next => joined next - 1 := by
      intro x hx
      apply Shrinks.bind hx
      intro expr
      exact Shrinks.pure rfl
    apply Shrinks.bind (parseIdentifier_runs _)
    intro member
    apply Shrinks.bind (consume_shrinks (by simp) _)
    intro opened
    cases opened with
    | true =>
      refine (hsome (parseMethodCall_runs hreader hconditional expr member)).mono ?_ ?_
      · show n + 1 - 1 - 0 - 1 ≤ n
        omega
      · intro next
        show joined next - 1 - 0 - 1 ≤ joined next - 1
        omega
    | false =>
      rw [if_neg Bool.false_ne_true]
      apply Shrinks.ite
      · intro _
        exact Shrinks.pure rfl
      · intro _
        exact hsome (Runs.lift (appendPropertyMember_notSpent expr member))

theorem parseUnary_runs {m : Nat} (hm : m ≤ n + 1) : Runs m (parseUnary reader conditional m) := by
  induction m with
  | zero =>
    intro rest hrest
    omega
  | succ m ih =>
    have hpostfix : Runs (n + 1) (parsePostfix reader conditional) :=
      chain_runs (parsePrimary_runs hreader hconditional)
        (postfixStep_shrinks hreader hconditional)
    apply Shrinks.bind (consume_shrinks (by simp) _)
    intro negated
    cases negated with
    | true => exact (ih (by omega)).map _
    | false => exact hpostfix.mono hm fun _ => le_refl _

theorem parseShift_runs : Runs (n + 1) (parseShift reader conditional) := by
  have hunary : Runs (n + 1) (do
      let rest ← (get : ExprParser π (List Char))
      parseUnary reader conditional (rest.length + 1)) :=
    Shrinks.sized (parseUnary reader conditional) fun _ hm =>
      parseUnary_runs hreader hconditional hm
  apply leftAssociative_runs (by simp [TokensNonempty])
  apply leftAssociative_runs (by simp [TokensNonempty])
  exact leftAssociative_runs (by simp [TokensNonempty]) hunary

theorem parseBitwiseAnd_runs : Runs (n + 1) (parseBitwiseAnd reader conditional) := by
  have hshift := parseShift_runs hreader hconditional
  apply chain_runs hshift
  intro expr
  apply Shrinks.bind (skipWs_runs _)
  intro _ rest hrest
  apply Settles.get
  by_cases hamp : (rest.head? = some '&' && rest[1]? ≠ some '&') = true
  · rw [if_pos hamp]
    have hne : rest ≠ [] := by
      rintro rfl
      cases hamp
    have hlen := List.length_pos_of_ne_nil hne
    have hright : Runs (n + 1)
        ((fun right => some (RuleExpr.binary .bitAnd expr right))
          <$> parseShift reader conditional) := hshift.map _
    rw [map_eq_pure_bind] at hright
    apply Settles.set
    obtain ⟨hspent, hok⟩ := hright (rest.drop 1) (by rw [List.length_drop]; omega)
    refine ⟨hspent, ?_⟩
    intro next rest' hnext
    have hle := hok next rest' hnext
    rw [List.length_drop] at hle
    have hjoined : joined next ≤ 1 := by
      unfold joined taken
      split <;> omega
    dsimp only at hle ⊢
    omega
  · rw [if_neg hamp]
    exact Settles.ok (le_refl _)

theorem parseComparison_runs : Runs (n + 1) (parseComparison reader conditional) := by
  have hoperand := parseBitwiseAnd_runs hreader hconditional
  apply Shrinks.bind hoperand
  intro left
  apply Shrinks.bind (consumeOp_shrinks (by simp [TokensNonempty]) _)
  intro op
  cases op with
  | none => exact Runs.pure _ _
  | some op => exact (hoperand.map _).mono (by omega) fun _ => le_refl _

theorem parseOr_runs : Runs (n + 1) (parseOr reader conditional) := by
  apply leftAssociative_runs (by simp [TokensNonempty])
  apply leftAssociative_runs (by simp [TokensNonempty])
  exact parseComparison_runs hreader hconditional

end Calls

include hreader

theorem parseConditional_runs (n : Nat) : Runs n (parseConditional reader n) := by
  induction n with
  | zero =>
    intro rest hrest
    omega
  | succ n ih =>
    apply Shrinks.bind (parseOr_runs hreader ih)
    intro condition
    apply Shrinks.bind (consume_shrinks (by simp) _)
    intro question
    cases question with
    | false => exact Runs.pure _ _
    | true =>
      apply Shrinks.bind ih
      intro whenTrue
      apply Shrinks.bind (expect_shrinks (by simp) _ _)
      intro _
      refine Runs.map ?_ _
      exact Shrinks.mono ih (by omega) fun _ => le_refl _

theorem parseExpr_notSpent (input : String) : NotSpent (parseExpr reader input) := by
  apply NotSpent.bind (parseConditional_runs hreader _ _ (Nat.lt_succ_self _)).1
  rintro ⟨expr, rest⟩
  apply NotSpent.ite
  · exact notSpent_pure _
  · exact NotSpent.ite (notSpent_pure _) (notSpent_invalid _)

end Productions

end ExprParser

/-! ## When the import returns -/

theorem charReader_sound : ExprParser.Sound charReader := by
  constructor
  · intro σ step unterminated s rest
    show Settles (scanChars step unterminated s rest) _
    unfold scanChars
    dsimp only
    split
    · split
      · rename_i after hdrop
        apply Settles.ok
        have hlen := congrArg List.length hdrop
        rw [List.length_drop, List.length_cons] at hlen
        omega
      · exact Settles.invalid _ _
    · refine ⟨notSpent_broken _, ?_⟩
      intro a rest' ha
      cases ha
  · intro input
    show NotSpent (charOperand input)
    unfold charOperand
    apply NotSpent.ite
    · exact notSpent_invalid _
    · exact NotSpent.ite (notSpent_broken _) (notSpent_ok _)

/-- Importing an expression returns exactly when its reading by characters meets no literal with
other characters than ASCII, and in no lambda an operand that is one quotation mark. -/
theorem parseImportedExpr_returns_iff (input : String) :
    ((∃ expr, parseImportedExpr input = .ok expr)
        ∨ ∃ reason, parseImportedExpr input = .error (.invalid reason))
      ↔ ∀ piece, readImportedExpr input ≠ .error (.broken piece) := by
  have hmarks : parseImportedExpr input = mapResult LiteralPiece.panic (readImportedExpr input) :=
    ExprParser.parseExpr_marks byteReader_marks input
  have hspent : NotSpent (readImportedExpr input) :=
    ExprParser.parseExpr_notSpent charReader_sound input
  rw [hmarks]
  cases hread : readImportedExpr input with
  | ok expr =>
    constructor
    · intro _ piece hpiece
      cases hpiece
    · intro _
      exact .inl ⟨expr, rfl⟩
  | error stop =>
    cases stop with
    | invalid reason =>
      constructor
      · intro _ piece hpiece
        cases hpiece
      · intro _
        exact .inr ⟨reason, rfl⟩
    | spent => exact absurd hread hspent
    | broken piece =>
      constructor
      · rintro (⟨expr, hexpr⟩ | ⟨reason, hreason⟩)
        · cases hexpr
        · cases hreason
      · intro h
        exact absurd rfl (h piece)

theorem parseImportedExpr_panics_run :
    (match parseImportedExpr "'é'", parseImportedExpr "a.filter(x=>x=='||')" with
      | .error (.broken first), .error (.broken second) =>
        decide (first = .charBoundary ∧ second = .reversedRange)
      | _, _ => false) = true := by
  decide

/-- A string literal with one letter outside ASCII, and a lambda whose string literal is cut in two
at the operator in it: both panic. -/
theorem parseImportedExpr_panics_counterexample :
    parseImportedExpr "'é'" = .error (.broken .charBoundary)
      ∧ parseImportedExpr "a.filter(x=>x=='||')" = .error (.broken .reversedRange) := by
  have hrun := parseImportedExpr_panics_run
  split at hrun
  · rename_i first second hfirst hsecond
    rw [decide_eq_true_eq] at hrun
    rw [hfirst, hsecond, hrun.1, hrun.2]
    exact ⟨rfl, rfl⟩
  · cases hrun

end Pdfv
