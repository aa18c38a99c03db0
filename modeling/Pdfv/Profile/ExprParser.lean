import Pdfv.Profile.Evaluator
/-!
# Expressions of imported profiles

`parse_imported_expr`: a recursive descent over the text of a rule test. The source keeps a byte
offset into a `&str`; outside literals it moves over ASCII only, so the cursor is the text that is
left. Inside string literals, regex literals and lambda texts the source moves byte by byte, and a
slice at an offset inside a character panics; these scanners, and the one other slice that can go
wrong, are fields of a `LiteralReader`, of which `byteReader` is the source's.
-/

namespace Pdfv

/-- How a slice of the source panics. -/
inductive SlicePanic where
  | charBoundary
  | reversedRange
deriving DecidableEq, Repr

/-- How parsing ends without a result: with a reason, out of fuel, or broken off. -/
inductive ParseStop (π : Type) where
  | invalid (reason : BoundedText)
  | spent
  | broken (why : π)
deriving DecidableEq, Repr

/-- A part of the parser, from the text that is left to a result and the text then left. -/
abbrev ExprParser (π α : Type) := StateT (List Char) (Except (ParseStop π)) α

variable {π : Type}

/-- `Err(BoundedText::unchecked(reason))`. -/
def invalid {α : Type} (reason : String) : Except (ParseStop π) α :=
  .error (.invalid ⟨reason⟩)

/-- `BoundedText::new(value, max).map_err(|_| BoundedText::unchecked(reason))`. -/
def boundedLiteral (value : String) (maxBytes : Nat) (reason : String) :
    Except (ParseStop π) BoundedText :=
  match BoundedText.new value maxBytes with
  | .ok text => .ok text
  | .error _ => invalid reason

/-! ## Names -/

/-- `map_verapdf_property`. -/
def mapVerapdfProperty (value : String) : String :=
  if value = "Length" then "declaredLength"
  else if value = "realLength" then "discoveredLength"
  else if value = "isEncrypted" then "encrypted"
  else if value = "containsMetadata" then "hasMetadata"
  else if value = "isCatalogMetadata" then "catalogMetadata"
  else value

/-- `property_name_from_source`. -/
def propertyNameFromSource (value : String) : Except (ParseStop π) PropertyName :=
  match Identifier.new (mapVerapdfProperty value) with
  | some name => .ok name.text
  | none => invalid "invalid property"

/-- `builtin_function`. -/
def builtinFunction (value : String) : Except (ParseStop π) BuiltinFunction :=
  if value = "hasParseFact" then .ok .hasParseFact
  else if value = "size" then .ok .size
  else if value = "isEmpty" then .ok .isEmpty
  else if value = "contains" then .ok .contains
  else if value = "all" then .ok .all
  else if value = "exists" then .ok .exists
  else if value = "matches" then .ok .matches
  else invalid "unsupported built-in function"

theorem isAlpha_range {c : Char} (h : c.isAlpha = true) :
    (65 ≤ c.toNat ∧ c.toNat ≤ 90) ∨ (97 ≤ c.toNat ∧ c.toNat ≤ 122) := by
  have hcases : (decide (c.val ≥ 'A'.val ∧ c.val ≤ 'Z'.val)
      || (decide (c.val ≥ 'a'.val) && decide (c.val ≤ 'z'.val))) = true := h
  simp only [Bool.or_eq_true, Bool.and_eq_true, decide_eq_true_eq, ge_iff_le,
    UInt32.le_iff_toNat_le] at hcases
  exact hcases

theorem isDigit_range {c : Char} (h : c.isDigit = true) : 48 ≤ c.toNat ∧ c.toNat ≤ 57 := by
  have hcases : (decide (c.val ≥ '0'.val) && decide (c.val ≤ '9'.val)) = true := h
  simp only [Bool.and_eq_true, decide_eq_true_eq, ge_iff_le, UInt32.le_iff_toNat_le] at hcases
  exact hcases

/-- An ASCII alphanumeric character or an underscore. -/
def isNameChar (c : Char) : Bool :=
  c.isAlphanum || c = '_'

/-- `is_identifier`. -/
def isIdentifier (value : List Char) : Bool :=
  match value with
  | first :: rest => (first.isAlpha || first = '_') && rest.all isNameChar
  | [] => false

/-- `"` or `'`. -/
def isQuote (c : Char) : Bool :=
  c.toNat = 34 || c.toNat = 39

theorem isQuote_apostrophe : isQuote '\'' = true := by
  decide

/-! ## Calls -/

/-- `append_property_member`. -/
def appendPropertyMember (expr : RuleExpr) (member : String) : Except (ParseStop π) RuleExpr :=
  match expr with
  | .property path => do return .property (path ++ [← propertyNameFromSource member])
  | _ => invalid "unsupported postfix property target"

/-- `is_math_receiver`. -/
def isMathReceiver : RuleExpr → Bool
  | .property [name] => name = "Math"
  | _ => false

/-- `receiver_first_call`. -/
def receiverFirstCall (function : BuiltinFunction) (receiver : RuleExpr) (args : List RuleExpr)
    (expectedArgs : Nat) : Except (ParseStop π) RuleExpr :=
  if args.length ≠ expectedArgs then invalid "wrong method argument count"
  else .ok (.call function (receiver :: args))

/-- `method_call_expr`. -/
def methodCallExpr (receiver : RuleExpr) (method : String) (args : List RuleExpr) :
    Except (ParseStop π) RuleExpr :=
  if isMathReceiver receiver && method = "abs" then
    if args.length ≠ 1 then invalid "Math.abs requires one argument"
    else .ok (.call .abs args)
  else if method = "length" then
    if !args.isEmpty then invalid "length requires no arguments"
    else .ok (.call .size [receiver])
  else if method = "test" then
    match args with
    | [haystack] => .ok (.call .matches [receiver, haystack])
    | _ => invalid "test requires one argument"
  else if method = "contains" then receiverFirstCall .contains receiver args 1
  else if method = "split" then receiverFirstCall .split receiver args 1
  else if method = "slice" then receiverFirstCall .slice receiver args 1
  else if method = "indexOf" then receiverFirstCall .indexOf receiver args 1
  else if method = "search" then receiverFirstCall .search receiver args 1
  else invalid "unsupported method call"

/-! ## Scanning literals -/

/-- `escaped` after one more character of a regex literal. -/
def nextEscaped (c : Char) (escaped : Bool) : Bool :=
  c.toNat = 92 && !escaped

/-- The test of `parse_string`: nothing at the end of the literal, else the state after the
character. -/
def stringStep (quote : Char) (_ : Unit) (c : Char) : Option Unit :=
  if c = quote then none else some ()

/-- The test of `parse_regex_literal`, over `escaped`. -/
def regexStep (escaped : Bool) (c : Char) : Option Bool :=
  if c = '/' && !escaped then none else some (nextEscaped c escaped)

/-- The state of `take_call_content_after_open`. -/
structure CallScan where
  depth : Nat := 1
  quote : Option Char := none
  regex : Bool := false
  escaped : Bool := false

/-- The test of `take_call_content_after_open`. The depth is positive, so its subtraction never
fails. -/
def callStep (s : CallScan) (c : Char) : Option CallScan :=
  match s.quote with
  | some quote =>
    some { s with
      quote := if c = quote && !s.escaped then none else some quote
      escaped := nextEscaped c s.escaped }
  | none =>
    if s.regex then
      some { s with
        regex := !(c = '/' && !s.escaped)
        escaped := nextEscaped c s.escaped }
    else if isQuote c then some { s with quote := some c }
    else if c = '/' then some { s with regex := true }
    else if c = '(' then some { s with depth := s.depth + 1 }
    else if c = ')' then if s.depth - 1 = 0 then none else some { s with depth := s.depth - 1 }
    else some s

/-- The loop of a literal scanner, up to and over the character that ends the literal:
`self.offset + 1` inside a character makes the next `self.remaining()` panic. -/
def scanBytes {σ : Type} (step : σ → Char → Option σ) (unterminated : String) :
    σ → List Char → Except (ParseStop SlicePanic) (List Char × List Char)
  | _, [] => invalid unterminated
  | s, c :: rest =>
    match step s c with
    | none => .ok ([], rest)
    | some s =>
      if c.utf8Size = 1 then do
        let (content, after) ← scanBytes step unterminated s rest
        return (c :: content, after)
      else .error (.broken .charBoundary)

/-- The operand is a string literal: `'` or `"` at both ends. -/
def isQuotedText (input : List Char) : Bool :=
  match input.head?, input.getLast? with
  | some quote, some last => isQuote quote && last = quote
  | _, _ => false

/-- `parse_static_string`: the slice `input[1..len - 1]` of a single quotation mark ends before it
starts. -/
def parseStaticString (input : List Char) : Except (ParseStop SlicePanic) String :=
  if !isQuotedText input then invalid "expected string literal"
  else if input.length = 1 then .error (.broken .reversedRange)
  else .ok (String.ofList (input.drop 1).dropLast)

/-- The literal scanners of the parser: each returns what stands before the end of the literal, and
the text after it. -/
structure LiteralReader (π : Type) where
  scan : {σ : Type} → (σ → Char → Option σ) → String → σ → List Char →
    Except (ParseStop π) (List Char × List Char)
  operand : List Char → Except (ParseStop π) String

/-- The scanners of the source. -/
def byteReader : LiteralReader SlicePanic where
  scan := scanBytes
  operand := parseStaticString

/-! ## Lambda predicates -/

/-- `LambdaPredicate`. -/
inductive LambdaPredicate where
  | eqAny (values : List String)
  | neAll (values : List String)
  | regexMatches (pattern : String)
  | regexNotMatches (pattern : String)
deriving DecidableEq, Repr

/-- `str::trim` on characters. -/
def trimChars (value : List Char) : List Char :=
  Trim.trim isWhitespace value

/-- `str::split_once`. -/
def splitOnce (separator value : List Char) : Option (List Char × List Char) :=
  (Search.findWindow separator value).map fun index =>
    (value.take index, value.drop (index + separator.length))

/-- The text up to the first unescaped slash, and the text after it. -/
def splitPattern : Bool → List Char → Option (List Char × List Char)
  | _, [] => none
  | escaped, c :: rest =>
    match regexStep escaped c with
    | none => some ([], rest)
    | some escaped => (splitPattern escaped rest).map fun (pattern, suffix) => (c :: pattern, suffix)

/-- `regex_lambda_pattern` after the optional `!`. -/
def regexPattern (expression parameter : List Char) : Except (ParseStop π) (Option String) :=
  match expression with
  | '/' :: rest =>
    match splitPattern false rest with
    | some (pattern, suffix) =>
      .ok (if trimChars suffix = ".test(".toList ++ parameter ++ [')'] then
        some (String.ofList pattern) else none)
    | none => invalid "unterminated regex lambda"
  | _ => .ok none

/-- `regex_lambda_pattern`. -/
def regexLambdaPattern (expression parameter : List Char) (positive : Bool) :
    Except (ParseStop π) (Option String) :=
  if positive then regexPattern (trimChars expression) parameter
  else
    match trimChars expression with
    | '!' :: rest => regexPattern (trimChars rest) parameter
    | _ => .ok none

namespace LiteralReader

variable (reader : LiteralReader π)

/-- `comparison_lambda_value`. -/
def comparisonLambdaValue (expression parameter operator : List Char) :
    Except (ParseStop π) (Option String) :=
  match splitOnce operator expression with
  | some (left, right) =>
    if trimChars left ≠ parameter then .ok none
    else do return some (← reader.operand (trimChars right))
  | none => .ok none

/-- The loop of `comparison_lambda_values` over the parts. -/
def comparisonValues (parameter operator : List Char) :
    List (List Char) → Except (ParseStop π) (Option (List String))
  | [] => .ok (some [])
  | part :: rest => do
    match ← reader.comparisonLambdaValue (trimChars part) parameter operator with
    | none => return none
    | some value => return (← comparisonValues parameter operator rest).map (value :: ·)

/-- `comparison_lambda_values`; a split has at least one part. -/
def comparisonLambdaValues (expression parameter operator separator : List Char) :
    Except (ParseStop π) (Option (List String)) :=
  reader.comparisonValues parameter operator (splitChars separator expression.length expression)

/-- `LambdaPredicate::parse` from the expression on. -/
def lambdaBody (expression parameter : List Char) : Except (ParseStop π) LambdaPredicate := do
  match ← regexLambdaPattern expression parameter true with
  | some pattern => return .regexMatches pattern
  | none =>
    match ← regexLambdaPattern expression parameter false with
    | some pattern => return .regexNotMatches pattern
    | none =>
      match ← reader.comparisonLambdaValues expression parameter ['=', '='] ['|', '|'] with
      | some values => return .eqAny values
      | none =>
        match ← reader.comparisonLambdaValues expression parameter ['!', '='] ['&', '&'] with
        | some values => return .neAll values
        | none => invalid "unsupported lambda predicate"

/-- `LambdaPredicate::parse`. -/
def lambdaPredicate (input : List Char) : Except (ParseStop π) LambdaPredicate :=
  match splitOnce ['=', '>'] input with
  | none => invalid "expected lambda expression"
  | some (parameter, expression) =>
    if !isIdentifier (trimChars parameter) then invalid "invalid lambda parameter"
    else reader.lambdaBody (trimChars expression) (trimChars parameter)

end LiteralReader

/-- `string_args`. -/
def stringArgs (values : List String) : Except (ParseStop π) (List RuleExpr) :=
  values.mapM fun value => do
    return .string (← boundedLiteral value maxProfileStringBytes "string literal exceeds limit")

namespace LambdaPredicate

/-- The argument of a filter by a regular expression. -/
def patternArg (pattern : String) : Except (ParseStop π) (List RuleExpr) := do
  return [.string (← boundedLiteral pattern maxRegexPatternBytes "regex literal exceeds limit")]

/-- `LambdaPredicate::into_filter_call_args`. -/
def intoFilterCallArgs : LambdaPredicate → Except (ParseStop π) (BuiltinFunction × List RuleExpr)
  | eqAny values => do return (.filterEquals, ← stringArgs values)
  | neAll values => do return (.filterNotEquals, ← stringArgs values)
  | regexMatches pattern => do return (.filterMatches, ← patternArg pattern)
  | regexNotMatches pattern => do return (.filterNotMatches, ← patternArg pattern)

/-- `LambdaPredicate::into_find_index_call_args`. -/
def intoFindIndexCallArgs (receiver : RuleExpr) :
    LambdaPredicate → Except (ParseStop π) (List RuleExpr)
  | eqAny values => do return receiver :: (← stringArgs values)
  | _ => invalid "unsupported findIndex predicate"

end LambdaPredicate

/-! ## The productions -/

namespace ExprParser

/-- A result that leaves the cursor where it is. -/
def lift {α : Type} (x : Except (ParseStop π) α) : ExprParser π α := fun rest =>
  x.map fun a => (a, rest)

/-- `ExprParser::skip_ws`. -/
def skipWs : ExprParser π Unit := fun rest =>
  .ok ((), rest.dropWhile fun c => c.utf8Size = 1 && isAsciiWhitespace c.toNat.toUInt8)

/-- `ExprParser::consume`, of an ASCII token. -/
def consume (token : List Char) : ExprParser π Bool := do
  skipWs
  let rest ← get
  if token.isPrefixOf rest then
    set (rest.drop token.length)
    return true
  else return false

/-- `!self.consume(token)` as an error. -/
def expect (token : List Char) (reason : String) : ExprParser π Unit := do
  if ← consume token then return () else lift (invalid reason)

/-- A loop over an expression, as long as the step yields another one; every step consumes a
token. -/
def repeatWhile (step : RuleExpr → ExprParser π (Option RuleExpr)) :
    Nat → RuleExpr → ExprParser π RuleExpr
  | 0, _ => lift (.error .spent)
  | fuel + 1, expr => do
    match ← step expr with
    | some expr => repeatWhile step fuel expr
    | none => return expr

/-- A first operand and the loop over what follows it. -/
def chain (operand : ExprParser π RuleExpr) (step : RuleExpr → ExprParser π (Option RuleExpr)) :
    ExprParser π RuleExpr := do
  let expr ← operand
  let rest ← get
  repeatWhile step (rest.length + 1) expr

/-- The first operator whose token can be consumed. -/
def consumeOp : List (List Char × BinaryOp) → ExprParser π (Option BinaryOp)
  | [] => return none
  | (token, op) :: ops => do
    if ← consume token then return some op else consumeOp ops

/-- A loop over operands that one of the operators joins to the left. -/
def leftAssociative (ops : List (List Char × BinaryOp)) (operand : ExprParser π RuleExpr) :
    ExprParser π RuleExpr :=
  chain operand fun expr => do
    match ← consumeOp ops with
    | some op => return some (.binary op expr (← operand))
    | none => return none

/-- `ExprParser::parse_identifier`. -/
def parseIdentifier : ExprParser π String := fun rest =>
  let name := rest.takeWhile isNameChar
  if name.isEmpty then invalid "expected expression"
  else .ok (String.ofList name, rest.drop name.length)

/-- The mantissa and exponent that `str::parse::<f64>` reads: digits with at most one point. -/
def parseNumberText (negative : Bool) (mantissa : List Char) (exponent : Int) : Option Double :=
  let whole := mantissa.takeWhile Char.isDigit
  let fraction := mantissa.drop (whole.length + 1)
  if (whole ++ fraction).isEmpty || !fraction.all Char.isDigit then none
  else
    let digits : Int := (whole ++ fraction).foldl (fun n c => n * 10 + (c.toNat - 48)) 0
    let scale := exponent - fraction.length
    some (Double.ofRational negative ((if negative then -digits else digits) * 10 ^ scale.toNat)
      (10 ^ (-scale).toNat))

/-- The exponent of a number literal. -/
def parseExponent : ExprParser π Int := fun rest =>
  match rest with
  | c :: rest =>
    if c = 'e' || c = 'E' then
      let negative := rest.head? = some '-'
      let digitsText := if rest.head? = some '+' || rest.head? = some '-' then rest.drop 1 else rest
      let digits := digitsText.takeWhile Char.isDigit
      if digits.isEmpty then invalid "invalid exponent literal"
      else
        let value : Int := digits.foldl (fun n c => n * 10 + (c.toNat - 48)) 0
        .ok (if negative then -value else value, digitsText.drop digits.length)
    else .ok (0, c :: rest)
  | [] => .ok (0, [])

/-- `ExprParser::parse_number`. -/
def parseNumber : ExprParser π RuleExpr := do
  let rest ← get
  let negative := rest.head? = some '-'
  let unsigned := if negative then rest.drop 1 else rest
  let mantissa := unsigned.takeWhile fun c => c.isDigit || c = '.'
  set (unsigned.drop mantissa.length)
  let exponent ← parseExponent
  match parseNumberText negative mantissa exponent with
  | some value => return .number value
  | none => lift (invalid "invalid number literal")

section Literals

variable (reader : LiteralReader π)

/-- A scanner as a part of the parser. -/
def scan {σ : Type} (step : σ → Char → Option σ) (unterminated : String) (s : σ) :
    ExprParser π (List Char) := fun rest =>
  reader.scan step unterminated s rest

/-- `ExprParser::parse_string`, after the opening quote. -/
def parseString (quote : Char) : ExprParser π RuleExpr := do
  let value ← scan reader (stringStep quote) "unterminated string literal" ()
  let text ← lift (boundedLiteral (String.ofList value) maxProfileStringBytes
    "string literal exceeds limit")
  return .string text

/-- `ExprParser::parse_regex_literal`, after the opening slash. -/
def parseRegexLiteral : ExprParser π RuleExpr := do
  let value ← scan reader regexStep "unterminated regex literal" false
  let text ← lift (boundedLiteral (String.ofList value) maxRegexPatternBytes
    "regex literal exceeds limit")
  return .string text

/-- `ExprParser::take_call_content_after_open`. -/
def takeCallContentAfterOpen : ExprParser π (List Char) :=
  scan reader callStep "missing call closing parenthesis" {}

/-- `ExprParser::parse_lambda_filter`. -/
def parseLambdaFilter (receiver : RuleExpr) : ExprParser π RuleExpr := do
  let content ← takeCallContentAfterOpen reader
  let predicate ← lift (reader.lambdaPredicate content)
  let (function, args) ← lift predicate.intoFilterCallArgs
  return .call function (receiver :: args)

/-- `ExprParser::parse_lambda_find_index`. -/
def parseLambdaFindIndex (receiver : RuleExpr) : ExprParser π RuleExpr := do
  let content ← takeCallContentAfterOpen reader
  let predicate ← lift (reader.lambdaPredicate content)
  let args ← lift (predicate.intoFindIndexCallArgs receiver)
  return .call .findIndexEquals args

/-- The loop over the arguments of a call, after the opening parenthesis and outside of it. -/
def argsLoop (conditional : ExprParser π RuleExpr) :
    Nat → List RuleExpr → ExprParser π (List RuleExpr)
  | 0, _ => lift (.error .spent)
  | fuel + 1, args => do
    let arg ← conditional
    if ← consume [')'] then return args ++ [arg]
    else do
      expect [','] "missing function argument separator"
      argsLoop conditional fuel (args ++ [arg])

/-- `ExprParser::parse_call_args_after_open`. -/
def parseCallArgsAfterOpen (conditional : ExprParser π RuleExpr) :
    ExprParser π (List RuleExpr) := do
  if ← consume [')'] then return []
  else do
    let rest ← get
    argsLoop conditional (rest.length + 1) []

/-- `ExprParser::parse_method_call`. -/
def parseMethodCall (conditional : ExprParser π RuleExpr) (receiver : RuleExpr) (method : String) :
    ExprParser π RuleExpr := do
  if method = "filter" then parseLambdaFilter reader receiver
  else if method = "findIndex" then parseLambdaFindIndex reader receiver
  else do
    let args ← parseCallArgsAfterOpen conditional
    lift (methodCallExpr receiver method args)

/-- The loop over the members of a property path; a member before a parenthesis is a method and is
left, with its point. -/
def membersLoop : Nat → PropertyPath → ExprParser π PropertyPath
  | 0, _ => lift (.error .spent)
  | fuel + 1, parts => do
    if ← consume ['.'] then do
      let memberStart ← get
      let member ← parseIdentifier
      let afterMember ← get
      skipWs
      let rest ← get
      if rest.head? = some '(' then
        set ('.' :: memberStart)
        return parts
      else do
        set afterMember
        let name ← lift (propertyNameFromSource member)
        membersLoop fuel (parts ++ [name])
    else return parts

/-- `ExprParser::parse_property`. -/
def parseProperty (conditional : ExprParser π RuleExpr) : ExprParser π RuleExpr := do
  let first ← parseIdentifier
  if ← consume ['('] then do
    let args ← parseCallArgsAfterOpen conditional
    let function ← lift (builtinFunction first)
    return .call function args
  else do
    let name ← lift (propertyNameFromSource first)
    let rest ← get
    let path ← membersLoop (rest.length + 1) [name]
    return .property path

/-- The word stands next; the words here have no boundary after them. -/
def consumeWord (word : List Char) : ExprParser π Bool := do
  let rest ← get
  if word.isPrefixOf rest then
    set (rest.drop word.length)
    return true
  else return false

/-- `ExprParser::parse_primary`. -/
def parsePrimary (conditional : ExprParser π RuleExpr) : ExprParser π RuleExpr := do
  if ← consume ['('] then do
    let expr ← conditional
    expect [')'] "missing closing parenthesis"
    return expr
  else if ← consumeWord ['/'] then parseRegexLiteral reader
  else do
    let rest ← get
    match rest with
    | c :: after =>
      if isQuote c then do
        set after
        parseString reader c
      else if ← consumeWord ['t', 'r', 'u', 'e'] then return .bool true
      else if ← consumeWord ['f', 'a', 'l', 's', 'e'] then return .bool false
      else if ← consumeWord ['n', 'u', 'l', 'l'] then return .null
      else if c.isDigit || c = '-' then parseNumber
      else parseProperty conditional
    | [] => parseProperty conditional

/-- One turn of the loop of `parse_postfix`. -/
def postfixStep (conditional : ExprParser π RuleExpr) (expr : RuleExpr) :
    ExprParser π (Option RuleExpr) := do
  if ← consume ['.'] then do
    let member ← parseIdentifier
    if ← consume ['('] then return some (← parseMethodCall reader conditional expr member)
    else if member = "length" then return some (.call .size [expr])
    else return some (← lift (appendPropertyMember expr member))
  else return none

/-- `ExprParser::parse_postfix`. -/
def parsePostfix (conditional : ExprParser π RuleExpr) : ExprParser π RuleExpr :=
  chain (parsePrimary reader conditional) (postfixStep reader conditional)

/-- `ExprParser::parse_unary`. -/
def parseUnary (conditional : ExprParser π RuleExpr) : Nat → ExprParser π RuleExpr
  | 0 => lift (.error .spent)
  | fuel + 1 => do
    if ← consume ['!'] then return .unary .not (← parseUnary conditional fuel)
    else parsePostfix reader conditional

/-- `ExprParser::parse_multiplicative`. -/
def parseMultiplicative (conditional : ExprParser π RuleExpr) : ExprParser π RuleExpr :=
  leftAssociative [(['*'], .mul), (['/'], .div), (['%'], .rem)] do
    let rest ← get
    parseUnary reader conditional (rest.length + 1)

/-- `ExprParser::parse_additive`. -/
def parseAdditive (conditional : ExprParser π RuleExpr) : ExprParser π RuleExpr :=
  leftAssociative [(['+'], .add), (['-'], .sub)] (parseMultiplicative reader conditional)

/-- `ExprParser::parse_shift`. -/
def parseShift (conditional : ExprParser π RuleExpr) : ExprParser π RuleExpr :=
  leftAssociative [(['>', '>'], .shr)] (parseAdditive reader conditional)

/-- `ExprParser::parse_bitwise_and`: a single ampersand. -/
def parseBitwiseAnd (conditional : ExprParser π RuleExpr) : ExprParser π RuleExpr :=
  chain (parseShift reader conditional) fun expr => do
    skipWs
    let rest ← get
    if rest.head? = some '&' && rest[1]? ≠ some '&' then do
      set (rest.drop 1)
      return some (.binary .bitAnd expr (← parseShift reader conditional))
    else return none

/-- `ExprParser::parse_comparison`. -/
def parseComparison (conditional : ExprParser π RuleExpr) : ExprParser π RuleExpr := do
  let left ← parseBitwiseAnd reader conditional
  match ← consumeOp [(['=', '='], .eq), (['!', '='], .ne), (['<', '='], .le), (['>', '='], .ge),
      (['<'], .lt), (['>'], .gt)] with
  | some op => return .binary op left (← parseBitwiseAnd reader conditional)
  | none => return left

/-- `ExprParser::parse_and`. -/
def parseAnd (conditional : ExprParser π RuleExpr) : ExprParser π RuleExpr :=
  leftAssociative [(['&', '&'], .and)] (parseComparison reader conditional)

/-- `ExprParser::parse_or`. -/
def parseOr (conditional : ExprParser π RuleExpr) : ExprParser π RuleExpr :=
  leftAssociative [(['|', '|'], .or)] (parseAnd reader conditional)

/-- `ExprParser::parse_conditional`; the fuel counts the nested expressions. -/
def parseConditional : Nat → ExprParser π RuleExpr
  | 0 => lift (.error .spent)
  | fuel + 1 => do
    let condition ← parseOr reader (parseConditional fuel)
    if ← consume ['?'] then do
      let whenTrue ← parseConditional fuel
      expect [':'] "missing ternary separator"
      let whenFalse ← parseConditional fuel
      return .conditional condition whenTrue whenFalse
    else return condition

/-- `parse_imported_expr` over a reader. -/
def parseExpr (input : String) : Except (ParseStop π) RuleExpr := do
  let (expr, rest) ← (parseConditional reader (input.toList.length + 1)).run input.toList
  if expr.isUnsupported then return expr
  else do
    let ((), rest) ← (skipWs : ExprParser π Unit).run rest
    if rest.isEmpty then return expr else invalid "trailing expression input"

end Literals

end ExprParser

/-- `parse_imported_expr`. -/
def parseImportedExpr (input : String) : Except (ParseStop SlicePanic) RuleExpr :=
  ExprParser.parseExpr byteReader input

end Pdfv
