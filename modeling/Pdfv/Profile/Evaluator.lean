import Pdfv.Profile.Rules
import Pdfv.Cos.Object
import Pdfv.Basic.Fallible
/-!
# Rule evaluation

`DefaultRuleEvaluator`: model values, their coercions and the bounded evaluation of a rule
expression. The evaluator sees a model object only through the property paths it resolves and the
parse facts of its document (`EvalContext`); the regular expressions of another crate are functions
of that context.
-/

namespace Pdfv

open Fallible

/-- Model value used by rule evaluation. -/
inductive ModelValue where
  | null
  | bool (value : Bool)
  | number (value : Double)
  | string (value : BoundedText)
  | objectKey (key : ObjectKey)
  | list (values : List ModelValue)

/-- Rule evaluation outcome. -/
inductive RuleOutcome where
  | passed
  | failed
deriving DecidableEq, Repr

/-- `MAX_RULE_INSTRUCTIONS`, `MAX_RULE_DEPTH`, `MAX_REGEX_PATTERN_BYTES`, `MAX_REGEX_HAYSTACK_BYTES`
and `MAX_PROFILE_STRING_BYTES`. -/
def maxRuleInstructions : Nat := 512
def maxRuleDepth : Nat := 32
def maxRegexPatternBytes : Nat := 512
def maxRegexHaystackBytes : Nat := 4096
def maxProfileStringBytes : Nat := 4096

/-- `type_mismatch`. -/
def typeMismatch (message : String) : PdfvError :=
  .profile (.typeMismatch ⟨message⟩)

/-- A spent evaluation budget. -/
def budgetExceeded (budget : String) : PdfvError :=
  .profile (.budgetExceeded budget)

/-! ## Coercions -/

namespace ModelValue

/-- The value of a COS object; an integer outside `i32` is null. -/
def ofCos : CosObject → ModelValue
  | .boolean value => bool value
  | .integer value =>
    if -(2 ^ 31 : Int) ≤ value ∧ value < 2 ^ 31 then number (.ofInt value) else null
  | .real value => number (.finite value)
  | .name name => string ⟨utf8Lossy name.bytes⟩
  | .string text => string ⟨utf8Lossy text.bytes⟩
  | .reference key => objectKey key
  | .array values => list (ofCosValues values)
  | .null | .dictionary _ | .stream _ => null
where
  /-- The values of the elements. -/
  ofCosValues : List CosObject → List ModelValue
    | [] => []
    | value :: rest => ofCos value :: ofCosValues rest

mutual

/-- The derived equality of the source: numbers are compared as doubles. -/
def beq : ModelValue → ModelValue → Bool
  | null, null => true
  | bool a, bool b => a = b
  | number a, number b => a.eq b
  | string a, string b => a = b
  | objectKey a, objectKey b => a = b
  | list a, list b => beqList a b
  | _, _ => false

def beqList : List ModelValue → List ModelValue → Bool
  | [], [] => true
  | a :: as, b :: bs => beq a b && beqList as bs
  | _, _ => false

end

/-- `values_equal`. -/
def equal : ModelValue → ModelValue → Bool
  | number a, number b => (a.sub b).abs.lt .epsilon
  | a, b => a.beq b

/-- `expect_bool`. -/
def expectBool : ModelValue → Except PdfvError Bool
  | bool value => .ok value
  | _ => .error (typeMismatch "expected boolean")

/-- `expect_number`. -/
def expectNumber : ModelValue → Except PdfvError Double
  | number value => .ok value
  | _ => .error (typeMismatch "expected number")

/-- `expect_integral_i64`. -/
def expectIntegral (value : ModelValue) : Except PdfvError Int := do
  match ← value.expectNumber with
  | .finite x =>
    failIf (!Double.isNearlyIntegral x) (typeMismatch "expected integral number")
    failIf ((Double.finite x).lt (.ofInt (-(2 ^ 31))) || (Double.ofInt (2 ^ 31 - 1)).lt (.finite x))
      (typeMismatch "integer value outside supported range")
    return Double.roundToInt x
  | _ => .error (typeMismatch "expected integral number")

/-- `expect_shift_amount`. -/
def expectShiftAmount (value : ModelValue) : Except PdfvError Nat := do
  let shift ← value.expectIntegral
  if 0 ≤ shift ∧ shift < 64 then return shift.toNat
  else .error (typeMismatch "invalid shift amount")

/-- `expect_non_negative_usize`. -/
def expectNonNegative (value : ModelValue) : Except PdfvError Nat := do
  let value ← value.expectIntegral
  if 0 ≤ value then return value.toNat else .error (typeMismatch "expected non-negative number")

/-- `collection_len`: bytes of a string, elements of a list. -/
def collectionLen : ModelValue → Except PdfvError Nat
  | string value => .ok (utf8 value.text).length
  | list values => .ok values.length
  | _ => .error (typeMismatch "expected collection or string")

end ModelValue

/-- `usize_to_f64`. -/
def usizeToF64 (value : Nat) : Except PdfvError Double :=
  if value < u32Size then .ok (.ofInt value) else .error (budgetExceeded "collection_size")

/-- `i64_to_f64`. -/
def i64ToF64 (value : Int) : Except PdfvError Double :=
  if -(2 ^ 31 : Int) ≤ value ∧ value < 2 ^ 31 then .ok (.ofInt value)
  else .error (budgetExceeded "integer_value")

/-! ## Texts and lists -/

/-- `str::find`: the byte index of the first occurrence. -/
def findText (haystack needle : String) : Option Nat :=
  if needle.isEmpty then some 0
  else
    (Search.findWindow needle.toList haystack.toList).map fun index =>
      (utf8 (String.ofList (haystack.toList.take index))).length

/-- `str::get(start..)`: nothing unless the byte index is a character boundary. -/
def dropTextBytes : Nat → List Char → Option (List Char)
  | 0, chars => some chars
  | _ + 1, [] => none
  | start + 1, c :: chars =>
    if c.utf8Size ≤ start + 1 then dropTextBytes (start + 1 - c.utf8Size) chars else none

/-- `str::split` at every occurrence of a non-empty separator; the fuel is the length of the text. -/
def splitChars (separator : List Char) : Nat → List Char → List (List Char)
  | 0, chars => [chars]
  | fuel + 1, chars =>
    match Search.findWindow separator chars with
    | some index =>
      chars.take index :: splitChars separator fuel (chars.drop (index + separator.length))
    | none => [chars]

/-- The loop of `split_string`: the part count and the length of each part are bounded. -/
def boundedParts (maxArrayLen : Nat) : Nat → List (List Char) → Except PdfvError (List ModelValue)
  | _, [] => .ok []
  | count, part :: rest => do
    failIf (count ≥ maxArrayLen) (budgetExceeded "split_parts")
    let text ← BoundedText.new (String.ofList part) maxProfileStringBytes
    let values ← boundedParts maxArrayLen (count + 1) rest
    return .string text :: values

/-- `split_string`. -/
def splitString (value separator : BoundedText) (maxArrayLen : Nat) :
    Except PdfvError (List ModelValue) := do
  failIf (separator.text.isEmpty = true) (typeMismatch "split separator must not be empty")
  boundedParts maxArrayLen 0
    (splitChars separator.text.toList value.text.toList.length value.text.toList)

/-- `contains_value`. -/
def containsValue : ModelValue → ModelValue → Except PdfvError Bool
  | .string haystack, .string needle => .ok (findText haystack.text needle.text).isSome
  | .list values, needle => .ok (values.any fun value => value.equal needle)
  | _, _ => .error (typeMismatch "contains requires compatible arguments")

/-- `slice_value`. -/
def sliceValue (collection : ModelValue) (start : Nat) : Except PdfvError ModelValue :=
  match collection with
  | .list values => .ok (.list (values.drop start))
  | .string value => do
    let chars := (dropTextBytes start value.text.toList).getD []
    let text ← BoundedText.new (String.ofList chars) maxProfileStringBytes
    return .string text
  | _ => .error (typeMismatch "slice requires collection or string")

/-- An index, or -1. -/
def indexOrNone : Option Nat → Int
  | some index => index
  | none => -1

/-- `index_of_value`. -/
def indexOfValue : ModelValue → ModelValue → Except PdfvError Int
  | .string haystack, .string needle => .ok (indexOrNone (findText haystack.text needle.text))
  | .list values, needle =>
    .ok (indexOrNone (values.findIdx? fun value => value.equal needle))
  | _, _ => .error (typeMismatch "indexOf requires compatible arguments")

/-- Whether a value is one of the given strings. -/
def isOneOf (predicates : List BoundedText) : ModelValue → Bool
  | .string text => predicates.contains text
  | _ => false

/-- `find_index_equals`. -/
def findIndexEquals (collection : ModelValue) (predicates : List BoundedText) :
    Except PdfvError Int :=
  match collection with
  | .list values => .ok (indexOrNone (values.findIdx? (isOneOf predicates)))
  | _ => .error (typeMismatch "findIndex requires list")

/-- `has_parse_fact`. -/
def hasParseFact (facts : List ParseFact) (name : String) : Bool :=
  facts.any fun fact =>
    match fact with
    | .header _ _ _ => name = "header"
    | .encryption true _ _ _ _ _ => name = "encryption"
    | .stream _ (.length declared discovered) =>
      name = "streamLengthMismatch" && declared != discovered
    | _ => false

/-! ## Regular expressions -/

/-- The regular expressions of the regex crate: an error is the text of a pattern that does not
build. -/
structure RegexCrate where
  isMatch : String → String → Except String Bool
  find : String → String → Except String (Option Nat)

/-- `regex`: the length checks before the pattern is built, and the error when it does not. -/
def runRegex {α : Type} (run : String → String → Except String α) (pattern haystack : BoundedText) :
    Except PdfvError α := do
  failIf ((utf8 pattern.text).length > maxRegexPatternBytes
      || (utf8 haystack.text).length > maxRegexHaystackBytes) (budgetExceeded "regex")
  match run pattern.text haystack.text with
  | .ok result => return result
  | .error message =>
    let reason := if (utf8 message).length > 512 then "invalid regex" else message
    .error (.profile (.invalidField "regex" ⟨reason⟩))

/-! ## Evaluation -/

/-- What the evaluator reads of a model object, its document and the limits. -/
structure EvalContext where
  property : PropertyPath → Except PdfvError ModelValue
  parseFacts : List ParseFact
  maxObjectDepth : Nat
  maxArrayLen : Nat
  regex : RegexCrate

/-- An evaluation step: it counts instructions and may fail. -/
abbrev Eval (α : Type) := StateT Nat (Except PdfvError) α

/-- The budget checks at the start of `eval`. -/
def chargeInstruction (context : EvalContext) (depth : Nat) : Eval Unit := fun instructions => do
  failIf (instructions + 1 > maxRuleInstructions) (budgetExceeded "instructions")
  failIf (depth > maxRuleDepth || depth > context.maxObjectDepth) (budgetExceeded "depth")
  return ((), instructions + 1)

/-- The comparisons, bit operations and arithmetic of `eval_binary`. `And` and `Or` are evaluated
before their right operand. -/
def applyBinary (op : BinaryOp) (left right : ModelValue) : Except PdfvError ModelValue :=
  match op with
  | .eq => .ok (.bool (left.equal right))
  | .ne => .ok (.bool (!left.equal right))
  | .le => do return .bool ((← left.expectNumber).le (← right.expectNumber))
  | .ge => do
    let x ← left.expectNumber
    let y ← right.expectNumber
    return .bool (y.le x)
  | .lt => do return .bool ((← left.expectNumber).lt (← right.expectNumber))
  | .gt => do
    let x ← left.expectNumber
    let y ← right.expectNumber
    return .bool (y.lt x)
  | .and | .or => .ok (.bool false)
  | .bitAnd => do
    let x ← left.expectIntegral
    let y ← right.expectIntegral
    let value ← i64ToF64 (BitVec.ofInt 64 x &&& BitVec.ofInt 64 y).toInt
    return .number value
  | .shr => do
    let shift ← right.expectShiftAmount
    let x ← left.expectIntegral
    let value ← i64ToF64 (x >>> shift)
    return .number value
  | .add => do return .number ((← left.expectNumber).add (← right.expectNumber))
  | .sub => do return .number ((← left.expectNumber).sub (← right.expectNumber))
  | .mul => do return .number ((← left.expectNumber).mul (← right.expectNumber))
  | .div => do
    let divisor ← right.expectNumber
    failIf (divisor.abs.lt .epsilon) (typeMismatch "division by zero")
    return .number ((← left.expectNumber).div divisor)
  | .rem => do
    let divisor ← right.expectNumber
    failIf (divisor.abs.lt .epsilon) (typeMismatch "modulo by zero")
    return .number ((← left.expectNumber).rem divisor)

/-- One element of `filter_values`. -/
def filterKeeps (regex : RegexCrate) (function : BuiltinFunction) (predicates : List BoundedText)
    (value : ModelValue) : Except PdfvError Bool :=
  match value with
  | .string text =>
    match function with
    | .filterEquals => .ok (predicates.contains text)
    | .filterNotEquals => .ok (!predicates.contains text)
    | .filterMatches | .filterNotMatches =>
      match predicates.head? with
      | some pattern => do
        let matched ← runRegex regex.isMatch pattern text
        return if function = .filterMatches then matched else !matched
      | none => .error (typeMismatch "filter requires predicate")
    | _ => .error (typeMismatch "unsupported filter")
  | _ => .error (typeMismatch "filter requires string list")

/-- `filter_values`. -/
def filterValues (regex : RegexCrate) (collection : ModelValue) (function : BuiltinFunction)
    (predicates : List BoundedText) : Except PdfvError ModelValue :=
  match collection with
  | .list values => do
    let kept ← values.filterM (filterKeeps regex function predicates)
    return .list kept
  | _ => .error (typeMismatch "filter requires list")

/-- Two string arguments. -/
def expectStrings : ModelValue → ModelValue → Except PdfvError (BoundedText × BoundedText)
  | .string first, .string second => .ok (first, second)
  | _, _ => .error (typeMismatch "built-in requires string arguments")

/-- The built-in functions of one evaluated argument. -/
def applyUnaryCall (context : EvalContext) (function : BuiltinFunction) (value : ModelValue) :
    Except PdfvError ModelValue :=
  match function with
  | .hasParseFact =>
    match value with
    | .string name => .ok (.bool (hasParseFact context.parseFacts name.text))
    | _ => .error (typeMismatch "hasParseFact requires string")
  | .size => do
    let size ← usizeToF64 (← value.collectionLen)
    return .number size
  | .isEmpty => do return .bool ((← value.collectionLen) = 0)
  | _ => do return .number (← value.expectNumber).abs

/-- The built-in functions of two evaluated arguments. -/
def applyBinaryCall (context : EvalContext) (function : BuiltinFunction)
    (first second : ModelValue) : Except PdfvError ModelValue :=
  match function with
  | .contains => do return .bool (← containsValue first second)
  | .matches => do
    let (pattern, haystack) ← expectStrings first second
    return .bool (← runRegex context.regex.isMatch pattern haystack)
  | .split => do
    let (value, separator) ← expectStrings first second
    return .list (← splitString value separator context.maxArrayLen)
  | .slice => do
    let start ← second.expectNonNegative
    sliceValue first start
  | .indexOf => do
    let index ← indexOfValue first second
    return .number (← i64ToF64 index)
  | _ => do
    let (haystack, pattern) ← expectStrings first second
    let index ← runRegex context.regex.find pattern haystack
    return .number (← i64ToF64 (indexOrNone index))

/-- The argument shape of a built-in function. -/
inductive CallShape where
  | one
  | two
  | fold (allRequired : Bool)
  | collection (message : String)

/-- The shape each arm of `eval_call` expects. -/
def BuiltinFunction.shape : BuiltinFunction → CallShape
  | .hasParseFact | .size | .isEmpty | .abs => .one
  | .contains | .matches | .split | .slice | .indexOf | .search => .two
  | .all => .fold true
  | .exists => .fold false
  | .filterEquals | .filterNotEquals | .filterMatches | .filterNotMatches => .collection "filter"
  | .findIndexEquals => .collection "findIndex"

/-- The built-in functions of a collection and string arguments. -/
def applyCollectionCall (context : EvalContext) (function : BuiltinFunction)
    (collection : ModelValue) (predicates : List BoundedText) : Except PdfvError ModelValue :=
  if function = .findIndexEquals then do
    let index ← findIndexEquals collection predicates
    return .number (← i64ToF64 index)
  else filterValues context.regex collection function predicates

/-- The value of a unary operation. -/
def applyUnary : UnaryOp → ModelValue → Except PdfvError ModelValue
  | .not, .bool value => .ok (.bool !value)
  | _, _ => .error (typeMismatch "unary operator requires boolean")

mutual

/-- `DefaultRuleEvaluator::eval`. -/
def evalExpr (context : EvalContext) (depth : Nat) : RuleExpr → Eval ModelValue
  | .bool value => do
    chargeInstruction context depth
    return .bool value
  | .number value => do
    chargeInstruction context depth
    return .number value
  | .string value => do
    chargeInstruction context depth
    return .string value
  | .null => do
    chargeInstruction context depth
    return .null
  | .property path => do
    chargeInstruction context depth
    context.property path
  | .unary op expr => do
    chargeInstruction context depth
    let value ← evalExpr context (depth + 1) expr
    applyUnary op value
  | .binary op left right => do
    chargeInstruction context depth
    let first ← evalExpr context (depth + 1) left
    if op = .and ∨ op = .or then
      let decided ← first.expectBool
      if decided = decide (op = .or) then return .bool decided
      else
        let second ← evalExpr context (depth + 1) right
        return .bool (← second.expectBool)
    else
      let second ← evalExpr context (depth + 1) right
      applyBinary op first second
  | .conditional condition whenTrue whenFalse => do
    chargeInstruction context depth
    let value ← evalExpr context (depth + 1) condition
    if ← value.expectBool then evalExpr context (depth + 1) whenTrue
    else evalExpr context (depth + 1) whenFalse
  | .call function args => do
    chargeInstruction context depth
    match function.shape, args with
    | .one, [arg] => do
      let value ← evalExpr context (depth + 1) arg
      applyUnaryCall context function value
    | .one, _ => throw (typeMismatch "built-in requires exactly one argument")
    | .two, [first, second] => do
      let first ← evalExpr context (depth + 1) first
      let second ← evalExpr context (depth + 1) second
      applyBinaryCall context function first second
    | .two, _ => throw (typeMismatch "built-in requires two arguments")
    | .fold allRequired, args => evalFold context (depth + 1) allRequired args
    | .collection _, [] =>
      throw (typeMismatch (if function = .findIndexEquals then "findIndex requires collection"
        else "filter requires collection"))
    | .collection message, collection :: predicates => do
      let collection ← evalExpr context (depth + 1) collection
      let predicates ← evalStrings context (depth + 1) message predicates
      applyCollectionCall context function collection predicates
  | .unsupported _ reason => do
    chargeInstruction context depth
    throw (.profile (.unsupportedRule reason))

/-- `eval_boolean_fold`: the fold stops at the first argument that decides it. -/
def evalFold (context : EvalContext) (depth : Nat) (allRequired : Bool) :
    List RuleExpr → Eval ModelValue
  | [] => return .bool allRequired
  | arg :: rest => do
    let value ← evalExpr context depth arg
    let decided ← value.expectBool
    if decided = allRequired then evalFold context depth allRequired rest
    else return .bool decided

/-- `eval_string_args`. -/
def evalStrings (context : EvalContext) (depth : Nat) (message : String) :
    List RuleExpr → Eval (List BoundedText)
  | [] => return []
  | arg :: rest => do
    match ← evalExpr context depth arg with
    | .string text => do
      let texts ← evalStrings context depth message rest
      return text :: texts
    | _ => throw (typeMismatch message)

end

/-- `RuleEvaluator::evaluate`. -/
def evaluate (context : EvalContext) (test : RuleExpr) : Except PdfvError RuleOutcome := do
  let (value, _) ← (evalExpr context 0 test).run 0
  let passed ← value.expectBool
  return if passed then .passed else .failed

end Pdfv
