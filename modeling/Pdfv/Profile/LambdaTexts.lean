import Pdfv.Profile.ExprStrings
/-!
# Lambda texts

A filter of a rule test is a JavaScript arrow function. `LambdaText` is one whose test is built from
comparisons of the parameter with string literals, by `&&`, `||` and parentheses: how it is written,
and whether it holds of a string. The literals have all escapes of the language.
-/

namespace Pdfv

/-! ## Literals -/

/-- The number of the hexadecimal digits. -/
def hexNumber (digits : List Char) : Nat :=
  digits.foldl (fun n c => n * 16 + (hexValue c).getD 0) 0

/-- The UTF-16 code units of a code point. -/
def codePointUnits (n : Nat) : List Nat :=
  if n < 0x10000 then [n] else [0xD800 + (n - 0x10000) / 0x400, 0xDC00 + (n - 0x10000) % 0x400]

/-- Hexadecimal digits only. -/
def HexDigits (digits : List Char) : Prop :=
  ∀ c ∈ digits, (hexValue c).isSome = true

/-- `LineTerminator`. -/
def isLineTerminator (c : Char) : Bool :=
  c = '\n' || c = '\r' || c.toNat = 0x2028 || c.toNat = 0x2029

/-- A part of a literal: a character of its own, or a backslash with a letter, with hexadecimal
digits, or at the end of a line. The octal escapes are not part of the strict language. -/
inductive ScriptPiece where
  | plain (c : Char)
  | letter (c : Char)
  | byte (digits : List Char)
  | unit (digits : List Char)
  | codePoint (digits : List Char)
  | lineEnd (terminator : List Char)
deriving DecidableEq

namespace ScriptPiece

/-- How the part is written. -/
def text : ScriptPiece → List Char
  | plain c => [c]
  | letter c => ['\\', c]
  | byte digits => '\\' :: 'x' :: digits
  | unit digits => '\\' :: 'u' :: digits
  | codePoint digits => '\\' :: 'u' :: '{' :: digits ++ ['}']
  | lineEnd terminator => '\\' :: terminator

/-- The code units of a backslash and a letter. -/
def letterUnits (c : Char) : List Nat :=
  if c = '0' then [0]
  else if c = 'b' then [8]
  else if c = 't' then [9]
  else if c = 'n' then [10]
  else if c = 'v' then [11]
  else if c = 'f' then [12]
  else if c = 'r' then [13]
  else utf16Units c

/-- The code units the part stands for. -/
def units : ScriptPiece → List Nat
  | plain c => utf16Units c
  | letter c => letterUnits c
  | byte digits | unit digits => [hexNumber digits]
  | codePoint digits => codePointUnits (hexNumber digits)
  | lineEnd _ => []

/-- The part may stand between these quotation marks. -/
def Fits (quote : Char) : ScriptPiece → Prop
  | plain c => c ≠ quote ∧ c ≠ '\\' ∧ c ≠ '\n' ∧ c ≠ '\r'
  | letter c => c ≠ 'u' ∧ c ≠ 'x' ∧ ¬ ('1' ≤ c ∧ c ≤ '9') ∧ isLineTerminator c = false
  | byte digits => HexDigits digits ∧ digits.length = 2
  | unit digits => HexDigits digits ∧ digits.length = 4
  | codePoint digits => HexDigits digits ∧ digits ≠ [] ∧ hexNumber digits ≤ 0x10FFFF
  | lineEnd terminator =>
    (∃ c, isLineTerminator c = true ∧ terminator = [c]) ∨ terminator = ['\r', '\n']

/-- Not an escape. -/
def isPlain : ScriptPiece → Bool
  | plain _ => true
  | _ => false

/-- The part after one may follow it: `\0` stands before no digit. -/
def Precedes (piece next : ScriptPiece) : Prop :=
  piece = letter '0' → ∀ c, next = plain c → c.isDigit = false

end ScriptPiece

/-- A string literal. -/
structure ScriptLiteral where
  quote : Char
  pieces : List ScriptPiece
  isQuote : isQuote quote = true
  fits : ∀ piece ∈ pieces, piece.Fits quote
  inOrder : pieces.IsChain ScriptPiece.Precedes

namespace ScriptLiteral

/-- What stands between the quotation marks. -/
def body (literal : ScriptLiteral) : List Char :=
  literal.pieces.flatMap ScriptPiece.text

/-- The literal as it is written. -/
def text (literal : ScriptLiteral) : List Char :=
  literal.quote :: (literal.body ++ [literal.quote])

/-- The code units of the literal. -/
def units (literal : ScriptLiteral) : List Nat :=
  literal.pieces.flatMap ScriptPiece.units

/-- The value is the one the literal stands for. -/
def isValue (literal : ScriptLiteral) (value : String) : Bool :=
  literal.units == value.toList.flatMap utf16Units

/-- Written without escapes. -/
def Plain (literal : ScriptLiteral) : Prop :=
  ∀ piece ∈ literal.pieces, piece.isPlain = true

/-- No quotation mark stands in the literal or in what it stands for. -/
def QuoteFree (literal : ScriptLiteral) : Prop :=
  (∀ c ∈ literal.body, Pdfv.isQuote c = false)
    ∧ ∀ quote, Pdfv.isQuote quote = true → quote.toNat ∉ literal.units

end ScriptLiteral

/-! ## Tests -/

/-- White space between the tokens. -/
def isScriptSpace (c : Char) : Bool :=
  (isWhitespace c && c.toNat != 0x85) || c.toNat = 0xFEFF

/-- A gap between two tokens. -/
structure ScriptGap where
  text : List Char
  spaces : ∀ c ∈ text, isScriptSpace c = true

/-- `==` or `!=`. -/
def equalityText (equal : Bool) : List Char :=
  if equal then ['=', '='] else ['!', '=']

theorem equalityText_length (equal other : Bool) :
    (equalityText equal).length = (equalityText other).length := by
  cases equal
  all_goals
    cases other
    all_goals rfl

theorem equalityText_inj {equal other : Bool} (h : equalityText equal = equalityText other) :
    equal = other := by
  cases equal
  all_goals
    cases other
    any_goals rfl
    all_goals exact absurd h (by decide)

/-- A comparison of the parameter with a literal, which may stand first. -/
structure LambdaComparison where
  flipped : Bool
  equal : Bool
  before : ScriptGap
  after : ScriptGap
  literal : ScriptLiteral

namespace LambdaComparison

/-- The comparison as it is written. -/
def text (parameter : List Char) (comparison : LambdaComparison) : List Char :=
  let operator := comparison.before.text ++ equalityText comparison.equal ++ comparison.after.text
  if comparison.flipped then comparison.literal.text ++ operator ++ parameter
  else parameter ++ operator ++ comparison.literal.text

/-- The comparison is true of the string. -/
def holds (value : String) (comparison : LambdaComparison) : Bool :=
  comparison.literal.isValue value == comparison.equal

end LambdaComparison

/-- A test of the parameter, with the gaps around the connectives and inside the parentheses. -/
inductive LambdaTest where
  | compare (comparison : LambdaComparison)
  | group (before : ScriptGap) (inner : LambdaTest) (after : ScriptGap)
  | and (left : LambdaTest) (before after : ScriptGap) (right : LambdaTest)
  | or (left : LambdaTest) (before after : ScriptGap) (right : LambdaTest)

namespace LambdaTest

/-- The test as it is written. -/
def text (parameter : List Char) : LambdaTest → List Char
  | compare comparison => comparison.text parameter
  | group before inner after =>
    '(' :: (before.text ++ inner.text parameter ++ after.text) ++ [')']
  | and left before after right =>
    left.text parameter ++ before.text ++ (['&', '&'] ++ (after.text ++ right.text parameter))
  | or left before after right =>
    left.text parameter ++ before.text ++ (['|', '|'] ++ (after.text ++ right.text parameter))

/-- The test is true of the string. -/
def holds (value : String) : LambdaTest → Bool
  | compare comparison => comparison.holds value
  | group _ inner _ => inner.holds value
  | and left _ _ right => left.holds value && right.holds value
  | or left _ _ right => left.holds value || right.holds value

/-- A disjunction outside of parentheses. -/
def isOr : LambdaTest → Bool
  | or _ _ _ _ => true
  | _ => false

/-- `&&` binds tighter than `||`. -/
def BindsTight : LambdaTest → Prop
  | compare _ => True
  | group _ inner _ => inner.BindsTight
  | and left _ _ right =>
    left.isOr = false ∧ right.isOr = false ∧ left.BindsTight ∧ right.BindsTight
  | or left _ _ right => left.BindsTight ∧ right.BindsTight

/-- The literals from left to right. -/
def literals : LambdaTest → List ScriptLiteral
  | compare comparison => [comparison.literal]
  | group _ inner _ => inner.literals
  | and left _ _ right | or left _ _ right => left.literals ++ right.literals

/-- A chain of `parameter == literal` with `||`, or of `parameter != literal` with `&&`. -/
def IsChain (equal : Bool) : LambdaTest → Prop
  | compare comparison => comparison.flipped = false ∧ comparison.equal = equal
  | group _ _ _ => False
  | and left _ _ right => equal = false ∧ left.IsChain equal ∧ right.IsChain equal
  | or left _ _ right => equal = true ∧ left.IsChain equal ∧ right.IsChain equal

end LambdaTest

/-- `||` or `&&`: what joins the comparisons of a chain. -/
def connectiveText (equal : Bool) : List Char :=
  if equal then ['|', '|'] else ['&', '&']

/-- White space of the language or of `char::is_whitespace`. -/
def isSpace (c : Char) : Bool :=
  isWhitespace c || c.toNat = 0xFEFF

/-- A character of a name; which ones outside ASCII may stand in it is left open. -/
def isParameterChar (c : Char) : Bool :=
  isNameChar c || c = '$' || (128 ≤ c.toNat && !isSpace c)

/-- The name of a parameter. -/
def IsParameter (parameter : List Char) : Prop :=
  parameter ≠ [] ∧ ∀ c ∈ parameter, isParameterChar c = true

/-- A lambda text. -/
structure LambdaText where
  parameter : List Char
  beforeParameter : ScriptGap
  afterParameter : ScriptGap
  beforeTest : ScriptGap
  test : LambdaTest
  afterTest : ScriptGap
  named : IsParameter parameter
  bindsTight : test.BindsTight

namespace LambdaText

/-- The lambda text as it is written. -/
def text (lambda : LambdaText) : List Char :=
  lambda.beforeParameter.text ++ lambda.parameter ++ lambda.afterParameter.text ++ (['=', '>']
    ++ (lambda.beforeTest.text ++ lambda.test.text lambda.parameter ++ lambda.afterTest.text))

end LambdaText

/-! ## Literals without escapes -/

theorem toNat_valid (c : Char) : c.toNat < 0xD800 ∨ (0xDFFF < c.toNat ∧ c.toNat < 0x110000) :=
  c.valid

theorem flatMap_utf16Units_inj {chars other : List Char}
    (h : chars.flatMap utf16Units = other.flatMap utf16Units) : chars = other := by
  induction chars generalizing other with
  | nil =>
    cases other with
    | nil => rfl
    | cons d other =>
      rw [List.flatMap_cons, utf16Units] at h
      split at h
      all_goals cases h
  | cons c chars ih =>
    cases other with
    | nil =>
      rw [List.flatMap_cons, utf16Units] at h
      split at h
      all_goals cases h
    | cons d other =>
      have hc := toNat_valid c
      have hd := toNat_valid d
      rw [List.flatMap_cons, List.flatMap_cons, utf16Units, utf16Units] at h
      split at h
      · split at h
        · obtain ⟨hhead, hrest⟩ := List.cons.inj h
          rw [Char.toNat_inj.mp hhead, ih hrest]
        · -- a character below the surrogates is not the first of a pair
          have hhead := (List.cons.inj h).1
          omega
      · split at h
        · have hhead := (List.cons.inj h).1
          omega
        · obtain ⟨hhigh, htail⟩ := List.cons.inj h
          obtain ⟨hlow, hrest⟩ := List.cons.inj htail
          have hcode : c.toNat = d.toNat := by omega
          rw [Char.toNat_inj.mp hcode, ih hrest]

theorem utf16Units_length_pos (c : Char) : 1 ≤ (utf16Units c).length := by
  unfold utf16Units
  split
  · exact Nat.le_refl 1
  · exact Nat.le_succ 1

theorem length_le_flatMap_utf16Units (chars : List Char) :
    chars.length ≤ (chars.flatMap utf16Units).length := by
  induction chars with
  | nil => exact Nat.le_refl 0
  | cons c chars ih =>
    have hpos := utf16Units_length_pos c
    rw [List.flatMap_cons, List.length_append, List.length_cons]
    omega

namespace ScriptPiece

theorem letterUnits_length (c : Char) : (letterUnits c).length ≤ (utf16Units c).length := by
  have hpos := utf16Units_length_pos c
  unfold letterUnits
  split_ifs
  all_goals first | exact hpos | exact Nat.le_refl _

/-- An escape stands for fewer code units than it is written with. -/
theorem units_lt_text {quote : Char} {piece : ScriptPiece} (hfits : piece.Fits quote)
    (hplain : piece.isPlain = false) :
    piece.units.length < (piece.text.flatMap utf16Units).length := by
  cases piece with
  | plain c => cases hplain
  | letter c =>
    have hletter := letterUnits_length c
    have hbackslash := utf16Units_length_pos '\\'
    show (letterUnits c).length < (utf16Units '\\' ++ (utf16Units c ++ [])).length
    rw [List.append_nil, List.length_append]
    omega
  | byte digits | unit digits =>
    refine Nat.lt_of_lt_of_le ?_ (length_le_flatMap_utf16Units _)
    show 1 < digits.length + 1 + 1
    have := hfits.2
    omega
  | codePoint digits =>
    refine Nat.lt_of_lt_of_le ?_ (length_le_flatMap_utf16Units _)
    have hunits : (codePointUnits (hexNumber digits)).length ≤ 2 := by
      unfold codePointUnits
      split
      · exact Nat.le_succ 1
      · exact Nat.le_refl 2
    show (codePointUnits (hexNumber digits)).length < (digits ++ ['}']).length + 1 + 1 + 1
    omega
  | lineEnd terminator =>
    refine Nat.lt_of_lt_of_le ?_ (length_le_flatMap_utf16Units _)
    show 0 < terminator.length + 1
    omega

theorem units_of_plain {piece : ScriptPiece} (h : piece.isPlain = true) :
    piece.units = piece.text.flatMap utf16Units := by
  cases piece with
  | plain c => exact (List.append_nil (utf16Units c)).symm
  | _ => cases h

/-- A backslash is written for an escape only. -/
theorem backslash_mem_iff {quote : Char} {piece : ScriptPiece} (hfits : piece.Fits quote) :
    '\\' ∈ piece.text ↔ piece.isPlain = false := by
  cases piece with
  | plain c =>
    constructor
    · intro h
      exact absurd (List.mem_singleton.mp h).symm hfits.2.1
    · intro h
      cases h
  | _ => exact ⟨fun _ => rfl, fun _ => List.mem_cons_self⟩

end ScriptPiece

namespace ScriptLiteral

theorem units_of_plain {literal : ScriptLiteral} (h : literal.Plain) :
    literal.units = literal.body.flatMap utf16Units := by
  unfold units body
  rw [List.flatMap_assoc]
  exact List.flatMap_congr fun piece hpiece => ScriptPiece.units_of_plain (h piece hpiece)

theorem isValue_iff {literal : ScriptLiteral} (value : String) :
    literal.isValue value = true ↔ literal.units = value.toList.flatMap utf16Units :=
  beq_iff_eq

/-- A literal without escapes is written as its value. -/
theorem isValue_of_plain {literal : ScriptLiteral} (h : literal.Plain) (value : String) :
    literal.isValue value = true ↔ value.toList = literal.body := by
  rw [isValue_iff, units_of_plain h]
  exact ⟨fun hunits => (flatMap_utf16Units_inj hunits).symm, fun hbody => by rw [hbody]⟩

theorem backslash_mem_iff (literal : ScriptLiteral) : '\\' ∈ literal.body ↔ ¬ literal.Plain := by
  unfold body Plain
  rw [List.mem_flatMap]
  constructor
  · rintro ⟨piece, hpiece, hmem⟩ hplain
    have hnot := (ScriptPiece.backslash_mem_iff (literal.fits piece hpiece)).mp hmem
    rw [hplain piece hpiece] at hnot
    cases hnot
  · intro hnot
    push Not at hnot
    obtain ⟨piece, hpiece, hescape⟩ := hnot
    rw [ne_eq, Bool.not_eq_true] at hescape
    exact ⟨piece, hpiece, (ScriptPiece.backslash_mem_iff (literal.fits piece hpiece)).mpr hescape⟩

theorem flatMap_units_le {quote : Char} {pieces : List ScriptPiece}
    (hfits : ∀ piece ∈ pieces, piece.Fits quote) :
    (pieces.flatMap ScriptPiece.units).length
        ≤ ((pieces.flatMap ScriptPiece.text).flatMap utf16Units).length
      ∧ ((∃ piece ∈ pieces, piece.isPlain = false) →
        (pieces.flatMap ScriptPiece.units).length
          < ((pieces.flatMap ScriptPiece.text).flatMap utf16Units).length) := by
  induction pieces with
  | nil => exact ⟨Nat.le_refl 0, fun ⟨piece, hpiece, _⟩ => absurd hpiece List.not_mem_nil⟩
  | cons piece pieces ih =>
    obtain ⟨hle, hlt⟩ := ih fun piece hpiece => hfits piece (List.mem_cons_of_mem _ hpiece)
    simp only [List.flatMap_cons, List.flatMap_append, List.length_append]
    cases hplain : piece.isPlain with
    | true =>
      rw [ScriptPiece.units_of_plain hplain]
      refine ⟨by omega, ?_⟩
      rintro ⟨other, hother, hescape⟩
      rcases List.mem_cons.mp hother with rfl | hother
      · rw [hplain] at hescape
        cases hescape
      · have := hlt ⟨other, hother, hescape⟩
        omega
    | false =>
      have := ScriptPiece.units_lt_text (hfits piece List.mem_cons_self) hplain
      exact ⟨by omega, fun _ => by omega⟩

theorem units_lt_body {literal : ScriptLiteral} (h : ¬ literal.Plain) :
    literal.units.length < (literal.body.flatMap utf16Units).length := by
  unfold Plain at h
  push Not at h
  obtain ⟨piece, hpiece, hescape⟩ := h
  rw [ne_eq, Bool.not_eq_true] at hescape
  exact (flatMap_units_le literal.fits).2 ⟨piece, hpiece, hescape⟩

end ScriptLiteral

end Pdfv
