import Pdfv.Basic.Bytes
/-!
# Finite binary64 numbers

A real token is stored as a finite `f64`. `F64` is the exact value of a finite double: a sign, a
mantissa of at most 53 bits and an exponent, in the canonical form that makes the representation
unique (a zero keeps its sign). `ofFraction` rounds a non-negative fraction to nearest, ties to
even, as `str::parse::<f64>` does.
-/

namespace Pdfv

/-- The canonical mantissa and exponent pairs of finite doubles: `mantissa * 2 ^ exponent`. -/
def F64.Canonical (mantissa : Nat) (exponent : Int) : Prop :=
  mantissa < 2 ^ 53 ∧ -1074 ≤ exponent ∧ exponent ≤ 971 ∧ (2 ^ 52 ≤ mantissa ∨ exponent = -1074)

instance (mantissa : Nat) (exponent : Int) : Decidable (F64.Canonical mantissa exponent) :=
  inferInstanceAs (Decidable (_ ∧ _ ∧ _ ∧ (_ ∨ _)))

/-- A finite `f64`. -/
structure F64 where
  neg : Bool
  mantissa : Nat
  exponent : Int
  canonical : F64.Canonical mantissa exponent
deriving DecidableEq

namespace F64

/-- `n / d` rounded to the nearest integer, ties to even. -/
def roundHalfEven (n d : Nat) : Nat :=
  let q := n / d
  let r := n % d
  if 2 * r < d || (2 * r = d && q % 2 = 0) then q else q + 1

/-- `n / d` scaled by `2 ^ (-e)` and rounded. -/
def scaledRound (n d : Nat) (e : Int) : Nat :=
  if e ≥ 0 then roundHalfEven n (d * 2 ^ e.toNat) else roundHalfEven (n * 2 ^ (-e).toNat) d

/-- The exponent at which `n / d` has a mantissa of 53 bits, or the least one. -/
def exponentOf (n d : Nat) : Int :=
  let l : Int := (Nat.log2 n : Int) - Nat.log2 d
  let below : Bool := if l ≥ 0 then n < d * 2 ^ l.toNat else n * 2 ^ (-l).toNat < d
  max (-1074) (if below then l - 53 else l - 52)

/-- The double nearest to `n / d`; nothing when it overflows to an infinity. -/
def ofFraction (neg : Bool) (n d : Nat) : Option F64 :=
  let e := if n = 0 then -1074 else exponentOf n d
  let q := scaledRound n d e
  let (m, e) := if q = 2 ^ 53 then (2 ^ 52, e + 1) else (q, e)
  if h : Canonical m e then some ⟨neg, m, e, h⟩ else none

end F64

/-- The outcome of `text.parse::<f64>()` on a token of signs, digits and dots. -/
inductive RealToken where
  | invalid
  | infinite
  | finite (value : F64)

/-- The sign of a number token and what follows it. -/
def splitSign (token : Bytes) : Bool × Bytes :=
  match token with
  | 43 :: rest => (false, rest)
  | 45 :: rest => (true, rest)
  | rest => (false, rest)

/-- `str::parse::<f64>` on a token `[+-]?[0-9.]*`: one dot and at least one digit. -/
def parseF64 (token : Bytes) : RealToken :=
  let (neg, body) := splitSign token
  let whole := body.takeWhile isDigit
  let fraction := (body.drop whole.length).drop 1
  if !(whole ++ fraction).all isDigit || (whole ++ fraction).isEmpty then .invalid
  else
    match F64.ofFraction neg (digitsValue (whole ++ fraction)) (10 ^ fraction.length) with
    | some value => .finite value
    | none => .infinite

/-- `str::parse::<i64>` on a token `[+-]?[0-9]*`. -/
def parseI64 (token : Bytes) : Option Int :=
  let (neg, digits) := splitSign token
  if digits.isEmpty then none
  else
    let value : Int := if neg then -(digitsValue digits : Int) else digitsValue digits
    if -(2 ^ 63 : Int) ≤ value ∧ value < 2 ^ 63 then some value else none

end Pdfv
