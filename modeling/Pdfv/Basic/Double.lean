import Pdfv.Basic.F64
/-!
# Binary64 arithmetic

`Double` adds the infinities and NaN to the finite doubles of `F64`. An operation computes the exact
rational result and rounds it once, to nearest with ties to even.
-/

namespace Pdfv

/-- An `f64`; the payload of a NaN is left out. -/
inductive Double where
  | finite (value : F64)
  | infinity (neg : Bool)
  | nan
deriving DecidableEq

namespace F64

/-- The numerator of the exact value, over the denominator `den`. -/
def num (x : F64) : Int :=
  let magnitude : Int := x.mantissa * 2 ^ x.exponent.toNat
  if x.neg then -magnitude else magnitude

/-- The denominator of the exact value. -/
def den (x : F64) : Nat :=
  2 ^ (-x.exponent).toNat

end F64

namespace Double

/-- The double nearest to `num / den`; `negZero` is the sign of a zero result. -/
def ofRational (negZero : Bool) (num : Int) (den : Nat) : Double :=
  let neg := if num = 0 then negZero else decide (num < 0)
  match F64.ofFraction neg num.natAbs den with
  | some value => finite value
  | none => infinity neg

/-- `f64::from(value)` for an integer. -/
def ofInt (value : Int) : Double :=
  ofRational false value 1

/-- `f64::is_finite`. -/
def isFinite : Double → Bool
  | finite _ => true
  | _ => false

/-- `f64::is_sign_negative`. -/
def neg : Double → Bool
  | finite value => value.neg
  | infinity sign => sign
  | nan => false

/-- `f64::abs`. -/
def abs : Double → Double
  | finite value => finite { value with neg := false }
  | infinity _ => infinity false
  | nan => nan

/-- `-x`. -/
def negate : Double → Double
  | finite value => finite { value with neg := !value.neg }
  | infinity sign => infinity (!sign)
  | nan => nan

/-- `x + y`. -/
def add : Double → Double → Double
  | finite x, finite y =>
    ofRational (x.neg && y.neg) (x.num * y.den + y.num * x.den) (x.den * y.den)
  | infinity a, infinity b => if a = b then infinity a else nan
  | infinity a, finite _ => infinity a
  | finite _, infinity b => infinity b
  | _, _ => nan

/-- `x - y`. -/
def sub (x y : Double) : Double :=
  add x y.negate

/-- Whether the value is a zero of either sign. -/
def isZero : Double → Bool
  | finite value => value.mantissa = 0
  | _ => false

/-- `x * y`. -/
def mul : Double → Double → Double
  | finite x, finite y => ofRational (x.neg != y.neg) (x.num * y.num) (x.den * y.den)
  | nan, _ => nan
  | _, nan => nan
  | x, y => if x.isZero || y.isZero then nan else infinity (x.neg != y.neg)

/-- `x / y`. -/
def div : Double → Double → Double
  | finite x, finite y =>
    if y.mantissa = 0 then if x.mantissa = 0 then nan else infinity (x.neg != y.neg)
    else
      let sign : Int := if y.neg then -1 else 1
      ofRational (x.neg != y.neg) (sign * x.num * y.den) (x.den * y.num.natAbs)
  | infinity a, finite y => infinity (a != y.neg)
  | finite x, infinity b => ofRational (x.neg != b) 0 1
  | _, _ => nan

/-- `x % y`: the remainder has the sign of `x`. -/
def rem : Double → Double → Double
  | finite x, finite y =>
    if y.mantissa = 0 then nan
    else ofRational x.neg ((x.num * y.den).tmod (y.num * x.den)) (x.den * y.den)
  | finite x, infinity _ => finite x
  | _, _ => nan

/-- `x < y`. -/
def lt : Double → Double → Bool
  | finite x, finite y => decide (x.num * y.den < y.num * x.den)
  | infinity a, infinity b => a && !b
  | infinity a, finite _ => a
  | finite _, infinity b => !b
  | _, _ => false

/-- `x <= y`. -/
def le : Double → Double → Bool
  | finite x, finite y => decide (x.num * y.den ≤ y.num * x.den)
  | infinity a, infinity b => a || !b
  | infinity a, finite _ => a
  | finite _, infinity b => !b
  | _, _ => false

/-- `x == y`. -/
def eq (x y : Double) : Bool :=
  le x y && le y x

/-- `f64::EPSILON`. -/
def epsilon : Double :=
  ofRational false 1 (2 ^ 52)

/-- `x.fract().abs() <= f64::EPSILON` for a finite `x`: the distance to the integer below in
magnitude is at most `2 ^ -52`. -/
def isNearlyIntegral (x : F64) : Bool :=
  decide (x.num.natAbs % x.den * 2 ^ 52 ≤ x.den)

/-- The integer that `format!("{x:.0}")` prints. -/
def roundToInt (x : F64) : Int :=
  let magnitude : Int := F64.roundHalfEven x.num.natAbs x.den
  if x.neg then -magnitude else magnitude

end Double

end Pdfv
