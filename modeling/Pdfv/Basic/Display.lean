import Pdfv.Basic.Double
import Mathlib.Data.Nat.Log
/-!
# Displayed numbers

`Double.display` is how an `f64` is displayed: the shortest decimal that reads back as the number,
without an exponent. `display_chars` says which characters occur.
-/

namespace Pdfv

namespace F64

/-- `c * 10 ^ q`, rounded to a double. -/
def ofDecimal (c : Nat) (q : Int) : Option F64 :=
  ofFraction false (c * 10 ^ q.toNat) (10 ^ (-q).toNat)

/-- The place of the first decimal digit: the magnitude is below `10 ^ k` and not below
`10 ^ (k - 1)`. -/
def decimalPlace (x : F64) : Int :=
  let n := x.num.natAbs
  if x.den ≤ n then (Nat.log 10 (n / x.den) : Int) + 1 else -(Nat.log 10 ((x.den - 1) / n) : Int)

/-- The decimal of a number of digits that is nearest to the magnitude among those that read back as
it; of the two that are next to it, the nearer one is tried first. The upper one can be a power of
ten with one digit more. -/
def decimalOf (x : F64) (digits : Nat) : Option (Nat × Int) :=
  let q := x.decimalPlace - digits
  let num := x.num.natAbs * 10 ^ (-q).toNat
  let den := x.den * 10 ^ q.toNat
  let below := num / den
  let candidates := if 2 * (num % den) ≤ den then [below, below + 1] else [below + 1, below]
  (candidates.find? fun c => ofDecimal c q = some { x with neg := false }).map fun c =>
    if c = 10 ^ digits then (1, q + digits) else (c, q)

/-- The shortest decimal that reads back; 17 digits always do. -/
def shortestDecimal (x : F64) : Nat × Int :=
  ((List.range' 1 17).findSome? x.decimalOf).getD (0, 0)

/-- `c * 10 ^ q` in positional notation. -/
def positional (c : Nat) (q : Int) : List Char :=
  let digits := Nat.toDigits 10 c
  if 0 ≤ q then digits ++ List.replicate q.toNat '0'
  else
    let places := (-q).toNat
    if places < digits.length then
      digits.take (digits.length - places) ++ '.' :: digits.drop (digits.length - places)
    else '0' :: '.' :: (List.replicate (places - digits.length) '0' ++ digits)

/-- The magnitude of a finite double as it is displayed. -/
def displayMagnitude (x : F64) : List Char :=
  if x.mantissa = 0 then ['0'] else positional x.shortestDecimal.1 x.shortestDecimal.2

end F64

/-- A double as it is displayed. -/
def Double.display : Double → String
  | finite x => String.ofList (if x.neg then '-' :: x.displayMagnitude else x.displayMagnitude)
  | infinity neg => if neg then "-inf" else "inf"
  | nan => "NaN"

/-- The characters that a displayed number is made of. -/
def isNumberChar (c : Char) : Bool :=
  c.isDigit || ['-', '.', 'i', 'n', 'f', 'N', 'a'].contains c

theorem isNumberChar_of_isDigit {c : Char} (h : c.isDigit = true) : isNumberChar c = true := by
  unfold isNumberChar
  rw [h]
  rfl

/-- The digits of a natural number. -/
theorem toDigits_chars (n : Nat) : ∀ c ∈ Nat.toDigits 10 n, isNumberChar c = true := fun _ hc =>
  isNumberChar_of_isDigit (Nat.isDigit_of_mem_toDigits (by decide) (by decide) hc)

theorem replicate_zero_chars (n : Nat) : ∀ c ∈ List.replicate n '0', isNumberChar c = true := by
  intro c hc
  rw [List.eq_of_mem_replicate hc]
  decide

theorem F64.positional_chars (c : Nat) (q : Int) :
    ∀ d ∈ positional c q, isNumberChar d = true := by
  have hdigits := toDigits_chars c
  intro d hd
  unfold positional at hd
  dsimp only at hd
  split_ifs at hd with hwhole hplaces
  · rcases List.mem_append.mp hd with hd | hd
    · exact hdigits d hd
    · exact replicate_zero_chars _ d hd
  · rcases List.mem_append.mp hd with hd | hd
    · exact hdigits d (List.mem_of_mem_take hd)
    · rcases List.mem_cons.mp hd with rfl | hd
      · decide
      · exact hdigits d (List.mem_of_mem_drop hd)
  · rcases List.mem_cons.mp hd with rfl | hd
    · decide
    · rcases List.mem_cons.mp hd with rfl | hd
      · decide
      · rcases List.mem_append.mp hd with hd | hd
        · exact replicate_zero_chars _ d hd
        · exact hdigits d hd

theorem F64.displayMagnitude_chars (x : F64) :
    ∀ c ∈ x.displayMagnitude, isNumberChar c = true := by
  intro c hc
  unfold displayMagnitude at hc
  split_ifs at hc
  · rw [List.mem_singleton.mp hc]
    decide
  · exact positional_chars _ _ c hc

/-- A displayed number has digits, signs, dots and the letters of its special values. -/
theorem Double.display_chars (x : Double) : ∀ c ∈ x.display.toList, isNumberChar c = true := by
  intro c hc
  cases x with
  | finite x =>
    unfold display at hc
    rw [String.toList_ofList] at hc
    split_ifs at hc
    · rcases List.mem_cons.mp hc with rfl | hc
      · decide
      · exact x.displayMagnitude_chars c hc
    · exact x.displayMagnitude_chars c hc
  | infinity neg =>
    have hall : ∀ neg, ∀ c ∈ (display (infinity neg)).toList, isNumberChar c = true := by
      decide
    exact hall neg c hc
  | nan =>
    have hall : ∀ c ∈ (display nan).toList, isNumberChar c = true := by
      decide
    exact hall c hc

end Pdfv
