import Pdfv.Content.Spelling
/-!
# Numbers among the operands

A token that spells an integer is read as that integer, and one that spells a real number is taken for a
number: what rounds to a finite double is below the bound of `is_number_like` (`F64.ofFraction_lt`).
-/

namespace Pdfv

open Loop Fallible

/-! ## Finite doubles -/

namespace F64

/-- Rounding moves a fraction by at most one half, and away from one half only to an even number. -/
theorem roundHalfEven_bound (n : Nat) {d : Nat} (hd : 0 < d) :
    2 * n ≤ (2 * roundHalfEven n d + 1) * d
      ∧ (roundHalfEven n d % 2 = 1 → 2 * n < (2 * roundHalfEven n d + 1) * d) := by
  have hn : d * (n / d) + n % d = n := Nat.div_add_mod n d
  have hr : n % d < d := Nat.mod_lt n hd
  have hexpand : ∀ q : Nat, (2 * q + 1) * d = 2 * (d * q) + d := by
    intro q
    rw [Nat.add_mul, Nat.one_mul, Nat.mul_assoc, Nat.mul_comm q d]
  unfold roundHalfEven
  dsimp only
  split
  · rename_i hdown
    rw [hexpand]
    simp only [Bool.or_eq_true, Bool.and_eq_true, decide_eq_true_eq] at hdown
    refine ⟨by omega, fun hodd => by omega⟩
  · rw [hexpand, Nat.mul_add, Nat.mul_one]
    exact ⟨by omega, fun _ => by omega⟩

/-- A finite double is at most the largest one. -/
theorem ofFraction_fits {neg : Bool} {n d : Nat} {value : F64} (hzero : n ≠ 0)
    (h : ofFraction neg n d = some value) :
    scaledRound n d (exponentOf n d) ≤ 2 ^ 53 ∧ exponentOf n d ≤ 970
      ∨ scaledRound n d (exponentOf n d) < 2 ^ 53 ∧ exponentOf n d = 971 := by
  unfold ofFraction at h
  rw [if_neg hzero] at h
  dsimp only at h
  by_cases hq : scaledRound n d (exponentOf n d) = 2 ^ 53
  · rw [if_pos hq] at h
    dsimp only at h
    split at h
    · rename_i hcanonical
      have hexponent := hcanonical.2.2.1
      exact .inl ⟨Nat.le_of_eq hq, by omega⟩
    · cases h
  · rw [if_neg hq] at h
    dsimp only at h
    split at h
    · rename_i hcanonical
      have hmantissa := hcanonical.1
      have hexponent := hcanonical.2.2.1
      by_cases hmax : exponentOf n d = 971
      · exact .inr ⟨hmantissa, hmax⟩
      · exact .inl ⟨Nat.le_of_lt hmantissa, by omega⟩
    · cases h

/-- What rounds to a finite double is below the middle between the largest one and `2 ^ 1024`. -/
theorem ofFraction_lt {neg : Bool} {n d : Nat} {value : F64} (hd : 0 < d)
    (h : ofFraction neg n d = some value) : n < (2 ^ 1024 - 2 ^ 970) * d := by
  have hpower : (2 : Nat) ^ 1024 = 2 ^ 54 * 2 ^ 970 := by
    rw [← Nat.pow_add]
  have hbound : (2 ^ 1024 - 2 ^ 970) * d = (2 ^ 54 - 1) * (2 ^ 970 * d) := by
    rw [hpower, ← Nat.mul_assoc, Nat.sub_mul (2 ^ 54) 1, Nat.one_mul]
  rw [hbound]
  have hpositive : ∀ k, 0 < (2 : Nat) ^ k := Nat.two_pow_pos
  have hpos : 0 < 2 ^ 970 * d := Nat.mul_pos (hpositive 970) hd
  by_cases hzero : n = 0
  · omega
  have hfits := ofFraction_fits hzero h
  unfold scaledRound at hfits
  generalize exponentOf n d = e at hfits
  split at hfits
  · rename_i he
    obtain ⟨hround, hodd⟩ := roundHalfEven_bound n (Nat.mul_pos hd (Nat.two_pow_pos e.toNat))
    generalize roundHalfEven n (d * 2 ^ e.toNat) = q at hfits hround hodd
    rcases hfits with ⟨hq, hsmall⟩ | ⟨hq, rfl⟩
    · have hgrow : ∀ k, e.toNat ≤ k → (2 : Nat) ^ e.toNat ≤ 2 ^ k := fun k hk =>
        Nat.pow_le_pow_right Nat.two_pos hk
      have hscale : d * 2 ^ e.toNat ≤ 2 ^ 970 * d := by
        rw [Nat.mul_comm d]
        exact Nat.mul_le_mul_right d (hgrow 970 (by omega))
      have hmul : (2 * q + 1) * (d * 2 ^ e.toNat) ≤ (2 ^ 54 + 1) * (2 ^ 970 * d) :=
        Nat.mul_le_mul (by omega) hscale
      omega
    · have hdouble : ∀ k, d * 2 ^ (k + 1) = 2 * (2 ^ k * d) := by
        intro k
        rw [Nat.pow_succ, Nat.mul_comm (2 ^ k) 2, Nat.mul_left_comm, Nat.mul_comm d]
      have hexponent : (971 : Int).toNat = 970 + 1 := rfl
      have hscale : d * 2 ^ (971 : Int).toNat = 2 * (2 ^ 970 * d) := by
        rw [hexponent]
        exact hdouble 970
      rw [hscale] at hround hodd
      by_cases hlast : q = 2 ^ 53 - 1
      · rw [hlast] at hodd
        have hstrict := hodd (by decide)
        omega
      · have hmul : (2 * q + 1) * (2 * (2 ^ 970 * d)) ≤ (2 ^ 54 - 3) * (2 * (2 ^ 970 * d)) :=
          Nat.mul_le_mul_right _ (by omega)
        omega
  · rename_i he
    obtain ⟨hround, -⟩ := roundHalfEven_bound (n * 2 ^ (-e).toNat) hd
    generalize roundHalfEven (n * 2 ^ (-e).toNat) d = q at hfits hround
    have hq : q ≤ 2 ^ 53 := by omega
    have hgrow : n ≤ n * 2 ^ (-e).toNat := Nat.le_mul_of_pos_right n (Nat.two_pow_pos _)
    have hmul : (2 * q + 1) * d ≤ (2 ^ 54 + 1) * d := Nat.mul_le_mul_right d (by omega)
    have hwide : d ≤ 2 ^ 970 * d := Nat.le_mul_of_pos_left d (hpositive 970)
    omega

end F64

/-! ## Tokens -/

theorem splitSign_sign {sign body : Bytes} (hsign : IsSign sign) (hne : body ≠ [])
    (hbody : ∀ b, body.head? = some b → b ≠ 43 ∧ b ≠ 45) : (splitSign (sign ++ body)).2 = body := by
  obtain ⟨b, more, rfl⟩ := List.exists_cons_of_ne_nil hne
  obtain ⟨hplus, hminus⟩ := hbody b rfl
  rcases hsign with rfl | rfl | rfl
  · unfold splitSign
    split
    · rename_i heq
      exact absurd (List.cons.inj heq).1 hplus
    · rename_i heq
      exact absurd (List.cons.inj heq).1 hminus
    · rfl
  · rfl
  · rfl

theorem isDigit_notSign (b : UInt8) (h : isDigit b = true) : b ≠ 43 ∧ b ≠ 45 := by
  constructor
  · rintro rfl
    exact absurd h (by decide)
  · rintro rfl
    exact absurd h (by decide)

/-- The bytes of a number. -/
def isNumeric (b : UInt8) : Bool :=
  b = 43 || b = 45 || b = 46 || isDigit b

theorem IsSign.numeric {sign : Bytes} (h : IsSign sign) : ∀ b ∈ sign, isNumeric b = true := by
  rcases h with rfl | rfl | rfl
  · exact fun b hb => absurd hb List.not_mem_nil
  · decide
  · decide

theorem isNumeric_digit {b : UInt8} (h : isDigit b = true) : isNumeric b = true := by
  unfold isNumeric
  rw [h, Bool.or_true]

theorem isNumeric_regular (b : UInt8) (h : isNumeric b = true) : isRegularByte b = true := by
  unfold isNumeric at h
  simp only [Bool.or_eq_true, decide_eq_true_eq] at h
  rcases h with ((rfl | rfl) | rfl) | h
  · decide
  · decide
  · decide
  · exact isRegularByte_digit b h

theorem isKeywordOperand_numeric {text : Bytes} (h : ∀ b ∈ text, isNumeric b = true) :
    isKeywordOperand text = false := by
  have hword : ∀ word : Bytes, word.all isNumeric = false → text ≠ word := by
    rintro word hword rfl
    rw [List.all_eq_true.mpr h] at hword
    cases hword
  obtain ⟨htrue, hfalse, hnull, hr⟩ : (utf8 "true").all isNumeric = false
      ∧ (utf8 "false").all isNumeric = false ∧ (utf8 "null").all isNumeric = false
      ∧ (utf8 "R").all isNumeric = false := by
    decide
  unfold isKeywordOperand
  rw [decide_eq_false (hword _ htrue), decide_eq_false (hword _ hfalse),
    decide_eq_false (hword _ hnull), decide_eq_false (hword _ hr)]
  rfl

theorem parseI64_digits_ne {sign digits : Bytes} {value : Int} (hsign : IsSign sign)
    (h : parseI64 (sign ++ digits) = some value) : digits ≠ [] := by
  rintro rfl
  rcases hsign with rfl | rfl | rfl <;> cases h

/-- A spelled integer is read as its value. -/
theorem parseInteger_spelled {sign digits : Bytes} {value : Int} (hsign : IsSign sign)
    (hdigits : ∀ b ∈ digits, isDigit b = true) (h : parseI64 (sign ++ digits) = some value) :
    parseInteger (sign ++ digits) = some value := by
  have hbody : (splitSign (sign ++ digits)).2 = digits := by
    refine splitSign_sign hsign (parseI64_digits_ne hsign h) fun b hb => ?_
    exact isDigit_notSign b (hdigits b (List.mem_of_mem_head? (Option.mem_def.mpr hb)))
  unfold parseInteger
  rw [hbody, List.all_eq_true.mpr hdigits, if_pos rfl, h]

section Real

variable {sign whole fraction : Bytes} {value : F64}

theorem splitSign_real (hsign : IsSign sign) (hwhole : ∀ b ∈ whole, isDigit b = true) :
    (splitSign (sign ++ (whole ++ 46 :: fraction))).2 = whole ++ 46 :: fraction := by
  refine splitSign_sign hsign (List.append_ne_nil_of_right_ne_nil _ (List.cons_ne_nil _ _)) fun b hb => ?_
  cases whole with
  | nil =>
    cases hb
    decide
  | cons c whole =>
    cases hb
    exact isDigit_notSign _ (hwhole _ List.mem_cons_self)

theorem takeWhile_whole (hwhole : ∀ b ∈ whole, isDigit b = true) :
    (whole ++ 46 :: fraction).takeWhile isDigit = whole := by
  rw [List.takeWhile_append_of_pos hwhole, List.takeWhile_cons_of_neg (by decide), List.append_nil]

/-- A spelled real number is no integer. -/
theorem parseInteger_real (hsign : IsSign sign) (hwhole : ∀ b ∈ whole, isDigit b = true) :
    parseInteger (sign ++ (whole ++ 46 :: fraction)) = none := by
  have hdot : (whole ++ 46 :: fraction).all isDigit = false := by
    rw [List.all_append, List.all_cons]
    exact Bool.and_false _
  unfold parseInteger
  rw [splitSign_real hsign hwhole, hdot, if_neg Bool.false_ne_true]

/-- What the digits of a spelled real number are below. -/
theorem parseF64_digits (hsign : IsSign sign) (hwhole : ∀ b ∈ whole, isDigit b = true)
    (h : parseF64 (sign ++ (whole ++ 46 :: fraction)) = .finite value) :
    (whole ++ fraction).isEmpty = false
      ∧ digitsValue (whole ++ fraction) < (2 ^ 1024 - 2 ^ 970) * 10 ^ fraction.length := by
  have hbody := @splitSign_real sign whole fraction hsign hwhole
  unfold parseF64 at h
  generalize splitSign (sign ++ (whole ++ 46 :: fraction)) = split at h hbody
  obtain ⟨neg, body⟩ := split
  dsimp only at h hbody
  rw [hbody, takeWhile_whole hwhole, List.drop_left, List.drop_one, List.tail_cons] at h
  split at h
  · cases h
  · rename_i hvalid
    rw [Bool.or_eq_true, not_or] at hvalid
    refine ⟨Bool.eq_false_iff.mpr hvalid.2, ?_⟩
    split at h
    · rename_i hsome
      exact F64.ofFraction_lt (Nat.pow_pos (by decide)) hsome
    · cases h

theorem decimalIsFinite_fraction {m k : Nat} (h : m < (2 ^ 1024 - 2 ^ 970) * 10 ^ k) :
    decimalIsFinite m (0 - (k : Int)) = true := by
  unfold decimalIsFinite
  generalize 2 ^ 1024 - 2 ^ 970 = bound at h ⊢
  split
  · rfl
  · by_cases hk : k = 0
    · subst hk
      rw [if_pos (by decide)]
      rw [Nat.pow_zero, Nat.mul_one] at h
      have hsame : (0 - ((0 : Nat) : Int)).toNat = 0 := rfl
      rw [hsame, Nat.pow_zero, Nat.mul_one, decide_eq_true_eq]
      exact ⟨by decide, h⟩
    · rw [if_neg (by omega)]
      have hsame : (-(0 - (k : Int))).toNat = k := by omega
      rw [hsame, decide_eq_true_eq]
      exact h

/-- The digits are a finite number with the exponent that was read. -/
def isFiniteWith (whole fraction : Bytes) : Option Int → Bool
  | some e => !(whole ++ fraction).isEmpty
      && decimalIsFinite (digitsValue (whole ++ fraction)) (e - fraction.length)
  | none => false

/-- A spelled real number is taken for a number. -/
theorem isNumberLike_real (hsign : IsSign sign) (hwhole : ∀ b ∈ whole, isDigit b = true)
    (hfraction : ∀ b ∈ fraction, isDigit b = true)
    (h : parseF64 (sign ++ (whole ++ 46 :: fraction)) = .finite value) :
    isNumberLike (sign ++ (whole ++ 46 :: fraction)) = true := by
  obtain ⟨hne, hlt⟩ := parseF64_digits hsign hwhole h
  have hbody := @splitSign_real sign whole fraction hsign hwhole
  unfold isNumberLike
  generalize splitSign (sign ++ (whole ++ 46 :: fraction)) = split at hbody
  obtain ⟨neg, body⟩ := split
  dsimp only at hbody ⊢
  rw [hbody, takeWhile_whole hwhole, List.drop_left]
  change isFiniteWith whole (fraction.takeWhile isDigit)
    (exponentPart (fraction.dropWhile isDigit)) = true
  rw [List.takeWhile_eq_self_iff.mpr hfraction, List.dropWhile_eq_nil_iff.mpr hfraction]
  have hexponent : exponentPart [] = some 0 := rfl
  rw [hexponent]
  unfold isFiniteWith
  rw [hne]
  exact decimalIsFinite_fraction hlt

end Real

end Pdfv
