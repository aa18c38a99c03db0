import Pdfv.Basic.Calendar
import Pdfv.Basic.Numerals
import Pdfv.Basic.Rows
/-!
# Written dates

The dates of PDF and of ISO 8601 are written with the same numbers: the year, the fields after it as
far as they are known, and the hours and minutes of an offset. Read as a row of fields, without marks
between them, the numbers of an offset stand for fields that are left out (`spelled`).
`SpellsAs.instant_iff` and `SpellsAs.madeUp_iff` say when two dates that spell the same fields are the
same instant.
-/

namespace Pdfv

/-! ## Dates and their texts -/

/-- How the offset from UTC is written. -/
inductive WrittenOffset where
  | absent
  | utc
  | numeric (negative : Bool) (hours : Fin 24) (minutes : Fin 60)
deriving DecidableEq

/-- A date as it is written: of the fields after the year only the first ones may be there, and those
that are left out have their defaults. -/
structure WrittenDate where
  civil : Calendar.Civil
  /-- The number of fields after the year. -/
  precision : Nat
  offset : WrittenOffset
  valid : civil.Valid
  year_lt : civil.year < 10000
  precision_le : precision ≤ 5
  defaults : civil.fields.drop precision = [1, 1, 0, 0, 0].drop precision

/-- The digits of a number. -/
def numeral (width n : Nat) : List Char :=
  (Positional.digits 10 width n).map Nat.digitChar

/-- The apostrophe. -/
def apostrophe : Char :=
  Char.ofNat 0x27

/-- The sign of an offset. -/
def offsetSign (negative : Bool) : Char :=
  if negative then '-' else '+'

namespace WrittenOffset

/-- The minutes ahead of UTC; an offset that is left out is zero. -/
def ahead : WrittenOffset → Int
  | absent | utc => 0
  | numeric negative hours minutes =>
    (if negative then -1 else 1) * (60 * (hours.val : Int) + minutes.val)

/-- The numbers that are written. -/
def numbers : WrittenOffset → List Nat
  | absent | utc => []
  | numeric _ hours minutes => [hours.val, minutes.val]

/-- The offset is written in digits. -/
def isNumeric : WrittenOffset → Bool
  | absent | utc => false
  | numeric _ _ _ => true

/-- The offset of a PDF date. -/
def pdfText : WrittenOffset → List Char
  | absent => []
  | utc => ['Z']
  | numeric negative hours minutes =>
    offsetSign negative :: numeral 2 hours.val ++ apostrophe :: numeral 2 minutes.val ++ [apostrophe]

/-- The offset of an XMP date. -/
def xmpText : WrittenOffset → List Char
  | absent => []
  | utc => ['Z']
  | numeric negative hours minutes =>
    offsetSign negative :: numeral 2 hours.val ++ ':' :: numeral 2 minutes.val

end WrittenOffset

namespace WrittenDate

variable (d : WrittenDate)

/-- The fields that are written after the year. -/
def written : List Nat :=
  d.civil.fields.take d.precision

/-- The seconds from the start of the year 0 in UTC. -/
def instant : Int :=
  d.civil.seconds - 60 * d.offset.ahead

/-- `D:YYYYMMDDHHmmSS` as far as it is written, with `Z`, `+HH'mm'` or `-HH'mm'`. -/
def pdfText : String :=
  String.ofList ('D' :: ':' :: (numeral 4 d.civil.year ++ d.written.flatMap (numeral 2)
    ++ d.offset.pdfText))

/-- `YYYY-MM-DDTHH:mm:SS` as far as it is written, with `Z`, `+HH:mm` or `-HH:mm`. -/
def xmpText : String :=
  String.ofList (numeral 4 d.civil.year
    ++ (List.zipWith (fun separator n => separator :: numeral 2 n) ['-', '-', 'T', ':', ':']
      d.written).flatten
    ++ d.offset.xmpText)

/-- The numbers that are written, of two digits each. -/
def numbers : List Nat :=
  Positional.digits 100 2 d.civil.year ++ (d.written ++ d.offset.numbers)

/-- The fields as the first fourteen digits spell them: the digits of the offset stand for fields that
are left out. -/
def spelled : List Nat :=
  (d.written ++ d.offset.numbers).take 5

/-- Two dates spell the same year and the same fields. -/
def SpellsAs (d e : WrittenDate) : Prop :=
  d.civil.year = e.civil.year ∧ d.spelled = e.spelled

end WrittenDate

/-! ## Digits -/

theorem isDigit_numeral {width n : Nat} : ∀ c ∈ numeral width n, c.isDigit = true := by
  intro c hc
  obtain ⟨digit, hdigit, rfl⟩ := List.mem_map.mp hc
  rw [Nat.isDigit_digitChar, decide_eq_true_iff]
  exact Positional.digit_lt (by decide) hdigit

@[simp] theorem filter_numeral (width n : Nat) :
    (numeral width n).filter Char.isDigit = numeral width n :=
  List.filter_eq_self.mpr isDigit_numeral

@[simp] theorem length_numeral (width n : Nat) : (numeral width n).length = width := by
  unfold numeral
  rw [List.length_map, Positional.length_digits]

/-- A numeral determines the number. -/
theorem numeral_injective {width m n : Nat} (hm : m < 10 ^ width) (hn : n < 10 ^ width)
    (h : numeral width m = numeral width n) : m = n := by
  have hdigits : ∀ k, (numeral width k).map (fun c => c.toNat - 48) = Positional.digits 10 width k := by
    intro k
    unfold numeral
    rw [List.map_map, List.map_congr_left (g := id), List.map_id]
    intro digit hdigit
    show (Nat.digitChar digit).toNat - 48 = digit
    rw [Nat.toNat_digitChar_of_lt_ten (Positional.digit_lt (by decide) hdigit),
      Nat.add_sub_cancel_left]
  have heq := congrArg (List.map fun c => c.toNat - 48) h
  rw [hdigits, hdigits] at heq
  rw [← Positional.value_digits_of_lt hm, heq, Positional.value_digits_of_lt hn]

/-- The year is written in two numbers of two digits. -/
theorem numeral_four (n : Nat) :
    numeral 4 n = (Positional.digits 100 2 n).flatMap (numeral 2) := by
  have h : Positional.digits 10 (2 * 2) n
      = (Positional.digits (10 ^ 2) 2 n).flatMap (Positional.digits 10 2) :=
    Positional.digits_pow 2 2 n
  unfold numeral
  rw [h, List.map_flatMap]
  rfl

/-- The two digits of each number. -/
theorem numeral_rows (l : List Nat) : Rows.Uniform 2 (l.map (numeral 2)) := by
  intro row hrow
  obtain ⟨n, -, rfl⟩ := List.mem_map.mp hrow
  exact length_numeral 2 n

theorem take_flatMap_numeral (l : List Nat) (count : Nat) :
    (l.flatMap (numeral 2)).take (count * 2) = (l.take count).flatMap (numeral 2) := by
  rw [List.flatMap_def, (numeral_rows l).take_flatten, ← List.map_take, ← List.flatMap_def]

/-- The digits determine the numbers. -/
theorem flatMap_numeral_injective {l m : List Nat} (hl : ∀ n ∈ l, n < 100) (hm : ∀ n ∈ m, n < 100)
    (h : l.flatMap (numeral 2) = m.flatMap (numeral 2)) : l = m := by
  rw [List.flatMap_def, List.flatMap_def] at h
  have hrows := (numeral_rows l).eq_of_flatten (by decide) (numeral_rows m) h
  have hlength : l.length = m.length := by
    rw [← List.length_map (numeral 2), hrows, List.length_map]
  refine List.ext_getElem hlength fun i hi hi' => ?_
  have hrow : numeral 2 l[i] = numeral 2 m[i] := by
    rw [← List.getElem_map (numeral 2) (h := by simpa using hi),
      ← List.getElem_map (numeral 2) (h := by simpa using hi')]
    exact List.getElem_of_eq hrows _
  exact numeral_injective (hl _ (List.getElem_mem hi)) (hm _ (List.getElem_mem hi')) hrow

@[simp] theorem isDigit_offsetSign (negative : Bool) : (offsetSign negative).isDigit = false := by
  cases negative <;> rfl

@[simp] theorem isDigit_apostrophe : apostrophe.isDigit = false := rfl

theorem WrittenOffset.filter_pdfText (offset : WrittenOffset) :
    offset.pdfText.filter Char.isDigit = offset.numbers.flatMap (numeral 2) := by
  cases offset with
  | absent => rfl
  | utc => rfl
  | numeric negative hours minutes => simp [pdfText, numbers]

theorem WrittenOffset.filter_xmpText (offset : WrittenOffset) :
    offset.xmpText.filter Char.isDigit = offset.numbers.flatMap (numeral 2) := by
  have hcolon : (':' : Char).isDigit = false := rfl
  cases offset with
  | absent => rfl
  | utc => rfl
  | numeric negative hours minutes => simp [xmpText, numbers, hcolon]

/-- The separators have no digits. -/
theorem filter_separated (separators : List Char) (hseparators : ∀ c ∈ separators, c.isDigit = false)
    (l : List Nat) (hlength : l.length ≤ separators.length) :
    (List.zipWith (fun separator n => separator :: numeral 2 n) separators l).flatten.filter
      Char.isDigit = l.flatMap (numeral 2) := by
  induction l generalizing separators with
  | nil => simp
  | cons n l ih =>
    cases separators with
    | nil => cases hlength
    | cons separator separators =>
      obtain ⟨hfirst, hrest⟩ := List.forall_mem_cons.mp hseparators
      rw [List.zipWith_cons_cons, List.flatten_cons, List.filter_append, List.flatMap_cons,
        ih separators hrest (Nat.le_of_succ_le_succ hlength), List.filter_cons, hfirst]
      simp

namespace WrittenDate

variable (d : WrittenDate)

theorem length_written : d.written.length = d.precision := by
  unfold written
  rw [List.length_take, Calendar.Civil.length_fields, Nat.min_eq_left d.precision_le]

theorem numbers_lt : ∀ n ∈ d.numbers, n < 100 := by
  intro n hn
  unfold numbers at hn
  rw [List.mem_append, List.mem_append] at hn
  rcases hn with hyear | hfield | hoffset
  · exact Positional.digit_lt (by decide) hyear
  · exact d.valid.fields_lt n (List.mem_of_mem_take hfield)
  · cases hd : d.offset with
    | absent | utc =>
      rw [hd] at hoffset
      cases hoffset
    | numeric negative hours minutes =>
      rw [hd] at hoffset
      simp only [WrittenOffset.numbers, List.mem_cons, List.not_mem_nil, or_false] at hoffset
      omega

theorem take_numbers :
    d.numbers.take 7 = Positional.digits 100 2 d.civil.year ++ d.spelled := by
  unfold numbers spelled
  rw [List.take_append, Positional.length_digits,
    List.take_of_length_le (by rw [Positional.length_digits]; decide)]

/-- The first fourteen digits are equal when the dates spell the same fields. -/
theorem take_digits_eq_iff (e : WrittenDate) :
    (d.numbers.flatMap (numeral 2)).take 14 = (e.numbers.flatMap (numeral 2)).take 14
      ↔ d.SpellsAs e := by
  rw [take_flatMap_numeral _ 7, take_flatMap_numeral _ 7]
  have hyear : Positional.digits 100 2 d.civil.year = Positional.digits 100 2 e.civil.year
      ↔ d.civil.year = e.civil.year := by
    constructor
    · intro h
      rw [← @Positional.value_digits_of_lt 100 2 _ d.year_lt, h,
        @Positional.value_digits_of_lt 100 2 _ e.year_lt]
    · exact fun h => by rw [h]
  constructor
  · intro h
    have hnumbers := flatMap_numeral_injective
      (fun n hn => d.numbers_lt n (List.mem_of_mem_take hn))
      (fun n hn => e.numbers_lt n (List.mem_of_mem_take hn)) h
    rw [take_numbers, take_numbers] at hnumbers
    obtain ⟨hyears, hspelled⟩ := List.append_inj hnumbers (by
      rw [Positional.length_digits, Positional.length_digits])
    exact ⟨hyear.mp hyears, hspelled⟩
  · rintro ⟨hyears, hspelled⟩
    rw [take_numbers, take_numbers, hyear.mpr hyears, hspelled]

/-- A PDF date is ASCII. -/
theorem pdfText_ascii : ∀ c ∈ d.pdfText.toList, c.toNat < 128 := by
  have hdigits : ∀ width n, ∀ c ∈ numeral width n, c.toNat < 128 := by
    intro width n c hc
    have hnine := (Char.isDigit_iff_toNat.mp (isDigit_numeral c hc)).2
    exact Nat.lt_of_le_of_lt hnine (by decide)
  have hoffset : ∀ c ∈ d.offset.pdfText, c.toNat < 128 := by
    cases d.offset with
    | absent => exact nofun
    | utc => decide
    | numeric negative hours minutes =>
      simp only [WrittenOffset.pdfText, List.cons_append, List.append_assoc,
        List.forall_mem_cons, List.forall_mem_append]
      refine ⟨by cases negative <;> decide, hdigits 2 _, by decide, hdigits 2 _, by decide, nofun⟩
  unfold pdfText
  rw [String.toList_ofList]
  simp only [List.forall_mem_cons, List.forall_mem_append]
  refine ⟨by decide, by decide, ⟨hdigits 4 _, ?_⟩, hoffset⟩
  intro c hc
  obtain ⟨n, -, hn⟩ := List.mem_flatMap.mp hc
  exact hdigits 2 n c hn

end WrittenDate

/-! ## Instants -/

theorem WrittenOffset.length_numbers (offset : WrittenOffset) :
    offset.numbers.length = if offset.isNumeric then 2 else 0 := by
  cases offset <;> rfl

/-- The numbers of an offset have no sign: they are those of any equal offset in digits. -/
theorem WrittenOffset.numbers_eq {a b : WrittenOffset} (hahead : a.ahead = b.ahead)
    (hnumeric : a.isNumeric = b.isNumeric) : a.numbers = b.numbers := by
  cases a with
  | absent | utc =>
    cases b with
    | absent | utc => rfl
    | numeric => cases hnumeric
  | numeric negative hours minutes =>
    cases b with
    | absent | utc => cases hnumeric
    | numeric negative' hours' minutes' =>
      simp only [ahead] at hahead
      simp only [numbers, List.cons.injEq, and_true]
      split_ifs at hahead <;> omega

theorem WrittenOffset.ahead_of_not_isNumeric {offset : WrittenOffset} (h : offset.isNumeric = false) :
    offset.ahead = 0 := by
  cases offset with
  | absent | utc => rfl
  | numeric => cases h

/-- The sign of an offset in digits. -/
theorem WrittenOffset.ahead_cases {offset : WrittenOffset} (h : offset.isNumeric = true) :
    ∃ hours minutes : Nat, offset.numbers = [hours, minutes] ∧ hours < 24 ∧ minutes < 60
      ∧ (offset.ahead = 60 * hours + minutes ∨ offset.ahead = -(60 * hours + minutes)) := by
  cases offset with
  | absent | utc => cases h
  | numeric negative hours minutes =>
    refine ⟨hours, minutes, rfl, hours.isLt, minutes.isLt, ?_⟩
    cases negative
    · exact .inl (Int.one_mul _)
    · exact .inr (Int.neg_one_mul _)

namespace WrittenDate

variable {d e : WrittenDate}

theorem spelled_eq (d : WrittenDate) :
    d.spelled = d.written ++ d.offset.numbers.take (5 - d.precision) := by
  unfold spelled
  rw [List.take_append, length_written, List.take_of_length_le]
  rw [length_written]
  exact d.precision_le

theorem civil_eq (hyear : d.civil.year = e.civil.year) (hprecision : d.precision = e.precision)
    (hwritten : d.written = e.written) : d.civil = e.civil := by
  refine Calendar.Civil.eq_of_fields hyear ?_
  calc d.civil.fields = d.written ++ d.civil.fields.drop d.precision :=
        (List.take_append_drop _ _).symm
    _ = e.written ++ e.civil.fields.drop e.precision := by
      rw [d.defaults, e.defaults, hprecision, hwritten]
    _ = e.civil.fields := List.take_append_drop _ _

/-- Dates of one precision that spell the same fields differ in their offsets only. -/
theorem SpellsAs.civil_eq (h : d.SpellsAs e) (hprecision : d.precision = e.precision) :
    d.civil = e.civil := by
  obtain ⟨hyear, hspelled⟩ := h
  rw [spelled_eq, spelled_eq] at hspelled
  have hlengths : d.written.length = e.written.length := by
    rw [length_written, length_written, hprecision]
  exact WrittenDate.civil_eq hyear hprecision (List.append_inj hspelled hlengths).1

/-- Two dates are written alike: to the same precision with equal offsets, and to the second or with
digits of the offset in both or in neither. -/
def WrittenAlike (d e : WrittenDate) : Prop :=
  d.precision = e.precision ∧ d.offset.ahead = e.offset.ahead
    ∧ (d.precision = 5 ∨ d.offset.isNumeric = e.offset.isNumeric)

/-- The offset of the first date, read as fields that the second one has, makes up for the difference
between their offsets. -/
def MadeUpBy (d e : WrittenDate) : Prop :=
  (d.precision = 2 ∧ d.offset.ahead ≤ 0)
    ∨ (d.precision = 3 ∧ e.civil.second = 0
      ∧ e.offset.ahead = d.offset.ahead + e.civil.minute)
    ∨ (d.precision = 4 ∧ e.civil.second = 0 ∧ e.offset.ahead = d.offset.ahead)

/-- The digits tell dates apart that are written alike. -/
theorem WrittenAlike.spellsAs_iff (h : d.WrittenAlike e) :
    d.SpellsAs e ↔ d.instant = e.instant := by
  obtain ⟨hprecision, hahead, hshown⟩ := h
  constructor
  · intro hspells
    unfold instant
    rw [hspells.civil_eq hprecision, hahead]
  · intro hinstant
    unfold instant at hinstant
    have hcivil : d.civil = e.civil :=
      Calendar.Civil.seconds_injective d.valid e.valid (by omega)
    refine ⟨congrArg Calendar.Civil.year hcivil, ?_⟩
    have hwritten : d.written = e.written := by
      unfold written
      rw [hcivil, hprecision]
    rw [spelled_eq, spelled_eq, hwritten, ← hprecision]
    rcases hshown with hsecond | hnumeric
    · rw [hsecond, Nat.sub_self, List.take_zero, List.take_zero]
    · rw [WrittenOffset.numbers_eq hahead hnumeric]

/-- Of dates of one precision that spell the same fields those are one instant that are written
alike. -/
theorem SpellsAs.instant_iff (h : d.SpellsAs e) (hprecision : d.precision = e.precision) :
    d.instant = e.instant ↔ d.WrittenAlike e := by
  have hcivil := h.civil_eq hprecision
  constructor
  · intro hinstant
    unfold instant at hinstant
    rw [hcivil] at hinstant
    refine ⟨hprecision, by omega, ?_⟩
    have hlength := congrArg List.length h.2
    rw [spelled_eq, spelled_eq, List.length_append, List.length_append, List.length_take,
      List.length_take, length_written, length_written, WrittenOffset.length_numbers,
      WrittenOffset.length_numbers] at hlength
    have hlast := e.precision_le
    rw [hprecision] at hlength ⊢
    cases hd : d.offset.isNumeric <;> cases he : e.offset.isNumeric <;>
      simp [hd, he] at hlength ⊢ <;> omega
  · exact fun halike => halike.spellsAs_iff.mp h

/-- Where the second date has more fields, digits of the first offset stand for them. -/
theorem SpellsAs.precision_cases (h : d.SpellsAs e) (hless : d.precision < e.precision) :
    d.offset.isNumeric = true
      ∧ ((d.precision ≤ 2 ∧ e.precision = d.precision + 2 ∧ e.offset.isNumeric = false)
        ∨ (d.precision = 3 ∧ (e.precision = 4 ∧ e.offset.isNumeric = true ∨ e.precision = 5))
        ∨ (d.precision = 4 ∧ e.precision = 5)) := by
  have hlength := congrArg List.length h.2
  rw [spelled_eq, spelled_eq, List.length_append, List.length_append, List.length_take,
    List.length_take, length_written, length_written, WrittenOffset.length_numbers,
    WrittenOffset.length_numbers] at hlength
  have hlast := e.precision_le
  cases hd : d.offset.isNumeric <;> cases he : e.offset.isNumeric <;>
    simp [hd, he] at hlength ⊢ <;> omega

/-- The fields of the second date are what the first one spells. -/
theorem SpellsAs.fields_eq (h : d.SpellsAs e) :
    e.civil.fields = (d.written ++ d.offset.numbers).take e.precision
      ++ [1, 1, 0, 0, 0].drop e.precision := by
  have hwritten : e.written = (d.written ++ d.offset.numbers).take e.precision := by
    calc e.written = e.spelled.take e.precision := by
          rw [spelled_eq, List.take_left' e.length_written]
      _ = (d.written ++ d.offset.numbers).take e.precision := by
          rw [← h.2]
          unfold spelled
          rw [List.take_take, Nat.min_eq_left e.precision_le]
  rw [← e.defaults, ← hwritten]
  exact (List.take_append_drop _ _).symm

/-- Hours and minutes of an offset in place of a month and a day, or of a day and an hour, are another
instant. -/
theorem SpellsAs.instant_ne (h : d.SpellsAs e) (hnumeric : d.offset.isNumeric = true)
    (hd : d.precision ≤ 1) (he : e.precision = d.precision + 2) (hutc : e.offset.ahead = 0) :
    d.instant ≠ e.instant := by
  obtain ⟨hours, minutes, hnumbers, hhours, hminutes, hahead⟩ :=
    WrittenOffset.ahead_cases hnumeric
  have hfields := h.fields_eq
  have hdefaults := d.defaults
  have hvalid := e.valid
  have hfirst : Calendar.beforeMonth e.civil.year 1 = 0 := rfl
  unfold instant Calendar.Civil.seconds Calendar.Civil.secondOfDay Calendar.Civil.dayNumber
    Calendar.Civil.dayOfYear
  rw [hutc, h.1]
  rw [he, hnumbers] at hfields
  obtain hyear | hmonth : d.precision = 0 ∨ d.precision = 1 := by omega
  · simp only [hyear, written, Calendar.Civil.fields, List.take_zero, List.nil_append,
      List.take_succ_cons, List.drop_succ_cons, List.drop_zero, List.cons_append, List.cons.injEq,
      and_true, Nat.zero_add] at hfields hdefaults
    obtain ⟨-, hday', hhour', hminute', hsecond'⟩ := hfields
    obtain ⟨hmonth, hday, hhour, hminute, hsecond⟩ := hdefaults
    have hvalid := hvalid.2.1
    rw [hmonth, hfirst]
    omega
  · simp only [hmonth, written, Calendar.Civil.fields, List.take_zero, List.nil_append,
      List.take_succ_cons, List.drop_succ_cons, List.drop_zero, List.cons_append, List.cons.injEq,
      and_true, Nat.reduceAdd] at hfields hdefaults
    obtain ⟨hmonth', hday', hhour', hminute', hsecond'⟩ := hfields
    obtain ⟨hday, hhour, hminute, hsecond⟩ := hdefaults
    have hvalid := hvalid.2
    rw [hmonth']
    omega
/-- An offset in place of an hour and a minute is the time that it takes off. -/
theorem SpellsAs.instant_iff_of_hour (h : d.SpellsAs e) (hnumeric : d.offset.isNumeric = true)
    (hd : d.precision = 2) (he : e.precision = 4) (hutc : e.offset.ahead = 0) :
    d.instant = e.instant ↔ d.offset.ahead ≤ 0 := by
  obtain ⟨hours, minutes, hnumbers, hhours, hminutes, hahead⟩ :=
    WrittenOffset.ahead_cases hnumeric
  have hfields := h.fields_eq
  have hdefaults := d.defaults
  simp only [hd, he, hnumbers, written, Calendar.Civil.fields, List.take_zero, List.nil_append,
    List.take_succ_cons, List.drop_succ_cons, List.drop_zero, List.cons_append, List.cons.injEq,
    and_true] at hfields hdefaults
  obtain ⟨hmonth', hday', hhour', hminute', hsecond'⟩ := hfields
  obtain ⟨hhour, hminute, hsecond⟩ := hdefaults
  unfold instant Calendar.Civil.seconds Calendar.Civil.secondOfDay Calendar.Civil.dayNumber
    Calendar.Civil.dayOfYear
  rw [hutc, h.1, hmonth', hday']
  omega

/-- The hours of an offset in place of a minute, and its minutes in place of a second. -/
theorem SpellsAs.instant_iff_of_minute (h : d.SpellsAs e) (hnumeric : d.offset.isNumeric = true)
    (hd : d.precision = 3) (he : e.precision = 4 ∨ e.precision = 5) :
    d.instant = e.instant
      ↔ e.civil.second = 0 ∧ e.offset.ahead = d.offset.ahead + e.civil.minute := by
  obtain ⟨hours, minutes, hnumbers, hhours, hminutes, hahead⟩ :=
    WrittenOffset.ahead_cases hnumeric
  have hfields := h.fields_eq
  have hdefaults := d.defaults
  have hlast := e.valid.2.2.2.2
  have hdate : e.civil.month = d.civil.month ∧ e.civil.day = d.civil.day
      ∧ e.civil.hour = d.civil.hour := by
    rcases he with he | he <;>
      simp only [hd, he, hnumbers, written, Calendar.Civil.fields, List.take_zero, List.nil_append,
        List.take_succ_cons, List.drop_succ_cons, List.drop_zero, List.cons_append,
        List.cons.injEq] at hfields <;>
      exact ⟨hfields.1, hfields.2.1, hfields.2.2.1⟩
  simp only [hd, Calendar.Civil.fields, List.drop_succ_cons, List.drop_zero, List.cons.injEq,
    and_true] at hdefaults
  obtain ⟨hminute, hsecond⟩ := hdefaults
  unfold instant Calendar.Civil.seconds Calendar.Civil.secondOfDay Calendar.Civil.dayNumber
    Calendar.Civil.dayOfYear
  rw [h.1, hdate.1, hdate.2.1, hdate.2.2]
  omega

/-- The hours of an offset in place of a second. -/
theorem SpellsAs.instant_iff_of_second (h : d.SpellsAs e) (hnumeric : d.offset.isNumeric = true)
    (hd : d.precision = 4) (he : e.precision = 5) :
    d.instant = e.instant ↔ e.civil.second = 0 ∧ e.offset.ahead = d.offset.ahead := by
  obtain ⟨hours, minutes, hnumbers, hhours, hminutes, hahead⟩ :=
    WrittenOffset.ahead_cases hnumeric
  have hfields := h.fields_eq
  have hdefaults := d.defaults
  simp only [hd, he, hnumbers, written, Calendar.Civil.fields, List.take_zero, List.nil_append,
    List.take_succ_cons, List.drop_succ_cons, List.drop_zero, List.cons_append, List.cons.injEq,
    List.append_nil, and_true] at hfields hdefaults
  obtain ⟨hmonth', hday', hhour', hminute', hsecond'⟩ := hfields
  unfold instant Calendar.Civil.seconds Calendar.Civil.secondOfDay Calendar.Civil.dayNumber
    Calendar.Civil.dayOfYear
  rw [h.1, hmonth', hday']
  omega

theorem SpellsAs.madeUp_iff (h : d.SpellsAs e) (hless : d.precision < e.precision) :
    d.instant = e.instant ↔ d.MadeUpBy e := by
  unfold MadeUpBy
  obtain ⟨hnumeric, ⟨hd, he, hutc⟩ | ⟨hd, he⟩ | ⟨hd, he⟩⟩ := h.precision_cases hless
  · have hahead := WrittenOffset.ahead_of_not_isNumeric hutc
    obtain hdate | hday : d.precision ≤ 1 ∨ d.precision = 2 := by omega
    · have hne := h.instant_ne hnumeric hdate he hahead
      constructor
      · exact fun heq => absurd heq hne
      · omega
    · rw [h.instant_iff_of_hour hnumeric hday (by omega) hahead]
      omega
  · rw [h.instant_iff_of_minute hnumeric hd (he.imp And.left id)]
    omega
  · rw [h.instant_iff_of_second hnumeric hd he]
    omega

end WrittenDate

end Pdfv
