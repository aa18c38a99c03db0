import Mathlib.Algebra.BigOperators.Group.Finset.Basic
import Mathlib.Algebra.Order.BigOperators.Group.Finset
/-!
# Dates of the calendar

Units counted through consecutive parts of given lengths, and with them the days of the proleptic
Gregorian calendar: the seconds since the start of the year 0 determine the date and the time of day
(`Civil.seconds_injective`).
-/

namespace Calendar

/-! ## Consecutive parts -/

/-- The units in the parts before a part. -/
def before (length : Nat → Nat) (part : Nat) : Nat :=
  ∑ i ∈ Finset.range part, length i

variable {length : Nat → Nat}

/-- The parts up to one end before any later part. -/
theorem before_add_length_le {m n : Nat} (h : m < n) :
    before length m + length m ≤ before length n := by
  calc before length m + length m = before length (m + 1) :=
        (Finset.sum_range_succ length m).symm
    _ ≤ before length n := Finset.sum_le_sum_of_subset (Finset.range_subset_range.mpr h)

/-- A unit is in one part only, at one place. -/
theorem before_add_injective {m n j k : Nat} (hj : j < length m) (hk : k < length n)
    (h : before length m + j = before length n + k) : m = n ∧ j = k := by
  rcases Nat.lt_trichotomy m n with hlt | rfl | hlt
  · have hle : before length m + length m ≤ before length n := before_add_length_le hlt
    omega
  · exact ⟨rfl, Nat.add_left_cancel h⟩
  · have hle : before length n + length n ≤ before length m := before_add_length_le hlt
    omega

/-! ## Years and months -/

/-- Whether a year is a leap year. -/
def isLeap (year : Nat) : Bool :=
  year % 4 = 0 && (year % 100 ≠ 0 || year % 400 = 0)

/-- The days of a year. -/
def yearLength (year : Nat) : Nat :=
  if isLeap year then 366 else 365

/-- The days of a month, counted from 1. -/
def monthLength (year month : Nat) : Nat :=
  if month = 2 then if isLeap year then 29 else 28
  else if month = 4 ∨ month = 6 ∨ month = 9 ∨ month = 11 then 30 else 31

/-- The days of a year before a month. -/
def beforeMonth (year month : Nat) : Nat :=
  before (fun i => monthLength year (i + 1)) (month - 1)

/-- The months make up the year. -/
theorem before_months (year : Nat) :
    before (fun i => monthLength year (i + 1)) 12 = yearLength year := by
  unfold before monthLength yearLength
  generalize isLeap year = leap
  cases leap <;> rfl

/-! ## Dates and times of day -/

/-- A date and a time of day, without an offset. -/
structure Civil where
  year : Nat
  month : Nat
  day : Nat
  hour : Nat
  minute : Nat
  second : Nat
deriving DecidableEq

namespace Civil

variable {c d : Civil}

/-- The date is in the calendar, and the time on the clock. -/
def Valid (c : Civil) : Prop :=
  (1 ≤ c.month ∧ c.month ≤ 12) ∧ (1 ≤ c.day ∧ c.day ≤ monthLength c.year c.month)
    ∧ c.hour < 24 ∧ c.minute < 60 ∧ c.second < 60

instance (c : Civil) : Decidable c.Valid :=
  inferInstanceAs (Decidable (_ ∧ _))

/-- The fields after the year. -/
def fields (c : Civil) : List Nat :=
  [c.month, c.day, c.hour, c.minute, c.second]

/-- The days of the year before the date. -/
def dayOfYear (c : Civil) : Nat :=
  beforeMonth c.year c.month + (c.day - 1)

/-- The days since the start of the year 0. -/
def dayNumber (c : Civil) : Nat :=
  before yearLength c.year + c.dayOfYear

/-- The seconds of the day. -/
def secondOfDay (c : Civil) : Nat :=
  (c.hour * 60 + c.minute) * 60 + c.second

/-- The seconds since the start of the year 0. -/
def seconds (c : Civil) : Nat :=
  c.dayNumber * 86400 + c.secondOfDay

@[simp] theorem length_fields (c : Civil) : c.fields.length = 5 := rfl

theorem eq_of_fields (hyear : c.year = d.year) (hfields : c.fields = d.fields) : c = d := by
  simp only [fields, List.cons.injEq, and_true] at hfields
  obtain ⟨hmonth, hday, hhour, hminute, hsecond⟩ := hfields
  cases c
  cases d
  rw [Civil.mk.injEq]
  exact ⟨hyear, hmonth, hday, hhour, hminute, hsecond⟩

/-- The fields have two digits. -/
theorem Valid.fields_lt (h : c.Valid) : ∀ n ∈ c.fields, n < 100 := by
  obtain ⟨⟨-, hmonth⟩, ⟨-, hday⟩, hhour, hminute, hsecond⟩ := h
  have hlength : monthLength c.year c.month ≤ 31 := by
    unfold monthLength
    split_ifs <;> omega
  intro n hn
  simp only [fields, List.mem_cons, List.not_mem_nil, or_false] at hn
  omega

theorem Valid.day_pred_lt (h : c.Valid) : c.day - 1 < monthLength c.year (c.month - 1 + 1) := by
  obtain ⟨⟨hmonth, -⟩, ⟨hday, hlast⟩, -⟩ := h
  rw [Nat.sub_add_cancel hmonth]
  omega

theorem Valid.dayOfYear_lt (h : c.Valid) : c.dayOfYear < yearLength c.year := by
  have hday := h.day_pred_lt
  have hend : before (fun i => monthLength c.year (i + 1)) (c.month - 1)
      + monthLength c.year (c.month - 1 + 1) ≤ before (fun i => monthLength c.year (i + 1)) 12 :=
    before_add_length_le (by have := h.1; omega)
  rw [before_months] at hend
  unfold dayOfYear beforeMonth
  omega

theorem Valid.secondOfDay_lt (h : c.Valid) : c.secondOfDay < 86400 := by
  obtain ⟨-, -, hhour, hminute, hsecond⟩ := h
  unfold secondOfDay
  omega

/-- Two dates of one day number are the same date. -/
theorem date_injective (hc : c.Valid) (hd : d.Valid) (h : c.dayNumber = d.dayNumber) :
    c.year = d.year ∧ c.month = d.month ∧ c.day = d.day := by
  obtain ⟨hyear, hdays⟩ := before_add_injective hc.dayOfYear_lt hd.dayOfYear_lt h
  have hlast := hd.day_pred_lt
  unfold dayOfYear beforeMonth at hdays
  rw [← hyear] at hdays hlast
  obtain ⟨hmonth, hday⟩ :=
    @before_add_injective (fun i => monthLength c.year (i + 1)) _ _ _ _ hc.day_pred_lt hlast hdays
  obtain ⟨⟨hcmonth, -⟩, ⟨hcday, -⟩, -⟩ := hc
  obtain ⟨⟨hdmonth, -⟩, ⟨hdday, -⟩, -⟩ := hd
  exact ⟨hyear, by omega, by omega⟩

/-- The seconds determine the date and the time. -/
theorem seconds_injective (hc : c.Valid) (hd : d.Valid) (h : c.seconds = d.seconds) : c = d := by
  have hclt := hc.secondOfDay_lt
  have hdlt := hd.secondOfDay_lt
  unfold seconds at h
  obtain ⟨hyear, hmonth, hday⟩ := date_injective hc hd (by omega)
  have htime : c.secondOfDay = d.secondOfDay := by omega
  obtain ⟨-, -, hchour, hcminute, hcsecond⟩ := hc
  obtain ⟨-, -, hdhour, hdminute, hdsecond⟩ := hd
  unfold secondOfDay at htime
  refine eq_of_fields hyear ?_
  simp only [fields, List.cons.injEq, and_true]
  exact ⟨hmonth, hday, by omega, by omega, by omega⟩

end Civil

end Calendar
