import Mathlib.Algebra.Order.Ring.Nat
import Mathlib.Data.List.Induction
import Mathlib.Data.Nat.ModEq
import Mathlib.Tactic.Ring
/-!
# Fixed-width numerals

Numerals of a fixed number of digits over any base, most significant digit first: the value of a list
of digits (`value`), the digits of a value (`digits`), and that the two are inverse to each other. A
numeral cut off after its first digits and filled up with the largest digit still has the leading
digits of another base (`filled_div`), as long as that base is not the smaller one.
-/

namespace Positional

variable {base : Nat}

/-- The value of a list of digits. -/
def value (base : Nat) (l : List Nat) : Nat :=
  l.foldl (fun v d => v * base + d) 0

/-- The last `count` digits of a value. -/
def digits (base : Nat) : Nat → Nat → List Nat
  | 0, _ => []
  | count + 1, v => digits base count (v / base) ++ [v % base]

@[simp] theorem value_nil : value base [] = 0 := rfl

@[simp] theorem value_concat (l : List Nat) (d : Nat) :
    value base (l ++ [d]) = value base l * base + d := by
  simp only [value, List.foldl_append, List.foldl_cons, List.foldl_nil]

theorem value_append (l m : List Nat) :
    value base (l ++ m) = value base l * base ^ m.length + value base m := by
  induction m using List.reverseRecOn with
  | nil => simp
  | append_singleton m d ih =>
    rw [← List.append_assoc, value_concat, ih, value_concat, List.length_append,
      List.length_singleton, pow_succ]
    ring

/-- The value of the digits read so far is at most the value of them all. -/
theorem foldl_le (hbase : 0 < base) (l : List Nat) (v : Nat) :
    v ≤ l.foldl (fun v d => v * base + d) v := by
  induction l generalizing v with
  | nil => exact Nat.le_refl v
  | cons d l ih =>
    calc v ≤ v * base := Nat.le_mul_of_pos_right v hbase
      _ ≤ v * base + d := Nat.le_add_right _ d
      _ ≤ _ := ih (v * base + d)

@[simp] theorem value_replicate_zero (count : Nat) :
    value base (List.replicate count 0) = 0 := by
  induction count with
  | zero => rfl
  | succ count ih => rw [List.replicate_succ', value_concat, ih, Nat.zero_mul]

theorem value_replicate_max (hbase : 0 < base) (count : Nat) :
    value base (List.replicate count (base - 1)) + 1 = base ^ count := by
  induction count with
  | zero => rfl
  | succ count ih =>
    have hlast : base - 1 + 1 = base := Nat.sub_add_cancel hbase
    rw [List.replicate_succ', value_concat, Nat.add_assoc, hlast, ← Nat.succ_mul,
      Nat.succ_eq_add_one, ih, pow_succ]

theorem value_lt {l : List Nat} (h : ∀ d ∈ l, d < base) : value base l < base ^ l.length := by
  induction l using List.reverseRecOn with
  | nil => simp
  | append_singleton l d ih =>
    have hd : d < base := h d (by simp)
    have hl : value base l < base ^ l.length := ih fun d hd => h d (by simp [hd])
    rw [value_concat, List.length_append, List.length_singleton, pow_succ]
    calc value base l * base + d < value base l * base + base := Nat.add_lt_add_left hd _
      _ = (value base l + 1) * base := by ring
      _ ≤ base ^ l.length * base := Nat.mul_le_mul_right base hl

@[simp] theorem length_digits (count v : Nat) : (digits base count v).length = count := by
  induction count generalizing v with
  | zero => rfl
  | succ count ih => simp [digits, ih]

theorem digit_lt (hbase : 0 < base) {count v d : Nat} (h : d ∈ digits base count v) : d < base := by
  induction count generalizing v with
  | zero => cases h
  | succ count ih =>
    rw [digits, List.mem_append, List.mem_singleton] at h
    rcases h with h | rfl
    · exact ih h
    · exact Nat.mod_lt v hbase

theorem value_digits (count v : Nat) : value base (digits base count v) = v % base ^ count := by
  induction count generalizing v with
  | zero => simp [digits, Nat.mod_one]
  | succ count ih =>
    rw [digits, value_concat, ih, pow_succ, Nat.mul_comm (base ^ count), Nat.mod_mul,
      Nat.mul_comm base, Nat.add_comm]

theorem value_digits_of_lt {count v : Nat} (h : v < base ^ count) :
    value base (digits base count v) = v := by
  rw [value_digits, Nat.mod_eq_of_lt h]

theorem digits_value {l : List Nat} (h : ∀ d ∈ l, d < base) :
    digits base l.length (value base l) = l := by
  induction l using List.reverseRecOn with
  | nil => rfl
  | append_singleton l d ih =>
    have hd : d < base := h d (by simp)
    have hbase : 0 < base := Nat.zero_lt_of_lt hd
    have hquotient : (value base l * base + d) / base = value base l := by
      rw [Nat.add_comm, Nat.add_mul_div_right d _ hbase, Nat.div_eq_of_lt hd, Nat.zero_add]
    rw [List.length_append, List.length_singleton, digits, value_concat, hquotient,
      Nat.mul_add_mod_self_right, Nat.mod_eq_of_lt hd, ih fun d hd => h d (by simp [hd])]

theorem digits_mod (count v : Nat) : digits base count (v % base ^ count) = digits base count v := by
  induction count generalizing v with
  | zero => rfl
  | succ count ih =>
    rw [digits, digits, pow_succ', Nat.mod_mul_right_div_self, ih, Nat.mod_mul_right_mod]

/-- The leading digits are the digits of the quotient. -/
theorem digits_add (m n v : Nat) :
    digits base (m + n) v = digits base m (v / base ^ n) ++ digits base n v := by
  induction n generalizing v with
  | zero => simp [digits]
  | succ n ih =>
    rw [← Nat.add_assoc, digits, ih, digits, List.append_assoc, Nat.div_div_eq_div_mul,
      ← pow_succ']

theorem take_digits (m n v : Nat) :
    (digits base (m + n) v).take m = digits base m (v / base ^ n) := by
  rw [digits_add, List.take_left' (length_digits m _)]

/-- A value that is a multiple of a power of one base, with its last digits of a smaller base all
made as large as they can be, keeps its quotient by that power. -/
theorem filled_div {small large : Nat} (hsmall : 0 < small) (hle : small ≤ large) (v k : Nat) :
    (v * large ^ k / small ^ k * small ^ k + (small ^ k - 1)) / large ^ k = v := by
  have hpow : 0 < small ^ k := Nat.pow_pos hsmall
  have hpows : small ^ k ≤ large ^ k := Nat.pow_le_pow_left hle k
  generalize small ^ k = p at *
  generalize large ^ k = q at *
  have hdivision := Nat.div_add_mod (v * q) p
  have hrest : v * q % p < p := Nat.mod_lt _ hpow
  rw [Nat.mul_comm p] at hdivision
  refine Nat.div_eq_of_lt_le ?_ ?_
  · omega
  · rw [Nat.succ_mul]
    omega

theorem getElem?_digits {count i : Nat} (h : i < count) (v : Nat) :
    (digits base count v)[i]? = some (v / base ^ (count - 1 - i) % base) := by
  induction count generalizing v i with
  | zero => exact absurd h (Nat.not_lt_zero i)
  | succ count ih =>
    rw [digits]
    rcases Nat.lt_succ_iff_lt_or_eq.mp h with hlt | rfl
    · have hpow : count + 1 - 1 - i = count - 1 - i + 1 := by omega
      rw [List.getElem?_append_left (by simpa using hlt), ih hlt, Nat.div_div_eq_div_mul, hpow,
        ← pow_succ']
    · rw [List.getElem?_append_right (by simp)]
      simp

/-! ## Blocks of digits -/

theorem value_cons (d : Nat) (l : List Nat) :
    value base (d :: l) = d * base ^ l.length + value base l := by
  have h : value base ([d] ++ l) = value base [d] * base ^ l.length + value base l :=
    value_append [d] l
  simpa [value] using h

/-- A value over a power of the base has a block of digits for each digit. -/
theorem digits_pow (k m v : Nat) :
    digits base (m * k) v = (digits (base ^ k) m v).flatMap (digits base k) := by
  induction m generalizing v with
  | zero => simp [digits]
  | succ m ih =>
    rw [Nat.succ_mul, digits_add, ih, digits, List.flatMap_append, List.flatMap_singleton,
      digits_mod]

/-- The digits of a numeral over a power of its base are the values of its blocks. -/
theorem digits_blocks {k m : Nat} {l : List Nat} (hl : ∀ d ∈ l, d < base)
    (hlength : l.length = m * k) :
    digits (base ^ k) m (value base l)
      = (List.range m).map fun i => value base ((l.drop (i * k)).take k) := by
  induction m generalizing l with
  | zero => rfl
  | succ m ih =>
    rw [Nat.succ_mul] at hlength
    have hlast : (l.drop (m * k)).length = k := by rw [List.length_drop]; omega
    have hinit : (l.take (m * k)).length = m * k := List.length_take_of_le (by omega)
    have hlt : value base (l.drop (m * k)) < base ^ k := by
      have h := value_lt (l := l.drop (m * k)) fun d hd => hl d (List.mem_of_mem_drop hd)
      rwa [hlast] at h
    have hsplit : value base l
        = value base (l.take (m * k)) * base ^ k + value base (l.drop (m * k)) := by
      conv_lhs => rw [← List.take_append_drop (m * k) l, value_append, hlast]
    have hquotient : value base l / base ^ k = value base (l.take (m * k)) := by
      rw [hsplit, Nat.add_comm, Nat.add_mul_div_right _ _ (Nat.zero_lt_of_lt hlt),
        Nat.div_eq_of_lt hlt, Nat.zero_add]
    have hrest : value base l % base ^ k = value base (l.drop (m * k)) := by
      rw [hsplit, Nat.mul_add_mod_self_right, Nat.mod_eq_of_lt hlt]
    rw [digits, hquotient, hrest, ih (fun d hd => hl d (List.mem_of_mem_take hd)) hinit,
      List.range_succ, List.map_append]
    congr 1
    · refine List.map_congr_left fun i hi => ?_
      have hi : i + 1 ≤ m := List.mem_range.mp hi
      have hend : i * k + k ≤ m * k := by
        rw [← Nat.succ_mul]
        exact Nat.mul_le_mul_right k hi
      rw [List.drop_take, List.take_take, Nat.min_eq_left (by omega)]
    · rw [List.map_singleton, List.take_of_length_le hlast.le]

/-! ## Subtraction digit by digit -/

/-- The digits of one numeral less those of another, each by itself. -/
def subtract (base : Nat) (x y : List Nat) : List Nat :=
  List.zipWith (fun a b => (a + base - b) % base) x y

/-- The digits at which a subtraction borrows. -/
def borrows (x y : List Nat) : List Nat :=
  List.zipWith (fun a b => if a < b then 1 else 0) x y

theorem length_borrows (x y : List Nat) (h : x.length = y.length) :
    (borrows x y).length = x.length := by
  simp [borrows, h]

/-- What subtraction digit by digit leaves out is the borrowing. -/
theorem value_subtract {x y : List Nat} (hx : ∀ d ∈ x, d < base) (hy : ∀ d ∈ y, d < base)
    (hlength : x.length = y.length) :
    value base (subtract base x y) + value base y
      = value base x + base * value base (borrows x y) := by
  induction x generalizing y with
  | nil =>
    cases y with
    | nil => simp [subtract, borrows]
    | cons b y => cases hlength
  | cons a x ih =>
    cases y with
    | nil => cases hlength
    | cons b y =>
      have hlength : x.length = y.length := Nat.succ.inj hlength
      have ha : a < base := hx a List.mem_cons_self
      have hb : b < base := hy b List.mem_cons_self
      have hrest := ih (fun d hd => hx d (List.mem_cons_of_mem _ hd))
        (fun d hd => hy d (List.mem_cons_of_mem _ hd)) hlength
      have hdigit : (a + base - b) % base + b = a + base * (if a < b then 1 else 0) := by
        by_cases hab : a < b
        · rw [if_pos hab, Nat.mod_eq_of_lt (by omega)]
          omega
        · rw [if_neg hab, show a + base - b = a - b + base by omega, Nat.add_mod_right,
            Nat.mod_eq_of_lt (by omega)]
          omega
      simp only [subtract, borrows, List.zipWith_cons_cons, value_cons, List.length_zipWith,
        ← hlength, Nat.min_self] at hrest ⊢
      calc (a + base - b) % base * base ^ x.length + value base (subtract base x y)
            + (b * base ^ x.length + value base y)
          = ((a + base - b) % base + b) * base ^ x.length
            + (value base (subtract base x y) + value base y) := by ring
        _ = (a + base * (if a < b then 1 else 0)) * base ^ x.length
            + (value base x + base * value base (borrows x y)) := by
          rw [hdigit]
          exact congrArg _ hrest
        _ = _ := by
          simp only [borrows]
          ring

theorem value_eq_zero_iff (hbase : 0 < base) {l : List Nat} :
    value base l = 0 ↔ ∀ d ∈ l, d = 0 := by
  induction l with
  | nil => simp
  | cons d l ih =>
    have hpow : 0 < base ^ l.length := Nat.pow_pos hbase
    rw [value_cons, Nat.add_eq_zero_iff, Nat.mul_eq_zero, ih, List.forall_mem_cons]
    constructor
    · rintro ⟨hd | hd, hl⟩
      · exact ⟨hd, hl⟩
      · omega
    · exact fun ⟨hd, hl⟩ => ⟨.inl hd, hl⟩

/-- Subtraction digit by digit is subtraction modulo the power of the base exactly when no digit
after the first one borrows. -/
theorem subtract_mod_iff (hbase : 1 < base) {a b : Nat} {x y : List Nat}
    (hx : ∀ d ∈ a :: x, d < base) (hy : ∀ d ∈ b :: y, d < base) (hlength : x.length = y.length) :
    (value base (subtract base (a :: x) (b :: y)) + value base (b :: y)) % base ^ (x.length + 1)
        = value base (a :: x) % base ^ (x.length + 1)
      ↔ ∀ d ∈ borrows x y, d = 0 := by
  have hsubtract := value_subtract hx hy (congrArg Nat.succ hlength)
  have hborrows : value base (borrows (a :: x) (b :: y))
      = (if a < b then 1 else 0) * base ^ x.length + value base (borrows x y) := by
    rw [← length_borrows x y hlength]
    exact value_cons _ _
  have hlt : base * value base (borrows x y) < base ^ (x.length + 1) := by
    have h : value base (borrows x y) < base ^ (borrows x y).length := value_lt (by
      intro d hd
      obtain ⟨i, hi, rfl⟩ := List.getElem_of_mem hd
      simp only [borrows, List.getElem_zipWith]
      split <;> omega)
    rw [length_borrows x y hlength] at h
    rw [pow_succ']
    exact Nat.mul_lt_mul_of_pos_left h (by omega)
  have hsum : value base (subtract base (a :: x) (b :: y)) + value base (b :: y)
      = value base (a :: x) + base * value base (borrows x y)
        + base ^ (x.length + 1) * (if a < b then 1 else 0) := by
    rw [hsubtract, hborrows, pow_succ']
    ring
  rw [hsum, Nat.add_mul_mod_self_left, ← value_eq_zero_iff (Nat.zero_lt_of_lt hbase)]
  constructor
  · intro h
    have hzero : base * value base (borrows x y) ≡ 0 [MOD base ^ (x.length + 1)] :=
      Nat.ModEq.add_left_cancel' (value base (a :: x)) h
    rw [Nat.ModEq, Nat.mod_eq_of_lt hlt, Nat.zero_mod] at hzero
    exact (Nat.mul_eq_zero.mp hzero).resolve_left (by omega)
  · intro h
    rw [h, Nat.mul_zero, Nat.add_zero]

end Positional
