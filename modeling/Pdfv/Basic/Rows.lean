import Mathlib.Algebra.Order.Ring.Nat
import Mathlib.Data.List.Basic
/-!
# Rows of one length

A table stored row after row: where a row begins (`drop_flatten`), which element of the buffer stands
at a row and a column (`getElem?_flatten`), what the buffer is up to a row (`take_flatten`), and that
it determines the rows (`eq_of_flatten`).
-/

namespace Rows

variable {α : Type} {width : Nat} {rows : List (List α)}

/-- Every row has the given length. -/
def Uniform (width : Nat) (rows : List (List α)) : Prop :=
  ∀ row ∈ rows, row.length = width

theorem Uniform.of_cons {row : List α} (h : Uniform width (row :: rows)) :
    row.length = width ∧ Uniform width rows :=
  ⟨h row List.mem_cons_self, fun row hrow => h row (List.mem_cons_of_mem _ hrow)⟩

theorem Uniform.length_flatten (h : Uniform width rows) :
    rows.flatten.length = rows.length * width := by
  induction rows with
  | nil => simp
  | cons row rows ih =>
    obtain ⟨hrow, hrows⟩ := h.of_cons
    rw [List.flatten_cons, List.length_append, hrow, ih hrows, List.length_cons, Nat.succ_mul,
      Nat.add_comm]

theorem Uniform.drop_flatten (h : Uniform width rows) (i : Nat) :
    rows.flatten.drop (i * width) = (rows.drop i).flatten := by
  induction i generalizing rows with
  | zero => simp
  | succ i ih =>
    cases rows with
    | nil => simp
    | cons row rows =>
      obtain ⟨hrow, hrows⟩ := h.of_cons
      rw [List.flatten_cons, List.drop_succ_cons, ← ih hrows, Nat.succ_mul, Nat.add_comm, ← hrow,
        List.drop_append]
      simp

theorem Uniform.take_flatten (h : Uniform width rows) (i : Nat) :
    rows.flatten.take (i * width) = (rows.take i).flatten := by
  induction i generalizing rows with
  | zero => simp
  | succ i ih =>
    cases rows with
    | nil => simp
    | cons row rows =>
      obtain ⟨hrow, hrows⟩ := h.of_cons
      rw [List.flatten_cons, List.take_succ_cons, List.flatten_cons, ← ih hrows, Nat.succ_mul,
        Nat.add_comm, List.take_append, hrow, Nat.add_sub_cancel_left,
        List.take_of_length_le (hrow.trans_le (Nat.le_add_right width _))]

/-- One row of the buffer. -/
theorem Uniform.row (h : Uniform width rows) {i : Nat} {row : List α} (hi : rows[i]? = some row) :
    (rows.flatten.drop (i * width)).take width = row := by
  obtain ⟨hlt, rfl⟩ := List.getElem?_eq_some_iff.mp hi
  rw [h.drop_flatten, List.drop_eq_getElem_cons hlt, List.flatten_cons,
    List.take_left' (h _ (List.getElem_mem hlt))]

/-- The element at a row and a column. -/
theorem Uniform.getElem?_flatten (h : Uniform width rows) {i j : Nat} {row : List α}
    (hi : rows[i]? = some row) (hj : j < width) : rows.flatten[i * width + j]? = row[j]? := by
  have hrow := h.row hi
  rw [← hrow, List.getElem?_take_of_lt hj, List.getElem?_drop]

/-- The buffer determines the rows. -/
theorem Uniform.eq_of_flatten {rows' : List (List α)} (hwidth : 0 < width)
    (h : Uniform width rows) (h' : Uniform width rows') (heq : rows.flatten = rows'.flatten) :
    rows = rows' := by
  have hlengths : rows.length * width = rows'.length * width := by
    rw [← h.length_flatten, ← h'.length_flatten, heq]
  have hlength : rows.length = rows'.length := Nat.eq_of_mul_eq_mul_right hwidth hlengths
  refine List.ext_getElem hlength fun i hi hi' => ?_
  rw [← h.row (List.getElem?_eq_getElem hi), ← h'.row (List.getElem?_eq_getElem hi'), heq]

end Rows
