import Pdfv.Basic.Fallible
/-!
# Coding in stages

A value coded in several stages comes back when the stages are undone one after the other. What a
stage may do to a value is a relation, so one value may have many codes; `Coded` follows a code back
through its stages and notes the value before and after each of them. A fold that undoes single stages
undoes a whole chain (`Coded.foldlM`).
-/

namespace Stages

open Fallible

variable {Stage Value Entry σ ε : Type}

/-- One stage undone: the stage, the code and the value it stands for. -/
structure Undone (Stage Value : Type) where
  stage : Stage
  code : Value
  plain : Value

/-- The code leads back to the plain value through the stages, in the order in which they are
undone. -/
inductive Coded (codes : Stage → Value → Value → Prop) :
    List Stage → Value → Value → List (Undone Stage Value) → Prop where
  | nil (plain : Value) : Coded codes [] plain plain []
  | cons {stage : Stage} {stages : List Stage} {plain mid code : Value}
    {trace : List (Undone Stage Value)} (head : codes stage mid code)
    (rest : Coded codes stages plain mid trace) :
    Coded codes (stage :: stages) plain code (⟨stage, code, mid⟩ :: trace)

namespace Coded

variable {codes : Stage → Value → Value → Prop} {stages : List Stage} {plain code : Value}
  {trace : List (Undone Stage Value)}

/-- A fold that undoes each stage and appends an entry on it undoes the chain. -/
theorem foldlM {state : Value → List Entry → σ} {undo : σ → Stage → Except ε σ}
    {entry : Undone Stage Value → Entry}
    (hundo : ∀ stage plain code log, codes stage plain code →
      undo (state code log) stage = .ok (state plain (log ++ [entry ⟨stage, code, plain⟩])))
    (h : Coded codes stages plain code trace) (log : List Entry) :
    stages.foldlM undo (state code log) = .ok (state plain (log ++ trace.map entry)) := by
  induction h generalizing log with
  | nil plain =>
    rw [List.map_nil, List.append_nil]
    rfl
  | @cons stage stages plain mid code trace head _ ih =>
    rw [List.foldlM_cons, hundo _ _ _ _ head, ok_bind, ih, List.map_cons, List.append_assoc,
      List.singleton_append]

end Coded

end Stages
