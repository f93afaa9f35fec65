import Stencil.Text.Basic

/-!
# Evaluators

Rendering leaves the meaning of expressions and statements to an evaluator. It is asked for values
and conditions, told to execute statements, and told where scopes begin and end; it may change its
own state at every request. All that rendering needs of a value is its text, whether it is true, and
its items.
-/

namespace Stencil

/-- An evaluator with states `σ`, values `ν` and errors `ε`. -/
structure Evaluator (σ ν ε : Type) where
  /-- The value of an expression. -/
  evaluate : Text → σ → Except ε ν × σ
  isTruthy : ν → σ → Bool × σ
  /-- Whether a condition holds, if the evaluator has a way of its own to tell. -/
  condition? : Option (Text → σ → Except ε Bool × σ) := none
  /-- What a loop over a value goes through. -/
  items : ν → σ → Except ε (List ν) × σ
  /-- Executes a statement. -/
  execute : Text → σ → Except ε Unit × σ
  /-- Gives a name a value in the innermost scope. -/
  bind : Text → ν → σ → σ
  /-- Begins a scope. -/
  push : σ → σ
  /-- Ends the innermost scope. -/
  pop : σ → σ
  /-- How a value is written. -/
  text : ν → Text

/-- A request to an evaluator. -/
inductive Request (ν : Type)
  | evaluate (expression : Text)
  | isTruthy (value : ν)
  /-- A condition, of an evaluator with a way of its own to tell whether it holds. -/
  | condition (expression : Text)
  | items (value : ν)
  | execute (statement : Text)
  | bind (name : Text) (value : ν)
  | push
  | pop
  deriving DecidableEq, Repr

namespace Evaluator

variable {σ ν ε : Type}

/-- Whether a condition holds. If the evaluator has no way of its own to tell, the condition is
evaluated, and holds if its value is true. -/
def condition (ev : Evaluator σ ν ε) (e : Text) (s : σ) : Except ε Bool × σ :=
  match ev.condition? with
  | some condition => condition e s
  | none =>
    match ev.evaluate e s with
    | (.ok v, s) => (.ok (ev.isTruthy v s).1, (ev.isTruthy v s).2)
    | (.error error, s) => (.error error, s)

section Condition

variable {ev : Evaluator σ ν ε} {e : Text} {s t : σ}

theorem condition_of_own {own : Text → σ → Except ε Bool × σ} (h : ev.condition? = some own) :
    ev.condition e s = own e s := by
  unfold condition
  rw [h]

theorem condition_of_ok (h : ev.condition? = none) {v : ν} (he : ev.evaluate e s = (.ok v, t)) :
    ev.condition e s = (.ok (ev.isTruthy v t).1, (ev.isTruthy v t).2) := by
  unfold condition
  rw [h, he]

theorem condition_of_error (h : ev.condition? = none) {error : ε}
    (he : ev.evaluate e s = (.error error, t)) : ev.condition e s = (.error error, t) := by
  unfold condition
  rw [h, he]

end Condition

/-- The evaluator that also records all requests made to it, the latest first. -/
def recording (ev : Evaluator σ ν ε) : Evaluator (σ × List (Request ν)) ν ε where
  evaluate e s :=
    let (v, s') := ev.evaluate e s.1
    (v, s', .evaluate e :: s.2)
  isTruthy v s :=
    let (b, s') := ev.isTruthy v s.1
    (b, s', .isTruthy v :: s.2)
  condition? := ev.condition?.map fun condition e s =>
    let (b, s') := condition e s.1
    (b, s', .condition e :: s.2)
  items v s :=
    let (vs, s') := ev.items v s.1
    (vs, s', .items v :: s.2)
  execute t s :=
    let (r, s') := ev.execute t s.1
    (r, s', .execute t :: s.2)
  bind n v s := (ev.bind n v s.1, .bind n v :: s.2)
  push s := (ev.push s.1, .push :: s.2)
  pop s := (ev.pop s.1, .pop :: s.2)
  text := ev.text

end Evaluator

end Stencil
