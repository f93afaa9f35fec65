import Stencil.Evaluator
import Stencil.Render.Error
import Stencil.Text.Buffer

/-!
# Sessions

What changes while a procedure runs is the state of the evaluator and the text written so far. A
step has a result, which may be a failure, and leaves a session in either case: what was written
before a failure stays written.
-/

namespace Stencil

/-- The state of the evaluator and the text written. -/
structure Session (σ : Type) where
  state : σ
  out : Buffer

/-- What a step comes to. -/
abbrev Outcome (σ ε α : Type) := Except (RenderError ε) α × Session σ

/-- How operations end: they go through, or one of them jumps. -/
inductive Flow
  | through
  | jumped (jump : Jump)
  deriving DecidableEq, Repr

namespace Session

variable {σ ν ε α β : Type}

/-- Writes a text. -/
def write (t : Text) (s : Session σ) : Session σ := { s with out := s.out.write t }

/-- The next step, unless this one failed. -/
@[inline] def andThen (outcome : Outcome σ ε α) (next : α → Session σ → Outcome σ ε β) :
    Outcome σ ε β :=
  match outcome with
  | (.ok a, s) => next a s
  | (.error error, s) => (.error error, s)

/-- Evaluates an expression. -/
def evaluate (ev : Evaluator σ ν ε) (e : Text) (s : Session σ) : Outcome σ ε ν :=
  match ev.evaluate e s.state with
  | (.ok v, state) => (.ok v, { s with state })
  | (.error error, state) => (.error (.eval e error), { s with state })

/-- Evaluates expressions from left to right. -/
def evaluateAll (ev : Evaluator σ ν ε) : List Text → Session σ → Outcome σ ε (List ν)
  | [], s => (.ok [], s)
  | e :: es, s => andThen (evaluate ev e s) fun v s =>
      andThen (evaluateAll ev es s) fun vs s => (.ok (v :: vs), s)

/-- Tests a condition. An empty one holds. -/
def test (ev : Evaluator σ ν ε) (e : Text) (s : Session σ) : Outcome σ ε Bool :=
  if e.isEmpty then (.ok true, s)
  else
    match ev.condition e s.state with
    | (.ok holds, state) => (.ok holds, { s with state })
    | (.error error, state) => (.error (.eval e error), { s with state })

/-- Evaluates an expression and takes the items of its value. -/
def items (ev : Evaluator σ ν ε) (e : Text) (s : Session σ) : Outcome σ ε (List ν) :=
  andThen (evaluate ev e s) fun v s =>
    match ev.items v s.state with
    | (.ok vs, state) => (.ok vs, { s with state })
    | (.error error, state) => (.error (.eval e error), { s with state })

/-- Executes a statement. An empty one does nothing. -/
def execute (ev : Evaluator σ ν ε) (t : Text) (s : Session σ) : Outcome σ ε Unit :=
  if t.isEmpty then (.ok (), s)
  else
    match ev.execute t s.state with
    | (.ok (), state) => (.ok (), { s with state })
    | (.error error, state) => (.error (.eval t error), { s with state })

/-- Gives a name a value. -/
def bind (ev : Evaluator σ ν ε) (name : Text) (v : ν) (s : Session σ) : Session σ :=
  { s with state := ev.bind name v s.state }

/-- Gives names their values, in order. -/
def bindAll (ev : Evaluator σ ν ε) (bindings : List (Text × ν)) (s : Session σ) : Session σ :=
  bindings.foldl (fun s binding => s.bind ev binding.1 binding.2) s

/-- A step in a scope of its own, which ends however the step ends. -/
def inScope (ev : Evaluator σ ν ε) (step : Session σ → Outcome σ ε α) (s : Session σ) :
    Outcome σ ε α :=
  let (result, s) := step { s with state := ev.push s.state }
  (result, { s with state := ev.pop s.state })

end Session

end Stencil
