import Stencil.Evaluator
import Stencil.Expr.Eval
import Stencil.Expr.Read
import Stencil.Table

/-!
# Bindings

Names with values in nested scopes. A name means its binding in the innermost scope that has one.
There is always an outermost scope.
-/

namespace Stencil

/-- The bindings of one scope. -/
abbrev Scope := Table Value

/-- Nested scopes. -/
inductive Bindings
  | outermost (scope : Scope)
  | inner (scope : Scope) (enclosing : Bindings)

namespace Bindings

/-- One scope without names. -/
def empty : Bindings := outermost .empty

/-- The scopes, innermost first. -/
def scopes : Bindings → List Scope
  | outermost scope => [scope]
  | inner scope enclosing => scope :: enclosing.scopes

/-- Number of scopes. -/
def depth (b : Bindings) : Nat := b.scopes.length

/-- The value that a name has. -/
def get? (b : Bindings) (name : Text) : Option Value := b.scopes.findSome? (·.get? name)

/-- Binds a name in the innermost scope. -/
def declare (name : Text) (value : Value) : Bindings → Bindings
  | outermost scope => outermost (scope.insert name value)
  | inner scope enclosing => inner (scope.insert name value) enclosing

/-- Changes the binding of a name in the innermost scope that has one. -/
def update? (name : Text) (value : Value) : Bindings → Option Bindings
  | outermost scope =>
    if scope.contains name then some (outermost (scope.insert name value)) else none
  | inner scope enclosing =>
    if scope.contains name then some (inner (scope.insert name value) enclosing)
    else (enclosing.update? name value).map (inner scope)

/-- Begins a scope. -/
def push (b : Bindings) : Bindings := inner .empty b

/-- Ends the innermost scope, unless it is the outermost one too. -/
def pop : Bindings → Bindings
  | outermost scope => outermost scope
  | inner _ enclosing => enclosing

/-- The value of an expression. -/
def eval (b : Bindings) (e : Expr) : Except EvalError Value := e.eval b.get?

/-- The value of the expression that a text is. -/
def evaluate (b : Bindings) (t : Text) : Except EvalError Value :=
  match Expr.parse t with
  | .error error => .error (.malformed error)
  | .ok e => b.eval e

/-- The bindings after a statement. -/
def run (b : Bindings) : Statement → Except EvalError Bindings
  | .declare name e =>
    match b.eval e with
    | .error error => .error error
    | .ok v => .ok (b.declare name v)
  | .update name e =>
    match b.eval e with
    | .error error => .error error
    | .ok v =>
      match b.update? name v with
      | none => .error (.undefinedVariable name)
      | some b => .ok b

/-- The bindings after the statement that a text is. -/
def execute (b : Bindings) (t : Text) : Except EvalError Bindings :=
  match Statement.parse t with
  | .error error => .error (.malformed error)
  | .ok statement => b.run statement

/-- Bindings as an evaluator of the expression language. Only statements and bindings change them,
and a statement that fails changes nothing. -/
def evaluator : Evaluator Bindings Value EvalError where
  evaluate t b := (b.evaluate t, b)
  isTruthy v b := (v.isTruthy, b)
  items v b := (v.items, b)
  execute t b :=
    match b.execute t with
    | .error error => (.error error, b)
    | .ok b' => (.ok (), b')
  bind name v b := b.declare name v
  push := push
  pop := pop
  text := Value.text

end Bindings

end Stencil
