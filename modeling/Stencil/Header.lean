import Stencil.Nesting

/-!
# Loop headers

A `for` loop is counted if its header has three parts between semicolons, and goes through items if
it has the form of a `foreach` header: a name, the word `in`, and what to go through.
-/

namespace Stencil

/-- The header of a `for` loop. -/
inductive Header
  | counted (init condition step : Text)
  | each (name iterable : Text)
  deriving DecidableEq, Repr

namespace Header

/-- The name and the iterable of a `foreach` header. -/
def each? (t : Text) : Option (Text × Text) :=
  (Text.splitOnce? " in ".toList t).bind fun (before, after) =>
    let name := Text.trim before
    let iterable := Text.trim after
    if Text.isName name ∧ iterable ≠ [] then some (name, iterable) else none

/-- The header that a text is. -/
def ofText? (t : Text) : Option Header :=
  match Nesting.split ';' t with
  | [init, condition, step] =>
    some (counted (Text.trim init) (Text.trim condition) (Text.trim step))
  | [_] => (each? t).map fun (name, iterable) => each name iterable
  | _ => none

end Header

end Stencil
