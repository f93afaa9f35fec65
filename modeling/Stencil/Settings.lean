import Stencil.Text.Basic

/-!
# Settings

The limits on nesting, loops and calls, and the names that generated code uses.
-/

namespace Stencil

/-- Limits of compilation and rendering. -/
structure Limits where
  /-- How deep bodies may nest in a template. -/
  maxDepth : Nat := 64
  /-- How many rounds one run of a loop may take. -/
  loopLimit : Nat := 100000
  /-- How deep calls may nest. -/
  maxCallDepth : Nat := 64
  deriving DecidableEq, Repr

/-- Names in generated code. -/
structure CodeNames where
  /-- The variable that the output is appended to. -/
  builder : Text := "builder".toList
  /-- The parameter that holds the ambient indentation. -/
  whitespace : Text := "whitespace".toList
  /-- What the name of a function ends with if it takes an indentation. -/
  indentedSuffix : Text := "_indented".toList
  /-- Where the function that indents is found. -/
  runtimePath : Text := "cutwork".toList
  deriving DecidableEq, Repr

/-- All settings. -/
structure Settings where
  limits : Limits := {}
  names : CodeNames := {}
  deriving DecidableEq, Repr

end Stencil
