import Stencil.Node.Parse
import Stencil.Procedure.Lower
import Stencil.Table
import Stencil.Token.Trim

/-!
# Templates

A compiled template: its source, its tree, its two procedures, and the names that a call gives its
arguments.
-/

namespace Stencil

/-- A compiled template. -/
structure Template where
  source : Text
  nodes : List Node
  plain : Procedure
  indented : Procedure
  parameters : List Text

namespace Template

/-- The template of a source, with no parameters yet, if bodies nest at most `maxDepth` deep and
nothing is wrong with it. -/
def compile (maxDepth : Nat) (source : Text) : Except ParseError Template :=
  match Node.parse source maxDepth (Token.trim (Token.scan source)) with
  | .error error => .error error
  | .ok nodes => .ok {
      source, nodes
      plain := .ofNodes source .plain nodes
      indented := .ofNodes source .indented nodes
      parameters := [] }

/-- The template with names for its arguments. -/
def withParameters (template : Template) (parameters : List Text) : Template :=
  { template with parameters }

/-- The procedure of a mode. -/
def procedure (template : Template) : Mode → Procedure
  | .plain => template.plain
  | .indented => template.indented

end Template

/-- The templates that calls can reach, by name. -/
abbrev Library := Table Template

end Stencil
