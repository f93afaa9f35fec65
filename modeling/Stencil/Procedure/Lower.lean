import Stencil.Procedure.Basic

/-!
# From trees to procedures

Every node but the empty one becomes one operation. The modes differ in three places only: literal
text with a line feed, rendered values, and calls.
-/

namespace Stencil

namespace Mode

/-- The operation that writes literal text. -/
def text (mode : Mode) (t : Text) : Op := .text t (mode == .indented && t.contains '\n')

/-- The operation that writes the value of an expression. -/
def render (mode : Mode) (expression : Text) : Op := .render expression (mode == .indented)

/-- The indentation of a call that `leading` stands before. -/
def callIndent (mode : Mode) (leading : Text) : CallIndent := ⟨mode == .indented, leading⟩

end Mode

namespace Node

mutual

/-- The operation that a node becomes. -/
def lower (source : Text) (mode : Mode) : Node → Option Op
  | text span => some (mode.text (span.text source))
  | output span => some (mode.render (span.text source))
  | declare span => some (.declare (span.text source))
  | call name arguments leading =>
    some (.call (name.text source) (arguments.map (·.text source))
      (mode.callIndent (leading.elim [] (·.text source))))
  | branch condition body rest =>
    some (.branch (.arm (condition.text source) (lowerAll source mode body)
      (lowerChain source mode rest)))
  | loop kind header body =>
    some (.loop kind (header.text source) (lowerAll source mode body))
  | jump j => some (.jump j)
  | noOp => none

/-- The operations that a body becomes. -/
def lowerAll (source : Text) (mode : Mode) : List Node → List Op
  | [] => []
  | node :: nodes =>
    match lower source mode node with
    | none => lowerAll source mode nodes
    | some op => op :: lowerAll source mode nodes

/-- The arms after the first one. -/
def lowerChain (source : Text) (mode : Mode) : Chain Span (List Node) → Chain Text (List Op)
  | .done => .done
  | .otherwise body => .otherwise (lowerAll source mode body)
  | .arm condition body rest =>
    .arm (condition.text source) (lowerAll source mode body) (lowerChain source mode rest)

end

end Node

namespace Procedure

/-- The procedure of a tree. -/
def ofNodes (source : Text) (mode : Mode) (nodes : List Node) : Procedure :=
  ⟨mode, Node.lowerAll source mode nodes⟩

end Procedure

end Stencil
