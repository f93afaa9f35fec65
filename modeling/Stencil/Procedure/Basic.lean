import Stencil.Node.Basic

/-!
# Procedures

A procedure is what a template is run as: a list of operations that hold their texts themselves. A
template has two of them. The plain one writes its text as it is; the indented one puts the
indentation of its caller after every line feed that it writes.
-/

namespace Stencil

/-- Which of the two procedures of a template. -/
inductive Mode
  | plain
  | indented
  deriving DecidableEq, Repr

/-- The indentation handed to a called template: the caller's own if `ambient` holds, then the
blanks that stand before the call. -/
structure CallIndent where
  ambient : Bool
  extra : Text
  deriving DecidableEq, Repr

namespace CallIndent

/-- Whether there is nothing to hand over whatever the caller's own indentation is. -/
def isNone (indent : CallIndent) : Bool := !indent.ambient && indent.extra.isEmpty

/-- The indentation under a caller that is itself indented by `margin`. -/
def resolve (indent : CallIndent) (margin : Text) : Text :=
  if indent.ambient then margin ++ indent.extra else indent.extra

end CallIndent

/-- An operation. Where `indented` holds, line feeds are followed by the ambient indentation. -/
inductive Op
  | text (text : Text) (indented : Bool)
  | render (expression : Text) (indented : Bool)
  | declare (statement : Text)
  | call (name : Text) (arguments : List Text) (indent : CallIndent)
  | branch (chain : Chain Text (List Op))
  | loop (kind : LoopKind) (header : Text) (body : List Op)
  | jump (jump : Jump)

/-- A procedure: its operations in order, and the mode that they were made in. -/
structure Procedure where
  mode : Mode
  ops : List Op

end Stencil
