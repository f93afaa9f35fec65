import Stencil.Code.Line
import Stencil.Code.Statement
import Stencil.Header
import Stencil.Procedure.Lower
import Stencil.Settings
import Stencil.Text.Quoted

/-!
# Generating code

A procedure as Rust statements that append to a string. Called templates are functions; the one for
a call under an indentation has a name of its own and takes the indentation as its last argument. A
counted loop becomes a `while` with a labelled block for its body, so that going on to the next
round still reaches the step: jumps that are meant for such a loop go to its labels.
-/

namespace Stencil

namespace Code

/-- The line that appends the text of an expression. -/
def append (names : CodeNames) (value : Text) : Text :=
  names.builder ++ ".push_str(".toList ++ value ++ ");".toList

/-- The expression for a text with the ambient indentation. -/
def indented (names : CodeNames) (value : Text) : Text :=
  ['&'] ++ names.runtimePath ++ "::indent(".toList ++ value ++ ", ".toList ++ names.whitespace
    ++ [')']

/-- The expression for the text of a value. -/
def rendered (expression : Text) : Text := "&(".toList ++ expression ++ ").to_string()".toList

/-- The expression, indented or not. -/
def laidOut (names : CodeNames) (isIndented : Bool) (value : Text) : Text :=
  if isIndented then indented names value else value

/-- The expression for the indentation handed to a called template. -/
def callIndent (names : CodeNames) (indent : CallIndent) : Text :=
  if !indent.ambient then Text.quoted indent.extra
  else if indent.extra.isEmpty then names.whitespace
  else
    "&format!(\"\x7b\x7d\x7b\x7d\", ".toList ++ names.whitespace ++ ", ".toList
      ++ Text.quoted indent.extra ++ [')']

/-- The line that calls a template. -/
def call (names : CodeNames) (name : Text) (arguments : List Text) (indent : CallIndent) : Text :=
  let function := if indent.isNone then name else name ++ names.indentedSuffix
  let last := if indent.isNone then [] else [callIndent names indent]
  function ++ ['('] ++ names.builder ++ (arguments ++ last).flatMap (", ".toList ++ ·)
    ++ ");".toList

/-- The label of the `while` of a counted loop. -/
def loopLabel (number : Nat) : Text := "'loop_".toList ++ Nat.toDigits 10 number

/-- The label of the body of a counted loop. -/
def bodyLabel (number : Nat) : Text := "'body_".toList ++ Nat.toDigits 10 number

/-- The line for a jump, given the number of the innermost loop if that is labelled. -/
def jump (target : Option Nat) : Jump → Text
  | .breaks => target.elim "break;".toList fun n => "break ".toList ++ loopLabel n ++ [';']
  | .continues => target.elim "continue;".toList fun n => "break ".toList ++ bodyLabel n ++ [';']
  | .returns => "return;".toList

namespace Writer

/-- Writes a line that opens a block. -/
def opening (t : Text) (w : Writer) : Writer := w.line (t ++ " \x7b".toList)

/-- Writes a line that closes a block. -/
def closing (w : Writer) : Writer := w.line ['}']

/-- Writes a loop without labels. -/
def plainLoop (head : Text) (body : Writer → Writer) (w : Writer) : Writer :=
  ((w.opening head).inLoop none body).closing

/-- Writes a counted loop. Labels are numbered in the order in which the loops begin. -/
def countedLoop (init condition step : Text) (body : Writer → Writer) (w : Writer) : Writer :=
  let number := w.labelled + 1
  let w := { w with labelled := number }
  let w := (w.line ['{']).nested fun w =>
    let w := if init.isEmpty then w else w.line (letMut init)
    let condition := if condition.isEmpty then "true".toList else condition
    let w := w.opening (loopLabel number ++ ": while ".toList ++ condition)
    let w := w.nested fun w =>
      let w := ((w.opening (bodyLabel number ++ [':'])).inLoop (some number) body).closing
      if step.isEmpty then w else w.line (assignment step ++ [';'])
    w.closing
  w.closing

/-- Writes a loop. A `for` loop is counted if its header has three parts. -/
def loop (kind : LoopKind) (header : Text) (body : Writer → Writer) (w : Writer) : Writer :=
  match kind with
  | .whileLoop => w.plainLoop ("while ".toList ++ header) body
  | .foreachLoop => w.plainLoop ("for ".toList ++ header) body
  | .forLoop =>
    match Nesting.split ';' header with
    | [init, condition, step] =>
      w.countedLoop (Text.trim init) (Text.trim condition) (Text.trim step) body
    | _ => w.plainLoop ("for ".toList ++ header) body

mutual

/-- Writes an operation. -/
def op (names : CodeNames) : Op → Writer → Writer
  | .text t isIndented, w => w.line (append names (laidOut names isIndented (Text.quoted t)))
  | .render e isIndented, w => w.line (append names (laidOut names isIndented (rendered e)))
  | .declare t, w => w.line (statement t)
  | .call name arguments indent, w => w.line (call names name arguments indent)
  | .branch chain, w => arms names "if ".toList chain w
  | .loop kind header body, w => w.loop kind header (ops names body)
  | .jump j, w => w.line (jump w.target j)

/-- Writes operations in order. -/
def ops (names : CodeNames) : List Op → Writer → Writer
  | [], w => w
  | o :: os, w => ops names os (op names o w)

/-- Writes arms; `head` stands before the condition of the first one. -/
def arms (names : CodeNames) (head : Text) : Chain Text (List Op) → Writer → Writer
  | .done, w => w.closing
  | .otherwise body, w => ((w.opening "\x7d else".toList).nested (ops names body)).closing
  | .arm condition body rest, w =>
    arms names "\x7d else if ".toList rest ((w.opening (head ++ condition)).nested (ops names body))

end

end Writer

end Code

open Code

/-- The code of a procedure. -/
def Procedure.code (names : CodeNames) (procedure : Procedure) : Text :=
  (Writer.empty.ops names procedure.ops).code

namespace Node

/-- The code of a tree in a mode. -/
def code (names : CodeNames) (source : Text) (mode : Mode) (nodes : List Node) : Text :=
  (Procedure.ofNodes source mode nodes).code names

/-- The function that renders a tree in a mode. Parameters have a name and a type, both written as
they are. -/
def function (names : CodeNames) (name : Text) (parameters : List (Text × Text)) (source : Text)
    (mode : Mode) (nodes : List Node) : Text :=
  let declared := parameters.flatMap fun (name, type) =>
    ", ".toList ++ name ++ ": ".toList ++ type
  let (suffix, last) := match mode with
    | .plain => ([], [])
    | .indented => (names.indentedSuffix, ", ".toList ++ names.whitespace ++ ": &str".toList)
  let head := "pub fn ".toList ++ name ++ suffix ++ ['('] ++ names.builder
    ++ ": &mut String".toList ++ declared ++ last ++ [')']
  let w := Writer.empty.opening head
  (w.nested (Writer.ops names (Procedure.ofNodes source mode nodes).ops)).closing.code

/-- The two functions that render a tree: the plain one and the one that indents. -/
def functions (names : CodeNames) (name : Text) (parameters : List (Text × Text)) (source : Text)
    (nodes : List Node) : Text :=
  function names name parameters source .plain nodes
    ++ function names name parameters source .indented nodes

end Node

end Stencil
