import Stencil.Text.Buffer

/-!
# Lines of code

Code is written line by line. A line has a depth, which is how many blocks it stands in, and is
indented by four spaces for each.
-/

namespace Stencil.Code

/-- A line of code, without its indentation and line feed. -/
structure Line where
  depth : Nat
  text : Text
  deriving DecidableEq, Repr

namespace Line

/-- The line as it is written. -/
def written (line : Line) : Text := List.replicate (4 * line.depth) ' ' ++ line.text ++ ['\n']

end Line

/-- Code that is being written. -/
structure Writer where
  /-- The lines so far, latest first. -/
  lines : List Line
  /-- How many blocks are open. -/
  depth : Nat
  /-- The loops that are open, innermost first; one that is labelled has a number. -/
  loops : List (Option Nat)
  /-- How many loops have been labelled. -/
  labelled : Nat

namespace Writer

/-- Nothing written. -/
def empty : Writer := ⟨[], 0, [], 0⟩

/-- Writes a line. -/
def line (t : Text) (w : Writer) : Writer := { w with lines := ⟨w.depth, t⟩ :: w.lines }

/-- Writes what stands one block deeper. -/
def nested (body : Writer → Writer) (w : Writer) : Writer :=
  let w := body { w with depth := w.depth + 1 }
  { w with depth := w.depth - 1 }

/-- Writes the body of a loop, which is the innermost one meanwhile. -/
def inLoop (number : Option Nat) (body : Writer → Writer) (w : Writer) : Writer :=
  let w := nested body { w with loops := number :: w.loops }
  { w with loops := w.loops.tail }

/-- The number of the innermost loop, if there is one and it is labelled. -/
def target (w : Writer) : Option Nat := w.loops.head?.join

/-- All that has been written. -/
def code (w : Writer) : Text := w.lines.reverse.flatMap Line.written

end Writer

end Stencil.Code
