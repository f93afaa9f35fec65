import Stencil.Text.Basic

/-!
# Keywords

The first word of a block selects what the block is. Any other first word makes the block an
expression to be rendered.
-/

namespace Stencil

/-- The three kinds of loops. -/
inductive LoopKind
  | forLoop
  | foreachLoop
  | whileLoop
  deriving DecidableEq, Repr

namespace LoopKind

def spelling : LoopKind → String
  | forLoop => "for"
  | foreachLoop => "foreach"
  | whileLoop => "while"

end LoopKind

/-- The ways to leave a body before its end: out of the innermost loop, on to its next round, or out
of the template. -/
inductive Jump
  | breaks
  | continues
  | returns
  deriving DecidableEq, Repr

namespace Jump

def spelling : Jump → String
  | breaks => "break"
  | continues => "continue"
  | returns => "return"

end Jump

/-- The first words that make a block a directive. -/
inductive Keyword
  | declare
  | call
  | branch
  | elseIf
  | otherwise
  | loop (kind : LoopKind)
  | jump (jump : Jump)
  | close
  deriving DecidableEq, Repr

namespace Keyword

def spelling : Keyword → String
  | declare => "var"
  | call => "call"
  | branch => "if"
  | elseIf => "elseif"
  | otherwise => "else"
  | loop kind => kind.spelling
  | jump j => j.spelling
  | close => "end"

/-- Every keyword once. -/
def all : List Keyword :=
  [declare, call, branch, elseIf, otherwise, loop .forLoop, loop .foreachLoop, loop .whileLoop,
   jump .breaks, jump .continues, jump .returns, close]

/-- The keyword with this spelling. -/
def ofText? (t : Text) : Option Keyword := all.find? fun keyword => keyword.spelling.toList == t

/-- Keywords that close an open body or go on to the next one of the same construct. -/
def isTerminator : Keyword → Bool
  | elseIf | otherwise | close => true
  | _ => false

/-- A keyword is read from its spelling and from no other text. -/
theorem ofText?_eq_some_iff {t : Text} {keyword : Keyword} :
    ofText? t = some keyword ↔ t = keyword.spelling.toList := by
  constructor
  · intro h
    have found : keyword.spelling.toList = t := by simpa using List.find?_some h
    exact found.symm
  · rintro rfl
    cases keyword <;> first | rfl | (rename_i k; cases k <;> rfl)

end Keyword

end Stencil
