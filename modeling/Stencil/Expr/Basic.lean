import Stencil.Expr.Lexeme

/-!
# Expressions and statements
-/

namespace Stencil

/-- Operators with two operands. -/
inductive BinaryOp
  | mul
  | div
  | rem
  | add
  | sub
  | lt
  | le
  | gt
  | ge
  | eq
  | ne
  | and
  | or
  deriving DecidableEq, Repr

namespace BinaryOp

def label : BinaryOp → String
  | mul => "Mul"
  | div => "Div"
  | rem => "Rem"
  | add => "Add"
  | sub => "Sub"
  | lt => "Lt"
  | le => "Le"
  | gt => "Gt"
  | ge => "Ge"
  | eq => "Eq"
  | ne => "Ne"
  | and => "And"
  | or => "Or"

/-- How tightly an operator binds, the loosest at 0 and the tightest at 5. -/
def level : BinaryOp → Nat
  | or => 0
  | and => 1
  | eq | ne => 2
  | lt | le | gt | ge => 3
  | add | sub => 4
  | mul | div | rem => 5

/-- The operator that a lexeme stands for between two operands. -/
def ofLexeme? : Lexeme → Option BinaryOp
  | .reserved .or | .symbol .eitherOr => some or
  | .reserved .and | .symbol .bothAnd => some and
  | .symbol .equal => some eq
  | .symbol .notEqual => some ne
  | .symbol .less => some lt
  | .symbol .atMost => some le
  | .symbol .greater => some gt
  | .symbol .atLeast => some ge
  | .symbol .plus => some add
  | .symbol .minus => some sub
  | .symbol .star => some mul
  | .symbol .slash => some div
  | .symbol .percent => some rem
  | _ => none

/-- The operator of the given level that a lexeme stands for. -/
def atLevel? (level : Nat) (lexeme : Lexeme) : Option BinaryOp :=
  (ofLexeme? lexeme).filter (·.level == level)

end BinaryOp

/-- Operators before their operand. -/
inductive UnaryOp
  | not
  | neg
  deriving DecidableEq, Repr

namespace UnaryOp

def label : UnaryOp → String
  | not => "Not"
  | neg => "Neg"

/-- The operator that a lexeme stands for before an operand. -/
def ofLexeme? : Lexeme → Option UnaryOp
  | .symbol .bang | .reserved .not => some not
  | .symbol .minus => some neg
  | _ => none

end UnaryOp

/-- An expression. -/
inductive Expr
  | string (content : Text)
  | int (value : Word)
  | bool (value : Bool)
  | null
  | var (name : Text)
  | array (elements : List Expr)
  | member (object : Expr) (name : Text)
  | index (object index : Expr)
  | unary (op : UnaryOp) (operand : Expr)
  | binary (op : BinaryOp) (left right : Expr)

/-- A statement: binds a name anew, or gives the nearest binding of a name another value. -/
inductive Statement
  | declare (name : Text) (value : Expr)
  | update (name : Text) (value : Expr)

end Stencil
