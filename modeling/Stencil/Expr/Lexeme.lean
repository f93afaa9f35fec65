import Stencil.Text.Quoted
import Stencil.Word

/-!
# Lexemes

The words and signs of expressions and statements. A lexeme is shown in messages in a form of its
own (`Lexeme.shown`), which is not how it is written.
-/

namespace Stencil

/-- Names that are taken. -/
inductive Reserved
  | true
  | false
  | null
  | and
  | or
  | not
  | mutable
  deriving DecidableEq, Repr

namespace Reserved

def spelling : Reserved → String
  | true => "true"
  | false => "false"
  | null => "null"
  | and => "and"
  | or => "or"
  | not => "not"
  | mutable => "mut"

/-- The name of a reserved word in messages. -/
def label : Reserved → String
  | true => "True"
  | false => "False"
  | null => "Null"
  | and => "And"
  | or => "Or"
  | not => "Not"
  | mutable => "Mut"

def all : List Reserved := [true, false, null, and, or, not, mutable]

/-- The reserved word with this spelling. -/
def ofText? (t : Text) : Option Reserved := all.find? fun word => word.spelling.toList == t

end Reserved

/-- Signs. -/
inductive Symbol
  | equal
  | notEqual
  | atMost
  | atLeast
  | plusAssign
  | minusAssign
  | plusPlus
  | minusMinus
  | bothAnd
  | eitherOr
  | less
  | greater
  | assign
  | plus
  | minus
  | star
  | slash
  | percent
  | bang
  | dot
  | comma
  | leftBracket
  | rightBracket
  | leftParen
  | rightParen
  deriving DecidableEq, Repr

namespace Symbol

def spelling : Symbol → Text
  | equal => ['=', '=']
  | notEqual => ['!', '=']
  | atMost => ['<', '=']
  | atLeast => ['>', '=']
  | plusAssign => ['+', '=']
  | minusAssign => ['-', '=']
  | plusPlus => ['+', '+']
  | minusMinus => ['-', '-']
  | bothAnd => ['&', '&']
  | eitherOr => ['|', '|']
  | less => ['<']
  | greater => ['>']
  | assign => ['=']
  | plus => ['+']
  | minus => ['-']
  | star => ['*']
  | slash => ['/']
  | percent => ['%']
  | bang => ['!']
  | dot => ['.']
  | comma => [',']
  | leftBracket => ['[']
  | rightBracket => [']']
  | leftParen => ['(']
  | rightParen => [')']

/-- The name of a sign in messages. -/
def label : Symbol → String
  | equal => "EqEq"
  | notEqual => "NotEq"
  | atMost => "Le"
  | atLeast => "Ge"
  | plusAssign => "PlusAssign"
  | minusAssign => "MinusAssign"
  | plusPlus => "PlusPlus"
  | minusMinus => "MinusMinus"
  | bothAnd => "AndAnd"
  | eitherOr => "OrOr"
  | less => "Lt"
  | greater => "Gt"
  | assign => "Assign"
  | plus => "Plus"
  | minus => "Minus"
  | star => "Star"
  | slash => "Slash"
  | percent => "Percent"
  | bang => "Bang"
  | dot => "Dot"
  | comma => "Comma"
  | leftBracket => "LBracket"
  | rightBracket => "RBracket"
  | leftParen => "LParen"
  | rightParen => "RParen"

/-- Every sign once. Those of two characters stand first, so that the first one found at the front
of a text is the longest. -/
def all : List Symbol :=
  [equal, notEqual, atMost, atLeast, plusAssign, minusAssign, plusPlus, minusMinus, bothAnd,
   eitherOr, less, greater, assign, plus, minus, star, slash, percent, bang, dot, comma,
   leftBracket, rightBracket, leftParen, rightParen]

end Symbol

/-- A word or sign of an expression. -/
inductive Lexeme
  | reserved (word : Reserved)
  | symbol (symbol : Symbol)
  | name (name : Text)
  | int (value : Word)
  | string (content : Text)
  deriving DecidableEq

namespace Lexeme

/-- How a lexeme is shown in messages. -/
def shown : Lexeme → Text
  | reserved word => word.label.toList
  | symbol s => s.label.toList
  | name n => "Ident(".toList ++ Text.quoted n ++ [')']
  | int n => "Int(".toList ++ n.text ++ [')']
  | string s => "StringLit(".toList ++ Text.quoted s ++ [')']

/-- How a lexeme, or that there is none, is shown in messages. -/
def shownOption : Option Lexeme → Text
  | none => "None".toList
  | some lexeme => "Some(".toList ++ lexeme.shown ++ [')']

end Lexeme

/-- Why a text is no expression or no statement. -/
inductive ExprError
  | unterminatedString
  | outOfRange (digits : Text)
  | unexpectedCharacter (c : Char)
  | tooDeep
  | expectedExpression (got : Option Lexeme)
  | expectedAttribute (got : Option Lexeme)
  | expectedElementEnd (got : Option Lexeme)
  | expectedClosing (wanted : Symbol) (got : Option Lexeme)
  | expectedVariable (got : Option Lexeme)
  | expectedAssignment (got : Option Lexeme)
  | leftOver (lexeme : Lexeme)
  deriving DecidableEq

namespace ExprError

/-- How deep parentheses, brackets and prefix operators may nest in an expression. -/
def maxNesting : Nat := 64

/-- The wording of an error. -/
def message : ExprError → Text
  | unterminatedString => "unterminated string literal".toList
  | outOfRange digits => "integer literal ".toList ++ digits ++ " is out of range".toList
  | unexpectedCharacter c => "unexpected character '".toList ++ [c, '\'']
  | tooDeep => "expression nests deeper than ".toList ++ Nat.toDigits 10 maxNesting
      ++ " levels".toList
  | expectedExpression got => "expected expression, got ".toList ++ Lexeme.shownOption got
  | expectedAttribute got =>
    "expected identifier after dot, got ".toList ++ Lexeme.shownOption got
  | expectedElementEnd got => "expected ',' or ']', got ".toList ++ Lexeme.shownOption got
  | expectedClosing wanted got =>
    "expected ".toList ++ wanted.label.toList ++ ", got ".toList
      ++ got.elim "end of input".toList Lexeme.shown
  | expectedVariable got => "expected a variable name, got ".toList ++ Lexeme.shownOption got
  | expectedAssignment got => "expected an assignment, got ".toList ++ Lexeme.shownOption got
  | leftOver lexeme => "unexpected ".toList ++ lexeme.shown ++ " after expression".toList

end ExprError

end Stencil
