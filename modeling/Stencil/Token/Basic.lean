import Stencil.Token.Piece

/-!
# Tokens

A token is a kind with the positions of its first and of its last character. Lines and columns
count from one, columns in characters; offsets are in bytes. A token does not hold its text: that
is looked up in the source.
-/

namespace Stencil

/-- A place in a template. The offset is negative only at the end of file, which lies nowhere. -/
structure Position where
  line : Nat
  column : Nat
  offset : Int
  deriving DecidableEq, Repr

namespace Position

/-- The first place of a text. -/
def start : Position := ⟨1, 1, 0⟩

/-- The position of the end of file. -/
def nowhere : Position := ⟨0, 0, -1⟩

/-- The place after `t` on the same line. -/
def past (p : Position) (t : Text) : Position :=
  ⟨p.line, p.column + t.length, p.offset + Text.bytes t⟩

/-- The first place of the next line, after `t`. -/
def nextLine (p : Position) (t : Text) : Position :=
  ⟨p.line + 1, 1, p.offset + Text.bytes t⟩

end Position

/-- A token; both positions belong to it. -/
structure Token where
  kind : Kind
  first : Position
  last : Position
  deriving DecidableEq, Repr

namespace Token

/-- The token at the end of every template. -/
def eof : Token := ⟨.eof, .nowhere, .nowhere⟩

/-- Where the token stands in the source, in bytes: from its first character through its last. -/
def range (source : Text) (token : Token) : Nat × Nat :=
  if token.kind = .eof ∨ token.first.offset < 0 ∨ token.last.offset < 0 then (0, 0)
  else
    let last := token.last.offset.toNat
    let width := ((Text.dropBytes? source last).bind List.head?).elim 0 Char.utf8Size
    (token.first.offset.toNat, last + width)

/-- The part of the source that the token covers; empty if its positions do not fit the source. -/
def text (source : Text) (token : Token) : Text :=
  let (start, stop) := token.range source
  (Text.slice? source start stop).getD []

/-- The token without its trim marker. -/
def plain (token : Token) : Token := { token with kind := token.kind.plain }

/-- Kind, first line and column, last line and column. -/
def describe (token : Token) : String :=
  token.kind.name ++ "(" ++ toString token.first.line ++ ":" ++ toString token.first.column ++ "-"
    ++ toString token.last.line ++ ":" ++ toString token.last.column ++ ")"

/-- Tokens of consecutive pieces, the first of which starts at `p`, and the end of file. -/
def locate (p : Position) : List Piece → List Token
  | [] => [eof]
  | piece :: pieces =>
    let next := if piece.kind = .newline then p.nextLine piece.text else p.past piece.text
    ⟨piece.kind, p, p.past piece.text.dropLast⟩ :: locate next pieces

/-- The tokens of a template. -/
def scan (source : Text) : List Token := locate .start (Piece.segment source)

end Token

end Stencil
