import Stencil.Text.Basic

/-!
# Quoted texts

A text as a string literal: double quotes around it, a backslash before quotes and backslashes,
short escapes for the common control characters, and `\u` with the code point in braces for any
other character that cannot be shown.
-/

namespace Stencil.Text

/-- The digits of a number in base sixteen, lower case, without leading zeros. -/
def hexDigits (n : Nat) : Text := Nat.toDigits 16 n

/-- A character as it stands inside a string literal. -/
def escaped (c : Char) : Text :=
  match c with
  | '"' => ['\\', '"']
  | '\\' => ['\\', '\\']
  | '\n' => ['\\', 'n']
  | '\r' => ['\\', 'r']
  | '\t' => ['\\', 't']
  | '\x00' => ['\\', '0']
  | c => if isShown c then [c] else ['\\', 'u', '{'] ++ hexDigits c.toNat ++ ['}']

/-- The text as a string literal. -/
def quoted (t : Text) : Text := ['"'] ++ t.flatMap escaped ++ ['"']

end Stencil.Text
