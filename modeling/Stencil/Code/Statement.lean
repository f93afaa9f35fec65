import Stencil.Text.Basic

/-!
# Statements in code

Declarations and updates of the expression language as Rust statements, made from their text alone:
a declaration becomes a `let` with `mut`, an update is left as an assignment, and increments are
spelled out.
-/

namespace Stencil.Code

/-- What stands before the given ending. -/
def dropEnding? (ending t : Text) : Option Text :=
  if ending.isSuffixOf t then some (t.take (t.length - ending.length)) else none

/-- A statement with `++` or `--` at its end spelled out as an assignment. -/
def assignment (t : Text) : Text :=
  match dropEnding? ['+', '+'] t with
  | some name => Text.trimEnd name ++ " += 1".toList
  | none =>
    match dropEnding? ['-', '-'] t with
    | some name => Text.trimEnd name ++ " -= 1".toList
    | none => t

/-- A declaration that can be assigned to later. -/
def letMut (t : Text) : Text :=
  if "mut ".toList.isPrefixOf t then "let ".toList ++ t ++ [';']
  else "let mut ".toList ++ t ++ [';']

/-- The signs that make a statement an update when they follow its name. -/
def updates : List Text := [['+', '='], ['-', '='], ['+', '+'], ['-', '-']]

/-- The line for a statement. -/
def statement (t : Text) : Text :=
  let t := Text.trim t
  let rest := Text.trimStart (t.dropWhile Text.isNamePart)
  if updates.any (·.isPrefixOf rest) then assignment t ++ [';'] else letMut t

end Stencil.Code
