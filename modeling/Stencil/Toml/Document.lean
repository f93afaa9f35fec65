import Stencil.Toml.Scan

/-!
# TOML documents

A document is a sequence of lines. A header opens a table, and the pairs after it go there.
-/

namespace Stencil.Toml

/-- What a line says. -/
inductive Line
  | header (path : List Text) (key : Text)
  | element (path : List Text) (key : Text)
  | pair (path : List Text) (key : Text) (value : Value)

namespace Scan

/-- A header in brackets, or in double brackets. -/
def header : Scan Line := do
  literal ['[']
  let isElement := (← perhaps (literal ['['])).isSome
  spaces
  let (path, last) ← key
  spaces
  literal [']']
  if isElement then
    literal [']']
    return .element path last
  else return .header path last

/-- A line, without its end. -/
def line : Scan (Option Line) := do
  spaces
  let said ← perhaps (header <|> (do
    let ((path, last), v) ← pair value
    return .pair path last v))
  spaces
  discard (perhaps comment)
  return said

/-- All lines of a document. -/
def lines : Scan (List Line) := do
  discard (perhaps (literal ['\ufeff']))
  let before ← many (do
    let said ← line
    lineEnd
    return said)
  let last ← line
  atEnd
  return (before ++ [last]).flatMap Option.toList

end Scan

namespace Line

/-- Adds what lines say to a document, in which the table at `current` is open. -/
def add? (current : List Text) (root : Entries) : List Line → Option Entries
  | [] => some root
  | header path key :: lines => do
    add? (path ++ [key]) (← root.addHeader? path key) lines
  | element path key :: lines => do
    add? (path ++ [key]) (← root.addElement? path key) lines
  | pair path key value :: lines => do
    add? current (← Entries.change? .path (Entries.addPair? path key value) current .header root)
      lines

end Line

/-- The entries of the document that a text is. -/
def parse? (t : Text) : Option Entries :=
  (Scan.lines t).bind fun (lines, _) => Line.add? [] [] lines

end Stencil.Toml
