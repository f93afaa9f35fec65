import Stencil.Nesting
import Stencil.Span

/-!
# Reading a call

What follows the word `call` is a name and, in parentheses, arguments separated by commas. This
module finds the spans of these parts, and the indentation of the line that a call stands on.
-/

namespace Stencil.Span

/-- Name and arguments of a call, given the span of what follows the word `call`. The parenthesis
that closes the first one must be the last character. An empty argument is left out. -/
def call? (source : Text) (span : Span) : Option (Span × List Span) :=
  let t := span.text source
  let before := t.takeWhile (· ≠ '(')
  let name := trim source ⟨span.start, span.start + Text.bytes before⟩
  if name.isEmpty then none
  else
    match Nesting.closing? (.outside 1) ((t.dropWhile (· ≠ '(')).drop 1) with
    | some (inner, []) =>
      let start := span.start + Text.bytes before + 1
      let arguments := (Nesting.ranges ',' start (Nesting.split ',' inner)).map
        fun (start, stop) => trim source ⟨start, stop⟩
      some (name, arguments.filter (!·.isEmpty))
    | _ => none

/-- The blanks that end the span, if they are all that stands on their line and the line starts in
the span. -/
def indentation? (source : Text) (span : Span) : Option Span :=
  (Text.takeBytes? source span.stop).bind fun before =>
    let line := Text.lastLine before
    let start := span.stop - Text.bytes line
    if span.start ≤ start ∧ start < span.stop ∧ line.all Text.isBlank then some ⟨start, span.stop⟩
    else none

end Stencil.Span
