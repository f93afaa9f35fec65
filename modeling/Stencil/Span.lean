import Stencil.Token.Basic

/-!
# Spans

A span is a half-open range of bytes of a template. The syntax tree holds spans and no text.
-/

namespace Stencil

/-- The bytes from `start` up to, not including, `stop`. -/
structure Span where
  start : Nat
  stop : Nat
  deriving DecidableEq, Repr

namespace Span

/-- From the first byte of `first` through the last byte of `last`. -/
def covering (source : Text) (first last : Token) : Span :=
  let start := (first.range source).1
  ⟨start, max (last.range source).2 start⟩

/-- The part of the source in the span; empty if the span does not fit the source. -/
def text (source : Text) (span : Span) : Text :=
  (Text.slice? source span.start span.stop).getD []

def isEmpty (span : Span) : Bool := span.stop ≤ span.start

/-- The span without the blanks at its ends; if there is nothing else in it, the empty span at its
start. -/
def trim (source : Text) (span : Span) : Span :=
  let t := span.text source
  if t.all Text.isBlank then ⟨span.start, span.start⟩
  else
    ⟨span.start + Text.bytes (t.takeWhile Text.isBlank),
      span.stop - Text.bytes (t.reverse.takeWhile Text.isBlank)⟩

end Span

end Stencil
