import Stencil.Token.Kind

/-!
# Pieces of a template

A template is cut into pieces, each with a kind and its text. At every place the first of these
wins: a line break, a delimiter, a run of blanks that stops before a line break, a run of raw
characters that stops before a blank or a delimiter. The main definition is `segment`; no character
is lost (`flatten_segment`).
-/

namespace Stencil

/-- A part of a template with its kind. -/
structure Piece where
  kind : Kind
  text : Text
  deriving DecidableEq, Repr

namespace Piece

/-- The line break at the front of the text: a line feed, with or without a carriage return before
it. -/
def newline? : Text → Option Text
  | '\r' :: '\n' :: _ => some ['\r', '\n']
  | '\n' :: _ => some ['\n']
  | _ => none

/-- The delimiter at the front of the text. -/
def delimiter? (t : Text) : Option Kind :=
  Kind.delimiters.find? fun kind => kind.literal.isPrefixOf t

/-- Whether a run of blanks may go on here. -/
def startsBlank : Text → Bool
  | [] => false
  | c :: t => Text.isBlank c && (newline? (c :: t)).isNone

/-- Whether a raw run may go on here. -/
def startsRaw : Text → Bool
  | [] => false
  | c :: t => !Text.isBlank c && (delimiter? (c :: t)).isNone

/-- Number of characters before the first place where `goesOn`, shown the text from that place on,
fails. -/
def runLength (goesOn : Text → Bool) : Text → Nat
  | [] => 0
  | c :: t => if goesOn (c :: t) then runLength goesOn t + 1 else 0

/-- Kind and number of characters of the first piece. -/
def leading (t : Text) : Kind × Nat :=
  match newline? t with
  | some break_ => (.newline, break_.length)
  | none =>
    match delimiter? t with
    | some kind => (kind, kind.literal.length)
    | none =>
      match runLength startsBlank t with
      | 0 => (.raw, runLength startsRaw t)
      | n + 1 => (.blank, n + 1)

/-- The pieces of a text, in order. -/
def segment : Text → List Piece
  | [] => []
  | c :: t =>
    let (kind, length) := leading (c :: t)
    ⟨kind, c :: t.take (length - 1)⟩ :: segment (t.drop (length - 1))
termination_by t => t.length
decreasing_by simp only [List.length_drop, List.length_cons]; omega

/-- The pieces put together again are the text. -/
theorem flatten_segment (t : Text) : ((segment t).map Piece.text).flatten = t := by
  fun_induction segment t with
  | case1 => rfl
  | case2 c t kind length _ ih => simp [ih]

end Piece

end Stencil
