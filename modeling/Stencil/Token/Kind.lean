import Stencil.Text.Basic

/-!
# Token kinds

A template is cut into blanks, line breaks, raw runs and block delimiters. A delimiter belongs to
the output family (double braces) or to the directive family (brace and percent sign), enters or
exits a block, and may carry a trim marker.
-/

namespace Stencil

/-- The two families of block delimiters. -/
inductive Family
  | output
  | directive
  deriving DecidableEq, Repr

/-- What a token is. -/
inductive Kind
  | eof
  | blank
  | newline
  | raw
  | enter (family : Family) (trims : Bool)
  | exit (family : Family) (trims : Bool)
  deriving DecidableEq, Repr

namespace Kind

/-- Tokens that make up literal text between blocks, and the content of blocks. -/
def isText : Kind → Bool
  | blank | newline | raw => true
  | _ => false

def isEnter : Kind → Bool
  | enter .. => true
  | _ => false

def isExit : Kind → Bool
  | exit .. => true
  | _ => false

/-- Delimiters with a trim marker. -/
def isTrim : Kind → Bool
  | enter _ trims | exit _ trims => trims
  | _ => false

def family? : Kind → Option Family
  | enter family _ | exit family _ => some family
  | _ => none

/-- The delimiter of the same family and direction without a trim marker. -/
def plain : Kind → Kind
  | enter family _ => enter family false
  | exit family _ => exit family false
  | kind => kind

/-- The name of a kind in messages. -/
def name : Kind → String
  | eof => "Eof"
  | blank => "Whitespace"
  | newline => "Newline"
  | raw => "Raw"
  | enter .output false => "OutputEnter"
  | exit .output false => "OutputExit"
  | enter .output true => "OutputTrimEnter"
  | exit .output true => "OutputTrimExit"
  | enter .directive false => "DirectiveEnter"
  | exit .directive false => "DirectiveExit"
  | enter .directive true => "DirectiveTrimEnter"
  | exit .directive true => "DirectiveTrimExit"

/-- How a delimiter is written; other kinds have no fixed spelling. -/
def literal : Kind → Text
  | enter .output true => ['{', '{', '-']
  | enter .output false => ['{', '{']
  | exit .output true => ['-', '}', '}']
  | exit .output false => ['}', '}']
  | enter .directive true => ['{', '%', '-']
  | enter .directive false => ['{', '%']
  | exit .directive true => ['-', '%', '}']
  | exit .directive false => ['%', '}']
  | _ => []

/-- The delimiters in the order in which they are looked for: a literal stands before the ones that
are a first part of it. -/
def delimiters : List Kind :=
  [enter .output true, enter .output false, exit .output true, exit .output false,
   enter .directive true, enter .directive false, exit .directive true, exit .directive false]

/-! ## Kinds exclude one another -/

theorem ne_eof_of_isText {kind : Kind} (h : kind.isText) : kind ≠ .eof := by
  rintro rfl
  cases h

theorem ne_eof_of_isEnter {kind : Kind} (h : kind.isEnter) : kind ≠ .eof := by
  rintro rfl
  cases h

theorem ne_eof_of_isExit {kind : Kind} (h : kind.isExit) : kind ≠ .eof := by
  rintro rfl
  cases h

theorem not_isExit_of_isText {kind : Kind} (h : kind.isText) : ¬kind.isExit := by
  cases kind <;> simp_all [isText, isExit]

theorem not_isText_of_isExit {kind : Kind} (h : kind.isExit) : ¬kind.isText :=
  fun htext => not_isExit_of_isText htext h

theorem not_isText_of_isEnter {kind : Kind} (h : kind.isEnter) : ¬kind.isText := by
  cases kind <;> simp_all [isText, isEnter]

theorem not_isExit_of_isEnter {kind : Kind} (h : kind.isEnter) : ¬kind.isExit := by
  cases kind <;> simp_all [isEnter, isExit]

theorem not_isEnter_of_isExit {kind : Kind} (h : kind.isExit) : ¬kind.isEnter :=
  fun henter => not_isExit_of_isEnter henter h

/-- A kind that is neither the end of file nor text nor an exit is an enter. -/
theorem isEnter_of_not {kind : Kind} (heof : kind ≠ .eof) (htext : ¬kind.isText)
    (hexit : ¬kind.isExit) : kind.isEnter := by
  cases kind <;> simp_all [isText, isEnter, isExit]

end Kind

end Stencil
