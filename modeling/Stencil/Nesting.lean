import Stencil.Text.Basic

/-!
# Brackets and quotes in expression text

Expression text is split at commas and semicolons long before it is read as an expression. What is
needed for that is only how deep in brackets a place lies, and whether it lies in a quoted string.
The three kinds of brackets are not told apart, and a closing bracket too many changes nothing.
-/

namespace Stencil

/-- Where a place in expression text lies. -/
inductive Nesting
  /-- In no string, under `depth` open brackets. -/
  | outside (depth : Nat)
  /-- In a string that ends at `quote`; after a backslash the next character is taken as it is. -/
  | inside (depth : Nat) (quote : Char) (escaped : Bool)
  deriving DecidableEq, Repr

namespace Nesting

def isQuote (c : Char) : Bool := c == '"' || c == '\''

def isOpening (c : Char) : Bool := c == '(' || c == '[' || c == '{'

def isClosing (c : Char) : Bool := c == ')' || c == ']' || c == '}'

/-- The nesting after one more character. -/
def step : Nesting → Char → Nesting
  | inside depth quote true, _ => inside depth quote false
  | inside depth quote false, c =>
    if c = '\\' then inside depth quote true
    else if c = quote then outside depth
    else inside depth quote false
  | outside depth, c =>
    if isQuote c then inside depth c false
    else if isOpening c then outside (depth + 1)
    else if isClosing c then outside (depth - 1)
    else outside depth

/-- Whether a character met at this nesting stands at the top level: under no bracket, in no string,
and itself neither a bracket nor a quote. -/
def isTop (nesting : Nesting) (c : Char) : Bool :=
  nesting = outside 0 && !isQuote c && !isOpening c && !isClosing c

/-- The first part and the later parts of a text that starts at the given nesting, cut at every
separator that stands at the top level. -/
def splitFrom (separator : Char) : Nesting → Text → Text × List Text
  | _, [] => ([], [])
  | nesting, c :: t =>
    let (part, parts) := splitFrom separator (nesting.step c) t
    if nesting.isTop c && c == separator then ([], part :: parts) else (c :: part, parts)

/-- The parts of a text between the separators that stand at the top level; always at least one. -/
def split (separator : Char) (t : Text) : List Text :=
  let (part, parts) := splitFrom separator (outside 0) t
  part :: parts

/-- Byte ranges of parts of which the first starts at `start`, with `separator` between them. -/
def ranges (separator : Char) (start : Nat) : List Text → List (Nat × Nat)
  | [] => []
  | part :: parts =>
    let stop := start + Text.bytes part
    (start, stop) :: ranges separator (stop + separator.utf8Size) parts

/-- What stands before and after the parenthesis that leads back to the top level. -/
def closing? : Nesting → Text → Option (Text × Text)
  | _, [] => none
  | nesting, c :: t =>
    let next := nesting.step c
    if c = ')' ∧ next = outside 0 then some ([], t)
    else (closing? next t).map fun (before, after) => (c :: before, after)

/-- The first part and the later ones, with separators between them, are the text. -/
theorem join_splitFrom (separator : Char) (nesting : Nesting) (t : Text) :
    Text.joinWith [separator] ((splitFrom separator nesting t).1
      :: (splitFrom separator nesting t).2) = t := by
  induction t generalizing nesting with
  | nil => rfl
  | cons c t ih =>
    have rest := ih (nesting.step c)
    simp only [splitFrom]
    split
    · rename_i h
      obtain ⟨-, rfl⟩ : nesting.isTop c ∧ c = separator := by simpa using h
      simpa [Text.joinWith] using rest
    · rcases h : splitFrom separator (nesting.step c) t with ⟨part, _ | ⟨next, parts⟩⟩
      · simpa [h, Text.joinWith] using rest
      · simpa [h, Text.joinWith] using rest

end Nesting

end Stencil
