import Stencil.ParseError
import Stencil.Span

/-!
# Items of a template

Before a template is read as a tree its tokens are grouped into items: runs of literal text and
blocks. Grouping ends at the end of file or at the first token that fits no item; what was grouped
before that is still of use, because an earlier offence counts first.
-/

namespace Stencil

/-- A block: its delimiters, the blanks before its first word, that word, and what follows it. -/
structure Block where
  enter : Token
  lead : List Token
  identifier : Token
  more : List Token
  exit : Token
  deriving DecidableEq, Repr

namespace Block

/-- Whether the block holds one word only. -/
def isBare (block : Block) : Bool := block.more.all (·.kind ≠ .raw)

/-- The keyword that the first word is. -/
def keyword? (source : Text) (block : Block) : Option Keyword :=
  Keyword.ofText? (block.identifier.text source)

/-- Everything between the delimiters, without blanks at the ends. -/
def content (source : Text) (block : Block) : Span :=
  (Span.covering source (block.lead.headD block.identifier)
    (block.more.getLastD block.identifier)).trim source

/-- Everything after the first word, without blanks at the ends; empty, and at the exit, if there is
nothing. -/
def remainder (source : Text) (block : Block) : Span :=
  match block.more with
  | [] =>
    let start := (block.exit.range source).1
    ⟨start, start⟩
  | first :: rest => (Span.covering source first (rest.getLastD first)).trim source

/-- The second word, at which a block that should hold one word only goes wrong. -/
def second (block : Block) : Token :=
  (block.more.find? (·.kind = .raw)).getD block.identifier

end Block

/-- A run of text tokens, which is never empty, or a block. -/
inductive Item
  | text (first : Token) (rest : List Token)
  | block (block : Block)
  deriving DecidableEq, Repr

/-- Why grouping ended: at an end of file, or at an offence. -/
inductive Ending
  | finished (token : Token)
  | broken (error : ParseError)
  deriving DecidableEq, Repr

namespace Item

/-- The block that `enter` opens, given the tokens after it. A delimiter that cannot stand in the
block is the first thing noted, then the lack of a word, then the lack of an exit. -/
def block? (source : Text) (enter : Token) (tokens : List Token) : Except ParseError Block :=
  let inner := tokens.takeWhile (·.kind.isText)
  let stop := (tokens.dropWhile (·.kind.isText)).headD .eof
  if stop.kind.isExit ∧ stop.kind.family? ≠ enter.kind.family? then
    .error (.ofToken source stop (.mismatchedExit (enter.kind.family?.getD .output)))
  else if stop.kind.isEnter then .error (.ofToken source stop .nestedBlock)
  else
    match inner.dropWhile (·.kind ≠ .raw) with
    | [] => .error (.ofToken source (tokens.headD .eof) .emptyBlock)
    | identifier :: more =>
      if stop.kind.isExit then
        .ok ⟨enter, inner.takeWhile (·.kind ≠ .raw), identifier, more, stop⟩
      else .error (.ofToken source identifier .missingExit)

/-- The items that tokens make up, and why there are no more. -/
def group (source : Text) : List Token → List Item × Ending
  | [] => ([], .finished .eof)
  | token :: tokens =>
    let rest := tokens.dropWhile (·.kind.isText)
    if token.kind = .eof then ([], .finished token)
    else if token.kind.isText then
      let (items, ending) := group source rest
      (.text token (tokens.takeWhile (·.kind.isText)) :: items, ending)
    else if token.kind.isExit then ([], .broken (.ofToken source token .strayExit))
    else
      match block? source token tokens with
      | .error error => ([], .broken error)
      | .ok found =>
        let (items, ending) := group source (rest.drop 1)
        (.block found :: items, ending)
termination_by tokens => tokens.length
decreasing_by
  all_goals
    have := (List.dropWhile_sublist (fun t : Token => t.kind.isText) (l := tokens)).length_le
    simp only [List.length_cons, List.length_drop]
    omega

end Item

end Stencil
