import Stencil.Keyword
import Stencil.Token.Basic

/-!
# Malformed templates

Why a template is refused, at which token, and in which words.
-/

namespace Stencil

/-- What is wrong with a template. -/
inductive Reason
  | unexpectedEnd
  | strayExit
  | emptyBlock
  | missingExit
  | nestedBlock
  | mismatchedExit (opened : Family)
  | extraContent (keyword : Keyword)
  | missingCondition (keyword : Keyword)
  | missingAssignment
  | missingParameters
  | malformedCall
  | strayKeyword (keyword : Keyword)
  | tooDeep (limit : Nat)
  | elseIfAfterElse
  | secondElse
  deriving DecidableEq, Repr

namespace Reason

/-- The wording of a reason. -/
def message : Reason → String
  | unexpectedEnd => "unexpected end of file, expected an end block"
  | strayExit => "block exit token found without a matching block entry"
  | emptyBlock => "block is empty"
  | missingExit => "exit token not found"
  | nestedBlock => "nested blocks are not allowed"
  | mismatchedExit .directive => "output block exit token cannot close a directive block"
  | mismatchedExit .output => "directive block exit token cannot close an output block"
  | extraContent keyword => keyword.spelling ++ " statement should only contain the identifier"
  | missingCondition keyword => keyword.spelling ++ " statement requires a condition"
  | missingAssignment => "var statement requires an assignment expression"
  | missingParameters => "call statement requires parameters"
  | malformedCall => "call statement requires a function name and () with optional parameters"
  | strayKeyword keyword => keyword.spelling ++ " found but not expected"
  | tooDeep limit => "maximum nesting depth of " ++ toString limit ++ " exceeded"
  | elseIfAfterElse => "cannot have elseif after else in an if statement"
  | secondElse => "only one else is allowed within an if statement"

end Reason

/-- The first offence of a malformed template: the offending token (the end of file when the
template ran out), its text and the reason. -/
structure ParseError where
  token : Token
  value : Text
  reason : Reason
  deriving DecidableEq, Repr

namespace ParseError

/-- An offence at a token of the source. -/
def ofToken (source : Text) (token : Token) (reason : Reason) : ParseError :=
  ⟨token, token.text source, reason⟩

/-- Words for an offence: the place, kind and text of the token with the reason. -/
def describe (token : Token) (value : Text) (reason : String) : String :=
  if token.kind = .eof then "Parse error at end of file: " ++ reason
  else
    "Parse error at " ++ toString token.first.line ++ ":" ++ toString token.first.column ++ " ("
      ++ token.kind.name ++ "): " ++ reason ++ " (value: '" ++ String.ofList value ++ "')"

def message (error : ParseError) : String := describe error.token error.value error.reason.message

end ParseError

end Stencil
