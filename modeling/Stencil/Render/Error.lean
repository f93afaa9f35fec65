import Stencil.Keyword
import Stencil.Text.Basic

/-!
# Failures of rendering
-/

namespace Stencil

/-- Why rendering failed; `ε` is what evaluators fail with. -/
inductive RenderError (ε : Type)
  | eval (expression : Text) (error : ε)
  | unknownTemplate (name : Text)
  | argumentCount (name : Text) (expected found : Nat)
  | malformedHeader (kind : LoopKind) (header : Text)
  | loopLimit (limit : Nat)
  | strayJump (jump : Jump)
  | callDepth (limit : Nat)
  deriving DecidableEq, Repr

namespace RenderError

variable {ε : Type}

/-- The wording of a failure, given that of evaluation errors. -/
def message (wording : ε → Text) : RenderError ε → Text
  | eval expression error =>
    "failed to evaluate '".toList ++ expression ++ "': ".toList ++ wording error
  | unknownTemplate name => "template '".toList ++ name ++ "' is not defined".toList
  | argumentCount name expected found =>
    "template '".toList ++ name ++ "' takes ".toList ++ Nat.toDigits 10 expected
      ++ " parameters but ".toList ++ Nat.toDigits 10 found ++ " were given".toList
  | malformedHeader kind header =>
    "malformed ".toList ++ kind.spelling.toList ++ " header '".toList ++ header ++ ['\'']
  | loopLimit limit => "loop exceeded ".toList ++ Nat.toDigits 10 limit ++ " iterations".toList
  | strayJump jump => ['\''] ++ jump.spelling.toList ++ "' used outside of a loop".toList
  | callDepth limit => "template calls nested deeper than ".toList ++ Nat.toDigits 10 limit

end RenderError

end Stencil
