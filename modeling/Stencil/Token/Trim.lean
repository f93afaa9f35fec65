import Stencil.Token.Basic

/-!
# Trimming

A delimiter with a trim marker takes away the margin on its outer side: a blank, a line break and
another blank, each if it is there. After that the marker has done its work, and the delimiter
stays as a plain one.
-/

namespace Stencil.Token

/-- What a trim marker takes away, read away from the delimiter. -/
def margin : List Kind := [.blank, .newline, .blank]

/-- The tokens without those at the front that match `kinds`, taken in order; a kind that is not
there is passed over. -/
def dropMatching : List Kind → List Token → List Token
  | kind :: kinds, token :: tokens =>
    if token.kind = kind then dropMatching kinds tokens else dropMatching kinds (token :: tokens)
  | _, tokens => tokens

theorem length_dropMatching_le (kinds : List Kind) (tokens : List Token) :
    (dropMatching kinds tokens).length ≤ tokens.length := by
  fun_induction dropMatching kinds tokens with
  | case1 _ _ _ ih =>
    simp only [List.length_cons]
    omega
  | case2 _ _ _ _ _ ih => exact ih
  | case3 => exact Nat.le_refl _

/-- Trims the tokens that are left, with those kept so far, latest first, at hand: the margin before
an enter is dropped from the kept ones, the margin after an exit from those to come. -/
def trimOnto : List Token → List Token → List Token
  | kept, [] => kept.reverse
  | kept, token :: rest =>
    if token.kind.isTrim then
      if token.kind.isEnter then trimOnto (token.plain :: dropMatching margin kept) rest
      else trimOnto (token.plain :: kept) (dropMatching margin rest)
    else trimOnto (token :: kept) rest
termination_by _ tokens => tokens.length
decreasing_by
  all_goals simp only [List.length_cons]
  · omega
  · have := length_dropMatching_le margin rest
    omega
  · omega

/-- The tokens after every trim marker has taken its margin. -/
def trim (tokens : List Token) : List Token := trimOnto [] tokens

end Stencil.Token
