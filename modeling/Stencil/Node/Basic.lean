import Stencil.Keyword
import Stencil.Span

/-!
# Syntax trees

The tree of a template. Leaves are spans of the source; an `if` with its `elseif` and `else` parts
is a condition with a body and a chain of further arms.
-/

namespace Stencil

/-- What follows the first arm of a branching: any number of arms with conditions, then perhaps an
arm without one. `α` is what a condition is and `β` what a body is. -/
inductive Chain (α β : Type)
  | done
  | otherwise (body : β)
  | arm (condition : α) (body : β) (rest : Chain α β)
  deriving DecidableEq, Repr

namespace Chain

/-- The arms with conditions, in order. -/
def arms {α β : Type} : Chain α β → List (α × β)
  | arm condition body rest => (condition, body) :: rest.arms
  | _ => []

/-- The arm without a condition. -/
def otherwise? {α β : Type} : Chain α β → Option β
  | done => none
  | otherwise body => some body
  | arm _ _ rest => rest.otherwise?

/-- The chain with these arms and perhaps an arm without a condition. -/
def ofArms {α β : Type} (last : Option β) : List (α × β) → Chain α β
  | [] => last.elim done otherwise
  | (condition, body) :: arms => arm condition body (ofArms last arms)

end Chain

/-- A node of the syntax tree. -/
inductive Node
  /-- Literal text. -/
  | text (span : Span)
  /-- An expression whose value is written. -/
  | output (span : Span)
  /-- A statement to be executed. -/
  | declare (span : Span)
  /-- A call of a template, with the blanks before it if nothing else stands on its line there. -/
  | call (name : Span) (arguments : List Span) (leading : Option Span)
  | branch (condition : Span) (body : List Node) (rest : Chain Span (List Node))
  | loop (kind : LoopKind) (header : Span) (body : List Node)
  | jump (jump : Jump)
  /-- Nothing at all. -/
  | noOp

namespace Node

-- Nodes stand in lists and in chains, so equality is decided for all three at once.
mutual

/-- Whether two nodes are the same. -/
def same : Node → Node → Bool
  | text span, text span' | output span, output span' | declare span, declare span' => span == span'
  | call name arguments leading, call name' arguments' leading' =>
    (name, arguments, leading) == (name', arguments', leading')
  | branch condition body rest, branch condition' body' rest' =>
    condition == condition' && allSame body body' && chainSame rest rest'
  | loop kind header body, loop kind' header' body' =>
    (kind, header) == (kind', header') && allSame body body'
  | jump j, jump j' => j == j'
  | noOp, noOp => true
  | _, _ => false

def allSame : List Node → List Node → Bool
  | [], [] => true
  | node :: nodes, node' :: nodes' => node.same node' && allSame nodes nodes'
  | _, _ => false

def chainSame : Chain Span (List Node) → Chain Span (List Node) → Bool
  | .done, .done => true
  | .otherwise body, .otherwise body' => allSame body body'
  | .arm condition body rest, .arm condition' body' rest' =>
    condition == condition' && allSame body body' && chainSame rest rest'
  | _, _ => false

end

mutual

theorem same_iff : ∀ {m n : Node}, m.same n ↔ m = n
  | text _, n | output _, n | declare _, n | call .., n | jump _, n | noOp, n => by
    cases n <;> simp [same]
  | branch _ body rest, n => by
    cases n <;> simp [same, @allSame_iff body, @chainSame_iff rest, and_assoc]
  | loop _ _ body, n => by
    cases n <;> simp [same, @allSame_iff body, and_assoc]

theorem allSame_iff : ∀ {nodes nodes' : List Node}, allSame nodes nodes' ↔ nodes = nodes'
  | [], nodes' => by cases nodes' <;> simp [allSame]
  | node :: nodes, nodes' => by
    cases nodes' <;> simp [allSame, @same_iff node, @allSame_iff nodes]

theorem chainSame_iff : ∀ {chain chain' : Chain Span (List Node)},
    chainSame chain chain' ↔ chain = chain'
  | .done, chain' => by cases chain' <;> simp [chainSame]
  | .otherwise body, chain' => by cases chain' <;> simp [chainSame, @allSame_iff body]
  | .arm _ body rest, chain' => by
    cases chain' <;> simp [chainSame, @allSame_iff body, @chainSame_iff rest, and_assoc]

end

instance : DecidableEq Node := fun _ _ => decidable_of_iff _ same_iff

end Node

end Stencil
