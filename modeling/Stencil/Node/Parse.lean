import Stencil.Node.Basic
import Stencil.Node.Call
import Stencil.Node.Item

/-!
# Reading a template as a tree

The items of a template are taken one by one. What has been read so far is the nodes of the
innermost open body and, for every open body, the construct that it belongs to (`Progress`). An
item adds a node, opens a body, goes on to the next arm of a construct, or closes one; or it is the
first offence.
-/

namespace Stencil

/-- A condition with its body. -/
abbrev Arm := Span × List Node

/-- What an open body belongs to. Finished arms are kept latest first. -/
inductive Construct
  | loop (kind : LoopKind) (header : Span)
  /-- An arm with a condition. -/
  | arm (finished : List Arm) (condition : Span)
  /-- The arm without a condition, after at least one other. -/
  | otherwise (last : Arm) (finished : List Arm)

/-- An open body: what it belongs to, and the nodes before that construct, latest first. -/
structure Frame where
  construct : Construct
  before : List Node

/-- A template read in part: the nodes of the innermost open body, latest first, and the open
bodies, innermost first. -/
structure Progress where
  nodes : List Node
  frames : List Frame

namespace Node

/-- The branching with the arms `last` and, latest first, `finished`, then `rest`. -/
def ofArms (last : Arm) (finished : List Arm) (rest : Chain Span (List Node)) : Node :=
  match finished with
  | [] => branch last.1 last.2 rest
  | arm :: finished => ofArms arm finished (.arm last.1 last.2 rest)

end Node

namespace Construct

/-- The node that a construct becomes when its last body is finished. -/
def close (body : List Node) : Construct → Node
  | loop kind header => .loop kind header body
  | arm finished condition => .ofArms (condition, body) finished .done
  | otherwise last finished => .ofArms last finished (.otherwise body)

end Construct

namespace Progress

/-- Nothing read. -/
def start : Progress := ⟨[], []⟩

def add (node : Node) (progress : Progress) : Progress :=
  { progress with nodes := node :: progress.nodes }

/-- Opens a body of `construct`, unless `limit` bodies are open already. -/
def open? (source : Text) (limit : Nat) (block : Block) (construct : Construct)
    (progress : Progress) : Except ParseError Progress :=
  if limit ≤ progress.frames.length then
    .error (.ofToken source block.identifier (.tooDeep limit))
  else .ok ⟨[], ⟨construct, progress.nodes⟩ :: progress.frames⟩

/-- Takes a call. Blanks before it count as its indentation if the node before it is text. -/
def call? (source : Text) (block : Block) (progress : Progress) : Except ParseError Progress :=
  if block.isBare then .error (.ofToken source block.identifier .missingParameters)
  else
    match Span.call? source (block.remainder source) with
    | none => .error (.ofToken source block.identifier .malformedCall)
    | some (name, arguments) =>
      let leading := match progress.nodes with
        | .text span :: _ => span.indentation? source
        | _ => none
      .ok (progress.add (.call name arguments leading))

/-- Takes an `elseif`. -/
def elseIf? (source : Text) (block : Block) (progress : Progress) : Except ParseError Progress :=
  match progress.frames with
  | ⟨.arm finished condition, before⟩ :: frames =>
    if block.isBare then .error (.ofToken source block.identifier (.missingCondition .elseIf))
    else
      let finished := (condition, progress.nodes.reverse) :: finished
      .ok ⟨[], ⟨.arm finished (block.remainder source), before⟩ :: frames⟩
  | ⟨.otherwise .., _⟩ :: _ => .error (.ofToken source block.identifier .elseIfAfterElse)
  | _ => .error (.ofToken source block.identifier (.strayKeyword .elseIf))

/-- Takes an `else`. -/
def otherwise? (source : Text) (block : Block) (progress : Progress) :
    Except ParseError Progress :=
  match progress.frames with
  | [] => .error (.ofToken source block.identifier (.strayKeyword .otherwise))
  | ⟨construct, before⟩ :: frames =>
    if !block.isBare then .error (.ofToken source block.second (.extraContent .otherwise))
    else
      match construct with
      | .arm finished condition =>
        .ok ⟨[], ⟨.otherwise (condition, progress.nodes.reverse) finished, before⟩ :: frames⟩
      | .otherwise .. => .error (.ofToken source block.identifier .secondElse)
      | .loop .. => .error (.ofToken source block.identifier (.strayKeyword .otherwise))

/-- Takes an `end`. -/
def close? (source : Text) (block : Block) (progress : Progress) : Except ParseError Progress :=
  match progress.frames with
  | [] => .error (.ofToken source block.identifier (.strayKeyword .close))
  | ⟨construct, before⟩ :: frames =>
    if !block.isBare then .error (.ofToken source block.second (.extraContent .close))
    else .ok ⟨construct.close progress.nodes.reverse :: before, frames⟩

/-- Takes a block, as its keyword says. -/
def block? (source : Text) (limit : Nat) (block : Block) (progress : Progress) :
    Except ParseError Progress :=
  match block.keyword? source with
  | none => .ok (progress.add (.output (block.content source)))
  | some .declare =>
    if block.isBare then .error (.ofToken source block.identifier .missingAssignment)
    else .ok (progress.add (.declare (block.remainder source)))
  | some .call => progress.call? source block
  | some .branch =>
    if block.isBare then .error (.ofToken source block.identifier (.missingCondition .branch))
    else progress.open? source limit block (.arm [] (block.remainder source))
  | some (.loop kind) =>
    if block.isBare then .error (.ofToken source block.identifier (.missingCondition (.loop kind)))
    else progress.open? source limit block (.loop kind (block.remainder source))
  | some (.jump jump) =>
    if block.isBare then .ok (progress.add (.jump jump))
    else .error (.ofToken source block.second (.extraContent (.jump jump)))
  | some .elseIf => progress.elseIf? source block
  | some .otherwise => progress.otherwise? source block
  | some .close => progress.close? source block

/-- Takes an item. -/
def item? (source : Text) (limit : Nat) (progress : Progress) : Item → Except ParseError Progress
  | .text first rest => .ok (progress.add (.text (.covering source first (rest.getLastD first))))
  | .block block => progress.block? source limit block

/-- The tree, once grouping has ended: every body must be closed by then. -/
def finish? (source : Text) (progress : Progress) : Ending → Except ParseError (List Node)
  | .broken error => .error error
  | .finished token =>
    if progress.frames.isEmpty then .ok progress.nodes.reverse
    else .error (.ofToken source token .unexpectedEnd)

/-- Takes all items, and the ending. -/
def run (source : Text) (limit : Nat) (ending : Ending) :
    Progress → List Item → Except ParseError (List Node)
  | progress, [] => progress.finish? source ending
  | progress, item :: items =>
    match progress.item? source limit item with
    | .error error => .error error
    | .ok progress => run source limit ending progress items

end Progress

namespace Node

/-- The tree of a token list, or the first offence. Bodies may nest `limit` deep. Tokens after an
end of file are not looked at, and a list without one is taken to end with it. -/
def parse (source : Text) (limit : Nat) (tokens : List Token) : Except ParseError (List Node) :=
  let (items, ending) := Item.group source tokens
  Progress.start.run source limit ending items

end Node

end Stencil
