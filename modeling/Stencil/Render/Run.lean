import Stencil.Header
import Stencil.Render.Loop
import Stencil.Template

/-!
# Running procedures

Operations run one after the other until one jumps or fails. Loops take in the jumps that are meant
for them; one that is left over at the end of a procedure is a failure, so no jump reaches a caller.
Calls are handed to a callee that knows one call level less; at the last level there is none, which
is how the depth of calls is limited (`Renderer.calleeAt`).
-/

namespace Stencil

/-- What rendering is done with. -/
structure Renderer (σ ν ε : Type) where
  evaluator : Evaluator σ ν ε
  library : Library
  loopLimit : Nat
  maxCallDepth : Nat

/-- What runs the procedure of a called template under an indentation, if calls may go deeper. -/
abbrev Callee (σ ε : Type) := Option (Procedure → Text → Session σ → Outcome σ ε Unit)

namespace Renderer

variable {σ ν ε : Type}

open Session

/-- The text to be written for `t`: with the indentation after its line feeds, if it is to have
that. -/
def layout (margin : Text) (indented : Bool) (t : Text) : Text :=
  if indented then Text.indent margin t else t

/-- Calls a template: finds it, counts arguments, checks the depth, evaluates the arguments in the
scope of the caller, and runs one of its procedures in a scope of its own. -/
def call (r : Renderer σ ν ε) (callee : Callee σ ε) (name : Text) (arguments : List Text)
    (indent : CallIndent) (margin : Text) (s : Session σ) : Outcome σ ε Unit :=
  match r.library.get? name with
  | none => (.error (.unknownTemplate name), s)
  | some template =>
    let expected := template.parameters.length
    if expected ≠ arguments.length then
      (.error (.argumentCount name expected arguments.length), s)
    else
      match callee with
      | none => (.error (.callDepth r.maxCallDepth), s)
      | some run => andThen (evaluateAll r.evaluator arguments s) fun values s =>
          let (procedure, margin) :=
            if indent.isNone then (template.plain, [])
            else (template.indented, indent.resolve margin)
          inScope r.evaluator (fun s =>
            run procedure margin (bindAll r.evaluator (template.parameters.zip values) s)) s

/-- Goes through the items of a value, each bound to `name` in a scope of its own. -/
def each (r : Renderer σ ν ε) (name iterable : Text) (body : Session σ → Outcome σ ε Flow)
    (s : Session σ) : Outcome σ ε Flow :=
  andThen (items r.evaluator iterable s) fun values s =>
    forEach r.loopLimit
      (fun v => inScope r.evaluator fun s => body (s.bind r.evaluator name v)) r.loopLimit values s

/-- Runs `body` in a scope of its own as long as `condition` holds, and `step` after each round. -/
def loopWhile (r : Renderer σ ν ε) (condition step : Text) (body : Session σ → Outcome σ ε Flow)
    (s : Session σ) : Outcome σ ε Flow :=
  repeatWhile r.loopLimit (test r.evaluator condition) (inScope r.evaluator body)
    (execute r.evaluator step) r.loopLimit s

/-- Runs a loop, as its kind and header say. -/
def loop (r : Renderer σ ν ε) (kind : LoopKind) (header : Text)
    (body : Session σ → Outcome σ ε Flow) (s : Session σ) : Outcome σ ε Flow :=
  match kind with
  | .whileLoop => r.loopWhile header [] body s
  | .foreachLoop =>
    match Header.each? header with
    | none => (.error (.malformedHeader .foreachLoop header), s)
    | some (name, iterable) => r.each name iterable body s
  | .forLoop =>
    match Header.ofText? header with
    | none => (.error (.malformedHeader .forLoop header), s)
    | some (.each name iterable) => r.each name iterable body s
    | some (.counted init condition step) =>
      inScope r.evaluator (fun s => andThen (execute r.evaluator init s) fun _ s =>
        r.loopWhile condition step body s) s

mutual

/-- Runs an operation under an ambient indentation. -/
def runOp (r : Renderer σ ν ε) (callee : Callee σ ε) (margin : Text) :
    Op → Session σ → Outcome σ ε Flow
  | .text t indented, s => (.ok .through, s.write (layout margin indented t))
  | .render e indented, s => andThen (evaluate r.evaluator e s) fun v s =>
      (.ok .through, s.write (layout margin indented (r.evaluator.text v)))
  | .declare statement, s => andThen (execute r.evaluator statement s) fun _ s => (.ok .through, s)
  | .call name arguments indent, s =>
    andThen (r.call callee name arguments indent margin s) fun _ s => (.ok .through, s)
  | .branch chain, s => runChain r callee margin chain s
  | .loop kind header body, s => r.loop kind header (runAll r callee margin body) s
  | .jump j, s => (.ok (.jumped j), s)

/-- Runs operations up to the first that jumps or fails. -/
def runAll (r : Renderer σ ν ε) (callee : Callee σ ε) (margin : Text) :
    List Op → Session σ → Outcome σ ε Flow
  | [], s => (.ok .through, s)
  | op :: ops, s => andThen (runOp r callee margin op s) fun flow s =>
      match flow with
      | .through => runAll r callee margin ops s
      | .jumped j => (.ok (.jumped j), s)

/-- Runs the first arm whose condition holds, in a scope of its own. -/
def runChain (r : Renderer σ ν ε) (callee : Callee σ ε) (margin : Text) :
    Chain Text (List Op) → Session σ → Outcome σ ε Flow
  | .done, s => (.ok .through, s)
  | .otherwise body, s => inScope r.evaluator (runAll r callee margin body) s
  | .arm condition body rest, s => andThen (test r.evaluator condition s) fun holds s =>
      if holds then inScope r.evaluator (runAll r callee margin body) s
      else runChain r callee margin rest s

end

/-- Runs a procedure. A jump out of a loop that is in none is a failure; a return ends the
procedure. -/
def runProcedure (r : Renderer σ ν ε) (callee : Callee σ ε) (procedure : Procedure)
    (margin : Text) (s : Session σ) : Outcome σ ε Unit :=
  andThen (r.runAll callee margin procedure.ops s) fun flow s =>
    match flow with
    | .through | .jumped .returns => (.ok (), s)
    | .jumped j => (.error (.strayJump j), s)

/-- What runs called templates when calls may nest `n` levels deeper. -/
def calleeAt (r : Renderer σ ν ε) : Nat → Callee σ ε
  | 0 => none
  | n + 1 => some fun procedure margin s => r.runProcedure (r.calleeAt n) procedure margin s

/-- Runs a procedure under an ambient indentation, with all call levels left. -/
def run (r : Renderer σ ν ε) (procedure : Procedure) (margin : Text) (s : Session σ) :
    Outcome σ ε Unit :=
  r.runProcedure (r.calleeAt r.maxCallDepth) procedure margin s

end Renderer

end Stencil
