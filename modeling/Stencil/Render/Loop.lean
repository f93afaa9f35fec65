import Stencil.Render.Session

/-!
# Loops

Every run of a loop may go through its body a limited number of times. The limit is counted down
before a body is entered, so a loop that stops by itself after exactly that many rounds is fine.
-/

namespace Stencil

namespace Flow

/-- How a loop ends when its body ended with this flow; nothing if it goes on. -/
def ofBody : Flow → Option Flow
  | through => none
  | jumped .continues => none
  | jumped .breaks => some through
  | jumped .returns => some (jumped .returns)

end Flow

namespace Session

variable {σ ν ε : Type}

/-- As long as `test` holds, goes through `body` and then `step`, with `left` rounds left of
`limit`. -/
def repeatWhile (limit : Nat) (test : Session σ → Outcome σ ε Bool)
    (body : Session σ → Outcome σ ε Flow) (step : Session σ → Outcome σ ε Unit) :
    (left : Nat) → Session σ → Outcome σ ε Flow
  | 0, s => andThen (test s) fun holds s =>
      if holds then (.error (.loopLimit limit), s) else (.ok .through, s)
  | left + 1, s => andThen (test s) fun holds s =>
      if holds then
        andThen (body s) fun flow s =>
          match flow.ofBody with
          | some flow => (.ok flow, s)
          | none => andThen (step s) fun _ s => repeatWhile limit test body step left s
      else (.ok .through, s)

/-- Goes through `body` once for every item, with `left` rounds left of `limit`. -/
def forEach (limit : Nat) (body : ν → Session σ → Outcome σ ε Flow) :
    (left : Nat) → List ν → Session σ → Outcome σ ε Flow
  | _, [], s => (.ok .through, s)
  | 0, _ :: _, s => (.error (.loopLimit limit), s)
  | left + 1, v :: vs, s => andThen (body v s) fun flow s =>
      match flow.ofBody with
      | some flow => (.ok flow, s)
      | none => forEach limit body left vs s

end Session

end Stencil
