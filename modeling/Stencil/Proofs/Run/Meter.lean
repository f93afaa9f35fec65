import Stencil.Proofs.Run.Observed

/-!
# Metered runs

A run says what it comes to, but not how much it took: how often the evaluator was asked, how many
rounds a loop took, how deep calls were nested. A metered run keeps a meter beside the state of the
evaluator that tells these things. It mirrors the running of operations, with the same loops and
calls; only the meter is read and set in between.

A metered run comes to what the plain run comes to (`Renderer.run_unmetered`).
-/

namespace Stencil

open Session

/-- What is counted in a run. -/
structure Meter where
  /-- Requests made to the evaluator. -/
  requests : Nat := 0
  /-- Operations that have been begun. -/
  operations : Nat := 0
  /-- Rounds that the innermost loop has begun. -/
  round : Nat := 0
  /-- The most rounds that a single run of a loop has begun. -/
  rounds : Nat := 0
  /-- Calls that are open. -/
  calls : Nat := 0
  /-- The most calls that have been open at a time, counting one as open from when it is let
  through. -/
  deepest : Nat := 0
  deriving DecidableEq, Repr

namespace Meter

def request (m : Meter) : Meter := { m with requests := m.requests + 1 }

def operation (m : Meter) : Meter := { m with operations := m.operations + 1 }

/-- A loop begins, which has had no round so far. -/
def beginLoop (m : Meter) : Meter := { m with round := 0 }

/-- A loop ends that stands in a loop with so many rounds begun. -/
def endLoop (round : Nat) (m : Meter) : Meter := { m with round }

def beginRound (m : Meter) : Meter :=
  { m with round := m.round + 1, rounds := max m.rounds (m.round + 1) }

/-- A call is let through. -/
def noteCall (m : Meter) : Meter := { m with deepest := max m.deepest (m.calls + 1) }

/-- A called template is entered. -/
def enter (m : Meter) : Meter := { m with calls := m.calls + 1 }

/-- A called template is left. -/
def leave (m : Meter) : Meter := { m with calls := m.calls - 1 }

/-- Requests and operations together. -/
def work (m : Meter) : Nat := m.requests + m.operations

theorem work_request (m : Meter) : m.request.work = m.work + 1 :=
  Nat.add_right_comm m.requests 1 m.operations

theorem work_operation (m : Meter) : m.operation.work = m.work + 1 := rfl

end Meter

variable {σ ν ε : Type}

namespace Session

/-- What the meter shows. -/
def meter (s : Session (σ × Meter)) : Meter := s.state.2

/-- The session without the meter. -/
def unmetered (s : Session (σ × Meter)) : Session σ := ⟨s.state.1, s.out⟩

/-- Changes what the meter shows. -/
def setMeter (f : Meter → Meter) (s : Session (σ × Meter)) : Session (σ × Meter) :=
  { s with state := (s.state.1, f s.state.2) }

end Session

/-- The evaluator with a meter that counts the requests made to it. -/
def Evaluator.metered (ev : Evaluator σ ν ε) : Evaluator (σ × Meter) ν ε :=
  ev.observing fun _ m => m.request

namespace Renderer

/-- The renderer whose evaluator is metered. -/
def metered (r : Renderer σ ν ε) : Renderer (σ × Meter) ν ε :=
  ⟨r.evaluator.metered, r.library, r.loopLimit, r.maxCallDepth⟩

/-- Whether a call is let through: there is the template, it takes so many arguments, and calls may
go deeper. -/
def admits (r : Renderer σ ν ε) (callee : Callee (σ × Meter) ε) (name : Text)
    (arguments : List Text) : Bool :=
  callee.isSome && (r.library.get? name).any (·.parameters.length == arguments.length)

mutual

/-- Runs an operation with a meter. -/
def meterOp (r : Renderer σ ν ε) (callee : Callee (σ × Meter) ε) (margin : Text) :
    Op → Session (σ × Meter) → Outcome (σ × Meter) ε Flow
  | .text t indented, s => r.metered.runOp callee margin (.text t indented) s
  | .render e indented, s => r.metered.runOp callee margin (.render e indented) s
  | .declare statement, s => r.metered.runOp callee margin (.declare statement) s
  | .call name arguments indent, s =>
    r.metered.runOp callee margin (.call name arguments indent)
      (if r.admits callee name arguments then s.setMeter .noteCall else s)
  | .branch chain, s => meterChain r callee margin chain s
  | .loop kind header body, s =>
    let (result, t) := r.metered.loop kind header
      (fun t => meterAll r callee margin body (t.setMeter .beginRound)) (s.setMeter .beginLoop)
    (result, t.setMeter (.endLoop s.meter.round))
  | .jump j, s => r.metered.runOp callee margin (.jump j) s

/-- Runs operations with a meter, up to the first that jumps or fails. -/
def meterAll (r : Renderer σ ν ε) (callee : Callee (σ × Meter) ε) (margin : Text) :
    List Op → Session (σ × Meter) → Outcome (σ × Meter) ε Flow
  | [], s => (.ok .through, s)
  | op :: ops, s => andThen (meterOp r callee margin op (s.setMeter .operation)) fun flow s =>
      match flow with
      | .through => meterAll r callee margin ops s
      | .jumped j => (.ok (.jumped j), s)

/-- Runs the first arm whose condition holds, with a meter. -/
def meterChain (r : Renderer σ ν ε) (callee : Callee (σ × Meter) ε) (margin : Text) :
    Chain Text (List Op) → Session (σ × Meter) → Outcome (σ × Meter) ε Flow
  | .done, s => (.ok .through, s)
  | .otherwise body, s => inScope r.metered.evaluator (meterAll r callee margin body) s
  | .arm condition body rest, s => andThen (test r.metered.evaluator condition s) fun holds s =>
      if holds then inScope r.metered.evaluator (meterAll r callee margin body) s
      else meterChain r callee margin rest s

end

/-- Runs a procedure with a meter. -/
def meterProcedure (r : Renderer σ ν ε) (callee : Callee (σ × Meter) ε) (procedure : Procedure)
    (margin : Text) (s : Session (σ × Meter)) : Outcome (σ × Meter) ε Unit :=
  andThen (r.meterAll callee margin procedure.ops s) fun flow s =>
    match flow with
    | .through | .jumped .returns => (.ok (), s)
    | .jumped j => (.error (.strayJump j), s)

/-- What runs called templates with a meter when calls may nest `n` levels deeper. -/
def meterCallee (r : Renderer σ ν ε) : Nat → Callee (σ × Meter) ε
  | 0 => none
  | n + 1 => some fun procedure margin s =>
      let (result, t) := r.meterProcedure (r.meterCallee n) procedure margin (s.setMeter .enter)
      (result, t.setMeter .leave)

/-- Runs a procedure with a meter, with all call levels left. -/
def meterRun (r : Renderer σ ν ε) (procedure : Procedure) (margin : Text)
    (s : Session (σ × Meter)) : Outcome (σ × Meter) ε Unit :=
  r.meterProcedure (r.meterCallee r.maxCallDepth) procedure margin s

/-! ## A metered run beside a plain one -/

/-- No condition is put on the meter. -/
theorem tracks_request :
    Request.Tracks (fun (_ : Request ν) (m : Meter) => m.request) (fun _ _ => True) :=
  ⟨fun _ _ _ => trivial, fun _ _ _ => trivial, fun _ _ _ _ _ _ => trivial⟩

/-- A run with a meter beside one without. -/
def metering (r : Renderer σ ν ε) : Coupling r.metered.evaluator r.evaluator :=
  r.evaluator.observed tracks_request

variable {r : Renderer σ ν ε} {c : Callee (σ × Meter) ε} {d : Callee σ ε} {k : Nat}

/-- Setting the meter is not seen by the plain run. -/
theorem metering_setMeter (f : Meter → Meter) {s : Session (σ × Meter)} {t : Session σ}
    (h : r.metering.Sessions k s t) : r.metering.Sessions k (s.setMeter f) t :=
  ⟨⟨h.1.1, trivial⟩, h.2⟩

theorem metering_steady (h : r.metering.Callees Eq c d) : r.metering.Steady c d :=
  ⟨rfl, rfl, rfl, fun _ => rfl, h, fun _ _ t h => congrArg (· ++ t) h⟩

/-- The plain form of an operation, whatever the level. -/
theorem metering_runOp (h : r.metering.Callees Eq c d) (margin : Text) (op : Op) (k : Nat) :
    r.metering.Alike k (r.metered.runOp c margin op) (r.runOp d margin op) :=
  Coupling.runOp_alike (metering_steady h) margin op k
    (Coupling.declares_of (r.evaluator.execute_observed tracks_request k) op)

mutual

theorem meterOp_alike (h : r.metering.Callees Eq c d) (margin : Text) :
    ∀ (op : Op) (k : Nat),
      r.metering.Alike k (r.meterOp c margin op) (r.runOp d margin op)
  | .text t indented, k => metering_runOp h margin (.text t indented) k
  | .render e indented, k => metering_runOp h margin (.render e indented) k
  | .declare t, k => metering_runOp h margin (.declare t) k
  | .call name arguments indent, k => fun s t hst => by
      rw [meterOp]
      refine metering_runOp h margin (.call name arguments indent) k _ _ ?_
      split
      · exact metering_setMeter _ hst
      · exact hst
  | .branch chain, k => meterChain_alike h margin chain k
  | .loop kind header body, k => fun s t hst => by
      have hbody : ∀ j, r.metering.Alike (j + 1)
          (fun t => r.meterAll c margin body (t.setMeter .beginRound))
          (r.runAll d margin body) := fun j s t hst =>
        meterAll_alike h margin body (j + 1) _ _ (metering_setMeter _ hst)
      have hlimit : r.metered.loopLimit = r.loopLimit := rfl
      have hloop := Coupling.loop_alike (k := k) hlimit hbody kind header
      obtain ⟨hresult, hsessions⟩ := hloop _ _ (metering_setMeter .beginLoop hst)
      exact ⟨hresult, metering_setMeter _ hsessions⟩
  | .jump j, k => metering_runOp h margin (.jump j) k

theorem meterAll_alike (h : r.metering.Callees Eq c d) (margin : Text) :
    ∀ (ops : List Op) (k : Nat),
      r.metering.Alike k (r.meterAll c margin ops) (r.runAll d margin ops)
  | [], _ => Coupling.result_alike _
  | op :: ops, k => by
      have hop : r.metering.Alike k (fun s => r.meterOp c margin op (s.setMeter .operation))
          (r.runOp d margin op) := fun s t hst =>
        meterOp_alike h margin op k _ _ (metering_setMeter _ hst)
      refine Coupling.andThen_alike hop fun flow => ?_
      cases flow with
      | through => exact meterAll_alike h margin ops k
      | jumped j => exact Coupling.result_alike _

theorem meterChain_alike (h : r.metering.Callees Eq c d) (margin : Text) :
    ∀ (chain : Chain Text (List Op)) (k : Nat),
      r.metering.Alike k (r.meterChain c margin chain) (r.runChain d margin chain)
  | .done, _ => Coupling.result_alike _
  | .otherwise body, k => Coupling.inScope_alike (meterAll_alike h margin body (k + 1))
  | .arm condition body rest, k => by
      refine Coupling.andThen_alike (Coupling.test_alike condition) fun holds => ?_
      cases holds with
      | true => exact Coupling.inScope_alike (meterAll_alike h margin body (k + 1))
      | false => exact meterChain_alike h margin rest k

end

theorem meterProcedure_alike (h : r.metering.Callees Eq c d) (procedure : Procedure)
    (margin : Text) (k : Nat) :
    r.metering.Alike k (r.meterProcedure c procedure margin)
      (r.runProcedure d procedure margin) := by
  refine Coupling.andThen_alike (meterAll_alike h margin procedure.ops k) fun flow => ?_
  rcases flow with _ | _ | _ | _ <;> exact Coupling.result_alike _

theorem meterCallee_alike (n : Nat) :
    r.metering.Callees Eq (r.meterCallee n) (r.calleeAt n) := by
  induction n with
  | zero => exact .none
  | succ n ih =>
    refine .some ?_
    rintro p _ rfl k s t hst
    obtain ⟨hresult, hsessions⟩ :=
      meterProcedure_alike ih p.1 p.2 (k + 1) _ _ (metering_setMeter .enter hst)
    exact ⟨hresult, metering_setMeter _ hsessions⟩

/-- A metered run comes to what the run without a meter comes to. -/
theorem run_unmetered (r : Renderer σ ν ε) (procedure : Procedure) (margin : Text)
    (s : Session (σ × Meter)) :
    r.run procedure margin s.unmetered =
      ((r.meterRun procedure margin s).1, (r.meterRun procedure margin s).2.unmetered) := by
  have halike : r.metering.Alike 0 (r.meterRun procedure margin) (r.run procedure margin) :=
    meterProcedure_alike (meterCallee_alike r.maxCallDepth) procedure margin 0
  exact Evaluator.eq_of_observed halike s trivial

end Renderer

end Stencil
