import Stencil.Proofs.Run.Observed

/-!
# The number of open calls

How deep calls are nested is limited by handing each procedure a callee that knows one level less.
This module counts the open calls instead: the number is kept beside the evaluator's state, goes up
when a called template is entered and down when it is left, and is compared with the limit before a
call. A run that counts does the same as one that does not, and it leaves the number as it was.

Main statement: `Renderer.runCounting_eq`, for every evaluator.
-/

namespace Stencil

open Session

variable {σ ν ε : Type}

/-- The evaluator with the number of open calls beside its state. No request changes the number. -/
def Evaluator.counting (ev : Evaluator σ ν ε) : Evaluator (σ × Nat) ν ε :=
  ev.observing fun _ calls => calls

/-- Sets the number of open calls. -/
def Session.setCalls (f : Nat → Nat) (s : Session (σ × Nat)) : Session (σ × Nat) :=
  { s with state := (s.state.1, f s.state.2) }

namespace Renderer

/-- The renderer that counts open calls. -/
def counting (r : Renderer σ ν ε) : Renderer (σ × Nat) ν ε :=
  ⟨r.evaluator.counting, r.library, r.loopLimit, r.maxCallDepth⟩

/-- What runs called templates when `n` calls are open: it counts one more while the template runs,
and one less again however that ends. There is nothing if that would be more than the limit. -/
def calleeCounting (r : Renderer σ ν ε) (n : Nat) : Callee (σ × Nat) ε :=
  if n < r.maxCallDepth then
    some fun procedure margin s =>
      let (result, s) := r.counting.runProcedure (r.calleeCounting (n + 1)) procedure margin
        (s.setCalls (· + 1))
      (result, s.setCalls (· - 1))
  else none
termination_by r.maxCallDepth - n

/-- Runs a procedure, going by the number of open calls. -/
def runCounting (r : Renderer σ ν ε) (procedure : Procedure) (margin : Text)
    (s : Session (σ × Nat)) : Outcome (σ × Nat) ε Unit :=
  r.counting.runProcedure (r.calleeCounting s.state.2) procedure margin s

/-- A run that counts beside one that does not, at places where `n` calls are open. -/
def counted (r : Renderer σ ν ε) (n : Nat) : Coupling r.counting.evaluator r.evaluator :=
  r.evaluator.observed (I := fun _ calls => calls = n)
    ⟨fun _ _ h => h, fun _ _ h => h, fun _ _ _ _ _ h => h⟩

variable {r : Renderer σ ν ε} {n k : Nat}

/-- Procedures are alike where calls from them are. -/
theorem runProcedure_counting {c : Callee (σ × Nat) ε} {d : Callee σ ε}
    (h : (r.counted n).Callees Eq c d) (procedure : Procedure) (margin : Text) :
    (r.counted n).Alike k (r.counting.runProcedure c procedure margin)
      (r.runProcedure d procedure margin) := by
  have steady : (r.counted n).Steady c d :=
    ⟨rfl, rfl, rfl, fun _ => rfl, h, fun _ _ t h => congrArg (· ++ t) h⟩
  refine Coupling.runProcedure_alike (Coupling.runAll_alike steady margin procedure.ops k ?_)
  exact fun op _ => Coupling.declares_of (r.evaluator.execute_observed _ k) op

/-- With `n` calls open, and as many levels left as the limit allows for, calls are alike. -/
theorem callees_counting (n : Nat) :
    (r.counted n).Callees Eq (r.calleeCounting n)
      (r.calleeAt (r.maxCallDepth - n)) := by
  -- The levels left go down by one whenever one more call is open.
  induction hleft : r.maxCallDepth - n generalizing n with
  | zero =>
    rw [calleeCounting, if_neg (by omega)]
    exact .none
  | succ left ih =>
    rw [calleeCounting, if_pos (by omega)]
    refine .some ?_
    rintro p _ rfl k s₁ s₂ ⟨⟨hstate, hcalls⟩, htexts⟩
    obtain ⟨hresult, ⟨hstate', hcalls'⟩, htexts'⟩ :=
      runProcedure_counting (k := k + 1) (ih (n + 1) (by omega)) p.1 p.2
        (s₁.setCalls (· + 1)) s₂ ⟨⟨hstate, congrArg (· + 1) hcalls⟩, htexts⟩
    exact ⟨hresult, ⟨hstate', congrArg (· - 1) hcalls'⟩, htexts'⟩

/-- Counting changes nothing about a run, and the number of open calls is afterwards what it was
before, whether the run succeeds or fails. -/
theorem runCounting_eq (r : Renderer σ ν ε) (procedure : Procedure) (margin : Text) (state : σ)
    (n : Nat) (out : Buffer) :
    let ran := r.runProcedure (r.calleeAt (r.maxCallDepth - n)) procedure margin ⟨state, out⟩
    let counted := r.runCounting procedure margin ⟨(state, n), out⟩
    counted.1 = ran.1 ∧ counted.2.state = (ran.2.state, n) ∧
      counted.2.out.contents = ran.2.out.contents := by
  intro ran counted
  obtain ⟨hresult, ⟨hstate, hcalls⟩, htexts⟩ :=
    runProcedure_counting (k := 0) (callees_counting n) procedure margin ⟨(state, n), out⟩
      ⟨state, out⟩ ⟨⟨rfl, rfl⟩, rfl⟩
  exact ⟨hresult, Prod.ext hstate hcalls, htexts⟩

end Renderer

end Stencil
