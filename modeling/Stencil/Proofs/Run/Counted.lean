import Stencil.Proofs.Expr.Reading
import Stencil.Proofs.Run.Arms
import Stencil.Proofs.Run.Jumps

/-!
# Counted loops

A counted loop is a `while` loop in a scope that begins with its first part, if its last part stands
after its body there. The body needs a scope of its own, since the last part runs outside of it. But
then the last part runs in the scope of a round, so it must declare nothing; and a `continue` passes
over it, so there must be none that is meant for this loop.

* `repeatWhile_step`: a step may as well be the end of a round, if no round is cut short.
* `Renderer.runOp_counted`: the two loops.
-/

namespace Stencil

open Session

/-! ## Rounds -/

section Rounds

variable {σ ν ε : Type}

/-- A body with a step after it, which is left out if the body jumps. -/
def round (body : Session σ → Outcome σ ε Flow) (step : Session σ → Outcome σ ε Unit)
    (s : Session σ) : Outcome σ ε Flow :=
  andThen (body s) fun flow s =>
    match flow with
    | .through => andThen (step s) fun _ s => (.ok .through, s)
    | .jumped j => (.ok (.jumped j), s)

/-- The step of a loop may as well be the end of each round, unless its body can go on with the next
round before its end. -/
theorem repeatWhile_step {limit : Nat} {test : Session σ → Outcome σ ε Bool}
    {body : Session σ → Outcome σ ε Flow} {step : Session σ → Outcome σ ε Unit}
    (hbody : ∀ s, Confined (· != .continues) (body s)) (left : Nat) :
    repeatWhile limit test (round body step) (fun s => (.ok (), s)) left
      = repeatWhile limit test body step left := by
  induction left with
  | zero => rfl
  | succ left ih =>
    funext s
    simp only [repeatWhile, round]
    congr 1
    funext holds s
    cases holds with
    | false => rfl
    | true =>
      rcases hrun : body s with ⟨error | _ | j, t⟩
      · rfl
      · rcases hstep : step t with ⟨error | _, t'⟩
        · simp only [andThen, hstep]
          rfl
        · simp only [andThen, hstep]
          exact congrFun ih t'
      · cases j with
        | breaks => rfl
        | continues => exact absurd (hbody s .continues (congrArg Prod.fst hrun)) (by decide)
        | returns => rfl

end Rounds

/-! ## Scopes -/

namespace Op

/-- The operations in a scope of their own. -/
def block (body : List Op) : Op := .branch (.ofArms none [("true".toList, body)])

/-- A `while` loop with the step after its body, in a scope that begins with `init`. -/
def scopedWhile (init condition step : Text) (body : List Op) : Op :=
  block [.declare init, .loop .whileLoop condition [block body, .declare step]]

end Op

theorem Bindings.test_true (s : Session Bindings) :
    test evaluator "true".toList s = (.ok true, s) := by
  have hscan : Lexeme.scan "true".toList = .ok [.reserved .true] := by cbv
  have hderives : Expr.Derives (.expr 0 (.bool true)) 1 [.reserved .true] :=
    (Expr.Derives.atom .true).loosen (Nat.le_refl 7) (Nat.zero_le 7)
  have hparse := (Expr.parse_eq_ok_of_scan_iff hscan).2 ⟨1, by decide, hderives⟩
  have hvalue : s.state.evaluate "true".toList = .ok (.bool true) := by
    rw [Bindings.evaluate, hparse]
    rfl
  have hholds : evaluator.condition "true".toList s.state = (.ok true, s.state) :=
    Evaluator.condition_of_ok (v := Value.bool true) rfl (congrArg (·, s.state) hvalue)
  rw [test_eq_reply, hholds]
  rfl

namespace Renderer

section

variable {σ ν ε : Type}

theorem runAll_declare (r : Renderer σ ν ε) (callee : Callee σ ε) (margin statement : Text)
    (ops : List Op) (s : Session σ) :
    r.runAll callee margin (.declare statement :: ops) s
      = andThen (execute r.evaluator statement s) fun _ s => r.runAll callee margin ops s := by
  simp only [runAll, runOp]
  rcases execute r.evaluator statement s with ⟨error | _, t⟩ <;> rfl

end

variable (limits : Limits) (library : Library) (margin : Text)

theorem runOp_block (callee : Callee Bindings EvalError) (body : List Op) (s : Session Bindings) :
    let r := ofLimits limits Bindings.evaluator library
    r.runOp callee margin (.block body) s
      = inScope r.evaluator (r.runAll callee margin body) s := by
  intro r
  have htest : test r.evaluator "true".toList s = (.ok true, s) := Bindings.test_true s
  show andThen (test r.evaluator "true".toList s) _ = _
  rw [htest]
  rfl

/-- The body of the `while` loop is a round. -/
theorem runAll_round (callee : Callee Bindings EvalError) (step : Text) (body : List Op) :
    let r := ofLimits limits Bindings.evaluator library
    r.runAll callee margin [.block body, .declare step]
      = round (inScope r.evaluator (r.runAll callee margin body)) (execute r.evaluator step) := by
  intro r
  funext s
  rw [runAll, runOp_block limits library margin callee body s, round]
  congr 1
  funext flow s
  cases flow with
  | through => exact r.runAll_declare callee margin step [] s
  | jumped j => rfl

/-- A round whose step declares nothing needs no scope of its own. -/
theorem inScope_round (n : Nat) {step : Text}
    (hstep : ∀ name e, Statement.parse step ≠ .ok (.declare name e)) (body : List Op)
    (s : Session Bindings) :
    let r := ofLimits limits Bindings.evaluator library
    inScope r.evaluator (r.runAll (r.calleeAt n) margin [.block body, .declare step]) s
      = r.runAll (r.calleeAt n) margin [.block body, .declare step] s := by
  intro r
  refine Bindings.inScope_eq_of_alike (Coupling.runAll_alike
    (Bindings.paddings_steady limits library n) margin _ 0 fun op hop => ?_) s
  rcases List.mem_cons.1 hop with rfl | hop
  · trivial
  · rw [List.mem_singleton.1 hop]
    exact Bindings.paddings_execute hstep 0

/-- The step of a loop may as well stand in the body of a `while` loop, in the same scope around
both. -/
theorem loopWhile_step (n : Nat) (condition : Text) {step : Text} {body : List Op}
    (hstep : ∀ name e, Statement.parse step ≠ .ok (.declare name e))
    (hbody : Op.allLeave body .continues = false) (s : Session Bindings) :
    let r := ofLimits limits Bindings.evaluator library
    r.loopWhile condition step (r.runAll (r.calleeAt n) margin body) s
      = r.runAll (r.calleeAt n) margin
          [.loop .whileLoop condition [.block body, .declare step]] s := by
  intro r
  have hround : inScope r.evaluator (r.runAll (r.calleeAt n) margin [.block body, .declare step])
      = round (inScope r.evaluator (r.runAll (r.calleeAt n) margin body))
          (execute r.evaluator step) := by
    rw [← runAll_round limits library margin (r.calleeAt n) step body]
    exact funext (inScope_round limits library margin n hstep body)
  have hconfined := Confined.inScope r.evaluator
    (r.confined_of_not_leaves hbody (r.calleeAt n) margin)
  rw [runAll_singleton, runOp, loop, loopWhile, loopWhile, hround]
  exact (congrFun (repeatWhile_step hconfined r.loopLimit) s).symm

/-- A counted loop does what a `while` loop does in a scope of its own that begins with the first
part of the header, if the last part stands after the body there: both come to the same result,
write the same text and leave the very same scopes. The last part must not be a declaration, and no
`continue` in the body may be meant for the loop. -/
theorem runOp_counted (n : Nat) {header init condition step : Text} {body : List Op}
    (hheader : Header.ofText? header = some (.counted init condition step))
    (hstep : ∀ name e, Statement.parse step ≠ .ok (.declare name e))
    (hbody : Op.allLeave body .continues = false) (s : Session Bindings) :
    let r := ofLimits limits Bindings.evaluator library
    r.runOp (r.calleeAt n) margin (.loop .forLoop header body) s
      = r.runOp (r.calleeAt n) margin (.scopedWhile init condition step body) s := by
  intro r
  rw [Op.scopedWhile, runOp_block limits library margin, runOp, loop]
  simp only [hheader]
  congr 1
  funext t
  rw [runAll_declare]
  congr 1
  funext _ t
  exact loopWhile_step limits library margin n condition hstep hbody t

/-- A loop that writes its counter and stops before its condition fails. -/
theorem runOp_counted_breaks :
    let header := "i = 0; i < 5; i++".toList
    let body : List Op :=
      [.render ['i'] false, .branch (.ofArms none [("i == 2".toList, [.jump .breaks])])]
    let r := ofLimits {} Bindings.evaluator .empty
    let s : Session Bindings := ⟨.empty, .empty⟩
    Header.ofText? header = some (.counted "i = 0".toList "i < 5".toList "i++".toList) ∧
      (∀ name e, Statement.parse "i++".toList ≠ .ok (.declare name e)) ∧
      Op.allLeave body .continues = false ∧
      (r.runOp (r.calleeAt 1) [] (.loop .forLoop header body) s).2.out.contents = "012".toList ∧
      r.runOp (r.calleeAt 1) [] (.loop .forLoop header body) s
        = r.runOp (r.calleeAt 1) []
            (.scopedWhile "i = 0".toList "i < 5".toList "i++".toList body) s := by
  intro header body r s
  have hheader : Header.ofText? header
      = some (.counted "i = 0".toList "i < 5".toList "i++".toList) := by decide +kernel
  have hupdate : (match Statement.parse "i++".toList with
      | .ok (.declare _ _) => false
      | .ok (.update _ _) => true
      | .error _ => false) = true := by decide +kernel
  have hstep : ∀ name e, Statement.parse "i++".toList ≠ .ok (.declare name e) := by
    intro name e h
    rw [h] at hupdate
    cases hupdate
  have hbody : Op.allLeave body .continues = false := by decide
  exact ⟨hheader, hstep, hbody, by decide +kernel,
    runOp_counted {} .empty [] 1 hheader hstep hbody s⟩

end Renderer

end Stencil
