import Stencil.Proofs.Run.Jumps

/-!
# Where jumps may stand

A `break` or a `continue` that stands in no loop of its procedure ends the run with a failure. If
there is none, neither in the procedure that is run nor in one that can be called, no run fails in
this way, whatever the evaluator does and however deep calls nest.

Main statement: `Renderer.sound_run`.
-/

namespace Stencil

namespace Op

mutual

/-- Whether every `break` and `continue` in an operation stands in a loop, given whether the
operation itself does. -/
def placed (inLoop : Bool) : Op → Bool
  | .branch chain => chainPlaced inLoop chain
  | .loop _ _ body => allPlaced true body
  | .jump j => j == .returns || inLoop
  | _ => true

def allPlaced (inLoop : Bool) : List Op → Bool
  | [] => true
  | op :: ops => op.placed inLoop && allPlaced inLoop ops

def chainPlaced (inLoop : Bool) : Chain Text (List Op) → Bool
  | .done => true
  | .otherwise body => allPlaced inLoop body
  | .arm _ body rest => allPlaced inLoop body && chainPlaced inLoop rest

end

end Op

/-- Every `break` and `continue` stands in a loop of the procedure. -/
def Procedure.placed (procedure : Procedure) : Bool := Op.allPlaced false procedure.ops

/-- So it is in both procedures of every template. -/
def Library.Placed (library : Library) : Prop :=
  ∀ procedure, library.Holds procedure → procedure.placed

namespace Op

variable {j : Jump}

mutual

/-- Outside of loops only a `return` is left over at the end. -/
theorem eq_returns_of_leaves : ∀ {op : Op}, op.placed false → op.leaves j → j = .returns
  | .branch _, hplaced, hleaves => eq_returns_of_chainLeaves hplaced hleaves
  | .loop _ _ _, _, hleaves => beq_iff_eq.1 (Bool.and_eq_true_iff.1 hleaves).1
  | .jump j', hplaced, hleaves => by
    rw [placed, Bool.or_false, beq_iff_eq] at hplaced
    rw [leaves, beq_iff_eq] at hleaves
    rw [← hleaves, hplaced]

theorem eq_returns_of_allLeave :
    ∀ {ops : List Op}, allPlaced false ops → allLeave ops j → j = .returns
  | op :: ops, hplaced, hleaves => by
    rw [allPlaced, Bool.and_eq_true] at hplaced
    rw [allLeave, Bool.or_eq_true] at hleaves
    exact hleaves.elim (eq_returns_of_leaves hplaced.1) (eq_returns_of_allLeave hplaced.2)

theorem eq_returns_of_chainLeaves :
    ∀ {chain : Chain Text (List Op)}, chainPlaced false chain → chainLeaves chain j → j = .returns
  | .otherwise _, hplaced, hleaves => eq_returns_of_allLeave hplaced hleaves
  | .arm _ body rest, hplaced, hleaves => by
    rw [chainPlaced, Bool.and_eq_true] at hplaced
    rw [chainLeaves, Bool.or_eq_true] at hleaves
    exact hleaves.elim (eq_returns_of_allLeave hplaced.1) (eq_returns_of_chainLeaves hplaced.2)

end

end Op

variable {σ ν ε : Type}

/-- A run fails with no jump that goes astray. -/
def Upkeep.straight (ev : Evaluator σ ν ε) : Upkeep ev :=
  .ofFailures ev (fun error => ∀ j, error ≠ .strayJump j) fun _ h => h

theorem Upkeep.expects_straight {r : Renderer σ ν ε} {procedure : Procedure}
    (h : procedure.placed) : (straight r.evaluator).Expects procedure :=
  fun _ hleaves hne => absurd (Op.eq_returns_of_allLeave h hleaves) hne

/-- Jumps that stand where they may do not go astray. -/
theorem Renderer.sound_run (r : Renderer σ ν ε) {procedure : Procedure} (hplaced : procedure.placed)
    (hlibrary : r.library.Placed) (margin : Text) :
    (Upkeep.straight r.evaluator).Sound (r.run procedure margin) :=
  Upkeep.sound_runProcedure
    (Upkeep.callees_calleeAt
      (fun called hholds => Upkeep.expects_straight (hlibrary called hholds)) _)
    (Upkeep.expects_straight hplaced) margin

end Stencil
