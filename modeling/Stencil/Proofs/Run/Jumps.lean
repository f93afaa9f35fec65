import Stencil.Proofs.Run.Upkeep

/-!
# How operations can end

Which jumps an operation can end with can be told from the operation alone (`Op.leaves`). A `break`
or a `continue` leaves the branchings that it stands in, but not a loop; a `return` leaves both. No
jump leaves a call.

Main statement: `Upkeep.keeps_runOp`, by recursion on the operation. It says besides that operations
keep up what called procedures keep up; without that, `Renderer.confined_runAll` is left.
-/

namespace Stencil

open Session

namespace Op

mutual

/-- Whether an operation can end with the jump. -/
def leaves : Op → Jump → Bool
  | .branch chain, j => chainLeaves chain j
  | .loop _ _ body, j => j == .returns && allLeave body j
  | .jump j', j => j' == j
  | _, _ => false

/-- Whether one of the operations can end with the jump. -/
def allLeave : List Op → Jump → Bool
  | [], _ => false
  | op :: ops, j => op.leaves j || allLeave ops j

/-- Whether one of the arms can end with the jump. -/
def chainLeaves : Chain Text (List Op) → Jump → Bool
  | .done, _ => false
  | .otherwise body, j => allLeave body j
  | .arm _ body rest, j => allLeave body j || chainLeaves rest j

end

end Op

/-! ## What operations keep up -/

namespace Upkeep

variable {σ ν ε : Type} {r : Renderer σ ν ε} {U : Upkeep r.evaluator} {callee : Callee σ ε}

/-- How operations jump that end with no other jumps than those allowed. -/
abbrev Within (allowed : Jump → Bool) : Flow → σ → Prop := Flow.Meets fun j _ => allowed j

theorem within_jumped {allowed : Jump → Bool} {j : Jump} {a : σ} (h : allowed j) :
    Within allowed (.jumped j) a := by
  rintro j' ⟨⟩
  exact h

mutual

/-- An operation ends with no other jumps than those that can be told from it. -/
theorem keeps_runOp (hcallee : U.Callees callee) (margin : Text) :
    ∀ op : Op, U.Keeps (Within op.leaves) (r.runOp callee margin op)
  | .text _ _ => fun _ hs => ⟨hs, meets_through⟩
  | .render e _ => fun s hs => (sound_evaluate e s hs).andThen fun _ _ ht _ => ⟨ht, meets_through⟩
  | .declare t => fun s hs => (sound_execute t s hs).andThen fun _ _ ht _ => ⟨ht, meets_through⟩
  | .call name arguments indent => fun s hs =>
    (sound_call hcallee name arguments indent margin s hs).andThen fun _ _ ht _ =>
      ⟨ht, meets_through⟩
  | .branch chain => keeps_runChain hcallee margin chain
  | .loop kind header body => by
    refine (keeps_loop (keeps_runAll hcallee margin body) (fun _ _ h => h) kind header).mono ?_
    intro flow a hmeets j hj
    obtain ⟨rfl, hbody⟩ := hmeets j hj
    rw [Op.leaves, hbody]
    rfl
  | .jump j => fun _ hs => ⟨hs, within_jumped (beq_self_eq_true j)⟩

theorem keeps_runAll (hcallee : U.Callees callee) (margin : Text) :
    ∀ ops : List Op, U.Keeps (Within (Op.allLeave ops)) (r.runAll callee margin ops)
  | [] => fun _ hs => ⟨hs, meets_through⟩
  | op :: ops => fun s hs => by
    refine (keeps_runOp hcallee margin op s hs).andThen fun flow t ht hop => ?_
    cases flow with
    | through =>
      refine (keeps_runAll hcallee margin ops t ht).mono fun flow a hops j hj => ?_
      have hlater : Op.allLeave ops j := hops j hj
      simp only [Op.allLeave, hlater, Bool.or_true]
    | jumped j =>
      refine ⟨ht, within_jumped ?_⟩
      rw [Op.allLeave, hop j rfl, Bool.true_or]

theorem keeps_runChain (hcallee : U.Callees callee) (margin : Text) :
    ∀ chain : Chain Text (List Op),
      U.Keeps (Within (Op.chainLeaves chain)) (r.runChain callee margin chain)
  | .done => fun _ hs => ⟨hs, meets_through⟩
  | .otherwise body => (keeps_runAll hcallee margin body).inScope fun _ _ h => h
  | .arm condition body rest => fun s hs => by
    refine (sound_test condition s hs).andThen fun holds t ht _ => ?_
    cases holds with
    | true =>
      have hbody := (keeps_runAll hcallee margin body).inScope (fun _ _ h => h) t ht
      refine hbody.mono fun flow a hmeets j hj => ?_
      have harm : Op.allLeave body j := hmeets j hj
      simp only [Op.chainLeaves, harm, Bool.true_or]
    | false =>
      refine (keeps_runChain hcallee margin rest t ht).mono fun flow a hmeets j hj => ?_
      have hlater : Op.chainLeaves rest j := hmeets j hj
      simp only [Op.chainLeaves, hlater, Bool.or_true]

end

/-! ## Procedures -/

/-- The failures are to be expected that a procedure makes of the jumps that its operations can end
with. -/
def Expects (U : Upkeep r.evaluator) (procedure : Procedure) : Prop :=
  ∀ j, Op.allLeave procedure.ops j → j ≠ .returns → U.failure (.strayJump j)

theorem sound_runProcedure (hcallee : U.Callees callee) {procedure : Procedure}
    (hprocedure : U.Expects procedure) (margin : Text) :
    U.Sound (r.runProcedure callee procedure margin) := by
  intro s hs
  refine (keeps_runAll hcallee margin procedure.ops s hs).andThen fun flow t ht hops => ?_
  cases flow with
  | through => exact ⟨ht, trivial⟩
  | jumped j =>
    cases j with
    | returns => exact ⟨ht, trivial⟩
    | breaks => exact ⟨ht, hprocedure .breaks (hops .breaks rfl) nofun⟩
    | continues => exact ⟨ht, hprocedure .continues (hops .continues rfl) nofun⟩

/-- From one level of calls to the next. -/
theorem callees_calleeAt (h : ∀ procedure, r.library.Holds procedure → U.Expects procedure)
    (n : Nat) : U.Callees (r.calleeAt n) := by
  induction n with
  | zero =>
    rintro run ⟨⟩
  | succ n ih =>
    rintro run ⟨⟩ procedure margin hholds
    exact sound_runProcedure ih (h procedure hholds) margin

end Upkeep

/-! ## Jumps alone -/

section Jumps

variable {σ ν ε : Type} {allowed : Jump → Bool}

/-- An outcome that is no other jump than one of those allowed. -/
def Confined (allowed : Jump → Bool) (outcome : Outcome σ ε Flow) : Prop :=
  ∀ j, outcome.1 = .ok (.jumped j) → allowed j

theorem Confined.inScope {f : Session σ → Outcome σ ε Flow} (ev : Evaluator σ ν ε)
    (h : ∀ s, Confined allowed (f s)) (s : Session σ) : Confined allowed (inScope ev f s) :=
  fun j hj => h { s with state := ev.push s.state } j hj

/-- Nothing is kept up; only failures are in question. -/
def Upkeep.ofFailures (ev : Evaluator σ ν ε) (failure : RenderError ε → Prop)
    (h : ∀ error, (∀ j, error ≠ .strayJump j) → failure error) : Upkeep ev where
  state _ := True
  failure := failure
  onEvaluate _ _ _ := trivial
  onCondition _ _ _ := trivial
  onItems _ _ _ := trivial
  onExecute _ _ _ := trivial
  onBind _ _ _ _ := trivial
  onPush _ _ := trivial
  onPop _ _ := trivial
  onFailure := h

/-- Every failure is to be expected. -/
def Upkeep.nothing (ev : Evaluator σ ν ε) : Upkeep ev :=
  .ofFailures ev (fun _ => True) fun _ _ => trivial

theorem Upkeep.callees_nothing (r : Renderer σ ν ε) (callee : Callee σ ε) :
    (Upkeep.nothing r.evaluator).Callees callee := by
  intro run _ procedure margin _ s _
  refine ⟨trivial, ?_⟩
  cases (run procedure margin s).1 <;> trivial

namespace Renderer

variable (r : Renderer σ ν ε)

theorem confined_runAll (callee : Callee σ ε) (margin : Text) (ops : List Op) (s : Session σ) :
    Confined (Op.allLeave ops) (r.runAll callee margin ops s) := by
  intro j hj
  obtain ⟨-, hresult⟩ :=
    Upkeep.keeps_runAll (Upkeep.callees_nothing r callee) margin ops s trivial
  rw [hj] at hresult
  exact hresult j rfl

/-- Operations that cannot end with a jump end otherwise. -/
theorem confined_of_not_leaves {j : Jump} {ops : List Op} (h : Op.allLeave ops j = false)
    (callee : Callee σ ε) (margin : Text) (s : Session σ) :
    Confined (· != j) (r.runAll callee margin ops s) := by
  intro j' hj'
  have hleaves := r.confined_runAll callee margin ops s j' hj'
  rw [bne_iff_ne]
  rintro rfl
  rw [h] at hleaves
  cases hleaves

end Renderer

end Jumps

end Stencil
