import Stencil.Proofs.Bindings.Visible

/-!
# Empty scopes

An empty scope between others hides nothing, so a run does not notice it unless something is
declared in it. That is why a step in a scope of its own is the same as the step by itself, if
neither it nor anything that it runs declares names where it stands.

`Padded` relates the two stacks: one has an empty scope below the scopes that the runs have begun
themselves, which are the same in both. Since the empty scope stays empty, ending it leaves the very
stack that the other run leaves.

* `paddings_steady`: all operations treat padded stacks alike.
* `inScope_eq_of_alike`: a step that treats padded stacks alike needs no scope of its own.
-/

namespace Stencil

namespace Bindings

/-- The second stack is the first one with an empty scope below the innermost `k`. -/
inductive Padded : Nat → Bindings → Bindings → Prop
  | start (b : Bindings) : Padded 0 b b.push
  | inner {k : Nat} {b c : Bindings} (scope : Scope) (h : Padded k b c) :
      Padded (k + 1) (inner scope b) (inner scope c)

namespace Padded

variable {k : Nat} {b c : Bindings}

/-- Names have the same values. -/
theorem looksLike (h : Padded k b c) : LooksLike k b c := by
  induction h with
  | start b => exact .start fun name => (get?_push b name).symm
  | inner scope _ ih => exact .inner (fun _ => rfl) ih

theorem declare (h : Padded (k + 1) b c) (name : Text) (v : Value) :
    Padded (k + 1) (b.declare name v) (c.declare name v) := by
  cases h with
  | inner scope h => exact .inner _ h

/-- The empty scope has no name that could be updated. -/
theorem update? (h : Padded k b c) (name : Text) (v : Value) :
    Option.Rel (Padded k) (b.update? name v) (c.update? name v) := by
  induction h with
  | start b =>
    have hempty : Table.contains (.empty : Scope) name = false := rfl
    simp only [push, Bindings.update?, hempty, Bool.false_eq_true, if_false]
    cases b.update? name v with
    | none => exact .none
    | some b' => exact .some (.start b')
  | @inner k b c scope h ih =>
    simp only [Bindings.update?]
    split
    · exact .some (.inner _ h)
    · generalize Bindings.update? name v b = updated at ih ⊢
      generalize Bindings.update? name v c = updated' at ih ⊢
      cases ih with
      | none => exact .none
      | some ih => exact .some (.inner scope ih)

theorem push (h : Padded k b c) : Padded (k + 1) b.push c.push := .inner _ h

theorem pop (h : Padded (k + 1) b c) : Padded k b.pop c.pop := by
  cases h with
  | inner _ h => exact h

/-- Ending the empty scope leaves the other stack. -/
theorem pop_eq (h : Padded 0 b c) : c.pop = b := by
  cases h with
  | start => rfl

/-- A statement has the same effect on padded stacks, except for a declaration next to the empty
scope. -/
theorem execute (h : Padded k b c) {t : Text}
    (ht : 0 < k ∨ ∀ name e, Statement.parse t ≠ .ok (.declare name e)) :
    SameAnswer (Padded k) (evaluator.execute t b) (evaluator.execute t c) := by
  refine execute_sameAnswer h h.looksLike.eval_eq (fun name e v hparse => ?_) h.update?
  cases k with
  | zero => exact absurd hparse (ht.resolve_left (Nat.not_lt_zero 0) name e)
  | succ k => exact h.declare name v

end Padded

/-- Two runs that have written the same, one of them with an empty scope more. -/
def paddings : Coupling evaluator evaluator where
  states := Padded
  texts := Eq
  onEvaluate _ _ _ e h := ⟨h.looksLike.evaluate_eq e, h⟩
  onCondition _ _ _ e h :=
    sameAnswer_condition rfl rfl ⟨h.looksLike.evaluate_eq e, h⟩ fun _ _ _ h => ⟨rfl, h⟩
  onItems _ _ _ _ h := ⟨rfl, h⟩
  onExecute k _ _ _ h := h.execute (.inl k.succ_pos)
  onBind _ _ _ n v h := h.declare n v
  onPush _ _ _ h := h.push
  onPop _ _ _ h := h.pop

/-- What is not a declaration may also stand next to the empty scope. -/
theorem paddings_execute {t : Text} (ht : ∀ name e, Statement.parse t ≠ .ok (.declare name e))
    (k : Nat) : paddings.Alike k (Session.execute evaluator t)
      (Session.execute evaluator t) :=
  Coupling.execute_alike_of fun _ _ h => h.execute (.inr ht)

/-- Operations treat padded stacks alike at every call level. -/
theorem paddings_steady (limits : Limits) (library : Library) (n : Nat) :
    let r := Renderer.ofLimits limits evaluator library
    @Coupling.Steady _ _ _ _ r r paddings (r.calleeAt n) (r.calleeAt n) := by
  intro r
  exact Coupling.steady_calleeAt r r rfl rfl rfl (fun _ => rfl)
    (fun _ _ t h => congrArg (· ++ t) h) n

/-- A step that treats padded stacks alike needs no scope of its own. -/
theorem inScope_eq_of_alike {α : Type} {f g : Session Bindings → Outcome Bindings EvalError α}
    (h : paddings.Alike 0 f g) (s : Session Bindings) :
    Session.inScope evaluator g s = f s := by
  let pushed : Session Bindings := { s with state := s.state.push }
  obtain ⟨hresult, hstates, htexts⟩ := h s pushed ⟨.start s.state, rfl⟩
  have hpopped : (g pushed).2.state.pop = (f s).2.state := hstates.pop_eq
  have hout : (g pushed).2.out = (f s).2.out := (Buffer.ext_contents htexts).symm
  show ((g pushed).1, (⟨(g pushed).2.state.pop, (g pushed).2.out⟩ : Session Bindings)) = f s
  rw [← hresult, hpopped, hout]

end Bindings

end Stencil
