import Stencil.Bindings
import Stencil.Proofs.Run.Coupling
import Stencil.Render.Template

/-!
# What a template sees of its bindings

All that a run depends on is the value that each name has. Two stacks of scopes may have different
shapes, with names at different levels and hidden values in different places; if every name has the
same value in both, no template tells them apart.

The invariant is `LooksLike`: the scopes that the runs have begun themselves agree one by one, and
below them is where the stacks may have different shapes.

Main statements:

* `get?_declare`, `get?_of_update?`, `update?_eq_none_iff`: how values of names change.
* `run_of_get?_eq`: runs from bindings that give names the same values.
-/

namespace Stencil

namespace Bindings

/-! ## Values of names -/

theorem get?_outermost (scope : Scope) (name : Text) :
    (outermost scope).get? name = scope.get? name := by
  simp [get?, scopes]

theorem get?_inner (scope : Scope) (enclosing : Bindings) (name : Text) :
    (inner scope enclosing).get? name = (scope.get? name).or (enclosing.get? name) := by
  simp only [get?, scopes, List.findSome?_cons]
  cases scope.get? name <;> rfl

@[simp] theorem get?_push (b : Bindings) (name : Text) : b.push.get? name = b.get? name := by
  rw [push, get?_inner, Table.get?_empty, Option.none_or]

/-- A declaration gives a value to its name only. -/
theorem get?_declare (b : Bindings) (name other : Text) (v : Value) :
    (b.declare name v).get? other = if other = name then some v else b.get? other := by
  cases b with
  | outermost scope => simp only [declare, get?_outermost, Table.get?_insert]
  | inner scope enclosing =>
    simp only [declare, get?_inner, Table.get?_insert]
    split <;> rfl

/-- A name can be updated if it has a value. -/
theorem update?_eq_none_iff {b : Bindings} {name : Text} {v : Value} :
    b.update? name v = none ↔ b.get? name = none := by
  induction b with
  | outermost scope =>
    cases hname : scope.get? name <;> simp [update?, get?_outermost, Table.contains, hname]
  | inner scope enclosing ih =>
    cases hname : scope.get? name <;> simp [update?, get?_inner, Table.contains, hname, ih]

/-- An update changes the value of its name only, at whatever level the name lives. -/
theorem get?_of_update? {b b' : Bindings} {name : Text} {v : Value}
    (h : b.update? name v = some b') (other : Text) :
    b'.get? other = if other = name then some v else b.get? other := by
  induction b generalizing b' with
  | outermost scope =>
    simp only [update?] at h
    split at h
    · cases h
      simp only [get?_outermost, Table.get?_insert]
    · cases h
  | inner scope enclosing ih =>
    simp only [update?] at h
    split at h
    · cases h
      simp only [get?_inner, Table.get?_insert]
      split <;> rfl
    · rename_i hcontains
      obtain ⟨b', hb', rfl⟩ := Option.map_eq_some_iff.1 h
      -- The innermost scope does not have the name, so it does not hide the new value.
      rw [get?_inner, get?_inner, ih hb']
      split
      · rename_i hname
        have hnone : scope.get? other = none := by simpa [Table.contains, hname] using hcontains
        rw [hnone, Option.none_or]
      · rfl

/-! ## Statements -/

/-- A statement has the same effect on related bindings if they give expressions the same value and
a declaration or an update keeps them related. -/
theorem execute_sameAnswer {R : Bindings → Bindings → Prop} {b c : Bindings} {t : Text} (h : R b c)
    (heval : ∀ e, b.eval e = c.eval e)
    (hdeclare : ∀ name e v, Statement.parse t = .ok (.declare name e) →
      R (b.declare name v) (c.declare name v))
    (hupdate : ∀ name v, Option.Rel R (b.update? name v) (c.update? name v)) :
    SameAnswer R (evaluator.execute t b) (evaluator.execute t c) := by
  simp only [evaluator, Bindings.execute]
  rcases hparse : Statement.parse t with error | ⟨name, e⟩ | ⟨name, e⟩
  · exact ⟨rfl, h⟩
  · simp only [Bindings.run, heval e]
    cases c.eval e with
    | error error => exact ⟨rfl, h⟩
    | ok v => exact ⟨rfl, hdeclare name e v hparse⟩
  · simp only [Bindings.run, heval e]
    cases c.eval e with
    | error error => exact ⟨rfl, h⟩
    | ok v =>
      dsimp only
      have hupdate := hupdate name v
      generalize b.update? name v = updated at hupdate ⊢
      generalize c.update? name v = updated' at hupdate ⊢
      cases hupdate with
      | none => exact ⟨rfl, h⟩
      | some hupdate => exact ⟨rfl, hupdate⟩

/-! ## Look-alikes -/

/-- Every name has the same value in both stacks, and that stays so as long as no more than the
innermost `k` scopes are ended. -/
inductive LooksLike : Nat → Bindings → Bindings → Prop
  | start {b c : Bindings} : (∀ name, b.get? name = c.get? name) → LooksLike 0 b c
  | inner {k : Nat} {s t : Scope} {b c : Bindings} : (∀ name, s.get? name = t.get? name) →
      LooksLike k b c → LooksLike (k + 1) (inner s b) (inner t c)

namespace LooksLike

variable {k : Nat} {b c : Bindings}

theorem get?_eq (h : LooksLike k b c) (name : Text) : b.get? name = c.get? name := by
  induction h with
  | start h => exact h name
  | inner hscope _ ih => rw [get?_inner, get?_inner, hscope, ih]

theorem eval_eq (h : LooksLike k b c) (e : Expr) : b.eval e = c.eval e := by
  rw [eval, eval, funext h.get?_eq]

theorem evaluate_eq (h : LooksLike k b c) (t : Text) : b.evaluate t = c.evaluate t := by
  unfold evaluate
  cases Expr.parse t with
  | error error => rfl
  | ok e => exact h.eval_eq e

theorem declare (h : LooksLike k b c) (name : Text) (v : Value) :
    LooksLike k (b.declare name v) (c.declare name v) := by
  cases h with
  | start h => exact .start fun other => by rw [get?_declare, get?_declare, h]
  | inner hscope h =>
    exact .inner (fun other => by rw [Table.get?_insert, Table.get?_insert, hscope]) h

/-- Either both stacks have the name, in corresponding scopes of the runs' own or at any levels
below them, or neither has it. -/
theorem update? (h : LooksLike k b c) (name : Text) (v : Value) :
    Option.Rel (LooksLike k) (b.update? name v) (c.update? name v) := by
  induction h with
  | @start b c h =>
    -- The name may live at different levels, and only its value tells whether it lives anywhere.
    have hnone : b.update? name v = none ↔ c.update? name v = none := by
      rw [update?_eq_none_iff, update?_eq_none_iff, h]
    cases hb : b.update? name v with
    | none =>
      rw [hnone.1 hb]
      exact .none
    | some b' =>
      cases hc : c.update? name v with
      | none =>
        rw [hnone.2 hc] at hb
        cases hb
      | some c' =>
        exact .some (.start fun other => by rw [get?_of_update? hb, get?_of_update? hc, h])
  | @inner k s t b c hscope h ih =>
    have hcontains : s.contains name = t.contains name := by
      rw [Table.contains, Table.contains, hscope]
    simp only [Bindings.update?, hcontains]
    split
    · exact .some (.inner (fun other => by rw [Table.get?_insert, Table.get?_insert, hscope]) h)
    · generalize Bindings.update? name v b = updated at ih ⊢
      generalize Bindings.update? name v c = updated' at ih ⊢
      cases ih with
      | none => exact .none
      | some ih => exact .some (.inner hscope ih)

theorem push (h : LooksLike k b c) : LooksLike (k + 1) b.push c.push := .inner (fun _ => rfl) h

theorem pop (h : LooksLike (k + 1) b c) : LooksLike k b.pop c.pop := by
  cases h with
  | inner _ h => exact h

/-- A statement has the same effect on look-alikes. -/
theorem execute (h : LooksLike k b c) (t : Text) :
    SameAnswer (LooksLike k) (evaluator.execute t b) (evaluator.execute t c) :=
  execute_sameAnswer h h.eval_eq (fun name _ v _ => h.declare name v) h.update?

end LooksLike

/-- Two runs on look-alikes that have written the same. -/
def lookAlikes : Coupling evaluator evaluator where
  states := LooksLike
  texts := Eq
  onEvaluate _ _ _ e h := ⟨h.evaluate_eq e, h⟩
  onCondition _ _ _ e h := sameAnswer_condition rfl rfl ⟨h.evaluate_eq e, h⟩ fun _ _ _ h => ⟨rfl, h⟩
  onItems _ _ _ _ h := ⟨rfl, h⟩
  onExecute _ _ _ t h := h.execute t
  onBind _ _ _ n v h := h.declare n v
  onPush _ _ _ h := h.push
  onPop _ _ _ h := h.pop

/-- Shadowed values, empty scopes and the levels at which names live make no difference to a run: if
every name has the same value in two stacks of scopes, then runs from them come to the same result,
write the same text, and leave stacks in which every name has the same value. -/
theorem run_of_get?_eq (limits : Limits) (library : Library) (procedure : Procedure)
    (margin : Text) (out : Buffer) {b c : Bindings} (h : ∀ name, b.get? name = c.get? name) :
    let r := Renderer.ofLimits limits evaluator library
    let ran := r.run procedure margin ⟨b, out⟩
    let ran' := r.run procedure margin ⟨c, out⟩
    ran.1 = ran'.1 ∧ ran.2.out.contents = ran'.2.out.contents ∧
      ∀ name, ran.2.state.get? name = ran'.2.state.get? name := by
  intro r ran ran'
  have halike : lookAlikes.Alike 0 (r.run procedure margin) (r.run procedure margin) := by
    refine Coupling.run_alike r r rfl rfl rfl (fun _ => rfl) ?_ procedure margin
      fun op _ => Coupling.declares_of ?_ op
    · exact fun _ _ t h => congrArg (· ++ t) h
    · exact fun t => Coupling.execute_alike_of fun b c h => h.execute t
  obtain ⟨hresult, hstates, htexts⟩ := halike ⟨b, out⟩ ⟨c, out⟩ ⟨.start h, rfl⟩
  exact ⟨hresult, htexts, hstates.get?_eq⟩

/-- A name that hides another value and lives one level further in, and a template that changes it
and writes it. -/
theorem run_of_get?_eq_hidden :
    let two : Value := .int ⟨2, by decide⟩
    let b := (inner (.ofList [(['x'], two)]) (outermost (.ofList [(['x'], .null)]))).push
    let c := outermost (.ofList [(['x'], two)])
    let r := Renderer.ofLimits {} evaluator .empty
    let procedure : Procedure := ⟨.plain, [.declare "x += 1".toList, .render ['x'] false]⟩
    let ran := r.run procedure [] ⟨b, .empty⟩
    let ran' := r.run procedure [] ⟨c, .empty⟩
    (∀ name, b.get? name = c.get? name) ∧ ran.2.out.contents = ['3'] ∧ ran.1 = ran'.1 ∧
      ran.2.out.contents = ran'.2.out.contents ∧
      ∀ name, ran.2.state.get? name = ran'.2.state.get? name := by
  intro two b c r procedure ran ran'
  have h : ∀ name, b.get? name = c.get? name := by
    intro name
    simp only [b, c, get?_push, get?_inner, get?_outermost, Table.ofList, List.foldl_cons,
      List.foldl_nil, Table.get?_insert, Table.get?_empty]
    split <;> rfl
  exact ⟨h, by decide +kernel, run_of_get?_eq {} .empty procedure [] .empty h⟩

end Bindings

end Stencil
