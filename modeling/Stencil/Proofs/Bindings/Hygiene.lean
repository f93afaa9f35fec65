import Stencil.Bindings
import Stencil.Proofs.Run.CallDepth
import Stencil.Proofs.Run.Trace

/-!
# What a run leaves behind in the bindings

A run leaves the scopes as it found them, in whatever way it ends. The scopes around the innermost
one keep their names, and the innermost one gains no other names than those that the procedure
declares itself, which is outside of all its bodies and of all templates that it calls.

The invariant is `Above`: the scopes that the run has begun stand on top of bindings that keep the
names of the initial ones. Only a declaration that stands in no body is executed when there is none
of them.

Main statements:

* `Above.execute`: what a statement does in a scope of the run's own.
* `run_hygienic`: scopes, open calls and requests when a run ends.
-/

namespace Stencil

namespace Bindings

/-! ## Names of scopes -/

/-- The innermost scope. -/
def innermost : Bindings → Scope
  | outermost scope => scope
  | inner scope _ => scope

/-- The scopes around the innermost one, from the inside to the outside. -/
def around : Bindings → List Scope
  | outermost _ => []
  | inner _ enclosing => enclosing.scopes

theorem scopes_eq (b : Bindings) : b.scopes = b.innermost :: b.around := by
  cases b <;> rfl

theorem contains_insert (scope : Scope) (name other : Text) (v : Value) :
    (scope.insert name v).contains other = (other == name || scope.contains other) := by
  rw [Table.contains, Table.get?_insert, Table.contains]
  by_cases h : other = name <;> simp [h]

/-- Giving a name of a scope another value changes no names. -/
theorem contains_insert_of_contains {scope : Scope} {name : Text} (h : scope.contains name = true)
    (v : Value) : (scope.insert name v).contains = scope.contains := by
  funext other
  rw [contains_insert]
  by_cases hother : other = name <;> simp [hother, h]

/-- An update changes no names. -/
theorem contains_of_update? {b c : Bindings} {name : Text} {v : Value}
    (h : b.update? name v = some c) :
    c.scopes.map Table.contains = b.scopes.map Table.contains := by
  induction b generalizing c with
  | outermost scope =>
    simp only [update?] at h
    split at h
    · rename_i hcontains
      cases h
      simp only [scopes, List.map_cons, contains_insert_of_contains hcontains]
    · cases h
  | inner scope enclosing ih =>
    simp only [update?] at h
    split at h
    · rename_i hcontains
      cases h
      simp only [scopes, List.map_cons, contains_insert_of_contains hcontains]
    · obtain ⟨c, hc, rfl⟩ := Option.map_eq_some_iff.1 h
      simp only [scopes, List.map_cons, ih hc]

/-- The bindings `c` have the names that `b` has, scope by scope, and in the innermost scope perhaps
more names, for which `declared` holds. -/
structure Keeps (declared : Text → Prop) (b c : Bindings) : Prop where
  innermost : ∀ name, b.innermost.contains name → c.innermost.contains name
  gained : ∀ name, c.innermost.contains name → b.innermost.contains name ∨ declared name
  around : c.around.map Table.contains = b.around.map Table.contains

namespace Keeps

variable {declared : Text → Prop} {b c d : Bindings} {name : Text}

theorem refl (declared : Text → Prop) (b : Bindings) : Keeps declared b b :=
  ⟨fun _ h => h, fun _ h => .inl h, rfl⟩

theorem depth_eq (h : Keeps declared b c) : c.depth = b.depth := by
  have haround : c.around.length = b.around.length := by
    simpa only [List.length_map] using congrArg List.length h.around
  rw [depth, depth, scopes_eq, scopes_eq, List.length_cons, List.length_cons, haround]

theorem declare (h : Keeps declared b c) (hname : declared name) (v : Value) :
    Keeps declared b (c.declare name v) := by
  have hinnermost : (c.declare name v).innermost = c.innermost.insert name v := by cases c <;> rfl
  have haround : (c.declare name v).around = c.around := by cases c <;> rfl
  refine ⟨fun other hother => ?_, fun other hother => ?_, haround ▸ h.around⟩
  · rw [hinnermost, contains_insert, h.innermost other hother, Bool.or_true]
  · rw [hinnermost, contains_insert, Bool.or_eq_true, beq_iff_eq] at hother
    rcases hother with rfl | hother
    · exact .inr hname
    · exact h.gained other hother

theorem update? {v : Value} (h : Keeps declared b c) (hd : c.update? name v = some d) :
    Keeps declared b d := by
  have hscopes := contains_of_update? hd
  rw [scopes_eq, scopes_eq, List.map_cons, List.map_cons, List.cons.injEq] at hscopes
  obtain ⟨hinnermost, haround⟩ := hscopes
  refine ⟨fun other hother => ?_, fun other hother => ?_, haround.trans h.around⟩
  · rw [hinnermost]
    exact h.innermost other hother
  · rw [hinnermost] at hother
    exact h.gained other hother

end Keeps

/-! ## Scopes of the run's own -/

/-- A statement changes nothing, or declares its name, or updates it. -/
theorem execute_cases (b : Bindings) (t : Text) :
    (evaluator.execute t b).2 = b ∨
      (∃ name e v, Statement.parse t = .ok (.declare name e) ∧
        (evaluator.execute t b).2 = b.declare name v) ∨
      ∃ name v, b.update? name v = some (evaluator.execute t b).2 := by
  simp only [evaluator, execute]
  rcases Statement.parse t with error | ⟨name, e⟩ | ⟨name, e⟩
  · exact .inl rfl
  · simp only [Bindings.run]
    cases b.eval e with
    | error error => exact .inl rfl
    | ok v => exact .inr (.inl ⟨name, e, v, rfl, rfl⟩)
  · simp only [Bindings.run]
    cases b.eval e with
    | error error => exact .inl rfl
    | ok v =>
      cases hupdate : b.update? name v with
      | none => exact .inl (by simp only [hupdate])
      | some c => exact .inr (.inr ⟨name, v, by simp only [hupdate]⟩)

/-- Bindings with `k` scopes of the run's own on top of bindings that keep the names of `b`. -/
inductive Above (declared : Text → Prop) (b : Bindings) : Nat → Bindings → Prop
  | start {c : Bindings} : Keeps declared b c → Above declared b 0 c
  | inner {k : Nat} {c : Bindings} (scope : Scope) :
      Above declared b k c → Above declared b (k + 1) (inner scope c)

namespace Above

variable {declared : Text → Prop} {b c d : Bindings} {k : Nat} {name : Text}

theorem declare (h : Above declared b (k + 1) c) (name : Text) (v : Value) :
    Above declared b (k + 1) (c.declare name v) := by
  cases h with
  | inner scope h => exact .inner _ h

theorem update? {v : Value} (h : Above declared b k c) (hd : c.update? name v = some d) :
    Above declared b k d := by
  induction h generalizing d with
  | start h => exact .start (h.update? hd)
  | inner scope h ih =>
    simp only [Bindings.update?] at hd
    split at hd
    · cases hd
      exact .inner _ h
    · obtain ⟨c, hc, rfl⟩ := Option.map_eq_some_iff.1 hd
      exact .inner scope (ih hc)

theorem push (h : Above declared b k c) : Above declared b (k + 1) c.push := .inner _ h

theorem pop (h : Above declared b (k + 1) c) : Above declared b k c.pop := by
  cases h with
  | inner _ h => exact h

/-- In a scope of the run's own a statement may declare anything. -/
theorem execute (h : Above declared b (k + 1) c) (t : Text) :
    Above declared b (k + 1) (evaluator.execute t c).2 := by
  rcases execute_cases c t with heq | ⟨name, e, v, _, heq⟩ | ⟨name, v, hupdate⟩
  · rwa [heq]
  · rw [heq]
    exact h.declare name v
  · exact h.update? hupdate

/-- Elsewhere it may declare what is allowed there. -/
theorem execute_start (h : Above declared b 0 c) {t : Text}
    (ht : ∀ name e, Statement.parse t = .ok (.declare name e) → declared name) :
    Above declared b 0 (evaluator.execute t c).2 := by
  rcases execute_cases c t with heq | ⟨name, e, v, hparse, heq⟩ | ⟨name, v, hupdate⟩
  · rwa [heq]
  · rw [heq]
    cases h with
    | start h => exact .start (h.declare (ht name e hparse) v)
  · exact h.update? hupdate

end Above

/-- A run beside itself, with the names that it has to keep. -/
def keeping (declared : Text → Prop) (b : Bindings) : Coupling evaluator evaluator where
  states k c d := c = d ∧ Above declared b k c
  texts := Eq
  onEvaluate := by
    rintro k c _ e ⟨rfl, h⟩
    exact ⟨rfl, rfl, h⟩
  onCondition := by
    rintro k c _ e ⟨rfl, h⟩
    exact sameAnswer_condition rfl rfl ⟨rfl, rfl, h⟩ fun _ _ _ h => ⟨rfl, h⟩
  onItems := by
    rintro k c _ v ⟨rfl, h⟩
    exact ⟨rfl, rfl, h⟩
  onExecute := by
    rintro k c _ t ⟨rfl, h⟩
    exact ⟨rfl, rfl, h.execute t⟩
  onBind := by
    rintro k c _ name v ⟨rfl, h⟩
    exact ⟨rfl, h.declare name v⟩
  onPush := by
    rintro k c _ ⟨rfl, h⟩
    exact ⟨rfl, h.push⟩
  onPop := by
    rintro k c _ ⟨rfl, h⟩
    exact ⟨rfl, h.pop⟩

end Bindings

/-! ## Runs -/

/-- The name is declared by an operation that stands in no body of the procedure. -/
def Procedure.Declares (procedure : Procedure) (name : Text) : Prop :=
  ∃ statement e, .declare statement ∈ procedure.ops ∧
    Statement.parse statement = .ok (.declare name e)

namespace Bindings

/-- A run keeps the names of every scope, but for those that its procedure declares outside of all
bodies. -/
theorem keeps_of_run (limits : Limits) (library : Library) (procedure : Procedure) (margin : Text)
    (b : Bindings) (out : Buffer) :
    b.Keeps procedure.Declares
      ((Renderer.ofLimits limits evaluator library).run procedure margin ⟨b, out⟩).2.state := by
  let r := Renderer.ofLimits limits evaluator library
  have halike : (keeping procedure.Declares b).Alike 0 (r.run procedure margin)
      (r.run procedure margin) := by
    refine Coupling.run_alike r r rfl rfl rfl (fun _ => rfl) ?_ procedure margin ?_
    · exact fun _ _ t h => congrArg (· ++ t) h
    · rintro (_ | _ | t | _ | _ | _ | _) hop
      -- At level zero only a declaration of the procedure itself is executed.
      case declare =>
        refine Coupling.execute_alike_of ?_
        rintro c _ ⟨rfl, h⟩
        exact ⟨rfl, rfl, h.execute_start fun name e ht => ⟨t, e, hop, ht⟩⟩
      all_goals trivial
  obtain ⟨_, ⟨_, habove⟩, _⟩ := halike ⟨b, out⟩ ⟨b, out⟩ ⟨⟨rfl, .start (.refl _ b)⟩, rfl⟩
  cases habove with
  | start h => exact h

/-- However a run ends, there are as many scopes as before; the scopes around the innermost one have
the names that they had, and the innermost one has gained no others than those that the procedure
declares outside of all bodies; as many calls are open as before, if they are counted; and the
requests to begin and end scopes, if they are recorded, are balanced. -/
theorem run_hygienic (limits : Limits) (library : Library) (procedure : Procedure) (margin : Text)
    (b : Bindings) (out : Buffer) :
    let r := Renderer.ofLimits limits evaluator library
    let ran := r.run procedure margin ⟨b, out⟩
    let counted := r.runCounting procedure margin ⟨(b, 0), out⟩
    let recorded := (Renderer.ofLimits limits evaluator.recording library).run procedure margin
      ⟨(b, []), out⟩
    (ran.2.state.depth = b.depth ∧ b.Keeps procedure.Declares ran.2.state) ∧
      ((∀ n, (r.runCounting procedure margin ⟨(b, n), out⟩).2.state.2 = n) ∧
        counted.1 = ran.1 ∧ counted.2.state = (ran.2.state, 0) ∧
        counted.2.out.contents = ran.2.out.contents) ∧
      (recorded.1 = ran.1 ∧ recorded.2.state.1 = ran.2.state ∧
        recorded.2.out.contents = ran.2.out.contents ∧
        Request.Balanced recorded.2.state.2.reverse) := by
  intro r ran counted recorded
  have hkeeps := keeps_of_run limits library procedure margin b out
  have hcounted := fun n => r.runCounting_eq procedure margin b n out
  refine ⟨⟨hkeeps.depth_eq, hkeeps⟩, ⟨fun n => ?_, hcounted 0⟩,
    Renderer.run_recording limits evaluator library procedure margin b out⟩
  rw [(hcounted n).2.1]

end Bindings

end Stencil
