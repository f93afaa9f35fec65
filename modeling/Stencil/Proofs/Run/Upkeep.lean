import Stencil.Proofs.Run.Coupling
import Stencil.Proofs.Run.Work

/-!
# What a run keeps up

A logic for single runs. An upkeep is a property of the states of an evaluator that no request
breaks, together with the failures that runs may end with; of these only jumps that go astray are in
question. A step keeps it up if it leaves the property as it found it, however it ends, and fails in
no other way; of a result that it comes to, and of the state that it leaves then, more may be known
(`Upkeep.Keeps`).

For operations this is what they jump with: `Flow.Meets` puts a condition on the state in which a
jump leaves them. A loop takes in all jumps but a `return`, so of the conditions on the jumps in its
body only that on a `return` is left for the loop (`Upkeep.keeps_loop`). A call leaves none
(`Upkeep.keeps_call`), but the procedure that it runs has to keep up what the caller does.
-/

namespace Stencil

open Session

variable {σ ν ε α β : Type}

/-- A property of states that no request to the evaluator breaks, and the failures that are to be
expected. -/
structure Upkeep (ev : Evaluator σ ν ε) where
  state : σ → Prop
  failure : RenderError ε → Prop
  onEvaluate : ∀ a e, state a → state (ev.evaluate e a).2
  onCondition : ∀ a e, state a → state (ev.condition e a).2
  onItems : ∀ a v, state a → state (ev.items v a).2
  onExecute : ∀ a t, state a → state (ev.execute t a).2
  onBind : ∀ a n v, state a → state (ev.bind n v a)
  onPush : ∀ a, state a → state (ev.push a)
  onPop : ∀ a, state a → state (ev.pop a)
  onFailure : ∀ error, (∀ j, error ≠ .strayJump j) → failure error

/-- Every jump is met by its condition on the state. -/
def Flow.Meets (P : Jump → σ → Prop) (flow : Flow) (a : σ) : Prop := ∀ j, flow = .jumped j → P j a

namespace Upkeep

variable {ev : Evaluator σ ν ε} (U : Upkeep ev)

/-- The property holds at the end, and what the step came to is as expected. -/
def Ends (Q : α → σ → Prop) (outcome : Outcome σ ε α) : Prop :=
  U.state outcome.2.state ∧
    match outcome.1 with
    | .ok a => Q a outcome.2.state
    | .error error => U.failure error

/-- Wherever the property holds, the step ends well. -/
def Keeps (Q : α → σ → Prop) (f : Session σ → Outcome σ ε α) : Prop :=
  ∀ s, U.state s.state → U.Ends Q (f s)

/-- The step keeps the property up; nothing is said about its result. -/
abbrev Sound (f : Session σ → Outcome σ ε α) : Prop := U.Keeps (fun _ _ => True) f

variable {U} {Q R : α → σ → Prop} {s : Session σ}

/-! ## Steps -/

theorem ends_failure {error : RenderError ε} (hs : U.state s.state)
    (h : ∀ j, error ≠ .strayJump j) : U.Ends Q (.error error, s) :=
  ⟨hs, U.onFailure error h⟩

theorem Ends.mono {outcome : Outcome σ ε α} (h : U.Ends Q outcome) (hle : ∀ a b, Q a b → R a b) :
    U.Ends R outcome := by
  obtain ⟨error | a, t⟩ := outcome
  · exact h
  · exact ⟨h.1, hle a _ h.2⟩

theorem Keeps.mono {f : Session σ → Outcome σ ε α} (h : U.Keeps Q f) (hle : ∀ a b, Q a b → R a b) :
    U.Keeps R f :=
  fun s hs => (h s hs).mono hle

/-- The next step starts where this one came to a result. -/
theorem Ends.andThen {R : β → σ → Prop} {outcome : Outcome σ ε α}
    {next : α → Session σ → Outcome σ ε β} (h : U.Ends Q outcome)
    (hnext : ∀ a s, U.state s.state → Q a s.state → U.Ends R (next a s)) :
    U.Ends R (andThen outcome next) := by
  obtain ⟨error | a, t⟩ := outcome
  · exact h
  · exact hnext a t h.1 h.2

/-- A scope of its own, if what is known of the result does not depend on it. -/
theorem Keeps.inScope {f : Session σ → Outcome σ ε α} (h : U.Keeps Q f)
    (hpop : ∀ a b, Q a b → Q a (ev.pop b)) : U.Keeps Q (inScope ev f) := by
  intro s hs
  obtain ⟨hstate, hresult⟩ := h { s with state := ev.push s.state } (U.onPush _ hs)
  refine ⟨U.onPop _ hstate, ?_⟩
  rcases hf : f { s with state := ev.push s.state } with ⟨error | a, t⟩
  · simpa only [Session.inScope, hf] using hresult
  · simp only [Session.inScope, hf] at hresult ⊢
    exact hpop a _ hresult

/-! ## Requests -/

theorem ends_reply {e : Text} {x : Except ε α × σ} (h : U.state x.2) :
    U.Ends (fun _ _ => True) (s.reply e x) := by
  obtain ⟨error | a, b⟩ := x
  · exact ends_failure h fun _ herror => by cases herror
  · exact ⟨h, trivial⟩

theorem sound_evaluate (e : Text) : U.Sound (evaluate ev e) := by
  intro s hs
  rw [evaluate_eq_reply]
  exact ends_reply (U.onEvaluate _ e hs)

theorem sound_evaluateAll (es : List Text) : U.Sound (evaluateAll ev es) := by
  induction es with
  | nil => exact fun _ hs => ⟨hs, trivial⟩
  | cons e es ih =>
    exact fun s hs => (sound_evaluate e s hs).andThen fun _ t ht _ =>
      (ih t ht).andThen fun _ _ hu _ => ⟨hu, trivial⟩

theorem sound_test (e : Text) : U.Sound (test ev e) := by
  intro s hs
  rw [test_eq_reply]
  split
  · exact ⟨hs, trivial⟩
  · exact ends_reply (U.onCondition _ e hs)

theorem sound_items (e : Text) : U.Sound (items ev e) := by
  intro s hs
  rw [items_eq_reply]
  exact (sound_evaluate e s hs).andThen fun v t ht _ => ends_reply (U.onItems _ v ht)

theorem sound_execute (t : Text) : U.Sound (execute ev t) := by
  intro s hs
  rw [execute_eq_reply]
  split
  · exact ⟨hs, trivial⟩
  · exact ends_reply (U.onExecute _ t hs)

theorem state_bindAll (bindings : List (Text × ν)) (hs : U.state s.state) :
    U.state (bindAll ev bindings s).state := by
  induction bindings generalizing s with
  | nil => exact hs
  | cons binding bindings ih => exact ih (U.onBind _ binding.1 binding.2 hs)

/-! ## Loops -/

/-- What a loop leaves of the conditions on the jumps in its body: it passes on a `return` only. -/
def PassedOn (P : Jump → σ → Prop) (j : Jump) (a : σ) : Prop := j = .returns ∧ P j a

section Loops

variable {P : Jump → σ → Prop} {limit : Nat}

theorem meets_through {a : σ} : Flow.through.Meets P a := fun _ h => by cases h

theorem meets_ofBody {flow flow' : Flow} {a : σ} (h : flow.Meets P a)
    (hflow : flow.ofBody = some flow') : flow'.Meets (PassedOn P) a := by
  cases flow with
  | through => cases hflow
  | jumped j =>
    cases j with
    | breaks =>
      cases hflow
      exact meets_through
    | continues => cases hflow
    | returns =>
      cases hflow
      rintro j ⟨⟩
      exact ⟨rfl, h .returns rfl⟩

theorem keeps_repeatWhile {test : Session σ → Outcome σ ε Bool}
    {body : Session σ → Outcome σ ε Flow} {step : Session σ → Outcome σ ε Unit}
    (htest : U.Sound test) (hbody : U.Keeps (Flow.Meets P) body) (hstep : U.Sound step)
    (left : Nat) : U.Keeps (Flow.Meets (PassedOn P)) (repeatWhile limit test body step left) := by
  induction left with
  | zero =>
    refine fun s hs => (htest s hs).andThen fun holds t ht _ => ?_
    cases holds with
    | false => exact ⟨ht, meets_through⟩
    | true => exact ends_failure ht fun _ herror => by cases herror
  | succ left ih =>
    refine fun s hs => (htest s hs).andThen fun holds t ht _ => ?_
    cases holds with
    | false => exact ⟨ht, meets_through⟩
    | true =>
      refine (hbody t ht).andThen fun flow u hu hmeets => ?_
      cases hflow : flow.ofBody with
      | some flow' => exact ⟨hu, meets_ofBody hmeets hflow⟩
      | none => exact (hstep u hu).andThen fun _ v hv _ => ih v hv

theorem keeps_forEach {body : ν → Session σ → Outcome σ ε Flow}
    (hbody : ∀ v, U.Keeps (Flow.Meets P) (body v)) (vs : List ν) (left : Nat) :
    U.Keeps (Flow.Meets (PassedOn P)) (forEach limit body left vs) := by
  induction vs generalizing left with
  | nil => cases left <;> exact fun _ hs => ⟨hs, meets_through⟩
  | cons v vs ih =>
    cases left with
    | zero => exact fun _ hs => ends_failure hs fun _ herror => by cases herror
    | succ left =>
      refine fun s hs => (hbody v s hs).andThen fun flow t ht hmeets => ?_
      cases hflow : flow.ofBody with
      | some flow' => exact ⟨ht, meets_ofBody hmeets hflow⟩
      | none => exact ih left t ht

end Loops

variable {r : Renderer σ ν ε} {U : Upkeep r.evaluator}

section Loops

variable {P : Jump → σ → Prop} {body : Session σ → Outcome σ ε Flow}
  (hbody : U.Keeps (Flow.Meets P) body) (hpop : ∀ j a, P j a → P j (r.evaluator.pop a))
include hbody hpop

theorem keeps_each (name iterable : Text) :
    U.Keeps (Flow.Meets (PassedOn P)) (r.each name iterable body) := by
  have hround (v : ν) : U.Keeps (Flow.Meets P)
      (inScope r.evaluator fun s => body (s.bind r.evaluator name v)) := by
    refine Keeps.inScope (fun s hs => ?_) fun flow a h j hj => hpop j a (h j hj)
    exact hbody (s.bind r.evaluator name v) (U.onBind _ name v hs)
  exact fun s hs => (sound_items iterable s hs).andThen fun values t ht _ =>
    keeps_forEach hround values r.loopLimit t ht

theorem keeps_loopWhile (condition step : Text) :
    U.Keeps (Flow.Meets (PassedOn P)) (r.loopWhile condition step body) :=
  keeps_repeatWhile (sound_test condition)
    (hbody.inScope fun _ a h j hj => hpop j a (h j hj)) (sound_execute step) r.loopLimit

/-- A loop passes on nothing but a `return` of its body. -/
theorem keeps_loop (kind : LoopKind) (header : Text) :
    U.Keeps (Flow.Meets (PassedOn P)) (r.loop kind header body) := by
  cases kind with
  | whileLoop => exact keeps_loopWhile hbody hpop header []
  | foreachLoop =>
    unfold Renderer.loop
    rcases Header.each? header with _ | ⟨name, iterable⟩
    · exact fun _ hs => ends_failure hs fun _ herror => by cases herror
    · exact keeps_each hbody hpop name iterable
  | forLoop =>
    unfold Renderer.loop
    rcases Header.ofText? header with _ | ⟨init, condition, step⟩ | ⟨name, iterable⟩
    · exact fun _ hs => ends_failure hs fun _ herror => by cases herror
    · refine Keeps.inScope (fun s hs => (sound_execute init s hs).andThen fun _ t ht _ =>
        keeps_loopWhile hbody hpop condition step t ht) fun flow a h j hj => ?_
      exact ⟨(h j hj).1, hpop j a (h j hj).2⟩
    · exact keeps_each hbody hpop name iterable

end Loops

/-! ## Calls -/

/-- What runs called templates keeps the property up for all procedures of the library. -/
def Callees (U : Upkeep r.evaluator) (callee : Callee σ ε) : Prop :=
  ∀ run, callee = some run → ∀ procedure margin, r.library.Holds procedure →
    U.Sound (run procedure margin)

theorem sound_call {callee : Callee σ ε} (hcallee : U.Callees callee) (name : Text)
    (arguments : List Text) (indent : CallIndent) (margin : Text) :
    U.Sound (r.call callee name arguments indent margin) := by
  intro s hs
  unfold Renderer.call
  cases hname : r.library.get? name with
  | none => exact ends_failure hs fun _ herror => by cases herror
  | some template =>
    by_cases hcount : template.parameters.length ≠ arguments.length
    · simp only [if_pos hcount]
      exact ends_failure hs fun _ herror => by cases herror
    · simp only [if_neg hcount]
      cases callee with
      | none => exact ends_failure hs fun _ herror => by cases herror
      | some run =>
        refine (sound_evaluateAll arguments s hs).andThen fun values t ht _ => ?_
        refine Keeps.inScope (fun u hu => ?_) (fun _ _ _ => trivial) t ht
        exact hcallee run rfl _ _ (Library.holds_pick hname indent margin) _ (state_bindAll _ hu)

end Upkeep

end Stencil
