import Stencil.Proofs.Run.Coupling
import Stencil.Render.Template

/-!
# Observed runs

An observer keeps notes beside the state of an evaluator and brings them up to date at every
request. It changes nothing about a run. What the notes say when the run ends follows from what they
say about the scopes that are open: `Tracks` is the invariant, level by level, and `observed` the
coupling that it gives.

Main statement: `Renderer.run_observing`.
-/

namespace Stencil

namespace Request

variable {ν τ : Type}

def isPush : Request ν → Bool
  | push => true
  | _ => false

def isPop : Request ν → Bool
  | pop => true
  | _ => false

/-- Notes brought up to date by `note` fit the number of open scopes in the sense of `I`. -/
structure Tracks (note : Request ν → τ → τ) (I : Nat → τ → Prop) : Prop where
  push : ∀ k notes, I k notes → I (k + 1) (note .push notes)
  pop : ∀ k notes, I (k + 1) notes → I k (note .pop notes)
  other : ∀ k request notes, request.isPush = false → request.isPop = false →
    I k notes → I k (note request notes)

end Request

variable {σ ν ε τ α : Type}

namespace Evaluator

/-- The evaluator with notes beside its state. -/
def observing (ev : Evaluator σ ν ε) (note : Request ν → τ → τ) : Evaluator (σ × τ) ν ε where
  evaluate e s := ((ev.evaluate e s.1).1, (ev.evaluate e s.1).2, note (.evaluate e) s.2)
  isTruthy v s := ((ev.isTruthy v s.1).1, (ev.isTruthy v s.1).2, note (.isTruthy v) s.2)
  condition? := ev.condition?.map fun own e s =>
    ((own e s.1).1, (own e s.1).2, note (.condition e) s.2)
  items v s := ((ev.items v s.1).1, (ev.items v s.1).2, note (.items v) s.2)
  execute t s := ((ev.execute t s.1).1, (ev.execute t s.1).2, note (.execute t) s.2)
  bind n v s := (ev.bind n v s.1, note (.bind n v) s.2)
  push s := (ev.push s.1, note .push s.2)
  pop s := (ev.pop s.1, note .pop s.2)
  text := ev.text

/-- The recording evaluator notes all requests. -/
theorem observing_cons (ev : Evaluator σ ν ε) : ev.observing List.cons = ev.recording := rfl

variable {note : Request ν → τ → τ} {I : Nat → τ → Prop}

/-- A condition is one request or two, according to whether the evaluator has a way of its own to
tell whether it holds. -/
theorem condition_observed (ev : Evaluator σ ν ε) (h : Request.Tracks note I) {k : Nat} {notes : τ}
    (hnotes : I k notes) (e : Text) (a : σ) :
    SameAnswer (fun x b => x.1 = b ∧ I k x.2) ((ev.observing note).condition e (a, notes))
      (ev.condition e a) := by
  cases hown : ev.condition? with
  | some own =>
    rw [condition_of_own hown, condition_of_own (congrArg (Option.map _) hown)]
    exact ⟨rfl, rfl, h.other k _ _ rfl rfl hnotes⟩
  | none =>
    refine sameAnswer_condition (congrArg (Option.map _) hown) hown
      ⟨rfl, rfl, h.other k _ _ rfl rfl hnotes⟩ ?_
    rintro x _ v ⟨rfl, hnotes'⟩
    exact ⟨rfl, rfl, h.other k _ _ rfl rfl hnotes'⟩

/-- A run with an observer beside one without it. -/
def observed (ev : Evaluator σ ν ε) (h : Request.Tracks note I) :
    Coupling (ev.observing note) ev where
  states k a b := a.1 = b ∧ I k a.2
  texts := Eq
  onEvaluate := by
    rintro k a _ e ⟨rfl, hnotes⟩
    exact ⟨rfl, rfl, h.other k _ _ rfl rfl hnotes⟩
  onCondition := by
    rintro k a _ e ⟨rfl, hnotes⟩
    exact condition_observed ev h hnotes e a.1
  onItems := by
    rintro k a _ v ⟨rfl, hnotes⟩
    exact ⟨rfl, rfl, h.other k _ _ rfl rfl hnotes⟩
  onExecute := by
    rintro k a _ t ⟨rfl, hnotes⟩
    exact ⟨rfl, rfl, h.other (k + 1) _ _ rfl rfl hnotes⟩
  onBind := by
    rintro k a _ n v ⟨rfl, hnotes⟩
    exact ⟨rfl, h.other (k + 1) _ _ rfl rfl hnotes⟩
  onPush := by
    rintro k a _ ⟨rfl, hnotes⟩
    exact ⟨rfl, h.push k _ hnotes⟩
  onPop := by
    rintro k a _ ⟨rfl, hnotes⟩
    exact ⟨rfl, h.pop k _ hnotes⟩

/-- Statements are observed at every level alike. -/
theorem execute_observed (ev : Evaluator σ ν ε) (h : Request.Tracks note I) (k : Nat) (t : Text) :
    (ev.observed h).Alike k (Session.execute (ev.observing note) t) (Session.execute ev t) := by
  refine Coupling.execute_alike_of ?_
  rintro a _ ⟨rfl, hnotes⟩
  exact ⟨rfl, rfl, h.other k _ _ rfl rfl hnotes⟩

/-- A step that is alike to one without the observer comes to what that comes to. -/
theorem eq_of_observed {ev : Evaluator σ ν ε} {h : Request.Tracks note I} {k : Nat}
    {f : Session (σ × τ) → Outcome (σ × τ) ε α} {g : Session σ → Outcome σ ε α}
    (halike : (ev.observed h).Alike k f g) (s : Session (σ × τ)) (hnotes : I k s.state.2) :
    g ⟨s.state.1, s.out⟩ = ((f s).1, ⟨(f s).2.state.1, (f s).2.out⟩) := by
  obtain ⟨hresult, ⟨hstate, -⟩, htexts⟩ := halike s ⟨s.state.1, s.out⟩ ⟨⟨rfl, hnotes⟩, rfl⟩
  rw [hresult, hstate, Buffer.ext_contents htexts]

end Evaluator

/-- Observing changes nothing about a run, and at its end the notes fit that no scope is open. -/
theorem Renderer.run_observing {note : Request ν → τ → τ} {I : Nat → τ → Prop}
    (h : Request.Tracks note I) (limits : Limits) (ev : Evaluator σ ν ε) (library : Library)
    (procedure : Procedure) (margin : Text) (state : σ) {notes : τ} (hnotes : I 0 notes)
    (out : Buffer) :
    let ran := (ofLimits limits ev library).run procedure margin ⟨state, out⟩
    let observed := (ofLimits limits (ev.observing note) library).run procedure margin
      ⟨(state, notes), out⟩
    observed.1 = ran.1 ∧ observed.2.state.1 = ran.2.state ∧
      observed.2.out.contents = ran.2.out.contents ∧ I 0 observed.2.state.2 := by
  intro ran observed
  let r := ofLimits limits ev library
  let r' := ofLimits limits (ev.observing note) library
  have halike : (ev.observed h).Alike 0 (r'.run procedure margin) (r.run procedure margin) := by
    refine Coupling.run_alike r' r rfl rfl rfl (fun _ => rfl) ?_ procedure margin
      fun op _ => Coupling.declares_of (ev.execute_observed h 0) op
    exact fun _ _ t htexts => congrArg (· ++ t) htexts
  obtain ⟨hresult, ⟨hstate, hnotes'⟩, htexts⟩ :=
    halike ⟨(state, notes), out⟩ ⟨state, out⟩ ⟨⟨rfl, hnotes⟩, rfl⟩
  exact ⟨hresult, hstate, htexts, hnotes'⟩

end Stencil
