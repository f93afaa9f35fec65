import Stencil.Proofs.Run.Trace

/-!
# Writing after what is written already

The buffer that a run writes to is never read. Two runs of the same procedure from the same state,
of which the second starts with an empty buffer, make the same requests and come to the same; and
what the first one writes is what the second one writes, after the text that it found.

The relation is `Evaluator.fronted`: equal states, and one text in front of all that has been
written by the other run. It holds between the starts of the two runs, and every write keeps it.

Main statement: `Renderer.run_appends`.
-/

namespace Stencil

variable {σ ν ε : Type}

/-- A run beside itself, with `front` before all that the second one has written. -/
def Evaluator.fronted (ev : Evaluator σ ν ε) (front : Text) : Coupling ev ev where
  states _ a b := a = b
  texts t u := t = front ++ u
  onEvaluate := by
    rintro k a _ e rfl
    exact ⟨rfl, rfl⟩
  onCondition := by
    rintro k a _ e rfl
    exact ⟨rfl, rfl⟩
  onItems := by
    rintro k a _ v rfl
    exact ⟨rfl, rfl⟩
  onExecute := by
    rintro k a _ t rfl
    exact ⟨rfl, rfl⟩
  onBind := by
    rintro k a _ n v rfl
    rfl
  onPush := by
    rintro k a _ rfl
    rfl
  onPop := by
    rintro k a _ rfl
    rfl

/-- Statements are alike at every level, since the states are equal. -/
theorem Evaluator.execute_fronted (ev : Evaluator σ ν ε) (front : Text) (k : Nat) (t : Text) :
    (ev.fronted front).Alike k (Session.execute ev t) (Session.execute ev t) := by
  refine Coupling.execute_alike_of ?_
  rintro a _ rfl
  exact ⟨rfl, rfl⟩

namespace Renderer

/-- A run writes what it would write to an empty buffer, after what is there. -/
theorem run_eq_runFresh (r : Renderer σ ν ε) (procedure : Procedure) (margin : Text) (state : σ)
    (out : Buffer) :
    let fresh := r.runFresh procedure margin state
    r.run procedure margin ⟨state, out⟩
      = (fresh.1, ⟨fresh.2.state, out.write fresh.2.out.contents⟩) := by
  intro fresh
  have halike : (r.evaluator.fronted out.contents).Alike 0 (r.run procedure margin)
      (r.run procedure margin) := by
    refine Coupling.run_alike r r rfl rfl rfl (fun _ => rfl) ?_ procedure margin
      fun op _ => Coupling.declares_of (r.evaluator.execute_fronted out.contents 0) op
    rintro _ u t rfl
    exact List.append_assoc out.contents u t
  have hempty : out.contents = out.contents ++ Buffer.empty.contents := (List.append_nil _).symm
  obtain ⟨hresult, hstate, htexts⟩ := halike ⟨state, out⟩ ⟨state, .empty⟩ ⟨rfl, hempty⟩
  have hout : (r.run procedure margin ⟨state, out⟩).2.out = out.write fresh.2.out.contents := by
    apply Buffer.ext_contents
    rw [Buffer.contents_write]
    exact htexts
  refine Prod.ext hresult ?_
  show (⟨_, _⟩ : Session σ) = _
  rw [hstate, hout]
  rfl

/-- Rendering only appends, and never looks at the buffer. A run from a buffer that holds something
comes to the result that the run from an empty buffer comes to, makes the same requests and leaves
the same state, whether it succeeds or fails; and it leaves in the buffer what was there, followed
by what the other run leaves. -/
theorem run_appends (limits : Limits) (ev : Evaluator σ ν ε) (library : Library)
    (procedure : Procedure) (margin : Text) (state : σ) (out : Buffer) :
    let r := ofLimits limits ev library
    let fresh := r.runFresh procedure margin state
    let ran := r.run procedure margin ⟨state, out⟩
    let recording := ofLimits limits ev.recording library
    let freshRecorded := recording.runFresh procedure margin (state, [])
    let recorded := recording.run procedure margin ⟨(state, []), out⟩
    (ran.1 = fresh.1 ∧ ran.2.state = fresh.2.state ∧
        ran.2.out.contents = out.contents ++ fresh.2.out.contents) ∧
      recorded.1 = ran.1 ∧ recorded.2.state.1 = ran.2.state ∧
      recorded.2.state.2 = freshRecorded.2.state.2 := by
  intro r fresh ran recording freshRecorded recorded
  have hran : ran = _ := r.run_eq_runFresh procedure margin state out
  have hrecorded : recorded = _ := recording.run_eq_runFresh procedure margin (state, []) out
  obtain ⟨hresult, hstate, -, -⟩ :=
    run_recording limits ev library procedure margin state out
  refine ⟨⟨?_, ?_, ?_⟩, hresult, hstate, ?_⟩
  · rw [hran]
  · rw [hran]
  · rw [hran]
    exact Buffer.contents_write out fresh.2.out.contents
  · rw [hrecorded]

end Renderer

end Stencil
