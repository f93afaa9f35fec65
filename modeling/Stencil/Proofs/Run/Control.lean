import Stencil.Bindings
import Stencil.Proofs.Run.Observed
import Stencil.Proofs.Run.Placement

/-!
# Where jumps go

A run does not tell which jump ended which loop. A traced run keeps a history beside the state of
the evaluator: which jumps are made, which loops take them, where a `return` ends a procedure, and
where called templates are entered and left. It mirrors the running of operations with the same
loops and calls, and comes to what the plain run comes to (`Renderer.run_untraced`).

In a history, what a jump does comes right after the jump (`Control.Ordered`). Nothing else happens
in between, and so no template is entered or left: a loop takes only jumps that were made in the
procedure that it stands in, and a `return` ends the procedure that it stands in.

Main statement: `Renderer.run_control`.
-/

namespace Stencil

open Session

variable {σ ν ε : Type}

/-- What happens in a run that has to do with jumps and calls. -/
inductive Control
  /-- A jump is made. -/
  | jumped (jump : Jump)
  /-- A loop ends because of a jump in its body, or goes on to the next round. -/
  | taken (jump : Jump)
  /-- A procedure ends because of a `return`. -/
  | returned
  /-- A called template is entered. -/
  | entered
  /-- A called template is left. -/
  | left
  deriving DecidableEq, Repr

namespace Control

/-- The jump that is under way right after this: one that was just made, or a `return` that just
ended a loop. -/
def underWay : Control → Option Jump
  | jumped j => some j
  | taken .returns => some .returns
  | taken _ | returned | entered | left => none

/-- The jump is under way after all this, given latest first. -/
def Pending (history : List Control) (j : Jump) : Prop := history.head?.bind underWay = some j

/-- What has been done by a jump is done by one that was under way just before. -/
def Follows (earlier : List Control) : Control → Prop
  | taken j => Pending earlier j
  | returned => Pending earlier .returns
  | jumped _ | entered | left => True

/-- Each time a jump does something it was under way just before. The history is given latest
first. -/
def Ordered : List Control → Prop
  | [] => True
  | latest :: earlier => latest.Follows earlier ∧ Ordered earlier

/-- This jump was made, and since then nothing has happened but that it ended loops, if it is a
`return`. -/
def MadeLast (j : Jump) (history : List Control) : Prop :=
  ∃ loops earlier, history = List.replicate loops (taken .returns) ++ jumped j :: earlier ∧
    (j ≠ .returns → loops = 0)

variable {history later earlier : List Control} {j : Jump}

theorem Ordered.madeLast (h : Ordered history) (hpending : Pending history j) :
    MadeLast j history := by
  induction history with
  | nil => cases hpending
  | cons latest earlier ih =>
    rcases latest with j' | j' | _ | _ | _
    · cases hpending
      exact ⟨0, earlier, rfl, fun _ => rfl⟩
    · -- Only a `return` is still under way when it has ended a loop.
      cases j' with
      | returns =>
        cases hpending
        obtain ⟨loops, front, rfl, -⟩ := ih h.2 h.1
        exact ⟨loops + 1, front, rfl, fun hne => absurd rfl hne⟩
      | breaks => cases hpending
      | continues => cases hpending
    all_goals cases hpending

theorem Ordered.of_append (h : Ordered (later ++ earlier)) : Ordered earlier := by
  induction later with
  | nil => exact h
  | cons latest later ih => exact ih h.2

end Control

/-! ## Traced runs -/

namespace Session

/-- What has happened so far, latest first. -/
def history (s : Session (σ × List Control)) : List Control := s.state.2

/-- The session without the history. -/
def untraced (s : Session (σ × List Control)) : Session σ := ⟨s.state.1, s.out⟩

/-- Adds what happens to the history. -/
def note (event : Control) (s : Session (σ × List Control)) : Session (σ × List Control) :=
  { s with state := (s.state.1, event :: s.state.2) }

/-- Adds that a loop takes the jump that its body ended with. -/
def noteTaken (outcome : Outcome (σ × List Control) ε Flow) : Outcome (σ × List Control) ε Flow :=
  andThen outcome fun flow s =>
    match flow with
    | .through => (.ok .through, s)
    | .jumped j => (.ok (.jumped j), s.note (.taken j))

end Session

/-- The evaluator with a history beside its state, which no request changes. -/
def Evaluator.traced (ev : Evaluator σ ν ε) : Evaluator (σ × List Control) ν ε :=
  ev.observing fun _ history => history

namespace Renderer

/-- The renderer whose evaluator is traced. -/
def traced (r : Renderer σ ν ε) : Renderer (σ × List Control) ν ε :=
  ⟨r.evaluator.traced, r.library, r.loopLimit, r.maxCallDepth⟩

mutual

/-- Runs an operation with a history. -/
def traceOp (r : Renderer σ ν ε) (callee : Callee (σ × List Control) ε) (margin : Text) :
    Op → Session (σ × List Control) → Outcome (σ × List Control) ε Flow
  | .text t indented, s => r.traced.runOp callee margin (.text t indented) s
  | .render e indented, s => r.traced.runOp callee margin (.render e indented) s
  | .declare statement, s => r.traced.runOp callee margin (.declare statement) s
  | .call name arguments indent, s =>
    r.traced.runOp callee margin (.call name arguments indent) s
  | .branch chain, s => traceChain r callee margin chain s
  | .loop kind header body, s =>
    r.traced.loop kind header (fun s => noteTaken (traceAll r callee margin body s)) s
  | .jump j, s => (.ok (.jumped j), s.note (.jumped j))

/-- Runs operations with a history, up to the first that jumps or fails. -/
def traceAll (r : Renderer σ ν ε) (callee : Callee (σ × List Control) ε) (margin : Text) :
    List Op → Session (σ × List Control) → Outcome (σ × List Control) ε Flow
  | [], s => (.ok .through, s)
  | op :: ops, s => andThen (traceOp r callee margin op s) fun flow s =>
      match flow with
      | .through => traceAll r callee margin ops s
      | .jumped j => (.ok (.jumped j), s)

/-- Runs the first arm whose condition holds, with a history. -/
def traceChain (r : Renderer σ ν ε) (callee : Callee (σ × List Control) ε) (margin : Text) :
    Chain Text (List Op) → Session (σ × List Control) → Outcome (σ × List Control) ε Flow
  | .done, s => (.ok .through, s)
  | .otherwise body, s => inScope r.traced.evaluator (traceAll r callee margin body) s
  | .arm condition body rest, s => andThen (test r.traced.evaluator condition s) fun holds s =>
      if holds then inScope r.traced.evaluator (traceAll r callee margin body) s
      else traceChain r callee margin rest s

end

/-- Runs a procedure with a history. -/
def traceProcedure (r : Renderer σ ν ε) (callee : Callee (σ × List Control) ε)
    (procedure : Procedure) (margin : Text) (s : Session (σ × List Control)) :
    Outcome (σ × List Control) ε Unit :=
  andThen (r.traceAll callee margin procedure.ops s) fun flow s =>
    match flow with
    | .through => (.ok (), s)
    | .jumped .returns => (.ok (), s.note .returned)
    | .jumped j => (.error (.strayJump j), s)

/-- What runs called templates with a history when calls may nest `n` levels deeper. -/
def traceCallee (r : Renderer σ ν ε) : Nat → Callee (σ × List Control) ε
  | 0 => none
  | n + 1 => some fun procedure margin s =>
      let (result, s) := r.traceProcedure (r.traceCallee n) procedure margin (s.note .entered)
      (result, s.note .left)

/-- Runs a procedure with a history, with all call levels left. -/
def traceRun (r : Renderer σ ν ε) (procedure : Procedure) (margin : Text)
    (s : Session (σ × List Control)) : Outcome (σ × List Control) ε Unit :=
  r.traceProcedure (r.traceCallee r.maxCallDepth) procedure margin s

/-! ## A traced run beside a plain one -/

/-- What is true of a history stays true at every request. -/
theorem tracks_history (P : List Control → Prop) :
    Request.Tracks (fun (_ : Request ν) (history : List Control) => history) (fun _ => P) :=
  ⟨fun _ _ h => h, fun _ _ h => h, fun _ _ _ _ _ h => h⟩

/-- A run with a history beside one without. -/
def tracing (r : Renderer σ ν ε) : Coupling r.traced.evaluator r.evaluator :=
  r.evaluator.observed (tracks_history fun _ => True)

variable {r : Renderer σ ν ε} {c : Callee (σ × List Control) ε} {d : Callee σ ε} {k : Nat}

/-- What is noted is not seen by the plain run. -/
theorem tracing_note (event : Control) {s : Session (σ × List Control)} {t : Session σ}
    (h : r.tracing.Sessions k s t) : r.tracing.Sessions k (s.note event) t :=
  ⟨⟨h.1.1, trivial⟩, h.2⟩

theorem tracing_noteTaken {f : Session (σ × List Control) → Outcome (σ × List Control) ε Flow}
    {g : Session σ → Outcome σ ε Flow} (h : r.tracing.Alike k f g) :
    r.tracing.Alike k (fun s => noteTaken (f s)) g := by
  intro s t hst
  obtain ⟨hresult, hsessions⟩ := h s t hst
  unfold SameAnswer
  rcases hf : f s with ⟨error | _ | j, u⟩
  all_goals simp only [hf] at hresult hsessions ⊢
  · exact ⟨hresult, hsessions⟩
  · exact ⟨hresult, hsessions⟩
  · exact ⟨hresult, tracing_note _ hsessions⟩

theorem tracing_steady (h : r.tracing.Callees Eq c d) : r.tracing.Steady c d :=
  ⟨rfl, rfl, rfl, fun _ => rfl, h, fun _ _ t h => congrArg (· ++ t) h⟩

theorem tracing_runOp (h : r.tracing.Callees Eq c d) (margin : Text) (op : Op) (k : Nat) :
    r.tracing.Alike k (r.traced.runOp c margin op) (r.runOp d margin op) :=
  Coupling.runOp_alike (tracing_steady h) margin op k
    (Coupling.declares_of (r.evaluator.execute_observed (tracks_history _) k) op)

mutual

theorem traceOp_alike (h : r.tracing.Callees Eq c d) (margin : Text) :
    ∀ (op : Op) (k : Nat), r.tracing.Alike k (r.traceOp c margin op) (r.runOp d margin op)
  | .text t indented, k => tracing_runOp h margin (.text t indented) k
  | .render e indented, k => tracing_runOp h margin (.render e indented) k
  | .declare t, k => tracing_runOp h margin (.declare t) k
  | .call name arguments indent, k => tracing_runOp h margin (.call name arguments indent) k
  | .branch chain, k => traceChain_alike h margin chain k
  | .loop kind header body, k => by
      have hlimit : r.traced.loopLimit = r.loopLimit := rfl
      refine Coupling.loop_alike hlimit (fun j => ?_) kind header
      exact tracing_noteTaken (traceAll_alike h margin body (j + 1))
  | .jump j, k => fun _ _ hst => ⟨rfl, tracing_note _ hst⟩

theorem traceAll_alike (h : r.tracing.Callees Eq c d) (margin : Text) :
    ∀ (ops : List Op) (k : Nat), r.tracing.Alike k (r.traceAll c margin ops) (r.runAll d margin ops)
  | [], _ => Coupling.result_alike _
  | op :: ops, k => by
      refine Coupling.andThen_alike (traceOp_alike h margin op k) fun flow => ?_
      cases flow with
      | through => exact traceAll_alike h margin ops k
      | jumped j => exact Coupling.result_alike _

theorem traceChain_alike (h : r.tracing.Callees Eq c d) (margin : Text) :
    ∀ (chain : Chain Text (List Op)) (k : Nat),
      r.tracing.Alike k (r.traceChain c margin chain) (r.runChain d margin chain)
  | .done, _ => Coupling.result_alike _
  | .otherwise body, k => Coupling.inScope_alike (traceAll_alike h margin body (k + 1))
  | .arm condition body rest, k => by
      refine Coupling.andThen_alike (Coupling.test_alike condition) fun holds => ?_
      cases holds with
      | true => exact Coupling.inScope_alike (traceAll_alike h margin body (k + 1))
      | false => exact traceChain_alike h margin rest k

end

theorem traceProcedure_alike (h : r.tracing.Callees Eq c d) (procedure : Procedure)
    (margin : Text) (k : Nat) :
    r.tracing.Alike k (r.traceProcedure c procedure margin)
      (r.runProcedure d procedure margin) := by
  refine Coupling.andThen_alike (traceAll_alike h margin procedure.ops k) fun flow => ?_
  rcases flow with _ | _ | _ | _
  · exact Coupling.result_alike _
  · exact Coupling.result_alike _
  · exact Coupling.result_alike _
  · exact fun _ _ hst => ⟨rfl, tracing_note _ hst⟩

theorem traceCallee_alike (n : Nat) : r.tracing.Callees Eq (r.traceCallee n) (r.calleeAt n) := by
  induction n with
  | zero => exact .none
  | succ n ih =>
    refine .some ?_
    rintro p _ rfl k s t hst
    obtain ⟨hresult, hsessions⟩ :=
      traceProcedure_alike ih p.1 p.2 (k + 1) _ _ (tracing_note .entered hst)
    exact ⟨hresult, tracing_note _ hsessions⟩

/-- A traced run comes to what the run without a history comes to. -/
theorem run_untraced (r : Renderer σ ν ε) (procedure : Procedure) (margin : Text)
    (s : Session (σ × List Control)) :
    r.run procedure margin s.untraced =
      ((r.traceRun procedure margin s).1, (r.traceRun procedure margin s).2.untraced) := by
  have halike : r.tracing.Alike 0 (r.traceRun procedure margin) (r.run procedure margin) :=
    traceProcedure_alike (traceCallee_alike r.maxCallDepth) procedure margin 0
  exact Evaluator.eq_of_observed halike s trivial

/-! ## Histories -/

/-- The history is in order. Failures do not matter. -/
def ordering (r : Renderer σ ν ε) : Upkeep r.traced.evaluator where
  state a := Control.Ordered a.2
  failure _ := True
  onEvaluate _ _ h := h
  onCondition a e h :=
    (Evaluator.condition_observed r.evaluator (tracks_history Control.Ordered) (k := 0) h e a.1).2.2
  onItems _ _ h := h
  onExecute _ _ h := h
  onBind _ _ _ h := h
  onPush _ h := h
  onPop _ h := h
  onFailure _ _ := trivial

/-- A jump is under way where operations end with it. -/
abbrev Leaving : Flow → σ × List Control → Prop := Flow.Meets fun j a => Control.Pending a.2 j

/-- A body that ends with a jump has it taken. -/
theorem keeps_noteTaken {f : Session (σ × List Control) → Outcome (σ × List Control) ε Flow}
    (h : r.ordering.Keeps Leaving f) : r.ordering.Keeps
      (Flow.Meets fun j a => a.2.head? = some (Control.taken j)) (fun s => noteTaken (f s)) := by
  refine fun s hs => (h s hs).andThen fun flow t ht hleaving => ?_
  cases flow with
  | through => exact ⟨ht, Upkeep.meets_through⟩
  | jumped j =>
    refine ⟨⟨hleaving j rfl, ht⟩, ?_⟩
    rintro j' ⟨⟩
    rfl

/-- Operations that end with no jump. -/
theorem keeps_leaving_of (hcallee : r.ordering.Callees c) (margin : Text) {op : Op}
    (hop : ∀ j, op.leaves j = false) : r.ordering.Keeps Leaving (r.traced.runOp c margin op) := by
  refine (Upkeep.keeps_runOp hcallee margin op).mono fun flow a hwithin j hj => ?_
  exact absurd (hwithin j hj) (Bool.eq_false_iff.1 (hop j))

mutual

/-- An operation keeps the history in order, and its jump is under way where it ends with one. -/
theorem keeps_traceOp (hcallee : r.ordering.Callees c) (margin : Text) :
    ∀ op : Op, r.ordering.Keeps Leaving (r.traceOp c margin op)
  | .text _ _ => keeps_leaving_of hcallee margin fun _ => rfl
  | .render _ _ => keeps_leaving_of hcallee margin fun _ => rfl
  | .declare _ => keeps_leaving_of hcallee margin fun _ => rfl
  | .call _ _ _ => keeps_leaving_of hcallee margin fun _ => rfl
  | .branch chain => keeps_traceChain hcallee margin chain
  | .loop kind header body => by
    have hbody := keeps_noteTaken (keeps_traceAll hcallee margin body)
    refine (Upkeep.keeps_loop hbody (fun _ _ h => h) kind header).mono fun flow a hmeets j hj => ?_
    obtain ⟨rfl, htaken⟩ := hmeets j hj
    show a.2.head?.bind Control.underWay = some .returns
    rw [htaken]
    rfl
  | .jump j => by
    refine fun s hs => ⟨⟨trivial, hs⟩, ?_⟩
    rintro j' ⟨⟩
    rfl

theorem keeps_traceAll (hcallee : r.ordering.Callees c) (margin : Text) :
    ∀ ops : List Op, r.ordering.Keeps Leaving (r.traceAll c margin ops)
  | [] => fun _ hs => ⟨hs, Upkeep.meets_through⟩
  | op :: ops => fun s hs => by
    refine (keeps_traceOp hcallee margin op s hs).andThen fun flow t ht hleaving => ?_
    cases flow with
    | through => exact keeps_traceAll hcallee margin ops t ht
    | jumped j => exact ⟨ht, hleaving⟩

theorem keeps_traceChain (hcallee : r.ordering.Callees c) (margin : Text) :
    ∀ chain : Chain Text (List Op), r.ordering.Keeps Leaving (r.traceChain c margin chain)
  | .done => fun _ hs => ⟨hs, Upkeep.meets_through⟩
  | .otherwise body => (keeps_traceAll hcallee margin body).inScope fun _ _ h => h
  | .arm condition body rest => fun s hs => by
    refine (Upkeep.sound_test condition s hs).andThen fun holds t ht _ => ?_
    cases holds with
    | true => exact (keeps_traceAll hcallee margin body).inScope (fun _ _ h => h) t ht
    | false => exact keeps_traceChain hcallee margin rest t ht

end

theorem sound_traceProcedure (hcallee : r.ordering.Callees c) (procedure : Procedure)
    (margin : Text) : r.ordering.Sound (r.traceProcedure c procedure margin) := by
  refine fun s hs =>
    (keeps_traceAll hcallee margin procedure.ops s hs).andThen fun flow t ht hleaving => ?_
  cases flow with
  | through => exact ⟨ht, trivial⟩
  | jumped j =>
    cases j with
    | returns => exact ⟨⟨hleaving .returns rfl, ht⟩, trivial⟩
    | breaks => exact ⟨ht, trivial⟩
    | continues => exact ⟨ht, trivial⟩

theorem callees_traceCallee (n : Nat) : r.ordering.Callees (r.traceCallee n) := by
  induction n with
  | zero =>
    rintro run ⟨⟩
  | succ n ih =>
    rintro run ⟨⟩ procedure margin - s hs
    obtain ⟨hordered, hresult⟩ := sound_traceProcedure ih procedure margin (s.note .entered)
      ⟨trivial, hs⟩
    exact ⟨⟨trivial, hordered⟩, hresult⟩

theorem ordered_traceRun (r : Renderer σ ν ε) (procedure : Procedure) (margin : Text) (state : σ)
    (out : Buffer) :
    Control.Ordered (r.traceRun procedure margin ⟨(state, []), out⟩).2.history := by
  have hempty : Control.Ordered [] := trivial
  exact (sound_traceProcedure (callees_traceCallee r.maxCallDepth) procedure margin
    ⟨(state, []), out⟩ hempty).1

/-- Jumps stay in the procedure that they are made in. A run does not fail because of a `break` or a
`continue` outside of loops if none stands there, neither in the procedure that is run nor in those
of the library. In every run, what ends a loop or makes it go on to its next round, and what ends a
procedure before its last operation, is the jump that was made last, with no template entered or
left since; and after a call that did not fail the caller goes on with its next operation. -/
theorem run_control (r : Renderer σ ν ε) (procedure : Procedure) (margin : Text) (s : Session σ) :
    let ran := r.run procedure margin s
    let traced := r.traceRun procedure margin ⟨(s.state, []), s.out⟩
    let history := traced.2.history
    (procedure.placed → r.library.Placed → ∀ j, ran.1 ≠ .error (.strayJump j)) ∧
      ran = (traced.1, traced.2.untraced) ∧
      (∀ later j earlier, history = later ++ .taken j :: earlier → Control.MadeLast j earlier) ∧
      (∀ later earlier, history = later ++ .returned :: earlier →
        Control.MadeLast .returns earlier) ∧
      ∀ callee name arguments indent ops t,
        r.runAll callee margin (.call name arguments indent :: ops) t
          = andThen (r.call callee name arguments indent margin t) fun _ t =>
              r.runAll callee margin ops t := by
  intro ran traced history
  have hordered : Control.Ordered history :=
    r.ordered_traceRun procedure margin s.state s.out
  refine ⟨fun hplaced hlibrary j hj => ?_, ?_, ?_, ?_, ?_⟩
  · obtain ⟨-, hresult⟩ := r.sound_run hplaced hlibrary margin s trivial
    have hfails : (r.run procedure margin s).1 = .error (.strayJump j) := hj
    rw [hfails] at hresult
    exact hresult j rfl
  · exact r.run_untraced procedure margin ⟨(s.state, []), s.out⟩
  · intro later j earlier hhistory
    rw [hhistory] at hordered
    obtain ⟨hfollows, hearlier⟩ := hordered.of_append
    exact hearlier.madeLast hfollows
  · intro later earlier hhistory
    rw [hhistory] at hordered
    obtain ⟨hfollows, hearlier⟩ := hordered.of_append
    exact hearlier.madeLast hfollows
  · intro callee name arguments indent ops t
    simp only [runAll, runOp]
    rcases r.call callee name arguments indent margin t with ⟨error | _, t⟩ <;> rfl

/-- A template that is called in a loop and returns from a loop of its own. -/
theorem run_control_returns :
    let early : List Op :=
      [.loop .foreachLoop "i in [1]".toList [.text ['x'] false, .jump .returns], .text ['y'] false]
    let library : Library := .ofList [(['e'], ⟨[], [], ⟨.plain, early⟩, ⟨.indented, early⟩, []⟩)]
    let caller : Procedure := ⟨.plain, [.loop .foreachLoop "i in [1, 2]".toList
      [.text ['['] false, .call ['e'] [] ⟨false, []⟩, .text [']'] false]]⟩
    let r := ofLimits {} Bindings.evaluator library
    let once : List Control := [.left, .returned, .taken .returns, .jumped .returns, .entered]
    caller.placed ∧ library.Placed ∧
      (∀ j, (r.run caller [] ⟨.empty, .empty⟩).1 ≠ .error (.strayJump j)) ∧
      (r.run caller [] ⟨.empty, .empty⟩).2.out.contents = "[x][x]".toList ∧
      (r.traceRun caller [] ⟨(.empty, []), .empty⟩).2.history = once ++ once ∧
      Control.MadeLast .returns [.taken .returns, .jumped .returns, .entered] := by
  intro early library caller r once
  have hcaller : caller.placed := by decide
  have hlibrary : library.Placed := by
    rintro _ ⟨name, template, mode, htemplate, rfl⟩
    have hget : library.get? name = if name = ['e']
        then some ⟨[], [], ⟨.plain, early⟩, ⟨.indented, early⟩, []⟩ else none :=
      Table.get?_insert .empty ['e'] name _
    rw [hget] at htemplate
    split at htemplate
    · cases htemplate
      cases mode <;> decide
    · cases htemplate
  have hhistory : (r.traceRun caller [] ⟨(.empty, []), .empty⟩).2.history = once ++ once := by
    decide +kernel
  obtain ⟨hstray, -, -, hreturned, -⟩ := run_control r caller [] ⟨.empty, .empty⟩
  refine ⟨hcaller, hlibrary, hstray hcaller hlibrary, by decide +kernel, hhistory, ?_⟩
  exact hreturned (once ++ [.left]) _ hhistory

end Renderer

end Stencil
