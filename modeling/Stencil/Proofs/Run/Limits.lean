import Stencil.Bindings
import Stencil.Proofs.Run.Trace
import Stencil.Proofs.Run.Widening

/-!
# What limits do to runs

Limits cut runs short, and do nothing else. Of two runs, of which the second has limits at least as
wide and at least the templates of the first, the second does all that the first does, and goes on
where that is cut short. With limits, every run is bounded: its work, the rounds of its loops and
the depth of its calls.

Both are read off a pair of metered runs (`Widening.meterRun_steps`), by induction on the levels of
calls that are left, and for each level over the operations. What calls come to at a level is kept
in `Widening.Callees`: what both runs call, and what the second one calls where the first is at its
limit.

Main statements:

* `Renderer.run_widened`: a run under wider limits and with more templates.
* `Renderer.run_bounded`: the bounds, and that a run is cut short only where it would exceed them.
-/

namespace Stencil

open Session

variable {σ ν ε : Type}

/-! ## Calls -/

namespace Renderer

/-- A call as a metered run makes it. -/
def meterCall (r : Renderer σ ν ε) (callee : Callee (σ × Meter) ε) (name : Text)
    (arguments : List Text) (indent : CallIndent) (margin : Text) (s : Session (σ × Meter)) :
    Outcome (σ × Meter) ε Unit :=
  r.metered.call callee name arguments indent margin
    (if r.admits callee name arguments then s.setMeter .noteCall else s)

/-- What is left of a call that has been let through. -/
def admitted (r : Renderer σ ν ε) (run : Procedure → Text → Session σ → Outcome σ ε Unit)
    (template : Template) (arguments : List Text) (indent : CallIndent) (margin : Text)
    (s : Session σ) : Outcome σ ε Unit :=
  andThen (evaluateAll r.evaluator arguments s) fun values =>
    inScope r.evaluator fun s =>
      run (indent.pick margin template).1 (indent.pick margin template).2
        (bindAll r.evaluator (template.parameters.zip values) s)

variable {r : Renderer σ ν ε} {callee : Callee (σ × Meter) ε} {name : Text}
  {arguments : List Text} {template : Template} (indent : CallIndent) (margin : Text)

theorem meterCall_unknown (hname : r.library.get? name = none) :
    r.meterCall callee name arguments indent margin =
      fun s => (.error (.unknownTemplate name), s) := by
  funext s
  simp [meterCall, admits, metered, call, hname]

theorem meterCall_miscounted (hname : r.library.get? name = some template)
    (hcount : template.parameters.length ≠ arguments.length) :
    r.meterCall callee name arguments indent margin = fun s =>
      (.error (.argumentCount name template.parameters.length arguments.length), s) := by
  funext s
  simp [meterCall, admits, metered, call, hname, hcount]

theorem meterCall_none (hname : r.library.get? name = some template)
    (hcount : template.parameters.length = arguments.length) :
    r.meterCall none name arguments indent margin = fun s =>
      (.error (.callDepth r.maxCallDepth), s) := by
  funext s
  simp [meterCall, admits, metered, call, hname, hcount]

theorem meterCall_some {run : Procedure → Text → Session (σ × Meter) → Outcome (σ × Meter) ε Unit}
    (hname : r.library.get? name = some template)
    (hcount : template.parameters.length = arguments.length) :
    r.meterCall (some run) name arguments indent margin = fun s =>
      r.metered.admitted run template arguments indent margin (s.setMeter .noteCall) := by
  funext s
  simp only [meterCall, admits, metered, call, hname, hcount, Option.isSome_some, Option.any_some,
    beq_self_eq_true, Bool.and_self, if_true, ne_eq, not_true_eq_false, if_false, admitted,
    CallIndent.pick]

end Renderer

namespace Widening

variable {W : Widening} {calls n k : Nat} {c c' : Callee (σ × Meter) ε}

/-- Callees for where `calls` calls are open. Both run the same procedures in pairs, with at most
`k` units of work each, unless the one they belong to is at its limit. -/
structure Callees (W : Widening) (calls k : Nat) (c c' : Callee (σ × Meter) ε) : Prop where
  both : ∀ run, c = some run → ∃ run', c' = some run' ∧
    ∀ procedure margin, W.library.Holds procedure →
      W.Steps calls k (run procedure margin) (run' procedure margin)
  alone : ∀ run', c' = some run' → calls < W.limits'.maxCallDepth ∧
    ∀ procedure margin, W.library'.Holds procedure →
      W.same.Steps calls k (run' procedure margin) (run' procedure margin)
  limit : c = none → calls = W.limits.maxCallDepth
  limit' : c' = none → calls = W.limits'.maxCallDepth

variable (ev : Evaluator σ ν ε) {name : Text} {arguments : List Text} {template : Template}
  {run run' : Procedure → Text → Session (σ × Meter) → Outcome (σ × Meter) ε Unit}

theorem admitted_steps (hname : W.library.get? name = some template)
    (hcount : template.parameters.length = arguments.length)
    (hrun : ∀ procedure margin, W.library.Holds procedure →
      W.Steps calls k (run procedure margin) (run' procedure margin))
    (indent : CallIndent) (margin : Text) :
    W.Steps calls (callWork k arguments.length)
      ((W.narrow ev).metered.admitted run template arguments indent margin)
      ((W.wide ev).metered.admitted run' template arguments indent margin) := by
  have hpick := hrun _ (indent.pick margin template).2 (Library.holds_pick hname indent margin)
  have hcall : W.Steps calls (arguments.length + (arguments.length + k + 2))
      ((W.narrow ev).metered.admitted run template arguments indent margin)
      ((W.wide ev).metered.admitted run' template arguments indent margin) := by
    refine (evaluateAll_steps ev arguments).andThen fun values => Steps.inScope ev fun round => ?_
    refine Paired.before (fun s _ hround => ?_) (hpick round)
    obtain ⟨hwithin, hround'⟩ :=
      bindAll_within ev W.limits' (template.parameters.zip values) s
    refine ⟨hwithin.weaken ?_, hround'.trans hround⟩
    rw [List.length_zip, hcount]
    exact Nat.min_le_left _ _
  exact hcall.weaken (by rw [callWork]; omega)

/-- A call that is let through in both runs. -/
theorem meterCall_admitted (hname : W.library.get? name = some template)
    (hcount : template.parameters.length = arguments.length)
    (hcalls : calls < W.limits'.maxCallDepth)
    (hrun : ∀ procedure margin, W.library.Holds procedure →
      W.Steps calls k (run procedure margin) (run' procedure margin))
    (indent : CallIndent) (margin : Text) :
    W.Steps calls (callWork k arguments.length)
      ((W.narrow ev).meterCall (some run) name arguments indent margin)
      ((W.wide ev).meterCall (some run') name arguments indent margin) := by
  rw [Renderer.meterCall_some indent margin hname hcount,
    Renderer.meterCall_some indent margin (W.templates name template hname) hcount]
  intro round
  refine (Paired.before (m := 0) (fun s hs hround => ?_)
    (admitted_steps ev hname hcount hrun indent margin round)).weaken (by omega) fun _ hi => hi
  exact ⟨.noteCall (hs ▸ hcalls), hround⟩

/-- Any call of the second run, beside itself. -/
theorem meterCall_alone (hcallees : W.Callees calls k c c') (name : Text)
    (arguments : List Text) (indent : CallIndent) (margin : Text) :
    W.same.Steps calls (callWork k arguments.length)
      ((W.wide ev).meterCall c' name arguments indent margin)
      ((W.wide ev).meterCall c' name arguments indent margin) := by
  cases hname : (W.wide ev).library.get? name with
  | none =>
    rw [Renderer.meterCall_unknown indent margin hname]
    exact .result _
  | some template =>
    by_cases hcount : template.parameters.length = arguments.length
    · cases hc : c' with
      | none =>
        rw [Renderer.meterCall_none indent margin hname hcount]
        exact .result _
      | some run =>
        obtain ⟨hcalls, hrun⟩ := hcallees.alone run hc
        exact meterCall_admitted (W := W.same) ev hname hcount hcalls hrun indent margin
    · rw [Renderer.meterCall_miscounted indent margin hname hcount]
      exact .result _

/-- A call that is let through is noted. -/
theorem lt_deepest_of_meterCall (hname : W.library'.get? name = some template)
    (hcount : template.parameters.length = arguments.length)
    (hcallees : W.Callees calls k c (some run')) (indent : CallIndent) (margin : Text)
    {s : Session (σ × Meter)} (hs : s.meter.calls = calls) :
    calls < ((W.wide ev).meterCall (some run') name arguments indent margin s).2.meter.deepest := by
  have hsteps := admitted_steps (W := W.same) ev hname hcount (hcallees.alone run' rfl).2 indent
    margin s.meter.round
  obtain ⟨-, hwithin, -⟩ := hsteps (s.setMeter .noteCall) hs rfl
  have hnoted : calls < (s.setMeter .noteCall).meter.deepest := by
    rw [← hs]
    exact Nat.lt_of_lt_of_le (Nat.lt_succ_self _) (Nat.le_max_right _ _)
  rw [Renderer.meterCall_some indent margin hname hcount]
  exact Nat.lt_of_lt_of_le hnoted hwithin.deepest_le

/-- A call is treated alike, or refused by the first run only. -/
theorem meterCall_steps (hcallees : W.Callees calls k c c') (indent : CallIndent) (margin : Text) :
    W.Steps calls (callWork k arguments.length)
      ((W.narrow ev).meterCall c name arguments indent margin)
      ((W.wide ev).meterCall c' name arguments indent margin) := by
  have halone := meterCall_alone ev hcallees name arguments indent margin
  cases hname : W.library.get? name with
  | none =>
    rw [Renderer.meterCall_unknown (r := W.narrow ev) indent margin hname]
    cases hname' : W.library'.get? name with
    | none =>
      rw [Renderer.meterCall_unknown (r := W.wide ev) indent margin hname']
      exact .result _
    | some template =>
      refine fun round => .stop rfl (halone round) fun s _ _ hlibrary => ?_
      rw [hlibrary, hname] at hname'
      cases hname'
  | some template =>
    have hname' := W.templates name template hname
    by_cases hcount : template.parameters.length = arguments.length
    · cases c with
      | none =>
        have hlimit := hcallees.limit rfl
        rw [Renderer.meterCall_none (r := W.narrow ev) indent margin hname hcount]
        cases c' with
        | none =>
          have hdepth : (W.wide ev).maxCallDepth = (W.narrow ev).maxCallDepth :=
            (hcallees.limit' rfl).symm.trans hlimit
          rw [Renderer.meterCall_none (r := W.wide ev) indent margin hname' hcount, hdepth]
          exact .result _
        | some run' =>
          refine fun round => .stop rfl (halone round) fun s hs _ _ => .inr ?_
          rw [← hlimit]
          exact lt_deepest_of_meterCall ev hname' hcount hcallees indent margin hs
      | some run =>
        obtain ⟨run', rfl, hrun⟩ := hcallees.both run rfl
        exact meterCall_admitted ev hname hcount (hcallees.alone run' rfl).1 hrun indent margin
    · rw [Renderer.meterCall_miscounted (r := W.narrow ev) indent margin hname hcount,
        Renderer.meterCall_miscounted (r := W.wide ev) indent margin hname' hcount]
      exact .result _

/-! ## Operations -/

mutual

theorem meterOp_steps (hcallees : W.Callees calls k c c') (margin : Text) : ∀ op : Op,
    W.Steps calls (op.work W.limits'.loopLimit k) ((W.narrow ev).meterOp c margin op)
      ((W.wide ev).meterOp c' margin op)
  | .text t indented => .of_within fun s => ⟨.write W.limits' s _, rfl⟩
  | .render e indented => (evaluate_steps ev e).andThen (m := 0) fun v =>
      .of_within fun s => ⟨.write W.limits' s _, rfl⟩
  | .declare statement => (execute_steps ev statement).andThen (m := 0) fun _ => .result _
  | .call name arguments indent =>
      (meterCall_steps ev hcallees indent margin).andThen (m := 0) fun _ => .result _
  | .branch chain => meterChain_steps hcallees margin chain
  | .loop kind header body => by
      have hbody : ∀ round, W.Paired calls round (Op.allWork W.limits'.loopLimit k body)
          (· = round + 1)
          (fun t => (W.narrow ev).meterAll c margin body (t.setMeter .beginRound))
          (fun t => (W.wide ev).meterAll c' margin body (t.setMeter .beginRound)) := by
        intro round
        refine (Paired.before (m := 0) (fun s _ hround => ?_)
          (meterAll_steps hcallees margin body (round + 1))).weaken (by omega) fun _ hi => hi
        exact ⟨.beginRound W.limits' s, congrArg (· + 1) hround⟩
      intro round
      exact (loop_paired ev hbody kind header).between (fun s hcalls _ => ⟨hcalls, rfl⟩)
        (fun s t => ⟨rfl, Nat.le_refl _, Nat.le_refl _⟩)
        fun s t _ hround hwithin hend => ⟨hwithin.endLoop hend, hround⟩
  | .jump j => .result _

theorem meterAll_steps (hcallees : W.Callees calls k c c') (margin : Text) : ∀ ops : List Op,
    W.Steps calls (Op.allWork W.limits'.loopLimit k ops) ((W.narrow ev).meterAll c margin ops)
      ((W.wide ev).meterAll c' margin ops)
  | [] => .result _
  | op :: ops => by
      have hop : W.Steps calls (1 + op.work W.limits'.loopLimit k)
          (fun s => (W.narrow ev).meterOp c margin op (s.setMeter .operation))
          (fun s => (W.wide ev).meterOp c' margin op (s.setMeter .operation)) := fun round =>
        Paired.before (fun s _ hround => ⟨.operation W.limits' s, hround⟩)
          (meterOp_steps hcallees margin op round)
      refine (hop.andThen (m := Op.allWork W.limits'.loopLimit k ops) fun flow => ?_).weaken
        (by rw [Op.allWork]; omega)
      cases flow with
      | through => exact meterAll_steps hcallees margin ops
      | jumped j => exact .result _

theorem meterChain_steps (hcallees : W.Callees calls k c c') (margin : Text) :
    ∀ chain : Chain Text (List Op),
      W.Steps calls (Op.chainWork W.limits'.loopLimit k chain)
        ((W.narrow ev).meterChain c margin chain) ((W.wide ev).meterChain c' margin chain)
  | .done => .result _
  | .otherwise body => (meterAll_steps hcallees margin body).inScope ev
  | .arm condition body rest => by
      refine (test_steps ev condition).andThen fun holds => ?_
      cases holds with
      | true =>
        exact ((meterAll_steps hcallees margin body).inScope ev).weaken (Nat.le_add_right _ _)
      | false => exact (meterChain_steps hcallees margin rest).weaken (Nat.le_add_left _ _)

end

/-! ## Procedures -/

theorem meterProcedure_steps (hcallees : W.Callees calls k c c') (procedure : Procedure)
    (margin : Text) :
    W.Steps calls (Op.allWork W.limits'.loopLimit k procedure.ops)
      ((W.narrow ev).meterProcedure c procedure margin)
      ((W.wide ev).meterProcedure c' procedure margin) := by
  refine (meterAll_steps ev hcallees margin procedure.ops).andThen (m := 0) fun flow => ?_
  rcases flow with _ | _ | _ | _ <;> exact .result _

/-- A procedure that is entered by a call. -/
theorem entered_steps {levels : Nat} {procedure : Procedure} (hholds : W.library'.Holds procedure)
    (hcallees : W.Callees (calls + 1)
      (workBound W.limits'.loopLimit (Library.largest W.library') 0 levels) c c') (margin : Text) :
    W.Steps calls (workBound W.limits'.loopLimit (Library.largest W.library') 0 (levels + 1))
      (between (setMeter .enter) (fun _ t => t.setMeter .leave)
        ((W.narrow ev).meterProcedure c procedure margin))
      (between (setMeter .enter) (fun _ t => t.setMeter .leave)
        ((W.wide ev).meterProcedure c' procedure margin)) := by
  have hwork := Nat.le_trans
    (procedure.work_le W.limits'.loopLimit (Library.largest W.library') levels)
    (workBound_le_succ (Library.size_le_largest hholds) levels)
  intro round
  refine (((meterProcedure_steps ev hcallees procedure margin).weaken hwork) round).between
    (fun s hcalls hround => ⟨congrArg (· + 1) hcalls, hround⟩)
    (fun s t => ⟨rfl, Nat.le_refl _, Nat.le_refl _⟩)
    fun s t _ _ hwithin hend => ⟨hwithin.leave, hend⟩

theorem holds_of_holds {procedure : Procedure} (h : W.library.Holds procedure) :
    W.library'.Holds procedure := by
  obtain ⟨name, template, mode, htemplate, hprocedure⟩ := h
  exact ⟨name, template, mode, W.templates name template htemplate, hprocedure⟩

/-- What the two runs call where `calls` calls are open. -/
theorem meterCallee_callees {levels levels' : Nat} (W : Widening) (calls : Nat)
    (hlevels : calls + levels = W.limits.maxCallDepth)
    (hlevels' : calls + levels' = W.limits'.maxCallDepth) :
    W.Callees calls (workBound W.limits'.loopLimit (Library.largest W.library') 0 levels')
      ((W.narrow ev).meterCallee levels) ((W.wide ev).meterCallee levels') := by
  induction levels' generalizing W calls levels with
  | zero =>
    have hle := W.maxCallDepth
    obtain rfl : levels = 0 := by omega
    exact ⟨nofun, nofun, fun _ => hlevels, fun _ => hlevels'⟩
  | succ levels' ih =>
    have hsucc : ∀ n, calls + 1 + n = calls + (n + 1) := fun n => by omega
    refine ⟨?_, ?_, ?_, nofun⟩
    · intro run hrun
      cases levels with
      | zero => cases hrun
      | succ levels =>
        cases hrun
        have hcallees := ih W (calls + 1) ((hsucc levels).trans hlevels)
          ((hsucc levels').trans hlevels')
        exact ⟨_, rfl, fun procedure margin hholds =>
          entered_steps ev (holds_of_holds hholds) hcallees margin⟩
    · intro run' hrun'
      cases hrun'
      have hcallees := ih W.same (calls + 1) ((hsucc levels').trans hlevels')
        ((hsucc levels').trans hlevels')
      exact ⟨by omega, fun procedure margin hholds =>
        entered_steps (W := W.same) ev hholds hcallees margin⟩
    · intro hnone
      cases levels with
      | zero => exact hlevels
      | succ levels => cases hnone

/-- A run from the start, with all levels of calls left. -/
theorem meterRun_steps (W : Widening) (procedure : Procedure) (margin : Text) :
    W.Steps 0 (workBound W.limits'.loopLimit (Library.largest W.library') procedure.size
        W.limits'.maxCallDepth)
      ((W.narrow ev).meterRun procedure margin) ((W.wide ev).meterRun procedure margin) := by
  have hcallees := meterCallee_callees ev W 0 (Nat.zero_add _) (Nat.zero_add _)
  exact (meterProcedure_steps ev hcallees procedure margin).weaken
    (procedure.work_le W.limits'.loopLimit (Library.largest W.library') W.limits'.maxCallDepth)

/-- Without a meter: the runs come to the same, or the first one is cut short. -/
theorem run_outdoes (W : Widening) (procedure : Procedure) (margin : Text) (state : σ)
    (out : Buffer) :
    let ran := (W.narrow ev).run procedure margin ⟨state, out⟩
    let wider := (W.wide ev).run procedure margin ⟨state, out⟩
    wider = ran ∨
      ∃ error, ran.1 = .error error ∧ error.isShortage ∧
        ran.2.out.contents <+: wider.2.out.contents := by
  intro ran wider
  have hran : ran = _ := (W.narrow ev).run_unmetered procedure margin ⟨(state, {}), out⟩
  have hwider : wider = _ := (W.wide ev).run_unmetered procedure margin ⟨(state, {}), out⟩
  obtain ⟨houtdoes, -⟩ := meterRun_steps ev W procedure margin 0 ⟨(state, {}), out⟩ rfl rfl
  rw [hran, hwider]
  rcases houtdoes with heq | ⟨error, t, hx, hcut⟩
  · left
    rw [heq]
  · right
    rw [hx]
    exact ⟨error, rfl, hcut.shortage, hcut.written⟩

end Widening

namespace Renderer

/-- Wider limits and more templates change nothing about a run that is not cut short for want of
them, nor about the requests that it makes. Where a run is cut short, what it has written is how the
text of the wider run begins. -/
theorem run_widened (limits limits' : Limits) (hloop : limits.loopLimit ≤ limits'.loopLimit)
    (hdepth : limits.maxCallDepth ≤ limits'.maxCallDepth) (library library' : Library)
    (htemplates : ∀ name template, library.get? name = some template →
      library'.get? name = some template)
    (ev : Evaluator σ ν ε) (procedure : Procedure) (margin : Text) (state : σ) (out : Buffer) :
    let ran := (ofLimits limits ev library).run procedure margin ⟨state, out⟩
    let wider := (ofLimits limits' ev library').run procedure margin ⟨state, out⟩
    let recorded := (ofLimits limits ev.recording library).run procedure margin ⟨(state, []), out⟩
    let recorded' :=
      (ofLimits limits' ev.recording library').run procedure margin ⟨(state, []), out⟩
    ((∀ error, ran.1 = .error error → ¬error.isShortage) → wider = ran ∧ recorded' = recorded) ∧
      ∀ error, ran.1 = .error error → error.isShortage →
        ran.2.out.contents <+: wider.2.out.contents := by
  intro ran wider recorded recorded'
  let W : Widening := ⟨limits, limits', library, library', hloop, hdepth, htemplates⟩
  have houtdoes := W.run_outdoes ev procedure margin state out
  have hrecorded := W.run_outdoes ev.recording procedure margin (state, []) out
  obtain ⟨hresult, -⟩ := run_recording limits ev library procedure margin state out
  constructor
  · intro hnot
    constructor
    · rcases houtdoes with heq | ⟨error, herror, hshortage, -⟩
      · exact heq
      · exact absurd hshortage (hnot error herror)
    · rcases hrecorded with heq | ⟨error, herror, hshortage, -⟩
      · exact heq
      · exact absurd hshortage (hnot error (hresult.symm.trans herror))
  · intro error herror hshortage
    rcases houtdoes with heq | ⟨-, -, -, hwritten⟩
    · have hcontents : wider.2.out.contents = ran.2.out.contents :=
        congrArg (fun ran => ran.2.out.contents) heq
      exact hcontents ▸ List.prefix_refl _
    · exact hwritten

/-- A loop of three rounds, with a limit below that, just that, and above that. -/
theorem run_widened_counted :
    let counted : Procedure :=
      ⟨.plain, [.loop .forLoop "i = 0; i < 3; i++".toList [.render ['i'] false]]⟩
    let ran := fun loopLimit : Nat =>
      (ofLimits { loopLimit } Bindings.evaluator .empty).run counted [] ⟨.empty, .empty⟩
    (ran 2).1 = .error (.loopLimit 2) ∧ (ran 2).2.out.contents = "01".toList ∧
      (ran 2).2.out.contents <+: (ran 3).2.out.contents ∧ (ran 3).1 = .ok () ∧ ran 5 = ran 3 := by
  intro counted ran
  have hspent : (ran 2).1 = .error (.loopLimit 2) := by decide +kernel
  have hwritten : (ran 2).2.out.contents = "01".toList := by decide +kernel
  have hthree : (ran 3).1 = .ok () := by decide +kernel
  obtain ⟨-, hprefix⟩ := run_widened { loopLimit := 2 } { loopLimit := 3 } (by decide) (by decide)
    .empty .empty (fun _ _ h => h) Bindings.evaluator counted [] .empty .empty
  obtain ⟨hsame, -⟩ := run_widened { loopLimit := 3 } { loopLimit := 5 } (by decide) (by decide)
    .empty .empty (fun _ _ h => h) Bindings.evaluator counted [] .empty .empty
  refine ⟨hspent, hwritten, hprefix _ hspent rfl, hthree, (hsame fun error herror => ?_).1⟩
  cases hthree.symm.trans herror

/-- Every run is bounded. It takes at most so much work as is told by the sizes of the procedure and
of the largest one that can be called, and by the limits; no loop runs its body more often, and no
calls nest deeper, than the limits say. They are not stricter than that either: a run that stays
within them when it is given more comes to the same without. -/
theorem run_bounded (limits : Limits) (library : Library) (ev : Evaluator σ ν ε)
    (procedure : Procedure) (margin : Text) (state : σ) (out : Buffer) :
    let metered := fun limits : Limits =>
      (ofLimits limits ev library).meterRun procedure margin ⟨(state, {}), out⟩
    let ran := (ofLimits limits ev library).run procedure margin ⟨state, out⟩
    let meter := (metered limits).2.meter
    ran = ((metered limits).1, (metered limits).2.unmetered) ∧
      meter.rounds ≤ limits.loopLimit ∧ meter.deepest ≤ limits.maxCallDepth ∧
      meter.requests + meter.operations ≤
        workBound limits.loopLimit library.largest procedure.size limits.maxCallDepth ∧
      ∀ limits' : Limits, limits.loopLimit ≤ limits'.loopLimit →
        limits.maxCallDepth ≤ limits'.maxCallDepth →
        (metered limits').2.meter.rounds ≤ limits.loopLimit →
        (metered limits').2.meter.deepest ≤ limits.maxCallDepth →
        metered limits' = metered limits := by
  intro metered ran meter
  obtain ⟨-, hwithin, hround⟩ := (Widening.refl limits library).meterRun_steps ev procedure margin 0
    ⟨(state, {}), out⟩ rfl rfl
  have hrounds : meter.rounds ≤ max (max 0 limits.loopLimit) meter.round := hwithin.rounds
  have hdeepest : meter.deepest ≤ max 0 limits.maxCallDepth := hwithin.deepest
  have hwork : meter.work ≤ 0 + workBound limits.loopLimit library.largest procedure.size
    limits.maxCallDepth := hwithin.work
  refine ⟨?_, ?_, ?_, ?_, ?_⟩
  · exact (ofLimits limits ev library).run_unmetered procedure margin ⟨(state, {}), out⟩
  · have hzero : meter.round = 0 := hround
    omega
  · omega
  · rw [Nat.zero_add] at hwork
    exact hwork
  · intro limits' hloop hdepth hrounds' hdeepest'
    let W : Widening := ⟨limits, limits', library, library, hloop, hdepth, fun _ _ h => h⟩
    obtain ⟨houtdoes, -⟩ := W.meterRun_steps ev procedure margin 0 ⟨(state, {}), out⟩ rfl rfl
    rcases houtdoes with heq | ⟨error, t, -, hcut⟩
    · exact heq
    · -- The wider run has gone beyond a limit of the other.
      rcases hcut.exceeds rfl with hlt | hlt
      · exact absurd hrounds' (Nat.not_le.2 hlt)
      · exact absurd hdeepest' (Nat.not_le.2 hlt)

/-- A loop of three rounds with a call in each, and limits that allow for just that. -/
theorem run_bounded_exact :
    let called : Template :=
      ⟨[], [], ⟨.plain, [.text ['x'] false]⟩, ⟨.indented, [.text ['x'] true]⟩, []⟩
    let library : Library := .ofList [(['a'], called)]
    let procedure : Procedure :=
      ⟨.plain, [.loop .forLoop "i = 0; i < 3; i++".toList [.call ['a'] [] ⟨false, []⟩]]⟩
    let metered := fun limits : Limits =>
      (ofLimits limits Bindings.evaluator library).meterRun procedure [] ⟨(.empty, {}), .empty⟩
    let enough : Limits := { loopLimit := 3, maxCallDepth := 1 }
    (metered {}).1 = .ok () ∧ (metered {}).2.out.contents = "xxx".toList ∧
      (metered {}).2.meter.rounds = 3 ∧ (metered {}).2.meter.deepest = 1 ∧
      metered {} = metered enough := by
  intro called library procedure metered enough
  have hresult : (metered {}).1 = .ok () := by decide +kernel
  have hwritten : (metered {}).2.out.contents = "xxx".toList := by decide +kernel
  have hrounds : (metered {}).2.meter.rounds = 3 := by decide +kernel
  have hdeepest : (metered {}).2.meter.deepest = 1 := by decide +kernel
  obtain ⟨-, -, -, -, hexact⟩ :=
    run_bounded enough library Bindings.evaluator procedure [] .empty .empty
  refine ⟨hresult, hwritten, hrounds, hdeepest, ?_⟩
  exact hexact {} (by decide) (by decide) (Nat.le_of_eq hrounds) (Nat.le_of_eq hdeepest)

end Renderer

end Stencil
