import Stencil.Proofs.Run.Meter
import Stencil.Proofs.Run.Work

/-!
# Runs under wider limits

A relational logic for two metered runs of the same evaluator, of which the second has limits at
least as wide and all templates of the first. They do the same until the first one is cut short, by
a limit or for want of a template; the second goes on from there, and only adds to what has been
written.

One judgment carries all that is needed of a pair of steps (`Widening.Paired`):

* the outcomes are equal, or the first one was cut short (`Widening.Outdoes`);
* the second step does not take more work than the judgment says, and keeps the meter within its
  limits (`Within`), which also bounds every run, as a run is a pair with itself;
* it ends with so many rounds of the innermost loop begun, which is what the rounds left of a loop
  are compared with.

The rules follow the definitions of the running modules, up to loops (`loop_paired`). Where the
first run is cut short the second one goes on alone; it is then paired with itself (`Paired.stop`).
-/

namespace Stencil

open Session

variable {σ ν ε α β : Type}

/-- Failures for want of rounds, of call levels or of a template. -/
def RenderError.isShortage : RenderError ε → Bool
  | loopLimit _ | callDepth _ | unknownTemplate _ => true
  | _ => false

/-! ## What a step does to the meter -/

/-- From `s` to `t` text is only added, at most `n` requests and operations are counted, no call is
left open, and no more rounds and calls than the limits allow for are noted. -/
structure Within (limits : Limits) (n : Nat) (s t : Session (σ × Meter)) : Prop where
  written : s.out.contents <+: t.out.contents
  work : t.meter.work ≤ s.meter.work + n
  calls : t.meter.calls = s.meter.calls
  round : s.meter.round ≤ t.meter.round
  rounds_le : s.meter.rounds ≤ t.meter.rounds
  /-- A round of the innermost loop is noted when it begins, before the loop is over. -/
  rounds : t.meter.rounds ≤ max (max s.meter.rounds limits.loopLimit) t.meter.round
  noted : t.meter.round ≤ max s.meter.round t.meter.rounds
  deepest_le : s.meter.deepest ≤ t.meter.deepest
  deepest : t.meter.deepest ≤ max s.meter.deepest limits.maxCallDepth

namespace Within

variable {limits : Limits} {n m : Nat} {s t u : Session (σ × Meter)}

/-- Neither rounds nor calls are noted. -/
theorem of_eq (hwritten : s.out.contents <+: t.out.contents)
    (hwork : t.meter.work ≤ s.meter.work + n) (hcalls : t.meter.calls = s.meter.calls)
    (hround : t.meter.round = s.meter.round) (hrounds : t.meter.rounds = s.meter.rounds)
    (hdeepest : t.meter.deepest = s.meter.deepest) : Within limits n s t := by
  refine ⟨hwritten, hwork, hcalls, ?_, ?_, ?_, ?_, ?_, ?_⟩ <;> omega

theorem refl (s : Session (σ × Meter)) : Within limits 0 s s :=
  of_eq (List.prefix_refl _) (Nat.le_refl _) rfl rfl rfl rfl

theorem trans (h : Within limits n s t) (h' : Within limits m t u) :
    Within limits (n + m) s u where
  written := h.written.trans h'.written
  work := by have := h.work; have := h'.work; omega
  calls := h'.calls.trans h.calls
  round := Nat.le_trans h.round h'.round
  rounds_le := Nat.le_trans h.rounds_le h'.rounds_le
  rounds := by have := h.rounds; have := h'.rounds; have := h'.round; omega
  noted := by have := h.noted; have := h'.noted; have := h'.rounds_le; omega
  deepest_le := Nat.le_trans h.deepest_le h'.deepest_le
  deepest := by have := h.deepest; have := h'.deepest; omega

theorem weaken (h : Within limits n s t) (hn : n ≤ m) : Within limits m s t :=
  { h with work := by have := h.work; omega }

/-- A change of the state of the evaluator that is counted as a request. -/
theorem request (limits : Limits) (s : Session (σ × Meter)) (state : σ) :
    Within limits 1 s { s with state := (state, s.meter.request) } :=
  of_eq (List.prefix_refl _) (Nat.le_of_eq s.meter.work_request) rfl rfl rfl rfl

/-- Writing a text. -/
theorem write (limits : Limits) (s : Session (σ × Meter)) (text : Text) :
    Within limits 0 s (s.write text) := by
  refine of_eq ?_ (Nat.le_refl _) rfl rfl rfl rfl
  rw [Session.write, Buffer.contents_write]
  exact List.prefix_append _ _

theorem operation (limits : Limits) (s : Session (σ × Meter)) :
    Within limits 1 s (s.setMeter .operation) :=
  of_eq (List.prefix_refl _) (Nat.le_of_eq s.meter.work_operation) rfl rfl rfl rfl

theorem beginRound (limits : Limits) (s : Session (σ × Meter)) :
    Within limits 0 s (s.setMeter .beginRound) where
  written := List.prefix_refl _
  work := Nat.le_refl _
  calls := rfl
  round := Nat.le_succ _
  rounds_le := Nat.le_max_left _ _
  rounds := Nat.max_le_of_le_of_le (Nat.le_trans (Nat.le_max_left _ _) (Nat.le_max_left _ _))
    (Nat.le_max_right _ _)
  noted := Nat.le_trans (Nat.le_max_right _ _) (Nat.le_max_right _ _)
  deepest_le := Nat.le_refl _
  deepest := Nat.le_max_left _ _

/-- A call is let through where the limit allows for it. -/
theorem noteCall (h : s.meter.calls < limits.maxCallDepth) :
    Within limits 0 s (s.setMeter .noteCall) where
  written := List.prefix_refl _
  work := Nat.le_refl _
  calls := rfl
  round := Nat.le_refl _
  rounds_le := Nat.le_refl _
  rounds := by rw [Nat.max_assoc]; exact Nat.le_max_left _ _
  noted := Nat.le_max_left _ _
  deepest_le := Nat.le_max_left _ _
  deepest := Nat.max_le_of_le_of_le (Nat.le_max_left _ _) (Nat.le_trans h (Nat.le_max_right _ _))

/-- A loop that has ended within the limit. -/
theorem endLoop (h : Within limits n (s.setMeter .beginLoop) t)
    (hround : t.meter.round ≤ limits.loopLimit) :
    Within limits n s (t.setMeter (.endLoop s.meter.round)) where
  written := h.written
  work := h.work
  calls := h.calls
  round := Nat.le_refl _
  rounds_le := h.rounds_le
  rounds := by
    have hrounds : t.meter.rounds ≤ max (max s.meter.rounds limits.loopLimit) t.meter.round :=
      h.rounds
    show t.meter.rounds ≤ max (max s.meter.rounds limits.loopLimit) s.meter.round
    omega
  noted := Nat.le_max_left _ _
  deepest_le := h.deepest_le
  deepest := h.deepest

/-- A called template that has been left. -/
theorem leave (h : Within limits n (s.setMeter .enter) t) :
    Within limits n s (t.setMeter .leave) where
  written := h.written
  work := h.work
  calls := by
    show t.meter.calls - 1 = s.meter.calls
    rw [h.calls]
    rfl
  round := h.round
  rounds_le := h.rounds_le
  rounds := h.rounds
  noted := h.noted
  deepest_le := h.deepest_le
  deepest := h.deepest

end Within

/-- Runs `f` on a changed session, and changes the session that it ends with. -/
def Session.between (before : Session σ → Session σ) (after : Session σ → Session σ → Session σ)
    (f : Session σ → Outcome σ ε α) (s : Session σ) : Outcome σ ε α :=
  ((f (before s)).1, after s (f (before s)).2)

/-- A scope of a metered run, with the requests that begin and end it. -/
theorem inScope_metered (ev : Evaluator σ ν ε)
    (f : Session (σ × Meter) → Outcome (σ × Meter) ε α) :
    inScope ev.metered f =
      between (fun s => { s with state := (ev.push s.state.1, s.meter.request) })
        (fun _ t => { t with state := (ev.pop t.state.1, t.meter.request) }) f :=
  rfl

/-- A change of the session that leaves what is written, and what has been noted. -/
structure Retains (s t : Session (σ × Meter)) : Prop where
  out : t.out = s.out
  rounds : s.meter.rounds ≤ t.meter.rounds
  deepest : s.meter.deepest ≤ t.meter.deepest

/-- A round of a loop: `body`, then `rest` if that did not end the loop. -/
def Session.loopRound (body rest : Session σ → Outcome σ ε Flow) (s : Session σ) :
    Outcome σ ε Flow :=
  andThen (body s) fun flow s =>
    match flow.ofBody with
    | some flow => (.ok flow, s)
    | none => rest s

section LoopRound

variable {limit left : Nat} {test : Session σ → Outcome σ ε Bool}
  {body : Session σ → Outcome σ ε Flow} {step : Session σ → Outcome σ ε Unit}

theorem repeatWhile_zero : repeatWhile limit test body step 0 = fun s =>
    andThen (test s) fun holds s =>
      if holds then (.error (.loopLimit limit), s) else (.ok .through, s) :=
  rfl

theorem repeatWhile_succ : repeatWhile limit test body step (left + 1) = fun s =>
    andThen (test s) fun holds s =>
      if holds then
        loopRound body (fun s => andThen (step s) fun _ => repeatWhile limit test body step left) s
      else (.ok .through, s) :=
  rfl

theorem forEach_nil {body : ν → Session σ → Outcome σ ε Flow} :
    forEach limit body left [] = fun s => (.ok .through, s) := by
  cases left <;> rfl

theorem forEach_zero {body : ν → Session σ → Outcome σ ε Flow} {v : ν} {vs : List ν} :
    forEach limit body 0 (v :: vs) = fun s => (.error (.loopLimit limit), s) :=
  rfl

theorem forEach_cons {body : ν → Session σ → Outcome σ ε Flow} {v : ν} {vs : List ν} :
    forEach limit body (left + 1) (v :: vs) = loopRound (body v) (forEach limit body left vs) :=
  rfl

end LoopRound

/-! ## Pairs of runs -/

/-- Two ways of running with the same evaluator, the second with limits at least as wide and at
least the templates of the first. -/
structure Widening where
  limits : Limits
  limits' : Limits
  library : Library
  library' : Library
  loopLimit : limits.loopLimit ≤ limits'.loopLimit
  maxCallDepth : limits.maxCallDepth ≤ limits'.maxCallDepth
  templates : ∀ name template, library.get? name = some template →
    library'.get? name = some template

namespace Widening

/-- The same limits and templates twice. -/
def refl (limits : Limits) (library : Library) : Widening :=
  ⟨limits, limits, library, library, Nat.le_refl _, Nat.le_refl _, fun _ _ h => h⟩

variable (W : Widening)

/-- The second way of running beside itself. -/
def same : Widening := refl W.limits' W.library'

/-- The first way of running. -/
def narrow (ev : Evaluator σ ν ε) : Renderer σ ν ε := .ofLimits W.limits ev W.library

/-- The second way of running. -/
def wide (ev : Evaluator σ ν ε) : Renderer σ ν ε := .ofLimits W.limits' ev W.library'

/-- The first run was cut short at `s`, where the second has gone on to `t`. If the templates are
the same, it was a limit of the first run that the second has gone beyond. -/
structure CutShort (error : RenderError ε) (s t : Session (σ × Meter)) : Prop where
  shortage : error.isShortage
  written : s.out.contents <+: t.out.contents
  exceeds : W.library' = W.library →
    W.limits.loopLimit < t.meter.rounds ∨ W.limits.maxCallDepth < t.meter.deepest

/-- Both outcomes are the same, or the first run was cut short. -/
def Outdoes (x y : Outcome (σ × Meter) ε α) : Prop :=
  y = x ∨ ∃ error s, x = (.error error, s) ∧ W.CutShort error s y.2

/-- A step of either run, begun where `calls` calls are open and the innermost loop is in its round
`round`. The second step takes at most `n` units of work, and for the round that it ends in `ends`
holds. -/
def Paired (calls round n : Nat) (ends : Nat → Prop)
    (f f' : Session (σ × Meter) → Outcome (σ × Meter) ε α) : Prop :=
  ∀ s, s.meter.calls = calls → s.meter.round = round →
    W.Outdoes (f s) (f' s) ∧ Within W.limits' n s (f' s).2 ∧ ends (f' s).2.meter.round

/-- A step that leaves the innermost loop in the same round. -/
def Steps (calls n : Nat) (f f' : Session (σ × Meter) → Outcome (σ × Meter) ε α) : Prop :=
  ∀ round, W.Paired calls round n (· = round) f f'

variable {W} {calls calls' round round' n m : Nat} {ends ends' : Nat → Prop}
  {f f' : Session (σ × Meter) → Outcome (σ × Meter) ε α}
  {g g' : α → Session (σ × Meter) → Outcome (σ × Meter) ε β}
  {s t u : Session (σ × Meter)} {error : RenderError ε}

theorem CutShort.trans (h : W.CutShort error s t) (h' : Within W.limits' n t u) :
    W.CutShort error s u where
  shortage := h.shortage
  written := h.written.trans h'.written
  exceeds hlibrary := by
    have := h'.rounds_le
    have := h'.deepest_le
    have := h.exceeds hlibrary
    omega

namespace Paired

theorem weaken (h : W.Paired calls round n ends f f') (hn : n ≤ m) (hends : ∀ i, ends i → ends' i) :
    W.Paired calls round m ends' f f' := by
  intro s hcalls hround
  obtain ⟨houtdoes, hwithin, hend⟩ := h s hcalls hround
  exact ⟨houtdoes, hwithin.weaken hn, hends _ hend⟩

/-- A step does not go back to a round before. -/
theorem not_back (h : W.Paired calls round n ends f f') :
    W.Paired calls round n (fun i => round ≤ i ∧ ends i) f f' := by
  intro s hcalls hround
  obtain ⟨houtdoes, hwithin, hend⟩ := h s hcalls hround
  exact ⟨houtdoes, hwithin, hround ▸ hwithin.round, hend⟩

/-- What is said of the second step is also said of it beside itself. -/
theorem alone (h : W.Paired calls round n ends f f') : W.same.Paired calls round n ends f' f' := by
  intro s hcalls hround
  exact ⟨.inl rfl, (h s hcalls hround).2⟩

/-- A step that is the same in both runs. -/
theorem of_within (h : ∀ s, s.meter.calls = calls → s.meter.round = round →
    Within W.limits' n s (f s).2 ∧ ends (f s).2.meter.round) :
    W.Paired calls round n ends f f :=
  fun s hcalls hround => ⟨.inl rfl, h s hcalls hround⟩

/-- Nothing is done. -/
theorem result (result : Except (RenderError ε) α) (hend : ends round) :
    W.Paired calls round n ends (fun s : Session (σ × Meter) => (result, s))
      (fun s => (result, s)) := by
  refine .of_within fun s _ hround => ⟨(Within.refl s).weaken (Nat.zero_le n), ?_⟩
  show ends s.meter.round
  rw [hround]
  exact hend

/-- The first run is cut short before a step that the second run takes. -/
theorem stop (herror : error.isShortage) (h : W.same.Paired calls round n ends f' f')
    (hexceeds : ∀ s, s.meter.calls = calls → s.meter.round = round → W.library' = W.library →
      W.limits.loopLimit < (f' s).2.meter.rounds ∨
        W.limits.maxCallDepth < (f' s).2.meter.deepest) :
    W.Paired calls round n ends (fun s => (.error error, s)) f' := by
  intro s hcalls hround
  obtain ⟨-, hwithin, hend⟩ := h s hcalls hround
  exact ⟨.inr ⟨error, s, rfl, herror, hwithin.written, hexceeds s hcalls hround⟩, hwithin, hend⟩

/-- Steps one after the other. -/
theorem andThen (hf : W.Paired calls round n ends f f')
    (hg : ∀ a i, ends i → W.Paired calls i m ends' (g a) (g' a)) (hends : ∀ i, ends i → ends' i) :
    W.Paired calls round (n + m) ends' (fun s => Session.andThen (f s) g)
      (fun s => Session.andThen (f' s) g') := by
  intro s hcalls hround
  obtain ⟨houtdoes, hwithin, hend⟩ := hf s hcalls hround
  show W.Outdoes (Session.andThen (f s) g) (Session.andThen (f' s) g') ∧
    Within W.limits' (n + m) s (Session.andThen (f' s) g').2 ∧
    ends' (Session.andThen (f' s) g').2.meter.round
  rcases hy : f' s with ⟨result', t⟩
  rw [hy] at houtdoes hwithin hend
  cases result' with
  | error error' =>
    -- The second run has failed, so it does nothing more.
    refine ⟨?_, hwithin.weaken (Nat.le_add_right n m), hends _ hend⟩
    rcases houtdoes with hx | ⟨error, u, hx, hcut⟩
    · rw [← hx]
      exact .inl rfl
    · rw [hx]
      exact .inr ⟨error, u, rfl, hcut⟩
  | ok a =>
    obtain ⟨houtdoes', hwithin', hend'⟩ := hg a _ hend t (hwithin.calls.trans hcalls) rfl
    refine ⟨?_, hwithin.trans hwithin', hend'⟩
    rcases houtdoes with hx | ⟨error, u, hx, hcut⟩
    · rw [← hx]
      exact houtdoes'
    · rw [hx]
      exact .inr ⟨error, u, rfl, hcut.trans hwithin'⟩

/-- A change of the session before a step. -/
theorem before {h : Session (σ × Meter) → Session (σ × Meter)}
    (hh : ∀ s, s.meter.calls = calls → s.meter.round = round →
      Within W.limits' m s (h s) ∧ (h s).meter.round = round')
    (hf : W.Paired calls round' n ends f f') :
    W.Paired calls round (m + n) ends (fun s => f (h s)) (fun s => f' (h s)) := by
  intro s hcalls hround
  obtain ⟨hwithin, hround'⟩ := hh s hcalls hround
  obtain ⟨houtdoes, hwithin', hend⟩ := hf (h s) (hwithin.calls.trans hcalls) hround'
  exact ⟨houtdoes, hwithin.trans hwithin', hend⟩

/-- A step in between two changes of the session. -/
theorem between {before : Session (σ × Meter) → Session (σ × Meter)}
    {after : Session (σ × Meter) → Session (σ × Meter) → Session (σ × Meter)}
    (hf : W.Paired calls' round' n ends f f')
    (hbefore : ∀ s, s.meter.calls = calls → s.meter.round = round →
      (before s).meter.calls = calls' ∧ (before s).meter.round = round')
    (hretains : ∀ s t, Retains t (after s t))
    (hafter : ∀ s t, s.meter.calls = calls → s.meter.round = round →
      Within W.limits' n (before s) t → ends t.meter.round →
      Within W.limits' m s (after s t) ∧ ends' (after s t).meter.round) :
    W.Paired calls round m ends' (Session.between before after f)
      (Session.between before after f') := by
  intro s hcalls hround
  obtain ⟨hcalls', hround'⟩ := hbefore s hcalls hround
  obtain ⟨houtdoes, hwithin, hend⟩ := hf (before s) hcalls' hround'
  refine ⟨?_, hafter s _ hcalls hround hwithin hend⟩
  unfold Session.between
  rcases houtdoes with heq | ⟨error, t, hx, hcut⟩
  · rw [heq]
    exact .inl rfl
  · rw [hx]
    have hfirst := hretains s t
    have hsecond := hretains s (f' (before s)).2
    refine .inr ⟨error, _, rfl, hcut.shortage, ?_, fun hlibrary => ?_⟩
    · rw [hfirst.out, hsecond.out]
      exact hcut.written
    · exact (hcut.exceeds hlibrary).imp (fun h => Nat.lt_of_lt_of_le h hsecond.rounds)
        fun h => Nat.lt_of_lt_of_le h hsecond.deepest

/-- A scope around a step takes two requests. -/
theorem inScope (ev : Evaluator σ ν ε) (hf : W.Paired calls round n ends f f') :
    W.Paired calls round (n + 2) ends (Session.inScope ev.metered f)
      (Session.inScope ev.metered f') := by
  rw [inScope_metered, inScope_metered]
  refine hf.between (fun s hcalls hround => ⟨hcalls, hround⟩)
    (fun s t => ⟨rfl, Nat.le_refl _, Nat.le_refl _⟩) fun s t _ _ hwithin hend => ⟨?_, hend⟩
  have hpush := Within.request W.limits' s (ev.push s.state.1)
  have hpop := Within.request W.limits' t (ev.pop t.state.1)
  exact ((hpush.trans hwithin).trans hpop).weaken (by omega)

end Paired

namespace Steps

theorem weaken (h : W.Steps calls n f f') (hn : n ≤ m) : W.Steps calls m f f' :=
  fun round => (h round).weaken hn fun _ hi => hi

theorem alone (h : W.Steps calls n f f') : W.same.Steps calls n f' f' :=
  fun round => (h round).alone

/-- A step that is the same in both runs. -/
theorem of_within (h : ∀ s, Within W.limits' n s (f s).2 ∧ (f s).2.meter.round = s.meter.round) :
    W.Steps calls n f f :=
  fun _ => .of_within fun s _ hround => ⟨(h s).1, (h s).2.trans hround⟩

theorem result (result : Except (RenderError ε) α) :
    W.Steps calls n (fun s : Session (σ × Meter) => (result, s)) (fun s => (result, s)) :=
  fun _ => .result result rfl

theorem andThen (hf : W.Steps calls n f f') (hg : ∀ a, W.Steps calls m (g a) (g' a)) :
    W.Steps calls (n + m) (fun s => Session.andThen (f s) g)
      (fun s => Session.andThen (f' s) g') := by
  intro round
  refine (hf round).andThen (fun a i hi => ?_) fun _ hi => hi
  rw [hi]
  exact hg a round

theorem inScope (ev : Evaluator σ ν ε) (hf : W.Steps calls n f f') :
    W.Steps calls (n + 2) (Session.inScope ev.metered f) (Session.inScope ev.metered f') :=
  fun round => (hf round).inScope ev

end Steps

/-! ## Requests -/

/-- A session makes of an answer what the evaluator made of its state. -/
theorem within_reply_of {limits : Limits} {e : Text} {x : Except ε α × σ × Meter}
    (h : Within limits n s { s with state := x.2 } ∧ x.2.2.round = s.meter.round) :
    Within limits n s (s.reply e x).2 ∧ (s.reply e x).2.meter.round = s.meter.round := by
  obtain ⟨result, state⟩ := x
  cases result with
  | ok a => exact h
  | error error => exact h

theorem within_reply {limits : Limits} {e : Text} {x : Except ε α × σ × Meter}
    (h : x.2.2 = s.meter.request) :
    Within limits 1 s (s.reply e x).2 ∧ (s.reply e x).2.meter.round = s.meter.round := by
  obtain ⟨result, state, m⟩ := x
  obtain rfl : m = s.meter.request := h
  exact within_reply_of ⟨.request limits s state, rfl⟩

section Requests

variable (ev : Evaluator σ ν ε)

theorem evaluate_steps (e : Text) :
    W.Steps calls 1 (evaluate ev.metered e) (evaluate ev.metered e) := by
  refine .of_within fun s => ?_
  rw [evaluate_eq_reply]
  exact within_reply rfl

theorem evaluateAll_steps (es : List Text) :
    W.Steps calls es.length (evaluateAll ev.metered es) (evaluateAll ev.metered es) := by
  induction es with
  | nil => exact .result _
  | cons e es ih =>
    have hall := (evaluate_steps ev e).andThen fun v => ih.andThen (m := 0) fun vs =>
      .result (.ok (v :: vs))
    exact hall.weaken (by rw [List.length_cons]; omega)

/-- A condition takes one request or two, according to whether the evaluator has a way of its own to
tell whether it holds. -/
theorem within_condition (limits : Limits) (e : Text) (s : Session (σ × Meter)) :
    let x := ev.metered.condition e s.state
    Within limits 2 s { s with state := x.2 } ∧ x.2.2.round = s.meter.round := by
  intro x
  cases hown : ev.condition? with
  | some own =>
    have hown' : ev.metered.condition? =
        some fun e s => ((own e s.1).1, (own e s.1).2, s.2.request) :=
      congrArg (Option.map _) hown
    rw [show x = _ from Evaluator.condition_of_own hown']
    exact ⟨(Within.request limits s _).weaken (by decide), rfl⟩
  | none =>
    have hown' : ev.metered.condition? = none := congrArg (Option.map _) hown
    rcases he : ev.evaluate e s.state.1 with ⟨error | v, state⟩
    · have he' : ev.metered.evaluate e s.state = (.error error, state, s.meter.request) :=
        congrArg (fun x => (x.1, x.2, s.meter.request)) he
      rw [show x = _ from Evaluator.condition_of_error hown' he']
      exact ⟨(Within.request limits s state).weaken (by decide), rfl⟩
    · have he' : ev.metered.evaluate e s.state = (.ok v, state, s.meter.request) :=
        congrArg (fun x => (x.1, x.2, s.meter.request)) he
      rw [show x = _ from Evaluator.condition_of_ok hown' he']
      exact ⟨(Within.request limits s state).trans (.request limits _ _), rfl⟩

theorem test_steps (e : Text) : W.Steps calls 2 (test ev.metered e) (test ev.metered e) := by
  rw [funext (test_eq_reply ev.metered e)]
  by_cases he : e.isEmpty
  · simp only [if_pos he]
    exact .result _
  · simp only [if_neg he]
    exact .of_within fun s => within_reply_of (within_condition ev W.limits' e s)

theorem items_steps (e : Text) : W.Steps calls 2 (items ev.metered e) (items ev.metered e) := by
  rw [funext (items_eq_reply ev.metered e)]
  exact (evaluate_steps ev e).andThen fun v => .of_within fun s => within_reply rfl

theorem execute_steps (t : Text) :
    W.Steps calls 1 (execute ev.metered t) (execute ev.metered t) := by
  rw [funext (execute_eq_reply ev.metered t)]
  by_cases ht : t.isEmpty
  · simp only [if_pos ht]
    exact .result _
  · simp only [if_neg ht]
    exact .of_within fun s => within_reply rfl

theorem bindAll_within (limits : Limits) (bindings : List (Text × ν)) (s : Session (σ × Meter)) :
    Within limits bindings.length s (bindAll ev.metered bindings s) ∧
      (bindAll ev.metered bindings s).meter.round = s.meter.round := by
  induction bindings generalizing s with
  | nil => exact ⟨.refl s, rfl⟩
  | cons binding bindings ih =>
    obtain ⟨hwithin, hround⟩ := ih (s.bind ev.metered binding.1 binding.2)
    have hbind := Within.request limits s (ev.bind binding.1 binding.2 s.state.1)
    exact ⟨(hbind.trans hwithin).weaken (by rw [List.length_cons]; omega), hround⟩

end Requests

/-! ## Loops -/

section Loops

variable {body body' rest rest' : Session (σ × Meter) → Outcome (σ × Meter) ε Flow}

/-- One round of a loop, and the rounds after it. -/
theorem loopRound_paired (hbody : W.Paired calls round n (· = round + 1) body body')
    (hrest : W.Paired calls (round + 1) m (· ≤ W.limits'.loopLimit) rest rest')
    (hround : round < W.limits'.loopLimit) :
    W.Paired calls round (n + m) (fun i => round < i ∧ i ≤ W.limits'.loopLimit)
      (loopRound body rest) (loopRound body' rest') := by
  refine hbody.andThen (fun flow i hi => ?_) fun i hi => by omega
  subst hi
  cases hflow : flow.ofBody with
  | some flow' => exact .result _ (by omega)
  | none => exact hrest.not_back.weaken (Nat.le_refl m) fun i hi => hi

/-- The first run is cut short where its loop has no round left and that of the second run goes
on. -/
theorem loopRound_stop (hbody : W.Paired calls round n (· = round + 1) body body')
    (hrest : W.same.Paired calls (round + 1) m (· ≤ W.limits'.loopLimit) rest' rest')
    (hlimit : round = W.limits.loopLimit) (hround : round < W.limits'.loopLimit) :
    W.Paired calls round (n + m) (· ≤ W.limits'.loopLimit)
      (fun s => (.error (.loopLimit W.limits.loopLimit), s)) (loopRound body' rest') := by
  have halone := loopRound_paired hbody.alone hrest hround
  refine .stop rfl (halone.weaken (Nat.le_refl _) fun i hi => hi.2) fun s hcalls hs _ => .inl ?_
  -- The round that the second run has begun was noted.
  obtain ⟨-, hwithin, hlt, -⟩ := halone s hcalls hs
  have := hwithin.noted
  omega

variable {test : Session (σ × Meter) → Outcome (σ × Meter) ε Bool}
  {step : Session (σ × Meter) → Outcome (σ × Meter) ε Unit} {a b c left left' : Nat}

/-- If the limits differ, what is said of the second loop beside itself has to be known. -/
theorem repeatWhile_paired_of (htest : W.Steps calls a test test)
    (hbody : ∀ round, W.Paired calls round b (· = round + 1) body body')
    (hstep : W.Steps calls c step step)
    (halone : W.limits.loopLimit < W.limits'.loopLimit → ∀ round left',
      round + left' = W.limits'.loopLimit →
      W.same.Paired calls round (a + left' * (b + (c + a))) (· ≤ W.limits'.loopLimit)
        (repeatWhile W.limits'.loopLimit test body' step left')
        (repeatWhile W.limits'.loopLimit test body' step left'))
    (hleft : round + left = W.limits.loopLimit) (hleft' : round + left' = W.limits'.loopLimit) :
    W.Paired calls round (a + left' * (b + (c + a))) (· ≤ W.limits'.loopLimit)
      (repeatWhile W.limits.loopLimit test body step left)
      (repeatWhile W.limits'.loopLimit test body' step left') := by
  have hle := W.loopLimit
  induction left' generalizing round left with
  | zero =>
    -- Neither loop has a round left.
    obtain rfl : left = 0 := by omega
    have hlimit : W.limits.loopLimit = W.limits'.loopLimit := by omega
    rw [hlimit, repeatWhile_zero, repeatWhile_zero, Nat.zero_mul]
    refine (htest round).andThen (fun holds i hi => ?_) fun i hi => by omega
    cases holds <;> exact .result _ (by omega)
  | succ left' ih =>
    have hwork : a + (left' + 1) * (b + (c + a)) = a + (b + (c + (a + left' * (b + (c + a))))) := by
      rw [Nat.succ_mul]
      omega
    rw [hwork, repeatWhile_succ]
    cases left with
    | zero =>
      rw [repeatWhile_zero]
      refine (htest round).andThen (fun holds i hi => ?_) fun i hi => by omega
      subst hi
      cases holds with
      | false => exact .result _ (by omega)
      | true =>
        refine loopRound_stop (hbody i) ?_ (by omega) (by omega)
        refine (hstep.alone (i + 1)).andThen (fun _ j hj => ?_) fun j hj => by omega
        subst hj
        exact halone (by omega) (i + 1) left' (by omega)
    | succ left =>
      rw [repeatWhile_succ]
      refine (htest round).andThen (fun holds i hi => ?_) fun i hi => by omega
      subst hi
      cases holds with
      | false => exact .result _ (by omega)
      | true =>
        refine (loopRound_paired (hbody i) ?_ (by omega)).weaken (Nat.le_refl _) fun j hj => hj.2
        refine (hstep (i + 1)).andThen (fun _ j hj => ?_) fun j hj => by omega
        subst hj
        exact ih (by omega) (by omega)

/-- Loops of which the one has as many rounds left as the other, or less. -/
theorem repeatWhile_paired (htest : W.Steps calls a test test)
    (hbody : ∀ round, W.Paired calls round b (· = round + 1) body body')
    (hstep : W.Steps calls c step step)
    (hleft : round + left = W.limits.loopLimit) (hleft' : round + left' = W.limits'.loopLimit) :
    W.Paired calls round (a + left' * (b + (c + a))) (· ≤ W.limits'.loopLimit)
      (repeatWhile W.limits.loopLimit test body step left)
      (repeatWhile W.limits'.loopLimit test body' step left') := by
  refine repeatWhile_paired_of htest hbody hstep (fun _ round left' hleft' => ?_) hleft hleft'
  -- Beside itself the limits do not differ.
  exact repeatWhile_paired_of htest.alone (fun round => (hbody round).alone) hstep.alone
    (fun hlt => absurd hlt (Nat.lt_irrefl _)) hleft' hleft'

variable {bodyOf bodyOf' : ν → Session (σ × Meter) → Outcome (σ × Meter) ε Flow}

/-- If the limits differ, what is said of the second loop beside itself has to be known. -/
theorem forEach_paired_of
    (hbody : ∀ v round, W.Paired calls round b (· = round + 1) (bodyOf v) (bodyOf' v))
    (halone : W.limits.loopLimit < W.limits'.loopLimit → ∀ vs round left',
      round + left' = W.limits'.loopLimit →
      W.same.Paired calls round (left' * b) (· ≤ W.limits'.loopLimit)
        (forEach W.limits'.loopLimit bodyOf' left' vs)
        (forEach W.limits'.loopLimit bodyOf' left' vs))
    (hleft : round + left = W.limits.loopLimit) (hleft' : round + left' = W.limits'.loopLimit)
    (vs : List ν) :
    W.Paired calls round (left' * b) (· ≤ W.limits'.loopLimit)
      (forEach W.limits.loopLimit bodyOf left vs)
      (forEach W.limits'.loopLimit bodyOf' left' vs) := by
  have hle := W.loopLimit
  induction vs generalizing round left left' with
  | nil =>
    rw [forEach_nil, forEach_nil]
    exact .result _ (by omega)
  | cons v vs ih =>
    cases left' with
    | zero =>
      -- Neither loop has a round left.
      obtain rfl : left = 0 := by omega
      have hlimit : W.limits.loopLimit = W.limits'.loopLimit := by omega
      rw [hlimit, forEach_zero, forEach_zero]
      exact .result _ (by omega)
    | succ left' =>
      have hwork : (left' + 1) * b = b + left' * b := by
        rw [Nat.succ_mul, Nat.add_comm]
      rw [hwork, forEach_cons]
      cases left with
      | zero =>
        rw [forEach_zero]
        exact loopRound_stop (hbody v round) (halone (by omega) vs (round + 1) left' (by omega))
          (by omega) (by omega)
      | succ left =>
        have hrest := ih (by omega : round + 1 + left = W.limits.loopLimit)
          (by omega : round + 1 + left' = W.limits'.loopLimit)
        rw [forEach_cons]
        exact (loopRound_paired (hbody v round) hrest (by omega)).weaken (Nat.le_refl _)
          fun i hi => hi.2

/-- Loops over the same items, of which the one has as many rounds left as the other, or less. -/
theorem forEach_paired
    (hbody : ∀ v round, W.Paired calls round b (· = round + 1) (bodyOf v) (bodyOf' v))
    (hleft : round + left = W.limits.loopLimit) (hleft' : round + left' = W.limits'.loopLimit)
    (vs : List ν) :
    W.Paired calls round (left' * b) (· ≤ W.limits'.loopLimit)
      (forEach W.limits.loopLimit bodyOf left vs)
      (forEach W.limits'.loopLimit bodyOf' left' vs) := by
  refine forEach_paired_of hbody (fun _ vs round left' hleft' => ?_) hleft hleft' vs
  -- Beside itself the limits do not differ.
  exact forEach_paired_of (fun v round => (hbody v round).alone)
    (fun hlt => absurd hlt (Nat.lt_irrefl _)) hleft' hleft' vs

variable (ev : Evaluator σ ν ε)

theorem each_paired (hbody : ∀ round, W.Paired calls round b (· = round + 1) body body')
    (name iterable : Text) :
    W.Paired calls 0 (2 + W.limits'.loopLimit * (1 + b + 2)) (· ≤ W.limits'.loopLimit)
      ((W.narrow ev).metered.each name iterable body)
      ((W.wide ev).metered.each name iterable body') := by
  refine (items_steps ev iterable 0).andThen (fun values i hi => ?_) fun i hi => by omega
  subst hi
  refine forEach_paired (fun v round => ?_) (Nat.zero_add _) (Nat.zero_add _) values
  refine (Paired.before (fun s _ hround => ?_) (hbody round)).inScope ev
  exact ⟨.request W.limits' s (ev.bind name v s.state.1), hround⟩

theorem loopWhile_paired (hbody : ∀ round, W.Paired calls round b (· = round + 1) body body')
    (condition step : Text) :
    W.Paired calls 0 (2 + W.limits'.loopLimit * (b + 2 + (1 + 2))) (· ≤ W.limits'.loopLimit)
      ((W.narrow ev).metered.loopWhile condition step body)
      ((W.wide ev).metered.loopWhile condition step body') :=
  repeatWhile_paired (test_steps ev condition) (fun round => (hbody round).inScope ev)
    (execute_steps ev step) (Nat.zero_add _) (Nat.zero_add _)

/-- A loop that begins has had no round, and it ends within the limit. -/
theorem loop_paired (hbody : ∀ round, W.Paired calls round b (· = round + 1) body body')
    (kind : LoopKind) (header : Text) :
    W.Paired calls 0 (loopWork W.limits'.loopLimit b) (· ≤ W.limits'.loopLimit)
      ((W.narrow ev).metered.loop kind header body)
      ((W.wide ev).metered.loop kind header body') := by
  have hmul : W.limits'.loopLimit * (1 + b + 2) ≤ W.limits'.loopLimit * (b + 5) :=
    Nat.mul_le_mul_left _ (by omega)
  have hbodies : b + 2 + (1 + 2) = b + 5 := by omega
  have heach : ∀ name iterable, W.Paired calls 0 (loopWork W.limits'.loopLimit b)
      (· ≤ W.limits'.loopLimit) ((W.narrow ev).metered.each name iterable body)
      ((W.wide ev).metered.each name iterable body') := fun name iterable =>
    (each_paired ev hbody name iterable).weaken (by rw [loopWork]; omega) fun _ hi => hi
  cases kind with
  | whileLoop =>
    exact (loopWhile_paired ev hbody header []).weaken (by rw [loopWork, hbodies]; omega)
      fun _ hi => hi
  | foreachLoop =>
    unfold Renderer.loop
    rcases Header.each? header with _ | ⟨name, iterable⟩
    · exact .result _ (Nat.zero_le _)
    · exact heach name iterable
  | forLoop =>
    unfold Renderer.loop
    rcases Header.ofText? header with _ | ⟨init, condition, step⟩ | ⟨name, iterable⟩
    · exact .result _ (Nat.zero_le _)
    · have hcounted := (execute_steps ev init 0).andThen (fun _ i hi => by
        subst hi
        exact loopWhile_paired ev hbody condition step) fun i hi => by omega
      exact (hcounted.inScope ev).weaken (by rw [loopWork, hbodies]; omega) fun _ hi => hi
    · exact heach name iterable

end Loops

end Widening

end Stencil
