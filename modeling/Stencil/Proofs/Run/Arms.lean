import Stencil.Proofs.Bindings.Padding

/-!
# The arms of a branching

The conditions of a branching are tested in order, up to the first one that holds; the body of its
arm is all that runs. If none holds, the body without a condition runs, if there is one (`Picks`).
What the test of a condition comes to is told by the answers of the evaluator (`Tests`).

All arms after the first one may as well be a branching of their own in the last body. That body
runs in a scope, and so the later conditions are tested and the later bodies run with an empty scope
beneath them, but nothing is declared in it.

Main statement: `Renderer.runOp_branch_ofArms`.
-/

namespace Stencil

open Session

section Picks

variable {σ ν ε β : Type}

/-- What the test of a condition comes to, and the session that it leaves. An empty condition holds
and nothing is asked. An evaluator with a way of its own to tell whether a condition holds is asked
that; any other is asked for the value, and whether that is true. -/
inductive Tests (ev : Evaluator σ ν ε) (e : Text) (s : Session σ) :
    Except (RenderError ε) Bool → Session σ → Prop
  | empty (he : e = []) : Tests ev e s (.ok true) s
  | told {own : Text → σ → Except ε Bool × σ} {holds : Bool} {a : σ} (he : e ≠ [])
      (hown : ev.condition? = some own) (hanswer : own e s.state = (.ok holds, a)) :
      Tests ev e s (.ok holds) { s with state := a }
  | untold {own : Text → σ → Except ε Bool × σ} {error : ε} {a : σ} (he : e ≠ [])
      (hown : ev.condition? = some own) (hanswer : own e s.state = (.error error, a)) :
      Tests ev e s (.error (.eval e error)) { s with state := a }
  | value {v : ν} {holds : Bool} {a a' : σ} (he : e ≠ []) (hown : ev.condition? = none)
      (hvalue : ev.evaluate e s.state = (.ok v, a)) (htruth : ev.isTruthy v a = (holds, a')) :
      Tests ev e s (.ok holds) { s with state := a' }
  | noValue {error : ε} {a : σ} (he : e ≠ []) (hown : ev.condition? = none)
      (hvalue : ev.evaluate e s.state = (.error error, a)) :
      Tests ev e s (.error (.eval e error)) { s with state := a }

theorem tests_iff {ev : Evaluator σ ν ε} {e : Text} {s t : Session σ}
    {result : Except (RenderError ε) Bool} : Tests ev e s result t ↔ test ev e s = (result, t) := by
  rw [test_eq_reply]
  constructor
  · rintro (he | ⟨he, hown, hanswer⟩ | ⟨he, hown, hanswer⟩ | ⟨he, hown, hvalue, htruth⟩
      | ⟨he, hown, hvalue⟩)
    · rw [if_pos (List.isEmpty_iff.2 he)]
    · rw [if_neg (by simpa using he), Evaluator.condition_of_own hown, hanswer, Session.reply]
    · rw [if_neg (by simpa using he), Evaluator.condition_of_own hown, hanswer, Session.reply]
    · rw [if_neg (by simpa using he), Evaluator.condition_of_ok hown hvalue, htruth, Session.reply]
    · rw [if_neg (by simpa using he), Evaluator.condition_of_error hown hvalue, Session.reply]
  · intro htest
    by_cases he : e = []
    · rw [if_pos (List.isEmpty_iff.2 he)] at htest
      cases htest
      exact .empty he
    · rw [if_neg (by simpa using he)] at htest
      cases hown : ev.condition? with
      | some own =>
        rw [Evaluator.condition_of_own hown] at htest
        rcases hanswer : own e s.state with ⟨error | holds, a⟩
        all_goals
          rw [hanswer] at htest
          cases htest
        · exact .untold he hown hanswer
        · exact .told he hown hanswer
      | none =>
        rcases hvalue : ev.evaluate e s.state with ⟨error | v, a⟩
        · rw [Evaluator.condition_of_error hown hvalue] at htest
          cases htest
          exact .noValue he hown hvalue
        · rw [Evaluator.condition_of_ok hown hvalue] at htest
          cases htest
          exact .value he hown hvalue rfl

/-- The conditions are tested one after the other from `s`, none of them holds, and the tests leave
`t`. -/
inductive NoneHolds (ev : Evaluator σ ν ε) : List Text → Session σ → Session σ → Prop
  | nil (s : Session σ) : NoneHolds ev [] s s
  | cons {e : Text} {es : List Text} {s s' t : Session σ} (htest : Tests ev e s (.ok false) s')
      (hrest : NoneHolds ev es s' t) : NoneHolds ev (e :: es) s t

/-- What the tests of the conditions of some arms come to, and the session that they leave: the body
of the first arm whose condition holds, nothing if none holds, or the error of a test that fails
before that. No later condition is tested. -/
inductive Picks (ev : Evaluator σ ν ε) (arms : List (Text × β)) (s : Session σ) :
    Except (RenderError ε) (Option β) → Session σ → Prop
  | holds (before after : List (Text × β)) {condition : Text} {body : β} {s' t : Session σ}
      (harms : arms = before ++ (condition, body) :: after)
      (hbefore : NoneHolds ev (before.map Prod.fst) s s')
      (htest : Tests ev condition s' (.ok true) t) : Picks ev arms s (.ok (some body)) t
  | fails (before after : List (Text × β)) {condition : Text} {body : β} {s' t : Session σ}
      {error : RenderError ε} (harms : arms = before ++ (condition, body) :: after)
      (hbefore : NoneHolds ev (before.map Prod.fst) s s')
      (htest : Tests ev condition s' (.error error) t) : Picks ev arms s (.error error) t
  | none {t : Session σ} (hnone : NoneHolds ev (arms.map Prod.fst) s t) :
      Picks ev arms s (.ok .none) t

/-- An arm whose condition does not hold is passed over. -/
theorem Picks.cons {ev : Evaluator σ ν ε} {arms : List (Text × β)} {s s' t : Session σ}
    {picked : Except (RenderError ε) (Option β)} {condition : Text} (body : β)
    (htest : Tests ev condition s (.ok false) s') (h : Picks ev arms s' picked t) :
    Picks ev ((condition, body) :: arms) s picked t := by
  cases h with
  | holds before after harms hbefore hholds =>
    subst harms
    exact .holds ((condition, body) :: before) after rfl (.cons htest hbefore) hholds
  | fails before after harms hbefore hfails =>
    subst harms
    exact .fails ((condition, body) :: before) after rfl (.cons htest hbefore) hfails
  | none hnone => exact .none (.cons htest hnone)

end Picks

namespace Renderer

variable {σ ν ε : Type}

theorem runAll_singleton (r : Renderer σ ν ε) (callee : Callee σ ε) (margin : Text) (op : Op) :
    r.runAll callee margin [op] = r.runOp callee margin op := by
  funext s
  simp only [runAll]
  rcases r.runOp callee margin op s with ⟨error | _ | j, t⟩ <;> rfl

/-- What follows the tests: the body that they picked runs in a scope of its own, or else the last
one, if there is one. -/
def runPicked (r : Renderer σ ν ε) (callee : Callee σ ε) (margin : Text) (last : Option (List Op)) :
    Except (RenderError ε) (Option (List Op)) → Session σ → Outcome σ ε Flow
  | .error error, s => (.error error, s)
  | .ok picked, s =>
    match picked.or last with
    | some body => inScope r.evaluator (r.runAll callee margin body) s
    | none => (.ok .through, s)

/-- Some arm, or none, is picked by the tests, and its body is all that runs after them. -/
theorem exists_picks (r : Renderer σ ν ε) (callee : Callee σ ε) (margin : Text)
    (last : Option (List Op)) (arms : List (Text × List Op)) (s : Session σ) :
    ∃ picked t, Picks r.evaluator arms s picked t ∧
      r.runChain callee margin (.ofArms last arms) s = r.runPicked callee margin last picked t := by
  induction arms generalizing s with
  | nil =>
    refine ⟨.ok none, s, .none (.nil s), ?_⟩
    cases last <;> rfl
  | cons arm arms ih =>
    obtain ⟨condition, body⟩ := arm
    simp only [Chain.ofArms, runChain]
    rcases htest : test r.evaluator condition s with ⟨error | _ | _, t⟩
    · exact ⟨.error error, t, .fails [] arms rfl (.nil s) (tests_iff.2 htest), rfl⟩
    · obtain ⟨picked, t', hpicks, hrun⟩ := ih t
      exact ⟨picked, t', hpicks.cons body (tests_iff.2 htest), hrun⟩
    · exact ⟨.ok (some body), t, .holds [] arms rfl (.nil s) (tests_iff.2 htest), rfl⟩

/-- A branching needs no scope of its own. -/
theorem inScope_branch (limits : Limits) (library : Library) (n : Nat) (margin : Text)
    (chain : Chain Text (List Op)) (s : Session Bindings) :
    let r := ofLimits limits Bindings.evaluator library
    inScope r.evaluator (r.runAll (r.calleeAt n) margin [.branch chain]) s
      = r.runChain (r.calleeAt n) margin chain s := by
  intro r
  rw [runAll_singleton]
  exact Bindings.inScope_eq_of_alike
    (Coupling.runChain_alike (Bindings.paddings_steady limits library n) margin chain 0) s

/-- It makes no difference if the arms after the first one are nested in the last body: the run
comes to the same result, writes the same text and leaves the very same scopes. In any branching and
for any evaluator, the conditions are tested in order, up to the first one that holds or fails, and
at most one body runs after that. -/
theorem runOp_branch_ofArms (limits : Limits) (library : Library) (margin : Text) :
    (∀ n condition body arms last (s : Session Bindings),
      let r := ofLimits limits Bindings.evaluator library
      let nested : Op := .branch (.ofArms last arms)
      r.runOp (r.calleeAt n) margin (.branch (.ofArms last ((condition, body) :: arms))) s
        = r.runOp (r.calleeAt n) margin
            (.branch (.ofArms (some [nested]) [(condition, body)])) s) ∧
    ∀ (σ ν ε : Type) (ev : Evaluator σ ν ε) (callee : Callee σ ε) arms last (s : Session σ),
      let r := ofLimits limits ev library
      ∃ picked t, Picks ev arms s picked t ∧
        r.runOp callee margin (.branch (.ofArms last arms)) s
          = r.runPicked callee margin last picked t := by
  constructor
  · intro n condition body arms last s r nested
    show andThen (test r.evaluator condition s) _ = andThen (test r.evaluator condition s) _
    congr 1
    funext holds s
    cases holds with
    | true => rfl
    | false => exact (inScope_branch limits library n margin (.ofArms last arms) s).symm
  · intro σ ν ε ev callee arms last s r
    exact r.exists_picks callee margin last arms s

/-- A branching whose second condition is the one that holds. -/
theorem runOp_branch_ofArms_second :
    let two : Value := .int ⟨2, by decide⟩
    let b : Bindings := .outermost (.ofList [(['x'], two)])
    let r := ofLimits {} Bindings.evaluator .empty
    let first := ("x == 1".toList, [Op.text ['a'] false])
    let second := ("x == 2".toList, [Op.text ['b'] false])
    let last := some [Op.text ['c'] false]
    let nested : Op := .branch (.ofArms last [second])
    let ran := r.runOp (r.calleeAt 0) [] (.branch (.ofArms last [first, second])) ⟨b, .empty⟩
    (ran.1.toOption = some .through ∧ ran.2.out.contents = ['b']) ∧
      Picks r.evaluator [first, second] ⟨b, .empty⟩ (.ok (some second.2)) ⟨b, .empty⟩ ∧
      r.runOp (r.calleeAt 0) [] (.branch (.ofArms (some [nested]) [first])) ⟨b, .empty⟩ = ran := by
  intro two b r first second last nested ran
  have tests {e : Text} {holds : Bool} (he : e ≠ [])
      (h : (b.evaluate e).toOption.map Value.isTruthy = some holds) :
      Tests r.evaluator e ⟨b, .empty⟩ (.ok holds) ⟨b, .empty⟩ := by
    cases hvalue : b.evaluate e with
    | error error =>
      rw [hvalue] at h
      cases h
    | ok v =>
      rw [hvalue] at h
      exact .value he rfl (congrArg (·, b) hvalue) (congrArg (·, b) (Option.some.inj h))
  refine ⟨by decide +kernel, ?_, ?_⟩
  · exact .holds [first] [] rfl (.cons (tests (by decide) (by decide +kernel)) (.nil _))
      (tests (by decide) (by decide +kernel))
  · exact ((runOp_branch_ofArms {} .empty []).1 0 first.1 first.2 [second] last ⟨b, .empty⟩).symm

end Renderer

end Stencil
