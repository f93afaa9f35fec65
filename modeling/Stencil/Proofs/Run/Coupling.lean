import Stencil.Render.Run

/-!
# Two runs in step

A relational logic for runs. A coupling relates the sessions of two runs, which may have different
evaluators, and is kept by every request that a run makes. Steps are alike under a coupling if they
come to equal results and related sessions wherever they start from related sessions.

States are related level by level, where the level counts the scopes that have been begun since the
start. Requests that bind or change names are answered for at levels above zero only: below that
they occur in one place, a statement that stands in no body, and `runAll_alike` asks for it there.

Main statements:

* `loop_alike`, `call_alike`, `inScope_alike`: composed steps are alike if their parts are.
* `runAll_alike`: the same operations under the same indentation are alike.
* `calleeAt_alike`: from one call level to all of them.
-/

namespace Stencil

open Session

/-! ## Replies -/

namespace Session

variable {σ ν ε α : Type}

/-- What a session makes of an evaluator's answer to a request about the text `e`. -/
def reply (e : Text) (s : Session σ) : Except ε α × σ → Outcome σ ε α
  | (.ok a, state) => (.ok a, { s with state })
  | (.error error, state) => (.error (.eval e error), { s with state })

theorem evaluate_eq_reply (ev : Evaluator σ ν ε) (e : Text) (s : Session σ) :
    evaluate ev e s = s.reply e (ev.evaluate e s.state) := by
  unfold evaluate
  rcases ev.evaluate e s.state with ⟨_ | v, state⟩ <;> rfl

theorem test_eq_reply (ev : Evaluator σ ν ε) (e : Text) (s : Session σ) :
    test ev e s = if e.isEmpty then (.ok true, s) else s.reply e (ev.condition e s.state) := by
  unfold test
  rcases ev.condition e s.state with ⟨_ | holds, state⟩ <;> rfl

theorem items_eq_reply (ev : Evaluator σ ν ε) (e : Text) (s : Session σ) :
    items ev e s = andThen (evaluate ev e s) fun v s => s.reply e (ev.items v s.state) := by
  unfold items
  congr 1
  funext v s
  rcases ev.items v s.state with ⟨_ | vs, state⟩ <;> rfl

theorem execute_eq_reply (ev : Evaluator σ ν ε) (t : Text) (s : Session σ) :
    execute ev t s = if t.isEmpty then (.ok (), s) else s.reply t (ev.execute t s.state) := by
  unfold execute
  rcases ev.execute t s.state with ⟨_ | _, state⟩ <;> rfl

end Session

/-! ## Couplings -/

variable {σ₁ σ₂ ν ε α β : Type}

/-- Equal answers that leave related states. -/
def SameAnswer (R : σ₁ → σ₂ → Prop) (x : α × σ₁) (y : α × σ₂) : Prop := x.1 = y.1 ∧ R x.2 y.2

/-- Evaluators with no way of their own to tell whether a condition holds agree on it if they agree
on its value and on the truth of values. -/
theorem sameAnswer_condition {ev₁ : Evaluator σ₁ ν ε} {ev₂ : Evaluator σ₂ ν ε}
    {R : σ₁ → σ₂ → Prop} {a : σ₁} {b : σ₂} {e : Text} (h₁ : ev₁.condition? = none)
    (h₂ : ev₂.condition? = none) (hvalue : SameAnswer R (ev₁.evaluate e a) (ev₂.evaluate e b))
    (htruth : ∀ a b v, R a b → SameAnswer R (ev₁.isTruthy v a) (ev₂.isTruthy v b)) :
    SameAnswer R (ev₁.condition e a) (ev₂.condition e b) := by
  rcases he₁ : ev₁.evaluate e a with ⟨result, a'⟩
  rcases he₂ : ev₂.evaluate e b with ⟨_, b'⟩
  rw [he₁, he₂] at hvalue
  obtain ⟨hresult, hstates⟩ := hvalue
  cases hresult
  cases result with
  | error error =>
    rw [Evaluator.condition_of_error h₁ he₁, Evaluator.condition_of_error h₂ he₂]
    exact ⟨rfl, hstates⟩
  | ok v =>
    rw [Evaluator.condition_of_ok h₁ he₁, Evaluator.condition_of_ok h₂ he₂]
    obtain ⟨htrue, hstates'⟩ := htruth a' b' v hstates
    exact ⟨congrArg Except.ok htrue, hstates'⟩

/-- A relation between the sessions of two runs that is kept by all requests. -/
structure Coupling (ev₁ : Evaluator σ₁ ν ε) (ev₂ : Evaluator σ₂ ν ε) where
  /-- How states are related when so many scopes have been begun. -/
  states : Nat → σ₁ → σ₂ → Prop
  /-- How the texts written so far are related. -/
  texts : Text → Text → Prop
  onEvaluate : ∀ k a b e, states k a b →
    SameAnswer (states k) (ev₁.evaluate e a) (ev₂.evaluate e b)
  onCondition : ∀ k a b e, states k a b →
    SameAnswer (states k) (ev₁.condition e a) (ev₂.condition e b)
  onItems : ∀ k a b v, states k a b → SameAnswer (states k) (ev₁.items v a) (ev₂.items v b)
  onExecute : ∀ k a b t, states (k + 1) a b →
    SameAnswer (states (k + 1)) (ev₁.execute t a) (ev₂.execute t b)
  onBind : ∀ k a b n v, states (k + 1) a b → states (k + 1) (ev₁.bind n v a) (ev₂.bind n v b)
  onPush : ∀ k a b, states k a b → states (k + 1) (ev₁.push a) (ev₂.push b)
  onPop : ∀ k a b, states (k + 1) a b → states k (ev₁.pop a) (ev₂.pop b)

namespace Coupling

variable {ev₁ : Evaluator σ₁ ν ε} {ev₂ : Evaluator σ₂ ν ε} (C : Coupling ev₁ ev₂)

/-- Sessions with related states and related texts. -/
def Sessions (k : Nat) (s₁ : Session σ₁) (s₂ : Session σ₂) : Prop :=
  C.states k s₁.state s₂.state ∧ C.texts s₁.out.contents s₂.out.contents

/-- Steps that, wherever they start from related sessions, come to equal results and related
sessions. -/
def Alike (k : Nat) (f₁ : Session σ₁ → Outcome σ₁ ε α) (f₂ : Session σ₂ → Outcome σ₂ ε α) : Prop :=
  ∀ s₁ s₂, C.Sessions k s₁ s₂ → SameAnswer (C.Sessions k) (f₁ s₁) (f₂ s₂)

variable {C} {k : Nat}

/-! ## Requests -/

theorem result_alike (result : Except (RenderError ε) α) :
    C.Alike k (fun s => (result, s)) (fun s => (result, s)) :=
  fun _ _ h => ⟨rfl, h⟩

theorem andThen_alike {f₁ : Session σ₁ → Outcome σ₁ ε α} {f₂ : Session σ₂ → Outcome σ₂ ε α}
    {g₁ : α → Session σ₁ → Outcome σ₁ ε β} {g₂ : α → Session σ₂ → Outcome σ₂ ε β}
    (hf : C.Alike k f₁ f₂) (hg : ∀ a, C.Alike k (g₁ a) (g₂ a)) :
    C.Alike k (fun s => andThen (f₁ s) g₁) (fun s => andThen (f₂ s) g₂) := by
  intro s₁ s₂ h
  obtain ⟨hresult, hsessions⟩ := hf s₁ s₂ h
  rcases h₁ : f₁ s₁ with ⟨result, t₁⟩
  rcases h₂ : f₂ s₂ with ⟨_, t₂⟩
  rw [h₁, h₂] at hresult hsessions
  subst hresult
  cases result with
  | error error => simpa only [h₁, h₂, andThen] using ⟨rfl, hsessions⟩
  | ok a => simpa only [h₁, h₂, andThen] using hg a t₁ t₂ hsessions

/-- Replies are alike if the answers are. -/
theorem reply_alike {e : Text} {x : Except ε α × σ₁} {y : Except ε α × σ₂} {s₁ : Session σ₁}
    {s₂ : Session σ₂} (h : SameAnswer (C.states k) x y)
    (ht : C.texts s₁.out.contents s₂.out.contents) :
    SameAnswer (C.Sessions k) (s₁.reply e x) (s₂.reply e y) := by
  obtain ⟨result, a⟩ := x
  obtain ⟨_, b⟩ := y
  obtain ⟨hresult, hstates⟩ := h
  cases hresult
  cases result with
  | error error => exact ⟨rfl, hstates, ht⟩
  | ok v => exact ⟨rfl, hstates, ht⟩

theorem evaluate_alike (e : Text) : C.Alike k (evaluate ev₁ e) (evaluate ev₂ e) := by
  intro s₁ s₂ h
  rw [evaluate_eq_reply, evaluate_eq_reply]
  exact reply_alike (C.onEvaluate k _ _ e h.1) h.2

theorem evaluateAll_alike (es : List Text) :
    C.Alike k (evaluateAll ev₁ es) (evaluateAll ev₂ es) := by
  induction es with
  | nil => exact result_alike _
  | cons e es ih =>
    exact andThen_alike (evaluate_alike e) fun v => andThen_alike ih fun vs => result_alike _

theorem test_alike (e : Text) : C.Alike k (test ev₁ e) (test ev₂ e) := by
  intro s₁ s₂ h
  rw [test_eq_reply, test_eq_reply]
  by_cases he : e.isEmpty
  · rw [if_pos he, if_pos he]
    exact ⟨rfl, h⟩
  · rw [if_neg he, if_neg he]
    exact reply_alike (C.onCondition k _ _ e h.1) h.2

theorem items_alike (e : Text) : C.Alike k (items ev₁ e) (items ev₂ e) := by
  intro s₁ s₂ h
  rw [items_eq_reply, items_eq_reply]
  exact andThen_alike (evaluate_alike e)
    (fun v _ _ ht => reply_alike (C.onItems k _ _ v ht.1) ht.2) s₁ s₂ h

/-- Statements are alike at a level where the evaluators agree on them. -/
theorem execute_alike_of {t : Text}
    (ht : ∀ a b, C.states k a b → SameAnswer (C.states k) (ev₁.execute t a) (ev₂.execute t b)) :
    C.Alike k (execute ev₁ t) (execute ev₂ t) := by
  intro s₁ s₂ h
  rw [execute_eq_reply, execute_eq_reply]
  by_cases he : t.isEmpty
  · rw [if_pos he, if_pos he]
    exact ⟨rfl, h⟩
  · rw [if_neg he, if_neg he]
    exact reply_alike (ht _ _ h.1) h.2

theorem execute_alike (t : Text) : C.Alike (k + 1) (execute ev₁ t) (execute ev₂ t) :=
  execute_alike_of fun a b => C.onExecute k a b t

/-- An empty statement is alike at every level, since nothing is executed. -/
theorem execute_nil_alike : C.Alike k (execute ev₁ []) (execute ev₂ []) :=
  fun _ _ h => ⟨rfl, h⟩

theorem bindAll_sessions (bindings : List (Text × ν)) {s₁ : Session σ₁} {s₂ : Session σ₂}
    (h : C.Sessions (k + 1) s₁ s₂) :
    C.Sessions (k + 1) (bindAll ev₁ bindings s₁) (bindAll ev₂ bindings s₂) := by
  induction bindings generalizing s₁ s₂ with
  | nil => exact h
  | cons binding bindings ih => exact ih ⟨C.onBind k _ _ binding.1 binding.2 h.1, h.2⟩

/-- A scope is one level up. -/
theorem inScope_alike {f₁ : Session σ₁ → Outcome σ₁ ε α} {f₂ : Session σ₂ → Outcome σ₂ ε α}
    (hf : C.Alike (k + 1) f₁ f₂) : C.Alike k (inScope ev₁ f₁) (inScope ev₂ f₂) := by
  intro s₁ s₂ h
  obtain ⟨hresult, hstates, htexts⟩ :=
    hf { s₁ with state := ev₁.push s₁.state } { s₂ with state := ev₂.push s₂.state }
      ⟨C.onPush k _ _ h.1, h.2⟩
  exact ⟨hresult, C.onPop k _ _ hstates, htexts⟩

/-! ## Loops -/

theorem repeatWhile_alike {limit left : Nat}
    {test₁ : Session σ₁ → Outcome σ₁ ε Bool} {test₂ : Session σ₂ → Outcome σ₂ ε Bool}
    {body₁ : Session σ₁ → Outcome σ₁ ε Flow} {body₂ : Session σ₂ → Outcome σ₂ ε Flow}
    {step₁ : Session σ₁ → Outcome σ₁ ε Unit} {step₂ : Session σ₂ → Outcome σ₂ ε Unit}
    (htest : C.Alike k test₁ test₂) (hbody : C.Alike k body₁ body₂)
    (hstep : C.Alike k step₁ step₂) :
    C.Alike k (repeatWhile limit test₁ body₁ step₁ left)
      (repeatWhile limit test₂ body₂ step₂ left) := by
  induction left with
  | zero =>
    refine andThen_alike htest fun holds => ?_
    cases holds with
    | false => exact result_alike _
    | true => exact result_alike _
  | succ left ih =>
    refine andThen_alike htest fun holds => ?_
    cases holds with
    | false => exact result_alike _
    | true =>
      refine andThen_alike hbody fun flow => ?_
      cases hflow : flow.ofBody with
      | some flow' => exact result_alike _
      | none => exact andThen_alike hstep fun _ => ih

theorem forEach_alike {limit left : Nat} {body₁ : ν → Session σ₁ → Outcome σ₁ ε Flow}
    {body₂ : ν → Session σ₂ → Outcome σ₂ ε Flow} (hbody : ∀ v, C.Alike k (body₁ v) (body₂ v))
    (vs : List ν) :
    C.Alike k (forEach limit body₁ left vs) (forEach limit body₂ left vs) := by
  induction vs generalizing left with
  | nil => cases left <;> exact result_alike _
  | cons v vs ih =>
    cases left with
    | zero => exact result_alike _
    | succ left =>
      refine andThen_alike (hbody v) fun flow => ?_
      cases hflow : flow.ofBody with
      | some flow' => exact result_alike _
      | none => exact ih

end Coupling

/-! ## Calls -/

/-- The procedure of a template that a call runs, and the indentation that it runs under. -/
def CallIndent.pick (indent : CallIndent) (margin : Text) (template : Template) :
    Procedure × Text :=
  if indent.isNone then (template.plain, []) else (template.indented, indent.resolve margin)

namespace Coupling

variable {r₁ : Renderer σ₁ ν ε} {r₂ : Renderer σ₂ ν ε}

/-- Callees that are alike on procedures and indentations related by `P`. -/
def Callees (C : Coupling r₁.evaluator r₂.evaluator)
    (P : Procedure × Text → Procedure × Text → Prop) (c₁ : Callee σ₁ ε) (c₂ : Callee σ₂ ε) : Prop :=
  Option.Rel (fun run₁ run₂ => ∀ p₁ p₂, P p₁ p₂ → ∀ k,
    C.Alike (k + 1) (run₁ p₁.1 p₁.2) (run₂ p₂.1 p₂.2)) c₁ c₂

variable {C : Coupling r₁.evaluator r₂.evaluator} {k : Nat}
  {P : Procedure × Text → Procedure × Text → Prop}
  {c₁ : Callee σ₁ ε} {c₂ : Callee σ₂ ε} {margin₁ margin₂ : Text}

theorem call_alike (hlibrary : r₁.library = r₂.library) (hdepth : r₁.maxCallDepth = r₂.maxCallDepth)
    (hcallee : C.Callees P c₁ c₂) {name : Text} {arguments : List Text}
    {indent₁ indent₂ : CallIndent}
    (hpick : ∀ template, r₂.library.get? name = some template →
      P (indent₁.pick margin₁ template) (indent₂.pick margin₂ template)) :
    C.Alike k (r₁.call c₁ name arguments indent₁ margin₁)
      (r₂.call c₂ name arguments indent₂ margin₂) := by
  unfold Renderer.call
  rw [hlibrary, hdepth]
  cases htemplate : r₂.library.get? name with
  | none => exact result_alike _
  | some template =>
    by_cases hcount : template.parameters.length ≠ arguments.length
    · simp only [if_pos hcount]
      exact result_alike _
    · simp only [if_neg hcount]
      cases hcallee with
      | none => exact result_alike _
      | some hrun =>
        refine andThen_alike (evaluateAll_alike arguments) fun values => inScope_alike ?_
        intro s₁ s₂ h
        exact hrun _ _ (hpick template htemplate) k _ _ (bindAll_sessions _ h)

/-! ## Operations -/

section Loops

variable {body₁ : Session σ₁ → Outcome σ₁ ε Flow} {body₂ : Session σ₂ → Outcome σ₂ ε Flow}

theorem each_alike (hlimit : r₁.loopLimit = r₂.loopLimit) (hbody : C.Alike (k + 1) body₁ body₂)
    (name iterable : Text) :
    C.Alike k (r₁.each name iterable body₁) (r₂.each name iterable body₂) := by
  refine andThen_alike (items_alike iterable) fun values => ?_
  rw [hlimit]
  refine forEach_alike (fun v => inScope_alike fun s₁ s₂ h => ?_) values
  exact hbody (s₁.bind r₁.evaluator name v) (s₂.bind r₂.evaluator name v)
    ⟨C.onBind k _ _ name v h.1, h.2⟩

theorem loopWhile_alike (hlimit : r₁.loopLimit = r₂.loopLimit)
    (hbody : C.Alike (k + 1) body₁ body₂) (condition : Text) {step : Text}
    (hstep : C.Alike k (execute r₁.evaluator step) (execute r₂.evaluator step)) :
    C.Alike k (r₁.loopWhile condition step body₁) (r₂.loopWhile condition step body₂) := by
  unfold Renderer.loopWhile
  rw [hlimit]
  exact repeatWhile_alike (test_alike condition) (inScope_alike hbody) hstep

/-- The body of a loop runs one level up, or two if the loop is counted. -/
theorem loop_alike (hlimit : r₁.loopLimit = r₂.loopLimit)
    (hbody : ∀ j, C.Alike (j + 1) body₁ body₂) (kind : LoopKind) (header : Text) :
    C.Alike k (r₁.loop kind header body₁) (r₂.loop kind header body₂) := by
  cases kind with
  | whileLoop => exact loopWhile_alike hlimit (hbody k) header execute_nil_alike
  | foreachLoop =>
    unfold Renderer.loop
    rcases Header.each? header with _ | ⟨name, iterable⟩
    · exact result_alike _
    · exact each_alike hlimit (hbody k) name iterable
  | forLoop =>
    unfold Renderer.loop
    rcases Header.ofText? header with _ | ⟨init, condition, step⟩ | ⟨name, iterable⟩
    · exact result_alike _
    · exact inScope_alike (andThen_alike (execute_alike init) fun _ =>
        loopWhile_alike hlimit (hbody (k + 1)) condition (execute_alike step))
    · exact each_alike hlimit (hbody k) name iterable

end Loops

/-- Whether an operation changes names where it stands in the same way in both runs. Only a
declaration changes names there. -/
def Declares (C : Coupling r₁.evaluator r₂.evaluator) (k : Nat) : Op → Prop
  | .declare t => C.Alike k (execute r₁.evaluator t) (execute r₂.evaluator t)
  | _ => True

theorem declares_of (h : ∀ t, C.Alike k (execute r₁.evaluator t) (execute r₂.evaluator t))
    (op : Op) : C.Declares k op := by
  cases op with
  | declare t => exact h t
  | _ => trivial

theorem declares_succ (op : Op) : C.Declares (k + 1) op := declares_of execute_alike op

/-- What makes runs of the same operations alike: equal limits and libraries, equal texts of values,
callees that are alike on the same procedures, and texts that stay related when both runs write the
same. -/
structure Steady (C : Coupling r₁.evaluator r₂.evaluator) (c₁ : Callee σ₁ ε) (c₂ : Callee σ₂ ε) :
    Prop where
  library : r₁.library = r₂.library
  loopLimit : r₁.loopLimit = r₂.loopLimit
  maxCallDepth : r₁.maxCallDepth = r₂.maxCallDepth
  text : ∀ v, r₁.evaluator.text v = r₂.evaluator.text v
  callees : C.Callees Eq c₁ c₂
  write : ∀ a b t, C.texts a b → C.texts (a ++ t) (b ++ t)

theorem Steady.write_sessions (hC : C.Steady c₁ c₂) {s₁ : Session σ₁} {s₂ : Session σ₂} (t : Text)
    (h : C.Sessions k s₁ s₂) : C.Sessions k (s₁.write t) (s₂.write t) := by
  refine ⟨h.1, ?_⟩
  simpa only [Session.write, Buffer.contents_write] using hC.write _ _ t h.2

mutual

/-- The same operation is alike under the same indentation. -/
theorem runOp_alike (hC : C.Steady c₁ c₂) (margin : Text) :
    ∀ (op : Op) (k : Nat), C.Declares k op →
      C.Alike k (r₁.runOp c₁ margin op) (r₂.runOp c₂ margin op)
  | .text t indented, _, _ => fun _ _ h => ⟨rfl, hC.write_sessions _ h⟩
  | .render e indented, _, _ => andThen_alike (evaluate_alike e) fun v _ _ h => by
      rw [hC.text v]
      exact ⟨rfl, hC.write_sessions _ h⟩
  | .declare t, _, ht => andThen_alike ht fun _ => result_alike _
  | .call name arguments indent, _, _ =>
      andThen_alike (call_alike hC.library hC.maxCallDepth hC.callees fun _ _ => rfl)
        fun _ => result_alike _
  | .branch chain, k, _ => runChain_alike hC margin chain k
  | .loop kind header body, _, _ =>
      -- The body is at least one level up, where every statement is answered for.
      loop_alike hC.loopLimit
        (fun j => runAll_alike hC margin body (j + 1) fun op _ => declares_succ op) kind header
  | .jump j, _, _ => result_alike _

/-- The same operations are alike under the same indentation. -/
theorem runAll_alike (hC : C.Steady c₁ c₂) (margin : Text) :
    ∀ (ops : List Op) (k : Nat), (∀ op ∈ ops, C.Declares k op) →
      C.Alike k (r₁.runAll c₁ margin ops) (r₂.runAll c₂ margin ops)
  | [], _, _ => result_alike _
  | op :: ops, k, hops => by
      refine andThen_alike (runOp_alike hC margin op k (hops op List.mem_cons_self)) fun flow => ?_
      cases flow with
      | through =>
        exact runAll_alike hC margin ops k fun op' h => hops op' (List.mem_cons_of_mem op h)
      | jumped j => exact result_alike _

/-- The same arms are alike under the same indentation. -/
theorem runChain_alike (hC : C.Steady c₁ c₂) (margin : Text) :
    ∀ (chain : Chain Text (List Op)) (k : Nat),
      C.Alike k (r₁.runChain c₁ margin chain) (r₂.runChain c₂ margin chain)
  | .done, _ => result_alike _
  | .otherwise body, k =>
      inScope_alike (runAll_alike hC margin body (k + 1) fun op _ => declares_succ op)
  | .arm condition body rest, k => by
      refine andThen_alike (test_alike condition) fun holds => ?_
      cases holds with
      | true =>
        exact inScope_alike (runAll_alike hC margin body (k + 1) fun op _ => declares_succ op)
      | false => exact runChain_alike hC margin rest k

end

/-! ## Procedures -/

/-- Procedures are alike if their operations are. -/
theorem runProcedure_alike {p₁ p₂ : Procedure}
    (hops : C.Alike k (r₁.runAll c₁ margin₁ p₁.ops) (r₂.runAll c₂ margin₂ p₂.ops)) :
    C.Alike k (r₁.runProcedure c₁ p₁ margin₁) (r₂.runProcedure c₂ p₂ margin₂) := by
  refine andThen_alike hops fun flow => ?_
  rcases flow with _ | _ | _ | _ <;> exact result_alike _

/-- Callees are alike at every call level if being alike at one level carries over to the next. -/
theorem calleeAt_alike
    (hstep : ∀ c₁ c₂, C.Callees P c₁ c₂ → ∀ p₁ p₂, P p₁ p₂ → ∀ k,
      C.Alike (k + 1) (r₁.runProcedure c₁ p₁.1 p₁.2) (r₂.runProcedure c₂ p₂.1 p₂.2)) (n : Nat) :
    C.Callees P (r₁.calleeAt n) (r₂.calleeAt n) := by
  -- A callee at one level runs procedures with the callees of the level below.
  induction n with
  | zero => exact Option.Rel.none
  | succ n ih => exact Option.Rel.some (hstep _ _ ih)

variable (r₁ r₂) in
/-- Runs of the same operations are alike at every call level. -/
theorem steady_calleeAt (hlibrary : r₁.library = r₂.library) (hlimit : r₁.loopLimit = r₂.loopLimit)
    (hdepth : r₁.maxCallDepth = r₂.maxCallDepth)
    (htext : ∀ v, r₁.evaluator.text v = r₂.evaluator.text v)
    (hwrite : ∀ a b t, C.texts a b → C.texts (a ++ t) (b ++ t)) (n : Nat) :
    C.Steady (r₁.calleeAt n) (r₂.calleeAt n) := by
  have steady : ∀ c₁ c₂, C.Callees Eq c₁ c₂ → C.Steady c₁ c₂ :=
    fun _ _ hcallees => ⟨hlibrary, hlimit, hdepth, htext, hcallees, hwrite⟩
  -- A called procedure runs in a scope of its own, so all that it declares is one level up.
  refine steady _ _ (calleeAt_alike (fun c₁ c₂ h => ?_) n)
  rintro p _ rfl k
  exact runProcedure_alike
    (runAll_alike (steady _ _ h) p.2 p.1.ops (k + 1) fun op _ => declares_succ op)

variable (r₁ r₂) in
/-- The same procedure is alike under the same indentation, whatever the call level. -/
theorem run_alike (hlibrary : r₁.library = r₂.library) (hlimit : r₁.loopLimit = r₂.loopLimit)
    (hdepth : r₁.maxCallDepth = r₂.maxCallDepth)
    (htext : ∀ v, r₁.evaluator.text v = r₂.evaluator.text v)
    (hwrite : ∀ a b t, C.texts a b → C.texts (a ++ t) (b ++ t)) (procedure : Procedure)
    (margin : Text) (hops : ∀ op ∈ procedure.ops, C.Declares k op) :
    C.Alike k (r₁.run procedure margin) (r₂.run procedure margin) := by
  have hsteady := steady_calleeAt r₁ r₂ hlibrary hlimit hdepth htext hwrite r₁.maxCallDepth
  unfold Renderer.run
  rw [← hdepth]
  exact runProcedure_alike (runAll_alike hsteady margin procedure.ops k hops)

end Coupling

end Stencil
