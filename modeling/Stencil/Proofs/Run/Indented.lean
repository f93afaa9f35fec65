import Stencil.Bindings
import Stencil.Proofs.Node.Leading
import Stencil.Proofs.Run.Coupling
import Stencil.Render.Template

/-!
# Indented runs

Running the indented procedure of a template under an indentation writes what the plain procedure
writes under none, with the indentation put after every line feed, and it comes to the same result.

Inside a run the plain procedure may call an indented one, because of the blanks that stand before
the call. So what is compared is more general: the indented procedure under `w ++ e` is compared
with the procedure of either mode under `e`, where `e` is empty if that one is plain. It matters
that `e` has no line feed: the indentation `w` is put after the line feeds of the text only, and not
after those of an indentation.

Main statements:

* `Text.indent_indent`: indentations add up, if the inner one has no line feed.
* `runAll_indented`: the operations of a tree in the two modes are alike.
* `Template.run_indented`: the two procedures of a template.
-/

namespace Stencil

namespace Text

/-- A text without line feeds is not affected. -/
theorem indent_of_not_mem {margin t : Text} (h : '\n' ∉ t) : indent margin t = t := by
  induction t with
  | nil => rfl
  | cons c t ih =>
    rw [List.mem_cons, not_or] at h
    simp only [indent, List.flatMap_cons, if_neg (Ne.symm h.1)]
    exact congrArg (c :: ·) (ih h.2)

theorem indent_nil_left (t : Text) : indent [] t = t := by
  induction t with
  | nil => rfl
  | cons c t ih =>
    simp only [indent, List.flatMap_cons, ite_self] at ih ⊢
    exact congrArg (c :: ·) ih

/-- Putting one indentation after another one is putting both. -/
theorem indent_indent {margin inner : Text} (h : '\n' ∉ inner) (t : Text) :
    indent margin (indent inner t) = indent (margin ++ inner) t := by
  induction t with
  | nil => rfl
  | cons c t ih =>
    rw [show c :: t = [c] ++ t from rfl, indent_append, indent_append, indent_append, ih]
    congr 1
    by_cases hc : c = '\n'
    -- After a line feed stands `inner`, which gets nothing more: `margin` comes between the two.
    · subst hc
      rw [show indent inner ['\n'] = ['\n'] ++ inner by simp [indent], indent_append,
        indent_of_not_mem h]
      simp [indent]
    · simp [indent, hc]

end Text

/-! ## What is written in a mode -/

/-- A plain procedure is run under no indentation. -/
def Mode.Fits (mode : Mode) (margin : Text) : Prop := mode = .plain → margin = []

theorem Mode.Fits.indented (margin : Text) : Mode.indented.Fits margin := nofun

theorem Mode.Fits.plain : Mode.plain.Fits [] := fun _ => rfl

variable {mode : Mode} {margin : Text}

/-- A value is written with the indentation, which is empty if the mode does not ask for it. -/
theorem Mode.Fits.layout_eq (h : mode.Fits margin) (t : Text) :
    Renderer.layout margin (mode == .indented) t = Text.indent margin t := by
  cases mode with
  | plain =>
    rw [h rfl, Text.indent_nil_left]
    rfl
  | indented => rfl

/-- So is literal text, since nothing is to be put into it if it has no line feed. -/
theorem Mode.Fits.layout_text_eq (h : mode.Fits margin) (t : Text) :
    Renderer.layout margin (mode == .indented && t.contains '\n') t = Text.indent margin t := by
  by_cases ht : '\n' ∈ t
  · rw [List.contains_iff_mem.2 ht, Bool.and_true, h.layout_eq]
  · have hcontains : t.contains '\n' = false := by simpa using ht
    rw [hcontains, Bool.and_false, Text.indent_of_not_mem ht]
    rfl

/-! ## Runs in two modes -/

/-- The indented procedure of a compiled template under `w ++ e`, and one of its procedures under
`e`. -/
def Counterparts (w : Text) (p₁ p₂ : Procedure × Text) : Prop :=
  ∃ (template : Template) (mode : Mode) (e : Text), template.Compiled ∧ mode.Fits e ∧ '\n' ∉ e ∧
    p₁ = (template.indented, w ++ e) ∧ p₂ = (template.procedure mode, e)

/-- A call picks counterparts if its captured indentation has no line feed. -/
theorem counterparts_pick {template : Template} (htemplate : template.Compiled) {w e leading : Text}
    (hmode : mode.Fits e) (he : '\n' ∉ e) (hleading : '\n' ∉ leading) :
    Counterparts w ((Mode.indented.callIndent leading).pick (w ++ e) template)
      ((mode.callIndent leading).pick e template) := by
  have hboth : '\n' ∉ e ++ leading := by simp [he, hleading]
  have hleft : (Mode.indented.callIndent leading).pick (w ++ e) template
      = (template.indented, w ++ (e ++ leading)) := by
    rw [← List.append_assoc]
    rfl
  refine hleft ▸ ?_
  cases mode with
  | indented => exact ⟨template, .indented, e ++ leading, htemplate, .indented _, hboth, rfl, rfl⟩
  | plain =>
    obtain rfl := hmode rfl
    -- A plain caller calls the plain procedure, unless there are blanks before the call.
    cases leading with
    | nil => exact ⟨template, .plain, [], htemplate, .plain, hboth, rfl, rfl⟩
    | cons c leading =>
      exact ⟨template, .indented, c :: leading, htemplate, .indented _, hboth, rfl, rfl⟩

variable {σ ν ε : Type}

/-- Two runs of which one writes what the other writes, but indented by `w`, after what `out` is. -/
def Renderer.indenting (r : Renderer σ ν ε) (w out : Text) : Coupling r.evaluator r.evaluator where
  states _ := Eq
  texts a b := ∃ t, a = out ++ Text.indent w t ∧ b = out ++ t
  onEvaluate _ _ _ _ h := h ▸ ⟨rfl, rfl⟩
  onCondition _ _ _ _ h := h ▸ ⟨rfl, rfl⟩
  onItems _ _ _ _ h := h ▸ ⟨rfl, rfl⟩
  onExecute _ _ _ _ h := h ▸ ⟨rfl, rfl⟩
  onBind _ _ _ _ _ h := h ▸ rfl
  onPush _ _ _ h := h ▸ rfl
  onPop _ _ _ h := h ▸ rfl

section Simulation

variable {r : Renderer σ ν ε} {w e out source : Text} {c₁ c₂ : Callee σ ε} {k : Nat}

/-- Writing a text under `w ++ e` and under `e`. -/
theorem write_indented (he : '\n' ∉ e) (t : Text) {s₁ s₂ : Session σ}
    (h : (r.indenting w out).Sessions k s₁ s₂) :
    (r.indenting w out).Sessions k (s₁.write (Text.indent (w ++ e) t))
      (s₂.write (Text.indent e t)) := by
  obtain ⟨hstate, written, h₁, h₂⟩ := h
  refine ⟨hstate, written ++ Text.indent e t, ?_, ?_⟩
  · rw [Session.write, Buffer.contents_write, h₁, Text.indent_append, Text.indent_indent he,
      List.append_assoc]
  · rw [Session.write, Buffer.contents_write, h₂, List.append_assoc]

theorem execute_indented (t : Text) : (r.indenting w out).Alike k
    (Session.execute r.evaluator t) (Session.execute r.evaluator t) :=
  Coupling.execute_alike_of fun a b h => by
    obtain rfl : a = b := h
    exact ⟨rfl, rfl⟩

/-- What makes the two modes of a tree alike: the indented operations run under `w ++ e` and the
others under `e`, and calls reach compiled templates and run counterparts. -/
structure Indenting (r : Renderer σ ν ε) (w out e : Text) (mode : Mode) (c₁ c₂ : Callee σ ε) :
    Prop where
  library : ∀ name template, r.library.get? name = some template → template.Compiled
  callees : (r.indenting w out).Callees (Counterparts w) c₁ c₂
  fits : mode.Fits e
  inLine : '\n' ∉ e

mutual

/-- A node becomes an operation in both modes or in none, and the operations are alike. -/
theorem lower_indented (h : Indenting r w out e mode c₁ c₂) :
    ∀ node : Node, node.InLine source →
      Option.Rel (fun op₁ op₂ => ∀ k, (r.indenting w out).Alike k (r.runOp c₁ (w ++ e) op₁)
        (r.runOp c₂ e op₂)) (node.lower source .indented) (node.lower source mode)
  | .text span, _ => .some fun k s₁ s₂ hs => by
      simp only [Mode.text, Renderer.runOp]
      rw [h.fits.layout_text_eq, (Mode.Fits.indented (w ++ e)).layout_text_eq]
      exact ⟨rfl, write_indented h.inLine _ hs⟩
  | .output span, _ => .some fun k =>
      Coupling.andThen_alike (Coupling.evaluate_alike _) fun v s₁ s₂ hs => by
        rw [h.fits.layout_eq, (Mode.Fits.indented (w ++ e)).layout_eq]
        exact ⟨rfl, write_indented h.inLine _ hs⟩
  | .declare span, _ => .some fun k =>
      Coupling.andThen_alike (execute_indented _) fun _ => Coupling.result_alike _
  | .call name arguments leading, hnode => .some fun k => by
      have hleading : '\n' ∉ leading.elim [] (·.text source) := by
        cases leading with
        | none => exact List.not_mem_nil
        | some span => exact hnode span rfl
      refine Coupling.andThen_alike (Coupling.call_alike rfl rfl h.callees ?_)
        fun _ => Coupling.result_alike _
      exact fun template htemplate =>
        counterparts_pick (h.library _ _ htemplate) h.fits h.inLine hleading
  | .branch condition body rest, hnode => .some fun k => by
      refine Coupling.andThen_alike (Coupling.test_alike _) fun holds => ?_
      cases holds with
      | true => exact Coupling.inScope_alike (runAll_indented h body hnode.1 (k + 1))
      | false => exact runChain_indented h rest hnode.2 k
  | .loop kind header body, hnode => .some fun k =>
      Coupling.loop_alike rfl (fun j => runAll_indented h body hnode (j + 1)) kind _
  | .jump j, _ => .some fun k => Coupling.result_alike _
  | .noOp, _ => .none

/-- The operations of a body in the two modes are alike. -/
theorem runAll_indented (h : Indenting r w out e mode c₁ c₂) :
    ∀ nodes : List Node, Node.AllInLine source nodes → ∀ k, (r.indenting w out).Alike k
      (r.runAll c₁ (w ++ e) (Node.lowerAll source .indented nodes))
      (r.runAll c₂ e (Node.lowerAll source mode nodes))
  | [], _, k => Coupling.result_alike _
  | node :: nodes, hnodes, k => by
      have hnode := lower_indented h node hnodes.1
      have hrest := runAll_indented h nodes hnodes.2
      simp only [Node.lowerAll]
      generalize node.lower source .indented = op₁ at hnode ⊢
      generalize node.lower source mode = op₂ at hnode ⊢
      cases hnode with
      | none => exact hrest k
      | some hop =>
        refine Coupling.andThen_alike (hop k) fun flow => ?_
        cases flow with
        | through => exact hrest k
        | jumped j => exact Coupling.result_alike _

/-- The arms of a chain in the two modes are alike. -/
theorem runChain_indented (h : Indenting r w out e mode c₁ c₂) :
    ∀ chain : Chain Span (List Node), Node.ChainInLine source chain → ∀ k,
      (r.indenting w out).Alike k (r.runChain c₁ (w ++ e) (Node.lowerChain source .indented chain))
        (r.runChain c₂ e (Node.lowerChain source mode chain))
  | .done, _, k => Coupling.result_alike _
  | .otherwise body, hbody, k =>
      Coupling.inScope_alike (runAll_indented h body hbody (k + 1))
  | .arm condition body rest, hchain, k => by
      refine Coupling.andThen_alike (Coupling.test_alike _) fun holds => ?_
      cases holds with
      | true => exact Coupling.inScope_alike (runAll_indented h body hchain.1 (k + 1))
      | false => exact runChain_indented h rest hchain.2 k

end

/-- Counterparts are alike where calls are. -/
theorem runProcedure_indented
    (hlibrary : ∀ name template, r.library.get? name = some template → template.Compiled)
    (hcallees : (r.indenting w out).Callees (Counterparts w) c₁ c₂) {p₁ p₂ : Procedure × Text}
    (hp : Counterparts w p₁ p₂) (k : Nat) :
    (r.indenting w out).Alike k (r.runProcedure c₁ p₁.1 p₁.2) (r.runProcedure c₂ p₂.1 p₂.2) := by
  obtain ⟨template, mode, e, htemplate, hfits, he, rfl, rfl⟩ := hp
  obtain ⟨hnodes, hprocedure⟩ := htemplate.inLine
  have h : Indenting r w out e mode c₁ c₂ := ⟨hlibrary, hcallees, hfits, he⟩
  refine Coupling.runProcedure_alike ?_
  have hindented : template.indented = .ofNodes template.source .indented template.nodes :=
    hprocedure .indented
  rw [hindented, hprocedure mode]
  exact runAll_indented h template.nodes hnodes k

end Simulation

/-- The indented procedure of a template under an indentation does the same as the plain one under
none: it comes to the same result and leaves the evaluator in the same state, and what it writes,
all of it or what there is before a failure, is what the plain one writes with the indentation after
every line feed. -/
theorem Template.run_indented (limits : Limits) (ev : Evaluator σ ν ε) {library : Library}
    (hlibrary : ∀ name template, library.get? name = some template → template.Compiled)
    {template : Template} (htemplate : template.Compiled) (w : Text) (state : σ) (out : Buffer) :
    let r := Renderer.ofLimits limits ev library
    let indented := r.run template.indented w ⟨state, out⟩
    let plain := r.run template.plain [] ⟨state, out⟩
    indented.1 = plain.1 ∧ indented.2.state = plain.2.state ∧
      ∃ written, plain.2.out.contents = out.contents ++ written ∧
        indented.2.out.contents = out.contents ++ Text.indent w written := by
  intro r indented plain
  have hcallees : (r.indenting w out.contents).Callees (Counterparts w)
      (r.calleeAt r.maxCallDepth) (r.calleeAt r.maxCallDepth) :=
    Coupling.calleeAt_alike (fun c₁ c₂ hcallees p₁ p₂ hp k =>
      runProcedure_indented hlibrary hcallees hp (k + 1)) r.maxCallDepth
  have hcounterparts : Counterparts w (template.indented, w) (template.plain, []) :=
    ⟨template, .plain, [], htemplate, .plain, List.not_mem_nil, by rw [List.append_nil], rfl⟩
  obtain ⟨hresult, hstate, written, hindented, hplain⟩ :=
    runProcedure_indented hlibrary hcallees hcounterparts 0 ⟨state, out⟩ ⟨state, out⟩
      ⟨rfl, [], by simp⟩
  exact ⟨hresult, hstate, written, hplain, hindented⟩

/-- A call that stands on a line of its own, of a template with two lines. -/
theorem Template.run_indented_lines :
    match compile 8 "one\n\x7b\x7b x \x7d\x7d".toList,
      compile 8 "a:\n  \x7b% call list(2) %\x7d\nb".toList with
    | .ok callee, .ok caller =>
      let library := .ofList [("list".toList, callee.withParameters [['x']])]
      let r := Renderer.ofLimits {} Bindings.evaluator library
      let indented := r.run caller.indented "> ".toList ⟨.empty, .empty⟩
      let plain := r.run caller.plain [] ⟨.empty, .empty⟩
      plain.2.out.contents = "a:\n  one\n  2\nb".toList ∧
        indented.1 = plain.1 ∧ indented.2.state = plain.2.state ∧
        ∃ written, plain.2.out.contents = [] ++ written ∧
          indented.2.out.contents = [] ++ Text.indent "> ".toList written
    | _, _ => False := by
  have htext : (match compile 8 "one\n\x7b\x7b x \x7d\x7d".toList,
      compile 8 "a:\n  \x7b% call list(2) %\x7d\nb".toList with
    | .ok callee, .ok caller =>
      let library := .ofList [("list".toList, callee.withParameters [['x']])]
      let r := Renderer.ofLimits {} Bindings.evaluator library
      decide ((r.run caller.plain [] ⟨.empty, .empty⟩).2.out.contents
        = "a:\n  one\n  2\nb".toList)
    | _, _ => false) = true := by decide +kernel
  split at htext
  · rename_i callee caller hcallee hcaller
    refine ⟨of_decide_eq_true htext, run_indented {} Bindings.evaluator ?_
      ⟨8, _, caller, [], hcaller, rfl⟩ _ _ _⟩
    intro name template htemplate
    simp only [Table.ofList, List.foldl_cons, List.foldl_nil, Table.get?_insert,
      Table.get?_empty] at htemplate
    split at htemplate
    · cases htemplate
      exact ⟨8, _, callee, [['x']], hcallee, rfl⟩
    · cases htemplate
  · cases htext

end Stencil
