import Stencil.Bindings
import Stencil.Proofs.Node.Spans
import Stencil.Proofs.Run.Indented

/-!
# Templates without blocks

A template in which no delimiter is written is its own text. All its tokens are text tokens, so its
tree is one text node, or empty if the template is; the procedure of either mode writes that text at
once, and asks the evaluator for nothing.

Main statement: `Template.render_literal`.
-/

namespace Stencil

open Text

/-- The operations that write a text: none if there is nothing to write. -/
def Mode.literal (mode : Mode) (t : Text) : List Op := if t = [] then [] else [mode.text t]

/-- A template without delimiters is read, and its tree becomes the operations that write it. -/
theorem Node.exists_parse_literal {source : Text} (limit : Nat)
    (h : Avoids Piece.StartsDelimiter source []) :
    ∃ nodes, parse source limit (Token.trim (Token.scan source)) = .ok nodes ∧
      ∀ mode : Mode, lowerAll source mode nodes = mode.literal source := by
  obtain ⟨tokens, hscan, hlaid, htext, hsource⟩ := Token.exists_scan_text h
  have htrim : Token.trim tokens = tokens :=
    Token.trim_eq_self fun token htoken => Kind.not_isTrim_of_isText (htext token htoken)
  rw [hscan, Token.trim_concat_eof, htrim]
  rcases eq_or_ne source [] with rfl | hnonempty
  · have htokens : tokens = [] := by
      have hempty : Token.scan [] = [] ++ [Token.eof] := by rw [Token.scan, Piece.segment]; rfl
      exact List.append_cancel_right (hscan.symm.trans hempty)
    rw [htokens]
    exact ⟨[], parse_concat_of_derives .nothing (by simp), fun mode => rfl⟩
  · obtain ⟨first, rest, rfl⟩ : ∃ first rest, tokens = first :: rest := by
      apply List.exists_cons_of_ne_nil
      rintro rfl
      exact hnonempty hsource.symm
    obtain ⟨before, after, hclear, -, -⟩ := hlaid.exists_clear htext
    have hderives : Derives source limit
        (.body 0 none [.text (.covering source first (rest.getLastD first))])
        (first :: rest ++ []) := .text htext .nothing
    rw [List.append_nil] at hderives
    refine ⟨_, parse_concat_of_derives hderives hlaid.ne_eof, fun mode => ?_⟩
    rw [Mode.literal, if_neg hnonempty, lowerAll, lower, hclear.text_eq, hsource, lowerAll]

variable {σ ν ε : Type} {mode : Mode} {margin : Text}

/-- Writing a text as a template does in a mode is writing it with the indentation. -/
theorem Renderer.runAll_literal (r : Renderer σ ν ε) (callee : Callee σ ε)
    (hmode : mode.Fits margin) (t : Text) (s : Session σ) :
    r.runAll callee margin (mode.literal t) s = (.ok .through, s.write (indent margin t)) := by
  unfold Mode.literal
  split
  · rename_i hempty
    subst hempty
    rfl
  · rw [runAll, Mode.text, runOp, Session.andThen, hmode.layout_text_eq, runAll]

/-- A run from an empty buffer that writes a text as a template does. -/
theorem Renderer.output_literal (r : Renderer σ ν ε) (hmode : mode.Fits margin) {t : Text}
    {procedure : Procedure} (hprocedure : procedure.ops = mode.literal t) (state : σ) :
    Template.output (r.runFresh procedure margin state) = (.ok (indent margin t), state) := by
  rw [runFresh, run, runProcedure, hprocedure, r.runAll_literal _ hmode]
  simp only [Session.andThen, Template.output, Session.write, Buffer.contents_write,
    Buffer.contents_empty, List.nil_append]
  rfl

/-- A template without delimiters is compiled whatever the limits are. Rendering it gives the
template itself, and rendering it under an indentation gives it with the indentation after every
line feed. The state of the evaluator stays as it is. -/
theorem Template.render_literal {source : Text}
    (h : ∀ literal ∈ [['{', '{'], ['}', '}'], ['{', '%'], ['%', '}']], ¬literal <:+: source)
    (maxDepth : Nat) (limits : Limits) (ev : Evaluator σ ν ε) (library : Library) (margin : Text)
    (state : σ) :
    ∃ template, compile maxDepth source = .ok template ∧
      template.renderWith limits ev library state = (.ok source, state) ∧
      template.renderIndented ev library margin state = (.ok (indent margin source), state) := by
  have havoids : Avoids Piece.StartsDelimiter source [] := by
    apply avoids_of_no_literal _ (by simp)
    intro kind hkind hinfix
    -- A delimiter with a trim marker has the plain one in it.
    have hplain : ∀ kind ∈ Kind.delimiters, ∃ literal ∈ [['{', '{'], ['}', '}'], ['{', '%'],
        ['%', '}']], literal <:+: kind.literal := by decide
    obtain ⟨literal, hliteral, hwithin⟩ := hplain kind hkind
    exact h literal hliteral (hwithin.trans hinfix)
  obtain ⟨nodes, hparse, hlower⟩ := Node.exists_parse_literal maxDepth havoids
  have hcompile : compile maxDepth source = .ok {
      source, nodes
      plain := .ofNodes source .plain nodes
      indented := .ofNodes source .indented nodes
      parameters := [] } := by rw [compile, hparse]
  refine ⟨_, hcompile, ?_, ?_⟩
  · rw [renderWith, Renderer.output_literal _ .plain (hlower .plain), indent_nil_left]
  · rw [renderIndented, Renderer.output_literal _ (.indented margin) (hlower .indented)]

/-- Lone braces and percent signs, a dash, and line breaks of both kinds. -/
theorem Template.render_literal_lines :
    let source := "a \x7b % \r\n- \x7d\r %\n".toList
    (∀ literal ∈ [['{', '{'], ['}', '}'], ['{', '%'], ['%', '}']], ¬literal <:+: source) ∧
      ∃ template, compile 0 source = .ok template ∧
        template.renderWith {} Bindings.evaluator .empty .empty = (.ok source, .empty) ∧
        template.renderIndented Bindings.evaluator .empty "  ".toList .empty
          = (.ok "a \x7b % \r\n  - \x7d\r %\n  ".toList, .empty) := by
  intro source
  have h : ∀ literal ∈ [['{', '{'], ['}', '}'], ['{', '%'], ['%', '}']], ¬literal <:+: source := by
    decide +kernel
  exact ⟨h, render_literal h 0 {} Bindings.evaluator .empty "  ".toList .empty⟩

end Stencil
