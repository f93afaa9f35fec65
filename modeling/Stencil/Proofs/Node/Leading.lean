import Stencil.Proofs.Node.Reading
import Stencil.Template

/-!
# The indentation that calls capture

A call that stands alone on its line captures the blanks before it. They are the end of the text
right before the call and begin after its last line feed, so a captured indentation never has a line
feed in it, in no call of a template.

Main statement: `Template.Compiled.inLine`.
-/

namespace Stencil

namespace Text

/-- What is cut off at the front is a part of the text, and it has the size that was asked for. -/
theorem takeBytes?_eq_some {t s : Text} {n : Nat} (h : takeBytes? t n = some s) :
    ∃ u, t = s ++ u ∧ bytes s = n := by
  fun_induction takeBytes? t n generalizing s with
  | case1 t =>
    cases h
    exact ⟨t, rfl, rfl⟩
  | case2 => cases h
  | case3 c t n hfits ih =>
    obtain ⟨s, hs, rfl⟩ := Option.map_eq_some_iff.1 h
    obtain ⟨u, rfl, hbytes⟩ := ih hs
    exact ⟨u, rfl, by rw [bytes_cons, hbytes]; omega⟩
  | case4 => cases h

/-- A text is what stands up to its last line feed, and its last line. -/
theorem exists_append_lastLine (t : Text) :
    ∃ front, t = front ++ lastLine t ∧ ∀ c ∈ front.getLast?, c = '\n' := by
  refine ⟨(t.reverse.dropWhile (· ≠ '\n')).reverse, ?_, fun c hc => ?_⟩
  · rw [lastLine, ← List.reverse_append, List.takeWhile_append_dropWhile, List.reverse_reverse]
  · have hstop := List.head?_dropWhile_not (fun c : Char => decide (c ≠ '\n')) t.reverse
    rw [List.getLast?_reverse] at hc
    rw [Option.mem_def.1 hc] at hstop
    simpa using hstop

theorem not_mem_lastLine (t : Text) : '\n' ∉ lastLine t := by
  intro h
  rw [lastLine, List.mem_reverse] at h
  simpa using List.all_eq_true.1 List.all_takeWhile _ h

end Text

/-- An indentation that is found has no line feed in it. -/
theorem Span.not_mem_of_indentation? {source : Text} {span found : Span}
    (h : span.indentation? source = some found) : '\n' ∉ found.text source := by
  obtain ⟨before, hbefore, hfound⟩ := Option.bind_eq_some_iff.1 h
  clear h
  obtain ⟨after, rfl, hstop⟩ := Text.takeBytes?_eq_some hbefore
  obtain ⟨front, hfront, -⟩ := Text.exists_append_lastLine before
  have hline := Text.not_mem_lastLine before
  generalize Text.lastLine before = line at hfound hfront hline
  subst hfront
  simp only at hfound
  split at hfound
  · cases hfound
    -- The line is the middle one of three parts of the source.
    rw [Text.bytes_append] at hstop
    have hstart : span.stop - Text.bytes line = Text.bytes front := by omega
    rw [Span.text, hstart, ← hstop, Text.slice?_append, Option.getD_some]
    exact hline
  · cases hfound

namespace Node

mutual

/-- In no call of the node is there a line feed in the indentation that it captures. -/
def InLine (source : Text) : Node → Prop
  | call _ _ leading => ∀ span ∈ leading, '\n' ∉ span.text source
  | branch _ body rest => AllInLine source body ∧ ChainInLine source rest
  | loop _ _ body => AllInLine source body
  | _ => True

/-- All nodes of a body are `InLine`. -/
def AllInLine (source : Text) : List Node → Prop
  | [] => True
  | node :: nodes => InLine source node ∧ AllInLine source nodes

/-- All bodies of a chain are `AllInLine`. -/
def ChainInLine (source : Text) : Chain Span (List Node) → Prop
  | .done => True
  | .otherwise body => AllInLine source body
  | .arm _ body rest => AllInLine source body ∧ ChainInLine source rest

end

end Node

/-- What a phrase derives is `InLine`. -/
def Phrase.InLine (source : Text) : Phrase → Prop
  | .body _ _ nodes => Node.AllInLine source nodes
  | .statement _ _ node => node.InLine source
  | .arms _ chain => Node.ChainInLine source chain

theorem Derives.inLine {source : Text} {limit : Nat} {phrase : Phrase} {tokens : List Token}
    (h : Derives source limit phrase tokens) : phrase.InLine source := by
  induction h with
  | nothing => trivial
  | text _ _ ih => exact ⟨trivial, ih⟩
  | statement _ _ ih ih' => exact ⟨ih, ih'⟩
  | output => trivial
  | declare => trivial
  | call =>
    -- What a call captures is an indentation that was found in the text before it.
    intro span hspan
    obtain ⟨text, _, hfound⟩ := Option.bind_eq_some_iff.1 hspan
    exact Span.not_mem_of_indentation? hfound
  | jump => trivial
  | branch _ _ _ _ _ ih ih' => exact ⟨ih, ih'⟩
  | loop _ _ _ _ _ _ ih => exact ih
  | done => trivial
  | otherwise _ _ _ _ _ ih => exact ih
  | arm _ _ _ _ ih ih' => exact ⟨ih, ih'⟩

namespace Template

/-- A template as compiling a source makes it, with any names for its arguments. -/
def Compiled (template : Template) : Prop :=
  ∃ maxDepth source compiled parameters, compile maxDepth source = .ok compiled ∧
    template = compiled.withParameters parameters

/-- Both procedures of a compiled template are those of its tree, and no call in it captures a line
feed. -/
theorem Compiled.inLine {template : Template} (h : template.Compiled) :
    Node.AllInLine template.source template.nodes ∧
      ∀ mode, template.procedure mode = .ofNodes template.source mode template.nodes := by
  obtain ⟨maxDepth, source, compiled, parameters, hcompiled, rfl⟩ := h
  unfold compile at hcompiled
  split at hcompiled
  · cases hcompiled
  rename_i nodes hnodes
  cases hcompiled
  refine ⟨(Node.derives_of_parse hnodes).inLine, fun mode => ?_⟩
  cases mode <;> rfl

end Template

end Stencil
