import Stencil.Proofs.Node.Spans

/-!
# Trees and their sources

Every span in the tree of a template lies where the template has what it stands for, and the literal
text of the tree is the literal text of the template: what its tokens outside of blocks cover, once
the trim markers have done their work.

Both are inductions over the grammar. The tokens of a phrase are `Token.Laid` in the source, from
some place up to another, and the leaves of the phrase are spread between these places
(`Derives.spread`). For the literal text the blocks of a phrase are passed over one by one
(`Derives.literal`).

Main statement: `Template.compile_leaves`.
-/

namespace Stencil

open Text

namespace Token

/-- The tokens that lie outside of blocks. A block is what stands from an enter through the next
exit; `inside` says that the first token is in one. -/
def outside : (inside : Bool) → List Token → List Token
  | _, [] => []
  | true, token :: tokens => outside (!token.kind.isExit) tokens
  | false, token :: tokens =>
    if token.kind.isEnter then outside true tokens else token :: outside false tokens

variable {run inner tokens : List Token}

theorem outside_append_text (h : ∀ token ∈ run, token.kind.isText) :
    outside false (run ++ tokens) = run ++ outside false tokens := by
  induction run with
  | nil => rfl
  | cons token run ih =>
    rw [List.forall_mem_cons] at h
    have henter : ¬token.kind.isEnter := fun henter => Kind.not_isText_of_isEnter henter h.1
    rw [List.cons_append, outside, if_neg henter, ih h.2, List.cons_append]

theorem outside_append_inner (h : ∀ token ∈ inner, token.kind.isText) :
    outside true (inner ++ tokens) = outside true tokens := by
  induction inner with
  | nil => rfl
  | cons token inner ih =>
    rw [List.forall_mem_cons] at h
    have hexit : token.kind.isExit = false := by
      simpa using Kind.not_isExit_of_isText h.1
    rw [List.cons_append, outside, hexit, Bool.not_false, ih h.2]

/-- A block is passed over. -/
theorem outside_append_block {block : Block} (h : block.Formed) :
    outside false (block.tokens ++ tokens) = outside false tokens := by
  have htokens : block.tokens ++ tokens
      = block.enter ::
          ((block.lead ++ block.identifier :: block.more) ++ block.exit :: tokens) := by
    simp [Block.tokens]
  rw [htokens, outside, if_pos h.enter, outside_append_inner h.isText, outside, h.exit,
    Bool.not_true]

/-- The text that tokens cover outside of blocks. -/
def literal (source : Text) (tokens : List Token) : Text :=
  (outside false tokens).flatMap (text source)

theorem literal_append_text (source : Text) (h : ∀ token ∈ run, token.kind.isText) :
    literal source (run ++ tokens) = run.flatMap (text source) ++ literal source tokens := by
  rw [literal, outside_append_text h, List.flatMap_append, literal]

theorem literal_append_block (source : Text) {block : Block} (h : block.Formed) :
    literal source (block.tokens ++ tokens) = literal source tokens := by
  rw [literal, outside_append_block h, literal]

theorem literal_eof (source : Text) : literal source [eof] = [] := by
  have htext : eof.text source = [] := by
    rw [Token.text, range, if_pos (.inl rfl)]
    simp [slice?]
  have houtside : outside false [eof] = [eof] := rfl
  rw [literal, houtside, List.flatMap_cons, htext, List.flatMap_nil, List.append_nil]

end Token

namespace Phrase

/-- The leaves of what a phrase derives. -/
def leaves : Phrase → List Leaf
  | body _ _ nodes => Node.allLeaves nodes
  | statement _ _ node => node.leaves
  | arms _ chain => Node.chainLeaves chain

/-- The text right before a phrase. -/
def previous? : Phrase → Option Span
  | body _ previous _ => previous
  | statement _ previous _ => previous
  | arms _ _ => none

end Phrase

variable {source : Text} {limit : Nat} {phrase : Phrase} {tokens : List Token}

/-- The leaves of a phrase lie where its tokens do. -/
theorem Derives.spread (h : Derives source limit phrase tokens) {joined : Bool} {start stop : Nat}
    (hlaid : Token.Laid source joined start stop tokens)
    (hprevious : ∀ span ∈ phrase.previous?, ∃ before t after,
      Span.Clear source span before t after) :
    Leaf.Spread source start phrase.previous? stop phrase.leaves := by
  have hnone : ∀ span ∈ (none : Option Span), ∃ before t after,
      Span.Clear source span before t after := nofun
  induction h generalizing joined start stop with
  | nothing => exact .nil hlaid.le
  | @text depth first rest tokens nodes hrun _ ih =>
    obtain ⟨mid, hfirst, hlater⟩ := hlaid.split
    obtain ⟨before, after, hclear, hstart, hstop⟩ := hfirst.exists_clear hrun
    have hnonempty : (first :: rest).flatMap (Token.text source) ≠ [] := by
      obtain ⟨_, _, hcovers, -⟩ := hfirst.rests first List.mem_cons_self
      rw [List.flatMap_cons]
      exact List.append_ne_nil_of_left_ne_nil hcovers.nonempty _
    refine .text (hclear.sound hnonempty nofun) hstart (ih (hlater.weaken hstop) ?_)
    rintro span ⟨⟩
    exact ⟨_, _, _, hclear⟩
  | statement _ _ ih ih' =>
    obtain ⟨mid, hfirst, hlater⟩ := hlaid.split
    exact (ih hfirst hprevious).append (ih' hlater hnone)
  | output hreads => exact hreads.1.spread_content hlaid (.nil (Nat.le_refl stop))
  | declare hreads hbare => exact hreads.1.spread_remainder hbare hlaid (.nil (Nat.le_refl stop))
  | @call depth previous block name arguments hreads hbare hcall =>
    obtain ⟨_, _, hclear, -, hstart, hstop⟩ := hreads.1.exists_remainder hbare hlaid
    have hspread : Leaf.Spread source start none stop
        (⟨.code, name⟩ :: arguments.map (⟨.code, ·⟩)) :=
      ((hclear.spread_call hcall).widen hstop).weaken hstart
    -- If there is an indentation, it is the end of the text right before the call.
    cases hfound : previous.bind (Span.indentation? source) with
    | none => exact hspread.weaken (Nat.le_refl start)
    | some found =>
      obtain ⟨text, rfl, hfound⟩ := Option.bind_eq_some_iff.1 hfound
      obtain ⟨_, _, _, htext⟩ := hprevious text rfl
      obtain ⟨hsound, hfirst, hlast⟩ := htext.indentation hfound
      exact .indentation hsound hfirst hlast hspread
  | jump => exact .nil hlaid.le
  | branch hreads hbare _ _ _ ih ih' =>
    obtain ⟨_, hlaid, hlater⟩ := hlaid.split
    obtain ⟨_, hblock, hbody⟩ := hlaid.split
    exact hreads.1.spread_remainder hbare hblock ((ih hbody hnone).append (ih' hlater hnone))
  | loop hreads hbare _ _ _ _ ih =>
    obtain ⟨_, hlaid, hlast⟩ := hlaid.split
    obtain ⟨_, hblock, hbody⟩ := hlaid.split
    exact hreads.1.spread_remainder hbare hblock ((ih hbody hnone).widen hlast.le)
  | done => exact .nil hlaid.le
  | otherwise _ _ _ _ _ ih =>
    obtain ⟨_, hlaid, hlast⟩ := hlaid.split
    obtain ⟨_, hblock, hbody⟩ := hlaid.split
    exact ((ih hbody hnone).widen hlast.le).weaken hblock.le
  | arm hreads hbare _ _ ih ih' =>
    obtain ⟨_, hlaid, hlater⟩ := hlaid.split
    obtain ⟨_, hblock, hbody⟩ := hlaid.split
    exact hreads.1.spread_remainder hbare hblock ((ih hbody hnone).append (ih' hlater hnone))

/-- The literal text of a phrase is what its tokens cover outside of blocks. -/
theorem Derives.literal (h : Derives source limit phrase tokens) {joined : Bool} {start stop : Nat}
    (hlaid : Token.Laid source joined start stop tokens) (later : List Token) :
    Token.literal source (tokens ++ later)
      = Leaf.literal source phrase.leaves ++ Token.literal source later := by
  induction h generalizing joined start stop later with
  | nothing => rfl
  | text hrun _ ih =>
    obtain ⟨_, hfirst, hlater⟩ := hlaid.split
    obtain ⟨_, _, hclear, -, -⟩ := hfirst.exists_clear hrun
    rw [List.append_assoc, Token.literal_append_text source hrun, ih hlater, ← hclear.text_eq,
      ← List.append_assoc]
    rfl
  | statement _ _ ih ih' =>
    obtain ⟨_, hfirst, hlater⟩ := hlaid.split
    rw [List.append_assoc, ih hfirst, ih' hlater, ← List.append_assoc, ← Leaf.literal_append]
    rfl
  | output hreads => exact Token.literal_append_block source hreads.1
  | declare hreads => exact Token.literal_append_block source hreads.1
  | call hreads =>
    rw [Token.literal_append_block source hreads.1, Phrase.leaves, Leaf.literal_call,
      List.nil_append]
  | jump hreads => exact Token.literal_append_block source hreads.1
  | branch hreads _ _ _ _ ih ih' =>
    obtain ⟨_, hlaid, hlater⟩ := hlaid.split
    obtain ⟨_, hblock, hbody⟩ := hlaid.split
    rw [List.append_assoc, List.append_assoc, Token.literal_append_block source hreads.1, ih hbody,
      ih' hlater, ← List.append_assoc, ← Leaf.literal_append]
    rfl
  | loop hreads _ _ _ hlast _ ih =>
    obtain ⟨_, hlaid, -⟩ := hlaid.split
    obtain ⟨_, hblock, hbody⟩ := hlaid.split
    rw [List.append_assoc, List.append_assoc, Token.literal_append_block source hreads.1, ih hbody,
      Token.literal_append_block source hlast.1]
    rfl
  | done hlast => exact Token.literal_append_block source hlast.1
  | otherwise hreads _ _ hlast _ ih =>
    obtain ⟨_, hlaid, -⟩ := hlaid.split
    obtain ⟨_, hblock, hbody⟩ := hlaid.split
    rw [List.append_assoc, List.append_assoc, Token.literal_append_block source hreads.1, ih hbody,
      Token.literal_append_block source hlast.1]
    rfl
  | arm hreads _ _ _ ih ih' =>
    obtain ⟨_, hlaid, hlater⟩ := hlaid.split
    obtain ⟨_, hblock, hbody⟩ := hlaid.split
    rw [List.append_assoc, List.append_assoc, Token.literal_append_block source hreads.1, ih hbody,
      ih' hlater, ← List.append_assoc, ← Leaf.literal_append]
    rfl

namespace Template

/-- The nodes of a compiled template are derived from its tokens, the end of file apart. -/
theorem derives_of_compile {maxDepth : Nat} {template : Template}
    (h : compile maxDepth source = .ok template)
    (htokens : Token.trim (Token.scan source) = tokens ++ [Token.eof])
    (hkind : ∀ token ∈ tokens, token.kind ≠ .eof) :
    Derives source maxDepth (.body 0 none template.nodes) tokens := by
  unfold compile at h
  split at h
  · cases h
  rename_i nodes hnodes
  cases h
  have hderives := Node.derives_of_parse hnodes
  have hkept : (tokens ++ [Token.eof]).takeWhile (·.kind ≠ .eof) = tokens := by
    rw [List.takeWhile_append_of_pos fun token htoken => by simpa using hkind token htoken]
    simp [Token.eof]
  rwa [htokens, hkept] at hderives

/-- The leaves of a compiled template are sound and in the order of the source, and their literal
text is what the tokens of the trimmed source cover outside of blocks. -/
theorem compile_leaves {maxDepth : Nat} {template : Template}
    (h : compile maxDepth source = .ok template) :
    Leaf.Spread source 0 none (bytes source) (Node.allLeaves template.nodes) ∧
      Leaf.literal source (Node.allLeaves template.nodes)
        = Token.literal source (Token.trim (Token.scan source)) := by
  obtain ⟨tokens, htokens, hlaid⟩ := Token.exists_laid_trim source
  have hderives := derives_of_compile h htokens hlaid.ne_eof
  refine ⟨hderives.spread hlaid fun _ h => absurd h (Option.not_mem_none _), ?_⟩
  rw [htokens, hderives.literal hlaid, Token.literal_eof, List.append_nil]
  rfl

/-- Text around trim markers, and a call with an indentation inside of a branching. -/
theorem compile_leaves_trimmed :
    let source := "é \x7b%- if a -%\x7d \n q\n  \x7b% call f(x, y) %\x7d\x7b% end %\x7d z".toList
    match compile 8 source with
    | .ok template =>
      (Node.allLeaves template.nodes).map (fun leaf => (leaf.role, leaf.span.text source))
        = [(.text, ['é']), (.code, ['a']), (.text, "q\n  ".toList), (.indentation, "  ".toList),
          (.code, ['f']), (.code, ['x']), (.code, ['y']), (.text, " z".toList)] ∧
      Leaf.Spread source 0 none (Text.bytes source) (Node.allLeaves template.nodes) ∧
      Leaf.literal source (Node.allLeaves template.nodes)
        = Token.literal source (Token.trim (Token.scan source))
    | .error _ => False := by
  intro source
  have hleaves : (match compile 8 source with
    | .ok template =>
      decide ((Node.allLeaves template.nodes).map (fun leaf => (leaf.role, leaf.span.text source))
        = [(.text, ['é']), (.code, ['a']), (.text, "q\n  ".toList), (.indentation, "  ".toList),
          (.code, ['f']), (.code, ['x']), (.code, ['y']), (.text, " z".toList)])
    | .error _ => false) = true := by decide +kernel
  split at hleaves
  · rename_i template htemplate
    exact ⟨of_decide_eq_true hleaves, compile_leaves htemplate⟩
  · cases hleaves

end Template

end Stencil
