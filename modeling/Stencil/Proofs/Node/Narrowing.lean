import Mathlib.Data.List.TakeWhile
import Stencil.Proofs.Node.Spans
import Stencil.Proofs.Node.Thinning

/-!
# Trimming narrows literal text and nothing else

Trimming changes the tree of a template only in its literal text: every text node of the trimmed
template lies in one of the whole template, and a text node is lost only if no token in it is left
(`Node.AllNarrows`). The indentations of calls, which are cut from text nodes, may change with them.
A template that is refused is refused for the same reason at the same place.

The proof for trees is an induction on the derivation of the whole template. The tokens to come and
what trimming leaves of them are kept `Token.Aligned`, block by block and run by run, and each rule
of the grammar is applied again to what is left.

Main statement: `Node.parse_trim`.
-/

namespace Stencil

namespace Span

/-- The span lies in the other one. -/
def Within (inner outer : Span) : Prop :=
  outer.start ≤ inner.start ∧ inner.start ≤ inner.stop ∧ inner.stop ≤ outer.stop

/-- None of the tokens has anything in the span. -/
def Emptied (source : Text) (left : List Token) (span : Span) : Prop :=
  ∀ token ∈ left, (token.range source).2 ≤ span.start ∨ span.stop ≤ (token.range source).1

end Span

namespace Node

mutual

/-- The second node is the first one but for its literal text, which lies in that of the first one,
and for the indentations of its calls. A text may be missing if `gone` holds of it. -/
inductive Narrows (gone : Span → Prop) : Node → Node → Prop
  | text {span inner : Span} : inner.Within span → Narrows gone (.text span) (.text inner)
  | output {span : Span} : Narrows gone (.output span) (.output span)
  | declare {span : Span} : Narrows gone (.declare span) (.declare span)
  | call {name : Span} {arguments : List Span} {leading leading' : Option Span} :
      Narrows gone (.call name arguments leading) (.call name arguments leading')
  | branch {condition : Span} {body body' : List Node} {rest rest' : Chain Span (List Node)} :
      AllNarrows gone body body' → ChainNarrows gone rest rest' →
      Narrows gone (.branch condition body rest) (.branch condition body' rest')
  | loop {kind : LoopKind} {header : Span} {body body' : List Node} :
      AllNarrows gone body body' → Narrows gone (.loop kind header body) (.loop kind header body')
  | jump {jump : Jump} : Narrows gone (.jump jump) (.jump jump)

/-- The nodes of two bodies, one after another. -/
inductive AllNarrows (gone : Span → Prop) : List Node → List Node → Prop
  | nil : AllNarrows gone [] []
  | cons {node node' : Node} {nodes nodes' : List Node} :
      Narrows gone node node' → AllNarrows gone nodes nodes' →
      AllNarrows gone (node :: nodes) (node' :: nodes')
  | gone {span : Span} {nodes nodes' : List Node} :
      gone span → AllNarrows gone nodes nodes' → AllNarrows gone (.text span :: nodes) nodes'

/-- The arms of two chains, one after another. -/
inductive ChainNarrows (gone : Span → Prop) :
    Chain Span (List Node) → Chain Span (List Node) → Prop
  | done : ChainNarrows gone .done .done
  | otherwise {body body' : List Node} :
      AllNarrows gone body body' → ChainNarrows gone (.otherwise body) (.otherwise body')
  | arm {condition : Span} {body body' : List Node} {rest rest' : Chain Span (List Node)} :
      AllNarrows gone body body' → ChainNarrows gone rest rest' →
      ChainNarrows gone (.arm condition body rest) (.arm condition body' rest')

end

mutual

/-- Without literal text there is no difference. -/
theorem Narrows.bare_eq {gone : Span → Prop} {node node' : Node} :
    Narrows gone node node' → node'.bare = node.bare
  | .text _ | .output | .declare | .call | .jump => rfl
  | .branch hbody hrest => by rw [bare, bare, hbody.bare_eq, hrest.bare_eq]
  | .loop hbody => by rw [bare, bare, hbody.bare_eq]

theorem AllNarrows.bare_eq {gone : Span → Prop} {nodes nodes' : List Node} :
    AllNarrows gone nodes nodes' → allBare nodes' = allBare nodes
  | .nil => rfl
  | .cons hnode hnodes => by rw [allBare, allBare, hnode.bare_eq, hnodes.bare_eq]
  | .gone _ hnodes => by rw [hnodes.bare_eq, allBare, bare, List.nil_append]

theorem ChainNarrows.bare_eq {gone : Span → Prop} {chain chain' : Chain Span (List Node)} :
    ChainNarrows gone chain chain' → chainBare chain' = chainBare chain
  | .done => rfl
  | .otherwise hbody => by rw [chainBare, chainBare, hbody.bare_eq]
  | .arm hbody hrest => by rw [chainBare, chainBare, hbody.bare_eq, hrest.bare_eq]

end

end Node

/-! ## Tokens and what is left of them -/

namespace Token

variable {source : Text} {joined : Bool} {start stop : Nat} {first token : Token}
  {rest run taken tokens later left trimmed : List Token}

theorem Laid.within (h : Laid source joined start stop tokens) (htoken : token ∈ tokens) :
    start ≤ (token.range source).1 ∧ (token.range source).2 ≤ stop := by
  obtain ⟨s, t, rfl⟩ := List.append_of_mem htoken
  obtain ⟨mid, hs, ht⟩ := h.split
  exact ⟨Nat.le_trans hs.le ht.2.1, ht.2.2.2.le⟩

/-- Tokens are laid up to where the last one ends. -/
theorem Laid.to_last (h : Laid source joined start stop (first :: rest)) :
    Laid source joined start ((rest.getLastD first).range source).2 (first :: rest) := by
  induction rest generalizing first joined start with
  | nil => exact ⟨h.1, h.2.1, h.2.2.1, Nat.le_refl _⟩
  | cons second rest ih =>
    rw [List.getLastD_cons]
    exact ⟨h.1, h.2.1, h.2.2.1, ih h.2.2.2⟩

/-- Some of the tokens of a run cover less than all of them. -/
theorem Laid.covering_within {first' : Token} {rest' : List Token}
    (h : Laid source joined start stop (first :: rest))
    (hsublist : (first' :: rest').Sublist (first :: rest)) :
    (Span.covering source first' (rest'.getLastD first')).Within
      (.covering source first (rest.getLastD first)) := by
  have hbounds : ∀ token ∈ first :: rest,
      (first.range source).1 ≤ (token.range source).1 ∧
        (token.range source).1 ≤ (token.range source).2 ∧
        (token.range source).2 ≤ ((rest.getLastD first).range source).2 := by
    intro token htoken
    have hlaid : Laid source false (first.range source).1
        ((rest.getLastD first).range source).2 (first :: rest) :=
      ⟨h.1, Nat.le_refl _, by simp, h.to_last.2.2.2⟩
    obtain ⟨hstart, hstop⟩ := hlaid.within htoken
    exact ⟨hstart, (h.rests token htoken).range_le, hstop⟩
  obtain ⟨hfirst, hle, hle'⟩ := hbounds first' (hsublist.mem List.mem_cons_self)
  obtain ⟨-, -, hstop⟩ := hbounds _ (hsublist.mem List.getLastD_mem_cons)
  refine ⟨hfirst, Nat.le_max_right _ _, Nat.max_le.2 ⟨?_, ?_⟩⟩
  · exact Nat.le_trans hstop (Nat.le_max_left _ _)
  · exact Nat.le_trans (Nat.le_trans hle hle') (Nat.le_max_left _ _)

/-- The tokens to come are laid in the source and thinned to `trimmed`. Of all that is `left` by
trimming, the rest ends before them. -/
structure Aligned (source : Text) (left tokens trimmed : List Token) : Prop where
  thinned : Thinned false tokens trimmed
  laid : ∃ start stop, Laid source false start stop tokens ∧
    ∀ token ∈ left, token ∈ trimmed ∨ (token.range source).2 ≤ start

/-- What comes after a first part. -/
theorem Aligned.skip (h : Aligned source left (run ++ tokens) (taken ++ later))
    (htaken : taken.Sublist (run.map plain)) (hthinned : Thinned false tokens later) :
    Aligned source left tokens later := by
  obtain ⟨start, stop, hlaid, hleft⟩ := h.laid
  obtain ⟨mid, hrun, htokens⟩ := hlaid.split
  refine ⟨hthinned, mid, stop, htokens, fun token htoken => ?_⟩
  rcases hleft token htoken with hmem | hbefore
  · rcases List.mem_append.1 hmem with hmem | hmem
    · obtain ⟨scanned, hscanned, rfl⟩ := List.mem_map.1 (htaken.mem hmem)
      rw [range_plain]
      exact .inr (hrun.within hscanned).2
    · exact .inl hmem
  · exact .inr (Nat.le_trans hbefore hrun.le)

/-- A formed block comes first. -/
theorem Aligned.block {found : Block} (hfound : found.Formed)
    (h : Aligned source left (found.tokens ++ tokens) trimmed) :
    ∃ later, trimmed = found.plain.tokens ++ later ∧ Aligned source left tokens later := by
  obtain ⟨later, rfl, hthinned⟩ := h.thinned.block hfound
  refine ⟨later, rfl, h.skip ?_ hthinned⟩
  have hplain : found.tokens.map plain = found.plain.tokens := by
    have hlead := map_plain_text fun token htoken => (hfound.lead token htoken).1
    have hidentifier : found.identifier.plain = found.identifier :=
      plain_of_isText (by rw [hfound.identifier]; rfl)
    simp [Block.tokens, Block.plain, hlead, hidentifier, map_plain_text hfound.more]
  rw [hplain]

/-- A run of text tokens comes first. Either nothing of it is left, or what is left lies in it. -/
theorem Aligned.text (hrun : ∀ token ∈ first :: rest, token.kind.isText)
    (h : Aligned source left (first :: rest ++ tokens) trimmed) :
    ∃ taken later, trimmed = taken ++ later ∧ Aligned source left tokens later ∧
      ((taken = [] ∧ (Span.covering source first (rest.getLastD first)).Emptied source left) ∨
        ∃ first' rest', taken = first' :: rest' ∧ (∀ token ∈ taken, token.kind.isText) ∧
          (Span.covering source first' (rest'.getLastD first')).Within
            (.covering source first (rest.getLastD first))) := by
  obtain ⟨taken, later, rfl, hsublist, hthinned⟩ := h.thinned.exists_sublist hrun
  have htaken : taken.Sublist ((first :: rest).map plain) := by rwa [map_plain_text hrun]
  refine ⟨taken, later, rfl, h.skip htaken hthinned, ?_⟩
  obtain ⟨start, stop, hlaid, hleft⟩ := h.laid
  obtain ⟨mid, hlaid, htokens⟩ := hlaid.split
  cases taken with
  | nil =>
    obtain ⟨-, -, -, hstart, hstop⟩ := hlaid.exists_clear hrun
    refine .inl ⟨rfl, fun token htoken => ?_⟩
    rcases hleft token htoken with hmem | hbefore
    · obtain ⟨scanned, hscanned, rfl⟩ := List.mem_map.1 (hthinned.sublist.mem hmem)
      rw [range_plain]
      exact .inr (Nat.le_trans hstop (htokens.within hscanned).1)
    · exact .inl (Nat.le_trans hbefore hstart)
  | cons first' rest' =>
    exact .inr ⟨first', rest', rfl, fun token htoken => hrun token (hsublist.mem htoken),
      hlaid.covering_within hsublist⟩

/-- After the last token there is nothing left. -/
theorem Aligned.eq_nil (h : Aligned source left [] trimmed) : trimmed = [] := by
  have hsublist := h.thinned.sublist
  rwa [List.map_nil, List.sublist_nil] at hsublist

end Token

/-! ## Trees -/

theorem Block.Reads.plain {source : Text} {keyword : Option Keyword} {block : Block}
    (h : block.Reads source keyword) : block.plain.Reads source keyword :=
  ⟨h.1.plain, h.2⟩

/-- The tokens derive a phrase that narrows this one. If no text comes right before this one, none
comes before the other. -/
def Phrase.Narrowed (source : Text) (limit : Nat) (gone : Span → Prop) (tokens : List Token) :
    Phrase → Prop
  | .body depth previous nodes =>
    ∀ previous' : Option Span, (previous = none → previous' = none) →
      ∃ nodes', Node.AllNarrows gone nodes nodes' ∧
        Derives source limit (.body depth previous' nodes') tokens
  | .statement depth _ node =>
    ∀ previous' : Option Span, ∃ node', Node.Narrows gone node node' ∧
      Derives source limit (.statement depth previous' node') tokens
  | .arms depth chain =>
    ∃ chain', Node.ChainNarrows gone chain chain' ∧ Derives source limit (.arms depth chain') tokens

variable {source : Text} {limit : Nat} {phrase : Phrase} {left tokens : List Token}

/-- What is left of the tokens of a phrase derives a phrase that narrows it. -/
theorem Derives.narrowed (h : Derives source limit phrase tokens) {later trimmed : List Token}
    (haligned : Token.Aligned source left (tokens ++ later) trimmed) :
    ∃ tokens' rest, trimmed = tokens' ++ rest ∧ Token.Aligned source left later rest ∧
      phrase.Narrowed source limit (Span.Emptied source left) tokens' := by
  induction h generalizing later trimmed with
  | nothing => exact ⟨[], trimmed, rfl, haligned, fun previous' _ => ⟨[], .nil, .nothing⟩⟩
  | text hrun _ ih =>
    rw [List.append_assoc] at haligned
    obtain ⟨taken, _, rfl, htokens, hspan⟩ := haligned.text hrun
    obtain ⟨tokens', rest, rfl, hlater, hnodes⟩ := ih htokens
    refine ⟨taken ++ tokens', rest, (List.append_assoc _ _ _).symm, hlater,
      fun previous' hprevious => ?_⟩
    obtain rfl := hprevious rfl
    rcases hspan with ⟨rfl, hgone⟩ | ⟨first', rest', rfl, htext, hwithin⟩
    · obtain ⟨nodes', hnarrows, hderives⟩ := hnodes none nofun
      exact ⟨nodes', .gone hgone hnarrows, hderives⟩
    · obtain ⟨nodes', hnarrows, hderives⟩ := hnodes (some _) nofun
      exact ⟨_, .cons (.text hwithin) hnarrows, .text htext hderives⟩
  | statement _ _ ih ih' =>
    rw [List.append_assoc] at haligned
    obtain ⟨tokens', _, rfl, hrest, hnode⟩ := ih haligned
    obtain ⟨later', rest, rfl, hlater, hnodes⟩ := ih' hrest
    refine ⟨tokens' ++ later', rest, (List.append_assoc _ _ _).symm, hlater, fun previous' _ => ?_⟩
    obtain ⟨node', hnarrows, hderives⟩ := hnode previous'
    obtain ⟨nodes', hnarrows', hderives'⟩ := hnodes none fun _ => rfl
    exact ⟨node' :: nodes', .cons hnarrows hnarrows', .statement hderives hderives'⟩
  | output hreads =>
    obtain ⟨rest, rfl, hlater⟩ := haligned.block hreads.1
    exact ⟨_, rest, rfl, hlater, fun previous' => ⟨_, .output, .output hreads.plain⟩⟩
  | declare hreads hbare =>
    obtain ⟨rest, rfl, hlater⟩ := haligned.block hreads.1
    refine ⟨_, rest, rfl, hlater, fun previous' => ⟨_, .declare, ?_⟩⟩
    rw [← Block.remainder_plain]
    exact .declare hreads.plain hbare
  | call hreads hbare hcall =>
    obtain ⟨rest, rfl, hlater⟩ := haligned.block hreads.1
    rw [← Block.remainder_plain] at hcall
    exact ⟨_, rest, rfl, hlater, fun previous' => ⟨_, .call, .call hreads.plain hbare hcall⟩⟩
  | jump hreads hbare =>
    obtain ⟨rest, rfl, hlater⟩ := haligned.block hreads.1
    exact ⟨_, rest, rfl, hlater, fun previous' => ⟨_, .jump, .jump hreads.plain hbare⟩⟩
  | @branch _ _ block _ _ _ _ hreads hbare hdepth _ _ ih ih' =>
    rw [List.append_assoc, List.append_assoc] at haligned
    obtain ⟨_, rfl, htokens⟩ := haligned.block hreads.1
    obtain ⟨tokens', _, rfl, harms, hbody⟩ := ih htokens
    obtain ⟨later', rest, rfl, hlater, chain', hchain, hderives'⟩ := ih' harms
    refine ⟨block.plain.tokens ++ tokens' ++ later', rest, by simp only [List.append_assoc], hlater,
      fun previous' => ?_⟩
    obtain ⟨nodes', hnarrows, hderives⟩ := hbody none fun _ => rfl
    refine ⟨_, .branch hnarrows hchain, ?_⟩
    rw [← Block.remainder_plain]
    exact .branch hreads.plain hbare hdepth hderives hderives'
  | @loop _ _ _ block last _ _ hreads hbare hdepth _ hlast hlastBare ih =>
    rw [List.append_assoc, List.append_assoc] at haligned
    obtain ⟨_, rfl, htokens⟩ := haligned.block hreads.1
    obtain ⟨tokens', _, rfl, hend, hbody⟩ := ih htokens
    obtain ⟨rest, rfl, hlater⟩ := hend.block hlast.1
    refine ⟨block.plain.tokens ++ tokens' ++ last.plain.tokens, rest,
      by simp only [List.append_assoc], hlater, fun previous' => ?_⟩
    obtain ⟨nodes', hnarrows, hderives⟩ := hbody none fun _ => rfl
    refine ⟨_, .loop hnarrows, ?_⟩
    rw [← Block.remainder_plain]
    exact .loop hreads.plain hbare hdepth hderives hlast.plain hlastBare
  | done hlast hlastBare =>
    obtain ⟨rest, rfl, hlater⟩ := haligned.block hlast.1
    exact ⟨_, rest, rfl, hlater, _, .done, .done hlast.plain hlastBare⟩
  | @otherwise _ block last _ _ hreads hbare _ hlast hlastBare ih =>
    rw [List.append_assoc, List.append_assoc] at haligned
    obtain ⟨_, rfl, htokens⟩ := haligned.block hreads.1
    obtain ⟨tokens', _, rfl, hend, hbody⟩ := ih htokens
    obtain ⟨rest, rfl, hlater⟩ := hend.block hlast.1
    obtain ⟨nodes', hnarrows, hderives⟩ := hbody none fun _ => rfl
    exact ⟨block.plain.tokens ++ tokens' ++ last.plain.tokens, rest,
      by simp only [List.append_assoc], hlater, _,
      .otherwise hnarrows, .otherwise hreads.plain hbare hderives hlast.plain hlastBare⟩
  | @arm _ block _ _ _ _ hreads hbare _ _ ih ih' =>
    rw [List.append_assoc, List.append_assoc] at haligned
    obtain ⟨_, rfl, htokens⟩ := haligned.block hreads.1
    obtain ⟨tokens', _, rfl, harms, hbody⟩ := ih htokens
    obtain ⟨later', rest, rfl, hlater, chain', hchain, hderives'⟩ := ih' harms
    obtain ⟨nodes', hnarrows, hderives⟩ := hbody none fun _ => rfl
    refine ⟨block.plain.tokens ++ tokens' ++ later', rest, by simp only [List.append_assoc],
      hlater, _,
      .arm hnarrows hchain, ?_⟩
    rw [← Block.remainder_plain]
    exact .arm hreads.plain hbare hderives hderives'

namespace Node

variable {nodes : List Node} {error : ParseError}

/-- A template that is read is read when it is trimmed. -/
theorem exists_parse_trim (h : parse source limit (Token.scan source) = .ok nodes) :
    ∃ trimmed, parse source limit (Token.trim (Token.scan source)) = .ok trimmed ∧
      AllNarrows (Span.Emptied source (Token.trim (Token.scan source))) nodes trimmed := by
  obtain ⟨tokens, hscan, hlaid⟩ := Token.exists_laid_scan source
  rw [hscan, Token.trim_concat_eof]
  rw [hscan, parse_concat_eof] at h
  -- The grammar sees the tokens before the end of file, which are all of them.
  have hkept : ∀ {tokens : List Token}, (∀ token ∈ tokens, token.kind ≠ .eof) →
      tokens.takeWhile (·.kind ≠ .eof) = tokens := by
    intro tokens heof
    exact List.takeWhile_eq_self_iff.2 (by simpa using heof)
  have hderives := derives_of_parse h
  rw [hkept hlaid.ne_eof] at hderives
  have haligned : Token.Aligned source (Token.trim tokens ++ [.eof]) (tokens ++ [])
      (Token.trim tokens) := by
    rw [List.append_nil]
    refine ⟨Token.thinned_trim hlaid.ne_eof, 0, _, hlaid, fun token htoken => ?_⟩
    rcases List.mem_append.1 htoken with hmem | hmem
    · exact .inl hmem
    · rw [List.mem_singleton.1 hmem, Token.range, if_pos (.inl rfl)]
      exact .inr (Nat.le_refl 0)
  obtain ⟨tokens', rest, htrim, hrest, hnodes⟩ := hderives.narrowed haligned
  obtain ⟨trimmed, hnarrows, hderives⟩ := hnodes none fun _ => rfl
  rw [hrest.eq_nil, List.append_nil] at htrim
  refine ⟨trimmed, ?_, hnarrows⟩
  rw [parse_concat_eof]
  refine parse_of_derives ?_
  rwa [hkept hlaid.trim.ne_eof, htrim]

/-- A template that is refused is refused when it is trimmed. -/
theorem parse_trim_error (h : parse source limit (Token.scan source) = .error error) :
    parse source limit (Token.trim (Token.scan source)) = .error error.plain := by
  obtain ⟨tokens, hscan, hlaid⟩ := Token.exists_laid_scan source
  rw [hscan, parse_concat_eof] at h
  rw [hscan, Token.trim_concat_eof, parse_concat_eof]
  exact (Token.thinned_trim hlaid.ne_eof).parse_error hlaid.ne_eof h

/-- What is refused when it is trimmed is refused as a whole. -/
theorem exists_parse_error
    (h : parse source limit (Token.trim (Token.scan source)) = .error error) :
    ∃ scanned, parse source limit (Token.scan source) = .error scanned ∧ error = scanned.plain := by
  cases hread : parse source limit (Token.scan source) with
  | ok nodes =>
    obtain ⟨trimmed, htrimmed, -⟩ := exists_parse_trim hread
    rw [htrimmed] at h
    cases h
  | error scanned =>
    rw [parse_trim_error hread] at h
    exact ⟨scanned, rfl, (Except.error.inj h).symm⟩

/-- A template and the trimmed template are both read or both refused. Their trees are the same
without literal text, and the literal text of the trimmed one lies in that of the whole one, of
which a part is missing only if trimming leaves no token in it. Their errors have the same reason
and stand at the same token, up to its trim marker. -/
theorem parse_trim (source : Text) (limit : Nat) :
    match parse source limit (Token.scan source),
      parse source limit (Token.trim (Token.scan source)) with
    | .ok nodes, .ok trimmed =>
      allBare trimmed = allBare nodes ∧
        AllNarrows (Span.Emptied source (Token.trim (Token.scan source))) nodes trimmed
    | .error error, .error trimmed =>
      trimmed.reason = error.reason ∧ trimmed.token = error.token.plain ∧
        trimmed.value = error.value
    | _, _ => False := by
  cases h : parse source limit (Token.scan source) with
  | ok nodes =>
    obtain ⟨trimmed, htrimmed, hnarrows⟩ := exists_parse_trim h
    rw [htrimmed]
    exact ⟨hnarrows.bare_eq, hnarrows⟩
  | error error =>
    rw [parse_trim_error h]
    exact ⟨rfl, rfl, rfl⟩

end Node

end Stencil
