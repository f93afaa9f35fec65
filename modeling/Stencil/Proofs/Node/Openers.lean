import Stencil.Proofs.Node.Spans
import Stencil.Proofs.Token.Margins

/-!
# What a call is opened with

The tree keeps the place of a name and not the delimiter before it. But nothing is missing in the
source between an enter and the name: from the name one comes back over white space, the keyword and
white space to the delimiter, and to no other text (`Span.OpenedBy.getLast_eq`).

* `Token.exists_run`: tokens that follow one another.
* `Block.Formed.exists_cover`: the tokens of a block, up to its exit.
* `Block.Reads.openedBy`: the delimiter of a call.
-/

namespace Stencil

open Text

namespace Token

variable {source : Text} {first : Token} {rest : List Token}

/-- Tokens that follow one another cover all that stands from the first to the last. -/
theorem exists_run (hrests : ∀ token ∈ first :: rest, token.Rests source)
    (h : (first :: rest).IsChain fun s t => (t.range source).1 = (s.range source).2) :
    ∃ before after, source = before ++ (first :: rest).flatMap (text source) ++ after ∧
      (first.range source).1 = bytes before ∧
      ((rest.getLastD first).range source).2
        = bytes before + bytes ((first :: rest).flatMap (text source)) := by
  induction rest generalizing first with
  | nil =>
    obtain ⟨before, after, hcovers, -⟩ := hrests first List.mem_cons_self
    rw [List.flatMap_cons, List.flatMap_nil, List.append_nil, List.getLastD_nil, hcovers.range_eq]
    exact ⟨before, after, hcovers.source_eq, rfl, rfl⟩
  | cons second rest ih =>
    rw [List.forall_mem_cons] at hrests
    rw [List.isChain_cons_cons] at h
    obtain ⟨before, after, hcovers, -⟩ := hrests.1
    obtain ⟨before', after', hsource, hstart, hstop⟩ := ih hrests.2 h.2
    have hjoined := h.1
    rw [hstart, hcovers.range_eq, ← bytes_append] at hjoined
    rw [List.append_assoc] at hsource
    obtain ⟨rfl, rfl⟩ := append_inj_of_bytes (hsource.symm.trans hcovers.source_eq) hjoined
    rw [List.flatMap_cons, List.getLastD_cons]
    refine ⟨before, after', by simpa only [List.append_assoc] using hsource,
      by rw [hcovers.range_eq], ?_⟩
    rw [hstop, bytes_append, bytes_append, Nat.add_assoc]

end Token

/-! ## Back from a name -/

namespace Span

variable {source before t after opener opener' : Text} {span name : Span} {arguments : List Span}

/-- Nothing but white space and the keyword stands between the opener and the name of a call. -/
def OpenedBy (source : Text) (name : Span) (opener : Text) : Prop :=
  ∃ before gap gap' after,
    source = before ++ opener ++ gap ++ Keyword.call.spelling.toList ++ gap' ++ after ∧
      (∀ c ∈ gap, isBlank c) ∧ (∀ c ∈ gap', isBlank c) ∧
      name.start = bytes (before ++ opener ++ gap ++ Keyword.call.spelling.toList ++ gap')

/-- What a call is opened with is found by going back from its name. -/
theorem OpenedBy.getLast_eq {c d : Char} (h : name.OpenedBy source opener)
    (h' : name.OpenedBy source opener') (hc : opener.getLast? = some c)
    (hd : opener'.getLast? = some d) (hcblank : ¬isBlank c) (hdblank : ¬isBlank d) : c = d := by
  obtain ⟨before, lead, gap, after, hsource, hlead, hgap, hstart⟩ := h
  obtain ⟨before', lead', gap', after', hsource', hlead', hgap', hstart'⟩ := h'
  have hword : ∀ s : Text, ∀ c ∈ (s ++ Keyword.call.spelling.toList).getLast?, ¬isBlank c := by
    intro s c hc
    obtain rfl : 'l' = c := by simpa [Keyword.spelling, List.getLast?_append] using hc
    decide
  have hlast : ∀ {s opener : Text} {c : Char}, opener.getLast? = some c → ¬isBlank c →
      ∀ d ∈ (s ++ opener).getLast?, ¬isBlank d := by
    intro s opener c hc hblank d hd
    rw [List.getLast?_append, hc] at hd
    cases hd
    exact hblank
  obtain ⟨hupTo, -⟩ := append_inj_of_bytes (hsource.symm.trans hsource') (hstart.symm.trans hstart')
  obtain ⟨hkeyword, -⟩ := run_inj_back hupTo hgap hgap' (hword _) (hword _)
  have hopener := List.append_cancel_right hkeyword
  obtain ⟨hopener, -⟩ := run_inj_back hopener hlead hlead' (hlast hc hcblank) (hlast hd hdblank)
  have hgetLast := congrArg List.getLast? hopener
  rw [List.getLast?_append, List.getLast?_append, hc, hd] at hgetLast
  exact Option.some.inj hgetLast

/-- Where a span starts without the blanks at its ends. -/
theorem Clear.start_trim (h : Clear source span before t after) (ht : ¬t.all isBlank) :
    (span.trim source).start = span.start + bytes (t.takeWhile isBlank) := by
  rw [Span.trim, h.text_eq, if_neg ht]

/-- The name of a call stands where the call does. -/
theorem Clear.start_call (h : Clear source span before t after) (ht : t.Tight)
    (hcall : span.IsCall source name arguments) : name.start = span.start := by
  obtain ⟨front, inner, hsplit, -, -, rfl, hname, -⟩ := hcall
  rw [h.text_eq] at hsplit
  subst hsplit
  obtain ⟨⟨_, _, hfront⟩, -⟩ := h.call_parts
  have hnot : ¬front.all isBlank := hfront.not_all_of_trim hname
  rw [hfront.start_trim hnot]
  cases front with
  | nil => exact absurd rfl hnot
  | cons c front =>
    have hc : ¬isBlank c := ht.2.1 c rfl
    rw [List.takeWhile_cons_of_neg hc, bytes_nil, Nat.add_zero]

end Span

/-! ## From an enter on -/

namespace Block

open Token

variable {source : Text} {block : Block} {name : Span} {arguments : List Span}

theorem tokens_eq_concat (block : Block) : block.tokens
    = (block.enter :: (block.lead ++ block.identifier :: block.more)) ++ [block.exit] := by
  simp [tokens]

/-- The tokens of a block up to its exit follow one another without a gap. -/
theorem Formed.isChain_inner (hformed : block.Formed)
    (h : block.tokens.IsChain (Neighbours source)) :
    (block.enter :: (block.lead ++ block.identifier :: block.more)).IsChain
      fun s t => (t.range source).1 = (s.range source).2 := by
  rw [tokens_eq_concat] at h
  refine h.left_of_append.imp_of_mem_tail_imp fun s t hs ht hneighbours => hneighbours.start ?_ ?_
  · exact fun henter => Kind.not_isText_of_isEnter henter (hformed.isText t ht)
  · intro hexit
    rcases List.mem_cons.1 hs with rfl | hs
    · exact absurd hexit (Kind.not_isExit_of_isEnter hformed.enter)
    · exact absurd hexit (Kind.not_isExit_of_isText (hformed.isText s hs))

variable {joined : Bool} {start stop : Nat} {second : Token} {rest : List Token}

/-- What a block with more than its identifier covers, and where the part after the identifier
starts. -/
theorem Formed.exists_cover (hformed : block.Formed) (hmore : block.more = second :: rest)
    (hlaid : Laid source joined start stop block.tokens)
    (hchain : block.tokens.IsChain (Neighbours source)) :
    ∃ before after,
      source = before ++ block.enter.text source ++ block.lead.flatMap (text source)
        ++ block.identifier.text source ++ block.more.flatMap (text source) ++ after ∧
      (second.range source).1 = bytes (before ++ block.enter.text source
        ++ block.lead.flatMap (text source) ++ block.identifier.text source) := by
  have hsplit : block.enter :: (block.lead ++ block.identifier :: block.more)
      = (block.enter :: (block.lead ++ [block.identifier])) ++ second :: rest := by
    simp [hmore]
  have hinner := hformed.isChain_inner hchain
  have hrests := hlaid.rests
  rw [hsplit] at hinner
  rw [tokens_eq_concat, hsplit, List.forall_mem_append, List.forall_mem_append] at hrests
  obtain ⟨hfirst, hsecond, hjoined⟩ := List.isChain_append.1 hinner
  obtain ⟨before, after, hsource, -, hstop⟩ := exists_run hrests.1.1 hfirst
  obtain ⟨before', after', hsource', hstart', -⟩ := exists_run hrests.1.2 hsecond
  have hstart := hjoined block.identifier (by simp [List.getLast?_cons]) second rfl
  rw [List.getLastD_concat] at hstop
  have htexts : (block.enter :: (block.lead ++ [block.identifier])).flatMap (text source)
      = block.enter.text source ++ block.lead.flatMap (text source)
        ++ block.identifier.text source := by
    simp [List.flatMap_append]
  rw [htexts] at hsource hstop
  -- The second part starts where the first one stops.
  have hbytes : bytes before' = bytes (before ++ (block.enter.text source
      ++ block.lead.flatMap (text source) ++ block.identifier.text source)) := by
    rw [← hstart', hstart, hstop, ← bytes_append]
  rw [List.append_assoc] at hsource'
  obtain ⟨rfl, -⟩ := append_inj_of_bytes (hsource'.symm.trans hsource) hbytes
  refine ⟨before, after', hsource'.trans ?_, hstart'.trans ?_⟩
  · simp only [hmore, List.append_assoc]
  · simp only [List.append_assoc]

/-- Where the part after the identifier starts without the blanks at its ends. -/
theorem Formed.start_remainder (hformed : block.Formed) (hmore : block.more = second :: rest)
    (hbare : ¬block.Bare) (hlaid : Laid source joined start stop block.tokens) :
    (block.remainder source).start = (second.range source).1
      + bytes ((block.more.flatMap (text source)).takeWhile isBlank) := by
  obtain ⟨_, _, -, htight, -⟩ := hformed.exists_remainder hbare hlaid
  have hsplit : block.tokens = (block.enter :: (block.lead ++ [block.identifier])) ++ block.more
      ++ [block.exit] := by
    simp [tokens]
  rw [hsplit] at hlaid
  obtain ⟨_, _, _, _, hmiddle⟩ := hlaid.middle
  have htext := hformed.more
  rw [hmore] at hmiddle htext htight ⊢
  obtain ⟨_, _, hclear, -⟩ := hmiddle.exists_clear htext
  rw [remainder, hmore]
  refine hclear.start_trim fun hall => htight.1 ?_
  exact trim_eq_nil (List.all_eq_true.1 hall)

/-- A call is opened with what its enter is written like. -/
theorem Reads.openedBy (hreads : block.Reads source (some .call)) (hbare : ¬block.Bare)
    (hcall : (block.remainder source).IsCall source name arguments)
    (hlaid : Laid source joined start stop block.tokens)
    (hchain : block.tokens.IsChain (Neighbours source)) :
    name.OpenedBy source (block.enter.text source) := by
  obtain ⟨hformed, hkeyword⟩ := hreads
  obtain ⟨raw, hmem, -⟩ : ∃ token ∈ block.more, token.kind = .raw := by simpa [Bare] using hbare
  obtain ⟨second, rest, hmore⟩ := List.exists_cons_of_ne_nil (List.ne_nil_of_mem hmem)
  obtain ⟨before, after, hsource, hsecond⟩ := hformed.exists_cover hmore hlaid hchain
  obtain ⟨_, _, hremainder, htight, -⟩ := hformed.exists_remainder hbare hlaid
  have hname := hremainder.start_call htight hcall
  rw [hformed.start_remainder hmore hbare hlaid, hsecond, ← bytes_append] at hname
  rw [show block.identifier.text source = Keyword.call.spelling.toList from
    Keyword.ofText?_eq_some_iff.1 (selects_iff.1 hkeyword)] at hsource hname
  generalize block.more.flatMap (text source) = more at hsource hname
  refine ⟨before, block.lead.flatMap (text source), more.takeWhile isBlank,
    more.dropWhile isBlank ++ after, hsource.trans ?_, ?_,
    List.all_eq_true.1 List.all_takeWhile, hname⟩
  · rw [← List.append_assoc (_ ++ more.takeWhile isBlank), List.append_assoc _ (more.takeWhile _),
      List.takeWhile_append_dropWhile]
  · intro c hc
    obtain ⟨token, htoken, hc⟩ := List.mem_flatMap.1 hc
    have hlead := hformed.lead token htoken
    exact (hlaid.rests token (by simp [tokens, htoken])).isBlank hlead.1 hlead.2 c hc

end Block

/-- A call that is opened with a trim marker has an enter that is written with one. -/
theorem Span.OpenedBy.opensTrimming {source : Text} {name : Span} {family family' : Family}
    {trims : Bool} {token : Token} (h : name.OpenedBy source (Kind.enter family true).literal)
    (htoken : token.text source = (Kind.enter family' trims).literal)
    (h' : name.OpenedBy source (token.text source)) : token.OpensTrimming source := by
  obtain ⟨c, hc, hcblank, hcdash⟩ := Kind.getLast?_literal_enter family' trims
  obtain ⟨d, hd, hdblank, hddash⟩ := Kind.getLast?_literal_enter family true
  rw [htoken] at h'
  obtain rfl : c = d := h'.getLast_eq h hc hd hcblank hdblank
  obtain rfl : trims = true := hcdash.1 (hddash.2 rfl)
  exact ⟨family', htoken⟩

end Stencil
