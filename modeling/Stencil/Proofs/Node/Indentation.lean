import Stencil.Proofs.Node.Openers
import Stencil.Proofs.Node.Source
import Stencil.Proofs.Token.Lines

/-!
# Calls and the lines that they stand on

A call captures blanks if they are all that stands on its line before it. The search for them goes
back to the last line feed of the untouched source, while the text before the call may have lost a
margin at either end. The two never disagree: where a blank is left, the source before it is as it
was, so a run that begins a line with a blank begins the source, and a run that a margin was taken
off does not end with a blank.

Every call comes with the text right before it in its body (`Node.EveryCall`), and every place where
a statement may stand comes right after an exit, or at the front, but for one run of text (`Site`).

* `Span.Clear.indentation?_eq_some_iff`: what the search finds.
* `Token.Trimmed.starts_line`, `Token.ends_blank`: the two ends of a run.
* `Site.capturesIndentation`: one call.
* `Derives.everyCall`: all calls of a phrase.
* `Template.compile_indentation`: all calls of a template.
-/

namespace Stencil

open Text

/-! ## What a search finds -/

namespace Text

variable {front line : Text}

theorem lastLine_of_line (hfront : ∀ c ∈ front.getLast?, c = '\n') (hline : '\n' ∉ line) :
    lastLine (front ++ line) = line := by
  have hempty : lastLine front = [] := by
    rcases front.eq_nil_or_concat' with rfl | ⟨s, c, rfl⟩
    · rfl
    · obtain rfl : c = '\n' := hfront c (by simp)
      exact lastLine_concat s
  rw [lastLine_append hline, hempty, List.nil_append]

end Text

namespace Span

variable {source before front indentation t after : Text} {span found : Span}

/-- The text of the span is `front` and then blanks that are all of their line: what is before them
ends a line, or nothing is before them in the source. -/
structure EndsIndented (source : Text) (span : Span) (front indentation : Text) : Prop where
  text_eq : span.text source = front ++ indentation
  nonempty : indentation ≠ []
  blank : ∀ c ∈ indentation, isBlank c
  inLine : '\n' ∉ indentation
  line : front.getLast? = some '\n' ∨ front = [] ∧ span.start = 0

/-- The blanks have the place that they are given by their size. -/
theorem Clear.text_indentation (h : Clear source span before t after)
    (hindented : span.EndsIndented source front indentation) :
    text source ⟨span.stop - bytes indentation, span.stop⟩ = indentation := by
  obtain ⟨rfl⟩ : t = front ++ indentation := h.text_eq.symm.trans hindented.text_eq
  have hstop := h.stop
  rw [bytes_append, ← h.start] at hstop
  have hsplit : front ++ indentation = front ++ indentation ++ [] := (List.append_nil _).symm
  exact (h.part hsplit (by omega) (by omega)).text_eq

/-- What is found at the end of a span is what the text of the span ends with, if a span that has
nothing but blanks does not stand at the front of a line by chance. -/
theorem Clear.indentation?_eq_some_iff (h : Clear source span before t after)
    (hline : (∀ c ∈ t, isBlank c) → '\n' ∉ t → before.getLast? ≠ some '\n') :
    span.indentation? source = some found ↔ ∃ front indentation,
      span.EndsIndented source front indentation ∧
        found = ⟨span.stop - bytes indentation, span.stop⟩ := by
  have htext := h.text_eq
  have hstart := h.start
  constructor
  · intro hfound
    obtain ⟨lead, line, rfl, hnonempty, hblank, hinLine, hends, rfl⟩ := h.exists_indentation hfound
    refine ⟨lead, line, ⟨htext, hnonempty, hblank, hinLine, ?_⟩, rfl⟩
    rcases lead.eq_nil_or_concat' with rfl | ⟨early, c, rfl⟩
    · rw [List.append_nil] at hends
      have hbefore : before = [] := by
        rw [← List.getLast?_eq_none_iff, Option.eq_none_iff_forall_ne_some]
        intro c hc
        obtain rfl := hends c hc
        exact hline hblank hinLine hc
      exact .inr ⟨rfl, by rw [hstart, hbefore, bytes_nil]⟩
    · obtain rfl : c = '\n' := hends c (by simp)
      exact .inl (by simp)
  · rintro ⟨front, indentation, hindented, rfl⟩
    obtain ⟨-, hnonempty, hblank, hinLine, hends⟩ := id hindented
    obtain ⟨rfl⟩ : t = front ++ indentation := htext.symm.trans hindented.text_eq
    have hlead : ∀ c ∈ (before ++ front).getLast?, c = '\n' := by
      rcases hends with hends | ⟨rfl, hzero⟩
      · simp [List.getLast?_append, hends]
      · have hbefore : before = [] := by
          by_contra hne
          have hpos := bytes_pos hne
          omega
        simp [hbefore]
    have htake : takeBytes? source span.stop = some (before ++ front ++ indentation) := by
      rw [h.source_eq, h.stop, ← bytes_append, ← List.append_assoc, takeBytes?_bytes_append]
    have hpos := bytes_pos hnonempty
    have hstop := h.stop
    rw [bytes_append] at hstop
    rw [indentation?, htake, Option.bind_some]
    simp only [lastLine_of_line hlead hinLine]
    exact if_pos ⟨by omega, by omega, List.all_eq_true.2 hblank⟩

end Span

/-! ## The ends of a run of text -/

namespace Token

variable {source : Text} {first token : Token} {rest front later tokens : List Token}

/-- A text token that ends with a blank and with no line feed is a run of blanks. -/
theorem Rests.kind_eq_blank (h : token.Rests source) (htext : token.kind.isText)
    (hlast : ∀ c ∈ (token.text source).getLast?, Text.isBlank c ∧ c ≠ '\n') :
    token.kind = .blank := by
  obtain ⟨before, after, hcovers, hfits⟩ := h
  have hfits := hfits htext
  rw [Piece.Fits, piece] at hfits
  obtain ⟨init, c, hc⟩ := (List.eq_nil_or_concat' (token.text source)).resolve_left hcovers.nonempty
  obtain ⟨hblank, hbreak⟩ := hlast c (by simp [hc])
  cases hkind : token.kind with
  | blank => rfl
  | newline =>
    rw [hkind] at hfits
    rcases hfits with htoken | htoken
    all_goals
      rw [show token.text source = _ from htoken] at hlast
      exact absurd rfl (hlast '\n' rfl).2
  | raw =>
    rw [hkind] at hfits
    exact absurd hblank (hfits.1 c (by simp [hc]))
  | eof | enter | exit => simp [hkind, Kind.isText] at htext

/-- A run of text that ends with a blank and with no line feed ends with a run of blanks. -/
theorem ends_blank (hrests : ∀ token ∈ first :: rest, token.Rests source)
    (htext : ∀ token ∈ first :: rest, token.kind.isText)
    (hlast : ∀ c ∈ ((first :: rest).flatMap (text source)).getLast?, Text.isBlank c ∧ c ≠ '\n') :
    ∃ last ∈ (first :: rest).getLast?, last.kind = .blank := by
  obtain ⟨init, last, hrun⟩ := (List.eq_nil_or_concat' (first :: rest)).resolve_left (by simp)
  rw [hrun] at hrests htext hlast ⊢
  refine ⟨last, by simp, (hrests last (by simp)).kind_eq_blank (htext last (by simp)) ?_⟩
  intro c hc
  apply hlast
  rw [List.flatMap_append, List.flatMap_singleton, List.getLast?_append, Option.mem_def.1 hc]
  rfl

/-- Before a run that begins with a blank, the source ends as the delimiter before the run does, or
there is nothing. -/
theorem Trimmed.starts_line (h : Trimmed source (front ++ first :: later))
    (hfront : ∀ token ∈ front.getLast?, token.kind.isExit) (hblank : first.kind = .blank)
    {before after : Text} (hsource : source = before ++ after)
    (hstart : (first.range source).1 = bytes before) : before.getLast? ≠ some '\n' := by
  rcases front.eq_nil_or_concat' with rfl | ⟨init, exit, rfl⟩
  · have hzero := h.head first rfl hblank
    have hbefore : before = [] := by
      by_contra hne
      have hpos := bytes_pos hne
      omega
    rw [hbefore]
    nofun
  · have hmem : exit ∈ init ++ [exit] ++ first :: later := by simp
    have hexit : exit.kind.isExit := hfront exit (by simp)
    have hneighbours : Neighbours source exit first :=
      (List.isChain_append.1 h.neighbours).2.2 exit (by simp) first rfl
    -- The blank is left, so it has stood after the exit from the first.
    have hjoined := hneighbours.start (by simp [hblank, Kind.isEnter]) fun _ => hblank
    obtain ⟨before', after', hcovers, -⟩ := h.laid.rests exit hmem
    rw [hstart, hcovers.range_eq, ← bytes_append] at hjoined
    obtain ⟨rfl, -⟩ := append_inj_of_bytes (hsource.symm.trans hcovers.source_eq) hjoined
    obtain ⟨family, trims, hliteral⟩ := h.exit exit hmem hexit
    rw [hliteral, List.getLast?_append, Kind.getLast?_literal_exit, Option.some_or]
    decide

end Token

/-! ## All calls of a tree -/

namespace Node

/-- The span of a text node. -/
def text? : Node → Option Span
  | text span => some span
  | _ => none

mutual

/-- In the node, `p` holds of every call: of the span of the text right before it in its body, if
the node there is a text, of the name of the call, and of the indentation that it captures. -/
def EveryCall (p : Option Span → Span → Option Span → Prop) (previous : Option Span) : Node → Prop
  | call name _ leading => p previous name leading
  | branch _ body rest => EveryCallIn p none body ∧ EveryCallInChain p rest
  | loop _ _ body => EveryCallIn p none body
  | _ => True

/-- The same for the nodes of a body, given the text before the first one. -/
def EveryCallIn (p : Option Span → Span → Option Span → Prop) (previous : Option Span) :
    List Node → Prop
  | [] => True
  | node :: nodes => EveryCall p previous node ∧ EveryCallIn p node.text? nodes

/-- The same for all bodies of a chain. -/
def EveryCallInChain (p : Option Span → Span → Option Span → Prop) :
    Chain Span (List Node) → Prop
  | .done => True
  | .otherwise body => EveryCallIn p none body
  | .arm _ body rest => EveryCallIn p none body ∧ EveryCallInChain p rest

end

/-- A call captures the indentation that the text right before it ends with, and nothing if there is
none. It is opened with one of the enters, and nothing is captured if that has a trim marker. -/
structure CapturesIndentation (source : Text) (previous : Option Span) (name : Span)
    (leading : Option Span) : Prop where
  isSome_iff : leading.isSome ↔ ∃ text front indentation,
    previous = some text ∧ text.EndsIndented source front indentation
  eq : ∀ found ∈ leading, ∀ text front indentation,
    previous = some text → text.EndsIndented source front indentation →
      found.text source = indentation ∧ found.stop = text.stop
  opened : ∃ family trims, name.OpenedBy source (Kind.enter family trims).literal
  trimmed : ∀ family, name.OpenedBy source (Kind.enter family true).literal → leading = none

end Node

open Token

variable {source lead indentation : Text} {front later tokens : List Token} {block : Block}
  {previous : Option Span} {span name : Span} {arguments : List Span} {limit : Nat}
  {phrase : Phrase}

/-- What stands before a statement, given the text right before it in its body. Before that there is
an exit or nothing. -/
def Site (source : Text) (front : List Token) : Option Span → Prop
  | none => ∀ token ∈ front.getLast?, token.kind.isExit
  | some span => ∃ before first rest, front = before ++ first :: rest ∧
      (∀ token ∈ before.getLast?, token.kind.isExit) ∧
      (∀ token ∈ first :: rest, token.kind.isText) ∧
      span = .covering source first (rest.getLastD first)

/-- The text before a statement, with what is needed of its two ends. -/
theorem Site.exists_clear (hsite : Site source front (some span))
    (h : Trimmed source (front ++ later)) :
    ∃ before t after, Span.Clear source span before t after ∧
      ((∀ c ∈ t, isBlank c) → '\n' ∉ t → before.getLast? ≠ some '\n') ∧
      ((∀ c ∈ t.getLast?, isBlank c ∧ c ≠ '\n') → ∃ last ∈ front.getLast?, last.kind = .blank) := by
  obtain ⟨early, first, rest, rfl, hearly, htext, rfl⟩ := hsite
  obtain ⟨_, _, _, _, hlaid⟩ := h.laid.middle
  obtain ⟨before, after, hclear, -⟩ := hlaid.exists_clear htext
  have hrests := hlaid.rests
  refine ⟨before, _, after, hclear, fun hblank hinLine => ?_, fun hlast => ?_⟩
  · have hfirst : first.kind = .blank := by
      apply (hrests first List.mem_cons_self).kind_eq_blank (htext first List.mem_cons_self)
      intro c hc
      have hmem : c ∈ (first :: rest).flatMap (text source) :=
        List.mem_flatMap.2 ⟨first, List.mem_cons_self, List.mem_of_getLast? hc⟩
      exact ⟨hblank c hmem, fun hbreak => hinLine (hbreak ▸ hmem)⟩
    rw [List.append_assoc, List.cons_append] at h
    have hsource := hclear.source_eq
    rw [List.append_assoc] at hsource
    exact h.starts_line hearly hfirst hsource hclear.start
  · obtain ⟨last, hmem, hkind⟩ := ends_blank hrests htext hlast
    refine ⟨last, ?_, hkind⟩
    rw [List.getLast?_append, Option.mem_def.1 hmem]
    rfl

/-- What is found before a statement. -/
theorem Site.indentation?_eq_some_iff (hsite : Site source front previous)
    (h : Trimmed source (front ++ later)) (found : Span) :
    previous.bind (Span.indentation? source) = some found ↔ ∃ text lead indentation,
      previous = some text ∧ text.EndsIndented source lead indentation ∧
        found = ⟨text.stop - bytes indentation, text.stop⟩ := by
  cases previous with
  | none => simp
  | some text =>
    obtain ⟨before, t, after, hclear, hline, -⟩ := hsite.exists_clear h
    rw [Option.bind_some, hclear.indentation?_eq_some_iff hline]
    constructor
    · rintro ⟨lead, indentation, hindented, hfound⟩
      exact ⟨text, lead, indentation, rfl, hindented, hfound⟩
    · rintro ⟨_, lead, indentation, ⟨⟩, hindented, hfound⟩
      exact ⟨lead, indentation, hindented, hfound⟩

/-- Where there is an indentation before a statement, it has the place that is found, and the last
token before the statement is a blank. -/
theorem Site.of_endsIndented (hsite : Site source front (some span))
    (h : Trimmed source (front ++ later)) (hindented : span.EndsIndented source lead indentation) :
    Span.text source ⟨span.stop - bytes indentation, span.stop⟩ = indentation ∧
      ∃ last ∈ front.getLast?, last.kind = .blank := by
  obtain ⟨before, t, after, hclear, -, hlast⟩ := hsite.exists_clear h
  refine ⟨hclear.text_indentation hindented, hlast fun c hc => ?_⟩
  obtain ⟨rfl⟩ : t = lead ++ indentation := hclear.text_eq.symm.trans hindented.text_eq
  rw [List.getLast?_append_of_ne_nil _ hindented.nonempty] at hc
  have hmem := List.mem_of_getLast? hc
  exact ⟨hindented.blank c hmem, fun hbreak => hindented.inLine (hbreak ▸ hmem)⟩

/-- An enter that has had a trim marker does not follow a blank. -/
theorem Token.Trimmed.ne_blank (h : Trimmed source (front ++ (block.tokens ++ later)))
    (hformed : block.Formed) (hopens : block.enter.OpensTrimming source) :
    ∀ last ∈ front.getLast?, last.kind ≠ .blank := by
  intro last hlast
  have hneighbours : Neighbours source last block.enter :=
    (List.isChain_append.1 h.neighbours).2.2 last hlast block.enter rfl
  exact hneighbours.margin hformed.enter (h.plain _ (by simp [Block.tokens])) hopens

/-- What a call captures at its place. -/
theorem Site.capturesIndentation (hsite : Site source front previous)
    (h : Trimmed source (front ++ (block.tokens ++ later)))
    (hreads : block.Reads source (some .call)) (hbare : ¬block.Bare)
    (hcall : (block.remainder source).IsCall source name arguments) :
    Node.CapturesIndentation source previous name
      (previous.bind (Span.indentation? source)) := by
  have hiff := hsite.indentation?_eq_some_iff h
  have hopened : name.OpenedBy source (block.enter.text source) := by
    obtain ⟨_, _, _, _, hlaid⟩ := (List.append_assoc _ _ _ ▸ h.laid).middle
    exact hreads.openedBy hbare hcall hlaid h.neighbours.right_of_append.left_of_append
  obtain ⟨family, trims, hliteral⟩ := h.enter block.enter (by simp [Block.tokens]) hreads.1.enter
  refine ⟨?_, ?_, ⟨family, trims, hliteral ▸ hopened⟩, fun family' hfamily => ?_⟩
  · rw [Option.isSome_iff_exists]
    constructor
    · rintro ⟨found, hfound⟩
      obtain ⟨text, lead, indentation, hprevious, hindented, -⟩ := (hiff found).1 hfound
      exact ⟨text, lead, indentation, hprevious, hindented⟩
    · rintro ⟨text, lead, indentation, hprevious, hindented⟩
      exact ⟨_, (hiff _).2 ⟨text, lead, indentation, hprevious, hindented, rfl⟩⟩
  · rintro found hfound text lead indentation rfl hindented
    have hsame := (hiff _).2 ⟨text, lead, indentation, rfl, hindented, rfl⟩
    obtain rfl := Option.some.inj (hsame.symm.trans hfound)
    exact ⟨(hsite.of_endsIndented h hindented).1, rfl⟩
  · rw [Option.eq_none_iff_forall_ne_some]
    intro found hfound
    obtain ⟨text, lead, indentation, rfl, hindented, -⟩ := (hiff found).1 hfound
    obtain ⟨last, hlast, hblank⟩ := (hsite.of_endsIndented h hindented).2
    have hopens := hfamily.opensTrimming hliteral hopened
    exact h.ne_blank hreads.1 hopens last hlast hblank

/-- Where the statements of a phrase stand. The arms of a branching begin with a block, whatever
comes before. -/
def Phrase.Site (source : Text) (front : List Token) : Phrase → Prop
  | .body _ previous _ => Stencil.Site source front previous
  | .statement _ previous _ => Stencil.Site source front previous
  | .arms _ _ => True

/-- Of every call in what a phrase derives, `p` holds. -/
def Phrase.EveryCall (p : Option Span → Span → Option Span → Prop) : Phrase → Prop
  | .body _ previous nodes => Node.EveryCallIn p previous nodes
  | .statement _ previous node => node.EveryCall p previous
  | .arms _ chain => Node.EveryCallInChain p chain

theorem Block.Formed.site (hformed : block.Formed) (source : Text) (front : List Token) :
    Site source (front ++ block.tokens) none := by
  intro token htoken
  rw [Block.tokens_eq_concat, ← List.append_assoc, List.getLast?_concat] at htoken
  obtain rfl : block.exit = token := Option.some.inj htoken
  exact hformed.exit

/-- Statements and arms end with an exit. -/
theorem Derives.site (h : Derives source limit phrase tokens)
    (hphrase : ∀ depth previous nodes, phrase ≠ .body depth previous nodes) (front : List Token) :
    Site source (front ++ tokens) none := by
  induction h generalizing front with
  | nothing => exact absurd rfl (hphrase _ _ _)
  | text => exact absurd rfl (hphrase _ _ _)
  | statement => exact absurd rfl (hphrase _ _ _)
  | output hreads => exact hreads.1.site source front
  | declare hreads => exact hreads.1.site source front
  | call hreads => exact hreads.1.site source front
  | jump hreads => exact hreads.1.site source front
  | branch _ _ _ _ _ _ ih =>
    rw [← List.append_assoc]
    exact ih nofun _
  | loop _ _ _ _ hlast =>
    rw [← List.append_assoc]
    exact hlast.1.site source _
  | done hlast => exact hlast.1.site source front
  | otherwise _ _ _ hlast =>
    rw [← List.append_assoc]
    exact hlast.1.site source _
  | arm _ _ _ _ _ ih =>
    rw [← List.append_assoc]
    exact ih nofun _

theorem Derives.text?_eq_none {depth : Nat} {node : Node}
    (h : Derives source limit (.statement depth previous node) tokens) : node.text? = none := by
  cases h <;> rfl

/-- Every call of a phrase captures its indentation. -/
theorem Derives.everyCall (h : Derives source limit phrase tokens)
    (htrimmed : Trimmed source (front ++ (tokens ++ later))) (hsite : phrase.Site source front) :
    phrase.EveryCall (Node.CapturesIndentation source) := by
  induction h generalizing front later with
  | nothing => trivial
  | @text depth first rest tokens nodes hrun _ ih =>
    have hnext : Stencil.Site source (front ++ first :: rest)
        (some (.covering source first (rest.getLastD first))) :=
      ⟨front, first, rest, rfl, hsite, hrun, rfl⟩
    exact ⟨trivial, ih (by simpa using htrimmed) hnext⟩
  | statement hfirst _ ih ih' =>
    have hnext := hfirst.site nofun front
    refine ⟨ih (List.append_assoc _ _ _ ▸ htrimmed) hsite, ?_⟩
    rw [hfirst.text?_eq_none]
    exact ih' (by simpa using htrimmed) hnext
  | output => trivial
  | declare => trivial
  | call hreads hbare hcall => exact hsite.capturesIndentation htrimmed hreads hbare hcall
  | jump => trivial
  | @branch _ _ block _ _ body arms hreads _ _ _ _ ih ih' =>
    have harms : Trimmed source ((front ++ (block.tokens ++ body)) ++ (arms ++ later)) := by
      simpa using htrimmed
    exact ⟨ih (by simpa using htrimmed) (hreads.1.site source front), ih' harms trivial⟩
  | loop hreads _ _ _ _ _ ih => exact ih (by simpa using htrimmed) (hreads.1.site source front)
  | done => trivial
  | otherwise hreads _ _ _ _ ih => exact ih (by simpa using htrimmed) (hreads.1.site source front)
  | @arm _ block _ _ body arms hreads _ _ _ ih ih' =>
    have harms : Trimmed source ((front ++ (block.tokens ++ body)) ++ (arms ++ later)) := by
      simpa using htrimmed
    exact ⟨ih (by simpa using htrimmed) (hreads.1.site source front), ih' harms trivial⟩

namespace Template

/-- Every call of a compiled template, in whatever body, captures the blanks before it if the text
right before it ends with them and they are all of their line, and nothing otherwise; and nothing if
it is opened with a trim marker. -/
theorem compile_indentation {maxDepth : Nat} {template : Template}
    (h : compile maxDepth source = .ok template) :
    Node.EveryCallIn (Node.CapturesIndentation source) none template.nodes := by
  obtain ⟨tokens, htokens, htrimmed⟩ := exists_trimmed source
  have hderives := derives_of_compile h htokens htrimmed.laid.ne_eof
  have hsite : (Phrase.body 0 none template.nodes).Site source [] := by simp [Phrase.Site, Site]
  have hwhole : Trimmed source ([] ++ (tokens ++ [])) := by rwa [List.append_nil]
  exact hderives.everyCall hwhole hsite

/-- A call at the front, one on a line that a margin was taken before, one that takes the margin,
and one that does not begin its line. -/
theorem compile_indentation_margins :
    let source := "\t\x7b% call f() -%\x7d \n\n  \x7b% call g() %\x7d".toList
      ++ "\n \x7b\x7b- call h() \x7d\x7d, \x7b% call i() %\x7d".toList
    ∃ template, compile 8 source = .ok template ∧
      (Node.allLeaves template.nodes).map (fun leaf => (leaf.role, leaf.span.text source))
        = [(.text, ['\t']), (.indentation, ['\t']), (.code, ['f']), (.text, "\n  ".toList),
          (.indentation, "  ".toList), (.code, ['g']), (.code, ['h']), (.text, ", ".toList),
          (.code, ['i'])] ∧
      Node.EveryCallIn (Node.CapturesIndentation source) none template.nodes := by
  intro source
  have hleaves : (compile 8 source).toOption.map (fun template =>
        (Node.allLeaves template.nodes).map (fun leaf => (leaf.role, leaf.span.text source)))
      = some [(.text, ['\t']), (.indentation, ['\t']), (.code, ['f']), (.text, "\n  ".toList),
          (.indentation, "  ".toList), (.code, ['g']), (.code, ['h']), (.text, ", ".toList),
          (.code, ['i'])] := by decide +kernel
  cases htemplate : compile 8 source with
  | ok template =>
    rw [htemplate] at hleaves
    exact ⟨template, rfl, Option.some.inj hleaves, compile_indentation htemplate⟩
  | error error =>
    rw [htemplate] at hleaves
    cases hleaves

end Template

end Stencil
