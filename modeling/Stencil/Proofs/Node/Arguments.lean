import Stencil.Proofs.Expr.Closed
import Stencil.Proofs.Node.Spans
import Stencil.Template

/-!
# Arguments of calls

A call is taken apart at its parentheses and commas before any of its arguments is read, and the
arguments are read as expressions later, from the text that was found for them. Both agree on where
an argument ends. Whatever expressions are written in a call, with strings, brackets and commas in
them, are the arguments that are found.

* `Span.Clear.exists_isCall`: the spans of name and arguments.
* `Block.exists_scan_directive`: the block that a template of one directive is.

Main statement: `Template.compile_call`.
-/

namespace Stencil

open Text

/-! ## The text of a call -/

namespace Text

variable {name part t : Text} {parts ts : List Text} {excluded : Char → Prop}

/-- A call as it is written, with a blank after every comma. -/
def call (name : Text) (arguments : List Text) : Text :=
  name ++ '(' :: (joinWith [',', ' '] arguments ++ [')'])

theorem call_eq_concat (name : Text) (arguments : List Text) :
    call name arguments = (name ++ '(' :: joinWith [',', ' '] arguments) ++ [')'] := by
  rw [call, List.append_assoc, List.cons_append]

/-- A call neither starts nor ends with a blank, so the blanks around it are not part of it. -/
theorem trim_call (hname : name ≠ []) (hchars : ∀ c ∈ name, ¬isBlank c) (arguments : List Text) :
    trim ([' '] ++ (call name arguments ++ [' '])) = call name arguments := by
  have hblank : ∀ c ∈ [' '], isBlank c := List.forall_mem_singleton.2 rfl
  apply trim_append hblank hblank
  · obtain ⟨c, name, rfl⟩ := List.exists_cons_of_ne_nil hname
    rintro d ⟨⟩
    exact hchars c List.mem_cons_self
  · rw [call_eq_concat, List.reverse_concat]
    rintro d ⟨⟩
    decide

/-- What stands between the commas of a call. -/
def spaced : List Text → List Text
  | [] => [[]]
  | t :: ts => t :: ts.map (' ' :: ·)

theorem spaced_ne_nil (ts : List Text) : spaced ts ≠ [] := by
  cases ts <;> exact List.cons_ne_nil _ _

/-- The blanks after the commas may be counted among the parts. -/
theorem joinWith_spaced (ts : List Text) :
    joinWith [','] (spaced ts) = joinWith [',', ' '] ts := by
  cases ts with
  | nil => rfl
  | cons t ts =>
    rw [spaced]
    induction ts generalizing t with
    | nil => rfl
    | cons next ts ih =>
      have hnext : joinWith [',', ' '] ((' ' :: next) :: ts)
          = ' ' :: joinWith [',', ' '] (next :: ts) := by cases ts <;> rfl
      rw [List.map_cons, joinWith_cons_cons, ih, hnext, joinWith_cons_cons]
      rfl

theorem closed_blank (h : ¬excluded ' ') : Closed excluded [' '] := .plain (by decide) h .nil

theorem closed_spaced (h : ∀ t ∈ ts, Closed IsSeparator t) :
    ∀ part ∈ spaced ts, Closed IsSeparator part := by
  intro part hpart
  cases ts with
  | nil =>
    obtain rfl := List.mem_singleton.1 hpart
    exact .nil
  | cons t ts =>
    rw [List.forall_mem_cons] at h
    rcases List.mem_cons.1 hpart with rfl | hpart
    · exact h.1
    · obtain ⟨next, hnext, rfl⟩ := List.mem_map.1 hpart
      exact (closed_blank (by decide)).append (h.2 next hnext)

/-- Without the blanks at the ends the parts are the arguments, and only the part that a call
without arguments has is blank. -/
theorem map_trim_spaced (h : ∀ t ∈ ts, ¬t.all isBlank) :
    ((spaced ts).filter (!·.all isBlank)).map trim = ts.map trim := by
  cases ts with
  | nil => rfl
  | cons t ts =>
    have hblank : isBlank ' ' := by decide
    have hall : ∀ part ∈ spaced (t :: ts), !part.all isBlank := by
      rw [List.forall_mem_cons] at h
      refine List.forall_mem_cons.2 ⟨by simpa using h.1, fun part hpart => ?_⟩
      obtain ⟨next, hnext, rfl⟩ := List.mem_map.1 hpart
      rw [List.all_cons, hblank, Bool.true_and]
      simpa using h.2 next hnext
    rw [List.filter_eq_self.2 hall, spaced, List.map_cons, List.map_cons, List.map_map]
    exact congrArg (trim t :: ·) (List.map_congr_left fun next _ => trim_blank_cons hblank next)

end Text

/-! ## The spans of a call -/

/-- Where a call is written, with a name that has no parenthesis and no blank in it and with closed
arguments, the name and these arguments are what is found. -/
theorem Span.Clear.exists_isCall {source before after name : Text} {span : Span} {ts : List Text}
    (h : Clear source span before (call name ts) after) (hname : name ≠ [])
    (hchars : ∀ c ∈ name, c ≠ '(' ∧ ¬isBlank c)
    (hts : ∀ t ∈ ts, Closed IsSeparator t ∧ ¬t.all isBlank) :
    ∃ (nameSpan : Span) (arguments : List Span), span.IsCall source nameSpan arguments ∧
      nameSpan.text source = name ∧ arguments.map (text source) = ts.map Text.trim := by
  have hclosed : ∀ t ∈ ts, Closed IsSeparator t := fun t ht => (hts t ht).1
  obtain ⟨⟨_, _, hfront⟩, ⟨_, _, hinner⟩⟩ := h.call_parts
  have hall : ¬name.all isBlank := by
    obtain ⟨c, name, rfl⟩ := List.exists_cons_of_ne_nil hname
    intro hall
    exact (hchars c List.mem_cons_self).2 (List.all_eq_true.1 hall c List.mem_cons_self)
  -- The arguments are closed, so neither the end of the call nor a comma is taken from within.
  have hcloses : (Nesting.outside 1).Closes (joinWith [',', ' '] ts) := by
    have hseparator : Closed (fun _ => False) [',', ' '] :=
      .plain (by decide) id (.plain (by decide) id .nil)
    exact (closed_joinWith hseparator fun t ht =>
      (hclosed t ht).mono fun _ hfalse => hfalse.elim).closes
  have hsplit : Nesting.split ',' (joinWith [',', ' '] ts) = spaced ts := by
    rw [← joinWith_spaced]
    apply Nesting.split_joinWith (by decide) (spaced_ne_nil ts)
    intro part hpart
    exact (closed_spaced hclosed part hpart).mono fun c hc => .inl hc
  refine ⟨_, _, ⟨name, joinWith [',', ' '] ts, h.text_eq, ?_, hcloses, rfl, ?_, rfl⟩, ?_, ?_⟩
  · exact fun hmem => (hchars '(' hmem).1 rfl
  · rwa [hfront.isEmpty_trim]
  · obtain ⟨_, _, hclear, -⟩ := hfront.trim hall
    rw [hclear.text_eq, trim_eq_self fun c hc => (hchars c hc).2]
  · rw [hsplit]
    rw [← joinWith_spaced] at hinner
    exact hinner.map_text_ranges.trans (map_trim_spaced fun t ht => (hts t ht).2)

/-! ## Templates of one directive -/

/-- A directive with a word and what follows that. -/
def Text.directive (word stretch : Text) : Text :=
  ['{', '%'] ++ ([' '] ++ (word ++ (stretch ++ ['%', '}'])))

/-- The pieces of a directive with a word and what follows that. -/
def Piece.directive (word : Text) (pieces : List Piece) : List Piece :=
  ⟨.enter .directive false, ['{', '%']⟩ :: ⟨.blank, [' ']⟩ :: ⟨.raw, word⟩
    :: (pieces ++ [⟨.exit .directive false, ['%', '}']⟩])

section Directive

variable {source word stretch : Text} {pieces : List Piece} {tokens : List Token}

/-- How a directive with a word and something after it is cut into pieces. -/
theorem Piece.exists_directive (hword : word ≠ []) (hchars : ∀ c ∈ word, ¬isBlank c)
    (hnonempty : stretch ≠ []) (hblank : ∀ c ∈ stretch.head?, isBlank c)
    (havoids : Avoids StartsDelimiter (word ++ stretch) ['%', '}']) :
    ∃ pieces, Segmentation (Text.directive word stretch) (directive word pieces) ∧
      (∀ piece ∈ pieces, piece.kind.isText) ∧ (pieces.map text).flatten = stretch := by
  obtain ⟨hraw, hstretch⟩ := avoids_append.1 havoids
  obtain ⟨pieces, hpieces, htexts, hflatten⟩ :=
    exists_segment_text hstretch (.inr ⟨.exit .directive false, by decide, by decide⟩)
  have hexit : Segmentation ['%', '}'] [⟨.exit .directive false, ['%', '}']⟩] :=
    segmentation_cons.2
      ⟨[], rfl, List.cons_ne_nil _ _, rfl, ⟨nofun, nofun⟩, segmentation_nil.2 rfl⟩
  rw [← segmentation_iff.1 hexit] at hpieces
  -- Where the blank ends, and where the word ends.
  have hbreak : ¬StartsBreak (' ' :: (word ++ (stretch ++ ['%', '}']))) := by
    rintro (⟨_, h⟩ | ⟨_, h⟩) <;> simp at h
  have hblankEnds : startsBlank (word ++ (stretch ++ ['%', '}'])) = false := by
    obtain ⟨c, word, rfl⟩ := List.exists_cons_of_ne_nil hword
    rw [← Bool.not_eq_true, List.cons_append, startsBlank_cons]
    exact fun h => hchars c List.mem_cons_self h.1
  have hwordEnds : startsRaw (stretch ++ ['%', '}']) = false := by
    obtain ⟨c, stretch, rfl⟩ := List.exists_cons_of_ne_nil hnonempty
    rw [← Bool.not_eq_true, List.cons_append, startsRaw_cons]
    exact fun h => h.1 (hblank c rfl)
  refine ⟨pieces, ?_, htexts, hflatten⟩
  refine segmentation_cons.2
    ⟨_, rfl, List.cons_ne_nil _ _, ⟨rfl, fun _ => by simp⟩, ⟨nofun, nofun⟩, ?_⟩
  refine segmentation_cons.2 ⟨_, rfl, List.cons_ne_nil _ _,
    ⟨List.forall_mem_singleton.2 rfl, avoids_cons.2 ⟨hbreak, avoids_nil⟩⟩,
    ⟨fun _ => hblankEnds, nofun⟩, ?_⟩
  refine segmentation_cons.2 ⟨_, rfl, hword, ⟨hchars, hraw⟩, ⟨nofun, fun _ => hwordEnds⟩, ?_⟩
  exact segmentation_iff.2 hpieces.symm

theorem Piece.not_isTrim_directive (h : ∀ piece ∈ pieces, piece.kind.isText) :
    ∀ piece ∈ directive word pieces, ¬piece.kind.isTrim := by
  intro piece hpiece
  simp only [directive, List.mem_cons, List.mem_append, List.not_mem_nil, or_false] at hpiece
  rcases hpiece with rfl | rfl | rfl | hpiece | rfl
  case inr.inr.inr.inl => exact Kind.not_isTrim_of_isText (h piece hpiece)
  all_goals exact Bool.false_ne_true

/-- The tokens of these pieces are a block. -/
theorem Block.exists_of_pieces (h : tokens.map (Token.piece source) = Piece.directive word pieces)
    (htexts : ∀ piece ∈ pieces, piece.kind.isText) :
    ∃ block : Block, block.tokens = tokens ∧ block.Formed ∧
      (∀ token ∈ block.tokens, ¬token.kind.isTrim) ∧ block.identifier.text source = word ∧
      block.more.flatMap (Token.text source) = (pieces.map Piece.text).flatten := by
  have htrim : ∀ token ∈ tokens, ¬token.kind.isTrim := fun token htoken =>
    Piece.not_isTrim_directive htexts (token.piece source) (h ▸ List.mem_map_of_mem htoken)
  obtain ⟨enter, _, rfl, henter, h⟩ := List.map_eq_cons_iff.1 h
  obtain ⟨lead, _, rfl, hlead, h⟩ := List.map_eq_cons_iff.1 h
  obtain ⟨identifier, _, rfl, hidentifier, h⟩ := List.map_eq_cons_iff.1 h
  obtain ⟨more, _, rfl, hmore, h⟩ := List.map_eq_append_iff.1 h
  obtain ⟨exit, _, rfl, hexit, h⟩ := List.map_eq_cons_iff.1 h
  obtain rfl := List.map_eq_nil_iff.1 h
  have henterKind : enter.kind = .enter .directive false := congrArg Piece.kind henter
  have hleadKind : lead.kind = .blank := congrArg Piece.kind hlead
  have hidentifierKind : identifier.kind = .raw := congrArg Piece.kind hidentifier
  have hexitKind : exit.kind = .exit .directive false := congrArg Piece.kind hexit
  have hmoreText : ∀ token ∈ more, token.kind.isText := fun token htoken =>
    htexts (token.piece source) (hmore ▸ List.mem_map_of_mem htoken)
  refine ⟨⟨enter, [lead], identifier, more, exit⟩, rfl,
    ⟨?_, ?_, hidentifierKind, hmoreText, ?_, ?_⟩, htrim, congrArg Piece.text hidentifier, ?_⟩
  · rw [henterKind]
    rfl
  · rintro token htoken
    rw [List.mem_singleton.1 htoken, hleadKind]
    exact ⟨rfl, nofun⟩
  · rw [hexitKind]
    rfl
  · rw [hexitKind, henterKind]
    rfl
  · rw [← Token.flatten_piece, hmore]

/-- A template that is a directive with a word and something after it is scanned as one block. -/
theorem Block.exists_scan_directive (hword : word ≠ []) (hchars : ∀ c ∈ word, ¬isBlank c)
    (hnonempty : stretch ≠ []) (hblank : ∀ c ∈ stretch.head?, isBlank c)
    (havoids : Avoids Piece.StartsDelimiter (word ++ stretch) ['%', '}']) :
    ∃ block : Block,
      Token.trim (Token.scan (Text.directive word stretch)) = block.tokens ++ [Token.eof] ∧
      Token.Laid (Text.directive word stretch) false 0 (bytes (Text.directive word stretch))
        block.tokens ∧
      block.Formed ∧ block.identifier.text (Text.directive word stretch) = word ∧
      block.more.flatMap (Token.text (Text.directive word stretch)) = stretch := by
  obtain ⟨pieces, hpieces, htexts, hflatten⟩ :=
    Piece.exists_directive hword hchars hnonempty hblank havoids
  obtain ⟨tokens, hscan, htile, htokens, hstands⟩ := Token.exists_scan hpieces
  obtain ⟨block, rfl, hformed, htrim, hidentifier, hmore⟩ := exists_of_pieces htokens htexts
  refine ⟨block, ?_, .of_tile hstands htile, hformed, hidentifier, hmore.trans hflatten⟩
  rw [hscan, Token.trim_concat_eof, Token.trim_eq_self htrim]

end Directive

/-! ## Compiling a call -/

/-- No delimiter starts in a directive that calls without one. -/
theorem Text.avoids_call {name : Text} {arguments : List Text}
    (h : ∀ kind ∈ Kind.delimiters, ¬kind.literal <:+: call name arguments) (after : Text) :
    Avoids Piece.StartsDelimiter ("call".toList ++ ([' '] ++ (call name arguments ++ [' '])))
      after := by
  have hblank : ∀ t, ∀ c ∈ ([' '] ++ t).head?, isBlank c := by
    rintro t c ⟨⟩
    rfl
  refine avoids_append.2 ⟨avoids_of_no_literal (by decide) (hblank _), ?_⟩
  refine avoids_append.2 ⟨avoids_blank rfl _, ?_⟩
  exact avoids_append.2 ⟨avoids_of_no_literal h (hblank _), avoids_blank rfl _⟩

/-- A block that calls with a name and expressions for its arguments derives that call. -/
theorem Block.Formed.exists_derives_call {source name : Text} {block : Block} {joined : Bool}
    {start stop : Nat} {arguments : List Text} (hformed : block.Formed)
    (hlaid : Token.Laid source joined start stop block.tokens)
    (hidentifier : block.identifier.text source = "call".toList)
    (hmore : Text.trim (block.more.flatMap (Token.text source)) = call name arguments)
    (hname : name ≠ []) (hchars : ∀ c ∈ name, c ≠ '(' ∧ ¬isBlank c)
    (harguments : ∀ t ∈ arguments, ∃ e, Expr.parse t = .ok e) (limit depth : Nat)
    (previous : Option Span) :
    ∃ nameSpan argumentSpans, Derives source limit (.statement depth previous
        (.call nameSpan argumentSpans (previous.bind (Span.indentation? source)))) block.tokens ∧
      nameSpan.text source = name ∧
      argumentSpans.map (Span.text source) = arguments.map Text.trim := by
  have hkeyword : block.keyword? source = some .call := by
    rw [Block.keyword?, hidentifier]
    decide
  have hbare : ¬block.Bare := by
    apply hformed.not_bare hlaid
    intro hall
    rw [trim_eq_nil (List.all_eq_true.1 hall), call_eq_concat] at hmore
    simp at hmore
  obtain ⟨_, _, hclear, -⟩ := hformed.exists_remainder hbare hlaid
  rw [hmore] at hclear
  have hclosed : ∀ t ∈ arguments, Closed IsSeparator t ∧ ¬t.all isBlank := by
    intro t ht
    obtain ⟨e, he⟩ := harguments t ht
    exact ⟨Expr.closed_of_parse he, fun hall =>
      Expr.not_blank_of_parse he (List.all_eq_true.1 hall)⟩
  obtain ⟨nameSpan, argumentSpans, hcall, htexts⟩ := hclear.exists_isCall hname hchars hclosed
  exact ⟨nameSpan, argumentSpans, .call (hformed.reads hkeyword) hbare hcall, htexts⟩

/-- A template that calls another one with expressions for its arguments is compiled to one call.
It has the name that is written, and as many arguments as are written, each of which is read as the
expression that it is on its own. -/
theorem Template.compile_call {name : Text} {arguments : List Text} (hname : name ≠ [])
    (hchars : ∀ c ∈ name, c ≠ '(' ∧ ¬isBlank c)
    (harguments : ∀ t ∈ arguments, ∃ e, Expr.parse t = .ok e)
    (hplain : ∀ kind ∈ Kind.delimiters, ¬kind.literal <:+: call name arguments) (maxDepth : Nat) :
    let source := "\x7b% call ".toList ++ call name arguments ++ " %\x7d".toList
    ∃ template nameSpan argumentSpans, compile maxDepth source = .ok template ∧
      template.nodes = [.call nameSpan argumentSpans none] ∧
      nameSpan.text source = name ∧
      argumentSpans.map (Span.text source) = arguments.map Text.trim ∧
      argumentSpans.map (fun span => Expr.parse (span.text source))
        = arguments.map Expr.parse := by
  intro source
  have hsource : Text.directive "call".toList ([' '] ++ (call name arguments ++ [' '])) = source :=
    by simp [Text.directive, source]
  have hnonempty : [' '] ++ (call name arguments ++ [' ']) ≠ [] := List.cons_ne_nil _ _
  have hblank : ∀ c ∈ ([' '] ++ (call name arguments ++ [' '])).head?, isBlank c := by
    rintro c ⟨⟩
    rfl
  obtain ⟨block, htokens, hlaid, hformed, hidentifier, hmore⟩ :=
    Block.exists_scan_directive (by decide) (forall_not_of_all (by decide)) hnonempty hblank
      (avoids_call hplain _)
  rw [hsource] at htokens hlaid hidentifier hmore
  have hcall : Text.trim (block.more.flatMap (Token.text source)) = call name arguments := by
    rw [hmore, trim_call hname fun c hc => (hchars c hc).2]
  obtain ⟨nameSpan, argumentSpans, hderives, hnameText, hargumentTexts⟩ :=
    hformed.exists_derives_call hlaid hidentifier hcall hname hchars harguments maxDepth 0 none
  have hparse : Node.parse source maxDepth (Token.trim (Token.scan source))
      = .ok [.call nameSpan argumentSpans none] := by
    rw [htokens]
    refine Node.parse_concat_of_derives ?_ hlaid.ne_eof
    rw [← List.append_nil block.tokens]
    exact .statement hderives .nothing
  refine ⟨_, nameSpan, argumentSpans, by rw [compile, hparse], rfl, hnameText, hargumentTexts, ?_⟩
  rw [← Expr.map_parse_trim harguments, ← hargumentTexts, List.map_map]
  rfl

/-- Commas, parentheses and quotes in strings, nested arrays, an index, and blanks around. -/
theorem Template.compile_call_brackets :
    let name := "list".toList
    let arguments := ["\"a, )\\\"\"".toList, " [x, [1, 2,]][0].y".toList, "(p + q) * -1\n".toList]
    let source := "\x7b% call ".toList ++ call name arguments ++ " %\x7d".toList
    (name ≠ [] ∧ (∀ c ∈ name, c ≠ '(' ∧ ¬isBlank c) ∧
      (∀ t ∈ arguments, ∃ e, Expr.parse t = .ok e) ∧
      ∀ kind ∈ Kind.delimiters, ¬kind.literal <:+: call name arguments) ∧
      ∃ template nameSpan argumentSpans, compile 0 source = .ok template ∧
        template.nodes = [.call nameSpan argumentSpans none] ∧
        nameSpan.text source = name ∧
        argumentSpans.map (Span.text source)
          = ["\"a, )\\\"\"".toList, "[x, [1, 2,]][0].y".toList, "(p + q) * -1".toList] ∧
        argumentSpans.map (fun span => Expr.parse (span.text source))
          = arguments.map Expr.parse := by
  intro name arguments source
  have hname : name ≠ [] := by decide
  have hchars : ∀ c ∈ name, c ≠ '(' ∧ ¬isBlank c := by
    have hall : name.all fun c => c != '(' && !isBlank c := by decide
    intro c hc
    simpa using List.all_eq_true.1 hall c hc
  have hread : ∀ t ∈ arguments, (Expr.parse t).toOption.isSome := by decide +kernel
  have harguments : ∀ t ∈ arguments, ∃ e, Expr.parse t = .ok e := by
    intro t ht
    have hread := hread t ht
    cases hparse : Expr.parse t with
    | ok e => exact ⟨e, rfl⟩
    | error error =>
      rw [hparse] at hread
      cases hread
  have hplain : ∀ kind ∈ Kind.delimiters, ¬kind.literal <:+: call name arguments := by
    decide +kernel
  have htrimmed : arguments.map Text.trim
      = ["\"a, )\\\"\"".toList, "[x, [1, 2,]][0].y".toList, "(p + q) * -1".toList] := by
    decide +kernel
  rw [← htrimmed]
  exact ⟨⟨hname, hchars, harguments, hplain⟩, compile_call hname hchars harguments hplain 0⟩

end Stencil
