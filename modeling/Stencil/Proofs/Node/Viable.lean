import Stencil.Proofs.Node.Narrowing
import Stencil.Proofs.Token.Cutting

/-!
# What stands before the first offence

Everything before the first offence of a template could be part of a template that is read: the
source is cut where the block, the exit or the end of file stands at which reading stopped, and the
bodies that are open there are closed. What comes after the offence does not matter, unless the
offence is that the template ran out.

The blocks before the cut are taken as before, because what they stand for is cut out of a first
part of the source (`Progress.blocks?_append`). The state that they lead to has one frame for every
body that is open, and each of the blocks that are added closes one
(`Progress.exists_blocks?_close`).

Main statement: `Template.compile_error_first`.
-/

namespace Stencil

open Text

/-! ## Spans in a first part of a source -/

theorem Nesting.ranges_le (separator : Char) (start : Nat) (parts : List Text) :
    ∀ range ∈ Nesting.ranges separator start parts,
      range.2 ≤ start + bytes (joinWith [separator] parts) := by
  induction parts generalizing start with
  | nil => simp [Nesting.ranges]
  | cons part parts ih =>
    rw [Nesting.ranges, List.forall_mem_cons]
    cases parts with
    | nil => exact ⟨Nat.le_refl _, by simp [Nesting.ranges]⟩
    | cons next parts =>
      have hjoin : bytes (joinWith [separator] (part :: next :: parts))
          = bytes part + separator.utf8Size + bytes (joinWith [separator] (next :: parts)) := by
        have hsplit : joinWith [separator] (part :: next :: parts)
            = part ++ [separator] ++ joinWith [separator] (next :: parts) := rfl
        rw [hsplit, bytes_append, bytes_append, bytes_cons, bytes_nil, Nat.add_zero]
      rw [hjoin]
      refine ⟨by simp only; omega, fun range hrange => ?_⟩
      have hnext := ih _ range hrange
      omega

namespace Span

variable {s : Text} {span : Span}

theorem bytes_text_le (s : Text) (span : Span) :
    span.start + bytes (span.text s) ≤ max span.start span.stop := by
  rw [text, slice?]
  split
  · cases htake : (dropBytes? s span.start).bind (takeBytes? · (span.stop - span.start)) with
    | none => exact Nat.le_max_left _ _
    | some t =>
      obtain ⟨u, -, htake⟩ := Option.bind_eq_some_iff.1 htake
      obtain ⟨-, -, hbytes⟩ := takeBytes?_eq_some htake
      rw [Option.getD_some, hbytes]
      omega
  · exact Nat.le_max_left _ _

theorem trim_le (s : Text) (span : Span) :
    max (Span.trim s span).start (Span.trim s span).stop ≤ max span.start span.stop := by
  have htext := bytes_text_le s span
  rw [Span.trim]
  split
  · rw [Nat.max_self]
    exact Nat.le_max_left _ _
  · have hfront : bytes ((span.text s).takeWhile isBlank) ≤ bytes (span.text s) := by
      have hsplit := congrArg bytes
        (List.takeWhile_append_dropWhile (p := isBlank) (l := span.text s))
      rw [bytes_append] at hsplit
      omega
    simp only
    omega

/-- Spans of parts that stand side by side in the text. -/
theorem trim_ranges_append (separator : Char) (start : Nat) (parts : List Text)
    (h : start + bytes (joinWith [separator] parts) ≤ bytes s) (t : Text) :
    (Nesting.ranges separator start parts).map
        (fun range => Span.trim (s ++ t) ⟨range.1, range.2⟩)
      = (Nesting.ranges separator start parts).map
          fun range => Span.trim s ⟨range.1, range.2⟩ :=
  List.map_congr_left fun range hrange =>
    trim_append (Nat.le_trans (Nesting.ranges_le separator start parts range hrange) h) t

/-- A call is read from the text of its span. -/
theorem call?_append (h : max span.start span.stop ≤ bytes s) (t : Text) :
    call? (s ++ t) span = call? s span := by
  have hbytes := Nat.le_trans (bytes_text_le s span) h
  rw [call?, call?, text_append (Nat.le_trans (Nat.le_max_right _ _) h)]
  have hsplit := congrArg bytes
    (List.takeWhile_append_dropWhile (p := fun c : Char => c ≠ '(') (l := span.text s))
  rw [bytes_append] at hsplit
  generalize (span.text s).takeWhile (· ≠ '(') = before at hsplit ⊢
  generalize (span.text s).dropWhile (· ≠ '(') = later at hsplit ⊢
  simp only
  rw [trim_append (show span.start + bytes before ≤ bytes s by omega)]
  split
  · rfl
  split
  · rename_i inner hclosing
    -- The arguments stand before the last parenthesis.
    obtain ⟨hinner, -⟩ := Nesting.closing?_eq_some_iff.1 hclosing
    obtain ⟨c, later, rfl⟩ : ∃ c rest, later = c :: rest := by
      cases later with
      | nil => simp at hinner
      | cons c rest => exact ⟨c, rest, rfl⟩
    rw [List.drop_one, List.tail_cons] at hinner
    have hsize : 1 ≤ c.utf8Size := c.utf8Size_pos
    rw [hinner, bytes_cons, bytes_append] at hsplit
    have hjoin : joinWith [','] (Nesting.split ',' inner) = inner :=
      Nesting.join_splitFrom ',' (.outside 0) inner
    have hend : span.start + bytes before + 1 + bytes (joinWith [','] (Nesting.split ',' inner))
        ≤ bytes s := by
      rw [hjoin]
      omega
    have harguments := trim_ranges_append ',' _ (Nesting.split ',' inner) hend t
    exact congrArg (fun arguments => some (_, arguments.filter (!·.isEmpty))) harguments
  · rfl

end Span

/-! ## Blocks in a first part of a source -/

namespace Token

variable {s before t after : Text} {token : Token}

theorem Covers.range_append (h : Covers s token before t after) (more : Text) :
    token.range (s ++ more) = token.range s := by
  rw [(h.append more).range_eq, h.range_eq]

theorem Covers.text_append (h : Covers s token before t after) (more : Text) :
    token.text (s ++ more) = token.text s := by
  rw [(h.append more).text_eq, h.text_eq]

theorem upTo_plain (source : Text) (token : Token) :
    upTo source token.plain = upTo source token := by
  have heof : token.plain.kind = .eof ↔ token.kind = .eof := by
    rcases token with ⟨_ | _ | _ | _ | _ | _, _, _⟩ <;> simp [plain, Kind.plain]
  rw [upTo, upTo, range_plain]
  simp only [heof]

theorem Covers.range_le (h : Covers s token before t after) :
    (token.range s).1 ≤ bytes s ∧ (token.range s).2 ≤ bytes s := by
  rw [h.range_eq, h.source_eq, bytes_append, bytes_append]
  omega

end Token

namespace Block

/-- All tokens of the block cover parts of the text. -/
def Covered (s : Text) (block : Block) : Prop :=
  ∀ token ∈ block.tokens, ∃ before t after, Token.Covers s token before t after

variable {s : Text} {block : Block} {first last token : Token}

theorem Covered.of_mem (h : block.Covered s)
    (htoken : token ∈ block.lead ++ block.identifier :: (block.more ++ [block.exit])) :
    ∃ before t after, Token.Covers s token before t after :=
  h token (List.mem_cons_of_mem _ htoken)

/-- The span from a token through another one, without the blanks at its ends. -/
theorem trim_covering_append
    (hfirst : ∃ before t after, Token.Covers s first before t after)
    (hlast : ∃ before t after, Token.Covers s last before t after) (t : Text) :
    Span.trim (s ++ t) (Span.covering (s ++ t) first last)
        = Span.trim s (Span.covering s first last) ∧
      max (Span.trim s (Span.covering s first last)).start
        (Span.trim s (Span.covering s first last)).stop ≤ bytes s := by
  obtain ⟨_, _, _, hfirst⟩ := hfirst
  obtain ⟨_, _, _, hlast⟩ := hlast
  have hle :
      max (Span.covering s first last).start (Span.covering s first last).stop ≤ bytes s := by
    have hstart := hfirst.range_le.1
    have hstop := hlast.range_le.2
    simp only [Span.covering]
    omega
  refine ⟨?_, Nat.le_trans (Span.trim_le s _) hle⟩
  rw [Span.covering, hfirst.range_append, hlast.range_append]
  exact Span.trim_append (Nat.le_trans (Nat.le_max_right _ _) hle) t

theorem Covered.content_append (h : block.Covered s) (t : Text) :
    block.content (s ++ t) = block.content s := by
  have hfirst : block.lead.headD block.identifier
      ∈ block.lead ++ block.identifier :: (block.more ++ [block.exit]) := by
    cases block.lead <;> simp
  have hlast : block.more.getLastD block.identifier
      ∈ block.lead ++ block.identifier :: (block.more ++ [block.exit]) := by
    refine List.mem_append_right _ ?_
    rcases List.mem_cons.1 (List.getLastD_mem_cons (l := block.more) (a := block.identifier))
      with hmem | hmem
    · rw [hmem]
      exact List.mem_cons_self
    · exact List.mem_cons_of_mem _ (List.mem_append_left _ hmem)
  exact (trim_covering_append (h.of_mem hfirst) (h.of_mem hlast) t).1

theorem Covered.remainder_append (h : block.Covered s) (t : Text) :
    block.remainder (s ++ t) = block.remainder s ∧
      max (block.remainder s).start (block.remainder s).stop ≤ bytes s := by
  unfold remainder
  cases hmore : block.more with
  | nil =>
    obtain ⟨_, _, _, hexit⟩ := h.of_mem (show block.exit ∈ _ by simp)
    simp only [hexit.range_append, Nat.max_self, true_and]
    exact hexit.range_le.1
  | cons first rest =>
    have hmem : ∀ token ∈ first :: rest,
        token ∈ block.lead ++ block.identifier :: (block.more ++ [block.exit]) := by
      intro token htoken
      rw [hmore]
      simp only [List.mem_append, List.mem_cons] at htoken ⊢
      tauto
    exact trim_covering_append (h.of_mem (hmem first List.mem_cons_self))
      (h.of_mem (hmem _ List.getLastD_mem_cons)) t

end Block

namespace Progress

variable {s : Text} {limit : Nat} {block : Block} {blocks : List Block} {progress next : Progress}

/-- A block is taken for the same if more comes after the source. No text may come right before it,
because the indentation of a call is cut out of that. -/
theorem block?_append (h : block.Covered s) (hlast : Node.lastText? progress.nodes = none)
    (t : Text) : progress.block? (s ++ t) limit block = progress.block? s limit block := by
  have htext : ∀ token ∈ block.identifier :: block.more, ∀ reason,
      ParseError.ofToken (s ++ t) token reason = .ofToken s token reason := by
    intro token htoken reason
    have hmem : token ∈ block.lead ++ block.identifier :: (block.more ++ [block.exit]) := by
      simp only [List.mem_append, List.mem_cons] at htoken ⊢
      tauto
    obtain ⟨_, _, _, hcovers⟩ := h.of_mem hmem
    rw [ParseError.ofToken, hcovers.text_append, ParseError.ofToken]
  have hidentifier := htext block.identifier List.mem_cons_self
  have hsecond := htext block.second block.second_mem
  have hkeyword : block.keyword? (s ++ t) = block.keyword? s := by
    obtain ⟨_, _, _, hcovers⟩ := h.of_mem (show block.identifier ∈ _ by simp)
    rw [Block.keyword?, hcovers.text_append, Block.keyword?]
  obtain ⟨hremainder, hle⟩ := h.remainder_append t
  have hcall : progress.call? (s ++ t) block = progress.call? s block := by
    obtain ⟨nodes, frames⟩ := progress
    simp only [call?, hidentifier, hremainder, Span.call?_append hle]
    cases nodes with
    | nil => rfl
    | cons node nodes => cases node <;> first | rfl | cases hlast
  unfold block? elseIf? otherwise? close? open?
  simp only [hkeyword, hcall, h.content_append, hremainder, hidentifier, hsecond]

/-- So are several blocks, one after another. -/
theorem blocks?_append_source (h : ∀ block ∈ blocks, block.Covered s)
    (hlast : Node.lastText? progress.nodes = none) (t : Text) :
    progress.blocks? (s ++ t) limit blocks = progress.blocks? s limit blocks := by
  induction blocks generalizing progress with
  | nil => rfl
  | cons block blocks ih =>
    rw [List.forall_mem_cons] at h
    rw [blocks?_cons, blocks?_cons, block?_append h.1 hlast]
    cases hstep : progress.block? s limit block with
    | error error => rfl
    | ok next => exact ih h.2 (lastText?_of_block hstep)

/-! ## Open bodies -/

/-- As many ends as bodies are open close all of them. -/
theorem exists_blocks?_close {source : Text} (limit : Nat) (progress : Progress)
    (hends : ∀ block ∈ blocks, block.Reads source (some .close) ∧ block.Bare)
    (hlength : blocks.length = progress.frames.length) :
    ∃ nodes, progress.blocks? source limit blocks = .ok ⟨nodes, []⟩ := by
  induction blocks generalizing progress with
  | nil =>
    obtain ⟨nodes, frames⟩ := progress
    obtain rfl : frames = [] := List.length_eq_zero_iff.1 hlength.symm
    exact ⟨nodes, rfl⟩
  | cons block blocks ih =>
    obtain ⟨nodes, _ | ⟨⟨construct, before⟩, frames⟩⟩ := progress
    · cases hlength
    · rw [List.forall_mem_cons] at hends
      rw [blocks?_cons, block?_close hends.1.1 hends.1.2]
      exact ih _ hends.2 (Nat.succ.inj hlength)

end Progress

/-! ## Closing what is open -/

/-- An end, with a blank before it. -/
def Text.closing : Text := ' ' :: "\x7b% end %\x7d".toList

/-- The pieces of an end. -/
def Piece.close : List Piece :=
  [⟨.enter .directive false, ['{', '%']⟩, ⟨.blank, [' ']⟩, ⟨.raw, ['e', 'n', 'd']⟩, ⟨.blank, [' ']⟩,
    ⟨.exit .directive false, ['%', '}']⟩]

theorem Piece.segmentation_closing (n : Nat) :
    Segmentation (List.replicate n closing).flatten
      (List.replicate n (⟨.blank, [' ']⟩ :: close)).flatten := by
  have hone : Segmentation closing ((⟨.blank, [' ']⟩ :: close) ++ []) :=
    segmentation_iff.2 (by decide +kernel)
  induction n with
  | zero => exact segmentation_nil.2 rfl
  | succ n ih =>
    have hquiet : Quiet (List.replicate n closing).flatten := by
      cases n with
      | zero => nofun
      | succ n =>
        rintro c ⟨⟩
        decide
    have hjoined := hone.replace ih hquiet (by
      rintro last ⟨⟩ first - -
      decide)
    rw [List.replicate_succ, List.flatten_cons, List.replicate_succ, List.flatten_cons]
    exact hjoined

namespace Passes

variable {source : Text} {token : Token} {tokens : List Token} {blocks : List Block}

theorem mem (h : Passes tokens blocks) {block : Block} (hblock : block ∈ blocks)
    (htoken : token ∈ block.tokens) : token ∈ tokens := by
  induction h with
  | nil => cases hblock
  | text _ _ ih => exact List.mem_cons_of_mem _ (ih hblock)
  | block _ _ ih =>
    rw [List.mem_append]
    rcases List.mem_cons.1 hblock with rfl | hblock
    · exact .inl htoken
    · exact .inr (ih hblock)

/-- A last text token may be left away. -/
theorem of_concat (htext : token.kind.isText) (h : Passes (tokens ++ [token]) blocks) :
    Passes tokens blocks := by
  generalize hlist : tokens ++ [token] = list at h
  induction h generalizing tokens with
  | nil => simp at hlist
  | @text first rest _ hfirst hrest ih =>
    cases tokens with
    | nil =>
      obtain ⟨-, rfl⟩ : token = first ∧ [] = rest := by simpa using hlist
      exact hrest
    | cons first' tokens =>
      obtain ⟨rfl, hsplit⟩ : first' = first ∧ tokens ++ [token] = rest := by simpa using hlist
      exact .text hfirst (ih hsplit)
  | @block found rest _ hfound hrest ih =>
    rcases List.eq_nil_or_concat rest with rfl | ⟨rest, last, rfl⟩
    · -- The last token is the exit of a block.
      have hsplit : tokens ++ [token] = (found.enter :: (found.lead ++ found.identifier ::
          found.more)) ++ [found.exit] := by
        rw [hlist, Block.tokens]
        simp
      obtain ⟨-, rfl⟩ : _ ∧ token = found.exit := by simpa using List.append_inj' hsplit rfl
      exact absurd htext (Kind.not_isText_of_isExit hfound.exit)
    · rw [List.concat_eq_append, ← List.append_assoc] at hlist
      obtain ⟨rfl, rfl⟩ : tokens = found.tokens ++ rest ∧ token = last := by
        simpa using List.append_inj' hlist rfl
      exact .block hfound (ih List.concat_eq_append.symm)

/-- The blocks stand in the source whose tokens pass. -/
theorem covered (h : Passes tokens blocks) (hscan : Token.scan source = tokens ++ [.eof])
    (heof : ∀ token ∈ tokens, token.kind ≠ .eof) : ∀ block ∈ blocks, block.Covered source := by
  intro block hblock token htoken
  have hmem := h.mem hblock htoken
  have hscanned : token ∈ Token.scan source := by
    rw [hscan]
    exact List.mem_append_left _ hmem
  obtain ⟨before, after, hcovers⟩ := Token.covers_of_mem_scan hscanned (heof token hmem)
  exact ⟨before, _, after, hcovers⟩

/-- The tokens of an end. -/
theorem exists_end {later : List Piece}
    (h : tokens.map (Token.piece source) = Piece.close ++ later) :
    ∃ (block : Block) (rest : List Token), tokens = block.tokens ++ rest ∧
      block.Reads source (some .close) ∧ block.Bare ∧ rest.map (Token.piece source) = later := by
  obtain ⟨inner, rest, rfl, hinner, hrest⟩ := List.map_eq_append_iff.1 h
  obtain ⟨enter, _, rfl, henter, hinner⟩ := List.map_eq_cons_iff.1 hinner
  obtain ⟨lead, _, rfl, hlead, hinner⟩ := List.map_eq_cons_iff.1 hinner
  obtain ⟨word, _, rfl, hword, hinner⟩ := List.map_eq_cons_iff.1 hinner
  obtain ⟨more, _, rfl, hmore, hinner⟩ := List.map_eq_cons_iff.1 hinner
  obtain ⟨exit, rfl, hexit⟩ := List.map_eq_singleton_iff.1 hinner
  have hkinds : enter.kind = .enter .directive false ∧ lead.kind = .blank ∧ word.kind = .raw ∧
      more.kind = .blank ∧ exit.kind = .exit .directive false :=
    ⟨congrArg Piece.kind henter, congrArg Piece.kind hlead, congrArg Piece.kind hword,
      congrArg Piece.kind hmore, congrArg Piece.kind hexit⟩
  obtain ⟨hkenter, hklead, hkword, hkmore, hkexit⟩ := hkinds
  have hformed : Block.Formed ⟨enter, [lead], word, [more], exit⟩ := by
    refine ⟨?_, ?_, hkword, ?_, ?_, ?_⟩
    · rw [hkenter]
      rfl
    · rintro token (_ | ⟨_, ⟨⟩⟩)
      rw [hklead]
      decide
    · rintro token (_ | ⟨_, ⟨⟩⟩)
      rw [hkmore]
      rfl
    · rw [hkexit]
      rfl
    · rw [hkenter, hkexit]
      rfl
  refine ⟨⟨enter, [lead], word, [more], exit⟩, rest, rfl, ⟨hformed, "end", by decide, ?_⟩, ?_,
    hrest⟩
  · exact congrArg Piece.text hword
  · rintro token (_ | ⟨_, ⟨⟩⟩)
    rw [hkmore]
    decide

/-- The tokens of ends, of which the first has no blank before it. -/
theorem exists_ends {n : Nat} (h : tokens.map (Token.piece source)
      = Piece.close ++ (List.replicate n (⟨.blank, [' ']⟩ :: Piece.close)).flatten) :
    ∃ ends, Passes tokens ends ∧ ends.length = n + 1 ∧
      ∀ block ∈ ends, block.Reads source (some .close) ∧ block.Bare := by
  induction n generalizing tokens with
  | zero =>
    obtain ⟨block, rest, rfl, hreads, hbare, hrest⟩ := exists_end h
    obtain rfl : rest = [] := by simpa using hrest
    exact ⟨[block], .block hreads.1 .nil, rfl, by simpa using ⟨hreads, hbare⟩⟩
  | succ n ih =>
    obtain ⟨block, rest, rfl, hreads, hbare, hrest⟩ := exists_end h
    obtain ⟨blank, rest, rfl, hblank, hrest⟩ := List.map_eq_cons_iff.1 hrest
    obtain ⟨ends, hpasses, hlength, hends⟩ := ih hrest
    have htext : blank.kind.isText := by
      rw [show blank.kind = .blank from congrArg Piece.kind hblank]
      rfl
    exact ⟨block :: ends, .block hreads.1 (.text htext hpasses), congrArg (· + 1) hlength,
      List.forall_mem_cons.2 ⟨⟨hreads, hbare⟩, hends⟩⟩

end Passes

namespace Template

variable {source : Text} {maxDepth : Nat} {kept later : List Token} {blocks : List Block}
  {progress : Progress}

/-- The tokens of the source before some place, with ends after it. -/
theorem exists_scan_closed (hscan : Token.scan source = kept ++ later ++ [.eof])
    (hpasses : Passes kept blocks) (n : Nat) {closed : Text}
    (hclosed : closed
      = kept.flatMap (Token.text source) ++ (List.replicate n closing).flatten) :
    ∃ tokens ends, Token.scan closed = tokens ++ [.eof] ∧ Passes tokens (blocks ++ ends) ∧
      ends.length = n ∧ ∀ block ∈ ends, block.Reads closed (some .close) ∧ block.Bare := by
  cases n with
  | zero =>
    rw [List.replicate_zero, List.flatten_nil, List.append_nil] at hclosed
    rw [hclosed]
    refine ⟨kept, [], Token.scan_cut hscan, ?_, rfl, by simp⟩
    rwa [List.append_nil]
  | succ n =>
    have hsegmentation := Piece.segmentation_closing (n + 1)
    rw [List.replicate_succ, List.flatten_cons, closing, List.cons_append, List.replicate_succ,
      List.flatten_cons, List.cons_append] at hsegmentation
    rw [List.replicate_succ, List.flatten_cons, closing, List.cons_append] at hclosed
    obtain ⟨front, blank, more, htokens, hblank, hmore, hfront⟩ :=
      Token.exists_scan_append hscan hsegmentation
    rw [← hclosed] at htokens hmore
    obtain ⟨ends, hends, hlength, hreads⟩ := Passes.exists_ends hmore
    have hkept : Passes front blocks := by
      rcases hfront with rfl | ⟨last, rfl, hlast⟩
      · exact hpasses
      · exact hpasses.of_concat (by rw [hlast]; rfl)
    have htext : blank.kind.isText := by
      rw [hblank]
      rfl
    exact ⟨_, ends, htokens, hkept.append (.text htext hends), hlength, hreads⟩

/-- A source is read if its blocks are taken and close all bodies. -/
theorem exists_compile_of_blocks {tokens : List Token} {nodes : List Node}
    (hscan : Token.scan source = tokens ++ [.eof]) (hpasses : Passes tokens blocks)
    (htaken : Progress.start.blocks? source maxDepth blocks = .ok ⟨nodes, []⟩) :
    ∃ template, compile maxDepth source = .ok template := by
  have hparse := Node.parse_bare source maxDepth tokens
  rw [← List.append_nil tokens, hpasses.blocks_append, Item.blocks_nil] at hparse
  simp only [List.append_nil, htaken, Except.bind] at hparse
  cases hread : Node.parse source maxDepth tokens with
  | error error =>
    rw [hread] at hparse
    cases hparse
  | ok read =>
    rw [← Node.parse_concat_eof, ← hscan] at hread
    obtain ⟨trimmed, htrimmed, -⟩ := Node.exists_parse_trim hread
    rw [compile, htrimmed]
    exact ⟨_, rfl⟩

/-- A source that is cut after blocks that are taken is read with its open bodies closed. -/
theorem exists_compile_closed (hscan : Token.scan source = kept ++ later ++ [.eof])
    (heof : ∀ token ∈ kept, token.kind ≠ .eof) (hpasses : Passes kept blocks)
    (htaken : Progress.start.blocks? source maxDepth blocks = .ok progress) :
    ∃ template, compile maxDepth (kept.flatMap (Token.text source)
      ++ (List.replicate progress.frames.length closing).flatten) = .ok template := by
  obtain ⟨tokens, ends, hclosed, hpasses', hlength, hends⟩ :=
    exists_scan_closed hscan hpasses progress.frames.length rfl
  -- The blocks stand in the part of the source that the cut leaves.
  have hcovered := hpasses.covered (Token.scan_cut hscan) heof
  rw [Token.append_of_scan hscan, Progress.blocks?_append_source hcovered rfl] at htaken
  obtain ⟨nodes, hfinished⟩ := progress.exists_blocks?_close maxDepth hends hlength
  have hall : Progress.start.blocks? (kept.flatMap (Token.text source)
      ++ (List.replicate progress.frames.length closing).flatten) maxDepth (blocks ++ ends)
        = .ok ⟨nodes, []⟩ := by
    rw [Progress.blocks?_append, Progress.blocks?_append_source hcovered rfl, htaken]
    exact hfinished
  exact exists_compile_of_blocks hclosed hpasses' hall

/-- The first error of a source that is refused. The tokens `before` it make up `blocks` that are
taken and lead to `progress`, which has a frame for every body that is open, and what stands first
in `rest` is refused with the error. -/
structure FirstError (maxDepth : Nat) (source : Text) (error : ParseError)
    (before rest : List Token) (blocks : List Block) (progress : Progress) : Prop where
  tokens : Token.trim (Token.scan source) = before ++ rest ++ [.eof]
  passes : Passes before blocks
  taken : Progress.start.blocks? source maxDepth blocks = .ok progress
  offends : progress.Offends source maxDepth rest error
  depth : progress.frames.length ≤ maxDepth
  /-- The source up to what is refused is read with as many ends as bodies are open. -/
  viable : ∃ template, compile maxDepth (Token.upTo source (rest.headD .eof)
    ++ (List.replicate progress.frames.length closing).flatten) = .ok template
  /-- The same is refused whatever tokens follow, unless the tokens ran out. -/
  final : ¬RanOut rest error → ∀ more,
    Node.parse source maxDepth (before ++ rest ++ more) = .error error

/-- A source that is refused has a first error. -/
theorem compile_error_first {error : ParseError} (h : compile maxDepth source = .error error) :
    ∃ before rest blocks progress,
      FirstError maxDepth source error before rest blocks progress := by
  obtain ⟨scanned, hread, rfl⟩ := Node.exists_parse_error (compile_eq_error_iff.1 h)
  obtain ⟨tokens, hscan, hlaid⟩ := Token.exists_laid_scan source
  have heof := hlaid.ne_eof
  rw [hscan, Node.parse_concat_eof] at hread
  -- The offence is found in the whole source and goes over to the trimmed one.
  obtain ⟨kept, later, blocks, progress, rfl, hpasses, htaken, hoffends⟩ :=
    exists_offence heof hread
  obtain ⟨before, rest, htrim, hpasses', hrest⟩ := (Token.thinned_trim heof).passes hpasses
  obtain ⟨hoffends', hhead⟩ := hrest.offends hoffends
  have htaken' : Progress.start.blocks? source maxDepth (blocks.map Block.plain)
      = .ok progress := by
    rwa [Progress.blocks?_plain]
  refine ⟨before, rest, blocks.map Block.plain, progress, ?_, hpasses', htaken', hoffends',
    Progress.length_of_blocks? htaken (Nat.zero_le maxDepth), ?_, fun hfinal more => ?_⟩
  · rw [hscan, Token.trim_concat_eof, htrim]
  · rw [Token.headD_plain hhead, Token.upTo_plain,
      Token.upTo_headD hscan fun token htoken => heof token (List.mem_append_right _ htoken)]
    exact exists_compile_closed hscan
      (fun token htoken => heof token (List.mem_append_left _ htoken)) hpasses htaken
  · rw [List.append_assoc]
    exact parse_of_offends hpasses' htaken' (hoffends'.append hfinal more)

/-- A second `else`, with a body open and blanks before the cut. -/
theorem compile_error_first_second_else :
    let source := "\x7b% if a %\x7d\x7b% else -%\x7d x \x7b% else %\x7d".toList
    match compile 8 source with
    | .ok _ => False
    | .error error =>
      error.reason = .secondElse ∧ ∃ before rest blocks progress,
        FirstError 8 source error before rest blocks progress := by
  intro source
  have hreason : (match compile 8 source with
    | .ok _ => false
    | .error error => decide (error.reason = .secondElse)) = true := by decide +kernel
  split at hreason
  · cases hreason
  · rename_i error hcompile
    exact ⟨of_decide_eq_true hreason, compile_error_first hcompile⟩

end Template

end Stencil
