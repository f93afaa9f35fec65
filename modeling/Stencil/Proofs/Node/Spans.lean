import Stencil.Proofs.Node.CallForm
import Stencil.Proofs.Node.Items
import Stencil.Proofs.Node.Leading
import Stencil.Proofs.Node.Leaves
import Stencil.Proofs.Text.Runs
import Stencil.Proofs.Token.Stretch

/-!
# Spans that are cut from token runs

The tree of a template has no text of its own: its spans are computed from the first and the last
token of a run, then cut further at blanks, parentheses and commas. `Span.Clear` says what such a
span covers, as a split of the source in three, and that no delimiter starts in it. It is true of a
run of text tokens, since nothing is missing between these, and every further cut keeps it.

* `Token.Laid.exists_clear`: the span of a run of text tokens.
* `Span.Clear.trim`, `Span.Clear.part`: what the cuts keep.
* `Block.Formed.exists_content`, `Block.Formed.exists_remainder`: the spans of a block.
* `Span.Clear.call`: name and arguments of a call.
* `Span.Clear.indentation`: the indentation of a call.
-/

namespace Stencil

open Text

namespace Text

variable {s t u v : Text}

/-- Two splits of a text at the same byte are the same. -/
theorem append_inj_of_bytes (h : s ++ t = u ++ v) (hbytes : bytes s = bytes u) :
    s = u ∧ t = v := by
  have htake : takeBytes? (s ++ t) (bytes s) = takeBytes? (u ++ v) (bytes u) := by rw [h, hbytes]
  rw [takeBytes?_bytes_append, takeBytes?_bytes_append, Option.some.injEq] at htake
  exact ⟨htake, List.append_cancel_left (htake ▸ h)⟩

theorem bytes_pos (h : t ≠ []) : 0 < bytes t := by
  have := List.length_pos_iff.2 h
  have := length_le_bytes t
  omega

@[simp] theorem bytes_reverse (t : Text) : bytes t.reverse = bytes t := by
  induction t with
  | nil => rfl
  | cons c t ih =>
    rw [List.reverse_cons, bytes_append, ih, bytes_cons, bytes_cons, bytes_nil]
    omega

/-- A text that is not blank is a tight text between blanks. -/
theorem exists_tight (h : ¬t.all isBlank) :
    ∃ front back, t = front ++ trim t ++ back ∧ (trim t).Tight ∧
      t.takeWhile isBlank = front ∧ bytes (t.reverse.takeWhile isBlank) = bytes back := by
  obtain ⟨front, rest, rfl, hfront, hrest⟩ := exists_takeWhile isBlank t
  obtain ⟨back, core, hsplit, hback, hcore⟩ := exists_takeWhile isBlank rest.reverse
  obtain rfl : rest = core.reverse ++ back.reverse := by
    rw [← List.reverse_append, ← hsplit, List.reverse_reverse]
  have hnonempty : core ≠ [] := by
    rintro rfl
    refine h (List.all_eq_true.2 fun c hc => ?_)
    rw [List.mem_append, List.reverse_nil, List.nil_append, List.mem_reverse] at hc
    exact hc.elim (hfront c) (hback c)
  have htrim : trim (front ++ (core.reverse ++ back.reverse)) = core.reverse :=
    trim_append hfront (fun c hc => hback c (List.mem_reverse.1 hc)) hrest
      (by rwa [List.reverse_reverse])
  obtain ⟨c, core, rfl⟩ := List.exists_cons_of_ne_nil hnonempty
  rw [htrim]
  refine ⟨front, back.reverse, (List.append_assoc _ _ _).symm, ?_,
    takeWhile_append hfront hrest, ?_⟩
  · refine ⟨by simp, fun d hd => hrest d ?_, fun d hd => hcore d ?_⟩
    · rw [List.head?_append, Option.mem_def.1 hd, Option.some_or]
      exact Option.mem_some_self d
    · rw [List.getLast?_reverse] at hd
      exact hd
  · rw [bytes_reverse, List.reverse_append, hsplit, List.append_assoc,
      takeWhile_append hback ?_]
    simpa using hcore c rfl

end Text

/-! ## Runs of text tokens -/

namespace Span

/-- The span covers `t`, which stands in the source between `before` and `after`. No delimiter
starts in it. -/
structure Clear (source : Text) (span : Span) (before t after : Text) : Prop where
  source_eq : source = before ++ t ++ after
  start : span.start = bytes before
  stop : span.stop = bytes before + bytes t
  avoids : Avoids Piece.StartsDelimiter t after

variable {source before front t back after : Text} {span : Span}

theorem Clear.text_eq (h : Clear source span before t after) : span.text source = t := by
  rw [text, h.start, h.stop, h.source_eq, slice?_append, Option.getD_some]

/-- A leaf that covers something. -/
theorem Clear.sound {role : Role} (h : Clear source span before t after) (hnonempty : t ≠ [])
    (htight : role = .code → t.Tight) : Leaf.Sound source ⟨role, span⟩ := by
  have htext := h.text_eq
  obtain ⟨hsource, hstart, hstop, havoids⟩ := h
  refine ⟨?_, ?_, ⟨before, after, ?_, hstart, ?_⟩, ?_, ?_, ?_⟩
  · rw [hstart, hstop]
    exact Nat.le_add_right _ _
  · rw [hsource, bytes_append, bytes_append, hstop]
    exact Nat.le_add_right _ _
  · rw [htext]
    exact hsource
  · rw [htext, bytes_append]
    exact hstop
  · rwa [htext]
  · rw [htext]
    exact not_infix_of_avoids havoids
  · rwa [htext]

/-- A part of what a span covers. -/
theorem Clear.part {core : Text} {start stop : Nat} (h : Clear source span before t after)
    (ht : t = front ++ core ++ back) (hstart : start = span.start + bytes front)
    (hstop : stop = start + bytes core) :
    Clear source ⟨start, stop⟩ (before ++ front) core (back ++ after) := by
  obtain ⟨rfl, hspan, -, havoids⟩ := h
  subst ht
  refine ⟨by simp only [List.append_assoc], ?_, ?_, ?_⟩
  · rw [bytes_append, ← hspan]
    exact hstart
  · rw [bytes_append, ← hspan, ← hstart]
    exact hstop
  · exact (avoids_append.1 (avoids_append.1 havoids).1).2

/-- Taking the blanks off the ends of a span that is not blank. -/
theorem Clear.trim (h : Clear source span before t after) (ht : ¬t.all isBlank) :
    ∃ before' after', Clear source (span.trim source) before' (Text.trim t) after' ∧
      (Text.trim t).Tight ∧
      span.start ≤ (span.trim source).start ∧ (span.trim source).stop ≤ span.stop := by
  obtain ⟨front, back, hsplit, htight, hfront, hback⟩ := exists_tight ht
  have hspan : span.trim source = ⟨span.start + bytes front, span.stop - bytes back⟩ := by
    rw [Span.trim, h.text_eq, if_neg ht, hfront, hback]
  have hstop : span.stop - bytes back = span.start + bytes front + bytes (Text.trim t) := by
    have hbytes := congrArg bytes hsplit
    rw [bytes_append, bytes_append] at hbytes
    rw [h.stop, h.start]
    omega
  rw [hspan]
  refine ⟨before ++ front, back ++ after, ?_, htight, Nat.le_add_right _ _, Nat.sub_le _ _⟩
  exact h.part hsplit rfl hstop

/-- A span of which something is left without the blanks at its ends. -/
theorem Clear.not_all_of_trim (h : Clear source span before t after)
    (htrim : ¬(span.trim source).isEmpty) : ¬t.all isBlank := by
  intro hall
  rw [Span.trim, h.text_eq, if_pos hall] at htrim
  exact htrim (decide_eq_true (Nat.le_refl _))

end Span

namespace Token

variable {source : Text} {joined : Bool} {start stop : Nat} {first token : Token}
  {s t u rest : List Token}

/-- The span from the first through the last of neighbouring text tokens. -/
theorem Laid.exists_clear (h : Laid source joined start stop (first :: rest))
    (htext : ∀ token ∈ first :: rest, token.kind.isText) :
    ∃ before after,
      Span.Clear source (.covering source first (rest.getLastD first)) before
        ((first :: rest).flatMap (text source)) after ∧
      start ≤ (Span.covering source first (rest.getLastD first)).start ∧
      (Span.covering source first (rest.getLastD first)).stop ≤ stop := by
  -- The bytes at which the run ends are those of its last token.
  suffices hrun : ∃ before after,
      source = before ++ (first :: rest).flatMap (text source) ++ after ∧
      (first.range source).1 = bytes before ∧
      ((rest.getLastD first).range source).2
        = bytes before + bytes ((first :: rest).flatMap (text source)) ∧
      ((rest.getLastD first).range source).2 ≤ stop ∧
      Avoids Piece.StartsDelimiter ((first :: rest).flatMap (text source)) after by
    obtain ⟨before, after, hsource, hstart, hstop, hle, havoids⟩ := hrun
    have hspan : Span.covering source first (rest.getLastD first)
        = ⟨bytes before, bytes before + bytes ((first :: rest).flatMap (text source))⟩ := by
      rw [Span.covering, hstart, hstop, Nat.max_eq_left (Nat.le_add_right _ _)]
    rw [hspan]
    exact ⟨before, after, ⟨hsource, rfl, rfl, havoids⟩, hstart ▸ h.2.1, hstop ▸ hle⟩
  induction rest generalizing first joined start with
  | nil =>
    obtain ⟨⟨before, after, hcovers, hfits⟩, -, -, hrest⟩ := h
    have hrange := hcovers.range_eq
    have hfirst := htext first List.mem_cons_self
    rw [List.flatMap_cons, List.flatMap_nil, List.append_nil, List.getLastD_nil, hrange]
    refine ⟨before, after, hcovers.source_eq, rfl, rfl, ?_, (hfits hfirst).avoids hfirst⟩
    rw [hrange] at hrest
    exact hrest
  | cons second rest ih =>
    obtain ⟨⟨before, after, hcovers, hfits⟩, -, -, hrest⟩ := h
    have hfirst := htext first List.mem_cons_self
    obtain ⟨before', after', hsource, hstart, hstop, hle, havoids⟩ :=
      ih hrest fun token htoken => htext token (List.mem_cons_of_mem first htoken)
    -- Both tokens are text, so the second starts where the first ends.
    have hjoined := hrest.2.2.1 hfirst (htext second (by simp))
    rw [hstart, hcovers.range_eq, ← bytes_append] at hjoined
    rw [List.append_assoc] at hsource
    obtain ⟨rfl, rfl⟩ := append_inj_of_bytes (hsource.symm.trans hcovers.source_eq) hjoined
    rw [List.flatMap_cons, List.getLastD_cons]
    refine ⟨before, after', by simpa only [List.append_assoc] using hsource,
      by rw [hcovers.range_eq], ?_, hle, ?_⟩
    · rw [hstop, bytes_append, bytes_append, Nat.add_assoc]
    · exact avoids_append.2 ⟨(hfits hfirst).avoids hfirst, havoids⟩

/-- A middle part of the tokens. -/
theorem Laid.middle (h : Laid source joined start stop (s ++ t ++ u)) :
    ∃ start' stop', start ≤ start' ∧ stop' ≤ stop ∧ Laid source false start' stop' t := by
  obtain ⟨stop', h, hu⟩ := h.split
  obtain ⟨start', hs, ht⟩ := h.split
  exact ⟨start', stop', hs.le, hu.le, ht⟩

/-- A raw token is not blank. -/
theorem Rests.exists_not_isBlank (h : token.Rests source) (hraw : token.kind = .raw) :
    ∃ c ∈ token.text source, ¬isBlank c := by
  obtain ⟨before, after, hcovers, hfits⟩ := h
  have hfits := hfits (by rw [hraw]; rfl)
  rw [Piece.Fits, piece, hraw] at hfits
  obtain ⟨c, t, hc⟩ := List.exists_cons_of_ne_nil hcovers.nonempty
  have hmem : c ∈ token.text source := hc ▸ List.mem_cons_self
  exact ⟨c, hmem, hfits.1 c hmem⟩

/-- A text token that is not raw is blank. -/
theorem Rests.isBlank (h : token.Rests source) (htext : token.kind.isText)
    (hraw : token.kind ≠ .raw) : ∀ c ∈ token.text source, Text.isBlank c := by
  obtain ⟨_, _, -, hfits⟩ := h
  exact (hfits htext).isBlank htext hraw

/-- Neighbouring text tokens with a raw one among them, without the blanks at the ends. -/
theorem Laid.exists_trim (h : Laid source joined start stop (first :: rest))
    (htext : ∀ token ∈ first :: rest, token.kind.isText)
    (hraw : ∃ token ∈ first :: rest, token.kind = .raw) :
    ∃ before after,
      Span.Clear source ((Span.covering source first (rest.getLastD first)).trim source) before
        (Text.trim ((first :: rest).flatMap (text source))) after ∧
      (Text.trim ((first :: rest).flatMap (text source))).Tight ∧
      start ≤ ((Span.covering source first (rest.getLastD first)).trim source).start ∧
      ((Span.covering source first (rest.getLastD first)).trim source).stop ≤ stop := by
  obtain ⟨before, after, hclear, hstart, hstop⟩ := h.exists_clear htext
  obtain ⟨raw, hmem, hraw⟩ := hraw
  obtain ⟨c, hc, hblank⟩ := (h.rests raw hmem).exists_not_isBlank hraw
  have hall : ¬((first :: rest).flatMap (text source)).all isBlank := fun hall =>
    hblank (List.all_eq_true.1 hall c (List.mem_flatMap.2 ⟨raw, hmem, hc⟩))
  obtain ⟨before', after', hclear', htight, hstart', hstop'⟩ := hclear.trim hall
  exact ⟨before', after', hclear', htight, by omega, by omega⟩

end Token

/-! ## Blocks -/

namespace Block

variable {source : Text} {block : Block} {joined : Bool} {start stop : Nat}

/-- The content of a block. -/
theorem Formed.exists_content (hformed : block.Formed)
    (h : Token.Laid source joined start stop block.tokens) :
    ∃ before t after, Span.Clear source (block.content source) before t after ∧ t.Tight ∧
      start ≤ (block.content source).start ∧ (block.content source).stop ≤ stop := by
  obtain ⟨first, rest, hinner, hfirst, hlast⟩ : ∃ first rest,
      block.lead ++ block.identifier :: block.more = first :: rest ∧
      block.lead.headD block.identifier = first ∧
      block.more.getLastD block.identifier = rest.getLastD first := by
    cases block.lead with
    | nil => exact ⟨_, _, rfl, rfl, rfl⟩
    | cons first rest =>
      refine ⟨first, rest ++ block.identifier :: block.more, rfl, rfl, ?_⟩
      simp [List.getLastD_eq_getLast?, List.getLast?_append, List.getLast?_cons]
  have htokens : block.tokens = [block.enter] ++ (first :: rest) ++ [block.exit] := by
    rw [← hinner, tokens]
    simp
  rw [htokens] at h
  obtain ⟨start', stop', hstart, hstop, hlaid⟩ := h.middle
  obtain ⟨before, after, hclear, htight, hstart', hstop'⟩ := hlaid.exists_trim
    (fun token htoken => hformed.isText token (hinner ▸ htoken))
    ⟨block.identifier, by rw [← hinner]; simp, hformed.identifier⟩
  rw [content, hfirst, hlast]
  exact ⟨before, _, after, hclear, htight, by omega, by omega⟩

/-- What follows the identifier of a block, if that is not all. -/
theorem Formed.exists_remainder (hformed : block.Formed) (hbare : ¬block.Bare)
    (h : Token.Laid source joined start stop block.tokens) :
    ∃ before after,
      Span.Clear source (block.remainder source) before
        (Text.trim (block.more.flatMap (Token.text source))) after ∧
      (Text.trim (block.more.flatMap (Token.text source))).Tight ∧
      start ≤ (block.remainder source).start ∧ (block.remainder source).stop ≤ stop := by
  obtain ⟨raw, hmem, hraw⟩ : ∃ token ∈ block.more, token.kind = .raw := by
    simpa [Bare] using hbare
  obtain ⟨first, rest, hmore⟩ := List.exists_cons_of_ne_nil (List.ne_nil_of_mem hmem)
  have htokens : block.tokens
      = (block.enter :: block.lead ++ [block.identifier]) ++ (first :: rest) ++ [block.exit] := by
    rw [tokens, hmore]
    simp
  rw [htokens] at h
  obtain ⟨start', stop', hstart, hstop, hlaid⟩ := h.middle
  obtain ⟨before, after, hclear, htight, hstart', hstop'⟩ := hlaid.exists_trim
    (fun token htoken => hformed.more token (hmore ▸ htoken)) ⟨raw, hmore ▸ hmem, hraw⟩
  have hspan : block.remainder source
      = (Span.covering source first (rest.getLastD first)).trim source := by
    rw [remainder, hmore]
  rw [hspan, hmore]
  exact ⟨before, after, hclear, htight, by omega, by omega⟩

/-- There is more to a block if what follows the identifier is not blank. -/
theorem Formed.not_bare (hformed : block.Formed)
    (h : Token.Laid source joined start stop block.tokens)
    (hmore : ¬(block.more.flatMap (Token.text source)).all isBlank) : ¬block.Bare := by
  intro hbare
  apply hmore
  rw [List.all_eq_true]
  intro c hc
  obtain ⟨token, htoken, hc⟩ := List.mem_flatMap.1 hc
  have hmem : token ∈ block.tokens := by simp [tokens, htoken]
  exact (h.rests token hmem).isBlank (hformed.more token htoken) (hbare token htoken) c hc

variable {previous : Option Span} {stop' : Nat} {leaves : List Leaf}

/-- The content of a block as a leaf, before others. -/
theorem Formed.spread_content (hformed : block.Formed)
    (h : Token.Laid source joined start stop block.tokens)
    (hleaves : Leaf.Spread source stop none stop' leaves) :
    Leaf.Spread source start previous stop' (⟨.code, block.content source⟩ :: leaves) := by
  obtain ⟨before, t, after, hclear, htight, hstart, hstop⟩ := hformed.exists_content h
  exact .code (hclear.sound htight.1 fun _ => htight) hstart (hleaves.weaken hstop)

/-- What follows the identifier of a block as a leaf, before others. -/
theorem Formed.spread_remainder (hformed : block.Formed) (hbare : ¬block.Bare)
    (h : Token.Laid source joined start stop block.tokens)
    (hleaves : Leaf.Spread source stop none stop' leaves) :
    Leaf.Spread source start previous stop' (⟨.code, block.remainder source⟩ :: leaves) := by
  obtain ⟨before, after, hclear, htight, hstart, hstop⟩ := hformed.exists_remainder hbare h
  exact .code (hclear.sound htight.1 fun _ => htight) hstart (hleaves.weaken hstop)

end Block

/-! ## Calls -/

namespace Span

variable {source before t after : Text} {span name found : Span} {arguments : List Span}
  {stop : Nat}

/-- A span without the blanks at its ends, if there is more to it, and code after it. -/
theorem Clear.spread_trim (h : Clear source span before t after) {spans : List Span}
    (hspans : Leaf.Spread source span.stop none stop
      ((spans.filter (!·.isEmpty)).map (⟨.code, ·⟩))) :
    Leaf.Spread source span.start none stop
      (((span.trim source :: spans).filter (!·.isEmpty)).map (⟨.code, ·⟩)) := by
  by_cases hempty : (span.trim source).isEmpty
  · have hle : span.start ≤ span.stop := by
      rw [h.start, h.stop]
      exact Nat.le_add_right _ _
    rw [List.filter_cons_of_neg (by simpa using hempty)]
    exact hspans.weaken hle
  · obtain ⟨before', after', hclear, htight, hstart, hstop⟩ := h.trim (h.not_all_of_trim hempty)
    rw [List.filter_cons_of_pos (by simpa using hempty), List.map_cons]
    exact .code (hclear.sound htight.1 fun _ => htight) hstart (hspans.weaken hstop)

/-- The first one of the parts that a span has between separators. -/
theorem Clear.first_part {separator : Char} {part : Text} {parts : List Text}
    (h : Clear source span before (joinWith [separator] (part :: parts)) after) :
    ∃ before' after', Clear source ⟨span.start, span.start + bytes part⟩ before' part after' := by
  obtain ⟨back, hback⟩ : ∃ back, joinWith [separator] (part :: parts) = [] ++ part ++ back := by
    cases parts with
    | nil => exact ⟨[], (List.append_nil part).symm⟩
    | cons next parts => exact ⟨_, List.append_assoc _ _ _⟩
  exact ⟨_, _, h.part hback (Nat.add_zero _).symm rfl⟩

/-- The other parts are what is left after the first one and a separator. -/
theorem Clear.later_parts {separator : Char} {part next : Text} {parts : List Text}
    (h : Clear source span before (joinWith [separator] (part :: next :: parts)) after) :
    ∃ before', Clear source ⟨span.start + bytes part + separator.utf8Size, span.stop⟩ before'
      (joinWith [separator] (next :: parts)) after := by
  have hjoin : joinWith [separator] (part :: next :: parts)
      = (part ++ [separator]) ++ joinWith [separator] (next :: parts) ++ [] :=
    (List.append_nil _).symm
  have hsize : span.start + bytes part + separator.utf8Size
      = span.start + bytes (part ++ [separator]) := by
    rw [bytes_append, bytes_cons, bytes_nil, Nat.add_zero, Nat.add_assoc]
  have hstop : span.stop = span.start + bytes part + separator.utf8Size
      + bytes (joinWith [separator] (next :: parts)) := by
    rw [h.stop, ← h.start, hjoin, List.append_nil, bytes_append, hsize, Nat.add_assoc]
  rw [hstop]
  exact ⟨_, h.part hjoin hsize rfl⟩

/-- The parts of a span between separators, without the blanks at their ends. -/
theorem Clear.spread_ranges {separator : Char} {parts : List Text}
    (h : Clear source span before t after) (ht : joinWith [separator] parts = t) :
    Leaf.Spread source span.start none span.stop
      ((((Nesting.ranges separator span.start parts).map
        fun (start, stop) => Span.trim source ⟨start, stop⟩).filter
          (!·.isEmpty)).map (⟨.code, ·⟩)) := by
  subst ht
  induction parts generalizing span before with
  | nil =>
    refine .nil ?_
    rw [h.start, h.stop]
    exact Nat.le_add_right _ _
  | cons part parts ih =>
    obtain ⟨_, _, hfirst⟩ := h.first_part
    rw [Nesting.ranges, List.map_cons]
    refine hfirst.spread_trim ?_
    cases parts with
    | nil =>
      refine .nil (Nat.le_of_eq ?_)
      rw [h.stop, h.start]
      rfl
    | cons next parts =>
      obtain ⟨_, hlater⟩ := h.later_parts
      exact (ih hlater).weaken (Nat.le_add_right _ _)

/-- A span is empty without the blanks at its ends if there is nothing else. -/
theorem Clear.isEmpty_trim (h : Clear source span before t after) :
    (span.trim source).isEmpty = t.all isBlank := by
  by_cases ht : t.all isBlank
  · rw [ht, Span.trim, h.text_eq, if_pos ht]
    exact decide_eq_true (Nat.le_refl _)
  · obtain ⟨_, _, hclear, htight, -⟩ := h.trim ht
    rw [Bool.not_eq_true] at ht
    rw [ht, isEmpty, decide_eq_false_iff_not, hclear.start, hclear.stop]
    have := bytes_pos htight.1
    omega

/-- The text of a span without the blanks at its ends, if there is more to it, and of others. -/
theorem Clear.map_text_trim (h : Clear source span before t after) (spans : List Span) :
    ((span.trim source :: spans).filter (!·.isEmpty)).map (text source)
      = ([t].filter (!·.all isBlank)).map Text.trim
        ++ (spans.filter (!·.isEmpty)).map (text source) := by
  by_cases ht : t.all isBlank
  · rw [List.filter_cons_of_neg (by simp [h.isEmpty_trim, ht]),
      List.filter_cons_of_neg (by simpa using ht)]
    rfl
  · obtain ⟨_, _, hclear, -⟩ := h.trim ht
    rw [List.filter_cons_of_pos (by simp [h.isEmpty_trim, ht]),
      List.filter_cons_of_pos (by simpa using ht), List.map_cons, hclear.text_eq]
    rfl

/-- The texts of the parts that a span has between separators, as far as they are not blank. -/
theorem Clear.map_text_ranges {separator : Char} {parts : List Text}
    (h : Clear source span before (joinWith [separator] parts) after) :
    (((Nesting.ranges separator span.start parts).map
        fun (start, stop) => Span.trim source ⟨start, stop⟩).filter
          (!·.isEmpty)).map (text source)
      = (parts.filter (!·.all isBlank)).map Text.trim := by
  induction parts generalizing span before with
  | nil => rfl
  | cons part parts ih =>
    obtain ⟨_, _, hfirst⟩ := h.first_part
    rw [Nesting.ranges, List.map_cons, ← List.singleton_append (l := parts), List.filter_append,
      List.map_append]
    refine (hfirst.map_text_trim _).trans ?_
    rw [List.append_right_inj]
    cases parts with
    | nil => rfl
    | cons next parts =>
      obtain ⟨_, hlater⟩ := h.later_parts
      have hparts := ih hlater
      exact hparts

/-- The name of a call stands before the first parenthesis, and the arguments between it and the
last one. -/
theorem Clear.call_parts {front inner : Text}
    (h : Clear source span before (front ++ '(' :: (inner ++ [')'])) after) :
    (∃ before' after',
      Clear source ⟨span.start, span.start + bytes front⟩ before' front after') ∧
      ∃ before' after', Clear source
        ⟨span.start + bytes front + 1, span.start + bytes front + 1 + bytes inner⟩
        before' inner after' := by
  constructor
  · have hsplit : front ++ '(' :: (inner ++ [')']) = [] ++ front ++ '(' :: (inner ++ [')']) := rfl
    exact ⟨_, _, h.part hsplit (Nat.add_zero _).symm rfl⟩
  · refine ⟨before ++ (front ++ ['(']), [')'] ++ after, h.part (by simp) ?_ rfl⟩
    rw [bytes_append, ← Nat.add_assoc]
    rfl

/-- Name and arguments of a call. -/
theorem Clear.spread_call (h : Clear source span before t after)
    (hcall : span.IsCall source name arguments) :
    Leaf.Spread source span.start none span.stop
      (⟨.code, name⟩ :: arguments.map (⟨.code, ·⟩)) := by
  obtain ⟨front, inner, ht, -, -, rfl, hname, rfl⟩ := hcall
  rw [h.text_eq] at ht
  subst ht
  obtain ⟨⟨_, _, hfront⟩, ⟨_, _, hinner⟩⟩ := h.call_parts
  have hstop : span.start + bytes front + 1 + bytes inner ≤ span.stop := by
    have hparenthesis : ∀ t, bytes ('(' :: t) = 1 + bytes t := fun _ => rfl
    rw [h.stop, h.start, bytes_append, hparenthesis, bytes_append]
    omega
  obtain ⟨before', after', hclear, htight, hstart', hstop'⟩ :=
    hfront.trim (hfront.not_all_of_trim hname)
  have hparts : joinWith [','] (Nesting.split ',' inner) = inner :=
    Nesting.join_splitFrom ',' (.outside 0) inner
  refine .code (hclear.sound htight.1 fun _ => htight) hstart' ?_
  exact ((hinner.spread_ranges hparts).widen hstop).weaken
    (Nat.le_trans hstop' (Nat.le_add_right _ _))

/-- An indentation that is found at the end of a text is all that stands on its line, up to
there. -/
theorem Clear.exists_indentation (h : Clear source span before t after)
    (hfound : span.indentation? source = some found) :
    ∃ lead line, t = lead ++ line ∧ line ≠ [] ∧ (∀ c ∈ line, isBlank c) ∧ '\n' ∉ line ∧
      (∀ c ∈ (before ++ lead).getLast?, c = '\n') ∧
      found = ⟨span.stop - bytes line, span.stop⟩ := by
  have htake : takeBytes? source span.stop = some (before ++ t) := by
    rw [h.source_eq, h.stop, ← bytes_append, takeBytes?_bytes_append]
  obtain ⟨front, hfront, hends⟩ := exists_append_lastLine (before ++ t)
  have hinLine := not_mem_lastLine (before ++ t)
  rw [indentation?, htake, Option.bind_some] at hfound
  generalize lastLine (before ++ t) = line at hfound hfront hinLine
  simp only at hfound
  split at hfound
  · rename_i hline
    obtain ⟨hstart, hlt, hblank⟩ := hline
    cases hfound
    have hspan := h.stop
    rw [h.start] at hstart
    -- The line does not start before the span does, so it is an end of the text of the span.
    obtain ⟨lead, rfl, rfl⟩ : ∃ lead, front = before ++ lead ∧ t = lead ++ line := by
      rcases List.append_eq_append_iff.1 hfront with ⟨lead, hlead, ht⟩ | ⟨lead, hbefore, hline⟩
      · exact ⟨lead, hlead, ht⟩
      · have hlead : lead = [] := by
          by_contra hne
          have hpos := bytes_pos hne
          rw [hbefore, hline, bytes_append, bytes_append] at hstart
          rw [hbefore, bytes_append] at hspan
          omega
        subst hlead
        rw [List.append_nil] at hbefore
        exact ⟨[], by rw [hbefore, List.append_nil], hline.symm⟩
    refine ⟨lead, line, rfl, ?_, List.all_eq_true.1 hblank, hinLine, hends, rfl⟩
    rintro rfl
    rw [bytes_nil] at hlt
    omega
  · cases hfound

/-- The indentation that is found at the end of a text. -/
theorem Clear.indentation (h : Clear source span before t after)
    (hfound : span.indentation? source = some found) :
    Leaf.Sound source ⟨.indentation, found⟩ ∧ span.start ≤ found.start ∧
      found.stop = span.stop := by
  obtain ⟨lead, line, rfl, hnonempty, -, -, -, rfl⟩ := h.exists_indentation hfound
  have hspan := h.stop
  rw [bytes_append, ← h.start] at hspan
  have hsplit : lead ++ line = lead ++ line ++ [] := (List.append_nil _).symm
  have hclear : Clear source ⟨span.stop - bytes line, span.stop⟩ (before ++ lead) line
      ([] ++ after) := h.part hsplit (by omega) (by omega)
  refine ⟨hclear.sound hnonempty nofun, ?_, rfl⟩
  show span.start ≤ span.stop - bytes line
  omega

end Span

end Stencil
