import Stencil.Proofs.Token.Cutting
import Stencil.Proofs.Token.Gaps

/-!
# Stretches without delimiters

Lone braces, percent signs and dashes are text like any other. Where no delimiter starts, a template
is cut into text pieces only, and these end where the next delimiter starts: a piece that went on
past that place would have the start of a delimiter in it.

* `Text.avoids_of_no_literal`: how to see that no delimiter starts in a text.
* `Piece.exists_segment_text`: the pieces of a stretch.
* `Token.exists_scan_text`: the tokens of a template that is one stretch.
-/

namespace Stencil

open Text

/-- Where no delimiter starts, there is none. -/
theorem Text.not_infix_of_avoids {t after : Text} (h : Avoids Piece.StartsDelimiter t after) :
    ∀ kind ∈ Kind.delimiters, ¬kind.literal <:+: t := by
  rintro kind hkind ⟨front, back, rfl⟩
  have hnonempty : ∀ kind ∈ Kind.delimiters, kind.literal ≠ [] := by decide
  refine h front (kind.literal ++ back) (List.append_assoc _ _ _) ?_ ⟨kind, hkind, ?_⟩
  · exact List.append_ne_nil_of_left_ne_nil (hnonempty kind hkind) back
  · rw [List.append_assoc]
    exact List.prefix_append _ _

/-- Where a text has no delimiter in it, none starts, unless one goes on into the text after it. A
blank keeps it from that. -/
theorem Text.avoids_of_no_literal {t after : Text}
    (h : ∀ kind ∈ Kind.delimiters, ¬kind.literal <:+: t) (hafter : ∀ c ∈ after.head?, isBlank c) :
    Avoids Piece.StartsDelimiter t after := by
  rintro front back rfl hback ⟨kind, hkind, hstart⟩
  have hblanks : Kind.delimiters.all fun kind => kind.literal.all (!isBlank ·) := by decide
  have hinner : kind.literal <+: back := by
    apply Piece.prefix_of_append hback _ hstart
    intro c hc hmem
    have hblank := List.all_eq_true.1 (List.all_eq_true.1 hblanks kind hkind) c
      (List.mem_of_mem_tail hmem)
    rw [hafter c hc] at hblank
    cases hblank
  exact h kind hkind (hinner.isInfix.trans (List.suffix_append front back).isInfix)

/-- No delimiter starts at a blank. -/
theorem Text.avoids_blank {c : Char} (h : isBlank c) (after : Text) :
    Avoids Piece.StartsDelimiter [c] after :=
  avoids_cons.2 ⟨fun hstart => Piece.not_isBlank_of_startsDelimiter hstart h, avoids_nil⟩

/-- A piece of text that is not raw is blank. -/
theorem Piece.Fits.isBlank {piece : Piece} {after : Text} (h : piece.Fits after)
    (htext : piece.kind.isText) (hraw : piece.kind ≠ .raw) :
    ∀ c ∈ piece.text, Text.isBlank c := by
  obtain ⟨kind, t⟩ := piece
  cases kind with
  | raw => exact absurd rfl hraw
  | blank => exact h.1
  | newline =>
    obtain rfl | rfl : t = ['\n'] ∨ t = ['\r', '\n'] := h
    all_goals exact List.all_eq_true.1 (by decide)
  | eof | enter | exit => cases htext

/-- No delimiter starts in a piece of text. -/
theorem Piece.Fits.avoids {piece : Piece} {after : Text} (h : piece.Fits after)
    (htext : piece.kind.isText) : Avoids StartsDelimiter piece.text after := by
  by_cases hraw : piece.kind = .raw
  · rw [Fits, hraw] at h
    exact h.2
  · -- A delimiter does not start with a blank.
    intro front back hsplit hback hstart
    obtain ⟨c, back, rfl⟩ := List.exists_cons_of_ne_nil hback
    apply not_isBlank_of_startsDelimiter hstart
    exact h.isBlank htext hraw c (by simp [hsplit])

namespace Piece

variable {stretch after : Text}

/-- A stretch in which no delimiter starts is cut into text pieces, and the text after it is cut as
if it stood alone. -/
theorem exists_segment_text (havoids : Avoids StartsDelimiter stretch after)
    (hafter : after = [] ∨ StartsDelimiter after) :
    ∃ pieces, segment (stretch ++ after) = pieces ++ segment after ∧
      (∀ piece ∈ pieces, piece.kind.isText) ∧ (pieces.map text).flatten = stretch := by
  induction hlength : stretch.length using Nat.strong_induction_on generalizing stretch with
  | _ n ih =>
    rcases eq_or_ne stretch [] with rfl | hstretch
    · exact ⟨[], rfl, by simp, rfl⟩
    obtain ⟨piece, rest, hsplit, hnonempty, hfits, hends⟩ :=
      exists_leading (List.append_ne_nil_of_left_ne_nil hstretch after)
    have hstart : ¬StartsDelimiter (stretch ++ after) := havoids [] stretch rfl hstretch
    have htext : piece.kind.isText := by
      by_contra hkind
      have hliteral : piece.kind ∈ Kind.delimiters ∧ piece.text = piece.kind.literal := by
        obtain ⟨kind, t⟩ := piece
        cases kind with
        | eof => exact hfits.elim
        | blank | newline | raw => exact absurd rfl hkind
        | enter => exact ⟨mem_delimiters (.inl rfl), hfits.1⟩
        | exit => exact ⟨mem_delimiters (.inr rfl), hfits⟩
      apply hstart
      rw [hsplit, hliteral.2]
      exact ⟨_, hliteral.1, List.prefix_append _ rest⟩
    -- The piece ends in the stretch, since a delimiter starts right after that.
    obtain ⟨later, rfl, rfl⟩ : ∃ later, stretch = piece.text ++ later ∧ rest = later ++ after := by
      rcases List.append_eq_append_iff.1 hsplit with ⟨more, hpiece, hmore⟩ | ⟨later, h, h'⟩
      · rcases eq_or_ne more [] with rfl | hne
        · exact ⟨[], by simpa using hpiece.symm, by simpa using hmore.symm⟩
        · rcases hafter with rfl | hdelimiter
          · simp [hne] at hmore
          · rw [hmore] at hdelimiter
            exact absurd hdelimiter (hfits.avoids htext stretch more hpiece hne)
      · exact ⟨later, h, h'⟩
    have hshorter : later.length < n := by
      have hpos := List.length_pos_iff.2 hnonempty
      rw [List.length_append] at hlength
      omega
    obtain ⟨pieces, hpieces, htexts, hflatten⟩ :=
      ih later.length hshorter (avoids_append.1 havoids).2 rfl
    refine ⟨piece :: pieces, ?_, List.forall_mem_cons.2 ⟨htext, htexts⟩, ?_⟩
    · rw [hsplit, segment_append hnonempty (leading_eq hnonempty hfits hends), hpieces,
        List.cons_append]
    · rw [List.map_cons, List.flatten_cons, hflatten]

end Piece

namespace Token

/-- The tokens of a template without delimiters are text, they stand side by side, and they cover
all of it. -/
theorem exists_scan_text {source : Text} (h : Avoids Piece.StartsDelimiter source []) :
    ∃ tokens, scan source = tokens ++ [eof] ∧ Laid source false 0 (bytes source) tokens ∧
      (∀ token ∈ tokens, token.kind.isText) ∧ tokens.flatMap (text source) = source := by
  obtain ⟨pieces, hpieces, htexts, hflatten⟩ := Piece.exists_segment_text h (.inl rfl)
  rw [List.append_nil, Piece.segment, List.append_nil] at hpieces
  obtain ⟨tokens, hscan, htile, htokens, hstands⟩ :=
    exists_scan (Piece.segmentation_iff.2 hpieces.symm)
  refine ⟨tokens, hscan, .of_tile hstands htile, fun token htoken => ?_, ?_⟩
  · exact htexts (token.piece source) (htokens ▸ List.mem_map_of_mem htoken)
  · rw [← flatten_piece, htokens, hflatten]

/-- Without trim markers nothing is trimmed. -/
theorem trim_eq_self {tokens : List Token} (h : ∀ token ∈ tokens, ¬token.kind.isTrim) :
    trim tokens = tokens :=
  trimOnto_of_not_isTrim h []

end Token

end Stencil
