import Stencil.Proofs.Token.Place

/-!
# Lines and columns

Positions are counted on from token to token. They come to what a count over the source gives: the
line by the line feeds before a place, the column by the characters since the last of them. A line
feed stands at the end of a line break and in no other token, so counting on inside of a token is
always on one line.

Main statement: `placed_of_mem_scan`.
-/

namespace Stencil

open Text

namespace Text

variable {s t : Text}

theorem lastLine_append (h : '\n' ∉ t) : lastLine (s ++ t) = lastLine s ++ t := by
  have hall : ∀ c ∈ t.reverse, decide (c ≠ '\n') := fun c hc => by
    simpa using fun hline : c = '\n' => h (hline ▸ List.mem_reverse.1 hc)
  rw [lastLine, List.reverse_append, List.takeWhile_append_of_pos hall, List.reverse_append,
    List.reverse_reverse, lastLine]

theorem lastLine_concat (s : Text) : lastLine (s ++ ['\n']) = [] := by
  simp [lastLine]

end Text

namespace Position

/-- The place that a first part of a template leads to, counted over all of it. -/
def after (before : Text) : Position :=
  ⟨1 + before.count '\n', 1 + (lastLine before).length, bytes before⟩

variable {before t : Text}

theorem past_after (h : '\n' ∉ t) : (after before).past t = after (before ++ t) := by
  rw [past, after, after, lastLine_append h, List.count_append, List.count_eq_zero_of_not_mem h,
    List.length_append, bytes_append, Nat.add_zero, Nat.add_assoc, Int.natCast_add]

theorem nextLine_after (h : '\n' ∉ t) :
    (after before).nextLine (t ++ ['\n']) = after (before ++ (t ++ ['\n'])) := by
  have hcount : (before ++ (t ++ ['\n'])).count '\n' = before.count '\n' + 1 := by
    rw [List.count_append, List.count_append, List.count_eq_zero_of_not_mem h]
    simp
  have hline : lastLine (before ++ (t ++ ['\n'])) = [] := by
    rw [← List.append_assoc, lastLine_concat]
  rw [nextLine, after, after, hcount, hline, bytes_append before, Nat.add_assoc, Int.natCast_add]
  rfl

end Position

namespace Piece

variable {piece : Piece} {after : Text}

/-- Only line breaks have a line feed. -/
theorem Fits.not_mem (h : piece.Fits after) (hkind : piece.kind ≠ .newline) :
    '\n' ∉ piece.text := by
  intro hmem
  obtain ⟨kind, t⟩ := piece
  have hliteral : ∀ kind ∈ Kind.delimiters, '\n' ∉ kind.literal := by decide
  cases kind with
  | eof => exact h.elim
  | newline => exact hkind rfl
  | blank =>
    obtain ⟨front, back, rfl⟩ := List.append_of_mem hmem
    exact h.2 front ('\n' :: back) rfl (List.cons_ne_nil _ _) (.inl (List.prefix_append ['\n'] _))
  | raw => exact h.1 '\n' hmem rfl
  | enter family trims => exact hliteral _ (mem_delimiters (.inl rfl)) (h.1 ▸ hmem)
  | exit family trims => exact hliteral _ (mem_delimiters (.inr rfl)) (h ▸ hmem)

/-- A line break ends with its one line feed. -/
theorem Fits.exists_concat (h : piece.Fits after) (hkind : piece.kind = .newline) :
    ∃ front, piece.text = front ++ ['\n'] ∧ '\n' ∉ front := by
  rw [Fits, hkind] at h
  rcases h with h | h
  · exact ⟨[], h, by decide⟩
  · exact ⟨['\r'], h, by decide⟩

end Piece

namespace Token

/-- The token covers its text, and its positions are those of the first and the last character of
that text. -/
def Placed (source : Text) (token : Token) : Prop :=
  ∃ before after, source = before ++ token.text source ++ after ∧ token.text source ≠ [] ∧
    token.first = .after before ∧ token.last = .after (before ++ (token.text source).dropLast)

variable {source before after : Text} {pieces : List Piece}

theorem placed_of_mem_locate (hsource : source = before ++ after)
    (h : Piece.Segmentation after pieces) :
    ∀ token ∈ locate (.after before) pieces, token.kind ≠ .eof → token.Placed source := by
  induction pieces generalizing before after with
  | nil =>
    intro token htoken hkind
    rw [locate, List.mem_singleton] at htoken
    exact absurd (congrArg kind htoken) hkind
  | cons first pieces ih =>
    obtain ⟨rest, rfl, hnonempty, hfits, -, hrest⟩ := Piece.segmentation_cons.1 h
    have hcovers := covers_of_fits (p := .after before) rfl hsource hnonempty hfits
    -- What follows the first token has to start where that one ends.
    suffices hplaces : Position.past (.after before) first.text.dropLast
          = .after (before ++ first.text.dropLast) ∧
        (if first.kind = .newline then Position.nextLine (.after before) first.text
          else Position.past (.after before) first.text) = .after (before ++ first.text) by
      rw [locate, List.forall_mem_cons, hplaces.2]
      refine ⟨fun _ => ⟨before, rest, ?_, ?_, rfl, ?_⟩, ih ?_ hrest⟩
      · rw [hcovers.text_eq]
        exact hcovers.source_eq
      · rwa [hcovers.text_eq]
      · rw [hcovers.text_eq]
        exact hplaces.1
      · rw [hsource, List.append_assoc]
    by_cases hkind : first.kind = .newline
    · obtain ⟨front, htext, hfront⟩ := hfits.exists_concat hkind
      rw [if_pos hkind, htext, List.dropLast_concat]
      exact ⟨Position.past_after hfront, Position.nextLine_after hfront⟩
    · have hline := hfits.not_mem hkind
      rw [if_neg hkind]
      exact ⟨Position.past_after fun hmem => hline (List.dropLast_subset _ hmem),
        Position.past_after hline⟩

/-- The tokens of a source stand where a count over the source says. -/
theorem placed_of_mem_scan {token : Token} (htoken : token ∈ scan source)
    (hkind : token.kind ≠ .eof) : token.Placed source :=
  placed_of_mem_locate (List.nil_append source).symm (Piece.segmentation_iff.2 rfl) token htoken
    hkind

end Token

end Stencil
