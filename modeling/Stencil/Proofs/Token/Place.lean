import Stencil.Proofs.Token.Segmentation
import Stencil.Token.Basic

/-!
# Where tokens stand

A token holds the positions of its first and of its last character. For the tokens of a source these
lead back to the parts that the source was cut into: each token covers its part, the parts follow
one another without a gap, and they are the one segmentation of the source.

* `Covers.range_eq`, `Covers.text_eq`: range and text of a token, from where it stands.
* `exists_locate`: the tokens of consecutive pieces cover these pieces.
* `scan_segmentation`: the tokens of a source.
-/

namespace Stencil

open Text

/-- The ranges are not empty, and each starts where the one before it ends, from `start` up to
`stop`. -/
def Tile (start stop : Nat) : List (Nat × Nat) → Prop
  | [] => start = stop
  | range :: ranges => range.1 = start ∧ range.1 < range.2 ∧ Tile range.2 stop ranges

namespace Token

/-- The token covers `t`, which stands in the source between `before` and `after`. -/
structure Covers (source : Text) (token : Token) (before t after : Text) : Prop where
  source_eq : source = before ++ t ++ after
  nonempty : t ≠ []
  kind : token.kind ≠ .eof
  first : token.first.offset = bytes before
  last : token.last.offset = bytes before + bytes t.dropLast

namespace Covers

variable {source before t after : Text} {token : Token}

theorem range_eq (h : Covers source token before t after) :
    token.range source = (bytes before, bytes before + bytes t) := by
  obtain ⟨rfl, hnonempty, hkind, hfirst, hlast⟩ := h
  obtain ⟨front, c, rfl⟩ : ∃ front c, t = front ++ [c] :=
    ⟨_, _, (List.dropLast_append_getLast hnonempty).symm⟩
  rw [List.dropLast_concat] at hlast
  have hoffsets : ¬(token.kind = .eof ∨ token.first.offset < 0 ∨ token.last.offset < 0) := by
    rw [hfirst, hlast]
    push Not
    exact ⟨hkind, by omega, by omega⟩
  -- The last character of the token is what stands at its last offset.
  have hstop : token.last.offset.toNat = bytes (before ++ front) := by
    rw [hlast, bytes_append]
    omega
  have hdrop : dropBytes? (before ++ (front ++ [c]) ++ after) (bytes (before ++ front))
      = some (c :: after) := by
    have := dropBytes?_bytes_append (before ++ front) (c :: after)
    simpa only [List.append_assoc, List.cons_append, List.nil_append] using this
  rw [range, if_neg hoffsets]
  simp only [hstop, hdrop, hfirst, Option.bind_some, List.head?_cons, Option.elim_some,
    Int.toNat_natCast]
  simp only [bytes_append, bytes_cons, bytes_nil, Nat.add_zero, Nat.add_assoc]

theorem text_eq (h : Covers source token before t after) : token.text source = t := by
  rw [text, h.range_eq]
  simp only
  rw [h.source_eq, slice?_append, Option.getD_some]

end Covers

/-- The kind of a token with its text. -/
def piece (source : Text) (token : Token) : Piece := ⟨token.kind, token.text source⟩

/-- The token covers a part of the source that is what its kind says. -/
def Stands (source : Text) (token : Token) : Prop :=
  ∃ before after, Covers source token before (token.text source) after ∧
    (token.piece source).Fits after

variable {source before after : Text} {pieces : List Piece}

/-- The token of a piece covers its text. -/
theorem covers_of_fits {p : Position} {piece : Piece} (hp : p.offset = bytes before)
    (hsource : source = before ++ (piece.text ++ after)) (hnonempty : piece.text ≠ [])
    (hfits : piece.Fits after) :
    Covers source ⟨piece.kind, p, p.past piece.text.dropLast⟩ before piece.text after := by
  refine ⟨by rw [hsource, List.append_assoc], hnonempty, ?_, hp, ?_⟩
  · intro hkind
    rw [Piece.Fits, show piece.kind = .eof from hkind] at hfits
    exact hfits
  · rw [Position.past, hp]

/-- The tokens of the pieces of a text that ends the source. -/
theorem exists_locate {p : Position} (hp : p.offset = bytes before)
    (hsource : source = before ++ after) (h : Piece.Segmentation after pieces) :
    ∃ tokens, locate p pieces = tokens ++ [eof] ∧
      Tile (bytes before) (bytes source) (tokens.map (range source)) ∧
      tokens.map (piece source) = pieces ∧ ∀ token ∈ tokens, token.Stands source := by
  induction pieces generalizing p before after with
  | nil =>
    obtain rfl := Piece.segmentation_nil.1 h
    exact ⟨[], rfl, by rw [hsource, List.append_nil]; rfl, rfl, by simp⟩
  | cons first pieces ih =>
    obtain ⟨rest, rfl, hnonempty, hfits, -, hrest⟩ := Piece.segmentation_cons.1 h
    have hcovers := covers_of_fits hp hsource hnonempty hfits
    have hnext : (if first.kind = .newline then p.nextLine first.text
        else p.past first.text).offset = bytes (before ++ first.text) := by
      split <;> simp [Position.nextLine, Position.past, hp]
    obtain ⟨tokens, htokens, htile, hpieces, hstands⟩ :=
      ih hnext (by rw [hsource, List.append_assoc]) hrest
    refine ⟨_ :: tokens, by rw [locate, htokens, List.cons_append], ?_, ?_, ?_⟩
    · have hlength := length_le_bytes first.text
      have hpos := List.length_pos_iff.2 hnonempty
      rw [List.map_cons, hcovers.range_eq]
      rw [bytes_append] at htile
      exact ⟨rfl, by omega, htile⟩
    · rw [List.map_cons, hpieces, piece, hcovers.text_eq]
    · refine List.forall_mem_cons.2 ⟨⟨before, rest, ?_, ?_⟩, hstands⟩
      · rwa [hcovers.text_eq]
      · rwa [piece, hcovers.text_eq]

/-- The tokens of a source with the pieces that it has. -/
theorem exists_scan {pieces : List Piece} (h : Piece.Segmentation source pieces) :
    ∃ tokens, scan source = tokens ++ [eof] ∧
      Tile 0 (bytes source) (tokens.map (range source)) ∧
      tokens.map (piece source) = pieces ∧ ∀ token ∈ tokens, token.Stands source := by
  rw [scan, ← Piece.segmentation_iff.1 h]
  exact exists_locate (show Position.start.offset = bytes [] from rfl) (List.nil_append source).symm
    h

end Token

end Stencil
