import Stencil.Proofs.Token.Place
import Stencil.Span

/-!
# Cutting a source between two tokens

A source that is cut where a token begins has the same tokens up to there, and it keeps them if a
blank and something else is put after the cut. Only the last token can change, which may be a run of
blanks that the new blank joins (`exists_scan_append`). What protects the tokens is that no
delimiter has a blank in it, and that the only line break of two characters ends with a line feed.

Tokens and spans that lie in a first part of a source have the same text in that part
(`Covers.append`, `Span.text_append`).

* `Piece.Segmentation.replace`: other pieces after a first part of a segmentation.
* `upTo_headD`: the source up to a token.
* `scan_cut`, `exists_scan_append`: the tokens of a source that is cut.
-/

namespace Stencil

open Text

/-! ## Parts of a first part -/

namespace Text

variable {s t u : Text} {n start stop : Nat}

theorem bytes_dropBytes? (h : dropBytes? s n = some u) : bytes s = n + bytes u := by
  fun_induction dropBytes? s n with
  | case1 s =>
    cases h
    exact (Nat.zero_add _).symm
  | case2 => cases h
  | case3 c s n hfits ih =>
    have hrest := ih h
    rw [bytes_cons]
    omega
  | case4 => cases h

theorem dropBytes?_append (h : n ≤ bytes s) (t : Text) :
    dropBytes? (s ++ t) n = (dropBytes? s n).map (· ++ t) := by
  fun_induction dropBytes? s n with
  | case1 s => rw [dropBytes?_zero, Option.map_some]
  | case2 => exact absurd h (Nat.not_succ_le_zero _)
  | case3 c s n hfits ih =>
    rw [bytes_cons] at h
    rw [List.cons_append, dropBytes?, if_pos hfits, ih (by omega)]
  | case4 c s n hfits => rw [List.cons_append, dropBytes?, if_neg hfits, Option.map_none]

theorem takeBytes?_append (h : n ≤ bytes s) (t : Text) :
    takeBytes? (s ++ t) n = takeBytes? s n := by
  fun_induction takeBytes? s n with
  | case1 s => rw [takeBytes?_zero]
  | case2 => exact absurd h (Nat.not_succ_le_zero _)
  | case3 c s n hfits ih =>
    rw [bytes_cons] at h
    rw [List.cons_append, takeBytes?, if_pos hfits, ih (by omega)]
  | case4 c s n hfits => rw [List.cons_append, takeBytes?, if_neg hfits]

/-- What is cut out of a first part. -/
theorem slice?_append_left (h : stop ≤ bytes s) (t : Text) :
    slice? (s ++ t) start stop = slice? s start stop := by
  unfold slice?
  split
  · rename_i hle
    rw [dropBytes?_append (by omega), Option.bind_map]
    refine Option.bind_congr fun u hu => ?_
    have hbytes := bytes_dropBytes? hu
    exact takeBytes?_append (by omega) t
  · rfl

end Text

namespace Span

variable {s : Text} {span : Span}

theorem text_append (h : span.stop ≤ bytes s) (t : Text) : span.text (s ++ t) = span.text s := by
  rw [text, slice?_append_left h, text]

theorem trim_append (h : span.stop ≤ bytes s) (t : Text) :
    Span.trim (s ++ t) span = Span.trim s span := by
  rw [Span.trim, text_append h, Span.trim]

end Span

namespace Piece

variable {source s after after' literal : Text} {piece : Piece} {pieces new rest : List Piece}

/-! ## Other pieces after a first part -/

/-- The text starts with nothing that a piece before it could go on with, unless that is a run of
blanks. -/
def Quiet (after : Text) : Prop := ∀ c ∈ after.head?, isBlank c ∧ c ≠ '\n'

/-- What starts before a text and has no later character in common with its front ends before
it. -/
theorem prefix_of_append (hs : s ≠ []) (hafter : ∀ c ∈ after.head?, c ∉ literal.tail)
    (h : literal <+: s ++ after) : literal <+: s := by
  obtain ⟨rest, h⟩ := h
  rcases List.append_eq_append_iff.1 h with ⟨more, rfl, -⟩ | ⟨more, rfl, rfl⟩
  · exact List.prefix_append literal more
  · cases more with
    | nil => simp
    | cons c more =>
      refine absurd ?_ (hafter c rfl)
      rw [List.tail_append_of_ne_nil hs]
      exact List.mem_append_right _ List.mem_cons_self

/-- A piece still is what its kind says if what comes later is changed for a quiet text. -/
theorem Fits.swap (hquiet : Quiet after') (h : piece.Fits (s ++ after)) :
    piece.Fits (s ++ after') := by
  obtain ⟨kind, t⟩ := piece
  cases kind with
  | eof => exact h.elim
  | newline | exit family trims => exact h
  | blank =>
    refine ⟨h.1, fun front back hsplit hback hstart => h.2 front back hsplit hback ?_⟩
    have hnonempty : back ++ s ≠ [] := List.append_ne_nil_of_left_ne_nil hback s
    rw [← List.append_assoc] at hstart ⊢
    rcases hstart with hstart | hstart
    · exact .inl ((prefix_of_append hnonempty (by simp) hstart).trans (List.prefix_append _ _))
    · refine .inr ((prefix_of_append hnonempty (fun c hc hmem => ?_) hstart).trans
        (List.prefix_append _ _))
      exact (hquiet c hc).2 (List.mem_singleton.1 hmem)
  | raw =>
    refine ⟨h.1, fun front back hsplit hback hstart => h.2 front back hsplit hback ?_⟩
    have hnonempty : back ++ s ≠ [] := List.append_ne_nil_of_left_ne_nil hback s
    have hblanks : Kind.delimiters.all fun kind => kind.literal.all (!isBlank ·) := by decide
    obtain ⟨kind, hkind, hstart⟩ := hstart
    rw [← List.append_assoc] at hstart ⊢
    refine ⟨kind, hkind, (prefix_of_append hnonempty (fun c hc hmem => ?_) hstart).trans
      (List.prefix_append _ _)⟩
    have hblank := List.all_eq_true.1 (List.all_eq_true.1 hblanks kind hkind) c
      (List.mem_of_mem_tail hmem)
    rw [(hquiet c hc).1] at hblank
    cases hblank
  | enter family trims =>
    refine ⟨h.1, fun htrims hhead => h.2 htrims ?_⟩
    cases s with
    | nil => exact absurd (hquiet '-' hhead).1 (by decide)
    | cons c s => exact hhead

/-- A first part of a segmentation with other pieces after it. -/
theorem Segmentation.replace (h : Segmentation source (pieces ++ rest))
    (hnew : Segmentation after' new) (hquiet : Quiet after')
    (hjoin : ∀ last ∈ pieces.getLast?, ∀ first ∈ new.head?, last.kind = first.kind →
      last.kind ≠ .blank ∧ last.kind ≠ .raw) :
    Segmentation ((pieces.map text).flatten ++ after') (pieces ++ new) where
  covers := by rw [List.map_append, List.flatten_append, hnew.covers]
  nonempty piece hpiece := (List.mem_append.1 hpiece).elim
    (fun hmem => h.nonempty piece (List.mem_append_left _ hmem)) (hnew.nonempty piece)
  fits before piece later hsplit := by
    rcases List.append_eq_append_iff.1 hsplit with ⟨front, rfl, hnew'⟩ | ⟨front, rfl, hfront⟩
    · exact hnew.fits front piece later hnew'
    · cases front with
      | nil => exact hnew.fits [] piece later hfront.symm
      | cons first front =>
        obtain ⟨rfl, rfl⟩ : piece = first ∧ later = front ++ new := by simpa using hfront
        have hfits := h.fits before piece (front ++ rest) (by simp)
        rw [List.map_append, List.flatten_append] at hfits ⊢
        rw [hnew.covers]
        exact hfits.swap hquiet
  maximal := List.isChain_append.2
    ⟨(List.isChain_append.1 h.maximal).1, hnew.maximal, hjoin⟩

/-- The pieces of a first part alone. -/
theorem Segmentation.left (h : Segmentation source (pieces ++ rest)) :
    Segmentation (pieces.map text).flatten pieces := by
  have hleft := h.replace (segmentation_nil.2 rfl) nofun (by simp)
  rwa [List.append_nil, List.append_nil] at hleft

/-- A blank joins the blanks before it. -/
theorem Segmentation.join_blank {t : Text} (ht : t ≠ []) (hfits : Fits s ⟨.blank, t⟩)
    (hnew : Segmentation (' ' :: after) (⟨.blank, [' ']⟩ :: new)) :
    Segmentation (t ++ ' ' :: after) (⟨.blank, t ++ [' ']⟩ :: new) := by
  have hquiet : Quiet (' ' :: after) := by
    rintro c ⟨⟩
    decide
  obtain ⟨later, hlater, -, hblank, hends, hrest⟩ := segmentation_cons.1 hnew
  obtain rfl : after = later := by simpa using hlater
  have hswapped : Fits (' ' :: after) ⟨.blank, t⟩ := Fits.swap (s := []) hquiet hfits
  refine segmentation_cons.2 ⟨after, by simp, by simp [ht], ⟨?_, ?_⟩, hends, hrest⟩
  · intro d hd
    rcases List.mem_append.1 hd with hd | hd
    · exact hfits.1 d hd
    · exact hblank.1 d hd
  · exact avoids_append.2 ⟨hswapped.2, hblank.2⟩

/-- A blank that comes after a first part is a piece of its own or joins the last one. -/
theorem Segmentation.exists_blank (h : Segmentation source (pieces ++ rest))
    (hnew : Segmentation (' ' :: after) (⟨.blank, [' ']⟩ :: new)) :
    ∃ front t, Segmentation ((pieces.map text).flatten ++ ' ' :: after)
        (front ++ ⟨.blank, t⟩ :: new) ∧
      (pieces = front ∨ ∃ last, pieces = front ++ [last] ∧ last.kind = .blank) := by
  have hquiet : Quiet (' ' :: after) := by
    rintro c ⟨⟩
    decide
  rcases List.eq_nil_or_concat pieces with rfl | ⟨front, last, rfl⟩
  · exact ⟨[], [' '], hnew, .inl rfl⟩
  by_cases hlast : last.kind = .blank
  · -- The blank joins the last piece, and no blanks come before that.
    have hsplit : front ++ [last] ++ rest = front ++ last :: rest := by simp
    rw [List.concat_eq_append, hsplit] at h
    have hfits := h.fits front last rest rfl
    have hnonempty := h.nonempty last (by simp)
    obtain ⟨kind, t⟩ := last
    obtain rfl : kind = .blank := hlast
    have hjoined := Segmentation.join_blank hnonempty hfits hnew
    obtain ⟨c, t, rfl⟩ := List.exists_cons_of_ne_nil hnonempty
    have hquiet' : Quiet (c :: t ++ ' ' :: after) := by
      rintro d ⟨⟩
      refine ⟨hfits.1 c List.mem_cons_self, ?_⟩
      rintro rfl
      exact (avoids_cons.1 hfits.2).1 (.inl (List.prefix_append ['\n'] _))
    have hmaximal := (List.isChain_append.1 h.maximal).2.2
    refine ⟨front, c :: t ++ [' '], ?_, .inr ⟨_, List.concat_eq_append, rfl⟩⟩
    have hreplaced := h.replace hjoined hquiet' fun before hbefore first hfirst hkind => by
      obtain rfl : first = ⟨.blank, c :: t ++ [' ']⟩ := by simpa using hfirst.symm
      exact hmaximal before hbefore _ rfl hkind
    simpa using hreplaced
  · refine ⟨front.concat last, [' '], ?_, .inl rfl⟩
    refine h.replace hnew hquiet fun before hbefore first hfirst hkind => ?_
    obtain rfl : last = before := by simpa using hbefore
    obtain rfl : first = ⟨.blank, [' ']⟩ := by simpa using hfirst.symm
    exact absurd hkind hlast

end Piece

/-! ## Tokens of a source that is cut -/

namespace Token

variable {source s before t after : Text} {token : Token} {kept later : List Token}
  {new : List Piece}

/-- A token covers the same if more comes after the source. -/
theorem Covers.append (h : Covers s token before t after) (more : Text) :
    Covers (s ++ more) token before t (after ++ more) :=
  ⟨by rw [h.source_eq, List.append_assoc], h.nonempty, h.kind, h.first, h.last⟩

/-- The source before a token; all of it if the token is an end of file. -/
def upTo (source : Text) (token : Token) : Text :=
  if token.kind = .eof then source else (takeBytes? source (token.range source).1).getD []

/-- The tokens of a first part of the pieces do not depend on the pieces after it. -/
theorem exists_locate_append (p : Position) (pieces : List Piece) :
    ∃ tokens q, tokens.length = pieces.length ∧
      q.offset = p.offset + bytes (pieces.map Piece.text).flatten ∧
      ∀ later, locate p (pieces ++ later) = tokens ++ locate q later := by
  induction pieces generalizing p with
  | nil => exact ⟨[], p, rfl, by simp, fun later => rfl⟩
  | cons piece pieces ih =>
    obtain ⟨tokens, q, hlength, hoffset, hlocate⟩ :=
      ih (if piece.kind = .newline then p.nextLine piece.text else p.past piece.text)
    refine ⟨⟨piece.kind, p, p.past piece.text.dropLast⟩ :: tokens, q, ?_, ?_, fun later => ?_⟩
    · rw [List.length_cons, hlength, List.length_cons]
    · have hnext : (if piece.kind = .newline then p.nextLine piece.text
          else p.past piece.text).offset = p.offset + bytes piece.text := by
        split <;> rfl
      rw [hoffset, hnext, List.map_cons, List.flatten_cons, bytes_append]
      omega
    · rw [List.cons_append, locate, hlocate, List.cons_append]

theorem flatten_piece (source : Text) (tokens : List Token) :
    ((tokens.map (piece source)).map Piece.text).flatten = tokens.flatMap (text source) := by
  rw [List.map_map, List.flatMap_def]
  rfl

/-- The tokens of a source, cut at some place, with the pieces that they cover. Up to that place
they do not depend on what comes after it. -/
theorem exists_locate_kept (hscan : scan source = kept ++ later ++ [eof]) :
    ∃ q : Position, q.offset = bytes (kept.flatMap (text source)) ∧
      Piece.Segmentation source (kept.map (piece source) ++ later.map (piece source)) ∧
      locate q (later.map (piece source)) = later ++ [eof] ∧
      ∀ pieces, locate .start (kept.map (piece source) ++ pieces) = kept ++ locate q pieces := by
  have hsegment : Piece.Segmentation source (Piece.segment source) := Piece.segmentation_iff.2 rfl
  obtain ⟨tokens, htokens, -, hpieces, -⟩ := exists_scan hsegment
  obtain rfl : tokens = kept ++ later := List.append_cancel_right (htokens.symm.trans hscan)
  rw [scan] at htokens
  rw [← hpieces, List.map_append] at hsegment htokens
  obtain ⟨front, q, hlength, hoffset, hlocate⟩ :=
    exists_locate_append .start (kept.map (piece source))
  rw [flatten_piece] at hoffset
  rw [hlocate, List.append_assoc] at htokens
  obtain ⟨rfl, hlater⟩ : front = kept ∧ locate q (later.map (piece source)) = later ++ [eof] :=
    List.append_inj htokens (by rw [hlength, List.length_map])
  exact ⟨q, by rw [hoffset]; exact Int.zero_add _, hsegment, hlater, hlocate⟩

theorem covers_of_mem_scan (htoken : token ∈ scan source) (hkind : token.kind ≠ .eof) :
    ∃ before after, Covers source token before (token.text source) after := by
  obtain ⟨tokens, htokens, -, -, hstands⟩ :=
    exists_scan (Piece.segmentation_iff.2 (rfl : _ = Piece.segment source))
  rw [htokens, List.mem_append, List.mem_singleton] at htoken
  rcases htoken with hmem | rfl
  · obtain ⟨before, after, hcovers, -⟩ := hstands token hmem
    exact ⟨before, after, hcovers⟩
  · exact absurd rfl hkind

/-- What the tokens up to some place cover is a first part of the source. -/
theorem append_of_scan (hscan : scan source = kept ++ later ++ [eof]) :
    source = kept.flatMap (text source) ++ later.flatMap (text source) := by
  obtain ⟨-, -, hsegment, -, -⟩ := exists_locate_kept hscan
  rw [← flatten_piece, ← flatten_piece, ← List.flatten_append, ← List.map_append, hsegment.covers]

/-- The source before one of its tokens is what the tokens before it cover. -/
theorem upTo_headD (hscan : scan source = kept ++ later ++ [eof])
    (heof : ∀ token ∈ later, token.kind ≠ .eof) :
    upTo source (later.headD .eof) = kept.flatMap (text source) := by
  obtain ⟨q, hoffset, -, hlater, -⟩ := exists_locate_kept hscan
  have hsource := append_of_scan hscan
  cases later with
  | nil =>
    rw [List.flatMap_nil, List.append_nil] at hsource
    rw [List.headD_nil, upTo, if_pos (by rfl)]
    exact hsource
  | cons token later =>
    -- The token starts at the offset that the tokens before it lead to.
    have hkind : token.kind ≠ .eof := heof token List.mem_cons_self
    obtain ⟨before, after, hcovers⟩ := covers_of_mem_scan (by rw [hscan]; simp) hkind
    rw [List.map_cons, locate, List.cons_append, List.cons.injEq] at hlater
    have hfirst : token.first = q := by rw [← hlater.1]
    have hbytes : bytes before = bytes (kept.flatMap (text source)) := by
      have hbefore := hcovers.first
      rw [hfirst, hoffset] at hbefore
      exact (Int.ofNat_inj.1 hbefore).symm
    rw [List.headD_cons, upTo, if_neg hkind, hcovers.range_eq, hbytes]
    nth_rewrite 1 [hsource]
    rw [takeBytes?_bytes_append, Option.getD_some]

/-- The tokens of the source before some place. -/
theorem scan_cut (hscan : scan source = kept ++ later ++ [eof]) :
    scan (kept.flatMap (text source)) = kept ++ [eof] := by
  obtain ⟨q, -, hsegment, -, hlocate⟩ := exists_locate_kept hscan
  have hleft := hsegment.left
  rw [flatten_piece, Piece.segmentation_iff] at hleft
  have hkept := hlocate []
  rw [List.append_nil, hleft] at hkept
  exact hkept

/-- The tokens of the source before some place, with a blank and more after it. The blank is a token
of its own, or the last token goes on with it. -/
theorem exists_scan_append (hscan : scan source = kept ++ later ++ [eof])
    (hnew : Piece.Segmentation (' ' :: after) (⟨.blank, [' ']⟩ :: new)) :
    ∃ front blank more, scan (kept.flatMap (text source) ++ ' ' :: after)
        = front ++ blank :: more ++ [eof] ∧ blank.kind = .blank ∧
      more.map (piece (kept.flatMap (text source) ++ ' ' :: after)) = new ∧
      (kept = front ∨ ∃ last, kept = front ++ [last] ∧ last.kind = .blank) := by
  obtain ⟨-, -, hsegment, -, -⟩ := exists_locate_kept hscan
  obtain ⟨front, t, hjoined, hfront⟩ := hsegment.exists_blank hnew
  rw [flatten_piece] at hjoined
  generalize kept.flatMap (text source) ++ ' ' :: after = source' at hjoined ⊢
  -- The pieces before the blank are those of the first tokens.
  obtain ⟨first, hfirst, hkept⟩ : ∃ first, first.map (piece source) = front ∧
      (kept = first ∨ ∃ last, kept = first ++ [last] ∧ last.kind = .blank) := by
    rcases hfront with rfl | ⟨last, hsplit, hlast⟩
    · exact ⟨kept, rfl, .inl rfl⟩
    · obtain ⟨first, rest, rfl, hfirst, hrest⟩ := List.map_eq_append_iff.1 hsplit
      obtain ⟨token, rfl, rfl⟩ := List.map_eq_singleton_iff.1 hrest
      exact ⟨first, hfirst, .inr ⟨token, rfl, hlast⟩⟩
  obtain ⟨rest, hrest⟩ : ∃ rest, scan source = first ++ rest ++ [eof] := by
    rcases hkept with rfl | ⟨last, rfl, -⟩
    · exact ⟨later, hscan⟩
    · exact ⟨last :: later, by rw [hscan]; simp⟩
  obtain ⟨q, -, -, -, hlocate⟩ := exists_locate_kept hrest
  rw [hfirst] at hlocate
  obtain ⟨tokens, htokens, -, hpieces, -⟩ := exists_scan hjoined
  obtain ⟨first', more, rfl, hfirst', hmore⟩ := List.map_eq_append_iff.1 hpieces
  obtain ⟨blank, more, rfl, hblank, hmore⟩ := List.map_eq_cons_iff.1 hmore
  obtain rfl : first' = first := by
    rw [scan, ← Piece.segmentation_iff.1 hjoined, hlocate, List.append_assoc] at htokens
    refine (List.append_inj htokens.symm ?_).1
    rw [← List.length_map (piece source'), hfirst', ← hfirst, List.length_map]
  exact ⟨first', blank, more, htokens, congrArg Piece.kind hblank, hmore, hkept⟩

end Token

end Stencil
