import Mathlib.Data.List.Chain
import Stencil.Token.Piece

/-!
# The one segmentation of a text

A text can be cut into kinded pieces in one way only, if every piece is what its kind says, with the
text after it taken into account, and no run of blanks or of raw characters is cut in two. This says
what a segmentation is without saying how to find one: `Piece.Segmentation`. The pieces that
`segment` finds are that segmentation.

A place in a text is looked at together with all that follows it, because a delimiter or a line
break may begin in one piece and end in another. `Text.Avoids` is the form that all such conditions
have.

* `leading_eq`: a piece that fits and cannot be longer is the one found at the front of a text.
* `exists_leading`: what is found at the front of a text is such a piece.
* `segmentation_iff`: both together, for whole texts.
-/

namespace Stencil

namespace Text

/-- At no character of `t` does something start for which `p` holds. A start is looked at with all
the text from there on, in `after` too. -/
def Avoids (p : Text → Prop) (t after : Text) : Prop :=
  ∀ front back, t = front ++ back → back ≠ [] → ¬p (back ++ after)

variable {p : Text → Prop} {s t after : Text} {c : Char}

theorem avoids_nil : Avoids p [] after := by
  intro front back h hback
  exact absurd (List.append_eq_nil_iff.1 h.symm).2 hback

theorem avoids_cons : Avoids p (c :: t) after ↔ ¬p (c :: t ++ after) ∧ Avoids p t after := by
  constructor
  · intro h
    refine ⟨h [] (c :: t) rfl (List.cons_ne_nil c t), fun front back hsplit hback => ?_⟩
    exact h (c :: front) back (by rw [hsplit, List.cons_append]) hback
  · rintro ⟨hc, ht⟩ front back hsplit hback
    cases front with
    | nil =>
      rw [List.nil_append] at hsplit
      exact hsplit ▸ hc
    | cons d front =>
      rw [List.cons_append, List.cons.injEq] at hsplit
      exact ht front back hsplit.2 hback

/-- In a first part of a text one looks on into the second part. -/
theorem avoids_append : Avoids p (s ++ t) after ↔ Avoids p s (t ++ after) ∧ Avoids p t after := by
  induction s with
  | nil => simp [avoids_nil]
  | cons c s ih => rw [List.cons_append, avoids_cons, avoids_cons, ih, and_assoc]; simp

end Text

namespace Piece

open Text

/-- A line break starts here. -/
def StartsBreak (t : Text) : Prop := ['\n'] <+: t ∨ ['\r', '\n'] <+: t

/-- One of the delimiters starts here. -/
def StartsDelimiter (t : Text) : Prop := ∃ kind ∈ Kind.delimiters, kind.literal <+: t

/-- The piece is what its kind says, if `after` is the text after it. -/
def Fits (after : Text) (piece : Piece) : Prop :=
  match piece.kind with
  | .eof => False
  | .newline => piece.text = ['\n'] ∨ piece.text = ['\r', '\n']
  | .blank => (∀ c ∈ piece.text, isBlank c) ∧ Avoids StartsBreak piece.text after
  | .raw => (∀ c ∈ piece.text, ¬isBlank c) ∧ Avoids StartsDelimiter piece.text after
  | .enter family trims =>
    piece.text = (Kind.enter family trims).literal ∧ (trims = false → after.head? ≠ some '-')
  | .exit family trims => piece.text = (Kind.exit family trims).literal

/-- The pieces are the source cut into parts that are what their kinds say, and there are no two
runs of blanks, nor two raw runs, right after one another. -/
structure Segmentation (source : Text) (pieces : List Piece) : Prop where
  covers : (pieces.map text).flatten = source
  nonempty : ∀ piece ∈ pieces, piece.text ≠ []
  fits : ∀ before piece later, pieces = before ++ piece :: later →
    piece.Fits (later.map text).flatten
  maximal : pieces.IsChain fun p q => p.kind = q.kind → p.kind ≠ .blank ∧ p.kind ≠ .raw

/-! ## What starts at a place -/

variable {t after : Text} {c : Char}

theorem startsBreak_iff : StartsBreak t ↔ (newline? t).isSome := by
  constructor
  · rintro (⟨rest, rfl⟩ | ⟨rest, rfl⟩) <;> rfl
  · intro h
    unfold newline? at h
    split at h
    · exact .inr ⟨_, rfl⟩
    · exact .inl ⟨_, rfl⟩
    · cases h

theorem startsDelimiter_iff : StartsDelimiter t ↔ (delimiter? t).isSome := by
  rw [delimiter?, List.find?_isSome]
  simp only [List.isPrefixOf_iff_prefix, StartsDelimiter]

/-- A line break starts with a blank. -/
theorem isBlank_of_startsBreak (h : StartsBreak (c :: t)) : isBlank c := by
  rcases h with ⟨rest, h⟩ | ⟨rest, h⟩
  · obtain ⟨rfl, -⟩ : '\n' = c ∧ rest = t := by simpa using h
    decide
  · obtain ⟨rfl, -⟩ : '\r' = c ∧ '\n' :: rest = t := by simpa using h
    decide

/-- No delimiter starts with a blank. -/
theorem not_isBlank_of_startsDelimiter (h : StartsDelimiter (c :: t)) : ¬isBlank c := by
  obtain ⟨kind, hkind, rest, h⟩ := h
  have hfirst : Kind.delimiters.all fun kind => kind.literal.head?.any fun d => !isBlank d := by
    decide
  obtain ⟨d, hd, hblank⟩ := (Option.any_eq_true _ _).1 (List.all_eq_true.1 hfirst kind hkind)
  obtain ⟨literal, hliteral⟩ := List.head?_eq_some_iff.1 hd
  rw [hliteral, List.cons_append, List.cons.injEq] at h
  rw [h.1, Bool.not_eq_true'] at hblank
  rw [hblank]
  exact Bool.false_ne_true

/-- A run of blanks goes on at a blank that starts no line break. -/
theorem startsBlank_cons : startsBlank (c :: t) ↔ isBlank c ∧ ¬StartsBreak (c :: t) := by
  rw [startsBreak_iff, startsBlank, Bool.and_eq_true, Bool.not_eq_true, Option.isSome_eq_false_iff]

/-- A raw run goes on at a character that is no blank and starts no delimiter. -/
theorem startsRaw_cons : startsRaw (c :: t) ↔ ¬isBlank c ∧ ¬StartsDelimiter (c :: t) := by
  rw [startsDelimiter_iff, startsRaw, Bool.and_eq_true, Bool.not_eq_true, Bool.not_eq_true,
    Option.isSome_eq_false_iff, Bool.not_eq_eq_eq_not, Bool.not_true]

theorem blanks_iff : (∀ c ∈ t, isBlank c) ∧ Avoids StartsBreak t after ↔
    Avoids (fun u => startsBlank u = false) t after := by
  induction t with
  | nil => simp [avoids_nil]
  | cons c t ih =>
    rw [avoids_cons, avoids_cons, ← ih, List.forall_mem_cons, List.cons_append,
      Bool.not_eq_false, startsBlank_cons]
    tauto

theorem raws_iff : (∀ c ∈ t, ¬isBlank c) ∧ Avoids StartsDelimiter t after ↔
    Avoids (fun u => startsRaw u = false) t after := by
  induction t with
  | nil => simp [avoids_nil]
  | cons c t ih =>
    rw [avoids_cons, avoids_cons, ← ih, List.forall_mem_cons, List.cons_append,
      Bool.not_eq_false, startsRaw_cons]
    tauto

/-! ## Runs -/

section Runs

variable (goesOn : Text → Bool)

/-- A run that goes on everywhere in `t` and stops after it. -/
theorem runLength_append (ht : Avoids (fun u => goesOn u = false) t after)
    (hstop : goesOn after = false) : runLength goesOn (t ++ after) = t.length := by
  induction t with
  | nil =>
    cases after with
    | nil => rfl
    | cons c after => rw [List.nil_append, runLength, if_neg (by simp [hstop]), List.length_nil]
  | cons c t ih =>
    rw [avoids_cons, Bool.not_eq_false] at ht
    rw [List.cons_append] at ht ⊢
    rw [runLength, if_pos ht.1, ih ht.2, List.length_cons]

/-- Every run is one of these. -/
theorem exists_run (hnil : goesOn [] = false) (t : Text) :
    ∃ run rest, t = run ++ rest ∧ runLength goesOn t = run.length ∧
      Avoids (fun u => goesOn u = false) run rest ∧ goesOn rest = false := by
  induction t with
  | nil => exact ⟨[], [], rfl, rfl, avoids_nil, hnil⟩
  | cons c t ih =>
    by_cases hc : goesOn (c :: t)
    · obtain ⟨run, rest, rfl, hlength, hrun, hrest⟩ := ih
      refine ⟨c :: run, rest, rfl, ?_, ?_, hrest⟩
      · rw [runLength, if_pos hc, hlength, List.length_cons]
      · rw [avoids_cons]
        exact ⟨by simpa using hc, hrun⟩
    · refine ⟨[], c :: t, rfl, ?_, avoids_nil, by simpa using hc⟩
      rw [runLength, if_neg hc, List.length_nil]

end Runs

/-! ## The first piece -/

theorem leading_break (h : newline? t = some after) : leading t = (.newline, after.length) := by
  rw [leading, h]

/-- The delimiter that is found is the one that is written, unless a longer one with a trim marker
could be meant. -/
theorem leading_literal {kind : Kind} (hkind : kind ∈ Kind.delimiters)
    (hafter : ∀ family, kind = .enter family false → after.head? ≠ some '-') :
    leading (kind.literal ++ after) = (kind, kind.literal.length) := by
  have hdelimiter : delimiter? (kind.literal ++ after) = some kind := by
    simp only [Kind.delimiters, List.mem_cons, List.not_mem_nil, or_false] at hkind
    rcases hkind with rfl | rfl | rfl | rfl | rfl | rfl | rfl | rfl <;>
      simp [delimiter?, Kind.delimiters, Kind.literal, List.isPrefixOf]
    all_goals
      cases after with
      | nil => rfl
      | cons d after =>
        have hd : d ≠ '-' := fun hd => hafter _ rfl (by rw [hd, List.head?_cons])
        simp [List.isPrefixOf, hd.symm]
  have hbreak : newline? (kind.literal ++ after) = none := by
    simp only [Kind.delimiters, List.mem_cons, List.not_mem_nil, or_false] at hkind
    rcases hkind with rfl | rfl | rfl | rfl | rfl | rfl | rfl | rfl <;> rfl
  rw [leading, hbreak, hdelimiter]

/-- A run of blanks up to a place where it cannot go on. -/
theorem leading_blanks (ht : t ≠ []) (hrun : Avoids (fun u => startsBlank u = false) t after)
    (hstop : startsBlank after = false) : leading (t ++ after) = (.blank, t.length) := by
  obtain ⟨c, t, rfl⟩ := List.exists_cons_of_ne_nil ht
  obtain ⟨hblank, hbreak⟩ : isBlank c ∧ ¬StartsBreak (c :: (t ++ after)) := by
    have hfirst := (avoids_cons.1 hrun).1
    rwa [List.cons_append, Bool.not_eq_false, startsBlank_cons] at hfirst
  have hdelimiter : ¬StartsDelimiter (c :: (t ++ after)) := fun h =>
    not_isBlank_of_startsDelimiter h hblank
  rw [startsBreak_iff, Option.not_isSome_iff_eq_none] at hbreak
  rw [startsDelimiter_iff, Option.not_isSome_iff_eq_none] at hdelimiter
  rw [leading, runLength_append _ hrun hstop, List.cons_append, hbreak, hdelimiter]
  rfl

/-- A raw run up to a place where it cannot go on. -/
theorem leading_raws (ht : t ≠ []) (hrun : Avoids (fun u => startsRaw u = false) t after)
    (hstop : startsRaw after = false) : leading (t ++ after) = (.raw, t.length) := by
  obtain ⟨c, t, rfl⟩ := List.exists_cons_of_ne_nil ht
  obtain ⟨hblank, hdelimiter⟩ : ¬isBlank c ∧ ¬StartsDelimiter (c :: (t ++ after)) := by
    have hfirst := (avoids_cons.1 hrun).1
    rwa [List.cons_append, Bool.not_eq_false, startsRaw_cons] at hfirst
  have hbreak : ¬StartsBreak (c :: (t ++ after)) := fun h => hblank (isBlank_of_startsBreak h)
  have hblanks : runLength startsBlank (c :: (t ++ after)) = 0 := by
    rw [runLength, if_neg]
    exact fun h => hblank (startsBlank_cons.1 h).1
  rw [startsBreak_iff, Option.not_isSome_iff_eq_none] at hbreak
  rw [startsDelimiter_iff, Option.not_isSome_iff_eq_none] at hdelimiter
  rw [leading, runLength_append _ hrun hstop, List.cons_append, hbreak, hdelimiter, hblanks]

/-- The piece cannot be longer, if `after` is the text after it. -/
def Ends (after : Text) (piece : Piece) : Prop :=
  (piece.kind = .blank → startsBlank after = false) ∧ (piece.kind = .raw → startsRaw after = false)

variable {piece : Piece}

theorem mem_delimiters {kind : Kind} (h : kind.isEnter ∨ kind.isExit) :
    kind ∈ Kind.delimiters := by
  rcases kind with _ | _ | _ | _ | ⟨family, trims⟩ | ⟨family, trims⟩
  case enter | exit => cases family <;> cases trims <;> decide
  all_goals simp [Kind.isEnter, Kind.isExit] at h

/-- A piece that fits and cannot be longer is the first one. -/
theorem leading_eq (hnonempty : piece.text ≠ []) (hfits : piece.Fits after)
    (hends : piece.Ends after) :
    leading (piece.text ++ after) = (piece.kind, piece.text.length) := by
  obtain ⟨kind, t⟩ := piece
  cases kind with
  | eof => exact hfits.elim
  | newline =>
    obtain rfl | rfl : t = ['\n'] ∨ t = ['\r', '\n'] := hfits
    · exact leading_break rfl
    · exact leading_break rfl
  | blank => exact leading_blanks hnonempty (blanks_iff.1 hfits) (hends.1 rfl)
  | raw => exact leading_raws hnonempty (raws_iff.1 hfits) (hends.2 rfl)
  | enter family trims =>
    obtain ⟨rfl, htrims⟩ : t = (Kind.enter family trims).literal ∧ _ := hfits
    exact leading_literal (mem_delimiters (.inl rfl)) fun family' h => htrims (by injection h)
  | exit family trims =>
    obtain rfl : t = (Kind.exit family trims).literal := hfits
    exact leading_literal (mem_delimiters (.inr rfl)) nofun

/-- The delimiter at the front of a text is a piece that fits. -/
theorem fits_of_delimiter? {kind : Kind} (h : delimiter? t = some kind) :
    ∃ after, t = kind.literal ++ after ∧ kind.literal ≠ [] ∧
      Fits after ⟨kind, kind.literal⟩ ∧ Ends after ⟨kind, kind.literal⟩ := by
  have hkind : kind ∈ Kind.delimiters := List.mem_of_find?_eq_some h
  obtain ⟨after, rfl⟩ : kind.literal <+: t := by
    simpa [List.isPrefixOf_iff_prefix] using List.find?_some h
  have hnonempty : ∀ kind ∈ Kind.delimiters, kind.literal ≠ [] := by decide
  refine ⟨after, rfl, hnonempty kind hkind, ?_, ?_⟩
  · cases kind with
    | enter family trims =>
      refine ⟨rfl, fun htrims hafter => ?_⟩
      -- The delimiter with a trim marker stands first in the list.
      obtain ⟨rest, rfl⟩ := List.head?_eq_some_iff.1 hafter
      subst htrims
      cases family <;> cases h
    | exit family trims => rfl
    | eof | newline | blank | raw => simp [Kind.delimiters] at hkind
  · constructor <;> (rintro rfl; simp [Kind.delimiters] at hkind)

/-- At the front of a text stands a piece that fits and cannot be longer. -/
theorem exists_leading (ht : t ≠ []) : ∃ (piece : Piece) (after : Text),
    t = piece.text ++ after ∧ piece.text ≠ [] ∧ piece.Fits after ∧ piece.Ends after := by
  by_cases hbreak : StartsBreak t
  · rcases hbreak with ⟨after, rfl⟩ | ⟨after, rfl⟩
    · exact ⟨⟨.newline, ['\n']⟩, after, rfl, List.cons_ne_nil _ _, .inl rfl, nofun, nofun⟩
    · exact ⟨⟨.newline, ['\r', '\n']⟩, after, rfl, List.cons_ne_nil _ _, .inr rfl, nofun, nofun⟩
  by_cases hdelimiter : StartsDelimiter t
  · rw [startsDelimiter_iff, Option.isSome_iff_exists] at hdelimiter
    obtain ⟨kind, hkind⟩ := hdelimiter
    obtain ⟨after, hsplit, hnonempty, hfits, hends⟩ := fits_of_delimiter? hkind
    exact ⟨⟨kind, kind.literal⟩, after, hsplit, hnonempty, hfits, hends⟩
  -- A run goes on at the first character, so it is not empty.
  obtain ⟨c, t, rfl⟩ := List.exists_cons_of_ne_nil ht
  by_cases hc : isBlank c
  · obtain ⟨run, after, hsplit, -, hrun, hstop⟩ := exists_run startsBlank rfl (c :: t)
    refine ⟨⟨.blank, run⟩, after, hsplit, ?_, blanks_iff.2 hrun, fun _ => hstop, nofun⟩
    rintro rfl
    rw [List.nil_append] at hsplit
    rw [← hsplit, ← Bool.not_eq_true, startsBlank_cons] at hstop
    exact hstop ⟨hc, hbreak⟩
  · obtain ⟨run, after, hsplit, -, hrun, hstop⟩ := exists_run startsRaw rfl (c :: t)
    refine ⟨⟨.raw, run⟩, after, hsplit, ?_, raws_iff.2 hrun, nofun, fun _ => hstop⟩
    rintro rfl
    rw [List.nil_append] at hsplit
    rw [← hsplit, ← Bool.not_eq_true, startsRaw_cons] at hstop
    exact hstop ⟨hc, hdelimiter⟩

/-! ## All pieces -/

variable {source : Text} {pieces : List Piece}

/-- The first piece that is found, and the others. -/
theorem segment_append (hnonempty : piece.text ≠ [])
    (h : leading (piece.text ++ after) = (piece.kind, piece.text.length)) :
    segment (piece.text ++ after) = piece :: segment after := by
  obtain ⟨kind, t⟩ := piece
  obtain ⟨c, t, rfl⟩ := List.exists_cons_of_ne_nil hnonempty
  rw [List.cons_append] at h ⊢
  rw [segment, h]
  simp

/-- A run goes on at a piece only if the piece is such a run. -/
theorem starts_iff (hnonempty : piece.text ≠ []) (hfits : piece.Fits after) :
    (startsBlank (piece.text ++ after) ↔ piece.kind = .blank) ∧
      (startsRaw (piece.text ++ after) ↔ piece.kind = .raw) := by
  obtain ⟨kind, t⟩ := piece
  obtain ⟨c, t, rfl⟩ := List.exists_cons_of_ne_nil hnonempty
  have hliteral : kind ∈ Kind.delimiters → c :: t = kind.literal →
      StartsDelimiter (c :: (t ++ after)) :=
    fun hkind htext => ⟨kind, hkind, htext ▸ List.prefix_append (c :: t) after⟩
  simp only [List.cons_append, startsBlank_cons, startsRaw_cons]
  cases kind with
  | eof => exact hfits.elim
  | newline =>
    have hbreak : StartsBreak (c :: (t ++ after)) := by
      rcases hfits with h | h
      · exact .inl (h ▸ List.prefix_append (c :: t) after)
      · exact .inr (h ▸ List.prefix_append (c :: t) after)
    simp [hbreak, isBlank_of_startsBreak hbreak]
  | blank =>
    have hbreak : ¬StartsBreak (c :: (t ++ after)) := (avoids_cons.1 hfits.2).1
    simp [hbreak, hfits.1 c List.mem_cons_self]
  | raw =>
    have hdelimiter : ¬StartsDelimiter (c :: (t ++ after)) := (avoids_cons.1 hfits.2).1
    simp [hdelimiter, hfits.1 c List.mem_cons_self]
  | enter family trims =>
    have hdelimiter := hliteral (mem_delimiters (.inl rfl)) hfits.1
    simp [hdelimiter, not_isBlank_of_startsDelimiter hdelimiter]
  | exit family trims =>
    have hdelimiter := hliteral (mem_delimiters (.inr rfl)) hfits
    simp [hdelimiter, not_isBlank_of_startsDelimiter hdelimiter]

theorem segmentation_nil : Segmentation source [] ↔ source = [] := by
  constructor
  · exact fun h => h.covers.symm
  · rintro rfl
    exact ⟨rfl, by simp, by simp, .nil⟩

/-- A segmentation is a first piece that fits and cannot be longer, and a segmentation of the text
after it. -/
theorem segmentation_cons : Segmentation source (piece :: pieces) ↔
    ∃ after, source = piece.text ++ after ∧ piece.text ≠ [] ∧ piece.Fits after ∧
      piece.Ends after ∧ Segmentation after pieces := by
  -- What keeps the first piece from being longer is the next one, if there is one.
  have hnext : ∀ after, Segmentation after pieces →
      ((∀ next ∈ pieces.head?, piece.kind = next.kind → piece.kind ≠ .blank ∧ piece.kind ≠ .raw) ↔
        piece.Ends after) := by
    intro after h
    cases pieces with
    | nil =>
      obtain rfl := segmentation_nil.1 h
      simp [Ends, startsBlank, startsRaw]
    | cons next pieces =>
      have hstarts := starts_iff (h.nonempty next List.mem_cons_self) (h.fits [] next pieces rfl)
      rw [← List.flatten_cons, ← List.map_cons, h.covers] at hstarts
      rw [Ends, ← Bool.not_eq_true, ← Bool.not_eq_true, hstarts.1, hstarts.2]
      simp only [List.head?_cons, Option.mem_some_iff, forall_eq']
      constructor
      · exact fun h => ⟨fun hp hn => (h (hp.trans hn.symm)).1 hp,
          fun hp hn => (h (hp.trans hn.symm)).2 hp⟩
      · exact fun h heq => ⟨fun hp => h.1 hp (heq ▸ hp), fun hp => h.2 hp (heq ▸ hp)⟩
  constructor
  · intro h
    have hmaximal := List.isChain_cons.1 h.maximal
    have hrest : Segmentation (pieces.map text).flatten pieces :=
      ⟨rfl, fun next hmem => h.nonempty next (List.mem_cons_of_mem piece hmem),
        fun before next later hsplit => h.fits (piece :: before) next later (by rw [hsplit]; rfl),
        hmaximal.2⟩
    exact ⟨_, h.covers.symm, h.nonempty piece List.mem_cons_self, h.fits [] piece pieces rfl,
      (hnext _ hrest).1 hmaximal.1, hrest⟩
  · rintro ⟨after, rfl, hnonempty, hfits, hends, hrest⟩
    refine ⟨?_, ?_, fun before next later hsplit => ?_, ?_⟩
    · rw [List.map_cons, List.flatten_cons, hrest.covers]
    · exact List.forall_mem_cons.2 ⟨hnonempty, hrest.nonempty⟩
    · cases before with
      | nil =>
        obtain ⟨rfl, rfl⟩ : piece = next ∧ pieces = later := by simpa using hsplit
        rwa [hrest.covers]
      | cons first before =>
        obtain ⟨-, hsplit⟩ : piece = first ∧ pieces = before ++ next :: later := by
          simpa using hsplit
        exact hrest.fits before next later hsplit
    · exact List.isChain_cons.2 ⟨(hnext _ hrest).2 hends, hrest.maximal⟩

/-- The pieces of a text are its one segmentation. -/
theorem segmentation_iff : Segmentation source pieces ↔ pieces = segment source := by
  constructor
  · intro h
    induction pieces generalizing source with
    | nil =>
      obtain rfl := segmentation_nil.1 h
      rw [segment]
    | cons piece pieces ih =>
      obtain ⟨after, rfl, hnonempty, hfits, hends, hrest⟩ := segmentation_cons.1 h
      rw [segment_append hnonempty (leading_eq hnonempty hfits hends), ih hrest]
  · rintro rfl
    induction hlength : source.length using Nat.strong_induction_on generalizing source with
    | _ n ih =>
      rcases eq_or_ne source [] with rfl | hsource
      · rw [segment]
        exact segmentation_nil.2 rfl
      · obtain ⟨piece, after, rfl, hnonempty, hfits, hends⟩ := exists_leading hsource
        rw [segment_append hnonempty (leading_eq hnonempty hfits hends)]
        have hshorter : after.length < n := by
          have := List.length_pos_iff.2 hnonempty
          rw [List.length_append] at hlength
          omega
        exact segmentation_cons.2
          ⟨after, rfl, hnonempty, hfits, hends, ih _ hshorter rfl⟩

end Piece

end Stencil
