import Mathlib.Data.List.Chain
import Stencil.Proofs.Expr.Closed

/-!
# Splitting and joining are inverse

Expression text is split into byte ranges. The ranges say where the parts of the text stand,
whatever stands around the text (`slice?_ranges`), and between two neighbours there is room for the
separator and nothing else (`isChain_ranges`). So joining what stands at the ranges gives the text
back.

The other way round, a list of texts is what its joined text is split into if every text of the list
is closed and has the separator in brackets and strings only (`split_joinWith`).

Main statement: `Nesting.split_join_inverse`.
-/

namespace Stencil.Nesting

open Text

variable {separator : Char}

theorem ranges_ne_nil (separator : Char) (start : Nat) (t : Text) :
    ranges separator start (split separator t) ≠ [] :=
  List.cons_ne_nil _ _

/-- The first range starts where the text does. -/
theorem head?_ranges (separator : Char) (start : Nat) (parts : List Text) :
    ∀ range ∈ (ranges separator start parts).head?, range.1 = start := by
  cases parts with
  | nil => exact nofun
  | cons part parts =>
    rintro range ⟨⟩
    rfl

/-- The parts of a joined text stand at their ranges, whatever stands around the text. -/
theorem slice?_ranges (separator : Char) (before after : Text) (parts : List Text) :
    (ranges separator (bytes before) parts).map
        (fun range => slice? (before ++ joinWith [separator] parts ++ after) range.1 range.2)
      = parts.map some := by
  induction parts generalizing before with
  | nil => rfl
  | cons part parts ih =>
    rw [ranges, List.map_cons, List.map_cons]
    cases parts with
    | nil =>
      have hpart := slice?_append before part after
      exact congrArg (· :: []) hpart
    | cons next parts =>
      -- The later parts have the first one and a separator before them.
      have hbefore : bytes before + bytes part + separator.utf8Size
          = bytes (before ++ part ++ [separator]) := by
        rw [bytes_append, bytes_append, bytes_cons, bytes_nil, Nat.add_zero]
      have hpart := slice?_append before part
        ([separator] ++ joinWith [separator] (next :: parts) ++ after)
      have hparts := ih (before ++ part ++ [separator])
      rw [hbefore, joinWith_cons_cons]
      simp only [List.append_assoc] at hpart hparts ⊢
      rw [hpart, hparts]

/-- Between two ranges there is a separator. -/
theorem isChain_ranges (separator : Char) (start : Nat) (parts : List Text) :
    (ranges separator start parts).IsChain fun range next =>
      range.1 ≤ range.2 ∧ next.1 = range.2 + separator.utf8Size := by
  induction parts generalizing start with
  | nil => exact .nil
  | cons part parts ih =>
    rw [ranges, List.isChain_cons]
    refine ⟨fun next hnext => ⟨Nat.le_add_right start (bytes part), ?_⟩, ih _⟩
    exact head?_ranges separator _ parts next hnext

/-- Splitting a text and joining texts are inverse. Whatever the separator, the parts of a text
joined with it are the text; there is at least one of them, and the ranges at which they stand are
in order, cut the text between characters and leave room for a separator in between. If the
separator is neither a quote nor a bracket, texts are what their joined text is split into as long
as there is one and they have their quotes and brackets closed and the separator nowhere outside of
them. -/
theorem split_join_inverse (separator : Char) :
    (∀ t, joinWith [separator] (split separator t) = t ∧
      ranges separator 0 (split separator t) ≠ [] ∧
      (ranges separator 0 (split separator t)).map (fun range => slice? t range.1 range.2)
        = (split separator t).map some ∧
      (ranges separator 0 (split separator t)).IsChain fun range next =>
        range.1 ≤ range.2 ∧ next.1 = range.2 + separator.utf8Size) ∧
    (IsPlain separator → ∀ fragments : List Text, fragments ≠ [] →
      (∀ fragment ∈ fragments, Closed (· = separator) fragment) →
      split separator (joinWith [separator] fragments) = fragments) := by
  refine ⟨fun t => ?_, fun hseparator fragments => split_joinWith hseparator⟩
  have hjoin : joinWith [separator] (split separator t) = t :=
    join_splitFrom separator (outside 0) t
  refine ⟨hjoin, ranges_ne_nil separator 0 t, ?_, isChain_ranges separator 0 _⟩
  have hslices := slice?_ranges separator [] [] (split separator t)
  rwa [List.nil_append, List.append_nil, hjoin, bytes_nil] at hslices

/-- Three texts between arrows: a call with an arrow and a string in its brackets, a string with an
escaped quote and a bracket in it, and nothing. -/
theorem split_join_arrows :
    split '→' (joinWith ['→'] [['f', '(', '→', '"', ')', '→', '"', ']'],
        ['\'', '\\', '\'', '"', '→', '{', '\''], []])
      = [['f', '(', '→', '"', ')', '→', '"', ']'],
        ['\'', '\\', '\'', '"', '→', '{', '\''], []] := by
  -- The string in the call, with a bracket in it that closes nothing.
  have hstring : Closed (fun _ => False) ['"', ')', '→', '"'] :=
    have hbody := .plain (by decide) (by decide) (.plain (by decide) (by decide) .nil)
    Closed.quoted (rfl : isQuote '"') hbody .nil
  have hcall : Closed (· = '→') ['f', '(', '→', '"', ')', '→', '"', ']'] :=
    have hinner := .plain (by decide) id hstring
    have hgroup := Closed.bracketed (rfl : isOpening '(') (rfl : isClosing ']') hinner .nil
    .plain (by decide) (by decide) hgroup
  have hquoted : Closed (· = '→') ['\'', '\\', '\'', '"', '→', '{', '\''] :=
    have hbody := Lexeme.QuotedBody.escape '\'' (.plain (by decide) (by decide)
      (.plain (by decide) (by decide) (.plain (by decide) (by decide) .nil)))
    Closed.quoted (rfl : isQuote '\'') hbody .nil
  apply (split_join_inverse '→').2 (by decide) _ (List.cons_ne_nil _ _)
  rintro fragment (- | ⟨_, - | ⟨_, - | ⟨_, ⟨⟩⟩⟩⟩)
  · exact hcall
  · exact hquoted
  · exact .nil

end Stencil.Nesting
