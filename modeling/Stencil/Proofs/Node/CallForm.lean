import Stencil.Proofs.Node.Grammar

/-!
# The form of a call

Reading a call finds exactly the spans of the form `Name(arguments)` (`call?_eq_some_iff`).
-/

namespace Stencil

namespace Nesting

variable {nesting : Nesting} {c : Char} {t inner later : Text}

theorem closes_nil_iff : nesting.Closes [] ↔ nesting.step ')' = outside 0 := by
  constructor
  · exact fun h => h.1
  · exact fun h => ⟨h, fun front back hsplit => by simp at hsplit⟩

/-- One character more at the front must not be the closing parenthesis itself. -/
theorem closes_cons_iff : nesting.Closes (c :: inner) ↔
    ¬(c = ')' ∧ nesting.step c = outside 0) ∧ (nesting.step c).Closes inner := by
  constructor
  · rintro ⟨hafter, hfirst⟩
    refine ⟨?_, hafter, fun front back h => ?_⟩
    · rintro ⟨rfl, hstep⟩
      exact hfirst [] inner rfl hstep
    · exact hfirst (c :: front) back (by rw [h]; rfl)
  · rintro ⟨hc, hafter, hfirst⟩
    refine ⟨hafter, fun front back h => ?_⟩
    cases front with
    | nil =>
      obtain ⟨rfl, -⟩ : c = ')' ∧ inner = back := by simpa using h
      exact fun hstep => hc ⟨rfl, hstep⟩
    | cons d front =>
      obtain ⟨rfl, hback⟩ : c = d ∧ inner = front ++ ')' :: back := by simpa using h
      exact hfirst front back hback

/-- The closing parenthesis that is found is the first one that leads back to the top level. -/
theorem closing?_eq_some_iff :
    closing? nesting t = some (inner, later) ↔
      t = inner ++ ')' :: later ∧ nesting.Closes inner := by
  -- The nesting changes along the text, so the induction is for all of them at once.
  induction t generalizing nesting inner with
  | nil => simp [closing?]
  | cons c t ih =>
    rw [closing?]
    simp only
    by_cases hclose : c = ')' ∧ nesting.step c = outside 0
    · obtain ⟨rfl, hstep⟩ := hclose
      rw [if_pos ⟨rfl, hstep⟩]
      constructor
      · rintro ⟨⟩
        exact ⟨rfl, closes_nil_iff.2 hstep⟩
      · rintro ⟨ht, hcloses⟩
        cases inner with
        | nil =>
          obtain rfl : t = later := by simpa using ht
          rfl
        | cons d inner =>
          obtain ⟨rfl, -⟩ : ')' = d ∧ t = inner ++ ')' :: later := by simpa using ht
          exact absurd ⟨rfl, hstep⟩ (closes_cons_iff.1 hcloses).1
    · rw [if_neg hclose, Option.map_eq_some_iff]
      constructor
      · rintro ⟨⟨inner', later'⟩, hrest, heq⟩
        obtain ⟨rfl, rfl⟩ : c :: inner' = inner ∧ later' = later := by simpa using heq
        obtain ⟨ht, hcloses⟩ := ih.1 hrest
        exact ⟨by rw [ht]; rfl, closes_cons_iff.2 ⟨hclose, hcloses⟩⟩
      · rintro ⟨ht, hcloses⟩
        cases inner with
        | nil =>
          obtain ⟨rfl, -⟩ : c = ')' ∧ t = later := by simpa using ht
          exact absurd ⟨rfl, closes_nil_iff.1 hcloses⟩ hclose
        | cons d inner' =>
          obtain ⟨rfl, hrest⟩ : c = d ∧ t = inner' ++ ')' :: later := by simpa using ht
          exact ⟨(inner', later), ih.2 ⟨hrest, (closes_cons_iff.1 hcloses).2⟩, rfl⟩

end Nesting

namespace Text

/-- Where a text is cut before the first `c`. -/
theorem cut_eq_iff {c : Char} {t before rest : Text} :
    t.takeWhile (· ≠ c) = before ∧ t.dropWhile (· ≠ c) = c :: rest ↔
      t = before ++ c :: rest ∧ c ∉ before := by
  constructor
  · rintro ⟨rfl, hrest⟩
    refine ⟨?_, fun hmem => ?_⟩
    · rw [← hrest, List.takeWhile_append_dropWhile]
    · simpa using List.all_eq_true.1 List.all_takeWhile _ hmem
  · rintro ⟨rfl, hbefore⟩
    have hpos : ∀ d ∈ before, decide (d ≠ c) := fun d hd => by
      simpa using fun h : d = c => hbefore (h ▸ hd)
    rw [List.takeWhile_append_of_pos hpos, List.dropWhile_append_of_pos hpos]
    simp

end Text

namespace Span

/-- The spans that are read as calls are those of the form of a call. -/
theorem call?_eq_some_iff {source : Text} {span name : Span} {arguments : List Span} :
    call? source span = some (name, arguments) ↔ IsCall source span name arguments := by
  unfold call? IsCall
  generalize span.text source = t
  simp only
  constructor
  · intro h
    split at h
    · cases h
    rename_i hname
    split at h
    · rename_i inner hclosing
      cases h
      obtain ⟨hinner, hcloses⟩ := Nesting.closing?_eq_some_iff.1 hclosing
      have hopen := List.head?_dropWhile_not (fun c : Char => decide (c ≠ '(')) t
      have hcut : t.dropWhile (· ≠ '(') = '(' :: (inner ++ [')']) := by
        cases hrest : t.dropWhile (· ≠ '(') with
        | nil =>
          rw [hrest] at hinner
          simp at hinner
        | cons c rest =>
          rw [hrest] at hopen hinner
          obtain rfl : c = '(' := by simpa using hopen
          rw [show rest = inner ++ [')'] from hinner]
      obtain ⟨ht, hbefore⟩ := Text.cut_eq_iff.1 ⟨rfl, hcut⟩
      exact ⟨_, inner, ht, hbefore, hcloses, rfl, hname, rfl⟩
    · cases h
  · rintro ⟨before, inner, ht, hbefore, hcloses, rfl, hname, rfl⟩
    obtain ⟨htake, hdrop⟩ := Text.cut_eq_iff.2 ⟨ht, hbefore⟩
    rw [htake, hdrop, List.drop_one, List.tail_cons, if_neg hname,
      Nesting.closing?_eq_some_iff.2 ⟨rfl, hcloses⟩]

end Span

end Stencil
