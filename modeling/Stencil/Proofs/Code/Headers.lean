import Stencil.Proofs.Code.Innermost
import Stencil.Proofs.Expr.Statements

/-!
# Loop headers are read in one way

The header of a `for` loop is split at semicolons and searched for the word `in` long before its
parts are read as statements and expressions. Since these are closed texts, the semicolons between
the parts are the only ones that the header is split at (`Header.ofText?_counted`); and since a name
has no blank in it, the first ` in ` is the one after the name (`Header.each?_in`), whatever the
iterable has in its strings.

Code generation looks at the header on its own. It writes the `while` of a counted loop for the same
headers that are run as counted loops (`Code.Writer.opensWhile_iff`).

Main statement: `Header.unambiguous`.
-/

namespace Stencil

open Text

/-! ## Reading headers -/

namespace Text

variable {c : Char} {separator front rest : Text}

/-- A text is split at the first separator, if the front has no character that starts it. -/
theorem splitOnce?_append (hfront : c ∉ front) :
    splitOnce? (c :: separator) (front ++ ((c :: separator) ++ rest)) = some (front, rest) := by
  induction front with
  | nil =>
    have hstarts : (c :: separator).isPrefixOf ((c :: separator) ++ rest) :=
      List.isPrefixOf_iff_prefix.2 (List.prefix_append _ _)
    rw [List.nil_append, List.cons_append, splitOnce?, ← List.cons_append, if_pos hstarts,
      List.drop_left]
  | cons d front ih =>
    rw [List.mem_cons, not_or] at hfront
    have hdiffers : ¬(c :: separator).isPrefixOf (d :: (front ++ ((c :: separator) ++ rest))) := by
      rw [List.isPrefixOf_iff_prefix, List.cons_prefix_cons]
      exact fun h => hfront.1 h.1
    rw [List.cons_append, splitOnce?, if_neg hdiffers, ih hfront.2]
    rfl

end Text

namespace Header

variable {t name iterable init condition step : Text} {e : Expr}

/-- A header without a semicolon outside of brackets is one part. -/
theorem split_of_closed (h : Closed (· = ';') t) : Nesting.split ';' t = [t] := by
  have hsplit := Nesting.split_joinWith (by decide) (List.cons_ne_nil t [])
    (List.forall_mem_singleton.2 h)
  exact hsplit

/-- Closed texts between semicolons are the parts of a counted loop. -/
theorem ofText?_counted (hinit : Closed (· = ';') init) (hcondition : Closed (· = ';') condition)
    (hstep : Closed (· = ';') step) :
    ofText? (init ++ [';'] ++ condition ++ [';'] ++ step)
      = some (counted (trim init) (trim condition) (trim step)) := by
  have hparts : ∀ part ∈ [init, condition, step], Closed (· = ';') part := by
    simp [hinit, hcondition, hstep]
  have hsplit := Nesting.split_joinWith (by decide) (List.cons_ne_nil _ _) hparts
  have hjoin : joinWith [';'] [init, condition, step]
      = init ++ [';'] ++ condition ++ [';'] ++ step := by
    simp [joinWith]
  rw [hjoin] at hsplit
  rw [ofText?, hsplit]

/-- A name, the word `in` and what is not blank are an `each` header. -/
theorem each?_in (hname : isName name) (hiterable : ¬∀ c ∈ iterable, isBlank c) :
    each? (name ++ " in ".toList ++ iterable) = some (name, trim iterable) := by
  have hblank := not_isBlank_of_isName hname
  have hspace : ' ' ∉ name := fun hmem => hblank ' ' hmem rfl
  have hfound : splitOnce? " in ".toList (name ++ (" in ".toList ++ iterable))
      = some (name, iterable) := splitOnce?_append hspace
  have hnonempty : trim iterable ≠ [] := by
    intro hempty
    obtain ⟨front, back, hsplit, hfront, hback⟩ := exists_trim iterable
    rw [hempty, List.nil_append] at hsplit
    apply hiterable
    rw [hsplit]
    exact fun c hc => (List.mem_append.1 hc).elim (hfront c) (hback c)
  rw [each?, List.append_assoc, hfound, Option.bind_some]
  simp only [trim_eq_self hblank]
  exact if_pos ⟨hname, hnonempty⟩

/-- What goes through the items of a closed text is no counted loop. -/
theorem ofText?_in (hname : isName name) (hiterable : ¬∀ c ∈ iterable, isBlank c)
    (hclosed : Closed (· = ';') iterable) :
    ofText? (name ++ " in ".toList ++ iterable) = some (each name (trim iterable)) := by
  have hfront : Closed (· = ';') name := by
    rw [isName, Bool.and_eq_true, List.all_eq_true] at hname
    refine (closed_of_forall fun c hc => isPlain_of_isNamePart (hname.2 c hc)).mono ?_
    exact fun c hc => .inr hc
  have hin : Closed (· = ';') " in ".toList := by
    have hplain : " in ".toList.all fun c => decide (IsPlain c ∧ ¬c = ';') := by decide
    exact closed_of_forall fun c hc => of_decide_eq_true (List.all_eq_true.1 hplain c hc)
  rw [ofText?, split_of_closed ((hfront.append hin).append hclosed)]
  simp only [each?_in hname hiterable]
  rfl

/-- A header is one of a counted loop if it has three parts. -/
theorem exists_counted_iff :
    (∃ init condition step, ofText? t = some (counted init condition step)) ↔
      ∃ init condition step, Nesting.split ';' t = [init, condition, step] := by
  unfold ofText?
  constructor
  · rintro ⟨_, _, _, h⟩
    split at h
    · exact ⟨_, _, _, ‹_›⟩
    · obtain ⟨_, -, heach⟩ := Option.map_eq_some_iff.1 h
      cases heach
    · cases h
  · rintro ⟨init, condition, step, hsplit⟩
    simp only [hsplit]
    exact ⟨_, _, _, rfl⟩

/-- A text that is blank, or is read as something closed, has no semicolon outside of brackets. -/
theorem closed_of_blank_or {α : Type} {parse : Text → Except ExprError α}
    (hclosed : ∀ {a}, parse t = .ok a → Closed IsSeparator t)
    (h : (∀ c ∈ t, isBlank c) ∨ ∃ a, parse t = .ok a) : Closed (· = ';') t := by
  rcases h with hblank | ⟨a, hparse⟩
  · exact Lexeme.closed_blanks hblank fun _ hc => .inr hc
  · exact (hclosed hparse).mono fun _ hc => .inr hc

end Header

/-! ## Writing loops -/

namespace Code.Writer

/-- The new lines begin with a block and then, after a line for the declaration at most, the head of
a labelled `while` in it, which has a condition. -/
def OpensWhile (w w' : Writer) : Prop :=
  ∃ number condition declaration later, condition ≠ [] ∧ w'.lines
    = later ++ ⟨w.depth + 1, "'loop_".toList ++ Nat.toDigits 10 number ++ ": while ".toList
          ++ condition ++ " \x7b".toList⟩ ::
        (declaration ++ ⟨w.depth, ['\x7b']⟩ :: w.lines) ∧ declaration.length ≤ 1

variable {body : Writer → Writer}

theorem opensWhile_countedLoop (hbody : Adds body) (init condition step : Text) (w : Writer) :
    w.OpensWhile (w.countedLoop init condition step body) := by
  obtain ⟨later, hlines⟩ := lines_countedLoop hbody init condition step w
  refine ⟨w.labelled + 1, _, _, later, ?_, hlines, ?_⟩
  · split
    · exact List.cons_ne_nil 't' _
    · rename_i hcondition
      simpa using hcondition
  · split
    · exact Nat.zero_le 1
    · exact Nat.le_refl 1

theorem not_opensWhile_plainLoop (hbody : Adds body) (head : Text) (w : Writer) :
    ¬w.OpensWhile (w.plainLoop ("for ".toList ++ head) body) := by
  rintro ⟨number, condition, declaration, later, -, hwhile, -⟩
  obtain ⟨later', hplain⟩ := lines_plainLoop hbody ("for ".toList ++ head) w
  rw [hplain, ← List.cons_append, ← List.append_assoc] at hwhile
  -- What stands right after the lines that were there before.
  obtain ⟨-, hfirst⟩ := List.append_inj' hwhile (by simp)
  obtain ⟨hline, -⟩ := List.cons.inj hfirst
  have htext : 'f' :: _ = ['\x7b'] := congrArg Line.text hline
  cases htext

/-- Code generation writes a `while` for the headers that are run as counted loops. -/
theorem opensWhile_iff (hbody : Adds body) (header : Text) (w : Writer) :
    w.OpensWhile (w.loop .forLoop header body) ↔
      ∃ init condition step, Header.ofText? header = some (.counted init condition step) := by
  rw [Header.exists_counted_iff]
  simp only [loop]
  split
  · rename_i init condition step hsplit
    constructor
    · intro
      exact ⟨init, condition, step, hsplit⟩
    · intro
      exact opensWhile_countedLoop hbody _ _ _ w
  · rename_i hsplit
    constructor
    · intro hopens
      exact absurd hopens (not_opensWhile_plainLoop hbody header w)
    · rintro ⟨init, condition, step, hparts⟩
      exact absurd hparts (hsplit init condition step)

end Code.Writer

/-- Loop headers are read in one way. Statements and a condition between semicolons, each of which
may be blank, are a counted loop with these parts; a name, the word `in` and an expression are an
`each` loop with that name and expression, both in a `for` header and in a `foreach` header; and the
code of a `for` loop begins with a labelled `while` if and only if the header is the one of a
counted loop. -/
theorem Header.unambiguous :
    (∀ init condition step,
      ((∀ c ∈ init, isBlank c) ∨ ∃ statement, Statement.parse init = .ok statement) →
      ((∀ c ∈ condition, isBlank c) ∨ ∃ e, Expr.parse condition = .ok e) →
      ((∀ c ∈ step, isBlank c) ∨ ∃ statement, Statement.parse step = .ok statement) →
      ofText? (init ++ [';'] ++ condition ++ [';'] ++ step)
        = some (.counted (trim init) (trim condition) (trim step))) ∧
    (∀ name iterable e, isName name → Expr.parse iterable = .ok e →
      ofText? (name ++ " in ".toList ++ iterable) = some (.each name (trim iterable)) ∧
        each? (name ++ " in ".toList ++ iterable) = some (name, trim iterable)) ∧
    ∀ (names : CodeNames) (header : Text) (body : List Op) (w : Code.Writer),
      w.OpensWhile (Code.Writer.op names (.loop .forLoop header body) w) ↔
        ∃ init condition step, ofText? header = some (.counted init condition step) := by
  refine ⟨fun init condition step hinit hcondition hstep => ?_,
    fun name iterable e hname hparse => ?_, fun names header body w => ?_⟩
  · exact ofText?_counted (closed_of_blank_or Statement.closed_of_parse hinit)
      (closed_of_blank_or Expr.closed_of_parse hcondition)
      (closed_of_blank_or Statement.closed_of_parse hstep)
  · have hiterable := Expr.not_blank_of_parse hparse
    have hclosed := closed_of_blank_or Expr.closed_of_parse (.inr ⟨e, hparse⟩)
    exact ⟨ofText?_in hname hiterable hclosed, each?_in hname hiterable⟩
  · exact Code.Writer.opensWhile_iff (Code.Writer.adds_ops names body) header w

/-- Headers with semicolons, brackets and the word `in` in strings, and what is written for them. -/
theorem Header.unambiguous_strings :
    let counting := "mut i = \";\"".toList ++ [';'] ++ " i != '(;' ".toList ++ [';'] ++ []
    let going := "x".toList ++ " in ".toList ++ "[' in ', \";\"] ".toList
    let written header := Code.Writer.op {} (.loop .forLoop header []) Code.Writer.empty
    let opens header := Code.Writer.empty.OpensWhile (written header)
    (ofText? counting = some (.counted "mut i = \";\"".toList "i != '(;'".toList []) ∧
        opens counting ∧
        (written counting).code =
          ["\x7b",
           "    let mut i = \";\";",
           "    'loop_1: while i != '(;' \x7b",
           "        'body_1: \x7b",
           "        \x7d",
           "    \x7d",
           "\x7d"].flatMap (·.toList ++ ['\n'])) ∧
      ofText? going = some (.each "x".toList "[' in ', \";\"]".toList) ∧
      each? going = some ("x".toList, "[' in ', \";\"]".toList) ∧ ¬opens going ∧
      (written going).code =
        ["for x in [' in ', \";\"]  \x7b", "\x7d"].flatMap (·.toList ++ ['\n']) := by
  intro counting going written opens
  have hinit : ∃ statement, Statement.parse "mut i = \";\"".toList = .ok statement :=
    exists_ok (by decide +kernel)
  have hcondition : ∃ e, Expr.parse " i != '(;' ".toList = .ok e := exists_ok (by decide +kernel)
  obtain ⟨e, hiterable⟩ : ∃ e, Expr.parse "[' in ', \";\"] ".toList = .ok e :=
    exists_ok (by decide +kernel)
  have hcounted : ofText? counting
      = some (.counted "mut i = \";\"".toList "i != '(;'".toList []) := by
    have hparts :=
      unambiguous.1 _ _ [] (.inr hinit) (.inr hcondition) (.inl (List.forall_mem_nil _))
    have htrimmed : [trim "mut i = \";\"".toList, trim " i != '(;' ".toList, trim []]
        = ["mut i = \";\"".toList, "i != '(;'".toList, []] := by decide
    simp only [List.cons.injEq, and_true] at htrimmed
    rw [hparts, htrimmed.1, htrimmed.2.1, htrimmed.2.2]
  have heach := unambiguous.2.1 "x".toList _ e (by decide) hiterable
  have htrimmed : trim "[' in ', \";\"] ".toList = "[' in ', \";\"]".toList := by decide
  rw [htrimmed] at heach
  refine ⟨⟨hcounted, ?_, by decide +kernel⟩, heach.1, heach.2, ?_, by decide +kernel⟩
  · exact (unambiguous.2.2 {} counting [] Code.Writer.empty).2 ⟨_, _, _, hcounted⟩
  · intro hopens
    obtain ⟨init, condition, step, hform⟩ :=
      (unambiguous.2.2 {} going [] Code.Writer.empty).1 hopens
    rw [heach.1] at hform
    cases hform

end Stencil
