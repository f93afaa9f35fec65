import Stencil.Proofs.Expr.Statements

/-!
# The parts of a statement

The text of a statement is cut around its name and its sign (`Statement.Parts`). What stands before
the name and between the name and the sign are blanks, apart from the word `mut`; what follows the
sign does not end like an increment, since no expression ends in a sign but a closing bracket
(`Expr.Reads.getLast`).

Main statement: `Statement.exists_parts`.
-/

namespace Stencil

open Text

namespace Expr

variable {phrase : Phrase} {n : Nat} {e : Expr} {lexemes : List Lexeme} {t : Text}

/-! ## The ends of expressions -/

/-- No sign but a closing bracket. -/
def CanEnd (lexeme : Lexeme) : Prop :=
  ∀ s, lexeme = .symbol s → s = .rightParen ∨ s = .rightBracket

theorem canEnd_rightParen : CanEnd (.symbol .rightParen) := by
  rintro s ⟨⟩
  exact .inl rfl

theorem canEnd_rightBracket : CanEnd (.symbol .rightBracket) := by
  rintro s ⟨⟩
  exact .inr rfl

theorem Derives.exists_last (h : Derives phrase n lexemes) :
    ∃ front last, lexemes = front ++ [last] ∧ CanEnd last := by
  induction h with
  | @atom lexeme e h =>
    refine ⟨[], lexeme, rfl, ?_⟩
    rintro s rfl
    cases h
  | @parens e n lexemes =>
    exact ⟨.symbol .leftParen :: lexemes, _, rfl, canEnd_rightParen⟩
  | emptyArray => exact ⟨[.symbol .leftBracket], _, rfl, canEnd_rightBracket⟩
  | @array es n lexemes comma =>
    refine ⟨.symbol .leftBracket :: (lexemes ++ comma), _, ?_, canEnd_rightBracket⟩
    rw [List.cons_append, List.append_assoc]
  | @member object n lexemes name =>
    refine ⟨lexemes ++ [.symbol .dot], .name name, ?_, nofun⟩
    rw [List.append_assoc, List.singleton_append]
  | @index object i m n first second =>
    refine ⟨first ++ .symbol .leftBracket :: second, _, ?_, canEnd_rightBracket⟩
    rw [List.append_assoc, List.cons_append]
  | @unary sign op e n lexemes _ _ ih =>
    obtain ⟨front, last, rfl, hlast⟩ := ih
    exact ⟨sign :: front, last, rfl, hlast⟩
  | @binary level sign op left right m n first second _ _ _ _ ih =>
    obtain ⟨front, last, rfl, hlast⟩ := ih
    refine ⟨first ++ sign :: front, last, ?_, hlast⟩
    rw [List.append_assoc, List.cons_append]
  | tighter _ _ ih => exact ih
  | single _ ih => exact ih
  | @more e es m n first second _ _ _ ih =>
    obtain ⟨front, last, rfl, hlast⟩ := ih
    refine ⟨first ++ .symbol .comma :: front, last, ?_, hlast⟩
    rw [List.append_assoc, List.cons_append]

/-- What the last lexeme of an expression is written as does not end like an increment. -/
theorem CanEnd.getLast_written {lexeme : Lexeme} {w : Text} (h : CanEnd lexeme)
    (hwritten : Lexeme.Written lexeme w) : ∀ c ∈ w.getLast?, c ≠ '+' ∧ c ≠ '-' := by
  have hpart : ∀ c, isNamePart c → c ≠ '+' ∧ c ≠ '-' := by
    rintro c hc
    constructor
    · rintro rfl
      revert hc
      decide
    · rintro rfl
      revert hc
      decide
  intro c hc
  have hmem := List.mem_of_getLast? hc
  cases hwritten with
  | reserved word =>
    have hname := Lexeme.isName_spelling word
    rw [isName, Bool.and_eq_true, List.all_eq_true] at hname
    exact hpart c (hname.2 c hmem)
  | symbol s =>
    rcases h s rfl with rfl | rfl
    · cases hc
      decide
    · cases hc
      decide
  | name hname =>
    rw [isName, Bool.and_eq_true, List.all_eq_true] at hname
    exact hpart c (hname.2 c hmem)
  | int hdigits => exact hpart c (isNamePart_of_isDigit (hdigits c hmem))
  | @string quote body content hquote =>
    rw [← List.cons_append, List.getLast?_concat] at hc
    obtain rfl := Option.some.inj hc
    rw [Nesting.isQuote, Bool.or_eq_true, beq_iff_eq, beq_iff_eq] at hquote
    rcases hquote with rfl | rfl <;> decide

/-- The text of an expression does not end like an increment, if it does not end in blanks. -/
theorem Reads.getLast (h : e.Reads lexemes) (hspelled : Lexeme.Spelled lexemes t)
    (hblank : ∀ c ∈ t.getLast?, ¬isBlank c) : t ≠ [] ∧ ∀ c ∈ t.getLast?, c ≠ '+' ∧ c ≠ '-' := by
  obtain ⟨n, -, hderives⟩ := h
  obtain ⟨front, last, rfl, hlast⟩ := hderives.exists_last
  obtain ⟨s, u, rfl, -, hu⟩ := hspelled.exists_append
  cases hu with
  | @cons _ _ gap w rest hgap hwritten _ hrest =>
    cases hrest with
    | nil hrest =>
      have hnonempty := hwritten.ne_nil
      have hend : rest = [] := by
        by_contra hne
        obtain ⟨c, hc⟩ := Option.ne_none_iff_exists'.1 (mt List.getLast?_eq_none_iff.1 hne)
        have hall : (s ++ (gap ++ (w ++ rest))).getLast? = some c := by
          simp [List.getLast?_append, hc]
        exact hblank c hall (hrest c (List.mem_of_getLast? hc))
      subst hend
      refine ⟨by simp [hnonempty], fun c hc => hlast.getLast_written hwritten c ?_⟩
      have hsame : (s ++ (gap ++ (w ++ []))).getLast? = w.getLast? := by
        rw [List.append_nil, ← List.append_assoc, List.getLast?_append_of_ne_nil _ hnonempty]
      rwa [hsame] at hc

end Expr

namespace Statement

/-! ## The parts of a statement -/

/-- The text of a statement, cut around its name and its sign. -/
structure Parts where
  /-- The word before the name with the blanks after it, or nothing. -/
  lead : Text
  name : Text
  /-- The blanks between the name and the sign. -/
  gap : Text
  sign : Symbol
  /-- What follows the sign. -/
  value : Text

namespace Parts

def text (p : Parts) : Text := p.lead ++ (p.name ++ (p.gap ++ (p.sign.spelling ++ p.value)))

/-- The parts say the same as the statement, and have no blanks at their ends. -/
structure Of (statement : Statement) (p : Parts) : Prop where
  lead : p.lead = [] ∨ ∃ blanks, p.lead = "mut".toList ++ blanks ∧ blanks ≠ [] ∧
    ∀ c ∈ blanks, isBlank c
  name : isName p.name
  free : Reserved.ofText? p.name = none
  gap : ∀ c ∈ p.gap, isBlank c
  change : ∃ lexemes, Change p.name (.symbol p.sign :: lexemes) statement ∧
    Lexeme.Spelled lexemes p.value
  last : ∀ c ∈ p.text.getLast?, ¬isBlank c

end Parts

variable {statement : Statement} {p : Parts} {t name rest : Text} {lexemes : List Lexeme}
  {lexeme : Lexeme} {sign : Symbol} {c : Char}

theorem Change.exists_sign (h : Change name lexemes statement) :
    ∃ sign later, lexemes = .symbol sign :: later := by
  cases h with
  | declare => exact ⟨_, _, rfl⟩
  | update => exact ⟨_, _, rfl⟩
  | count => exact ⟨_, _, rfl⟩

/-- The first lexeme of a text stands at its front, if the text does not start with a blank. -/
theorem exists_first (h : Lexeme.Spelled (lexeme :: lexemes) t)
    (hblank : ∀ c ∈ t.head?, ¬isBlank c) : ∃ w rest, t = w ++ rest ∧ Lexeme.Written lexeme w ∧
      lexeme.Stops rest ∧ Lexeme.Spelled lexemes rest := by
  cases h with
  | @cons _ _ gap w rest hgap hwritten hstops hrest =>
    cases gap with
    | nil => exact ⟨w, rest, rfl, hwritten, hstops, hrest⟩
    | cons c gap => exact absurd (hgap c List.mem_cons_self) (hblank c rfl)

/-- The text from the name on, cut at the sign. -/
theorem Change.exists_parts (h : Change name lexemes statement)
    (hspelled : Lexeme.Spelled lexemes rest) : ∃ gap sign value later,
      rest = gap ++ (sign.spelling ++ value) ∧ (∀ c ∈ gap, isBlank c) ∧
        Change name (.symbol sign :: later) statement ∧ Lexeme.Spelled later value := by
  obtain ⟨sign, later, rfl⟩ := h.exists_sign
  obtain ⟨gap, value, hrest, hgap, hvalue⟩ := hspelled.exists_symbol
  exact ⟨gap, sign, value, later, hrest, hgap, h, hvalue⟩

/-- Every text that is a statement has parts. -/
theorem exists_parts (h : parse t = .ok statement) : ∃ p : Parts, p.Of statement ∧
    trim t = p.text := by
  obtain ⟨lexemes, hspelled, hderives⟩ := parse_iff_derives.1 h
  have hlast := getLast?_trim t
  cases hderives with
  | @mk lead later name hlead hchange =>
    rcases hlead with rfl | rfl
    · obtain ⟨w, rest, ht, hwritten, -, hrest⟩ :=
        exists_first hspelled.trim (head?_trim t)
      obtain ⟨gap, sign, value, later, rfl, hgap, hchange, hvalue⟩ := hchange.exists_parts hrest
      cases hwritten with
      | name hname hfree =>
        rw [ht] at hlast
        exact ⟨⟨[], name, gap, sign, value⟩,
          ⟨.inl rfl, hname, hfree, hgap, ⟨later, hchange, hvalue⟩, hlast⟩, ht⟩
    · obtain ⟨w, rest, ht, hwritten, hstops, hrest⟩ :=
        exists_first hspelled.trim (head?_trim t)
      cases hwritten
      cases hrest with
      | @cons _ _ blanks w rest hblanks hwritten _ hrest =>
        obtain ⟨gap, sign, value, later, rfl, hgap, hchange, hvalue⟩ := hchange.exists_parts hrest
        cases hwritten with
        | name hname hfree =>
          have hnonempty : blanks ≠ [] := by
            rintro rfl
            obtain ⟨c, name, rfl⟩ : ∃ c later, name = c :: later :=
              List.exists_cons_of_ne_nil (by rintro rfl; cases hname)
            exact hstops c rfl (isNamePart_of_isNameStart (Lexeme.isName_cons_iff.1 hname).1)
          rw [ht, ← List.append_assoc] at hlast
          refine ⟨⟨"mut".toList ++ blanks, name, gap, sign, value⟩,
            ⟨.inr ⟨blanks, rfl, hnonempty, hblanks⟩, hname, hfree, hgap,
              ⟨later, hchange, hvalue⟩, hlast⟩, ?_⟩
          rw [ht, ← List.append_assoc]
          rfl

end Statement

end Stencil
