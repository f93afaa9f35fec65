import Stencil.Proofs.Expr.Reading
import Stencil.Proofs.Nesting.Closed

/-!
# Expressions are closed texts

Arguments of calls and parts of loop headers are separated long before they are read as expressions,
by looking at quotes and brackets only. That is safe because every text that is an expression is
closed, with no comma and no semicolon outside of its brackets: the grammar has brackets only in
pairs, a comma only between the elements of an array, and no semicolon at all.

Main statement: `Expr.closed_of_parse`.
-/

namespace Stencil

open Text

/-- What separates arguments of calls, or parts of headers. -/
def Text.IsSeparator (c : Char) : Prop := c = ',' ∨ c = ';'

instance : DecidablePred Text.IsSeparator := fun c =>
  inferInstanceAs (Decidable (c = ',' ∨ c = ';'))

instance : DecidablePred Text.IsPlain := fun c =>
  inferInstanceAs (Decidable (¬Nesting.isQuote c ∧ ¬Nesting.isOpening c ∧ ¬Nesting.isClosing c))

namespace Text

variable {c : Char}

/-- The characters that have a meaning where expressions are separated. -/
def marks : List Char := ['"', '\'', '(', '[', '{', ')', ']', '}', ',', ';']

theorem mem_marks_of_not_plain (h : ¬(IsPlain c ∧ ¬IsSeparator c)) : c ∈ marks := by
  rw [not_and_or, not_not] at h
  simp only [IsPlain, IsSeparator, Nesting.isQuote, Nesting.isOpening, Nesting.isClosing,
    Bool.or_eq_true, beq_iff_eq] at h
  simp only [marks, List.mem_cons, List.not_mem_nil, or_false]
  tauto

theorem isPlain_of_isNamePart (h : isNamePart c) : IsPlain c ∧ ¬IsSeparator c := by
  have hmarks : marks.all (!isNamePart ·) := by decide
  by_contra hplain
  exact forall_not_of_all hmarks c (mem_marks_of_not_plain hplain) h

theorem isPlain_of_isBlank (h : isBlank c) : IsPlain c ∧ ¬IsSeparator c := by
  have hmarks : marks.all (!isBlank ·) := by decide
  by_contra hplain
  exact forall_not_of_all hmarks c (mem_marks_of_not_plain hplain) h

end Text

namespace Lexeme

variable {lexeme : Lexeme} {lexemes : List Lexeme} {t w : Text} {excluded : Char → Prop}
  {opening closing : Symbol}

/-- The lexeme is neither a bracket nor a comma. -/
def IsFlat (lexeme : Lexeme) : Prop :=
  ∀ s ∈ [Symbol.leftParen, .rightParen, .leftBracket, .rightBracket, .comma], lexeme ≠ .symbol s

theorem Written.closed (h : Written lexeme w) (hflat : lexeme.IsFlat) : Closed IsSeparator w := by
  cases h with
  | reserved word =>
    have hname := isName_spelling word
    rw [isName, Bool.and_eq_true, List.all_eq_true] at hname
    exact closed_of_forall fun c hc => isPlain_of_isNamePart (hname.2 c hc)
  | symbol s =>
    have hall : ∀ s ∈ Symbol.all,
        s ∉ [Symbol.leftParen, .rightParen, .leftBracket, .rightBracket, .comma] →
        s.spelling.all fun c => decide (IsPlain c ∧ ¬IsSeparator c) := by decide
    have hspelling := hall s s.mem_all fun hs => hflat s hs rfl
    exact closed_of_forall fun c hc => of_decide_eq_true (List.all_eq_true.1 hspelling c hc)
  | name hname =>
    rw [isName, Bool.and_eq_true, List.all_eq_true] at hname
    exact closed_of_forall fun c hc => isPlain_of_isNamePart (hname.2 c hc)
  | int hdigits =>
    exact closed_of_forall fun c hc => isPlain_of_isNamePart (isNamePart_of_isDigit (hdigits c hc))
  | string hquote hbody => exact .quoted hquote hbody .nil

theorem closed_blanks (h : ∀ c ∈ t, isBlank c) (hexcluded : ∀ c, excluded c → IsSeparator c) :
    Closed excluded t :=
  (closed_of_forall fun c hc => isPlain_of_isBlank (h c hc)).mono hexcluded

/-- A text is closed if its lexemes are. -/
theorem Spelled.closed (h : Spelled lexemes t) (hexcluded : ∀ c, excluded c → IsSeparator c)
    (hlexemes : ∀ lexeme ∈ lexemes, ∀ w, Written lexeme w → Closed excluded w) :
    Closed excluded t := by
  induction h with
  | nil hgap => exact closed_blanks hgap hexcluded
  | cons hgap hwritten _ _ ih =>
    rw [List.forall_mem_cons] at hlexemes
    exact (closed_blanks hgap hexcluded).append
      ((hlexemes.1 _ hwritten).append (ih hlexemes.2))

theorem Spelled.closed_of_flat (h : Spelled lexemes t) (hflat : ∀ lexeme ∈ lexemes, lexeme.IsFlat) :
    Closed IsSeparator t :=
  h.closed (fun _ h => h) fun lexeme hmem _ hwritten => hwritten.closed (hflat lexeme hmem)

/-- Where a sign is written, if other lexemes follow. -/
theorem Spelled.exists_symbol {s : Symbol} (h : Spelled (.symbol s :: lexemes) t) :
    ∃ gap rest, t = gap ++ (s.spelling ++ rest) ∧ (∀ c ∈ gap, isBlank c) ∧
      Spelled lexemes rest := by
  cases h with
  | cons hgap hwritten _ hrest =>
    cases hwritten
    exact ⟨_, _, rfl, hgap, hrest⟩

/-- A text is closed that has brackets around closed text. -/
theorem Spelled.closed_bracketed {o c : Char} (hopening : opening.spelling = [o])
    (hclosing : closing.spelling = [c]) (ho : Nesting.isOpening o) (hc : Nesting.isClosing c)
    (h : Spelled (.symbol opening :: (lexemes ++ [.symbol closing])) t)
    (hinner : ∀ inner, Spelled lexemes inner → Closed (fun _ => False) inner) :
    Closed IsSeparator t := by
  obtain ⟨gap, rest, rfl, hgap, hrest⟩ := h.exists_symbol
  obtain ⟨inner, rest, rfl, hspelled, hend⟩ := hrest.exists_append
  obtain ⟨gap', last, rfl, hgap', hlast⟩ := hend.exists_symbol
  have hgroup : Closed IsSeparator (o :: ((inner ++ gap') ++ c :: last)) := by
    refine .bracketed ho hc ((hinner inner hspelled).append ?_) ?_
    · exact closed_blanks hgap' fun _ h => h.elim
    · exact hlast.closed (fun _ h => h) (List.forall_mem_nil _)
  have hall := (closed_blanks hgap fun _ h => h).append hgroup
  rw [hopening, hclosing]
  simpa using hall

/-- A comma in brackets. -/
theorem closed_comma (h : Written (.symbol .comma) w) : Closed (fun _ => False) w := by
  cases h
  exact .plain (by decide) id .nil

end Lexeme

namespace Expr

open Lexeme

variable {phrase : Phrase} {n : Nat} {lexemes : List Lexeme} {lexeme : Lexeme} {t : Text} {e : Expr}

theorem Atom.isFlat (h : Atom lexeme e) : lexeme.IsFlat := by
  rintro s - rfl
  cases h

theorem UnarySign.isFlat {op : UnaryOp} (h : UnarySign lexeme op) : lexeme.IsFlat := by
  rintro s hs rfl
  cases h <;> simp at hs

theorem BinarySign.isFlat {level : Nat} {op : BinaryOp} (h : BinarySign level lexeme op) :
    lexeme.IsFlat := by
  rintro s hs rfl
  cases h <;> simp at hs

/-- What does not stand in a phrase outside of brackets. The elements of an array stand in brackets
already. -/
def Phrase.excluded : Phrase → Char → Prop
  | .expr _ _ => IsSeparator
  | .elements _ => fun _ => False

/-- The text of a phrase is closed. -/
theorem Derives.closed (h : Derives phrase n lexemes) (hspelled : Spelled lexemes t) :
    Closed phrase.excluded t := by
  induction h generalizing t with
  | atom h => exact hspelled.closed_of_flat (List.forall_mem_singleton.2 h.isFlat)
  | parens h ih => exact hspelled.closed_bracketed rfl rfl rfl rfl fun inner hinner =>
      (ih hinner).mono fun _ h => h.elim
  | emptyArray =>
    rw [← List.nil_append [Lexeme.symbol .rightBracket]] at hspelled
    exact hspelled.closed_bracketed rfl rfl rfl rfl fun inner hinner =>
      hinner.closed (fun _ h => h.elim) (List.forall_mem_nil _)
  | @array es n lexemes comma hcomma h ih =>
    rw [← List.append_assoc] at hspelled
    refine hspelled.closed_bracketed rfl rfl rfl rfl fun inner hinner => ?_
    obtain ⟨s, u, rfl, hs, hu⟩ := hinner.exists_append
    refine (ih hs).append (hu.closed (fun _ h => h.elim) fun lexeme hmem w hwritten => ?_)
    rcases hcomma with rfl | rfl
    · cases hmem
    · obtain rfl := List.mem_singleton.1 hmem
      exact closed_comma hwritten
  | member name h ih =>
    obtain ⟨s, u, rfl, hs, hu⟩ := hspelled.exists_append
    exact (ih hs).append (hu.closed_of_flat (by simp [IsFlat]))
  | index hobject hindex ihobject ihindex =>
    obtain ⟨s, u, rfl, hs, hu⟩ := hspelled.exists_append
    exact (ihobject hs).append (hu.closed_bracketed rfl rfl rfl rfl fun inner hinner =>
      (ihindex hinner).mono fun _ h => h.elim)
  | unary hsign h ih =>
    rw [← List.singleton_append] at hspelled
    obtain ⟨s, u, rfl, hs, hu⟩ := hspelled.exists_append
    exact (hs.closed_of_flat (List.forall_mem_singleton.2 hsign.isFlat)).append (ih hu)
  | binary hsign _ _ ihleft ihright =>
    obtain ⟨s, u, rfl, hs, hu⟩ := hspelled.exists_append
    rw [← List.singleton_append] at hu
    obtain ⟨u, v, rfl, hu, hv⟩ := hu.exists_append
    exact (ihleft hs).append
      ((hu.closed_of_flat (List.forall_mem_singleton.2 hsign.isFlat)).append (ihright hv))
  | tighter _ _ ih => exact ih hspelled
  | single _ ih => exact (ih hspelled).mono fun _ h => h.elim
  | more _ _ ihfirst ihrest =>
    obtain ⟨s, u, rfl, hs, hu⟩ := hspelled.exists_append
    rw [← List.singleton_append] at hu
    obtain ⟨u, v, rfl, hu, hv⟩ := hu.exists_append
    have hcomma : Closed (fun _ => False) u := hu.closed (fun _ h => h.elim)
      (List.forall_mem_singleton.2 fun _ hwritten => closed_comma hwritten)
    exact ((ihfirst hs).mono fun _ h => h.elim).append (hcomma.append (ihrest hv))

/-- The lexemes of a text that is an expression. -/
theorem exists_spelled_of_parse (h : parse t = .ok e) :
    ∃ lexemes n, Spelled lexemes t ∧ Derives (.expr 0 e) n lexemes := by
  obtain ⟨lexemes, n, hscan, -, hderives⟩ := exists_scan_of_parse h
  exact ⟨lexemes, n, scan_eq_ok_iff.1 hscan, hderives⟩

/-- A text that is an expression is closed, and nothing in it outside of brackets is a separator. -/
theorem closed_of_parse (h : parse t = .ok e) : Closed IsSeparator t := by
  obtain ⟨lexemes, n, hspelled, hderives⟩ := exists_spelled_of_parse h
  exact hderives.closed hspelled

/-- A text that is an expression is not blank. -/
theorem not_blank_of_parse (h : parse t = .ok e) : ¬∀ c ∈ t, isBlank c := by
  intro hblank
  obtain ⟨lexemes, n, hspelled, hderives⟩ := exists_spelled_of_parse h
  have hscan := scan_eq_ok_iff.2 hspelled
  rw [scan_blank hblank] at hscan
  cases hscan
  obtain ⟨first, rest, hempty, -⟩ := hderives.head
  cases hempty

/-- Without the blanks at its ends a text is the same expression. -/
theorem parse_trimmed (h : parse t = .ok e) : parse (trim t) = .ok e := by
  obtain ⟨lexemes, n, hspelled, -⟩ := exists_spelled_of_parse h
  have hscan : scan (trim t) = scan t := by
    rw [scan_eq_ok_iff.2 hspelled, scan_eq_ok_iff.2 hspelled.trim]
  rw [← h, parse, parse, Reader.all, Reader.all, hscan]

/-- Taking the blanks off the ends of expressions does not change how they are read. -/
theorem map_parse_trim {ts : List Text} (h : ∀ t ∈ ts, ∃ e, parse t = .ok e) :
    (ts.map trim).map parse = ts.map parse := by
  rw [List.map_map]
  refine List.map_congr_left fun t ht => ?_
  obtain ⟨e, he⟩ := h t ht
  exact (parse_trimmed he).trans he.symm

end Expr

end Stencil
