import Stencil.Proofs.Code.Innermost
import Stencil.Proofs.Expr.Parts
import Stencil.Template

/-!
# Statements in code

A statement is read from its lexemes, but the line of code for it is made from its text: the text is
looked at up to its name, for the word `mut` with a space after it, and for a sign of two characters
at its end. Since the text has the parts that the lexemes say (`Statement.exists_parts`), it can be
said which line it should become (`Statement.Parts.Says`): a `let mut` if it declares a variable,
and an assignment in place if it updates one.

The line of a statement without the word `mut` is always this one. With the word it is so only if
the statement is a declaration and a space follows the word. The declaration of a counted loop is
written by a rule of its own, as a `let mut` even if it is an update.

Main statement: `Statement.code_agrees_iff`.
-/

namespace Stencil

open Text

/-! ## Signs in texts -/

theorem Symbol.exists_cons (s : Symbol) :
    ∃ c rest, s.spelling = c :: rest ∧ ¬isNamePart c ∧ ¬isBlank c := by
  have hall : s.spelling.head?.any fun c => !isNamePart c && !isBlank c := by
    cases s <;> decide
  cases hspelling : s.spelling with
  | nil => exact absurd hspelling (List.length_pos_iff.1 s.length_spelling.1)
  | cons c rest =>
    rw [hspelling] at hall
    exact ⟨c, rest, rfl, by simpa using hall⟩

namespace Code

variable {t ending rest : Text} {c : Char}

theorem dropEnding?_append (ending t : Text) : dropEnding? ending (t ++ ending) = some t := by
  have hsuffix : ending.isSuffixOf (t ++ ending) :=
    List.isSuffixOf_iff_suffix.2 (List.suffix_append _ _)
  rw [dropEnding?, if_pos hsuffix, List.length_append, Nat.add_sub_cancel, List.take_left]

/-- Nothing is dropped if the last character is another one. -/
theorem dropEnding?_of_last (h : ∀ d ∈ t.getLast?, d ≠ c) : dropEnding? [c, c] t = none := by
  have hother : ¬[c, c].isSuffixOf t := by
    rw [List.isSuffixOf_iff_suffix]
    rintro ⟨front, rfl⟩
    exact h c (by simp) rfl
  rw [dropEnding?, if_neg hother]

theorem not_updates_of_head (h : ∀ c ∈ rest.head?, c ≠ '+' ∧ c ≠ '-') :
    ¬updates.any (·.isPrefixOf rest) := by
  cases rest with
  | nil => decide
  | cons c rest =>
    obtain ⟨hplus, hminus⟩ := h c rfl
    simp [updates, List.isPrefixOf, hplus.symm, hminus.symm]

end Code

namespace Statement

variable {statement : Statement} {p : Parts} {name t rest gap : Text} {lexemes : List Lexeme}
  {sign : Symbol} {e : Expr} {c : Char}

/-! ## What a line should be -/

/-- The statement declares a variable. -/
def Declares (statement : Statement) : Prop := ∃ name e, statement = .declare name e

namespace Parts

/-- The assignment that is made; counting up or down is spelled out. -/
def action (p : Parts) : Text :=
  match p.sign with
  | .plusPlus => "+= 1".toList
  | .minusMinus => "-= 1".toList
  | sign => sign.spelling ++ p.value

/-- What stands before the name: a `let` with one `mut` if the variable is declared. -/
inductive Front : Statement → Text → Prop
  | declare {name blanks : Text} {e : Expr} (hblanks : ∀ c ∈ blanks, isBlank c)
      (hnonempty : blanks ≠ []) : Front (.declare name e) ("let mut".toList ++ blanks)
  | update {name : Text} {e : Expr} : Front (.update name e) []

/-- The line of code says the statement: it declares the variable with the value, or it assigns to
it in place. -/
def Says (p : Parts) (statement : Statement) (line : Text) : Prop :=
  ∃ front gap, Front statement front ∧ (∀ c ∈ gap, isBlank c) ∧
    line = front ++ (p.name ++ (gap ++ (p.action ++ [';'])))

/-- What follows the name. -/
def tail (p : Parts) : Text := p.gap ++ (p.sign.spelling ++ p.value)

theorem text_eq (p : Parts) : p.text = p.lead ++ (p.name ++ p.tail) := rfl

theorem exists_action (p : Parts) :
    ∃ c rest, p.action = c :: rest ∧ ¬isNamePart c ∧ ¬isBlank c := by
  unfold action
  split
  · exact ⟨'+', _, rfl, by decide, by decide⟩
  · exact ⟨'-', _, rfl, by decide, by decide⟩
  · obtain ⟨c, rest, hspelling, hc⟩ := p.sign.exists_cons
    rw [hspelling]
    exact ⟨c, _, List.cons_append, hc⟩

end Parts

/-- The code has one space where the template may have any blanks. -/
theorem blank_space : ∀ c ∈ [' '], isBlank c := List.forall_mem_singleton.2 rfl

theorem not_isNamePart_gap (hgap : ∀ c ∈ gap, isBlank c) (hrest : ∀ c ∈ rest.head?, ¬isNamePart c) :
    ∀ c ∈ (gap ++ rest).head?, ¬isNamePart c := by
  cases gap with
  | nil => exact hrest
  | cons d gap =>
    rintro c ⟨⟩
    exact not_isNamePart_of_isBlank (hgap d List.mem_cons_self)

/-- The sign tells what the statement does. -/
theorem Change.of_sign (h : Change name (.symbol sign :: lexemes) statement) :
    (sign = .assign ∧ ∃ e, statement = .declare name e) ∨
      (∃ op operand e, UpdateSign sign op ∧ Expr.Reads operand lexemes ∧
        statement = .update name e) ∨
      ∃ op e, CountSign sign op ∧ lexemes = [] ∧ statement = .update name e := by
  cases h with
  | declare => exact .inl ⟨rfl, _, rfl⟩
  | update hsign hreads => exact .inr (.inl ⟨_, _, _, hsign, hreads, rfl⟩)
  | count hsign => exact .inr (.inr ⟨_, _, hsign, rfl, rfl⟩)

namespace Parts.Of

theorem namePart (h : p.Of statement) : ∀ c ∈ p.name, isNamePart c := by
  have hname := h.name
  rw [isName, Bool.and_eq_true, List.all_eq_true] at hname
  exact hname.2

theorem name_ne_mut (h : p.Of statement) : p.name ≠ "mut".toList := by
  intro hmut
  have hfree := h.free
  rw [hmut] at hfree
  revert hfree
  decide

theorem name_ne_nil (h : p.Of statement) : p.name ≠ [] := by
  intro hnil
  have hname := h.name
  rw [hnil] at hname
  cases hname

theorem head_name (h : p.Of statement) (rest : Text) :
    ∀ c ∈ (p.name ++ rest).head?, isNamePart c := by
  intro c hc
  rw [List.head?_append_of_ne_nil _ h.name_ne_nil] at hc
  exact h.namePart c (List.mem_of_mem_head? hc)

theorem head_name_not_blank (h : p.Of statement) (rest : Text) :
    ∀ c ∈ (p.name ++ rest).head?, ¬isBlank c :=
  fun c hc hblank => not_isNamePart_of_isBlank hblank (h.head_name rest c hc)

theorem stops (h : p.Of statement) : ∀ c ∈ p.tail.head?, ¬isNamePart c := by
  refine not_isNamePart_gap h.gap fun c hc => ?_
  obtain ⟨d, rest, hspelling, hd, -⟩ := p.sign.exists_cons
  rw [hspelling] at hc
  cases hc
  exact hd

theorem action_stops (p : Parts) (hgap : ∀ c ∈ gap, isBlank c) :
    ∀ c ∈ (gap ++ (p.action ++ [';'])).head?, ¬isNamePart c := by
  refine not_isNamePart_gap hgap fun c hc => ?_
  obtain ⟨d, rest, haction, hd, -⟩ := p.exists_action
  rw [haction] at hc
  cases hc
  exact hd

theorem sign_of_declare (h : p.Of (.declare name e)) : p.sign = .assign := by
  obtain ⟨lexemes, hchange, -⟩ := h.change
  obtain ⟨hsign, -⟩ | ⟨_, _, _, -, -, hupdate⟩ | ⟨_, _, -, -, hupdate⟩ := hchange.of_sign
  · exact hsign
  · cases hupdate
  · cases hupdate

/-! ## Lines with `let` -/

theorem isNamePart_word {word : Text} (h : word.all isNamePart) : ∀ c ∈ word, isNamePart c :=
  List.all_eq_true.1 h

/-- A line that starts with the word `let` and another word is no assignment. -/
theorem not_says_of_let (h : p.Of (.update name e)) (hc : isNamePart c) (rest : Text) :
    ¬p.Says (.update name e) ("let".toList ++ ' ' :: c :: rest) := by
  rintro ⟨front, gap, hfront, hgap, hline⟩
  cases hfront
  rw [List.nil_append] at hline
  have hspace : ∀ d ∈ (' ' :: c :: rest).head?, ¬isNamePart d := by
    rintro d ⟨⟩
    decide
  obtain ⟨-, hrest⟩ := run_inj hline (isNamePart_word (by decide)) h.namePart hspace
    (action_stops p hgap)
  -- The blank is in the gap, so the other word would have to be the sign.
  obtain ⟨d, later, haction, hpart, hblank⟩ := p.exists_action
  rw [haction] at hrest
  have hword : ∀ d ∈ (c :: rest).head?, ¬isBlank d := by
    rintro d ⟨⟩ hd
    exact not_isNamePart_of_isBlank hd hc
  have hsign : ∀ c ∈ (d :: later ++ [';']).head?, ¬isBlank c := by
    rintro c ⟨⟩
    exact hblank
  have hsplit : [' '] ++ c :: rest = gap ++ (d :: later ++ [';']) := hrest
  obtain ⟨-, hsame⟩ := run_inj hsplit blank_space hgap hword hsign
  obtain ⟨rfl, -⟩ := List.cons.inj hsame
  exact hpart hc

/-- A line with two `mut` is no declaration. -/
theorem not_says_of_mut (h : p.Of (.declare name e)) (hc : isBlank c) (rest : Text) :
    ¬p.Says (.declare name e) ("let mut".toList ++ ([' '] ++ ("mut".toList ++ c :: rest))) := by
  rintro ⟨front, gap, hfront, hgap, hline⟩
  cases hfront with
  | @declare _ blanks _ hblanks =>
    rw [List.append_assoc] at hline
    have hrest := List.append_cancel_left hline
    have hword : ∀ d ∈ ("mut".toList ++ c :: rest).head?, ¬isBlank d := by
      rintro d ⟨⟩
      decide
    obtain ⟨-, hnames⟩ := run_inj hrest blank_space hblanks hword (h.head_name_not_blank _)
    have hspace : ∀ d ∈ (c :: rest).head?, ¬isNamePart d := by
      rintro d ⟨⟩
      exact not_isNamePart_of_isBlank hc
    obtain ⟨hname, -⟩ := run_inj hnames (isNamePart_word (by decide)) h.namePart hspace
      (action_stops p hgap)
    exact h.name_ne_mut hname.symm

/-- Which declarations keep their word `mut`, so that there is one in the line. -/
theorem letMut_mut {c : Char} {rest : Text} : Code.letMut ("mut".toList ++ c :: rest)
    = if c = ' ' then "let mut".toList ++ c :: (rest ++ [';'])
      else "let mut".toList ++ ([' '] ++ ("mut".toList ++ c :: (rest ++ [';']))) := by
  by_cases hc : c = ' '
  · subst hc
    rfl
  · have hother : ¬"mut ".toList.isPrefixOf ("mut".toList ++ c :: rest) := by
      simp [List.isPrefixOf, Ne.symm hc]
    rw [Code.letMut, if_neg hother, if_neg hc]
    simp

/-- Without the word `mut`, one is written. -/
theorem letMut_name (h : p.Of statement) : Code.letMut (p.name ++ p.tail)
    = "let mut".toList ++ ([' '] ++ (p.name ++ (p.tail ++ [';']))) := by
  have hother : ¬"mut ".toList.isPrefixOf (p.name ++ p.tail) := by
    rw [List.isPrefixOf_iff_prefix]
    rintro ⟨rest, hrest⟩
    have hspace : ∀ d ∈ (' ' :: rest).head?, ¬isNamePart d := by
      rintro d ⟨⟩
      decide
    have hsplit : "mut".toList ++ ' ' :: rest = p.name ++ p.tail := hrest
    obtain ⟨hname, -⟩ := run_inj hsplit (isNamePart_word (by decide)) h.namePart hspace h.stops
    exact h.name_ne_mut hname.symm
  rw [Code.letMut, if_neg hother]
  simp

theorem action_of_declare (h : p.Of (.declare name e)) : p.action = p.sign.spelling ++ p.value := by
  rw [action, h.sign_of_declare]

/-- A `let mut` before the name says that the variable is declared. -/
theorem says_of_declare (h : p.Of (.declare name e)) {blanks : Text}
    (hblanks : ∀ c ∈ blanks, isBlank c) (hnonempty : blanks ≠ []) : p.Says (.declare name e)
      ("let mut".toList ++ (blanks ++ (p.name ++ (p.tail ++ [';'])))) := by
  refine ⟨_, p.gap, .declare hblanks hnonempty, h.gap, ?_⟩
  rw [h.action_of_declare, tail]
  simp only [List.append_assoc]

/-- Without the word `mut`, a `let mut` says all declarations. -/
theorem says_letMut_of_name (h : p.Of statement) (hlead : p.lead = []) :
    p.Says statement (Code.letMut p.text) ↔ statement.Declares := by
  rw [text_eq, hlead, List.nil_append, h.letMut_name]
  cases statement with
  | declare name e =>
    have hsays := h.says_of_declare blank_space (List.cons_ne_nil _ _)
    exact ⟨fun _ => ⟨name, e, rfl⟩, fun _ => hsays⟩
  | update name e =>
    have hnot := h.not_says_of_let (by decide : isNamePart 'm')
      (['u', 't', ' '] ++ (p.name ++ (p.tail ++ [';'])))
    refine ⟨fun hsays => absurd hsays hnot, ?_⟩
    rintro ⟨_, _, hdeclares⟩
    cases hdeclares

/-- With the word `mut`, a `let mut` says declarations if the word is not written twice. -/
theorem says_letMut_of_mut (h : p.Of statement) {blanks : Text}
    (hlead : p.lead = "mut".toList ++ c :: blanks) (hblanks : ∀ d ∈ c :: blanks, isBlank d) :
    p.Says statement (Code.letMut p.text) ↔ statement.Declares ∧ c = ' ' := by
  rw [text_eq, hlead, List.append_assoc, List.cons_append, letMut_mut]
  cases statement with
  | update name e =>
    have hnot : ∀ rest, ¬p.Says (.update name e) ("let mut".toList ++ rest) := fun rest =>
      h.not_says_of_let (by decide : isNamePart 'm') (['u', 't'] ++ rest)
    constructor
    · intro hsays
      split at hsays
      · exact absurd hsays (hnot _)
      · exact absurd hsays (hnot _)
    · rintro ⟨⟨_, _, hdeclares⟩, -⟩
      cases hdeclares
  | declare name e =>
    by_cases hc : c = ' '
    · have hsays := h.says_of_declare hblanks (List.cons_ne_nil c blanks)
      rw [if_pos hc]
      simp only [List.append_assoc, List.cons_append] at hsays ⊢
      exact ⟨fun _ => ⟨⟨name, e, rfl⟩, hc⟩, fun _ => hsays⟩
    · rw [if_neg hc]
      have hnot := h.not_says_of_mut (hblanks c List.mem_cons_self)
        (blanks ++ (p.name ++ p.tail) ++ [';'])
      exact ⟨fun hsays => absurd hsays hnot, fun hspace => absurd hspace.2 hc⟩

/-- A `let mut` says a statement if it is a declaration and the word `mut` is not there twice. -/
theorem says_letMut_iff (h : p.Of statement) : p.Says statement (Code.letMut p.text) ↔
    statement.Declares ∧ (p.lead = [] ∨ "mut ".toList <+: p.lead) := by
  rcases h.lead with hlead | ⟨blanks, hlead, hnonempty, hblanks⟩
  · rw [h.says_letMut_of_name hlead]
    exact (and_iff_left (.inl hlead)).symm
  · obtain ⟨c, blanks, rfl⟩ := List.exists_cons_of_ne_nil hnonempty
    have hspace : "mut ".toList <+: p.lead ↔ c = ' ' := by
      rw [hlead]
      constructor
      · rintro ⟨rest, hrest⟩
        have hrest : "mut".toList ++ ' ' :: rest = "mut".toList ++ c :: blanks := hrest
        exact (List.cons.inj (List.append_cancel_left hrest)).1.symm
      · rintro rfl
        exact ⟨blanks, rfl⟩
    have hne : p.lead ≠ [] := by
      rw [hlead]
      exact List.cons_ne_nil _ _
    rw [h.says_letMut_of_mut hlead hblanks, hspace, or_iff_right hne]

/-! ## Lines without `let` -/

theorem getLast?_value (p : Parts) : ∀ c ∈ p.value.getLast?, c ∈ p.text.getLast? := by
  intro c hc
  simp only [text, List.getLast?_append, Option.mem_def.1 hc]
  rfl

/-- A text with an operand after its sign is an assignment already. -/
theorem says_assignment_of_operand {op : BinaryOp} {operand : Expr} (h : p.Of (.update name e))
    (hlead : p.lead = []) (hsign : UpdateSign p.sign op) (hreads : operand.Reads lexemes)
    (hspelled : Lexeme.Spelled lexemes p.value) :
    p.Says (.update name e) (Code.assignment p.text ++ [';']) := by
  obtain ⟨hnonempty, hvalue⟩ := hreads.getLast hspelled fun c hc => h.last c (getLast?_value p c hc)
  have hlast : ∀ c ∈ p.text.getLast?, c ≠ '+' ∧ c ≠ '-' := by
    have hsame : p.text.getLast? = p.value.getLast? := by
      rw [text, ← List.append_assoc, ← List.append_assoc, ← List.append_assoc,
        List.getLast?_append_of_ne_nil _ hnonempty]
    rw [hsame]
    exact hvalue
  have hassignment : Code.assignment p.text = p.text := by
    rw [Code.assignment, Code.dropEnding?_of_last fun c hc => (hlast c hc).1,
      Code.dropEnding?_of_last fun c hc => (hlast c hc).2]
  have haction : p.action = p.sign.spelling ++ p.value := by
    generalize hs : p.sign = sign at hsign
    cases hsign <;> rw [action, hs]
  refine ⟨[], p.gap, .update, h.gap, ?_⟩
  rw [hassignment, haction, text, hlead]
  simp only [List.nil_append, List.append_assoc]

/-- A text that ends in an increment is spelled out. -/
theorem says_assignment_of_count {op : BinaryOp} (h : p.Of (.update name e))
    (hlead : p.lead = []) (hsign : CountSign p.sign op) (hvalue : ∀ c ∈ p.value, isBlank c) :
    p.Says (.update name e) (Code.assignment p.text ++ [';']) := by
  have hempty : p.value = [] := by
    by_contra hne
    obtain ⟨c, hc⟩ := Option.ne_none_iff_exists'.1 (mt List.getLast?_eq_none_iff.1 hne)
    exact h.last c (getLast?_value p c hc) (hvalue c (List.mem_of_getLast? hc))
  have htext : p.text = (p.name ++ p.gap) ++ p.sign.spelling := by
    rw [text, hlead, hempty, List.append_nil, List.nil_append, List.append_assoc]
  have hname : trimEnd (p.name ++ p.gap) = p.name :=
    trimEnd_append (fun c hc hblank => not_isNamePart_of_isBlank hblank (h.namePart c hc)) h.gap
  have hassignment : Code.assignment p.text = p.name ++ ([' '] ++ p.action) := by
    generalize hs : p.sign = sign at hsign
    rw [htext, hs, Code.assignment, action, hs]
    cases hsign with
    | plus =>
      have hending : Code.dropEnding? ['+', '+'] (p.name ++ p.gap ++ Symbol.plusPlus.spelling)
          = some (p.name ++ p.gap) := Code.dropEnding?_append _ _
      simp only [hending, hname]
      rfl
    | minus =>
      have hending : Code.dropEnding? ['-', '-'] (p.name ++ p.gap ++ Symbol.minusMinus.spelling)
          = some (p.name ++ p.gap) := Code.dropEnding?_append _ _
      have hother : Code.dropEnding? ['+', '+'] (p.name ++ p.gap ++ Symbol.minusMinus.spelling)
          = none := by
        apply Code.dropEnding?_of_last
        simp [Symbol.spelling]
      simp only [hother, hending, hname]
      rfl
  refine ⟨[], [' '], .update, blank_space, ?_⟩
  rw [hassignment]
  simp only [List.nil_append, List.append_assoc]

/-- An update without the word `mut` becomes an assignment in place. -/
theorem says_assignment (h : p.Of (.update name e)) (hlead : p.lead = []) :
    p.Says (.update name e) (Code.assignment p.text ++ [';']) := by
  obtain ⟨lexemes, hchange, hspelled⟩ := h.change
  obtain ⟨-, _, hdeclare⟩ | ⟨op, operand, _, hsign, hreads, -⟩ | ⟨op, _, hsign, rfl, -⟩ :=
    hchange.of_sign
  · cases hdeclare
  · exact h.says_assignment_of_operand hlead hsign hreads hspelled
  · cases hspelled with
    | nil hblank => exact h.says_assignment_of_count hlead hsign hblank

/-! ## The line of a statement -/

theorem text_ne_nil (h : p.Of statement) : p.text ≠ [] := by
  intro hnil
  rw [text_eq, List.append_eq_nil_iff, List.append_eq_nil_iff] at hnil
  exact h.name_ne_nil hnil.2.1

/-- What is looked at is the text from the sign on if there is no word `mut`, and else the text from
the name on. -/
theorem rest_of_lead (h : p.Of statement) (hlead : p.lead = []) :
    trimStart (p.text.dropWhile isNamePart) = p.sign.spelling ++ p.value := by
  obtain ⟨c, rest, hspelling, -, hblank⟩ := p.sign.exists_cons
  rw [text_eq, hlead, List.nil_append, dropWhile_append h.namePart h.stops, trimStart, tail]
  apply dropWhile_append h.gap
  rw [hspelling]
  rintro d ⟨⟩
  exact hblank

theorem rest_of_mut (h : p.Of statement) (hlead : p.lead ≠ []) :
    trimStart (p.text.dropWhile isNamePart) = p.name ++ p.tail := by
  obtain hnil | ⟨blanks, hmut, hnonempty, hblanks⟩ := h.lead
  · exact absurd hnil hlead
  · have hstops : ∀ c ∈ (blanks ++ (p.name ++ p.tail)).head?, ¬isNamePart c := by
      rw [List.head?_append_of_ne_nil _ hnonempty]
      exact fun c hc => not_isNamePart_of_isBlank (hblanks c (List.mem_of_mem_head? hc))
    rw [text_eq, hmut, List.append_assoc, dropWhile_append (isNamePart_word (by decide)) hstops,
      trimStart, dropWhile_append hblanks (h.head_name_not_blank _)]

/-- A declaration, and every statement with the word `mut`, is written with `let`. -/
theorem statement_eq_letMut (h : p.Of statement) (ht : trim t = p.text)
    (hlet : p.lead ≠ [] ∨ statement.Declares) : Code.statement t = Code.letMut p.text := by
  have hother : ¬Code.updates.any (·.isPrefixOf (trimStart (p.text.dropWhile isNamePart))) := by
    apply Code.not_updates_of_head
    by_cases hlead : p.lead = []
    · obtain ⟨name, e, rfl⟩ := hlet.resolve_left (not_not_intro hlead)
      rw [h.rest_of_lead hlead, h.sign_of_declare]
      rintro c ⟨⟩
      decide
    · rw [h.rest_of_mut hlead]
      intro c hc
      have hpart := h.head_name p.tail c hc
      constructor
      · rintro rfl
        revert hpart
        decide
      · rintro rfl
        revert hpart
        decide
  simp only [Code.statement, ht, if_neg hother]

/-- An update without the word `mut` is written without `let`. -/
theorem statement_eq_assignment (h : p.Of (.update name e)) (ht : trim t = p.text)
    (hlead : p.lead = []) : Code.statement t = Code.assignment p.text ++ [';'] := by
  have hupdates : Code.updates.any
      (·.isPrefixOf (trimStart (p.text.dropWhile isNamePart))) = true := by
    rw [h.rest_of_lead hlead]
    obtain ⟨lexemes, hchange, -⟩ := h.change
    obtain ⟨-, _, hdeclare⟩ | ⟨op, _, _, hsign, -, -⟩ | ⟨op, _, hsign, -, -⟩ := hchange.of_sign
    · cases hdeclare
    · generalize p.sign = sign at hsign
      cases hsign <;> rfl
    · generalize p.sign = sign at hsign
      cases hsign <;> rfl
  simp only [Code.statement, ht, if_pos hupdates]

/-- The line of a statement says it if there is no word `mut`, or if there is one with a space after
it and the statement is a declaration. -/
theorem says_statement_iff (h : p.Of statement) (ht : trim t = p.text) :
    p.Says statement (Code.statement t) ↔
      p.lead = [] ∨ statement.Declares ∧ "mut ".toList <+: p.lead := by
  by_cases hlet : p.lead ≠ [] ∨ statement.Declares
  · rw [h.statement_eq_letMut ht hlet, h.says_letMut_iff]
    tauto
  · obtain ⟨hlead, hupdate⟩ := not_or.1 hlet
    have hlead := not_not.1 hlead
    cases statement with
    | declare name e => exact absurd ⟨name, e, rfl⟩ hupdate
    | update name e =>
      rw [h.statement_eq_assignment ht hlead]
      exact ⟨fun _ => .inl hlead, fun _ => h.says_assignment hlead⟩

end Parts.Of

/-- Which lines of code say what a statement says. For the text of every statement, the line of a
`var` statement does so exactly if the word `mut` is not there, or if it has a space after it and
the statement is a declaration; the line of the first part of a counted loop does so exactly if the
statement is a declaration and the word `mut`, if it is there, has a space after it. -/
theorem code_agrees_iff (h : parse t = .ok statement) : ∃ p : Parts, p.Of statement ∧
    trim t = p.text ∧
    (∀ names w, ∃ line, (Code.Writer.op names (.declare t) w).lines = ⟨w.depth, line⟩ :: w.lines ∧
      (p.Says statement line ↔ p.lead = [] ∨ statement.Declares ∧ "mut ".toList <+: p.lead)) ∧
    ∀ names header condition step body w, Nesting.split ';' header = [t, condition, step] →
      ∃ later line, (Code.Writer.op names (.loop .forLoop header body) w).lines
        = later ++ ⟨w.depth + 1, line⟩ :: ⟨w.depth, ['\x7b']⟩ :: w.lines ∧
      (p.Says statement line ↔
        statement.Declares ∧ (p.lead = [] ∨ "mut ".toList <+: p.lead)) := by
  obtain ⟨p, hp, ht⟩ := exists_parts h
  refine ⟨p, hp, ht, fun names w => ?_, fun names header condition step body w hsplit => ?_⟩
  · exact ⟨Code.statement t, rfl, hp.says_statement_iff ht⟩
  · have hnonempty : ¬(trim t).isEmpty := by
      rw [ht, List.isEmpty_iff]
      exact hp.text_ne_nil
    obtain ⟨later, hlines⟩ := Code.Writer.lines_countedLoop (Code.Writer.adds_ops names body)
      (trim t) (trim condition) (trim step) w
    have hcode : Code.Writer.op names (.loop .forLoop header body) w
        = w.countedLoop (trim t) (trim condition) (trim step) (Code.Writer.ops names body) := by
      simp only [Code.Writer.op, Code.Writer.loop, hsplit]
    rw [if_neg hnonempty, List.singleton_append, List.append_cons, ← hcode] at hlines
    refine ⟨_, _, hlines, ?_⟩
    rw [ht]
    exact hp.says_letMut_iff

/-- An update that is written as it is. -/
theorem code_agrees_update : ∃ (statement : Statement) (p : Parts),
    parse "i += 2".toList = .ok statement ∧ p.Of statement ∧ p.text = "i += 2".toList ∧
      p.Says statement "i += 2;".toList := by
  obtain ⟨statement, hparse⟩ : ∃ statement, parse "i += 2".toList = .ok statement :=
    exists_ok (by decide +kernel)
  obtain ⟨p, hp, htext, hline, -⟩ := code_agrees_iff hparse
  obtain ⟨line, hlines, hsays⟩ := hline {} Code.Writer.empty
  have htrim : trim "i += 2".toList = "i += 2".toList := by decide
  rw [htrim] at htext
  have hlead : p.lead = [] := by
    obtain hnil | ⟨blanks, hmut, -⟩ := hp.lead
    · exact hnil
    · rw [Parts.text, hmut] at htext
      cases htext
  have hwritten : line = "i += 2;".toList := by
    have hcode : Code.statement "i += 2".toList = "i += 2;".toList := by decide
    rw [← hcode]
    exact (congrArg Code.Line.text (List.cons.inj hlines).1).symm
  rw [hwritten] at hsays
  exact ⟨statement, p, hparse, hp, htext.symm, hsays.2 (.inl hlead)⟩

/-- Not every line says what its statement says: an update with the word `mut` is written as a
declaration, as in the code of this template. -/
theorem let_of_update :
    (¬∀ t statement p, parse t = .ok statement → Parts.Of statement p → trim t = p.text →
      p.Says statement (Code.statement t)) ∧
    (Template.compile 0 "\x7b% var mut i += 1 %\x7d".toList).toOption.map (fun template =>
      Node.code {} template.source .plain template.nodes) = some "let mut i += 1;\n".toList := by
  refine ⟨fun hall => ?_, by decide +kernel⟩
  have hscan : Lexeme.scan "mut i += 1".toList = .ok [.reserved .mutable, .name ['i'],
      .symbol .plusAssign, .int .one] := by decide +kernel
  have hparse : parse "mut i += 1".toList
      = .ok (.update ['i'] (.binary .add (.var ['i']) (.int .one))) :=
    parse_iff_derives.2
      ⟨_, Lexeme.scan_eq_ok_iff.1 hscan, .mk (.inr rfl) (.update .plus Expr.reads_one)⟩
  have hline : Code.statement "mut i += 1".toList
      = "let".toList ++ ' ' :: 'm' :: "ut i += 1;".toList := by decide
  obtain ⟨p, hp, ht⟩ := exists_parts hparse
  have hsays := hall _ _ p hparse hp ht
  rw [hline] at hsays
  exact hp.not_says_of_let (by decide) _ hsays

end Statement

end Stencil
