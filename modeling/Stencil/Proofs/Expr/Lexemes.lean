import Mathlib.Data.List.Forall2
import Stencil.Proofs.Expr.Written

/-!
# Lexemes are read back

Lexemes can be put down with blanks between them, a number with any number of zeros in front and a
string in either quote, with a backslash before what would otherwise end it or be taken for one
(`Lexeme.Form`, `Lexeme.Spaced`). They are then read from the text again. On the other hand nothing
is read from a text with a string in it that is never closed, whatever stands before the string
(`Lexeme.Unclosed`).

Both follow from one equation for what is read after the first lexeme, whether or not that is
anything (`Lexeme.scan_written`).

* `Lexeme.scan_read_back`: all of this in one statement.
-/

namespace Stencil.Lexeme

open Text

variable {lexeme : Lexeme} {lexemes : List Lexeme} {quote c : Char}
  {t w body content rest gap front : Text} {words : List Text}

/-! ## What follows a lexeme -/

theorem scan_cons (hgap : ∀ c ∈ gap, isBlank c) (hc : ¬isBlank c) :
    scan (gap ++ c :: t) = (leading c t).bind fun (lexeme, rest) =>
      (scan rest).map (lexeme :: ·) := by
  have hblanks : (gap ++ c :: t).dropWhile isBlank = c :: t :=
    dropWhile_append hgap fun d hd => Option.some.inj hd ▸ hc
  rw [scan.eq_def]
  split
  · next hnil =>
    rw [hblanks] at hnil
    cases hnil
  · next hcons =>
    rw [hblanks] at hcons
    obtain ⟨rfl, rfl⟩ := List.cons.inj hcons
    split
    · next hleading =>
      rw [hleading]
      rfl
    · next lexeme rest hleading =>
      simp only [hleading, Except.bind]
      cases scan rest <;> rfl

/-- After a lexeme that ends there, what follows is read as if it stood alone. -/
theorem scan_written (hgap : ∀ c ∈ gap, isBlank c) (hwritten : Written lexeme w)
    (hstops : lexeme.Stops rest) :
    scan (gap ++ (w ++ rest)) = (scan rest).map (lexeme :: ·) := by
  obtain ⟨c, w, rfl⟩ := List.exists_cons_of_ne_nil hwritten.ne_nil
  have hleading : leading c (w ++ rest) = .ok (lexeme, rest) :=
    leading_eq_ok_iff.2 ⟨c :: w, rfl, hwritten, hstops⟩
  rw [List.cons_append, scan_cons hgap hwritten.not_isBlank, hleading]
  rfl

theorem Stops.append (h : lexeme.Stops t) (hrest : lexeme.Stops rest) :
    lexeme.Stops (t ++ rest) := by
  cases t with
  | nil => exact hrest
  | cons c t => cases lexeme <;> exact h

theorem scan_blank_append (hgap : ∀ c ∈ gap, isBlank c) (t : Text) : scan (gap ++ t) = scan t := by
  obtain ⟨front, core, rfl, hfront, hcore⟩ := exists_takeWhile isBlank t
  have hblank : ∀ c ∈ gap ++ front, isBlank c := List.forall_mem_append.2 ⟨hgap, hfront⟩
  rw [← List.append_assoc]
  cases core with
  | nil => rw [List.append_nil, List.append_nil, scan_blank hblank, scan_blank hfront]
  | cons c core =>
    have hc := hcore c rfl
    rw [scan_cons hblank hc, scan_cons hfront hc]

/-- What follows a text is read as if it stood alone if no lexeme goes on into it. -/
theorem scan_append (hscan : scan front = .ok lexemes)
    (hstops : ∀ lexeme : Lexeme, lexeme.Stops t) :
    scan (front ++ t) = (scan t).map (lexemes ++ ·) := by
  induction scan_eq_ok_iff.1 hscan with
  | nil hgap =>
    rw [scan_blank_append hgap]
    cases scan t <;> rfl
  | @cons lexeme lexemes gap w rest hgap hwritten hends hrest ih =>
    rw [List.append_assoc, List.append_assoc, scan_written hgap hwritten (hends.append (hstops _)),
      ih (scan_eq_ok_iff.2 hrest)]
    cases scan t <;> rfl

/-! ## Forms -/

/-- The lexemes that can be written: numbers are not negative, and names are names and none of them
is taken. -/
def Legible : Lexeme → Prop
  | .name t => isName t ∧ ∀ word : Reserved, t ≠ word.spelling.toList
  | .int n => 0 ≤ n.val
  | .reserved _ | .symbol _ | .string _ => True

/-- How a character is written between quotes: as it is, after a backslash if it is a backslash or
the quote, or by its letter. -/
inductive CharForm (quote : Char) : Char → Text → Prop
  | plain {c : Char} (hquote : c ≠ quote) (hslash : c ≠ '\\') : CharForm quote c [c]
  | quote : CharForm quote quote ['\\', quote]
  | slash : CharForm quote '\\' ['\\', '\\']
  | lineFeed : CharForm quote '\n' ['\\', 'n']
  | tab : CharForm quote '\t' ['\\', 't']
  | carriageReturn : CharForm quote '\r' ['\\', 'r']

/-- How a lexeme is written. -/
inductive Form : Lexeme → Text → Prop
  | reserved (word : Reserved) : Form (.reserved word) word.spelling.toList
  | symbol (s : Symbol) : Form (.symbol s) s.spelling
  | name {t : Text} (h : (Lexeme.name t).Legible) : Form (.name t) t
  | int {n : Word} (zeros : Nat) (h : 0 ≤ n.val) :
      Form (.int n) (List.replicate zeros '0' ++ Nat.toDigits 10 n.val.toNat)
  | string {quote : Char} {content : Text} {parts : List Text}
      (hquote : quote = '"' ∨ quote = '\'') (h : List.Forall₂ (CharForm quote) content parts) :
      Form (.string content) (quote :: (parts.flatten ++ [quote]))

theorem isQuote_iff : Nesting.isQuote quote ↔ quote = '"' ∨ quote = '\'' := by
  rw [Nesting.isQuote, Bool.or_eq_true, beq_iff_eq, beq_iff_eq]

theorem exists_charForm (quote c : Char) : ∃ part, CharForm quote c part := by
  by_cases hquote : c = quote
  · subst hquote
    exact ⟨_, .quote⟩
  by_cases hslash : c = '\\'
  · subst hslash
    exact ⟨_, .slash⟩
  · exact ⟨_, .plain hquote hslash⟩

theorem quotedBody_flatten {parts : List Text} (hquote : quote = '"' ∨ quote = '\'')
    (h : List.Forall₂ (CharForm quote) content parts) :
    QuotedBody quote parts.flatten content := by
  induction h with
  | nil => exact .nil
  | cons hform _ ih =>
    cases hform with
    | plain hquote hslash => exact .plain hquote hslash ih
    | quote =>
      have hescape : QuotedBody quote ('\\' :: quote :: _) (unescape quote :: _) := .escape quote ih
      obtain rfl | rfl := hquote
      · exact hescape
      · exact hescape
    | slash => exact .escape '\\' ih
    | lineFeed => exact .escape 'n' ih
    | tab => exact .escape 't' ih
    | carriageReturn => exact .escape 'r' ih

/-- Zeros in front of a number change nothing. -/
theorem Written.zeros {n : Word} (h : Written (.int n) w) (zeros : Nat) :
    Written (.int n) (List.replicate zeros '0' ++ w) := by
  cases h with
  | int hdigits hnonempty hvalue =>
    refine .int (List.forall_mem_append.2 ⟨fun c hc => ?_, hdigits⟩) ?_ ?_
    · rw [List.eq_of_mem_replicate hc]
      rfl
    · exact List.append_ne_nil_of_right_ne_nil _ hnonempty
    · rw [hvalue, Nat.ofDigitChars_append, Nat.ofDigitChars_replicate_zero, Nat.mul_zero]

theorem Form.written (h : Form lexeme w) : Written lexeme w := by
  cases h with
  | reserved word => exact .reserved word
  | symbol s => exact .symbol s
  | name h =>
    have hfree : Reserved.ofText? w = none := Option.eq_none_iff_forall_ne_some.2
      fun word hword => h.2 word (Reserved.ofText?_eq_some_iff.1 hword)
    exact .name h.1 hfree
  | int zeros h => exact (written_toDigits h).zeros zeros
  | string hquote h => exact .string (isQuote_iff.2 hquote) (quotedBody_flatten hquote h)

/-- Exactly the legible lexemes can be written. -/
theorem exists_form_iff : (∃ w, Form lexeme w) ↔ lexeme.Legible := by
  constructor
  · rintro ⟨w, h⟩
    cases h with
    | reserved | symbol | string => trivial
    | name h => exact h
    | int zeros h => exact h
  · intro h
    cases lexeme with
    | reserved word => exact ⟨_, .reserved word⟩
    | symbol s => exact ⟨_, .symbol s⟩
    | name t => exact ⟨_, .name h⟩
    | int n => exact ⟨_, .int 0 h⟩
    | string content =>
      obtain ⟨parts, hparts⟩ : ∃ parts, List.Forall₂ (CharForm '"') content parts := by
        induction content with
        | nil => exact ⟨[], .nil⟩
        | cons c content ih =>
          obtain ⟨part, hpart⟩ := exists_charForm '"' c
          obtain ⟨parts, hparts⟩ := ih h
          exact ⟨part :: parts, .cons hpart hparts⟩
      exact ⟨_, .string (.inl rfl) hparts⟩

/-! ## Lexemes with blanks between them -/

/-- Words with blanks between them. -/
inductive Spaced : List Text → Text → Prop
  | nil : Spaced [] []
  | single (w : Text) : Spaced [w] w
  | cons (w : Text) {gap next rest : Text} {words : List Text} (hblank : ∀ c ∈ gap, isBlank c)
      (hgap : gap ≠ []) (h : Spaced (next :: words) rest) :
      Spaced (w :: next :: words) (w ++ (gap ++ rest))

theorem spelled_spaced (hspaced : Spaced words t) (h : List.Forall₂ Written lexemes words) :
    Spelled lexemes t := by
  induction hspaced generalizing lexemes with
  | nil =>
    cases h
    exact .nil (List.forall_mem_nil _)
  | single w =>
    cases h with
    | cons hwritten hnil =>
      cases hnil
      rw [← List.append_nil w]
      exact .cons_append hwritten (stops_of_isBlank nofun) (.nil (List.forall_mem_nil _))
  | @cons w gap next rest words hblank hgap _ ih =>
    cases h with
    | cons hwritten hwords =>
      have hrest := (ih hwords).blank_append hblank
      refine .cons_append hwritten (stops_of_isBlank fun c hc => ?_) hrest
      rw [List.head?_append_of_ne_nil _ hgap] at hc
      exact hblank c (List.mem_of_mem_head? hc)

/-! ## Strings that are not closed -/

/-- What follows the quote of a string that is not closed: every such quote in it stands after a
backslash. -/
inductive Unclosed (quote : Char) : Text → Prop
  | nil : Unclosed quote []
  | slash : Unclosed quote ['\\']
  | plain {c : Char} {t : Text} (hquote : c ≠ quote) (hslash : c ≠ '\\') (h : Unclosed quote t) :
      Unclosed quote (c :: t)
  | escape (c : Char) {t : Text} (h : Unclosed quote t) : Unclosed quote ('\\' :: c :: t)

theorem stringBody?_eq_none_iff (hquote : Nesting.isQuote quote) :
    stringBody? quote t = none ↔ Unclosed quote t := by
  have hslash : '\\' ≠ quote := by
    rintro rfl
    revert hquote
    decide
  constructor
  · intro h
    fun_induction stringBody? quote t with
    | case1 => exact .nil
    | case2 => cases h
    | case3 => exact .slash
    | case4 c t _ ih => exact .escape c (ih (Option.map_eq_none_iff.1 h))
    | case5 c t hne hslash ih => exact .plain hne hslash (ih (Option.map_eq_none_iff.1 h))
  · intro h
    induction h with
    | nil => rfl
    | slash => rw [stringBody?.eq_def]; simp [hslash]
    | plain hne hslash _ ih =>
      rw [stringBody?.eq_def]
      simp [hne, hslash, ih]
    | escape c _ ih =>
      rw [stringBody?.eq_def]
      simp [hslash, ih]

theorem not_isQuote_of_mem_spelling (s : Symbol) : ∀ c ∈ s.spelling, ¬Nesting.isQuote c := by
  apply forall_not_of_all
  cases s <;> decide

/-- No lexeme goes on into a string. -/
theorem stops_quote (hquote : Nesting.isQuote quote) (lexeme : Lexeme) :
    lexeme.Stops (quote :: body) := by
  have hname := not_isNamePart_of_isQuote hquote
  cases lexeme with
  | reserved | name => exact fun c hc => Option.some.inj hc ▸ hname
  | int => exact fun c hc => Option.some.inj hc ▸ mt isNamePart_of_isDigit hname
  | symbol s =>
    rintro c ⟨⟩ longer hlonger
    exact not_isQuote_of_mem_spelling longer quote (by rw [hlonger]; simp) hquote
  | string => trivial

theorem leading_eq_unterminated_iff :
    leading c t = .error .unterminatedString ↔ Nesting.isQuote c ∧ Unclosed c t := by
  rw [leading]
  split
  case isTrue hquote =>
    rw [and_iff_right hquote, ← stringBody?_eq_none_iff hquote]
    cases stringBody? c t <;> simp
  case isFalse hquote =>
    refine iff_of_false (fun h => ?_) fun h => hquote h.1
    split at h
    · rw [ofDigits] at h
      cases hword : Word.ofInt? (Nat.ofDigitChars 10 (c :: t.takeWhile isDigit) 0) <;>
        simp [hword] at h
    · split at h
      · cases h
      · split at h <;> cases h

/-- The text of a string that is not closed is reached if there are only whole lexemes before it,
and that is the only way to fail like this. -/
theorem scan_eq_unterminated_iff : scan t = .error .unterminatedString ↔
    ∃ front quote body lexemes, t = front ++ quote :: body ∧ scan front = .ok lexemes ∧
      Nesting.isQuote quote ∧ Unclosed quote body := by
  constructor
  · intro h
    fun_induction scan t with
    | case1 => cases h
    | case2 t c t' hblanks error hleading =>
      cases h
      obtain ⟨hquote, hbody⟩ := leading_eq_unterminated_iff.1 hleading
      have ht := List.takeWhile_append_dropWhile (p := isBlank) (l := t)
      rw [hblanks] at ht
      have hgap := scan_blank (List.all_eq_true.1 (List.all_takeWhile (p := isBlank) (l := t)))
      exact ⟨_, c, t', [], ht.symm, hgap, hquote, hbody⟩
    | case3 t c t' hblanks lexeme rest hleading hlength error hscan ih =>
      cases h
      obtain ⟨front, quote, body, lexemes, rfl, hfront, hquote, hbody⟩ := ih hscan
      obtain ⟨w, hsplit, hwritten, hstops⟩ := leading_eq_ok_iff.1 hleading
      have ht := List.takeWhile_append_dropWhile (p := isBlank) (l := t)
      rw [hblanks, hsplit] at ht
      refine ⟨t.takeWhile isBlank ++ (w ++ front), quote, body, lexeme :: lexemes,
        ht.symm.trans ?_, ?_, hquote, hbody⟩
      · simp only [List.append_assoc]
      · rw [scan_written (List.all_eq_true.1 List.all_takeWhile) hwritten hstops.of_append, hfront]
        rfl
    | case4 => cases h
  · rintro ⟨front, quote, body, lexemes, rfl, hscan, hquote, hbody⟩
    have hquote' : ¬isBlank quote := fun hblank => not_isQuote_of_isBlank hblank hquote
    rw [scan_append hscan (stops_quote hquote), ← List.nil_append (quote :: body),
      scan_cons (List.forall_mem_nil _) hquote', leading_eq_unterminated_iff.2 ⟨hquote, hbody⟩]
    rfl

/-! ## Reading back -/

/-- Legible lexemes, and no others, can be written; what is written for a list of them with blanks
between is read as that list; and a text from which whole lexemes were read up to a string that is
not closed is not read at all. -/
theorem scan_read_back :
    (∀ lexeme : Lexeme, (∃ w, Form lexeme w) ↔ lexeme.Legible) ∧
      (∀ lexemes words t, List.Forall₂ Form lexemes words → Spaced words t →
        scan t = .ok lexemes) ∧
      ∀ t, scan t = .error .unterminatedString ↔
        ∃ front quote body lexemes, t = front ++ quote :: body ∧ scan front = .ok lexemes ∧
          (quote = '"' ∨ quote = '\'') ∧ Unclosed quote body := by
  refine ⟨fun _ => exists_form_iff, fun lexemes words t hforms hspaced => ?_, fun t => ?_⟩
  · exact scan_eq_ok_iff.2 (spelled_spaced hspaced (hforms.imp fun _ _ => Form.written))
  · rw [scan_eq_unterminated_iff]
    simp only [isQuote_iff]

/-- A number with zeros in front, a string in double quotes that holds both kinds of quotes, a
backslash and a line feed written by its letter, a sign and a name; and a string whose last quote
stands after a backslash. -/
theorem scan_read_back_quotes :
    scan "007\t\"'\\\"\\\\\\n\" \r\n<= x".toList
        = .ok [.int ⟨7, by decide⟩, .string "'\"\\\n".toList, .symbol .atMost, .name ['x']] ∧
      scan "x+'it\\'".toList = .error .unterminatedString := by
  obtain ⟨-, hread, hfails⟩ := scan_read_back
  have hcontent : List.Forall₂ (CharForm '"') "'\"\\\n".toList
      [['\''], ['\\', '"'], ['\\', '\\'], ['\\', 'n']] :=
    .cons (.plain (by decide) (by decide)) (.cons .quote (.cons .slash (.cons .lineFeed .nil)))
  have hx : (Lexeme.name ['x']).Legible := ⟨by decide, fun word => by cases word <;> decide⟩
  have hspace : ∀ c ∈ [' '], isBlank c := List.all_eq_true.1 (by decide)
  have hbreak : ∀ c ∈ " \r\n".toList, isBlank c := List.all_eq_true.1 (by decide)
  have htab : ∀ c ∈ ['\t'], isBlank c := List.all_eq_true.1 (by decide)
  have hlast : Spaced ["<=".toList, ['x']] ("<=".toList ++ ([' '] ++ ['x'])) :=
    .cons _ hspace (by decide) (.single _)
  have hlater : Spaced ["\"'\\\"\\\\\\n\"".toList, "<=".toList, ['x']]
      ("\"'\\\"\\\\\\n\"".toList ++ (" \r\n".toList ++ ("<=".toList ++ ([' '] ++ ['x'])))) :=
    .cons _ hbreak (by decide) hlast
  constructor
  · refine hread _ ["007".toList, "\"'\\\"\\\\\\n\"".toList, "<=".toList, ['x']] _ ?_ ?_
    · exact .cons (.int 2 (by decide)) (.cons (.string (.inl rfl) hcontent)
        (.cons (.symbol .atMost) (.cons (.name hx) .nil)))
    · exact .cons _ htab (by decide) hlater
  · have hfront : scan "x+".toList = .ok [.name ['x'], .symbol .plus] := by cbv
    exact (hfails _).2 ⟨"x+".toList, '\'', "it\\'".toList, _, rfl, hfront, .inr rfl,
      .plain (by decide) (by decide) (.plain (by decide) (by decide) (.escape '\'' .nil))⟩

end Stencil.Lexeme
