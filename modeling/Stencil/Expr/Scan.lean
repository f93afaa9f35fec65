import Stencil.Expr.Lexeme
import Stencil.Nesting

/-!
# From text to lexemes

Blanks separate lexemes and are otherwise passed over. A string runs to the quote that it started
with, and a backslash in it takes the next character as it is, or as the line feed, tab or carriage
return that it stands for. Numbers and names run as far as they can; of two signs the longer wins.
-/

namespace Stencil.Lexeme

/-- What the character after a backslash stands for. -/
def unescape (c : Char) : Char :=
  match c with
  | 'n' => '\n'
  | 't' => '\t'
  | 'r' => '\r'
  | c => c

/-- The content of a string that ends at `quote`, and what follows the quote. -/
def stringBody? (quote : Char) : Text → Option (Text × Text)
  | [] => none
  | c :: t =>
    if c = quote then some ([], t)
    else if c = '\\' then
      match t with
      | [] => none
      | e :: t => (stringBody? quote t).map fun (body, rest) => (unescape e :: body, rest)
    else (stringBody? quote t).map fun (body, rest) => (c :: body, rest)

/-- The lexeme for a run of digits. -/
def ofDigits (digits : Text) : Except ExprError Lexeme :=
  (Word.ofInt? (Nat.ofDigitChars 10 digits 0)).elim (.error (.outOfRange digits)) (.ok ∘ int)

/-- The lexeme for a run of name characters. -/
def ofName (t : Text) : Lexeme := (Reserved.ofText? t).elim (name t) reserved

/-- The lexeme at the front of a text that starts with `c`, which is not blank, and what follows
it. -/
def leading (c : Char) (t : Text) : Except ExprError (Lexeme × Text) :=
  if Nesting.isQuote c then
    match stringBody? c t with
    | none => .error .unterminatedString
    | some (body, rest) => .ok (string body, rest)
  else if Text.isDigit c then
    match ofDigits (c :: t.takeWhile Text.isDigit) with
    | .error error => .error error
    | .ok lexeme => .ok (lexeme, t.dropWhile Text.isDigit)
  else if Text.isNameStart c then
    .ok (ofName (c :: t.takeWhile Text.isNamePart), t.dropWhile Text.isNamePart)
  else
    match Symbol.all.find? (·.spelling.isPrefixOf (c :: t)) with
    | none => .error (.unexpectedCharacter c)
    | some s => .ok (symbol s, t.drop (s.spelling.length - 1))

theorem length_stringBody? {quote : Char} {t body rest : Text}
    (h : stringBody? quote t = some (body, rest)) : rest.length ≤ t.length := by
  fun_induction stringBody? quote t generalizing body with
  | case1 => simp at h
  | case2 => simp_all
  | case3 => simp at h
  | case4 e t _ ih =>
    obtain ⟨⟨body, rest⟩, found, heq⟩ := Option.map_eq_some_iff.1 h
    obtain ⟨-, rfl⟩ := Prod.mk.inj heq
    have := ih found
    simp only [List.length_cons]
    omega
  | case5 c t _ _ ih =>
    obtain ⟨⟨body, rest⟩, found, heq⟩ := Option.map_eq_some_iff.1 h
    obtain ⟨-, rfl⟩ := Prod.mk.inj heq
    have := ih found
    simp only [List.length_cons]
    omega

/-- A lexeme takes at least its first character. -/
theorem length_leading {c : Char} {t rest : Text} {lexeme : Lexeme}
    (h : leading c t = .ok (lexeme, rest)) : rest.length ≤ t.length := by
  unfold leading at h
  split at h
  · split at h
    · cases h
    · rename_i found
      cases h
      exact length_stringBody? found
  · split at h
    · split at h
      · cases h
      · cases h
        exact (List.dropWhile_sublist _).length_le
    · split at h
      · cases h
        exact (List.dropWhile_sublist _).length_le
      · split at h
        · cases h
        · cases h
          simp only [List.length_drop]
          omega

/-- The lexemes of a text, or the first thing in it that is none. -/
def scan (t : Text) : Except ExprError (List Lexeme) :=
  match blanks : t.dropWhile Text.isBlank with
  | [] => .ok []
  | c :: t' =>
    match found : leading c t' with
    | .error error => .error error
    | .ok (lexeme, rest) =>
      have : rest.length < t.length := by
        have skipped := (List.dropWhile_sublist Text.isBlank (l := t)).length_le
        have taken := length_leading found
        rw [blanks, List.length_cons] at skipped
        omega
      match scan rest with
      | .error error => .error error
      | .ok lexemes => .ok (lexeme :: lexemes)
termination_by t.length

end Stencil.Lexeme
