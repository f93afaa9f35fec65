import Mathlib.Data.List.Basic
import Stencil.Expr.Scan
import Stencil.Proofs.Text.Runs

/-!
# How lexemes are written

A lexeme can be written in more than one way: a number with zeros in front, a string in either quote
and with backslashes where none are needed. `Lexeme.Written` says what the ways are, `Lexeme.Stops`
what may follow so that the lexeme does not go on, and `Lexeme.Spelled` puts both together for a
whole text.

* `Lexeme.leading_eq_ok_iff`: what is read from the front of a text.
* `Lexeme.scan_eq_ok_iff`: a text has exactly the lexemes that it spells.
* `Lexeme.spelled_joinWith`: a text that is written lexeme by lexeme with blanks between them.
-/

namespace Stencil

open Text

/-! ## Words and signs -/

/-- A reserved word is read from its spelling and from no other text. -/
theorem Reserved.ofText?_eq_some_iff {t : Text} {word : Reserved} :
    Reserved.ofText? t = some word ↔ t = word.spelling.toList := by
  constructor
  · intro h
    have found : word.spelling.toList = t := by simpa using List.find?_some h
    exact found.symm
  · rintro rfl
    cases word <;> rfl

namespace Symbol

variable {s s' : Symbol} {t a rest rest' : Text}

theorem mem_all (s : Symbol) : s ∈ all := by cases s <;> decide

/-- A sign that is the front of another one is looked for after it. -/
theorem pairwise_all : all.Pairwise fun first second => ¬first.spelling <+: second.spelling := by
  decide

theorem eq_of_spelling_eq (h : s.spelling = s'.spelling) : s = s' := by
  have hall : ∀ s ∈ all, ∀ s' ∈ all, s.spelling = s'.spelling → s = s' := by decide
  exact hall s s.mem_all s' s'.mem_all h

theorem length_spelling (s : Symbol) : 1 ≤ s.spelling.length ∧ s.spelling.length ≤ 2 := by
  cases s <;> decide

/-- No longer sign starts with this one and goes on into the rest. -/
def Ends (s : Symbol) (rest : Text) : Prop :=
  ∀ c ∈ rest.head?, ∀ longer : Symbol, longer.spelling ≠ s.spelling ++ [c]

/-- Of two signs that both are the front of a text, the one that ends there is not the shorter. -/
theorem Ends.eq_of_append (h : s.Ends rest) (hspelling : s'.spelling = s.spelling ++ a)
    (hrest : rest = a ++ rest') : s = s' := by
  cases a with
  | nil =>
    rw [List.append_nil] at hspelling
    exact eq_of_spelling_eq hspelling.symm
  | cons c a =>
    have hlength := congrArg List.length hspelling
    rw [List.length_append, List.length_cons] at hlength
    have := s.length_spelling
    have := s'.length_spelling
    obtain rfl : a = [] := List.eq_nil_of_length_eq_zero (by omega)
    exact absurd hspelling (h c (by simp [hrest]) s')

/-- The sign that is found at the front of a text is the longest one there. -/
theorem find_all_eq_some_iff :
    all.find? (·.spelling.isPrefixOf t) = some s ↔
      ∃ rest, t = s.spelling ++ rest ∧ s.Ends rest := by
  have hsound : ∀ {s : Symbol}, all.find? (·.spelling.isPrefixOf t) = some s →
      ∃ rest, t = s.spelling ++ rest ∧ s.Ends rest := by
    intro s h
    obtain ⟨hstart, before, after, hsplit, hbefore⟩ := List.find?_eq_some_iff_append.1 h
    obtain ⟨rest, rfl⟩ := List.isPrefixOf_iff_prefix.1 hstart
    refine ⟨rest, rfl, fun c hc longer hlonger => ?_⟩
    have hpair := pairwise_all
    rw [hsplit, List.pairwise_append, List.pairwise_cons] at hpair
    have hmem := longer.mem_all
    rw [hsplit, List.mem_append, List.mem_cons] at hmem
    rcases hmem with hmem | rfl | hmem
    · obtain ⟨rest, rfl⟩ := List.head?_eq_some_iff.1 hc
      have hstart : longer.spelling <+: s.spelling ++ c :: rest := by
        rw [hlonger]
        exact ⟨rest, by simp⟩
      have := hbefore longer hmem
      rw [List.isPrefixOf_iff_prefix.2 hstart] at this
      cases this
    · simpa using congrArg List.length hlonger
    · apply hpair.2.1.1 longer hmem
      rw [hlonger]
      exact List.prefix_append _ _
  constructor
  · exact hsound
  · rintro ⟨rest, rfl, hends⟩
    cases hfound : all.find? (·.spelling.isPrefixOf (s.spelling ++ rest)) with
    | none =>
      have := List.find?_eq_none.1 hfound s s.mem_all
      rw [List.isPrefixOf_iff_prefix] at this
      exact absurd (List.prefix_append _ _) this
    | some s' =>
      obtain ⟨rest', hsplit, hends'⟩ := hsound hfound
      rcases List.append_eq_append_iff.1 hsplit with ⟨a, hspelling, hrest⟩ | ⟨a, hspelling, hrest⟩
      · rw [hends.eq_of_append hspelling hrest]
      · rw [hends'.eq_of_append hspelling hrest]

end Symbol

namespace Lexeme

variable {lexeme : Lexeme} {lexemes : List Lexeme} {quote c : Char}
  {t w body content rest gap : Text}

/-! ## Strings -/

/-- What a quoted text stands for: after a backslash a character is taken as it is, or as what it is
a short form of, also if it is the quote. -/
inductive QuotedBody (quote : Char) : (body content : Text) → Prop
  | nil : QuotedBody quote [] []
  | plain {c : Char} {body content : Text} (hquote : c ≠ quote) (hslash : c ≠ '\\')
      (h : QuotedBody quote body content) : QuotedBody quote (c :: body) (c :: content)
  | escape (c : Char) {body content : Text} (h : QuotedBody quote body content) :
      QuotedBody quote ('\\' :: c :: body) (unescape c :: content)

/-- Any content can be quoted. -/
theorem exists_quotedBody (content : Text) : ∃ body, QuotedBody '"' body content := by
  induction content with
  | nil => exact ⟨[], .nil⟩
  | cons c content ih =>
    obtain ⟨body, hbody⟩ := ih
    by_cases hquote : c = '"'
    · subst hquote
      exact ⟨_, .escape '"' hbody⟩
    by_cases hslash : c = '\\'
    · subst hslash
      exact ⟨_, .escape '\\' hbody⟩
    · exact ⟨_, .plain hquote hslash hbody⟩

/-- A string ends at the first quote that no backslash stands before. -/
theorem stringBody?_eq_some_iff (hquote : Nesting.isQuote quote) :
    stringBody? quote t = some (content, rest) ↔
      ∃ body, t = body ++ quote :: rest ∧ QuotedBody quote body content := by
  constructor
  · intro h
    fun_induction stringBody? quote t generalizing content with
    | case1 => cases h
    | case2 t =>
      cases h
      exact ⟨[], rfl, .nil⟩
    | case3 => cases h
    | case4 c t _ ih =>
      obtain ⟨⟨content, rest⟩, hfound, heq⟩ := Option.map_eq_some_iff.1 h
      obtain ⟨rfl, rfl⟩ := Prod.mk.inj heq
      obtain ⟨body, rfl, hbody⟩ := ih hfound
      exact ⟨'\\' :: c :: body, rfl, .escape c hbody⟩
    | case5 c t hne hslash ih =>
      obtain ⟨⟨content, rest⟩, hfound, heq⟩ := Option.map_eq_some_iff.1 h
      obtain ⟨rfl, rfl⟩ := Prod.mk.inj heq
      obtain ⟨body, rfl, hbody⟩ := ih hfound
      exact ⟨c :: body, rfl, .plain hne hslash hbody⟩
  · rintro ⟨body, rfl, hbody⟩
    have hslash : '\\' ≠ quote := by
      rintro rfl
      revert hquote
      decide
    induction hbody with
    | nil =>
      rw [stringBody?.eq_def]
      simp
    | plain hne hslash _ ih =>
      rw [stringBody?.eq_def]
      simp [hne, hslash, ih]
    | escape c _ ih =>
      rw [stringBody?.eq_def]
      simp [hslash, ih]

/-! ## One lexeme -/

/-- The texts that a lexeme can be written as. -/
inductive Written : Lexeme → Text → Prop
  | reserved (word : Reserved) : Written (.reserved word) word.spelling.toList
  | symbol (s : Symbol) : Written (.symbol s) s.spelling
  | name {t : Text} (hname : isName t) (hfree : Reserved.ofText? t = none) : Written (.name t) t
  | int {value : Word} {digits : Text} (hdigits : ∀ c ∈ digits, isDigit c) (hnonempty : digits ≠ [])
      (hvalue : value.val = Nat.ofDigitChars 10 digits 0) : Written (.int value) digits
  | string {quote : Char} {body content : Text} (hquote : Nesting.isQuote quote)
      (hbody : QuotedBody quote body content) :
      Written (.string content) (quote :: (body ++ [quote]))

/-- A number is written as its digits. -/
theorem written_toDigits {value : Word} (hvalue : 0 ≤ value.val) :
    Written (.int value) (Nat.toDigits 10 value.val.toNat) := by
  refine .int (fun c hc => ?_) Nat.toDigits_ne_nil ?_
  · have hdigit := Nat.isDigit_of_mem_toDigits (by decide) (by decide) hc
    rw [Char.isDigit, Bool.and_eq_true, decide_eq_true_iff, decide_eq_true_iff] at hdigit
    exact isDigit_iff.2 hdigit
  · rw [Nat.ofDigitChars_ten_toDigits, Int.toNat_of_nonneg hvalue]

/-- What may follow a lexeme, so that it ends there. -/
def Stops : Lexeme → Text → Prop
  | .reserved _, rest | .name _, rest => ∀ c ∈ rest.head?, ¬isNamePart c
  | .symbol s, rest => s.Ends rest
  | .int _, rest => ∀ c ∈ rest.head?, ¬isDigit c
  | .string _, _ => True

theorem isName_cons_iff : isName (c :: t) ↔ isNameStart c ∧ ∀ d ∈ t, isNamePart d := by
  rw [isName, Bool.and_eq_true, List.all_cons, Bool.and_eq_true, List.all_eq_true]
  constructor
  · rintro ⟨hstart, -, hparts⟩
    exact ⟨by simpa using hstart, hparts⟩
  · rintro ⟨hstart, hparts⟩
    exact ⟨by simpa using hstart, isNamePart_of_isNameStart hstart, hparts⟩

theorem isName_spelling (word : Reserved) : isName word.spelling.toList := by
  cases word <;> decide

/-- A run of name characters is a reserved word or a name. -/
theorem written_ofName (hname : isName t) : Written (ofName t) t := by
  unfold ofName
  cases hword : Reserved.ofText? t with
  | none => exact .name hname hword
  | some word =>
    obtain rfl := Reserved.ofText?_eq_some_iff.1 hword
    exact .reserved word

theorem stops_ofName_iff : (ofName t).Stops rest ↔ ∀ c ∈ rest.head?, ¬isNamePart c := by
  unfold ofName
  cases Reserved.ofText? t <;> exact Iff.rfl

theorem leading_string (hquote : Nesting.isQuote quote) (hbody : QuotedBody quote body content) :
    leading quote (body ++ quote :: rest) = .ok (.string content, rest) := by
  have hfound : stringBody? quote (body ++ quote :: rest) = some (content, rest) :=
    (stringBody?_eq_some_iff hquote).2 ⟨body, rfl, hbody⟩
  rw [leading, if_pos hquote, hfound]

/-- Digits are a lexeme if their value is a word. -/
theorem ofDigits_eq_ok_iff {digits : Text} : ofDigits digits = .ok lexeme ↔
    ∃ value : Word, lexeme = .int value ∧ value.val = Nat.ofDigitChars 10 digits 0 := by
  rw [ofDigits]
  cases hword : Word.ofInt? (Nat.ofDigitChars 10 digits 0) with
  | none =>
    constructor
    · intro h
      cases h
    · rintro ⟨value, -, hvalue⟩
      rw [Word.ofInt?_eq_some_iff.2 hvalue] at hword
      cases hword
  | some value =>
    have hvalue := Word.ofInt?_eq_some_iff.1 hword
    constructor
    · intro h
      cases h
      exact ⟨value, rfl, hvalue⟩
    · rintro ⟨value', rfl, hvalue'⟩
      rw [Word.ofInt?_eq_some_iff.2 hvalue', Option.some.injEq] at hword
      rw [hword]
      rfl

theorem leading_int {value : Word} (hdigits : ∀ d ∈ c :: t, isDigit d)
    (hvalue : value.val = Nat.ofDigitChars 10 (c :: t) 0) (hrest : ∀ d ∈ rest.head?, ¬isDigit d) :
    leading c (t ++ rest) = .ok (.int value, rest) := by
  obtain ⟨hc, ht⟩ := List.forall_mem_cons.1 hdigits
  have hquote : ¬Nesting.isQuote c := by
    intro hquote
    rw [Nesting.isQuote, Bool.or_eq_true, beq_iff_eq, beq_iff_eq] at hquote
    rcases hquote with rfl | rfl <;> exact absurd hc (by decide)
  rw [leading, if_neg hquote, if_pos hc, takeWhile_append ht hrest, dropWhile_append ht hrest,
    ofDigits_eq_ok_iff.2 ⟨value, rfl, hvalue⟩]

theorem leading_name (hname : isName (c :: t)) (hrest : ∀ d ∈ rest.head?, ¬isNamePart d) :
    leading c (t ++ rest) = .ok (ofName (c :: t), rest) := by
  obtain ⟨hstart, hparts⟩ := isName_cons_iff.1 hname
  have hquote : ¬Nesting.isQuote c :=
    fun hquote => not_isNamePart_of_isQuote hquote (isNamePart_of_isNameStart hstart)
  have hdigit : ¬isDigit c := fun hdigit => not_isNameStart_of_isDigit hdigit hstart
  rw [leading, if_neg hquote, if_neg hdigit, if_pos hstart, takeWhile_append hparts hrest,
    dropWhile_append hparts hrest]

theorem leading_symbol {s : Symbol} (hs : s.spelling = c :: t) (hends : s.Ends rest) :
    leading c (t ++ rest) = .ok (.symbol s, rest) := by
  obtain ⟨hquote, hdigit, hstart⟩ : ¬Nesting.isQuote c ∧ ¬isDigit c ∧ ¬isNameStart c := by
    have hall : s.spelling.head?.all fun c =>
        !Nesting.isQuote c && !isDigit c && !isNameStart c := by
      cases s <;> decide
    rw [hs] at hall
    simpa [and_assoc] using hall
  have hfound : Symbol.all.find? (·.spelling.isPrefixOf (c :: (t ++ rest))) = some s :=
    Symbol.find_all_eq_some_iff.2 ⟨rest, by rw [hs, List.cons_append], hends⟩
  rw [leading, if_neg hquote, if_neg hdigit, if_neg hstart, hfound]
  simp [hs]

theorem not_isBlank_of_mem_spelling (s : Symbol) : ∀ c ∈ s.spelling, ¬isBlank c := by
  apply forall_not_of_all
  cases s <;> decide

theorem Written.ne_nil (h : Written lexeme w) : w ≠ [] := by
  cases h with
  | reserved word => cases word <;> decide
  | symbol s => exact List.length_pos_iff.1 s.length_spelling.1
  | name hname =>
    rintro rfl
    cases hname
  | int _ hnonempty => exact hnonempty
  | string => exact List.cons_ne_nil _ _

theorem Written.not_isBlank (h : Written lexeme (c :: t)) : ¬isBlank c := by
  intro hblank
  generalize hw : c :: t = w at h
  cases h with
  | reserved word =>
    have hname := isName_cons_iff.1 (hw ▸ isName_spelling word)
    exact not_isNamePart_of_isBlank hblank (isNamePart_of_isNameStart hname.1)
  | symbol s => exact not_isBlank_of_mem_spelling s c (hw ▸ List.mem_cons_self) hblank
  | name hname =>
    subst hw
    have hname := isName_cons_iff.1 hname
    exact not_isNamePart_of_isBlank hblank (isNamePart_of_isNameStart hname.1)
  | int hdigits =>
    subst hw
    exact not_isDigit_of_isBlank hblank (hdigits c List.mem_cons_self)
  | string hquote =>
    obtain ⟨rfl, -⟩ := List.cons.inj hw
    exact not_isQuote_of_isBlank hblank hquote

/-- What is read from the front of a text is the lexeme that is written there and ends there. -/
theorem leading_eq_ok_iff : leading c t = .ok (lexeme, rest) ↔
    ∃ w, c :: t = w ++ rest ∧ Written lexeme w ∧ lexeme.Stops rest := by
  constructor
  · intro h
    rw [leading] at h
    split at h
    case isTrue hquote =>
      split at h
      · cases h
      · rename_i hfound
        cases h
        obtain ⟨body, rfl, hbody⟩ := (stringBody?_eq_some_iff hquote).1 hfound
        exact ⟨c :: (body ++ [c]), by simp, .string hquote hbody, trivial⟩
    split at h
    case isTrue hdigit =>
      obtain ⟨digits, rest', rfl, hdigits, hrest⟩ := exists_takeWhile isDigit t
      rw [takeWhile_append hdigits hrest, dropWhile_append hdigits hrest] at h
      split at h
      · cases h
      · rename_i hfound
        cases h
        obtain ⟨value, rfl, hvalue⟩ := ofDigits_eq_ok_iff.1 hfound
        exact ⟨c :: digits, rfl, .int (List.forall_mem_cons.2 ⟨hdigit, hdigits⟩)
          (List.cons_ne_nil _ _) hvalue, hrest⟩
    split at h
    case isTrue hstart =>
      obtain ⟨name, rest', rfl, hname, hrest⟩ := exists_takeWhile isNamePart t
      rw [takeWhile_append hname hrest, dropWhile_append hname hrest] at h
      cases h
      exact ⟨c :: name, rfl, written_ofName (isName_cons_iff.2 ⟨hstart, hname⟩),
        stops_ofName_iff.2 hrest⟩
    split at h
    · cases h
    · rename_i s hfound
      cases h
      obtain ⟨rest, hsplit, hends⟩ := Symbol.find_all_eq_some_iff.1 hfound
      have hdrop : t.drop (s.spelling.length - 1) = rest := by
        have := s.length_spelling
        have hcut := congrArg (List.drop s.spelling.length) hsplit
        rw [List.drop_left, ← Nat.sub_add_cancel this.1, List.drop_succ_cons] at hcut
        exact hcut
      rw [hdrop]
      exact ⟨s.spelling, hsplit, .symbol s, hends⟩
  · rintro ⟨w, hsplit, hwritten, hstops⟩
    obtain ⟨hw, -⟩ | ⟨w', rfl, rfl⟩ := List.cons_eq_append_iff.1 hsplit
    · exact absurd hw hwritten.ne_nil
    generalize hfront : c :: w' = front at hwritten
    cases hwritten with
    | reserved word =>
      rw [leading_name (hfront ▸ isName_spelling word) hstops, hfront, ofName,
        Reserved.ofText?_eq_some_iff.2 rfl]
      rfl
    | symbol s => exact leading_symbol hfront.symm hstops
    | name hname hfree =>
      subst hfront
      rw [leading_name hname hstops, ofName, hfree]
      rfl
    | int hdigits hnonempty hvalue =>
      subst hfront
      exact leading_int hdigits hvalue hstops
    | string hquote hbody =>
      obtain ⟨rfl, rfl⟩ := List.cons.inj hfront
      rw [List.append_assoc]
      exact leading_string hquote hbody

/-! ## A whole text -/

/-- The lexemes that a text consists of, with blanks between them. -/
inductive Spelled : List Lexeme → Text → Prop
  | nil {gap : Text} (hgap : ∀ c ∈ gap, isBlank c) : Spelled [] gap
  | cons {lexeme : Lexeme} {lexemes : List Lexeme} {gap w rest : Text} (hgap : ∀ c ∈ gap, isBlank c)
      (hwritten : Written lexeme w) (hstops : lexeme.Stops rest) (hrest : Spelled lexemes rest) :
      Spelled (lexeme :: lexemes) (gap ++ (w ++ rest))

theorem scan_blank (hgap : ∀ c ∈ gap, isBlank c) : scan gap = .ok [] := by
  have hblanks : gap.dropWhile isBlank = [] := by
    rw [← List.append_nil gap]
    exact dropWhile_append hgap nofun
  rw [scan.eq_def]
  split
  · rfl
  · rename_i hcons
    rw [hblanks] at hcons
    cases hcons

theorem scan_of_leading (hgap : ∀ c ∈ gap, isBlank c) (hc : ¬isBlank c)
    (hleading : leading c t = .ok (lexeme, rest)) (hrest : scan rest = .ok lexemes) :
    scan (gap ++ c :: t) = .ok (lexeme :: lexemes) := by
  have hblanks : (gap ++ c :: t).dropWhile isBlank = c :: t :=
    dropWhile_append hgap fun d hd => Option.some.inj hd ▸ hc
  rw [scan.eq_def]
  split
  · rename_i hnil
    rw [hblanks] at hnil
    cases hnil
  · rename_i hcons
    rw [hblanks] at hcons
    obtain ⟨rfl, rfl⟩ := List.cons.inj hcons
    split
    · rename_i hfailed
      rw [hleading] at hfailed
      cases hfailed
    · rename_i hfound
      rw [hleading] at hfound
      cases hfound
      rw [hrest]

/-- A text has the lexemes that it spells, and no others. -/
theorem scan_eq_ok_iff : scan t = .ok lexemes ↔ Spelled lexemes t := by
  constructor
  · intro h
    fun_induction scan t generalizing lexemes with
    | case1 t hblanks =>
      cases h
      refine .nil fun c hc => ?_
      rw [← List.takeWhile_append_dropWhile (p := isBlank) (l := t), hblanks, List.append_nil] at hc
      exact List.all_eq_true.1 List.all_takeWhile c hc
    | case2 => cases h
    | case3 => cases h
    | case4 t c t' hblanks lexeme rest hfound hlength lexemes' hscan ih =>
      cases h
      obtain ⟨w, hsplit, hwritten, hstops⟩ := leading_eq_ok_iff.1 hfound
      have ht := List.takeWhile_append_dropWhile (p := isBlank) (l := t)
      rw [hblanks, hsplit] at ht
      rw [← ht]
      exact .cons (List.all_eq_true.1 List.all_takeWhile) hwritten hstops (ih hscan)
  · intro h
    induction h with
    | nil hgap => exact scan_blank hgap
    | cons hgap hwritten hstops _ ih =>
      rename_i w rest _
      obtain ⟨c, w, rfl⟩ := List.exists_cons_of_ne_nil hwritten.ne_nil
      have hleading : leading c (w ++ rest) = .ok _ :=
        leading_eq_ok_iff.2 ⟨c :: w, rfl, hwritten, hstops⟩
      exact scan_of_leading hgap hwritten.not_isBlank hleading ih

/-! ## Blanks between and around lexemes -/

theorem stops_of_isBlank (hrest : ∀ c ∈ rest.head?, isBlank c) : lexeme.Stops rest := by
  cases lexeme with
  | reserved | name => exact fun c hc => not_isNamePart_of_isBlank (hrest c hc)
  | symbol s =>
    intro c hc longer hlonger
    exact not_isBlank_of_mem_spelling longer c (by rw [hlonger]; simp) (hrest c hc)
  | int => exact fun c hc => not_isDigit_of_isBlank (hrest c hc)
  | string => trivial

theorem Stops.of_append (h : lexeme.Stops (t ++ rest)) : lexeme.Stops t := by
  cases t with
  | nil => exact stops_of_isBlank nofun
  | cons c t => cases lexeme <;> exact h

/-- What a lexeme is written as does not end in a blank either. -/
theorem Written.getLast_not_isBlank (h : Written lexeme w) : ∀ c ∈ w.getLast?, ¬isBlank c := by
  intro c hc hblank
  have hmem := List.mem_of_getLast? hc
  cases h with
  | reserved word =>
    have hname := isName_spelling word
    rw [isName, Bool.and_eq_true, List.all_eq_true] at hname
    exact not_isNamePart_of_isBlank hblank (hname.2 c hmem)
  | symbol s => exact not_isBlank_of_mem_spelling s c hmem hblank
  | name hname =>
    rw [isName, Bool.and_eq_true, List.all_eq_true] at hname
    exact not_isNamePart_of_isBlank hblank (hname.2 c hmem)
  | int hdigits => exact not_isDigit_of_isBlank hblank (hdigits c hmem)
  | string hquote =>
    rw [← List.cons_append, List.getLast?_concat] at hc
    exact not_isQuote_of_isBlank hblank (Option.some.inj hc ▸ hquote)

theorem Spelled.blank_append (h : Spelled lexemes t) (hgap : ∀ c ∈ gap, isBlank c) :
    Spelled lexemes (gap ++ t) := by
  cases h with
  | nil hgap' =>
    exact .nil fun c hc => (List.mem_append.1 hc).elim (hgap c) (hgap' c)
  | cons hgap' hwritten hstops hrest =>
    rw [← List.append_assoc]
    exact .cons (fun c hc => (List.mem_append.1 hc).elim (hgap c) (hgap' c)) hwritten hstops hrest

theorem Spelled.cons_append (hwritten : Written lexeme w) (hstops : lexeme.Stops rest)
    (hrest : Spelled lexemes rest) : Spelled (lexeme :: lexemes) (w ++ rest) :=
  .cons (List.forall_mem_nil _) hwritten hstops hrest

/-- A text with some lexemes and then others is cut between them. -/
theorem Spelled.exists_append {first second : List Lexeme} (h : Spelled (first ++ second) t) :
    ∃ s u, t = s ++ u ∧ Spelled first s ∧ Spelled second u := by
  induction first generalizing t with
  | nil => exact ⟨[], t, rfl, .nil (List.forall_mem_nil _), h⟩
  | cons lexeme first ih =>
    rw [List.cons_append] at h
    cases h with
    | cons hgap hwritten hstops hrest =>
      obtain ⟨s, u, rfl, hfirst, hsecond⟩ := ih hrest
      exact ⟨_, u, by simp only [List.append_assoc], .cons hgap hwritten hstops.of_append hfirst,
        hsecond⟩

/-- Lexemes that are written one after the other with blanks between them. -/
theorem spelled_joinWith {texts : List Text} (h : List.Forall₂ Written lexemes texts)
    (hgap : ∀ c ∈ gap, isBlank c) (hnonempty : gap ≠ []) :
    Spelled lexemes (joinWith gap texts) := by
  induction h with
  | nil => exact .nil (List.forall_mem_nil _)
  | @cons lexeme w lexemes texts hwritten hrest ih =>
    cases texts with
    | nil =>
      cases hrest
      have hlast : Spelled [lexeme] (w ++ []) :=
        .cons_append hwritten (stops_of_isBlank nofun) (.nil (List.forall_mem_nil _))
      rwa [List.append_nil] at hlast
    | cons next texts =>
      rw [joinWith_cons_cons]
      refine .cons_append hwritten (stops_of_isBlank ?_) (ih.blank_append hgap)
      intro c hc
      rw [List.head?_append_of_ne_nil _ hnonempty] at hc
      exact hgap c (List.mem_of_head? hc)

/-- Blanks after the last lexeme add nothing. -/
theorem Spelled.of_append_blank (h : Spelled lexemes (t ++ gap)) (hgap : ∀ c ∈ gap, isBlank c) :
    Spelled lexemes t := by
  generalize ht : t ++ gap = t' at h
  induction h generalizing t with
  | nil hblank => exact .nil fun c hc => hblank c (ht ▸ List.mem_append_left gap hc)
  | @cons lexeme lexemes front w rest hfront hwritten hstops hrest ih =>
    rw [← List.append_assoc] at ht
    rcases List.append_eq_append_iff.1 ht with ⟨a, hw, rfl⟩ | ⟨a, rfl, rfl⟩
    -- The blanks cannot go back into the lexeme.
    · have ha : a = [] := by
        by_contra hne
        obtain ⟨c, hc⟩ := Option.ne_none_iff_exists'.1 (mt List.getLast?_eq_none_iff.1 hne)
        have hlast : c ∈ w.getLast? := by
          have := congrArg List.getLast? hw
          rw [List.getLast?_append_of_ne_nil _ hwritten.ne_nil,
            List.getLast?_append_of_ne_nil _ hne] at this
          rw [this]
          exact hc
        apply hwritten.getLast_not_isBlank c hlast
        exact hgap c (List.mem_append_left _ (List.mem_of_getLast? hc))
      subst ha
      rw [List.append_nil] at hw
      rw [← hw, ← List.append_nil (front ++ w), List.append_assoc]
      exact .cons hfront hwritten (stops_of_isBlank nofun) (ih rfl)
    · rw [List.append_assoc]
      exact .cons hfront hwritten hstops.of_append (ih rfl)

/-- Nor do blanks before the first one. -/
theorem Spelled.of_blank_append (h : Spelled lexemes (gap ++ t)) (hgap : ∀ c ∈ gap, isBlank c) :
    Spelled lexemes t := by
  generalize ht : gap ++ t = t' at h
  cases h with
  | nil hblank => exact .nil fun c hc => hblank c (ht ▸ List.mem_append_right gap hc)
  | @cons lexeme lexemes front w rest hfront hwritten hstops hrest =>
    rcases List.append_eq_append_iff.1 ht with ⟨a, rfl, rfl⟩ | ⟨a, rfl, hw⟩
    · exact .cons (fun c hc => hfront c (List.mem_append_right gap hc)) hwritten hstops hrest
    -- The blanks cannot go on into the lexeme.
    · cases a with
      | nil =>
        rw [List.nil_append] at hw
        rw [← hw]
        exact .cons_append hwritten hstops hrest
      | cons c a =>
        obtain ⟨d, w, rfl⟩ := List.exists_cons_of_ne_nil hwritten.ne_nil
        obtain ⟨rfl, -⟩ := List.cons.inj hw
        exact absurd (hgap d (by simp)) hwritten.not_isBlank

/-- A text has the same lexemes without the blanks at its ends. -/
theorem Spelled.trim (h : Spelled lexemes t) : Spelled lexemes (Text.trim t) := by
  obtain ⟨front, back, ht, hfront, hback⟩ := exists_trim t
  rw [ht] at h
  exact (h.of_blank_append hfront).of_append_blank hback

end Lexeme

end Stencil
