import Stencil.Bindings
import Stencil.Proofs.Expr.Arithmetic
import Stencil.Proofs.Expr.Lexemes
import Stencil.Proofs.Expr.Reading

/-!
# Values are read back

The text of a value made of booleans, integers and arrays is an expression for that value. A
negative integer is written with a minus sign before its digits, which is a prefix operator and so
takes one more level of nesting. The digits of the least word are no word, so a value that holds it
is no expression.

`Value.ReadAs` says that a text is read as an expression for a value wherever it stands. Brackets
and commas keep it, so it holds of all such values by induction. What comes before the digits of the
least word is read in the same way.

* `Bindings.evaluate_text`: the text of a value evaluates to the value unless it holds the least
  word.
-/

namespace Stencil

open Lexeme

variable {depth n : Nat} {v : Value} {vs : List Value} {word : Word} {e : Expr} {es : List Expr}
  {lexemes : List Lexeme} {w t rest : Text}

theorem Lexeme.Written.isDigit (h : Written (.int word) w) : ∀ c ∈ w, Text.isDigit c := by
  cases h with
  | int hdigits => exact hdigits

namespace Value

/-! ## Values made of booleans, integers and arrays -/

/-- The value is made of booleans, integers and arrays, which are nested at most `depth` deep. -/
inductive Literal : (depth : Nat) → Value → Prop
  | bool {depth : Nat} (b : Bool) : Literal depth (.bool b)
  | int {depth : Nat} (word : Word) : Literal depth (.int word)
  | array {depth : Nat} {vs : List Value} (h : ∀ v ∈ vs, Literal depth v) :
      Literal (depth + 1) (.array vs)

/-- The integer is somewhere in the value. -/
inductive Holds (word : Word) : Value → Prop
  | int : Holds word (.int word)
  | array {v : Value} {vs : List Value} (hmem : v ∈ vs) (h : Holds word v) :
      Holds word (.array vs)

/-- An integer in so many arrays. -/
def wrapped : Nat → Value → Value
  | 0, v => v
  | n + 1, v => .array [wrapped n v]

theorem literal_wrapped (word : Word) (n : Nat) : Literal n (wrapped n (.int word)) := by
  induction n with
  | zero => exact .int word
  | succ n ih => exact .array (List.forall_mem_singleton.2 ih)

theorem eq_of_holds_wrapped {word' : Word} (h : Holds word (wrapped n (.int word'))) :
    word = word' := by
  induction n with
  | zero =>
    cases h
    rfl
  | succ n ih =>
    cases h with
    | array hmem hholds => exact ih (List.mem_singleton.1 hmem ▸ hholds)

/-! ## Texts of lexemes -/

/-- No name or number goes on into the text. -/
def Breaks (rest : Text) : Prop := ∀ c ∈ rest.head?, ¬Text.isNamePart c

/-- Before any text that breaks off names and numbers, the text is read as these lexemes. -/
def ScansTo (t : Text) (lexemes : List Lexeme) : Prop :=
  ∀ rest, Breaks rest → scan (t ++ rest) = (scan rest).map (lexemes ++ ·)

theorem breaks_comma (t : Text) : Breaks ([',', ' '] ++ t) := by
  rintro c ⟨⟩
  decide

theorem breaks_bracket (t : Text) : Breaks ([']'] ++ t) := by
  rintro c ⟨⟩
  decide

/-- Brackets and commas are not the front of any other sign. -/
theorem scan_symbol (s : Symbol) (hs : s ∈ [.leftBracket, .rightBracket, .comma]) (rest : Text) :
    scan (s.spelling ++ rest) = (scan rest).map (.symbol s :: ·) := by
  have hends : s.Ends rest := by
    intro c _ longer hlonger
    simp only [List.mem_cons, List.not_mem_nil, or_false] at hs
    rcases hs with rfl | rfl | rfl <;> cases longer <;> simp [Symbol.spelling] at hlonger
  rw [← List.nil_append (s.spelling ++ rest)]
  exact scan_written (List.forall_mem_nil _) (.symbol s) hends

theorem scan_opening (t : Text) :
    scan (['['] ++ t) = (scan t).map (.symbol .leftBracket :: ·) :=
  scan_symbol .leftBracket (by decide) t

theorem scan_closing (t : Text) :
    scan ([']'] ++ t) = (scan t).map (.symbol .rightBracket :: ·) :=
  scan_symbol .rightBracket (by decide) t

/-- Elements of arrays stand one blank after the comma. -/
theorem scan_comma (t : Text) : scan ([',', ' '] ++ t) = (scan t).map (.symbol .comma :: ·) := by
  have hblank : ∀ c ∈ [' '], Text.isBlank c := List.forall_mem_singleton.2 rfl
  rw [← scan_blank_append hblank t]
  exact scan_symbol .comma (by decide) _

/-- A minus sign ends before a digit. -/
theorem scan_minus (hw : ∀ c ∈ w, Text.isDigit c) (hne : w ≠ []) (rest : Text) :
    scan ('-' :: (w ++ rest)) = (scan (w ++ rest)).map (.symbol .minus :: ·) := by
  have hspelling (s : Symbol) : ∀ c ∈ s.spelling, ¬Text.isDigit c := by
    apply Text.forall_not_of_all
    cases s <;> decide
  have hends : Symbol.minus.Ends (w ++ rest) := by
    intro c hc longer hlonger
    rw [List.head?_append_of_ne_nil _ hne] at hc
    exact hspelling longer c (by rw [hlonger]; simp) (hw c (List.mem_of_mem_head? hc))
  exact scan_written (List.forall_mem_nil _) (.symbol .minus) hends

theorem scansTo_written {lexeme : Lexeme} (hwritten : Written lexeme w)
    (hstops : ∀ rest, Breaks rest → lexeme.Stops rest) : ScansTo w [lexeme] := by
  intro rest hrest
  exact scan_written (List.forall_mem_nil _) hwritten (hstops rest hrest)

theorem scansTo_int (hwritten : Written (.int word) w) : ScansTo w [.int word] :=
  scansTo_written hwritten fun _ hrest c hc hdigit =>
    hrest c hc (Text.isNamePart_of_isDigit hdigit)

/-- The text of a negative word is a minus sign before the digits of the word without it. -/
theorem exists_minus (hneg : word.val < 0) (hleast : word ≠ .least) : ∃ m : Word, ∃ w,
    m.neg? = some word ∧ word.text = '-' :: w ∧ Written (.int m) w := by
  have hfits := word.fits
  have hne : word.val ≠ -0x8000000000000000 := fun h => hleast (Word.eq_of_val_eq h)
  let m : Word := ⟨-word.val, by omega⟩
  have hm : 0 ≤ m.val := show 0 ≤ -word.val by omega
  have hnat : m.val.toNat = word.val.natAbs := show (-word.val).toNat = _ by omega
  refine ⟨m, Nat.toDigits 10 word.val.natAbs, ?_, if_pos hneg, hnat ▸ written_toDigits hm⟩
  rw [Word.neg?, show -m.val = word.val from Int.neg_neg _, Word.ofInt?_val]

/-! ## Reading a value -/

/-- The text is read as an expression for the value, which nests two levels deeper at most. -/
structure ReadAs (depth : Nat) (t : Text) (v : Value) (lexemes : List Lexeme) (e : Expr) :
    Prop where
  scans : ScansTo t lexemes
  derives : ∃ n, n ≤ depth + 2 ∧ Expr.Derives (.expr 0 e) n lexemes
  eval : ∀ lookup, e.eval lookup = .ok v

/-- The text is read as expressions for the values, with commas between them. -/
structure AllReadAs (depth : Nat) (t : Text) (vs : List Value) (lexemes : List Lexeme)
    (es : List Expr) : Prop where
  scans : ScansTo t lexemes
  derives : ∃ n, n ≤ depth + 2 ∧ Expr.Derives (.elements es) n lexemes
  eval : ∀ lookup, Expr.evalAll lookup es = .ok vs

theorem readAs_atom (depth : Nat) {lexeme : Lexeme} (hscans : ScansTo t [lexeme])
    (hatom : Expr.Atom lexeme e) (heval : ∀ lookup, e.eval lookup = .ok v) :
    ReadAs depth t v [lexeme] e :=
  ⟨hscans, ⟨1, by omega, (Expr.Derives.atom hatom).loosen (Nat.le_refl _) (Nat.zero_le _)⟩, heval⟩

theorem exists_readAs_bool (depth : Nat) (b : Bool) :
    ∃ lexemes e, ReadAs depth (Value.bool b).text (.bool b) lexemes e := by
  cases b with
  | true =>
    have hscans : ScansTo "true".toList [.reserved .true] :=
      scansTo_written (.reserved .true) fun _ => id
    exact ⟨_, _, readAs_atom depth hscans .true fun _ => rfl⟩
  | false =>
    have hscans : ScansTo "false".toList [.reserved .false] :=
      scansTo_written (.reserved .false) fun _ => id
    exact ⟨_, _, readAs_atom depth hscans .false fun _ => rfl⟩

theorem exists_readAs_int (depth : Nat) (hleast : word ≠ .least) :
    ∃ lexemes e, ReadAs depth (Value.int word).text (.int word) lexemes e := by
  by_cases hneg : word.val < 0
  · obtain ⟨m, w, hm, htext, hwritten⟩ := exists_minus hneg hleast
    have hscans : ScansTo word.text [.symbol .minus, .int m] := by
      intro rest hrest
      rw [htext, List.cons_append, scan_minus hwritten.isDigit hwritten.ne_nil,
        scansTo_int hwritten rest hrest]
      cases scan rest <;> rfl
    have hderives : Expr.Derives (.expr 6 (.unary .neg (.int m))) 2 [.symbol .minus, .int m] :=
      .unary .minus (.tighter (by decide) (.atom (.int m)))
    refine ⟨_, _, hscans, ⟨2, by omega, hderives.loosen (by decide) (Nat.zero_le _)⟩, fun _ => ?_⟩
    show Word.toValue m.neg? = _
    rw [hm]
    rfl
  · have hwritten := written_toDigits (Int.not_lt.1 hneg)
    have htext : word.text = Nat.toDigits 10 word.val.toNat := by
      rw [Word.text, if_neg hneg, show word.val.natAbs = word.val.toNat by omega]
    rw [← htext] at hwritten
    exact ⟨_, _, readAs_atom depth (scansTo_int hwritten) (.int word) fun _ => rfl⟩

theorem ReadAs.single (h : ReadAs depth t v lexemes e) : AllReadAs depth t [v] lexemes [e] := by
  obtain ⟨n, hn, hderives⟩ := h.derives
  refine ⟨h.scans, ⟨n, hn, .single hderives⟩, fun lookup => ?_⟩
  rw [Expr.evalAll, h.eval lookup]
  rfl

theorem ReadAs.more {t' : Text} {lexemes' : List Lexeme} (h : ReadAs depth t v lexemes e)
    (hrest : AllReadAs depth t' vs lexemes' es) :
    AllReadAs depth (t ++ ([',', ' '] ++ t')) (v :: vs) (lexemes ++ .symbol .comma :: lexemes')
      (e :: es) := by
  obtain ⟨m, hm, hfirst⟩ := h.derives
  obtain ⟨n, hn, hmore⟩ := hrest.derives
  refine ⟨fun rest hbreaks => ?_, ⟨max m n, Nat.max_le.2 ⟨hm, hn⟩, .more hfirst hmore⟩,
    fun lookup => ?_⟩
  · rw [List.append_assoc, List.append_assoc, h.scans _ (breaks_comma _), scan_comma,
      hrest.scans rest hbreaks]
    cases scan rest <;> simp [Except.map]
  · rw [Expr.evalAll, h.eval lookup, hrest.eval lookup]

theorem AllReadAs.array (h : AllReadAs depth t vs lexemes es) :
    ReadAs (depth + 1) (['['] ++ t ++ [']']) (.array vs)
      (.symbol .leftBracket :: (lexemes ++ [.symbol .rightBracket])) (.array es) := by
  obtain ⟨n, hn, hderives⟩ := h.derives
  have harray := Expr.Derives.array (.inl rfl) hderives
  refine ⟨fun rest _ => ?_, ⟨n + 1, by omega, harray.loosen (Nat.le_refl _) (Nat.zero_le _)⟩,
    fun lookup => ?_⟩
  · rw [List.append_assoc, List.append_assoc, scan_opening, h.scans _ (breaks_bracket rest),
      scan_closing]
    cases scan rest <;> simp [Except.map]
  · rw [Expr.eval, h.eval lookup]

theorem readAs_empty (depth : Nat) : ReadAs (depth + 1) (Value.array []).text (.array [])
    [.symbol .leftBracket, .symbol .rightBracket] (.array []) := by
  have hderives := Expr.Derives.emptyArray.loosen (Nat.le_refl _) (Nat.zero_le 7)
  refine ⟨fun rest _ => ?_, ⟨1, by omega, hderives⟩, fun _ => rfl⟩
  show scan (['['] ++ ([']'] ++ rest)) = _
  rw [scan_opening, scan_closing]
  cases scan rest <;> rfl

theorem exists_allReadAs (hne : vs ≠ [])
    (h : ∀ v ∈ vs, ∃ lexemes e, ReadAs depth v.text v lexemes e) :
    ∃ lexemes es, AllReadAs depth (Text.joinWith [',', ' '] (elementTexts vs)) vs lexemes es := by
  induction vs with
  | nil => exact absurd rfl hne
  | cons v vs ih =>
    obtain ⟨⟨lexemes, e, hv⟩, hvs⟩ := List.forall_mem_cons.1 h
    cases vs with
    | nil => exact ⟨_, _, hv.single⟩
    | cons next vs =>
      obtain ⟨lexemes', es, hmore⟩ := ih (List.cons_ne_nil _ _) hvs
      rw [elementTexts, elementTexts, Text.joinWith_cons_cons]
      exact ⟨_, _, hv.more hmore⟩

/-- The text of a value is an expression for it. -/
theorem Literal.exists_readAs (h : Literal depth v) (hleast : ¬v.Holds .least) :
    ∃ lexemes e, ReadAs depth v.text v lexemes e := by
  induction h with
  | bool b => exact exists_readAs_bool _ b
  | int word =>
    refine exists_readAs_int _ ?_
    rintro rfl
    exact hleast .int
  | @array depth vs h ih =>
    have hvs : ∀ v ∈ vs, ∃ lexemes e, ReadAs depth v.text v lexemes e :=
      fun v hv => ih v hv fun hholds => hleast (.array hv hholds)
    by_cases hne : vs = []
    · subst hne
      exact ⟨_, _, readAs_empty depth⟩
    · obtain ⟨lexemes, es, hall⟩ := exists_allReadAs hne hvs
      exact ⟨_, _, hall.array⟩

/-! ## The least word -/

/-- Why nothing is read from the digits of the least word: without its sign it is too large. -/
def outOfRange : ExprError := .outOfRange "9223372036854775808".toList

theorem scan_digits_least (hrest : Breaks rest) :
    scan ("9223372036854775808".toList ++ rest) = .error outOfRange := by
  have hdigits : ∀ c ∈ "223372036854775808".toList, Text.isDigit c :=
    List.all_eq_true.1 (by decide)
  have hstop : ∀ c ∈ rest.head?, ¬Text.isDigit c :=
    fun c hc hdigit => hrest c hc (Text.isNamePart_of_isDigit hdigit)
  have hword : Word.ofInt? (Nat.ofDigitChars 10 ('9' :: "223372036854775808".toList) 0) = none := by
    decide +kernel
  have hleading : leading '9' ("223372036854775808".toList ++ rest) = .error outOfRange := by
    rw [leading, if_neg (by decide), if_pos (by decide), Text.takeWhile_append hdigits hstop,
      ofDigits, hword]
    rfl
  show scan ([] ++ '9' :: ("223372036854775808".toList ++ rest)) = _
  rw [scan_cons (List.forall_mem_nil _) (by decide), hleading]
  rfl

/-- One element with the least word in it is enough. -/
theorem scan_elements_of_least
    (hreads : ∀ v ∈ vs, ¬v.Holds .least → ∃ lexemes e, ReadAs depth v.text v lexemes e)
    (hfails : ∀ v ∈ vs, v.Holds .least → ∀ rest, Breaks rest →
      scan (v.text ++ rest) = .error outOfRange)
    (hleast : ∃ v ∈ vs, v.Holds .least) (hrest : Breaks rest) :
    scan (Text.joinWith [',', ' '] (elementTexts vs) ++ rest) = .error outOfRange := by
  induction vs with
  | nil => simp at hleast
  | cons v vs ih =>
    obtain ⟨hv, hvs⟩ := List.forall_mem_cons.1 hreads
    obtain ⟨hv', hvs'⟩ := List.forall_mem_cons.1 hfails
    cases vs with
    | nil =>
      obtain ⟨_, hmem, hholds⟩ := hleast
      obtain rfl := List.mem_singleton.1 hmem
      exact hv' hholds rest hrest
    | cons next vs =>
      rw [elementTexts, elementTexts, Text.joinWith_cons_cons, List.append_assoc, List.append_assoc]
      by_cases hholds : v.Holds .least
      · exact hv' hholds _ (breaks_comma _)
      · obtain ⟨lexemes, e, hread⟩ := hv hholds
        have hlater : ∃ v ∈ next :: vs, v.Holds .least :=
          ((List.exists_mem_cons_iff _ _ _).1 hleast).resolve_left hholds
        have helements := ih hvs hvs' hlater
        rw [elementTexts] at helements
        rw [hread.scans _ (breaks_comma _), scan_comma, helements]
        rfl

/-- A text with the digits of the least word in it has no lexemes. -/
theorem Literal.scan_of_least (h : Literal depth v) (hleast : v.Holds .least)
    (hrest : Breaks rest) : scan (v.text ++ rest) = .error outOfRange := by
  induction h generalizing rest with
  | bool => cases hleast
  | int word =>
    cases hleast
    have htext : (Value.int .least).text = '-' :: "9223372036854775808".toList := by decide +kernel
    have hdigits : ∀ c ∈ "9223372036854775808".toList, Text.isDigit c :=
      List.all_eq_true.1 (by decide)
    rw [htext, List.cons_append, scan_minus hdigits (by decide), scan_digits_least hrest]
    rfl
  | @array depth vs h ih =>
    cases hleast with
    | array hmem hholds =>
      have helements := scan_elements_of_least (fun v hv => (h v hv).exists_readAs)
        (fun v hv hholds _ => ih v hv hholds) ⟨_, hmem, hholds⟩ (breaks_bracket rest)
      rw [text, List.append_assoc, List.append_assoc, scan_opening, helements]
      rfl

end Value

/-- The text of a value of booleans, integers and arrays evaluates to the value whatever names
stand for, unless the value holds the least word. Then there is an error, since the digits of the
least word are out of range. -/
theorem Bindings.evaluate_text (b : Bindings) (v : Value) (h : v.Literal 62) :
    (¬v.Holds .least → b.evaluate v.text = .ok v) ∧
      (v.Holds .least → b.evaluate v.text = .error (.malformed Value.outOfRange)) := by
  constructor
  · intro hleast
    obtain ⟨lexemes, e, hscans, ⟨n, hn, hderives⟩, heval⟩ := h.exists_readAs hleast
    have hscan : scan (v.text ++ []) = _ := hscans [] nofun
    rw [List.append_nil, scan_blank (List.forall_mem_nil _)] at hscan
    have hscan : scan v.text = .ok lexemes := hscan.trans (congrArg Except.ok (List.append_nil _))
    have hparse : Expr.parse v.text = .ok e :=
      (Expr.parse_eq_ok_of_scan_iff hscan).2 ⟨n, hn, hderives⟩
    rw [evaluate, hparse]
    exact heval b.get?
  · intro hleast
    have hscan : scan (v.text ++ []) = _ := h.scan_of_least hleast nofun
    rw [List.append_nil] at hscan
    rw [evaluate, Expr.parse, Reader.all, hscan]

/-- As many arrays as may be around a negative integer, and the least word in an array. -/
theorem Bindings.evaluate_text_deepest :
    let five : Word := ⟨-5, by decide⟩
    (Value.wrapped 62 (.int five)).Literal 62 ∧
      empty.evaluate (Value.wrapped 62 (.int five)).text = .ok (Value.wrapped 62 (.int five)) ∧
      empty.evaluate "[true, -9223372036854775808]".toList
        = .error (.malformed Value.outOfRange) := by
  intro five
  have hdeepest : (Value.wrapped 62 (.int five)).Literal 62 := Value.literal_wrapped five 62
  have hleast : (Value.array [.bool true, .int .least]).Literal 62 :=
    .array (by simp [Value.Literal.bool, Value.Literal.int])
  refine ⟨hdeepest, (evaluate_text empty _ hdeepest).1 fun h => ?_,
    (evaluate_text empty _ hleast).2 (.array (by simp) .int)⟩
  have hsame := Value.eq_of_holds_wrapped h
  revert hsame
  decide

end Stencil
