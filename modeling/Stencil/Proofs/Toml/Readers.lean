import Mathlib.Algebra.Group.Nat.Defs
import Mathlib.Data.Option.Basic
import Stencil.Toml.Document

/-!
# Reading back parts of TOML

What the readers of keys, strings and numbers take off a text that begins with a key, a string or a
number as it is written. Any text may come after it, as long as it cannot be taken for more of the
same (`Scan.Stops`).

A string is written in double quotes, and every character that cannot stand there as it is has its
code point after a backslash; so there is a way to write every text. A number is written as its
digits, and the reader of dates, which is tried first, does not take these for a year or an hour
(`Scan.date_toDigits`).

* `Scan.many_flatMap`: things that are written one after the other.
* `Scan.key_append`, `Scan.string_quoted`, `Scan.scalar_toDigits`: a key, a string and a number.
-/

namespace Stencil.Toml.Scan

variable {α β : Type} {m m' : Scan α} {f : α → Scan β} {a : α} {x : α × Text} {s t rest : Text}

theorem bind_of_some (h : m t = some (a, rest)) : (m >>= f) t = f a rest := by
  show (m t).bind (fun x => f x.1 x.2) = _
  rw [h]
  rfl

theorem bind_of_none (h : m t = none) : (m >>= f) t = none := by
  show (m t).bind (fun x => f x.1 x.2) = _
  rw [h]
  rfl

theorem map_of_some {g : α → β} (h : m t = some (a, rest)) : (g <$> m) t = some (g a, rest) := by
  show (m t).bind (fun x => some (g x.1, x.2)) = _
  rw [h]
  rfl

theorem map_of_none {g : α → β} (h : m t = none) : (g <$> m) t = none := by
  show (m t).bind (fun x => some (g x.1, x.2)) = _
  rw [h]
  rfl

theorem orElse_of_some (h : m t = some x) : (m <|> m') t = some x := by
  show (m t <|> m' t) = _
  rw [h]
  rfl

theorem orElse_of_none (h : m t = none) : (m <|> m') t = m' t := by
  show (m t <|> m' t) = _
  rw [h]
  rfl

theorem perhaps_of_some (h : m t = some (a, rest)) : perhaps m t = some (some a, rest) :=
  orElse_of_some (map_of_some h)

theorem perhaps_of_none (h : m t = none) : perhaps m t = some (none, t) :=
  orElse_of_none (map_of_none h)

theorem discard_of_some (h : m t = some (a, rest)) : (discard m : Scan Unit) t = some ((), rest) :=
  map_of_some h

theorem guard_eq_some {p : Prop} [Decidable p] (h : p) : (guard p : Option Unit) = some () :=
  if_pos h

theorem guard_of {p : Prop} [Decidable p] (h : p) : (guard p : Scan Unit) t = some ((), t) :=
  congrFun (if_pos h) t

/-! ## Characters -/

/-- No character with the property comes first. -/
def Stops (p : Char → Bool) (t : Text) : Prop := ∀ c ∈ t.head?, ¬p c

theorem stops_cons {p : Char → Bool} {c : Char} (h : ¬p c) : Stops p (c :: t) := by
  rintro d ⟨⟩
  exact h

theorem char_cons {p : Char → Bool} {c : Char} (h : p c) : char p (c :: t) = some (c, t) := by
  show (if p c then some (c, t) else none) = _
  rw [if_pos h]

theorem char_of_stops {p : Char → Bool} (h : Stops p t) : char p t = none := by
  cases t with
  | nil => rfl
  | cons c t =>
    show (if p c then some (c, t) else none) = _
    rw [if_neg (h c rfl)]

theorem literal_append (expected t : Text) : literal expected (expected ++ t) = some ((), t) := by
  rw [literal, if_pos (List.isPrefixOf_iff_prefix.2 (List.prefix_append _ _)), List.drop_left]

theorem literal_of_stops {c : Char} {expected : Text} (h : Stops (· == c) t) :
    literal (c :: expected) t = none := by
  rw [literal, if_neg]
  cases t with
  | nil => simp
  | cons d t =>
    have hne : d ≠ c := by simpa [Stops] using h
    simp [hne.symm]

theorem literal_single (c : Char) (t : Text) : literal [c] (c :: t) = some ((), t) :=
  literal_append [c] t

theorem literal_cons_of_none {c : Char} {expected : Text} (h : literal expected t = none) :
    literal (c :: expected) (c :: t) = none := by
  have hprefix : ¬expected.isPrefixOf t := by
    intro hprefix
    rw [literal, if_pos hprefix] at h
    cases h
  rw [literal, if_neg (by simpa using hprefix)]

theorem run_append {p : Char → Bool} (hs : ∀ c ∈ s, p c) (ht : Stops p t) :
    run p (s ++ t) = some (s, t) := by
  have htake : t.takeWhile p = [] := by
    cases t with
    | nil => rfl
    | cons c t => rw [List.takeWhile_cons_of_neg (ht c rfl)]
  have hdrop : t.dropWhile p = t := by
    cases t with
    | nil => rfl
    | cons c t => rw [List.dropWhile_cons_of_neg (ht c rfl)]
  rw [run, List.takeWhile_append_of_pos hs, List.dropWhile_append_of_pos hs, htake, hdrop,
    List.append_nil]

theorem spaces_append (hs : ∀ c ∈ s, isSpace c) (ht : Stops isSpace t) :
    spaces (s ++ t) = some ((), t) :=
  discard_of_some (run_append hs ht)

theorem spaces_of_stops (ht : Stops isSpace t) : spaces t = some ((), t) :=
  spaces_append (s := []) (by simp) ht

theorem spaces_blank (ht : Stops isSpace t) : spaces (' ' :: t) = some ((), t) :=
  spaces_append (s := [' ']) (List.forall_mem_singleton.2 rfl) ht

theorem many_of_none (h : m t = none) : many m t = some ([], t) := by
  rw [many, manyFrom, h]

/-- What is written one after the other is read one by one, up to where nothing more is read. -/
theorem many_flatMap {write : β → Text} {read : β → α} {bs : List β}
    (hitem : ∀ b ∈ bs, ∀ u, m (write b ++ u) = some (read b, u)) (hwrite : ∀ b ∈ bs, write b ≠ [])
    (hend : m t = none) :
    many m (bs.flatMap write ++ t) = some (bs.map read, t) := by
  induction bs with
  | nil => exact many_of_none hend
  | cons b bs ih =>
    rw [List.forall_mem_cons] at hitem hwrite
    have hlater : manyFrom m (bs.flatMap write ++ t) = (bs.map read, t) :=
      Option.some.inj (ih hitem.2 hwrite.2)
    have hshorter : (bs.flatMap write ++ t).length
        < (write b ++ (bs.flatMap write ++ t)).length := by
      have hpositive := List.length_pos_iff.2 hwrite.1
      rw [@List.length_append _ (write b)]
      omega
    rw [List.flatMap_cons, List.append_assoc, many, manyFrom, hitem.1]
    simp only [if_pos hshorter, hlater]
    rfl

/-! ## Keys -/

/-- A key that is written as it is. -/
def IsKey (key : Text) : Prop := key ≠ [] ∧ ∀ c ∈ key, isBare c

theorem basicString_of_stops (h : Stops (· == '"') t) : basicString t = none :=
  bind_of_none (literal_of_stops h)

theorem literalString_of_stops (h : Stops (· == '\'') t) : literalString t = none :=
  bind_of_none (literal_of_stops h)

theorem longString_of_stops (h : Stops (· == '"') t) : longString t = none :=
  bind_of_none (literal_of_stops h)

theorem longLiteral_of_stops (h : Stops (· == '\'') t) : longLiteral t = none :=
  bind_of_none (literal_of_stops h)

theorem IsKey.stops {key : Text} (h : IsKey key) {p : Char → Bool}
    (hp : ∀ c, isBare c → ¬p c) : Stops p (key ++ t) := by
  obtain ⟨hne, hbare⟩ := h
  cases key with
  | nil => exact absurd rfl hne
  | cons c key => exact stops_cons (hp c (hbare c List.mem_cons_self))

theorem IsKey.stops_of_not {key : Text} (h : IsKey key) {c : Char} (hc : ¬isBare c) :
    Stops (· == c) (key ++ t) :=
  h.stops fun _ hd heq => hc (beq_iff_eq.1 heq ▸ hd)

theorem not_isSpace_of_isBare {c : Char} (h : isBare c) : ¬isSpace c := by
  rw [isSpace, Bool.or_eq_true, beq_iff_eq, beq_iff_eq]
  rintro (rfl | rfl) <;> exact absurd h (by decide)

theorem simpleKey_append {key : Text} (h : IsKey key) (ht : Stops isBare t) :
    simpleKey (key ++ t) = some (key, t) := by
  rw [simpleKey, orElse_of_none (basicString_of_stops (h.stops_of_not (by decide))),
    orElse_of_none (literalString_of_stops (h.stops_of_not (by decide))),
    bind_of_some (run_append h.2 ht), bind_of_some (guard_of (by simpa using h.1))]
  rfl


/-- What follows a key in a pair or in a header: neither more of it nor another part. -/
def EndsKey (t : Text) : Prop :=
  ∃ blanks rest, t = blanks ++ rest ∧ (∀ c ∈ blanks, isSpace c) ∧ Stops isSpace rest ∧
    Stops (· == '.') rest ∧ Stops isBare t

theorem key_append {k : Text} (h : IsKey k) (ht : EndsKey t) :
    Scan.key (k ++ t) = some (([], k), t) := by
  obtain ⟨blanks, rest, rfl, hblanks, hspace, hpoint, hbare⟩ := ht
  have hmore : (do
      spaces
      literal ['.']
      spaces
      simpleKey : Scan Text) (blanks ++ rest) = none := by
    rw [bind_of_some (spaces_append hblanks hspace), bind_of_none (literal_of_stops hpoint)]
  rw [Scan.key, bind_of_some (simpleKey_append h hbare), bind_of_some (many_of_none hmore)]
  rfl

/-! ## Strings -/

/-- The last hexadecimal digits of a number, so many. -/
def hex : Nat → Nat → Text
  | 0, _ => []
  | width + 1, n => hex width (n / 16) ++ [(n % 16).digitChar]

theorem length_hex (width n : Nat) : (hex width n).length = width := by
  induction width generalizing n with
  | zero => rfl
  | succ width ih => rw [hex, List.length_append, ih, List.length_singleton]

theorem digitChar_of_lt {d : Nat} (h : d < 16) :
    isHexDigit d.digitChar ∧ digitValue d.digitChar = d := by
  have hall : ∀ d < 16, isHexDigit d.digitChar ∧ digitValue d.digitChar = d := by decide
  exact hall d h

theorem all_hex (width n : Nat) : (hex width n).all isHexDigit := by
  induction width generalizing n with
  | zero => rfl
  | succ width ih =>
    rw [hex, List.all_append, ih]
    simpa using (digitChar_of_lt (Nat.mod_lt n (by decide))).1

theorem ofDigits_concat (base : Nat) (digits : Text) (c : Char) :
    ofDigits base (digits ++ [c]) = base * ofDigits base digits + digitValue c := by
  rw [ofDigits, List.foldl_append]
  rfl

theorem ofDigits_hex (width n : Nat) (h : n < 16 ^ width) : ofDigits 16 (hex width n) = n := by
  induction width generalizing n with
  | zero =>
    rw [Nat.pow_zero] at h
    obtain rfl : n = 0 := by omega
    rfl
  | succ width ih =>
    have hquotient : n / 16 < 16 ^ width := by
      rw [Nat.div_lt_iff_lt_mul (by decide), ← Nat.pow_succ]
      exact h
    rw [hex, ofDigits_concat, ih _ hquotient, (digitChar_of_lt (Nat.mod_lt n (by decide))).2]
    exact Nat.div_add_mod n 16

/-- A character as it is written in double quotes. Those that cannot stand there as they are have
their code point after a backslash. -/
def quotedChar (c : Char) : Text :=
  if isPlain c && c != '"' && c != '\\' then [c] else '\\' :: 'U' :: hex 8 c.toNat

theorem quotedChar_ne_nil (c : Char) : quotedChar c ≠ [] := by
  unfold quotedChar
  split <;> exact List.cons_ne_nil _ _

theorem codePoint_hex (c : Char) : codePoint 8 (hex 8 c.toNat ++ t) = some (c, t) := by
  have hvalid : c.toNat.isValidChar := c.valid
  have hlt : c.toNat < 16 ^ 8 := by
    rcases hvalid with h | ⟨-, h⟩ <;> omega
  have htake : (hex 8 c.toNat ++ t).take 8 = hex 8 c.toNat := List.take_left' (length_hex 8 _)
  have hdrop : (hex 8 c.toNat ++ t).drop 8 = t := List.drop_left' (length_hex 8 _)
  dsimp only [codePoint]
  rw [htake, hdrop, guard_eq_some ⟨length_hex 8 _, all_hex 8 _⟩, ofDigits_hex 8 _ hlt, guard_eq_some hvalid,
    Char.ofNat_toNat]
  rfl

theorem escape_hex (c : Char) : escape ('\\' :: 'U' :: hex 8 c.toNat ++ t) = some (c, t) := by
  have hslash : literal ['\\'] ('\\' :: 'U' :: (hex 8 c.toNat ++ t))
      = some ((), 'U' :: (hex 8 c.toNat ++ t)) := literal_append ['\\'] _
  rw [escape, List.cons_append, List.cons_append, bind_of_some hslash,
    bind_of_some (char_cons (c := 'U') rfl)]
  exact codePoint_hex c

theorem quotedChar_append (c : Char) :
    (char (fun c => isPlain c && c != '"' && c != '\\') <|> escape) (quotedChar c ++ t)
      = some (c, t) := by
  unfold quotedChar
  split
  · rename_i h
    exact orElse_of_some (char_cons h)
  · have hslash : Stops (fun c => isPlain c && c != '"' && c != '\\')
        ('\\' :: 'U' :: hex 8 c.toNat ++ t) := stops_cons (by decide)
    rw [orElse_of_none (char_of_stops hslash)]
    exact escape_hex c

/-- A text in double quotes. -/
def quoted (content : Text) : Text := '"' :: (content.flatMap quotedChar ++ ['"'])

theorem basicString_quoted (content : Text) :
    basicString (quoted content ++ t) = some (content, t) := by
  have hopen : literal ['"'] (quoted content ++ t)
      = some ((), content.flatMap quotedChar ++ ('"' :: t)) := by
    have happend := literal_append ['"'] (content.flatMap quotedChar ++ ('"' :: t))
    simpa [quoted] using happend
  have hend : (char (fun c => isPlain c && c != '"' && c != '\\') <|> escape) ('"' :: t)
      = none := by
    rw [orElse_of_none (char_of_stops (stops_cons (by decide)))]
    exact bind_of_none (literal_of_stops (stops_cons (by decide)))
  have hmany : many (char (fun c => isPlain c && c != '"' && c != '\\') <|> escape)
      (content.flatMap quotedChar ++ '"' :: t) = some (content.map id, '"' :: t) :=
    many_flatMap (fun c _ _ => quotedChar_append c) (fun c _ => quotedChar_ne_nil c) hend
  rw [List.map_id] at hmany
  rw [basicString, bind_of_some hopen, bind_of_some hmany, bind_of_some (literal_single '"' t)]
  rfl

theorem stops_quotedChar (c : Char) : Stops (· == '"') (quotedChar c ++ t) := by
  unfold quotedChar
  split
  · rename_i h
    simp only [Bool.and_eq_true, bne_iff_ne] at h
    exact stops_cons (by simpa using h.1.2)
  · exact stops_cons (by decide)

/-- What is in double quotes is not in triple quotes. -/
theorem longString_quoted (content : Text) (ht : Stops (· == '"') t) :
    longString (quoted content ++ t) = none := by
  refine bind_of_none (literal_cons_of_none ?_)
  cases content with
  | nil => exact literal_cons_of_none (literal_of_stops ht)
  | cons c content =>
    have hfirst : Stops (· == '"') ((c :: content).flatMap quotedChar ++ ['"'] ++ t) := by
      rw [List.flatMap_cons, List.append_assoc, List.append_assoc]
      exact stops_quotedChar c
    exact literal_of_stops hfirst

theorem string_quoted (content : Text) (ht : Stops (· == '"') t) :
    string (quoted content ++ t) = some (content, t) := by
  have hliteral : Stops (· == '\'') (quoted content ++ t) := stops_cons (by decide)
  rw [string, orElse_of_none (longString_quoted content ht),
    orElse_of_none (longLiteral_of_stops hliteral)]
  exact orElse_of_some (basicString_quoted content)

/-! ## Numbers -/

theorem ofDigits_toDigits (n : Nat) : ofDigits 10 (Nat.toDigits 10 n) = n := by
  induction n using Nat.strongRecOn with
  | ind n ih =>
    by_cases h : n < 10
    · rw [Nat.toDigits_of_lt_base h]
      have hdigit := (digitChar_of_lt (Nat.lt_of_lt_of_le h (by decide))).2
      simpa [ofDigits] using hdigit
    · have hdigit := digitChar_of_lt (d := n % 10) (by omega)
      rw [Nat.toDigits_of_base_le (by decide) (by omega), ofDigits_concat, ih _ (by omega),
        hdigit.2]
      exact Nat.div_add_mod n 10

/-- Only the number zero begins with a zero. -/
theorem head_toDigits (n : Nat) (hn : n ≠ 0) : (Nat.toDigits 10 n).head? ≠ some '0' := by
  induction n using Nat.strongRecOn with
  | ind n ih =>
    by_cases h : n < 10
    · have hall : ∀ n < 10, n ≠ 0 → n.digitChar ≠ '0' := by decide
      rw [Nat.toDigits_of_lt_base h]
      simpa using hall n h hn
    · have hhead := ih (n / 10) (by omega) (by omega)
      rw [Nat.toDigits_of_base_le (by decide) (by omega)]
      rcases hquotient : Nat.toDigits 10 (n / 10) with _ | ⟨c, digits⟩
      · exact absurd hquotient Nat.toDigits_ne_nil
      · rw [hquotient] at hhead
        exact hhead

theorem isDigit_of_mem {n : Nat} {c : Char} (h : c ∈ Nat.toDigits 10 n) : Text.isDigit c := by
  have hdigit := Nat.isDigit_of_mem_toDigits (by decide) (by decide) h
  simpa [Text.isDigit, Char.isDigit, Char.le_def] using hdigit

theorem isBare_of_isDigit {c : Char} (h : Text.isDigit c) : isBare c := by
  rw [isBare, h]
  rfl

theorem stops_toDigits (n : Nat) {p : Char → Bool} (hp : ∀ c, Text.isDigit c → ¬p c) :
    Stops p (Nat.toDigits 10 n ++ t) := by
  rcases hdigits : Nat.toDigits 10 n with _ | ⟨c, digits⟩
  · exact absurd hdigits Nat.toDigits_ne_nil
  · exact stops_cons (hp c (isDigit_of_mem (n := n) (hdigits ▸ List.mem_cons_self)))

theorem stops_toDigits_of_not (n : Nat) {c : Char} (hc : ¬Text.isDigit c) :
    Stops (· == c) (Nat.toDigits 10 n ++ t) :=
  stops_toDigits n fun _ hd heq => hc (beq_iff_eq.1 heq ▸ hd)

theorem isDigits_of_forall {p : Char → Bool} (ht : t ≠ []) (h : ∀ c ∈ t, p c) (hp : ¬p '_') :
    isDigits p t := by
  fun_induction isDigits p t with
  | case1 => exact absurd rfl ht
  | case2 c => exact h c (List.mem_singleton.2 rfl)
  | case3 c rest => exact absurd (h '_' (by simp)) hp
  | case4 c rest hrest _ ih =>
    rw [List.forall_mem_cons] at h
    rw [h.1, Bool.true_and]
    exact ih (by simpa using hrest) h.2

theorem isDecimal_toDigits (n : Nat) : isDecimal (Nat.toDigits 10 n) := by
  have hdigits : isDigits Text.isDigit (Nat.toDigits 10 n) :=
    isDigits_of_forall Nat.toDigits_ne_nil (fun c => isDigit_of_mem) (by decide)
  rw [isDecimal, hdigits, Bool.true_and, Bool.or_eq_true]
  by_cases hn : n = 0
  · rw [hn]
    exact .inl rfl
  · exact .inr (by simpa using head_toDigits n hn)

theorem unsigned_toDigits (n : Nat) : unsigned (Nat.toDigits 10 n) = Nat.toDigits 10 n := by
  unfold unsigned
  split
  · rename_i heq
    exact absurd (isDigit_of_mem (n := n) (heq ▸ List.mem_cons_self)) (by decide)
  · rename_i heq
    exact absurd (isDigit_of_mem (n := n) (heq ▸ List.mem_cons_self)) (by decide)
  · rfl

theorem integer?_toDigits (n : Nat) : integer? (Nat.toDigits 10 n) = some (n : Int) := by
  have hother : ∀ c, ¬Text.isDigit c → ∀ digits, Nat.toDigits 10 n ≠ '0' :: c :: digits := by
    intro c hc digits heq
    exact hc (isDigit_of_mem (n := n) (heq ▸ List.mem_cons_of_mem _ List.mem_cons_self))
  unfold integer?
  split
  · exact absurd ‹_› (hother 'x' (by decide) _)
  · exact absurd ‹_› (hother 'o' (by decide) _)
  · exact absurd ‹_› (hother 'b' (by decide) _)
  · have hsign : (Nat.toDigits 10 n).head? ≠ some '-' := by
      intro hhead
      exact absurd (isDigit_of_mem (List.mem_of_mem_head? hhead)) (by decide)
    have hplain : (Nat.toDigits 10 n).filter (· != '_') = Nat.toDigits 10 n := by
      refine List.filter_eq_self.2 fun c hc => ?_
      have hdigit := isDigit_of_mem hc
      rw [bne_iff_ne]
      rintro rfl
      exact absurd hdigit (by decide)
    simp only [unsigned_toDigits, if_pos (isDecimal_toDigits n), if_neg hsign, hplain,
      ofDigits_toDigits]

/-- What follows so many digits of a number is the next one, or the end of the line. -/
theorem stops_of_fixed {n width value : Nat} {c : Char}
    (h : fixed width (Nat.toDigits 10 n ++ '\n' :: t) = some (value, rest)) (hc : ¬Text.isDigit c)
    (hline : c ≠ '\n') : Stops (· == c) rest := by
  simp only [fixed] at h
  split at h
  · rename_i hdigits
    cases h
    intro d hd
    rw [List.head?_drop, Option.mem_def] at hd
    rw [beq_iff_eq]
    rintro rfl
    rcases Nat.lt_trichotomy width (Nat.toDigits 10 n).length with hlt | heq | hgt
    · rw [List.getElem?_append_left hlt] at hd
      exact hc (isDigit_of_mem (List.mem_of_getElem? hd))
    · rw [List.getElem?_append_right (Nat.le_of_eq heq.symm), heq, Nat.sub_self] at hd
      exact hline (Option.some.inj hd).symm
    · have hmem : '\n' ∈ (Nat.toDigits 10 n ++ '\n' :: t).take width := by
        obtain ⟨more, rfl⟩ := Nat.exists_eq_add_of_lt hgt
        rw [Nat.add_assoc, List.take_length_add_append]
        exact List.mem_append_right _ List.mem_cons_self
      exact absurd (List.all_eq_true.1 hdigits.2 _ hmem) (by decide)
  · cases h

theorem date_toDigits (n : Nat) : date (Nat.toDigits 10 n ++ '\n' :: t) = none := by
  have hcalendar : calendarDate (Nat.toDigits 10 n ++ '\n' :: t) = none := by
    cases hyear : fixed 4 (Nat.toDigits 10 n ++ '\n' :: t) with
    | none => exact bind_of_none hyear
    | some year =>
      exact (bind_of_some hyear).trans
        (bind_of_none (literal_of_stops (stops_of_fixed hyear (by decide) (by decide))))
  have hclock : clockTime (Nat.toDigits 10 n ++ '\n' :: t) = none := by
    cases hhour : fixed 2 (Nat.toDigits 10 n ++ '\n' :: t) with
    | none => exact bind_of_none hhour
    | some hour =>
      exact (bind_of_some hhour).trans
        (bind_of_none (literal_of_stops (stops_of_fixed hhour (by decide) (by decide))))
  rw [date, orElse_of_none (bind_of_none hcalendar)]
  exact hclock

theorem number_toDigits {n : Nat} (hn : n < 0x8000000000000000) :
    number (Nat.toDigits 10 n ++ '\n' :: t) = some (.integer n, '\n' :: t) := by
  have hrun : run (fun c => isBare c || c == '+' || c == '.') (Nat.toDigits 10 n ++ '\n' :: t)
      = some (Nat.toDigits 10 n, '\n' :: t) := by
    refine run_append (fun c hc => ?_) (stops_cons (by decide))
    simp only [isBare_of_isDigit (isDigit_of_mem hc), Bool.true_or]
  rw [number, bind_of_some hrun]
  simp only [integer?_toDigits]
  rw [bind_of_some (guard_of ⟨by omega, by omega⟩)]
  rfl

theorem string_toDigits (n : Nat) : string (Nat.toDigits 10 n ++ t) = none := by
  have hquote : Stops (· == '"') (Nat.toDigits 10 n ++ t) := stops_toDigits_of_not n (by decide)
  have hapostrophe : Stops (· == '\'') (Nat.toDigits 10 n ++ t) :=
    stops_toDigits_of_not n (by decide)
  rw [string, orElse_of_none (longString_of_stops hquote),
    orElse_of_none (longLiteral_of_stops hapostrophe),
    orElse_of_none (basicString_of_stops hquote)]
  exact literalString_of_stops hapostrophe

theorem scalar_toDigits {n : Nat} (hn : n < 0x8000000000000000) :
    scalar (Nat.toDigits 10 n ++ '\n' :: t) = some (.integer n, '\n' :: t) := by
  have htrue : literal "true".toList (Nat.toDigits 10 n ++ '\n' :: t) = none :=
    literal_of_stops (c := 't') (stops_toDigits_of_not n (by decide))
  have hfalse : literal "false".toList (Nat.toDigits 10 n ++ '\n' :: t) = none :=
    literal_of_stops (c := 'f') (stops_toDigits_of_not n (by decide))
  rw [scalar, orElse_of_none (map_of_none (string_toDigits n)), orElse_of_none (bind_of_none htrue),
    orElse_of_none (bind_of_none hfalse), orElse_of_none (bind_of_none (date_toDigits n))]
  exact number_toDigits hn

end Stencil.Toml.Scan
