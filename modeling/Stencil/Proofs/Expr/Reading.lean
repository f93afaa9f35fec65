import Stencil.Expr.Read
import Stencil.Proofs.Expr.Grammar

/-!
# The readers of expressions follow the grammar

What a reader reads is a derivation (`Reader.Sound`), by induction on the levels of nesting that are
left; within one nesting, each reader is sound if those that it calls are.

The other way, induction is on the derivation. An expression that the grammar puts at a level is
read by the reader of that level, which then goes on with what follows: with operators of the level,
or with suffixes (`Reader.goOn`). It stops there if what follows does not extend the expression
(`Reader.Ends`).

* `Reader.sound_exprAt`: what is read is derived.
* `Reader.completes`: what is derived is read.
* `Expr.parse_eq_ok_of_scan_iff`: both, for a whole text.
-/

namespace Stencil.Reader

open Stencil.Expr

variable {level limit n : Nat} {inner operand reader : Reader Expr} {closing : Symbol}
  {e left object : Expr} {es done : List Expr} {before lexemes rest : List Lexeme}

/-- The reader of operands of prefix operators, when `n` levels of nesting are left. -/
def operandAt : Nat → Reader Expr
  | 0 => tooDeep
  | n + 1 => unaryAt n

theorem unaryAt_eq (n : Nat) : unaryAt n = unary (operandAt n) (exprAt n) := by
  cases n <;> rfl

/-! ## What is read is derived -/

/-- Everything that the reader reads is an expression of the level that nests at most so deep. -/
def Sound (limit level : Nat) (reader : Reader Expr) : Prop :=
  ∀ ⦃lexemes : List Lexeme⦄ ⦃e : Expr⦄ ⦃rest : List Lexeme⦄, reader.read lexemes = .ok (e, rest) →
    ∃ used n, lexemes = used ++ rest ∧ n ≤ limit ∧ Expr.Derives (.expr level e) n used

theorem sound_tooDeep : Sound limit level tooDeep := by
  intro lexemes e rest h
  cases h

theorem Sound.chain (hoperand : Sound limit (level + 1) operand)
    (hleft : Expr.Derives (.expr level left) n before) (hn : n ≤ limit)
    (hread : chain operand level left lexemes = .ok (e, rest)) :
    ∃ used n, lexemes = used ++ rest ∧ n ≤ limit ∧
      Expr.Derives (.expr level e) n (before ++ used) := by
  fun_induction Reader.chain operand level left lexemes generalizing n before with
  | case1 =>
    cases hread
    exact ⟨[], n, rfl, hn, by rwa [List.append_nil]⟩
  | case2 =>
    cases hread
    exact ⟨[], n, rfl, hn, by rwa [List.append_nil]⟩
  | case3 => cases hread
  | case4 left sign lexemes op hop right rest' hfound _ ih =>
    obtain ⟨used, m, rfl, hm, hright⟩ := hoperand hfound
    have hjoined := Expr.Derives.binary (atLevel?_eq_some_iff.1 hop) hleft hright
    obtain ⟨used', n', rfl, hn', hderives⟩ := ih hjoined (by omega) hread
    refine ⟨sign :: (used ++ used'), n', by simp, hn', ?_⟩
    simpa using hderives

theorem Sound.leftGrouped (hlevel : level < 7) (hoperand : Sound limit (level + 1) operand) :
    Sound limit level (leftGrouped level operand) := by
  intro lexemes e rest h
  simp only [Reader.leftGrouped] at h
  split at h
  · cases h
  · rename_i left rest' hfound
    obtain ⟨used, n, rfl, hn, hleft⟩ := hoperand hfound
    obtain ⟨used', n', rfl, hn', hderives⟩ := hoperand.chain (.tighter hlevel hleft) hn h
    exact ⟨used ++ used', n', by simp, hn', hderives⟩

/-- All six levels of operators with two operands. -/
theorem Sound.binary (hoperand : Sound limit 6 operand) : Sound limit 0 (binary operand) :=
  (((((hoperand.leftGrouped (by decide)).leftGrouped (by decide)).leftGrouped
    (by decide)).leftGrouped (by decide)).leftGrouped (by decide)).leftGrouped (by decide)

theorem expect_eq_ok_iff : expect closing lexemes = .ok rest ↔
    lexemes = .symbol closing :: rest := by
  cases lexemes with
  | nil => simp [expect]
  | cons lexeme lexemes =>
    rw [expect, List.cons.injEq]
    by_cases hclosing : lexeme = .symbol closing
    · simp [hclosing]
    · simp [hclosing]

theorem enclosed_eq_ok_iff : enclosed inner closing lexemes = .ok (e, rest) ↔
    inner.read lexemes = .ok (e, .symbol closing :: rest) := by
  unfold enclosed
  constructor
  · intro h
    split at h
    · cases h
    · rename_i hread
      split at h
      · cases h
      · rename_i hclosing
        cases h
        rw [hread, expect_eq_ok_iff.1 hclosing]
  · intro h
    rw [h]
    simp only [expect_eq_ok_iff.2 rfl]

theorem Sound.enclosed (hinner : Sound limit 0 inner)
    (h : enclosed inner closing lexemes = .ok (e, rest)) :
    ∃ used n, lexemes = used ++ .symbol closing :: rest ∧ n ≤ limit ∧
      Expr.Derives (.expr 0 e) n used :=
  hinner (enclosed_eq_ok_iff.1 h)

theorem Sound.elements (hinner : Sound limit 0 inner)
    (h : elements inner done lexemes = .ok (es, rest)) :
    (es = done.reverse ∧ lexemes = .symbol .rightBracket :: rest) ∨
      ∃ es' used comma n, es = done.reverse ++ es' ∧
        lexemes = used ++ (comma ++ .symbol .rightBracket :: rest) ∧
        (comma = [] ∨ comma = [.symbol .comma]) ∧ n ≤ limit ∧
        Expr.Derives (.elements es') n used := by
  fun_induction Reader.elements inner done lexemes with
  | case1 =>
    cases h
    exact .inl ⟨rfl, rfl⟩
  | case2 => cases h
  | case3 done lexemes _ e rest' hfound _ ih =>
    obtain ⟨used, n, rfl, hn, hfirst⟩ := hinner hfound
    rcases ih h with ⟨rfl, rfl⟩ | ⟨es', used', comma, n', rfl, rfl, hcomma, hn', hrest⟩
    · exact .inr ⟨[e], used, [.symbol .comma], n, by simp, by simp, .inr rfl, hn, .single hfirst⟩
    · exact .inr ⟨e :: es', used ++ .symbol .comma :: used', comma, max n n', by simp, by simp,
        hcomma, by omega, .more hfirst hrest⟩
  | case4 done lexemes _ e rest' hfound =>
    cases h
    obtain ⟨used, n, rfl, hn, hfirst⟩ := hinner hfound
    exact .inr ⟨[e], used, [], n, by simp, by simp, .inl rfl, hn, .single hfirst⟩
  | case5 => cases h

theorem Sound.suffixes (hinner : Sound limit 0 inner)
    (hobject : Expr.Derives (.expr 7 object) n before) (hn : n ≤ limit + 1)
    (h : suffixes inner object lexemes = .ok (e, rest)) :
    ∃ used n, lexemes = used ++ rest ∧ n ≤ limit + 1 ∧
      Expr.Derives (.expr 7 e) n (before ++ used) := by
  fun_induction Reader.suffixes inner object lexemes generalizing n before with
  | case1 object name lexemes ih =>
    obtain ⟨used, n', rfl, hn', hderives⟩ := ih (.member name hobject) hn h
    refine ⟨.symbol .dot :: .name name :: used, n', by simp, hn', ?_⟩
    simpa using hderives
  | case2 => cases h
  | case3 => cases h
  | case4 object lexemes i rest' hfound _ ih =>
    obtain ⟨used, m, rfl, hm, hindex⟩ := hinner.enclosed hfound
    obtain ⟨used', n', rfl, hn', hderives⟩ := ih (.index hobject hindex) (by omega) h
    refine ⟨.symbol .leftBracket :: (used ++ .symbol .rightBracket :: used'), n', by simp, hn', ?_⟩
    simpa using hderives
  | case5 =>
    cases h
    exact ⟨[], n, rfl, hn, by rwa [List.append_nil]⟩

theorem Sound.atom (hinner : Sound limit 0 inner) : Sound (limit + 1) 7 (atom inner) := by
  intro lexemes e rest h
  simp only [Reader.atom] at h
  split at h
  case h_7 =>
    obtain ⟨used, n, rfl, hn, hderives⟩ := hinner.enclosed h
    refine ⟨.symbol .leftParen :: (used ++ [.symbol .rightParen]), n + 1, by simp, by omega,
      .parens hderives⟩
  case h_8 =>
    split at h
    · cases h
    · rename_i hfound
      cases h
      rcases hinner.elements hfound with ⟨rfl, rfl⟩ |
        ⟨es, used, comma, n, rfl, rfl, hcomma, hn, hderives⟩
      · exact ⟨_, 1, rfl, by omega, .emptyArray⟩
      · refine ⟨.symbol .leftBracket :: (used ++ (comma ++ [.symbol .rightBracket])), n + 1, ?_,
          by omega, .array hcomma hderives⟩
        simp
  case h_9 => cases h
  all_goals
    cases h
    refine ⟨[_], 1, rfl, by omega, .atom ?_⟩
    constructor

theorem Sound.primary (hinner : Sound limit 0 inner) : Sound (limit + 1) 7 (primary inner) := by
  intro lexemes e rest h
  simp only [Reader.primary] at h
  split at h
  · cases h
  · rename_i object rest' hfound
    obtain ⟨used, n, rfl, hn, hobject⟩ := hinner.atom hfound
    obtain ⟨used', n', rfl, hn', hderives⟩ := hinner.suffixes hobject hn h
    exact ⟨used ++ used', n', by simp, hn', hderives⟩

theorem Sound.unary (hoperand : Sound limit 6 operand) (hinner : Sound limit 0 inner) :
    Sound (limit + 1) 6 (unary operand inner) := by
  intro lexemes e rest h
  simp only [Reader.unary] at h
  split at h
  · rename_i op hop
    obtain ⟨sign, hhead, hsign⟩ := Option.bind_eq_some_iff.1 hop
    obtain ⟨lexemes, rfl⟩ := List.head?_eq_some_iff.1 hhead
    split at h
    · cases h
    · rename_i hfound
      cases h
      obtain ⟨used, n, hsplit, hn, hderives⟩ := hoperand hfound
      rw [List.tail_cons] at hsplit
      exact ⟨sign :: used, n + 1, by simp [hsplit], by omega,
        .unary (unaryOfLexeme?_eq_some_iff.1 hsign) hderives⟩
  · obtain ⟨used, n, rfl, hn, hderives⟩ := hinner.primary h
    exact ⟨used, n, rfl, hn, .tighter (by decide) hderives⟩

theorem sound_unaryAt (n : Nat) : Sound (n + 1) 6 (unaryAt n) := by
  induction n with
  | zero => exact sound_tooDeep.unary sound_tooDeep
  | succ n ih => exact ih.unary ih.binary

/-- What is read when `n` levels of nesting are left nests at most so deep. -/
theorem sound_exprAt (n : Nat) : Sound n 0 (exprAt n) := by
  cases n with
  | zero => exact sound_tooDeep
  | succ n => exact (sound_unaryAt n).binary

/-! ## What is derived is read -/

/-- The reader of a level, when `n` more levels of nesting are left. -/
def atLevel (n : Nat) : (level : Nat) → Reader Expr
  | 7 => primary (exprAt n)
  | level => ([0, 1, 2, 3, 4, 5].drop level).foldr leftGrouped (unaryAt n)

theorem atLevel_of_lt (n : Nat) (hlevel : level < 6) :
    atLevel n level = leftGrouped level (atLevel n (level + 1)) := by
  match level, hlevel with
  | 0, _ | 1, _ | 2, _ | 3, _ | 4, _ | 5, _ => rfl

/-- How the reader of a level goes on after an expression that it has read. -/
def goOn (n : Nat) : (level : Nat) → Expr → List Lexeme → Except ExprError (Expr × List Lexeme)
  | 6, e, lexemes => .ok (e, lexemes)
  | 7, e, lexemes => suffixes (exprAt n) e lexemes
  | level, e, lexemes => chain (atLevel n (level + 1)) level e lexemes

theorem goOn_of_lt (n : Nat) (hlevel : level < 6) :
    goOn n level e lexemes = chain (atLevel n (level + 1)) level e lexemes := by
  match level, hlevel with
  | 0, _ | 1, _ | 2, _ | 3, _ | 4, _ | 5, _ => rfl

/-- The lexemes that go on with an expression of the level, or of a tighter one. -/
inductive Extends (level : Nat) : Lexeme → Prop
  | sign {k : Nat} {lexeme : Lexeme} {op : BinaryOp} (hsign : BinarySign k lexeme op)
      (hlevel : level ≤ k) : Extends level lexeme
  | dot (hlevel : level ≤ 7) : Extends level (.symbol .dot)
  | bracket (hlevel : level ≤ 7) : Extends level (.symbol .leftBracket)

/-- An expression of the level, or of a tighter one, does not go on here. -/
def Ends (level : Nat) (rest : List Lexeme) : Prop := ∀ lexeme ∈ rest.head?, ¬Extends level lexeme

theorem Ends.succ (h : Ends level rest) : Ends (level + 1) rest := by
  intro lexeme hlexeme hextends
  apply h lexeme hlexeme
  cases hextends with
  | sign hsign hlevel => exact .sign hsign (by omega)
  | dot hlevel => exact .dot (by omega)
  | bracket hlevel => exact .bracket (by omega)

theorem ends_nil : Ends level [] := by
  intro lexeme hlexeme
  cases Option.not_mem_none _ hlexeme

theorem ends_eight : Ends 8 rest := by
  rintro lexeme - hextends
  cases hextends with
  | sign hsign hlevel => exact absurd hsign.lt (by omega)
  | dot hlevel | bracket hlevel => omega

theorem chain_of_sign {sign : Lexeme} {op : BinaryOp} {right : Expr} {later : List Lexeme}
    (hsign : BinarySign level sign op) (hright : operand.read lexemes = .ok (right, later)) :
    chain operand level left (sign :: lexemes)
      = chain operand level (.binary op left right) later := by
  rw [chain.eq_def]
  simp only [atLevel?_eq_some_iff.2 hsign]
  split
  · rename_i hfound
    rw [hright] at hfound
    cases hfound
  · rename_i hfound
    rw [hright] at hfound
    cases hfound
    rfl

theorem chain_of_ends (h : Ends level rest) : chain operand level e rest = .ok (e, rest) := by
  cases rest with
  | nil => rw [chain]
  | cons lexeme rest =>
    have hnone : BinaryOp.atLevel? level lexeme = none := by
      rw [Option.eq_none_iff_forall_not_mem]
      intro op hop
      exact h lexeme rfl (.sign (atLevel?_eq_some_iff.1 hop) (Nat.le_refl _))
    rw [chain.eq_def]
    simp only [hnone]

theorem suffixes_of_ends (h : Ends 7 rest) : suffixes inner e rest = .ok (e, rest) := by
  rw [suffixes.eq_def]
  split
  · exact absurd (.dot (Nat.le_refl _)) (h _ rfl)
  · exact absurd (.dot (Nat.le_refl _)) (h _ rfl)
  · exact absurd (.bracket (Nat.le_refl _)) (h _ rfl)
  · rfl

theorem suffixes_bracket {i : Expr}
    (hindex : enclosed inner .rightBracket lexemes = .ok (i, rest)) :
    suffixes inner object (.symbol .leftBracket :: lexemes)
      = suffixes inner (.index object i) rest := by
  rw [suffixes.eq_def]
  simp only
  split
  · rename_i hfound
    rw [hindex] at hfound
    cases hfound
  · rename_i hfound
    rw [hindex] at hfound
    cases hfound
    rfl

/-- Where an expression does not go on, its reader stops. -/
theorem goOn_of_ends (hlevel : level ≤ 7) (h : Ends level rest) :
    goOn n level e rest = .ok (e, rest) := by
  by_cases hlt : level < 6
  · rw [goOn_of_lt n hlt, chain_of_ends h]
  · obtain rfl | rfl : level = 6 ∨ level = 7 := by omega
    · rfl
    · exact suffixes_of_ends h

/-- How elements are read on after one of them, which a comma follows or the closing bracket. -/
theorem elements_comma (hhead : ∀ later, lexemes ≠ .symbol .rightBracket :: later)
    (hread : inner.read lexemes = .ok (e, .symbol .comma :: rest)) :
    elements inner done lexemes = elements inner (e :: done) rest := by
  rw [elements.eq_def]
  split
  · exact absurd rfl (hhead _)
  · split
    all_goals
      rename_i hfound
      rw [hread] at hfound
      cases hfound
    · rfl
    · rename_i hcomma _
      exact absurd rfl (hcomma rest)

theorem elements_bracket (hhead : ∀ later, lexemes ≠ .symbol .rightBracket :: later)
    (hread : inner.read lexemes = .ok (e, .symbol .rightBracket :: rest)) :
    elements inner done lexemes = .ok ((e :: done).reverse, rest) := by
  rw [elements.eq_def]
  split
  · exact absurd rfl (hhead _)
  · split
    all_goals
      rename_i hfound
      rw [hread] at hfound
      cases hfound
    · rfl
    · rename_i hbracket
      exact absurd rfl (hbracket rest)

/-- The readers read the phrase off these lexemes if enough levels of nesting are left, whatever
follows. -/
def Completes : Expr.Phrase → (nesting : Nat) → List Lexeme → Prop
  | .expr level e, n, lexemes => ∀ m rest, n ≤ m + 1 → Ends (level + 1) rest →
      (atLevel m level).read (lexemes ++ rest) = goOn m level e rest
  | .elements es, n, lexemes => ∀ m done rest, n ≤ m →
      elements (exprAt m) done (lexemes ++ .symbol .rightBracket :: rest)
          = .ok (done.reverse ++ es, rest) ∧
        elements (exprAt m) done (lexemes ++ .symbol .comma :: rest)
          = elements (exprAt m) (es.reverse ++ done) rest

variable {m : Nat}

/-- An expression is read to its end where it is enclosed. -/
theorem Completes.exprAt (h : Completes (.expr 0 e) n lexemes) (hpos : 1 ≤ n) (hn : n ≤ m)
    (hrest : Ends 0 rest) : (exprAt m).read (lexemes ++ rest) = .ok (e, rest) := by
  obtain ⟨m, rfl⟩ := Nat.exists_eq_add_of_le' (Nat.le_trans hpos hn)
  have hread := h m rest hn hrest.succ
  rwa [goOn_of_ends (by decide) hrest] at hread

theorem Completes.operandAt (h : Completes (.expr 6 e) n lexemes) (hpos : 1 ≤ n) (hn : n ≤ m)
    (hrest : Ends 7 rest) : (operandAt m).read (lexemes ++ rest) = .ok (e, rest) := by
  obtain ⟨m, rfl⟩ := Nat.exists_eq_add_of_le' (Nat.le_trans hpos hn)
  exact h m rest hn hrest

theorem ends_symbol (hclosing : closing ∈ [.rightParen, .rightBracket, .comma]) :
    Ends level (.symbol closing :: rest) := by
  rintro lexeme ⟨⟩ hextends
  generalize hsign : Lexeme.symbol closing = sign at hextends
  cases hextends with
  | sign hbinary =>
    subst hsign
    cases hbinary <;> simp at hclosing
  | dot | bracket =>
    cases hsign
    simp at hclosing

theorem Completes.enclosed (h : Completes (.expr 0 e) n lexemes) (hpos : 1 ≤ n) (hn : n ≤ m)
    (hclosing : closing ∈ [.rightParen, .rightBracket, .comma]) :
    enclosed (Reader.exprAt m) closing (lexemes ++ .symbol closing :: rest) = .ok (e, rest) :=
  enclosed_eq_ok_iff.2 (h.exprAt hpos hn (ends_symbol hclosing))

/-- An operator of the level ends the operand to the left of it. -/
theorem ends_sign {sign : Lexeme} {op : BinaryOp} (hsign : BinarySign level sign op) :
    Ends (level + 1) (sign :: rest) := by
  rintro lexeme ⟨⟩ hextends
  cases hextends with
  | sign hsign' hlevel =>
    have := hsign.level_unique hsign'
    omega
  | dot | bracket => cases hsign

theorem atom_bracket (h : elements inner [] lexemes = .ok (es, rest)) :
    (atom inner).read (.symbol .leftBracket :: lexemes) = .ok (.array es, rest) := by
  simp only [Reader.atom, h]

/-- An atom, then its suffixes. -/
theorem Completes.of_atom (h : ∀ m rest, n ≤ m + 1 →
    (atom (Reader.exprAt m)).read (lexemes ++ rest) = .ok (e, rest)) :
    Completes (.expr 7 e) n lexemes := by
  intro m rest hn _
  show (primary (Reader.exprAt m)).read (lexemes ++ rest) = suffixes (Reader.exprAt m) e rest
  simp only [primary, h m rest hn]

theorem Completes.tighter (hlevel : level < 7)
    (hderives : Expr.Derives (.expr (level + 1) e) n lexemes)
    (h : Completes (.expr (level + 1) e) n lexemes) : Completes (.expr level e) n lexemes := by
  intro m rest hn hrest
  have hread := h m rest hn hrest.succ
  rw [goOn_of_ends (by omega) hrest] at hread
  by_cases hlt : level < 6
  · rw [atLevel_of_lt m hlt, goOn_of_lt m hlt]
    simp only [Reader.leftGrouped, hread]
  · obtain rfl : level = 6 := by omega
    obtain ⟨first, later, rfl, -, hsign⟩ := hderives.head
    have hnone : UnaryOp.ofLexeme? first = none := by
      rw [Option.eq_none_iff_forall_not_mem]
      exact fun op hop => hsign e rfl op (unaryOfLexeme?_eq_some_iff.1 hop)
    show (unaryAt m).read (first :: (later ++ rest)) = .ok (e, rest)
    rw [unaryAt_eq]
    simp only [Reader.unary, List.head?_cons, Option.bind_some, hnone]
    exact hread

theorem Completes.binary {sign : Lexeme} {op : BinaryOp} {right : Expr} {k : Nat}
    {first second : List Lexeme} (hsign : BinarySign level sign op)
    (hleft : Completes (.expr level left) k first)
    (hright : Completes (.expr (level + 1) right) n second) :
    Completes (.expr level (.binary op left right)) (max k n) (first ++ sign :: second) := by
  intro m rest hn hrest
  have hlevel := hsign.lt
  have hread := hright m rest (by omega) hrest.succ
  rw [goOn_of_ends (by omega) hrest] at hread
  rw [List.append_assoc, List.cons_append, hleft m _ (by omega) (ends_sign hsign),
    goOn_of_lt m hlevel, goOn_of_lt m hlevel, chain_of_sign hsign hread]

theorem Completes.unary {sign : Lexeme} {op : UnaryOp} (hsign : UnarySign sign op)
    (hpos : 1 ≤ n) (h : Completes (.expr 6 e) n lexemes) :
    Completes (.expr 6 (.unary op e)) (n + 1) (sign :: lexemes) := by
  intro m rest hn hrest
  have hread := h.operandAt hpos (Nat.le_of_succ_le_succ hn) hrest
  show (unaryAt m).read (sign :: (lexemes ++ rest)) = .ok (.unary op e, rest)
  rw [unaryAt_eq]
  simp only [Reader.unary, List.head?_cons, Option.bind_some, unaryOfLexeme?_eq_some_iff.2 hsign,
    List.tail_cons, hread]

/-- What the grammar derives is read. -/
theorem completes {phrase : Expr.Phrase} (h : Expr.Derives phrase n lexemes) :
    Completes phrase n lexemes := by
  induction h with
  | @atom lexeme e h =>
    refine .of_atom fun m rest _ => ?_
    cases h <;> rfl
  | parens h ih =>
    refine .of_atom fun m rest hn => ?_
    rw [List.cons_append, List.append_assoc]
    exact ih.enclosed h.pos (by omega) (by decide)
  | emptyArray =>
    refine .of_atom fun m rest _ => atom_bracket ?_
    show elements (Reader.exprAt m) [] (.symbol .rightBracket :: rest) = _
    rw [elements]
    rfl
  | @array es n lexemes comma hcomma h ih =>
    refine .of_atom fun m rest hn => ?_
    rw [List.cons_append]
    apply atom_bracket
    rw [List.append_assoc, List.append_assoc]
    rcases hcomma with rfl | rfl
    · exact (ih m [] rest (by omega)).1
    · have hmore := (ih m [] (.symbol .rightBracket :: rest) (by omega)).2
      rw [elements, List.append_nil, List.reverse_reverse] at hmore
      exact hmore
  | member name h ih =>
    intro m rest hn _
    rw [List.append_assoc, ih m _ hn ends_eight]
    show suffixes _ _ _ = suffixes _ _ _
    rw [List.cons_append, List.cons_append, suffixes]
    rfl
  | @index object i k n first second hobject hindex ihobject ihindex =>
    intro m rest hn _
    have hread : Reader.enclosed (Reader.exprAt m) .rightBracket
        (second ++ .symbol .rightBracket :: rest) = .ok (i, rest) :=
      ihindex.enclosed hindex.pos (by omega) (by decide)
    rw [List.append_assoc, ihobject m _ (by omega) ends_eight, List.cons_append, List.append_assoc]
    exact suffixes_bracket hread
  | unary hsign h ih => exact ih.unary hsign h.pos
  | binary hsign _ _ ihleft ihright => exact .binary hsign ihleft ihright
  | tighter hlevel h ih => exact ih.tighter hlevel h
  | @single e n lexemes h ih =>
    intro m done rest hn
    constructor
    · rw [elements_bracket (h.append_ne _) (ih.exprAt h.pos hn (ends_symbol (by decide))),
        List.reverse_cons]
    · exact elements_comma (h.append_ne _) (ih.exprAt h.pos hn (ends_symbol (by decide)))
  | @more e es k n first second hfirst hrest ihfirst ihrest =>
    intro m done rest hn
    have hcomma : ∀ later, elements (Reader.exprAt m) done (first ++ .symbol .comma :: later)
        = elements (Reader.exprAt m) (e :: done) later := fun later =>
      elements_comma (hfirst.append_ne _)
        (ihfirst.exprAt hfirst.pos (by omega) (ends_symbol (by decide)))
    obtain ⟨hlast, hmore⟩ := ihrest m (e :: done) rest (by omega)
    constructor
    · rw [List.append_assoc, List.cons_append, hcomma, hlast, List.reverse_cons, List.append_assoc]
      rfl
    · rw [List.append_assoc, List.cons_append, hcomma, hmore, List.reverse_cons, List.append_assoc]
      rfl

end Stencil.Reader

namespace Stencil.Expr

variable {t : Text} {lexemes : List Lexeme} {e : Expr}

/-- A text is the expression that its lexemes derive, if they do not nest too deep. -/
theorem parse_eq_ok_of_scan_iff (hscan : Lexeme.scan t = .ok lexemes) :
    parse t = .ok e ↔ ∃ n, n ≤ ExprError.maxNesting ∧ Expr.Derives (.expr 0 e) n lexemes := by
  rw [parse, Reader.all, hscan]
  constructor
  · intro h
    simp only at h
    split at h
    · cases h
    · rename_i hread
      cases h
      obtain ⟨used, n, rfl, hn, hderives⟩ := Reader.sound_exprAt ExprError.maxNesting hread
      rw [List.append_nil]
      exact ⟨n, hn, hderives⟩
    · cases h
  · rintro ⟨n, hn, hderives⟩
    have hread : Reader.expr.read (lexemes ++ []) = .ok (e, []) :=
      (Reader.completes hderives).exprAt hderives.pos hn Reader.ends_nil
    rw [List.append_nil] at hread
    simp only [hread]

/-- A text that is an expression has lexemes that derive it. -/
theorem exists_scan_of_parse (h : parse t = .ok e) : ∃ lexemes n,
    Lexeme.scan t = .ok lexemes ∧ n ≤ ExprError.maxNesting ∧ Derives (.expr 0 e) n lexemes := by
  cases hscan : Lexeme.scan t with
  | error error =>
    rw [parse, Reader.all, hscan] at h
    cases h
  | ok lexemes =>
    obtain ⟨n, hn, hderives⟩ := (parse_eq_ok_of_scan_iff hscan).1 h
    exact ⟨lexemes, n, rfl, hn, hderives⟩

end Stencil.Expr
