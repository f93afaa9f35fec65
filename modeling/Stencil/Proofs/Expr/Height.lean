import Stencil.Proofs.Expr.Printing
import Stencil.Proofs.Expr.Statements

/-!
# How deep evaluation goes

Evaluation recurses into the parts of an expression, so it goes as deep as the tree is high. The
limit on nesting counts parentheses, brackets and prefix operators. Operators of one level in a row
make a chain that it does not count, and so do suffixes in a row; each link of a chain sets all that
stands before it one step lower.

`heightBy` measures a tree with any weight on the steps along a chain: with weight one it is the
height, and with weight none it counts the steps that leave a chain. The bound on it is found by
induction on the derivation of the expression. An expression of a level is its own chain over
expressions of tighter levels, and only what is nested less deep starts with the loosest level again
(`Phrase.Fits`).

* `Expr.height_unbounded`: a chain can be of any length.
* `Expr.height_le_of_read`: the bound for all expressions and statements that are read.
-/

namespace Stencil

namespace Expr

/-! ## Heights and chains -/

mutual

/-- The height of an expression, where a step into the left operand of an operator or into the
object of a suffix counts `link`, and any other step counts one. -/
def heightBy (link : Nat) : Expr → Nat
  | array es => heightAllBy link es + 1
  | member object _ => heightBy link object + link
  | index object i => max (heightBy link object + link) (heightBy link i + 1)
  | unary _ e => heightBy link e + 1
  | binary _ left right => max (heightBy link left + link) (heightBy link right + 1)
  | _ => 1

/-- The height of the highest of the elements. -/
def heightAllBy (link : Nat) : List Expr → Nat
  | [] => 0
  | e :: es => max (heightBy link e) (heightAllBy link es)

end

/-- How deep evaluation recurses. -/
def height (e : Expr) : Nat := e.heightBy 1

/-- The number of operators of the level, or of suffixes if the level is theirs, that stand in a row
at the end of the expression. -/
def links (level : Nat) : Expr → Nat
  | member object _ => if level = 7 then links level object + 1 else 0
  | index object _ => if level = 7 then links level object + 1 else 0
  | binary op left _ => if op.level = level then links level left + 1 else 0
  | _ => 0

mutual

/-- The number of links of the longest chain anywhere in the expression. -/
def longestChain : Expr → Nat
  | array es => longestChainAll es
  | member object _ => max (links 7 object + 1) (longestChain object)
  | index object i => max (links 7 object + 1) (max (longestChain object) (longestChain i))
  | unary _ e => longestChain e
  | binary op left right =>
    max (links op.level left + 1) (max (longestChain left) (longestChain right))
  | _ => 0

def longestChainAll : List Expr → Nat
  | [] => 0
  | e :: es => max (longestChain e) (longestChainAll es)

end

theorem links_le_longestChain (level : Nat) (e : Expr) : links level e ≤ e.longestChain := by
  cases e with
  | member | index =>
    rw [links, longestChain]
    split
    · subst level
      omega
    · exact Nat.zero_le _
  | binary =>
    rw [links, longestChain]
    split
    · subst level
      omega
    · exact Nat.zero_le _
  | _ => exact Nat.zero_le _

/-! ## Derived expressions -/

/-- How high an expression can be that nests `n` deep and has no chain of more than `chain` links:
each level of nesting holds a chain for each of the eight levels of operators and suffixes. -/
def room (link chain n : Nat) : Nat := 8 * n * (link * chain + 1)

theorem room_succ (link chain n : Nat) :
    room link chain (n + 1) = room link chain n + 8 * (link * chain + 1) := by
  rw [room, room, Nat.mul_succ 8, Nat.add_mul]

theorem room_le (link chain : Nat) {m n : Nat} (h : m ≤ n) :
    room link chain m ≤ room link chain n :=
  Nat.mul_le_mul_right _ (Nat.mul_le_mul_left 8 h)

/-- How high a phrase is that nests so deep and has no chain of more than `chain` links. The links
of the phrase's own chain come on top of what the tighter levels, and then the deeper ones, can
hold. -/
def Phrase.Fits (link chain : Nat) : Phrase → (nesting : Nat) → Prop
  | .expr level e, n => e.longestChain ≤ chain →
    e.heightBy link + (level + 1) * (link * chain + 1)
      ≤ link * links level e + room link chain n + 1
  | .elements es, n => longestChainAll es ≤ chain → heightAllBy link es ≤ room link chain n

variable {link chain level n : Nat} {e : Expr} {phrase : Phrase} {lexemes : List Lexeme}

/-- The height with all links of the own chain. -/
theorem Phrase.Fits.le (h : (Phrase.expr level e).Fits link chain n)
    (hchain : e.longestChain ≤ chain) :
    e.heightBy link + level * (link * chain + 1) ≤ room link chain n := by
  have hlinks : link * links level e ≤ link * chain :=
    Nat.mul_le_mul_left link (Nat.le_trans (links_le_longestChain level e) hchain)
  have hheight := h hchain
  rw [Nat.succ_mul] at hheight
  omega

/-- What is derived is as high as its nesting and its chains allow. -/
theorem Derives.fits (link chain : Nat) (h : Derives phrase n lexemes) :
    phrase.Fits link chain n := by
  -- A step along the own chain is paid for by one more link, any other step by the room that a
  -- tighter level or a deeper nesting leaves.
  induction h with
  | @atom lexeme e h =>
    intro _
    have hheight : e.heightBy link = 1 := by cases h <;> rfl
    rw [room]
    omega
  | @parens e n _ h ih =>
    intro hchain
    have hinner := ih.le hchain
    have hroom := room_succ link chain n
    omega
  | emptyArray =>
    intro _
    rw [heightBy, heightAllBy, room]
    omega
  | @array es n _ _ hcomma h ih =>
    intro hchain
    have helements := ih hchain
    have hroom := room_succ link chain n
    rw [heightBy]
    omega
  | member name h ih =>
    intro hchain
    rw [longestChain] at hchain
    have hobject := ih (by omega)
    rw [heightBy, links, if_pos rfl, Nat.mul_succ link]
    omega
  | @index object i m n _ _ hobject hindex ihobject ihindex =>
    intro hchain
    rw [longestChain] at hchain
    have hfirst := ihobject (by omega)
    have hsecond := ihindex.le (by omega)
    have hroom := room_succ link chain n
    have hleft := room_le link chain (Nat.le_max_left m (n + 1))
    have hright := room_le link chain (Nat.le_max_right m (n + 1))
    rw [heightBy, links, if_pos rfl, Nat.mul_succ link]
    omega
  | @unary _ _ _ n _ hsign h ih =>
    intro hchain
    have hoperand := ih.le hchain
    have hroom := room_succ link chain n
    rw [heightBy]
    omega
  | @binary level sign op left right m n _ _ hsign hleft hright ihleft ihright =>
    intro hchain
    obtain rfl := hsign.level_eq
    rw [longestChain] at hchain
    have hfirst := ihleft (by omega)
    have hsecond := ihright.le (by omega)
    have hleft := room_le link chain (Nat.le_max_left m n)
    have hright := room_le link chain (Nat.le_max_right m n)
    rw [heightBy, links, if_pos rfl, Nat.mul_succ link]
    omega
  | tighter hlevel h ih =>
    intro hchain
    have hheight := ih.le hchain
    omega
  | single h ih =>
    intro hchain
    rw [longestChainAll] at hchain
    have hheight := ih.le (by omega)
    rw [heightAllBy, heightAllBy]
    omega
  | @more e es m n _ _ hfirst hrest ihfirst ihrest =>
    intro hchain
    rw [longestChainAll] at hchain
    have hheight := ihfirst.le (by omega)
    have hheights := ihrest (by omega)
    have hleft := room_le link chain (Nat.le_max_left m n)
    have hright := room_le link chain (Nat.le_max_right m n)
    rw [heightAllBy]
    omega

/-- The bound on what nests no deeper than the limit. -/
theorem Derives.heightBy_le (link : Nat) (h : Derives (.expr 0 e) n lexemes)
    (hn : n ≤ ExprError.maxNesting) :
    e.heightBy link ≤ room link e.longestChain ExprError.maxNesting := by
  have hheight := (h.fits link e.longestChain).le (Nat.le_refl _)
  have hroom := room_le link e.longestChain hn
  omega

end Expr

namespace Statement

/-! ## Statements -/

/-- The expression that is evaluated when the statement is executed. -/
def value : Statement → Expr
  | declare _ e => e
  | update _ e => e

/-- The value of a statement is an expression of lexemes that do not nest too deep, or it has such
an expression as its right operand and a variable as its left one. -/
def Reads (statement : Statement) : Prop :=
  ∃ e n lexemes, n ≤ ExprError.maxNesting ∧ Expr.Derives (.expr 0 e) n lexemes ∧
    (statement.value = e ∨ ∃ op name, statement.value = .binary op (.var name) e)

variable {t name : Text} {statement : Statement} {lexemes : List Lexeme}

theorem Change.reads (h : Change name lexemes statement) : statement.Reads := by
  have hread : ∀ {e lexemes}, Expr.Reads e lexemes →
      (statement.value = e ∨ ∃ op name, statement.value = .binary op (.var name) e) →
      statement.Reads := fun ⟨n, hn, hderives⟩ hvalue => ⟨_, n, _, hn, hderives, hvalue⟩
  cases h with
  | declare hreads => exact hread hreads (.inl rfl)
  | update _ hreads => exact hread hreads (.inr ⟨_, name, rfl⟩)
  | count => exact hread Expr.reads_one (.inr ⟨_, name, rfl⟩)

theorem reads_of_parse (h : parse t = .ok statement) : statement.Reads := by
  obtain ⟨lexemes, -, hderives⟩ := parse_iff_derives.1 h
  cases hderives with
  | mk _ hchange => exact hchange.reads

/-- The bound on the value of a statement, which is one higher than what is read if the statement
counts a variable up or down. -/
theorem Reads.heightBy_le (link : Nat) (hlink : link ≤ 1) (h : statement.Reads) :
    statement.value.heightBy link
      ≤ Expr.room link statement.value.longestChain ExprError.maxNesting + 1 := by
  obtain ⟨e, n, lexemes, hn, hderives, heq | ⟨op, name, heq⟩⟩ := h
  · have hbound := hderives.heightBy_le link hn
    rw [heq]
    omega
  · have hbound := hderives.heightBy_le link hn
    have hchain : e.longestChain ≤ statement.value.longestChain := by
      rw [heq, Expr.longestChain]
      omega
    have hroom : Expr.room link e.longestChain ExprError.maxNesting
        ≤ Expr.room link statement.value.longestChain ExprError.maxNesting :=
      Nat.mul_le_mul_left _ (Nat.succ_le_succ (Nat.mul_le_mul_left link hchain))
    have hpos : 0 < Expr.room link statement.value.longestChain ExprError.maxNesting :=
      Nat.mul_pos (by decide) (Nat.succ_pos _)
    have hvar : (Expr.var name).heightBy link = 1 := rfl
    rw [heq] at *
    rw [Expr.heightBy, hvar]
    omega

end Statement

namespace Expr

/-! ## Chains of any length -/

/-- Any expression that can be written and does not nest too deep is read from some text. -/
theorem Writable.exists_parse (h : e.Writable) (hnesting : e.nesting ≤ ExprError.maxNesting) :
    ∃ t, parse t = .ok e := by
  obtain ⟨lexemes, texts, hfills, hwritten⟩ := h.exists_texts
  have hgap : ∀ c ∈ [' '], Text.isBlank c := List.forall_mem_singleton.2 rfl
  have hscan : Lexeme.scan (Text.joinWith [' '] texts) = .ok lexemes :=
    Lexeme.scan_eq_ok_iff.2 (Lexeme.spelled_joinWith hwritten hgap (List.cons_ne_nil _ _))
  have hderives := (derives_slots e lexemes hfills).loosen e.level_le (Nat.zero_le _)
  exact ⟨_, (parse_eq_ok_of_scan_iff hscan).2 ⟨e.nesting, hnesting, hderives⟩⟩

/-- The sum of ones with so many plus signs. -/
def ones : Nat → Expr
  | 0 => .int .one
  | n + 1 => .binary .add (ones n) (.int .one)

theorem writable_ones : ∀ n, (ones n).Writable
  | 0 => Int.one_nonneg
  | n + 1 => ⟨writable_ones n, Int.one_nonneg⟩

theorem height_ones : ∀ n, (ones n).height = n + 1
  | 0 => rfl
  | n + 1 => by
    have ih := height_ones n
    unfold height at *
    have hone : (Expr.int .one).heightBy 1 = 1 := rfl
    rw [ones, heightBy, ih, hone]
    exact Nat.max_eq_left (by omega)

/-- Signs of one level do not nest. -/
theorem nesting_ones : ∀ n, (ones n).nesting = 1
  | 0 => rfl
  | 1 => rfl
  | n + 2 => by
    have ih := nesting_ones (n + 1)
    rw [ones, nesting, ih]
    rfl

/-- No number bounds the height of all that is read, since a chain of operators can be of any
length. -/
theorem height_unbounded : ¬∃ bound, (∀ t e, parse t = .ok e → e.height ≤ bound) ∧
    ∀ t statement, Statement.parse t = .ok statement → statement.value.height ≤ bound := by
  rintro ⟨bound, hbound, -⟩
  have hnesting : (ones bound).nesting ≤ ExprError.maxNesting := by
    rw [nesting_ones]
    decide
  obtain ⟨t, hparse⟩ := (writable_ones bound).exists_parse hnesting
  have hle := hbound t (ones bound) hparse
  rw [height_ones] at hle
  exact Nat.not_succ_le_self bound hle

/-- The steps that leave a chain are bounded for all that is read, whatever its length, and so is
the height of what has no long chains. A statement that counts a variable up or down evaluates one
more operator than it reads. -/
theorem height_le_of_read :
    (∀ t e, parse t = .ok e →
      e.heightBy 0 ≤ 8 * ExprError.maxNesting ∧
        e.height ≤ 8 * ExprError.maxNesting * (e.longestChain + 1)) ∧
    ∀ t statement, Statement.parse t = .ok statement →
      statement.value.heightBy 0 ≤ 8 * ExprError.maxNesting + 1 ∧
        statement.value.height
          ≤ 8 * ExprError.maxNesting * (statement.value.longestChain + 1) + 1 := by
  constructor
  · intro t e h
    obtain ⟨lexemes, n, -, hn, hderives⟩ := exists_scan_of_parse h
    have hleaving := hderives.heightBy_le 0 hn
    have hall := hderives.heightBy_le 1 hn
    rw [room, Nat.zero_mul] at hleaving
    rw [room, Nat.one_mul] at hall
    exact ⟨hleaving, hall⟩
  · intro t statement h
    have hreads := Statement.reads_of_parse h
    have hleaving := hreads.heightBy_le 0 (Nat.zero_le 1)
    have hall := hreads.heightBy_le 1 (Nat.le_refl 1)
    rw [room, Nat.zero_mul] at hleaving
    rw [room, Nat.one_mul] at hall
    exact ⟨hleaving, hall⟩

/-- A chain of three additions in the index of a chain of two suffixes, and a variable that is
counted up. -/
theorem height_le_of_read_chains :
    (∃ e, parse "a.b[1 + x + y + z]".toList = .ok e ∧ e.longestChain = 3 ∧ e.height = 5 ∧
      e.heightBy 0 ≤ 512 ∧ e.height ≤ 512 * (e.longestChain + 1)) ∧
    ∃ statement, Statement.parse "i += f.len * 2".toList = .ok statement ∧
      statement.value.height = 4 ∧ statement.value.heightBy 0 ≤ 513 := by
  have hchains : (match parse "a.b[1 + x + y + z]".toList with
      | .ok e => e.longestChain == 3 && e.height == 5
      | .error _ => false) = true := by decide +kernel
  have hcounts : (match Statement.parse "i += f.len * 2".toList with
      | .ok statement => statement.value.height == 4
      | .error _ => false) = true := by decide +kernel
  constructor
  · cases hparse : parse "a.b[1 + x + y + z]".toList with
    | error error =>
      rw [hparse] at hchains
      cases hchains
    | ok e =>
      rw [hparse, Bool.and_eq_true, beq_iff_eq, beq_iff_eq] at hchains
      have hle := height_le_of_read.1 _ e hparse
      exact ⟨e, rfl, hchains.1, hchains.2, hle⟩
  · cases hparse : Statement.parse "i += f.len * 2".toList with
    | error error =>
      rw [hparse] at hcounts
      cases hcounts
    | ok statement =>
      rw [hparse, beq_iff_eq] at hcounts
      have hle := height_le_of_read.2 _ statement hparse
      exact ⟨statement, rfl, hcounts, hle.1⟩

end Expr

end Stencil
