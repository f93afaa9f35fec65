import Stencil.Expr.Basic

/-!
# The grammar of expressions

Which lexemes are which expression (`Expr.Derives`). An expression stands at a level: `or` stands
at level 0, the other operators with two operands at 1 to 5, prefix operators at 6, and an atom with
its suffixes at 7. What stands at one level may stand at all looser ones. All operators with two
operands group to the left, since only their left operand may be of the same level.

A derivation also counts how deep it nests: one level for the whole, and one more within each pair
of parentheses or brackets and after each prefix operator.
-/

namespace Stencil.Expr

/-- The signs between two operands, with their level and the operator that they stand for. -/
inductive BinarySign : (level : Nat) → Lexeme → BinaryOp → Prop
  | or : BinarySign 0 (.reserved .or) .or
  | eitherOr : BinarySign 0 (.symbol .eitherOr) .or
  | and : BinarySign 1 (.reserved .and) .and
  | bothAnd : BinarySign 1 (.symbol .bothAnd) .and
  | equal : BinarySign 2 (.symbol .equal) .eq
  | notEqual : BinarySign 2 (.symbol .notEqual) .ne
  | less : BinarySign 3 (.symbol .less) .lt
  | atMost : BinarySign 3 (.symbol .atMost) .le
  | greater : BinarySign 3 (.symbol .greater) .gt
  | atLeast : BinarySign 3 (.symbol .atLeast) .ge
  | plus : BinarySign 4 (.symbol .plus) .add
  | minus : BinarySign 4 (.symbol .minus) .sub
  | star : BinarySign 5 (.symbol .star) .mul
  | slash : BinarySign 5 (.symbol .slash) .div
  | percent : BinarySign 5 (.symbol .percent) .rem

/-- The signs before an operand, with the operator that they stand for. -/
inductive UnarySign : Lexeme → UnaryOp → Prop
  | bang : UnarySign (.symbol .bang) .not
  | not : UnarySign (.reserved .not) .not
  | minus : UnarySign (.symbol .minus) .neg

/-- The lexemes that are an expression by themselves. -/
inductive Atom : Lexeme → Expr → Prop
  | string (content : Text) : Atom (.string content) (.string content)
  | int (value : Word) : Atom (.int value) (.int value)
  | true : Atom (.reserved .true) (.bool Bool.true)
  | false : Atom (.reserved .false) (.bool Bool.false)
  | null : Atom (.reserved .null) .null
  | name (name : Text) : Atom (.name name) (.var name)

/-- What lexemes can be read as: an expression of a level, or the elements of an array, of which
there is at least one. -/
inductive Phrase
  | expr (level : Nat) (e : Expr)
  | elements (es : List Expr)

/-- The lexemes are the phrase, and nest so deep. -/
inductive Derives : Phrase → (nesting : Nat) → List Lexeme → Prop
  | atom {lexeme : Lexeme} {e : Expr} (h : Atom lexeme e) : Derives (.expr 7 e) 1 [lexeme]
  | parens {e : Expr} {n : Nat} {lexemes : List Lexeme} (h : Derives (.expr 0 e) n lexemes) :
      Derives (.expr 7 e) (n + 1) (.symbol .leftParen :: (lexemes ++ [.symbol .rightParen]))
  | emptyArray : Derives (.expr 7 (.array [])) 1 [.symbol .leftBracket, .symbol .rightBracket]
  /-- A comma may follow the last element. -/
  | array {es : List Expr} {n : Nat} {lexemes comma : List Lexeme}
      (hcomma : comma = [] ∨ comma = [.symbol .comma]) (h : Derives (.elements es) n lexemes) :
      Derives (.expr 7 (.array es)) (n + 1)
        (.symbol .leftBracket :: (lexemes ++ (comma ++ [.symbol .rightBracket])))
  | member {object : Expr} {n : Nat} {lexemes : List Lexeme} (name : Text)
      (h : Derives (.expr 7 object) n lexemes) :
      Derives (.expr 7 (.member object name)) n (lexemes ++ [.symbol .dot, .name name])
  | index {object i : Expr} {m n : Nat} {first second : List Lexeme}
      (hobject : Derives (.expr 7 object) m first) (hindex : Derives (.expr 0 i) n second) :
      Derives (.expr 7 (.index object i)) (max m (n + 1))
        (first ++ .symbol .leftBracket :: (second ++ [.symbol .rightBracket]))
  | unary {sign : Lexeme} {op : UnaryOp} {e : Expr} {n : Nat} {lexemes : List Lexeme}
      (hsign : UnarySign sign op) (h : Derives (.expr 6 e) n lexemes) :
      Derives (.expr 6 (.unary op e)) (n + 1) (sign :: lexemes)
  | binary {level : Nat} {sign : Lexeme} {op : BinaryOp} {left right : Expr} {m n : Nat}
      {first second : List Lexeme} (hsign : BinarySign level sign op)
      (hleft : Derives (.expr level left) m first)
      (hright : Derives (.expr (level + 1) right) n second) :
      Derives (.expr level (.binary op left right)) (max m n) (first ++ sign :: second)
  | tighter {level : Nat} {e : Expr} {n : Nat} {lexemes : List Lexeme} (hlevel : level < 7)
      (h : Derives (.expr (level + 1) e) n lexemes) : Derives (.expr level e) n lexemes
  | single {e : Expr} {n : Nat} {lexemes : List Lexeme} (h : Derives (.expr 0 e) n lexemes) :
      Derives (.elements [e]) n lexemes
  | more {e : Expr} {es : List Expr} {m n : Nat} {first second : List Lexeme}
      (hfirst : Derives (.expr 0 e) m first) (hrest : Derives (.elements es) n second) :
      Derives (.elements (e :: es)) (max m n) (first ++ .symbol .comma :: second)

variable {level k n : Nat} {lexeme : Lexeme} {op op' : BinaryOp} {phrase : Phrase} {e : Expr}
  {lexemes : List Lexeme}

/-! ## Signs -/

theorem atLevel?_eq_some_iff : BinaryOp.atLevel? level lexeme = some op ↔
    BinarySign level lexeme op := by
  rw [BinaryOp.atLevel?, Option.filter_eq_some_iff, beq_iff_eq]
  constructor
  · rintro ⟨hop, rfl⟩
    unfold BinaryOp.ofLexeme? at hop
    split at hop
    all_goals
      cases hop
    all_goals
      constructor
  · intro h
    cases h <;> exact ⟨rfl, rfl⟩

theorem unaryOfLexeme?_eq_some_iff {op : UnaryOp} :
    UnaryOp.ofLexeme? lexeme = some op ↔ UnarySign lexeme op := by
  constructor
  · intro h
    unfold UnaryOp.ofLexeme? at h
    split at h
    all_goals
      cases h
    all_goals
      constructor
  · intro h
    cases h <;> rfl

/-- A sign has one level only. -/
theorem BinarySign.level_unique (h : BinarySign level lexeme op) (h' : BinarySign k lexeme op') :
    k = level := by
  cases h <;> cases h' <;> rfl

theorem BinarySign.level_eq (h : BinarySign level lexeme op) : level = op.level := by
  cases h <;> rfl

theorem BinarySign.lt (h : BinarySign level lexeme op) : level < 6 := by
  cases h <;> decide

/-- Every operator has a sign. -/
theorem exists_binarySign : ∀ op : BinaryOp, ∃ sign, BinarySign op.level sign op
  | .mul => ⟨_, .star⟩
  | .div => ⟨_, .slash⟩
  | .rem => ⟨_, .percent⟩
  | .add => ⟨_, .plus⟩
  | .sub => ⟨_, .minus⟩
  | .lt => ⟨_, .less⟩
  | .le => ⟨_, .atMost⟩
  | .gt => ⟨_, .greater⟩
  | .ge => ⟨_, .atLeast⟩
  | .eq => ⟨_, .equal⟩
  | .ne => ⟨_, .notEqual⟩
  | .and => ⟨_, .and⟩
  | .or => ⟨_, .or⟩

theorem exists_unarySign : ∀ op : UnaryOp, ∃ sign, UnarySign sign op
  | .not => ⟨_, .bang⟩
  | .neg => ⟨_, .minus⟩

/-! ## Derivations -/

theorem Derives.pos (h : Derives phrase n lexemes) : 1 ≤ n := by
  induction h <;> omega

/-- What stands at a level may stand at any looser one. -/
theorem Derives.loosen (h : Derives (.expr k e) n lexemes) (hk : k ≤ 7) (hlevel : level ≤ k) :
    Derives (.expr level e) n lexemes := by
  induction hlevel with
  | refl => exact h
  | step _ ih => exact ih (.tighter (by omega) h) (by omega)

/-- The first lexeme of a phrase does not close anything, and that of an atom is no operator. -/
theorem Derives.head (h : Derives phrase n lexemes) : ∃ first rest, lexemes = first :: rest ∧
    first ≠ .symbol .rightBracket ∧
      ∀ e, phrase = .expr 7 e → ∀ op, ¬UnarySign first op := by
  induction h with
  | @atom lexeme e h =>
    refine ⟨lexeme, [], rfl, ?_, fun _ _ op hsign => ?_⟩
    · rintro rfl
      cases h
    · cases hsign <;> cases h
  | parens => exact ⟨_, _, rfl, by decide, fun _ _ _ hsign => by cases hsign⟩
  | emptyArray => exact ⟨_, _, rfl, by decide, fun _ _ _ hsign => by cases hsign⟩
  | array => exact ⟨_, _, rfl, by decide, fun _ _ _ hsign => by cases hsign⟩
  | member name h ih =>
    obtain ⟨first, rest, rfl, hfirst, hsign⟩ := ih
    exact ⟨first, _, List.cons_append, hfirst, fun _ _ => hsign _ rfl⟩
  | index hobject hindex ih =>
    obtain ⟨first, rest, rfl, hfirst, hsign⟩ := ih
    exact ⟨first, _, List.cons_append, hfirst, fun _ _ => hsign _ rfl⟩
  | unary hsign =>
    refine ⟨_, _, rfl, ?_, nofun⟩
    rintro rfl
    cases hsign
  | binary hsign hleft hright ih =>
    obtain ⟨first, rest, rfl, hfirst, -⟩ := ih
    refine ⟨first, _, List.cons_append, hfirst, ?_⟩
    rintro e ⟨⟩
    cases hsign
  | tighter hlevel h ih =>
    obtain ⟨first, rest, rfl, hfirst, -⟩ := ih
    refine ⟨first, _, rfl, hfirst, ?_⟩
    rintro e ⟨⟩
    omega
  | single h ih =>
    obtain ⟨first, rest, rfl, hfirst, -⟩ := ih
    exact ⟨first, _, rfl, hfirst, nofun⟩
  | more hfirst hrest ih =>
    obtain ⟨first, rest, rfl, hfirst, -⟩ := ih
    exact ⟨first, _, List.cons_append, hfirst, nofun⟩

theorem Derives.append_ne (h : Derives phrase n lexemes) (later rest : List Lexeme) :
    lexemes ++ later ≠ .symbol .rightBracket :: rest := by
  obtain ⟨first, _, rfl, hfirst, -⟩ := h.head
  intro heq
  exact hfirst (List.cons.inj heq).1

end Stencil.Expr
