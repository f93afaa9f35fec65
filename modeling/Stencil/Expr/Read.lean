import Stencil.Expr.Basic
import Stencil.Expr.Scan

/-!
# Reading expressions

Six levels of operators with two operands, all of which group to the left; below them the prefix
operators, and below those an atom with its suffixes. Parentheses, brackets and prefix operators
each take one level of nesting; the readers are defined by recursion on the levels that are left
(`Reader.unaryAt`).
-/

namespace Stencil

/-- A reader of one thing from the front of a list of lexemes: what it read and what is left, which
is always less. -/
structure Reader (α : Type) where
  read : List Lexeme → Except ExprError (α × List Lexeme)
  shorter : ∀ {lexemes : List Lexeme} {a : α} {rest : List Lexeme},
    read lexemes = .ok (a, rest) → rest.length < lexemes.length

namespace Reader

/-- Fails because no level of nesting is left. -/
def tooDeep : Reader Expr := ⟨fun _ => .error .tooDeep, by simp⟩

/-! ## Operators with two operands -/

/-- Goes on with operators of one level and their right operands, the left operand being known. -/
def chain (operand : Reader Expr) (level : Nat) (left : Expr) :
    List Lexeme → Except ExprError (Expr × List Lexeme)
  | [] => .ok (left, [])
  | lexeme :: lexemes =>
    match BinaryOp.atLevel? level lexeme with
    | none => .ok (left, lexeme :: lexemes)
    | some op =>
      match found : operand.read lexemes with
      | .error error => .error error
      | .ok (right, rest) =>
        have := operand.shorter found
        chain operand level (.binary op left right) rest
termination_by lexemes => lexemes.length

theorem length_chain {operand : Reader Expr} {level : Nat} {left e : Expr}
    {lexemes rest : List Lexeme} (h : chain operand level left lexemes = .ok (e, rest)) :
    rest.length ≤ lexemes.length := by
  fun_induction chain operand level left lexemes with
  | case1 => simp_all
  | case2 => simp_all
  | case3 => simp at h
  | case4 _ _ _ _ _ _ _ _ shorter ih =>
    have := ih h
    simp only [List.length_cons]
    omega

/-- Operands with operators of one level between them. -/
def leftGrouped (level : Nat) (operand : Reader Expr) : Reader Expr where
  read lexemes :=
    match operand.read lexemes with
    | .error error => .error error
    | .ok (left, rest) => chain operand level left rest
  shorter := by
    intro lexemes e rest h
    split at h
    · cases h
    · rename_i found
      exact Nat.lt_of_le_of_lt (length_chain h) (operand.shorter found)

/-- All levels of operators with two operands over the reader of the tightest operands. -/
def binary (operand : Reader Expr) : Reader Expr :=
  [0, 1, 2, 3, 4, 5].foldr leftGrouped operand

/-! ## Atoms and suffixes -/

/-- What follows the given sign, which must come next. -/
def expect (wanted : Symbol) : List Lexeme → Except ExprError (List Lexeme)
  | [] => .error (.expectedClosing wanted none)
  | lexeme :: lexemes =>
    if lexeme = .symbol wanted then .ok lexemes
    else .error (.expectedClosing wanted (some lexeme))

theorem length_expect {wanted : Symbol} {lexemes rest : List Lexeme}
    (h : expect wanted lexemes = .ok rest) : rest.length < lexemes.length := by
  unfold expect at h
  split at h
  · cases h
  · split at h
    · cases h
      simp
    · cases h

/-- What `inner` reads, up to the given sign. -/
def enclosed (inner : Reader Expr) (closing : Symbol) (lexemes : List Lexeme) :
    Except ExprError (Expr × List Lexeme) :=
  match inner.read lexemes with
  | .error error => .error error
  | .ok (e, rest) =>
    match expect closing rest with
    | .error error => .error error
    | .ok rest => .ok (e, rest)

theorem length_enclosed {inner : Reader Expr} {closing : Symbol} {e : Expr}
    {lexemes rest : List Lexeme} (h : enclosed inner closing lexemes = .ok (e, rest)) :
    rest.length < lexemes.length := by
  unfold enclosed at h
  split at h
  · cases h
  · rename_i found
    split at h
    · cases h
    · rename_i closed
      cases h
      exact Nat.lt_trans (length_expect closed) (inner.shorter found)

/-- The elements of an array after its opening bracket, with those read so far, latest first. A
comma may follow the last one. -/
def elements (inner : Reader Expr) (before : List Expr) :
    List Lexeme → Except ExprError (List Expr × List Lexeme)
  | .symbol .rightBracket :: lexemes => .ok (before.reverse, lexemes)
  | lexemes =>
    match found : inner.read lexemes with
    | .error error => .error error
    | .ok (e, .symbol .comma :: rest) =>
      have := inner.shorter found
      elements inner (e :: before) rest
    | .ok (e, .symbol .rightBracket :: rest) => .ok ((e :: before).reverse, rest)
    | .ok (_, rest) => .error (.expectedElementEnd rest.head?)
termination_by lexemes => lexemes.length
decreasing_by
  simp only [List.length_cons] at this
  omega

theorem length_elements {inner : Reader Expr} {before es : List Expr}
    {lexemes rest : List Lexeme} (h : elements inner before lexemes = .ok (es, rest)) :
    rest.length < lexemes.length := by
  fun_induction elements inner before lexemes with
  | case1 =>
    cases h
    simp
  | case2 => simp at h
  | case3 _ _ _ _ _ _ shorter ih =>
    have := ih h
    simp only [List.length_cons] at *
    omega
  | case4 _ _ _ _ _ found =>
    have := inner.shorter found
    cases h
    simp only [List.length_cons] at *
    omega
  | case5 => simp at h

/-- A literal, a name, an expression in parentheses or an array. -/
def atom (inner : Reader Expr) : Reader Expr where
  read
    | .string s :: rest => .ok (.string s, rest)
    | .int n :: rest => .ok (.int n, rest)
    | .reserved .true :: rest => .ok (.bool true, rest)
    | .reserved .false :: rest => .ok (.bool false, rest)
    | .reserved .null :: rest => .ok (.null, rest)
    | .name n :: rest => .ok (.var n, rest)
    | .symbol .leftParen :: rest => enclosed inner .rightParen rest
    | .symbol .leftBracket :: rest =>
      match elements inner [] rest with
      | .error error => .error error
      | .ok (es, rest) => .ok (.array es, rest)
    | lexemes => .error (.expectedExpression lexemes.head?)
  shorter := by
    intro lexemes e rest h
    split at h
    case h_7 => exact Nat.lt_succ_of_lt (length_enclosed h)
    case h_8 =>
      split at h
      · cases h
      · rename_i found
        cases h
        exact Nat.lt_succ_of_lt (length_elements found)
    all_goals cases h
    all_goals simp

/-- Goes on with attributes and indices of an expression. -/
def suffixes (inner : Reader Expr) (object : Expr) :
    List Lexeme → Except ExprError (Expr × List Lexeme)
  | .symbol .dot :: .name n :: rest => suffixes inner (.member object n) rest
  | .symbol .dot :: rest => .error (.expectedAttribute rest.head?)
  | .symbol .leftBracket :: lexemes =>
    match found : enclosed inner .rightBracket lexemes with
    | .error error => .error error
    | .ok (index, rest) =>
      have := length_enclosed found
      suffixes inner (.index object index) rest
  | lexemes => .ok (object, lexemes)
termination_by lexemes => lexemes.length

theorem length_suffixes {inner : Reader Expr} {object e : Expr} {lexemes rest : List Lexeme}
    (h : suffixes inner object lexemes = .ok (e, rest)) : rest.length ≤ lexemes.length := by
  fun_induction suffixes inner object lexemes with
  | case1 _ _ _ ih =>
    have := ih h
    simp only [List.length_cons]
    omega
  | case2 => simp at h
  | case3 => simp at h
  | case4 _ _ _ _ _ shorter ih =>
    have := ih h
    simp only [List.length_cons]
    omega
  | case5 =>
    cases h
    exact Nat.le_refl _

/-- An atom with its suffixes. -/
def primary (inner : Reader Expr) : Reader Expr where
  read lexemes :=
    match (atom inner).read lexemes with
    | .error error => .error error
    | .ok (e, rest) => suffixes inner e rest
  shorter := by
    intro lexemes e rest h
    split at h
    · cases h
    · rename_i found
      exact Nat.lt_of_le_of_lt (length_suffixes h) ((atom inner).shorter found)

/-! ## Prefix operators and nesting -/

/-- A prefix operator with what `operand` reads, or a primary expression. Both `operand` and `inner`
stand one level deeper. -/
def unary (operand inner : Reader Expr) : Reader Expr where
  read lexemes :=
    match lexemes.head?.bind UnaryOp.ofLexeme? with
    | some op =>
      match operand.read lexemes.tail with
      | .error error => .error error
      | .ok (e, rest) => .ok (.unary op e, rest)
    | none => (primary inner).read lexemes
  shorter := by
    intro lexemes e rest h
    split at h
    · split at h
      · cases h
      · rename_i found
        cases h
        have := operand.shorter found
        simp only [List.length_tail] at this
        omega
    · exact (primary inner).shorter h

/-- Operands of operators with two operands, when `n` more levels of nesting are left. -/
def unaryAt : Nat → Reader Expr
  | 0 => unary tooDeep tooDeep
  | n + 1 => unary (unaryAt n) (binary (unaryAt n))

/-- Expressions, when `n` levels of nesting are left. -/
def exprAt : Nat → Reader Expr
  | 0 => tooDeep
  | n + 1 => binary (unaryAt n)

/-- Expressions. -/
def expr : Reader Expr := exprAt ExprError.maxNesting

/-- What remains of a statement after the name. -/
def assignment (name : Text) : List Lexeme → Except ExprError (Statement × List Lexeme)
  | .symbol .assign :: rest => value rest (.declare name)
  | .symbol .plusAssign :: rest => value rest fun e => .update name (.binary .add (.var name) e)
  | .symbol .minusAssign :: rest => value rest fun e => .update name (.binary .sub (.var name) e)
  | .symbol .plusPlus :: rest =>
    .ok (.update name (.binary .add (.var name) (.int .one)), rest)
  | .symbol .minusMinus :: rest =>
    .ok (.update name (.binary .sub (.var name) (.int .one)), rest)
  | lexemes => .error (.expectedAssignment lexemes.head?)
where
  /-- The statement made of the expression that follows. -/
  value (lexemes : List Lexeme) (make : Expr → Statement) :
      Except ExprError (Statement × List Lexeme) :=
    match expr.read lexemes with
    | .error error => .error error
    | .ok (e, rest) => .ok (make e, rest)

/-- A statement: perhaps the word `mut`, which says nothing, then a name and what happens to it. -/
def statement (lexemes : List Lexeme) : Except ExprError (Statement × List Lexeme) :=
  let lexemes := if lexemes.head? = some (.reserved .mutable) then lexemes.tail else lexemes
  match lexemes with
  | .name name :: rest => assignment name rest
  | lexemes => .error (.expectedVariable lexemes.head?)

/-- Reads all lexemes of a text. -/
def all {α : Type} (read : List Lexeme → Except ExprError (α × List Lexeme)) (t : Text) :
    Except ExprError α :=
  match Lexeme.scan t with
  | .error error => .error error
  | .ok lexemes =>
    match read lexemes with
    | .error error => .error error
    | .ok (a, []) => .ok a
    | .ok (_, lexeme :: _) => .error (.leftOver lexeme)

end Reader

namespace Expr

/-- The expression that a text is. -/
def parse (t : Text) : Except ExprError Expr := Reader.all Reader.expr.read t

end Expr

namespace Statement

/-- The statement that a text is. -/
def parse (t : Text) : Except ExprError Statement := Reader.all Reader.statement t

end Statement

end Stencil
