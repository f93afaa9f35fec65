import Stencil.Bindings

/-!
# Arithmetic is exact or fails

The value of an arithmetic expression is compared with its value over the integers, where nothing
overflows (`Arithmetic.value`). The two agree as long as every part of the expression has a value
that fits in a word and every operation is admitted: nothing is divided by zero, and the remainder
of the least word by -1 is not asked for, since its quotient is no word (`Arithmetic.Exact`).
Otherwise there is an error.

`Settles` says this of one result. It is shown for an operation on two words, and from that for
expressions by induction.

* `Arithmetic.eval_exact`: evaluation gives the value over the integers, or an error.
-/

namespace Stencil

/-! ## Words and integers -/

namespace Word

/-- The integer is a word. -/
def Fits (n : Int) : Prop := -0x8000000000000000 ≤ n ∧ n < 0x8000000000000000

instance (n : Int) : Decidable (Fits n) := inferInstanceAs (Decidable (_ ∧ _))

/-- The least word. -/
def least : Word := ⟨-0x8000000000000000, by decide⟩

theorem ofInt?_of_fits {n : Int} (h : Fits n) : ofInt? n = some ⟨n, h⟩ := dif_pos h

theorem ofInt?_of_not_fits {n : Int} (h : ¬Fits n) : ofInt? n = none := dif_neg h

variable {m n : Word}

theorem eq_of_val_eq (h : m.val = n.val) : m = n := by
  rw [← Option.some_inj, ← ofInt?_val m, ← ofInt?_val n, h]

/-- Quotients of words are words, except that of the least one by -1. -/
theorem fits_tdiv_iff (hn : n.val ≠ 0) :
    Fits (m.val.tdiv n.val) ↔ ¬(m.val = least.val ∧ n.val = -1) := by
  have hm := m.fits
  have habs := Int.natAbs_tdiv m.val n.val
  have hleast : least.val = -0x8000000000000000 := rfl
  rw [hleast, Fits]
  constructor
  · rintro hfits ⟨hm, hn⟩
    rw [hm, hn] at hfits
    revert hfits
    decide
  · intro hne
    by_cases hone : n.val.natAbs = 1
    · obtain hn | hn : n.val = 1 ∨ n.val = -1 := by omega
      · rw [hn, Int.tdiv_one]
        exact hm
      · rw [hn, Int.tdiv_neg, Int.tdiv_one]
        omega
    · have hhalf : m.val.natAbs / n.val.natAbs ≤ m.val.natAbs / 2 :=
        Nat.div_le_div_left (by omega) (by decide)
      change _ = m.val.natAbs / n.val.natAbs at habs
      omega

theorem fits_tmod (hn : n.val ≠ 0) : Fits (m.val.tmod n.val) := by
  have hn' := n.fits
  have habs := Int.natAbs_tmod m.val n.val
  have hlt := Nat.mod_lt m.val.natAbs (Int.natAbs_pos.2 hn)
  rw [Fits]
  omega

end Word

/-! ## Results -/

/-- The result is the integer `n` if `exact` holds, and an error of arithmetic otherwise. -/
structure Settles (result : Except EvalError Value) (exact : Prop) (n : Int) : Prop where
  ok : exact → ∃ word : Word, word.val = n ∧ result = .ok (.int word)
  error : ¬exact → result = .error .overflow ∨ result = .error .divisionByZero

section

variable {result : Except EvalError Value} {exact exact' : Prop} {m n : Int}

theorem Settles.congr (h : Settles result exact n) (hexact : exact ↔ exact') :
    Settles result exact' n :=
  ⟨fun hholds => h.ok (hexact.2 hholds), fun hfails => h.error (mt hexact.1 hfails)⟩

theorem Settles.eq_ok_iff (h : Settles result exact n) (word : Word) :
    result = .ok (.int word) ↔ exact ∧ word.val = n := by
  by_cases hexact : exact
  · obtain ⟨word', hword', hresult⟩ := h.ok hexact
    rw [hresult, and_iff_right hexact, ← hword', Except.ok.injEq, Value.int.injEq]
    exact ⟨fun heq => heq ▸ rfl, fun heq => Word.eq_of_val_eq heq.symm⟩
  · refine iff_of_false (fun hresult => ?_) fun h => hexact h.1
    have herror := h.error hexact
    rw [hresult] at herror
    exact herror.elim nofun nofun

/-- What is computed from a result is exact if the result is and the next step too. -/
theorem Settles.bind {next : Value → Except EvalError Value} (h : Settles result exact m)
    (hnext : ∀ word : Word, word.val = m → Settles (next (.int word)) exact' n) :
    Settles (result.bind next) (exact ∧ exact') n := by
  by_cases hexact : exact
  · obtain ⟨word, hword, hresult⟩ := h.ok hexact
    rw [hresult]
    exact (hnext word hword).congr (and_iff_right hexact).symm
  · refine ⟨fun h => absurd h.1 hexact, fun _ => ?_⟩
    obtain herror | herror := h.error hexact
    · exact .inl (by rw [herror]; rfl)
    · exact .inr (by rw [herror]; rfl)

theorem settles_int (word : Word) (hexact : exact) : Settles (.ok (.int word)) exact word.val :=
  ⟨fun _ => ⟨word, rfl, rfl⟩, fun hfails => absurd hexact hfails⟩

theorem settles_zero (hexact : ¬exact) : Settles (.error .divisionByZero) exact n :=
  ⟨fun hholds => absurd hholds hexact, fun _ => .inr rfl⟩

theorem settles_overflow (hexact : ¬exact) : Settles (.error .overflow) exact n :=
  ⟨fun hholds => absurd hholds hexact, fun _ => .inl rfl⟩

/-- An integer is the result if it is a word. -/
theorem settles_ofInt (n : Int) : Settles (Word.toValue (Word.ofInt? n)) (Word.Fits n) n := by
  by_cases hn : Word.Fits n
  · rw [Word.ofInt?_of_fits hn]
    exact settles_int ⟨n, hn⟩ hn
  · rw [Word.ofInt?_of_not_fits hn]
    exact settles_overflow hn

end

/-! ## Operations -/

/-- The operations of arithmetic on two integers. -/
inductive Operation
  | add
  | sub
  | mul
  | div
  | rem
  deriving DecidableEq, Repr

namespace Operation

/-- The operator that stands for the operation. -/
def operator : Operation → BinaryOp
  | add => .add
  | sub => .sub
  | mul => .mul
  | div => .div
  | rem => .rem

/-- The operation on integers. Division goes toward zero. -/
def value : Operation → Int → Int → Int
  | add, m, n => m + n
  | sub, m, n => m - n
  | mul, m, n => m * n
  | div, m, n => m.tdiv n
  | rem, m, n => m.tmod n

/-- Nothing is divided by zero, and the remainder of the least word by -1 is not asked for. -/
def Admits : Operation → Int → Int → Prop
  | div, _, n => n ≠ 0
  | rem, m, n => n ≠ 0 ∧ ¬(m = Word.least.val ∧ n = -1)
  | _, _, _ => True

instance (op : Operation) (m n : Int) : Decidable (op.Admits m n) := by
  cases op <;> unfold Admits <;> infer_instance

/-- An operation on two words is exact if it is admitted and its value is a word. -/
theorem settles_apply (op : Operation) (m n : Word) :
    Settles (op.operator.apply (.int m) (.int n))
      (Word.Fits (op.value m.val n.val) ∧ op.Admits m.val n.val) (op.value m.val n.val) := by
  cases op with
  | add | sub | mul => exact (settles_ofInt _).congr (and_iff_left trivial).symm
  | div =>
    simp only [operator, BinaryOp.apply, Admits, value]
    split
    case isTrue hzero => exact settles_zero fun h => h.2 hzero
    case isFalse hzero => exact (settles_ofInt _).congr (and_iff_left hzero).symm
  | rem =>
    simp only [operator, BinaryOp.apply, Admits, value]
    split
    case isTrue hzero => exact settles_zero fun h => h.2.1 hzero
    case isFalse hzero =>
      -- What is left over is always a word, but is only looked at if the quotient is one.
      have hrem := Word.fits_tmod (m := m) hzero
      rw [← Word.fits_tdiv_iff hzero, and_iff_right hrem, and_iff_right hzero, Word.rem?, Word.div?]
      by_cases hquotient : Word.Fits (m.val.tdiv n.val)
      · rw [Word.ofInt?_of_fits hquotient, Option.bind_some]
        exact (settles_ofInt _).congr (iff_of_true hrem hquotient)
      · rw [Word.ofInt?_of_not_fits hquotient, Option.bind_none]
        exact settles_overflow hquotient

end Operation

/-! ## Expressions -/

/-- Expressions of integers, names and the operations of arithmetic. -/
inductive Arithmetic
  | int (value : Word)
  | var (name : Text)
  | neg (operand : Arithmetic)
  | binary (op : Operation) (left right : Arithmetic)
  deriving DecidableEq

namespace Arithmetic

/-- The expression as such. -/
def expr : Arithmetic → Expr
  | int n => .int n
  | var name => .var name
  | neg a => .unary .neg a.expr
  | binary op left right => .binary op.operator left.expr right.expr

/-- The names in an expression. -/
def names : Arithmetic → List Text
  | int _ => []
  | var name => [name]
  | neg a => a.names
  | binary _ left right => left.names ++ right.names

/-- The parts of an expression, itself among them. -/
def parts : Arithmetic → List Arithmetic
  | int n => [int n]
  | var name => [var name]
  | neg a => neg a :: a.parts
  | binary op left right => binary op left right :: (left.parts ++ right.parts)

section

variable (values : Text → Word)

/-- The value over the integers, if names have the given values. -/
def value : Arithmetic → Int
  | int n => n.val
  | var name => (values name).val
  | neg a => -a.value
  | binary op left right => op.value left.value right.value

/-- The operation that the expression ends with, if any, is admitted. -/
def Admissible : Arithmetic → Prop
  | binary op left right => op.Admits (left.value values) (right.value values)
  | int _ | var _ | neg _ => True

instance (a : Arithmetic) : Decidable (a.Admissible values) := by
  cases a <;> unfold Admissible <;> infer_instance

/-- The value of every part is a word, and every operation is admitted. -/
def Exact (a : Arithmetic) : Prop :=
  ∀ part ∈ a.parts, Word.Fits (part.value values) ∧ part.Admissible values

instance (a : Arithmetic) : Decidable (a.Exact values) :=
  inferInstanceAs (Decidable (∀ part ∈ a.parts, _))

end

variable {values : Text → Word} {a left right : Arithmetic} {op : Operation} {b : Bindings}

theorem exact_neg_iff :
    (neg a).Exact values ↔ a.Exact values ∧ Word.Fits (-a.value values) := by
  rw [Exact, parts, List.forall_mem_cons, and_comm]
  exact and_congr_right' (and_iff_left trivial)

theorem exact_binary_iff : (binary op left right).Exact values ↔
    left.Exact values ∧ right.Exact values ∧
      Word.Fits (op.value (left.value values) (right.value values)) ∧
        op.Admits (left.value values) (right.value values) := by
  rw [Exact, parts, List.forall_mem_cons, List.forall_mem_append, and_comm, and_assoc]
  rfl

/-- Both operands are evaluated before the operation. -/
theorem eval_binary (b : Bindings) (op : Operation) (left right : Expr) :
    b.eval (.binary op.operator left right)
      = (b.eval left).bind fun v => (b.eval right).bind fun w => op.operator.apply v w := by
  have hand : op.operator ≠ .and := by cases op <;> decide
  have hor : op.operator ≠ .or := by cases op <;> decide
  simp only [Bindings.eval, Expr.eval]
  cases left.eval b.get? with
  | error => rfl
  | ok v =>
    simp only [hand, hor]
    cases right.eval b.get? <;> rfl

theorem eval_neg (b : Bindings) (e : Expr) :
    b.eval (.unary .neg e) = (b.eval e).bind UnaryOp.neg.apply := by
  simp only [Bindings.eval, Expr.eval]
  cases e.eval b.get? <;> rfl

theorem settles_eval (h : ∀ name ∈ a.names, b.get? name = some (.int (values name))) :
    Settles (b.eval a.expr) (a.Exact values) (a.value values) := by
  induction a with
  | int n => exact settles_int n (List.forall_mem_singleton.2 ⟨n.fits, trivial⟩)
  | var name =>
    have heval : b.eval (.var name) = .ok (.int (values name)) := by
      rw [Bindings.eval, Expr.eval, h name (List.mem_singleton.2 rfl)]
      rfl
    rw [expr, heval]
    exact settles_int _ (List.forall_mem_singleton.2 ⟨(values name).fits, trivial⟩)
  | neg a ih =>
    rw [expr, eval_neg]
    refine ((ih h).bind fun n hn => ?_).congr exact_neg_iff.symm
    rw [value, ← hn]
    exact settles_ofInt _
  | binary op left right ihleft ihright =>
    obtain ⟨hleft, hright⟩ := List.forall_mem_append.1 h
    rw [expr, eval_binary]
    refine ((ihleft hleft).bind fun m hm => (ihright hright).bind fun n hn => ?_).congr
      exact_binary_iff.symm
    rw [value, ← hm, ← hn]
    exact op.settles_apply m n

/-- An arithmetic expression of names that are integers evaluates to an integer exactly if, over the
integers, the value of every part is a word, nothing is divided by zero and no remainder is taken of
the least word by -1; and then to its value over the integers. In all other cases there is an
overflow or a division by zero. -/
theorem eval_exact (b : Bindings) (values : Text → Word) (a : Arithmetic)
    (h : ∀ name ∈ a.names, b.get? name = some (.int (values name))) :
    (∀ n : Word, b.eval a.expr = .ok (.int n) ↔ a.Exact values ∧ n.val = a.value values) ∧
      (¬a.Exact values →
        b.eval a.expr = .error .overflow ∨ b.eval a.expr = .error .divisionByZero) :=
  ⟨(settles_eval h).eq_ok_iff, (settles_eval h).error⟩

/-- With the least word as `x`, the quotient of `x + 1` by -1 is the greatest word, and there is no
remainder of `x` by -1. -/
theorem eval_exact_least :
    let b := Bindings.empty.declare ['x'] (.int .least)
    let quotient := binary .div (binary .add (var ['x']) (int .one)) (neg (int .one))
    let remainder := binary .rem (var ['x']) (neg (int .one))
    (∀ name ∈ quotient.names, b.get? name = some (.int .least)) ∧
      b.eval quotient.expr = .ok (.int .greatest) ∧
      (b.eval remainder.expr = .error .overflow ∨
        b.eval remainder.expr = .error .divisionByZero) := by
  intro b quotient remainder
  have hx : ∀ name ∈ [['x']], b.get? name = some (.int .least) := List.forall_mem_singleton.2 rfl
  obtain ⟨hquotient, -⟩ := eval_exact b (fun _ => .least) quotient hx
  obtain ⟨-, hremainder⟩ := eval_exact b (fun _ => .least) remainder hx
  exact ⟨hx, (hquotient .greatest).2 (by decide), hremainder (by decide)⟩

end Arithmetic

end Stencil
