import Stencil.Proofs.Expr.Closed

/-!
# The grammar of statements

A statement is a name and what happens to it: it is declared, updated by an operand, or counted up
or down by one. The word `mut` may stand before the name and changes nothing.

* `Statement.parse_iff_derives`: what a text must consist of to be a statement.
* `Statement.closed_of_parse`: a statement has nothing outside of brackets at which parts of a loop
  header are separated.
-/

namespace Stencil

open Text

/-- What a result is can be checked by evaluation. -/
theorem exists_ok {ε α : Type} {result : Except ε α} (h : result.toOption.isSome) :
    ∃ a, result = .ok a := by
  cases result with
  | ok a => exact ⟨a, rfl⟩
  | error error => cases h

namespace Expr

/-- The lexemes are an expression that does not nest too deep. -/
def Reads (e : Expr) (lexemes : List Lexeme) : Prop :=
  ∃ n, n ≤ ExprError.maxNesting ∧ Derives (.expr 0 e) n lexemes

variable {e : Expr} {lexemes : List Lexeme}

/-- The reader of expressions reads all the lexemes if they are an expression. -/
theorem read_eq_ok_iff : Reader.expr.read lexemes = .ok (e, []) ↔ Reads e lexemes := by
  constructor
  · intro h
    obtain ⟨used, n, rfl, hn, hderives⟩ := Reader.sound_exprAt ExprError.maxNesting h
    rw [List.append_nil]
    exact ⟨n, hn, hderives⟩
  · rintro ⟨n, hn, hderives⟩
    have hread := (Reader.completes hderives).exprAt hderives.pos hn Reader.ends_nil
    rwa [List.append_nil] at hread

/-- The one that is counted up or down by. -/
theorem reads_one : Reads (.int .one) [.int .one] :=
  ⟨1, by decide, (Derives.atom (.int .one)).loosen (Nat.le_refl _) (Nat.zero_le _)⟩

end Expr

namespace Statement

/-- The signs before an operand that a variable is changed by. -/
inductive UpdateSign : Symbol → BinaryOp → Prop
  | plus : UpdateSign .plusAssign .add
  | minus : UpdateSign .minusAssign .sub

/-- The signs that change a variable by one. -/
inductive CountSign : Symbol → BinaryOp → Prop
  | plus : CountSign .plusPlus .add
  | minus : CountSign .minusMinus .sub

/-- The lexemes after a name that make a statement about it. -/
inductive Change (name : Text) : List Lexeme → Statement → Prop
  | declare {e : Expr} {lexemes : List Lexeme} (h : e.Reads lexemes) :
      Change name (.symbol .assign :: lexemes) (.declare name e)
  | update {sign : Symbol} {op : BinaryOp} {e : Expr} {lexemes : List Lexeme}
      (hsign : UpdateSign sign op) (h : e.Reads lexemes) :
      Change name (.symbol sign :: lexemes) (.update name (.binary op (.var name) e))
  | count {sign : Symbol} {op : BinaryOp} (hsign : CountSign sign op) :
      Change name [.symbol sign] (.update name (.binary op (.var name) (.int .one)))

/-- The lexemes are the statement; `lead` is the word before the name, if there is one. -/
inductive Derives : Statement → List Lexeme → Prop
  | mk {statement : Statement} {lead lexemes : List Lexeme} {name : Text}
      (hlead : lead = [] ∨ lead = [.reserved .mutable]) (h : Change name lexemes statement) :
      Derives statement (lead ++ .name name :: lexemes)

variable {statement : Statement} {make : Expr → Statement} {name t : Text} {lexemes : List Lexeme}

/-! ## The readers follow the grammar -/

theorem value_eq_ok_iff : Reader.assignment.value lexemes make = .ok (statement, []) ↔
    ∃ e, e.Reads lexemes ∧ statement = make e := by
  unfold Reader.assignment.value
  constructor
  · intro h
    split at h
    · cases h
    · rename_i e rest hread
      cases h
      exact ⟨e, Expr.read_eq_ok_iff.1 hread, rfl⟩
  · rintro ⟨e, hreads, rfl⟩
    rw [Expr.read_eq_ok_iff.2 hreads]

theorem assignment_eq_ok_iff :
    Reader.assignment name lexemes = .ok (statement, []) ↔ Change name lexemes statement := by
  constructor
  · intro h
    unfold Reader.assignment at h
    split at h
    · obtain ⟨e, hreads, rfl⟩ := value_eq_ok_iff.1 h
      exact .declare hreads
    · obtain ⟨e, hreads, rfl⟩ := value_eq_ok_iff.1 h
      exact .update .plus hreads
    · obtain ⟨e, hreads, rfl⟩ := value_eq_ok_iff.1 h
      exact .update .minus hreads
    · cases h
      exact .count .plus
    · cases h
      exact .count .minus
    · cases h
  · intro h
    cases h with
    | declare hreads => exact value_eq_ok_iff.2 ⟨_, hreads, rfl⟩
    | update hsign hreads => cases hsign <;> exact value_eq_ok_iff.2 ⟨_, hreads, rfl⟩
    | count hsign => cases hsign <;> rfl

theorem statement_eq_ok_iff :
    Reader.statement lexemes = .ok (statement, []) ↔ Derives statement lexemes := by
  constructor
  · intro h
    simp only [Reader.statement] at h
    split at h
    · rename_i name rest hname
      have hchange := assignment_eq_ok_iff.1 h
      split at hname
      · rename_i hlead
        obtain ⟨later, rfl⟩ := List.head?_eq_some_iff.1 hlead
        obtain rfl : later = .name name :: rest := hname
        exact .mk (.inr rfl) hchange
      · subst hname
        exact .mk (.inl rfl) hchange
    · cases h
  · rintro ⟨rfl | rfl, h⟩
    · exact assignment_eq_ok_iff.2 h
    · exact assignment_eq_ok_iff.2 h

/-- A text is the statement that its lexemes are. -/
theorem parse_iff_derives :
    parse t = .ok statement ↔ ∃ lexemes, Lexeme.Spelled lexemes t ∧ Derives statement lexemes := by
  simp only [parse, Reader.all]
  constructor
  · intro h
    split at h
    · cases h
    · rename_i lexemes hscan
      split at h
      · cases h
      · rename_i hread
        cases h
        exact ⟨lexemes, Lexeme.scan_eq_ok_iff.1 hscan, statement_eq_ok_iff.1 hread⟩
      · cases h
  · rintro ⟨lexemes, hspelled, hderives⟩
    rw [Lexeme.scan_eq_ok_iff.2 hspelled]
    simp only [statement_eq_ok_iff.2 hderives]

/-! ## Statements are closed texts -/

/-- A lexeme of its own can be taken off the front of a closed text. -/
theorem closed_cons {lexeme : Lexeme} (hspelled : Lexeme.Spelled (lexeme :: lexemes) t)
    (hflat : lexeme.IsFlat) (h : ∀ rest, Lexeme.Spelled lexemes rest → Closed IsSeparator rest) :
    Closed IsSeparator t := by
  rw [← List.singleton_append] at hspelled
  obtain ⟨front, rest, rfl, hfront, hrest⟩ := hspelled.exists_append
  exact (hfront.closed_of_flat (List.forall_mem_singleton.2 hflat)).append (h rest hrest)

theorem Change.closed (h : Change name lexemes statement) (hspelled : Lexeme.Spelled lexemes t) :
    Closed IsSeparator t := by
  cases h with
  | declare hreads =>
    obtain ⟨n, -, hderives⟩ := hreads
    exact closed_cons hspelled (by simp [Lexeme.IsFlat]) fun rest => hderives.closed
  | update hsign hreads =>
    obtain ⟨n, -, hderives⟩ := hreads
    refine closed_cons hspelled ?_ fun rest => hderives.closed
    cases hsign <;> simp [Lexeme.IsFlat]
  | count hsign =>
    refine hspelled.closed_of_flat (List.forall_mem_singleton.2 ?_)
    cases hsign <;> simp [Lexeme.IsFlat]

theorem Derives.closed (h : Derives statement lexemes) (hspelled : Lexeme.Spelled lexemes t) :
    Closed IsSeparator t := by
  cases h with
  | @mk lead later name hlead hchange =>
    have hname : ∀ rest, Lexeme.Spelled (.name name :: later) rest → Closed IsSeparator rest :=
      fun rest hrest => closed_cons hrest (by simp [Lexeme.IsFlat]) fun rest => hchange.closed
    rcases hlead with rfl | rfl
    · exact hname t hspelled
    · exact closed_cons hspelled (by simp [Lexeme.IsFlat]) hname

/-- A text that is a statement is closed, and nothing in it outside of brackets is a separator. -/
theorem closed_of_parse (h : parse t = .ok statement) : Closed IsSeparator t := by
  obtain ⟨lexemes, hspelled, hderives⟩ := parse_iff_derives.1 h
  exact hderives.closed hspelled

end Statement

end Stencil
