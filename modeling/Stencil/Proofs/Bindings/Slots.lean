import Stencil.Proofs.Bindings.Visible
import Stencil.Proofs.Expr.Statements

/-!
# What a statement changes

Bindings are looked at slot by slot here: a slot is a name in one of the scopes. A statement that
fails changes no slot, and one that succeeds changes a single one, which can be told from its text
and the bindings before it: the slot of the name in the innermost scope for a declaration, and the
innermost slot of the name that has a value for an update.

`Bindings.Stores` says which value goes into which slot, one rule for each form of statement. What
executing does is this relation and no more (`Bindings.execute_eq_ok_iff`).

Main statement: `Bindings.execute_one_slot`.
-/

namespace Stencil

/-! ## How statements are written -/

namespace Statement

variable {sign : Symbol} {op : BinaryOp} {name t : Text} {lexemes : List Lexeme}

theorem UpdateSign.op_eq (h : UpdateSign sign op) : op = .add ∨ op = .sub := by
  cases h with
  | plus => exact .inl rfl
  | minus => exact .inr rfl

theorem CountSign.op_eq (h : CountSign sign op) : op = .add ∨ op = .sub := by
  cases h with
  | plus => exact .inl rfl
  | minus => exact .inr rfl

/-- The text is written as a name, perhaps with the word `mut` before it, and these lexemes after
it. -/
def Opens (name : Text) (lexemes : List Lexeme) (t : Text) : Prop :=
  ∃ lead, (lead = [] ∨ lead = [.reserved .mutable]) ∧
    Lexeme.Spelled (lead ++ .name name :: lexemes) t

/-- A text opens with one name only, and the same lexemes follow it. -/
theorem Opens.unique {name' : Text} {lexemes' : List Lexeme} (h : Opens name lexemes t)
    (h' : Opens name' lexemes' t) : name = name' ∧ lexemes = lexemes' := by
  obtain ⟨lead, hlead, hspelled⟩ := h
  obtain ⟨lead', hlead', hspelled'⟩ := h'
  have hscan := Lexeme.scan_eq_ok_iff.2 hspelled
  have hscan' := Lexeme.scan_eq_ok_iff.2 hspelled'
  have hsame : lead ++ .name name :: lexemes = lead' ++ .name name' :: lexemes' :=
    Except.ok.inj (hscan.symm.trans hscan')
  rcases hlead with rfl | rfl <;> rcases hlead' with rfl | rfl <;> simp_all

end Statement

namespace Bindings

variable {b c : Bindings} {level : Nat} {name : Text} {old v : Value}

/-! ## Slots -/

/-- The value that a name has in the scope at a level; the innermost scope is at level 0. -/
def slot (b : Bindings) (level : Nat) (name : Text) : Option Value :=
  b.scopes[level]?.bind (·.get? name)

/-- The bindings `c` have as many scopes as `b` and the same values in all slots but one, which
holds `v`. -/
structure Puts (b : Bindings) (level : Nat) (name : Text) (v : Value) (c : Bindings) : Prop where
  depth : c.depth = b.depth
  slot : ∀ level' name',
    c.slot level' name' = if level' = level ∧ name' = name then some v else b.slot level' name'

/-- The innermost scope that has the name is at this level, where the name has the value. -/
structure BoundAt (b : Bindings) (level : Nat) (name : Text) (v : Value) : Prop where
  value : b.slot level name = some v
  innermost : ∀ inner < level, b.slot inner name = none

@[simp] theorem slot_outermost_zero (scope : Scope) (name : Text) :
    (outermost scope).slot 0 name = scope.get? name := rfl

@[simp] theorem slot_outermost_succ (scope : Scope) (level : Nat) (name : Text) :
    (outermost scope).slot (level + 1) name = none := rfl

@[simp] theorem slot_inner_zero (scope : Scope) (b : Bindings) (name : Text) :
    (inner scope b).slot 0 name = scope.get? name := rfl

@[simp] theorem slot_inner_succ (scope : Scope) (b : Bindings) (level : Nat) (name : Text) :
    (inner scope b).slot (level + 1) name = b.slot level name := rfl

/-- The innermost scope, in bindings of either form, is the one that changes. -/
theorem puts_outermost (scope : Scope) (name : Text) (v : Value) :
    (outermost scope).Puts 0 name v (outermost (scope.insert name v)) := by
  refine ⟨rfl, fun level' name' => ?_⟩
  cases level' with
  | zero => simp [Table.get?_insert]
  | succ level' => simp

theorem puts_inner (scope : Scope) (b : Bindings) (name : Text) (v : Value) :
    (inner scope b).Puts 0 name v (inner (scope.insert name v) b) := by
  refine ⟨rfl, fun level' name' => ?_⟩
  cases level' with
  | zero => simp [Table.get?_insert]
  | succ level' => simp

/-- A change in the enclosing scopes is one level further out. -/
theorem Puts.inner (h : b.Puts level name v c) (scope : Scope) :
    (inner scope b).Puts (level + 1) name v (inner scope c) := by
  refine ⟨congrArg (· + 1) h.depth, fun level' name' => ?_⟩
  cases level' with
  | zero => simp
  | succ level' => simp [h.slot]

/-- A declaration changes the innermost slot of its name. -/
theorem puts_declare (b : Bindings) (name : Text) (v : Value) :
    b.Puts 0 name v (b.declare name v) := by
  cases b with
  | outermost scope => exact puts_outermost scope name v
  | inner scope enclosing => exact puts_inner scope enclosing name v

/-! ## Where a name is bound -/

/-- The value of a name is the one in its innermost slot. -/
theorem get?_eq_some_iff : b.get? name = some v ↔ ∃ level, b.BoundAt level name v := by
  induction b with
  | outermost scope =>
    rw [get?_outermost]
    constructor
    · intro h
      exact ⟨0, h, fun inner hinner => absurd hinner (Nat.not_lt_zero inner)⟩
    · rintro ⟨level, hvalue, -⟩
      cases level with
      | zero => exact hvalue
      | succ level => cases hvalue
  | inner scope enclosing ih =>
    rw [get?_inner, Option.or_eq_some_iff, ih]
    constructor
    · rintro (h | ⟨hnone, level, hvalue, hinnermost⟩)
      · exact ⟨0, h, fun inner hinner => absurd hinner (Nat.not_lt_zero inner)⟩
      · refine ⟨level + 1, hvalue, fun inner hinner => ?_⟩
        cases inner with
        | zero => exact hnone
        | succ inner => exact hinnermost inner (Nat.lt_of_succ_lt_succ hinner)
    · rintro ⟨level, hvalue, hinnermost⟩
      cases level with
      | zero => exact .inl hvalue
      | succ level =>
        refine .inr ⟨hinnermost 0 (Nat.succ_pos level), level, hvalue, fun inner hinner => ?_⟩
        exact hinnermost (inner + 1) (Nat.succ_lt_succ hinner)

theorem BoundAt.get?_eq (h : b.BoundAt level name v) : b.get? name = some v :=
  get?_eq_some_iff.2 ⟨level, h⟩

/-- An update changes the slot in which the name is bound. -/
theorem BoundAt.exists_update (h : b.BoundAt level name old) (v : Value) :
    ∃ c, b.update? name v = some c ∧ b.Puts level name v c := by
  obtain ⟨hvalue, hinnermost⟩ := h
  induction b generalizing level with
  | outermost scope =>
    cases level with
    | zero =>
      have hcontains : scope.contains name = true := Option.isSome_of_eq_some hvalue
      exact ⟨_, if_pos hcontains, puts_outermost scope name v⟩
    | succ level => cases hvalue
  | inner scope enclosing ih =>
    cases level with
    | zero =>
      have hcontains : scope.contains name = true := Option.isSome_of_eq_some hvalue
      exact ⟨_, if_pos hcontains, puts_inner scope enclosing name v⟩
    | succ level =>
      have hfree : scope.get? name = none := hinnermost 0 (Nat.succ_pos level)
      have hcontains : ¬scope.contains name = true := by simp [Table.contains, hfree]
      obtain ⟨c, hc, hputs⟩ := ih hvalue fun inner hinner =>
        hinnermost (inner + 1) (Nat.succ_lt_succ hinner)
      refine ⟨_, ?_, hputs.inner scope⟩
      rw [update?, if_neg hcontains, hc, Option.map_some]

/-! ## Statements -/

/-- What the lexemes after a name make of it: the value that goes into the slot of the name at the
level. All expressions have the values that they have before. -/
inductive Stores (b : Bindings) (name : Text) : List Lexeme → Nat → Value → Prop
  | declare {e : Expr} {lexemes : List Lexeme} {v : Value} (h : e.Reads lexemes)
      (hv : b.eval e = .ok v) : Stores b name (.symbol .assign :: lexemes) 0 v
  | update {sign : Symbol} {op : BinaryOp} {e : Expr} {lexemes : List Lexeme} {level : Nat}
      {old operand v : Value} (hsign : Statement.UpdateSign sign op) (h : e.Reads lexemes)
      (hold : b.BoundAt level name old) (hoperand : b.eval e = .ok operand)
      (hv : op.apply old operand = .ok v) : Stores b name (.symbol sign :: lexemes) level v
  | count {sign : Symbol} {op : BinaryOp} {level : Nat} {old v : Value}
      (hsign : Statement.CountSign sign op) (hold : b.BoundAt level name old)
      (hv : op.apply old (.int .one) = .ok v) : Stores b name [.symbol sign] level v

variable {e : Expr} {op : BinaryOp} {statement : Statement} {lexemes : List Lexeme} {t : Text}

/-- The operators of updates are applied to the values of both their operands. -/
theorem eval_binary_var_eq_ok_iff (hop : op = .add ∨ op = .sub) (hname : b.get? name = some old) :
    b.eval (.binary op (.var name) e) = .ok v ↔
      ∃ operand, b.eval e = .ok operand ∧ op.apply old operand = .ok v := by
  rw [eval, eval]
  rcases hop with rfl | rfl <;> simp only [Expr.eval, hname] <;> cases Expr.eval b.get? e <;> simp

theorem run_declare_eq_ok_iff :
    b.run (.declare name e) = .ok c ↔ ∃ v, b.eval e = .ok v ∧ b.declare name v = c := by
  rw [run]
  cases b.eval e <;> simp

theorem run_update_eq_ok_iff :
    b.run (.update name e) = .ok c ↔ ∃ v, b.eval e = .ok v ∧ b.update? name v = some c := by
  rw [run]
  cases b.eval e with
  | error error => simp
  | ok v => cases h : b.update? name v <;> simp [h]

/-- An update by an operator succeeds if its name is bound and the operator can be applied. -/
theorem run_operator_eq_ok_iff (hop : op = .add ∨ op = .sub) :
    b.run (.update name (.binary op (.var name) e)) = .ok c ↔
      ∃ level old operand v, b.BoundAt level name old ∧ b.eval e = .ok operand ∧
        op.apply old operand = .ok v ∧ b.update? name v = some c := by
  rw [run_update_eq_ok_iff]
  constructor
  · rintro ⟨v, hv, hupdate⟩
    obtain ⟨old, hname⟩ : ∃ old, b.get? name = some old := by
      rw [← Option.ne_none_iff_exists', ne_eq, ← update?_eq_none_iff (v := v), hupdate]
      exact Option.some_ne_none c
    obtain ⟨level, hold⟩ := get?_eq_some_iff.1 hname
    obtain ⟨operand, hoperand, happly⟩ := (eval_binary_var_eq_ok_iff hop hname).1 hv
    exact ⟨level, old, operand, v, hold, hoperand, happly, hupdate⟩
  · rintro ⟨level, old, operand, v, hold, hoperand, happly, hupdate⟩
    exact ⟨v, (eval_binary_var_eq_ok_iff hop hold.get?_eq).2 ⟨operand, hoperand, happly⟩, hupdate⟩

/-- Running a statement puts a value where its lexemes say. -/
theorem exists_stores_of_run (hchange : Statement.Change name lexemes statement)
    (hrun : b.run statement = .ok c) : ∃ level v, b.Stores name lexemes level v := by
  cases hchange with
  | declare hreads =>
    obtain ⟨v, hv, -⟩ := run_declare_eq_ok_iff.1 hrun
    exact ⟨0, v, .declare hreads hv⟩
  | update hsign hreads =>
    obtain ⟨level, old, operand, v, hold, hoperand, hv, -⟩ :=
      (run_operator_eq_ok_iff hsign.op_eq).1 hrun
    exact ⟨level, v, .update hsign hreads hold hoperand hv⟩
  | count hsign =>
    obtain ⟨level, old, operand, v, hold, hoperand, hv, -⟩ :=
      (run_operator_eq_ok_iff hsign.op_eq).1 hrun
    cases hoperand
    exact ⟨level, v, .count hsign hold hv⟩

/-- What lexemes say is what running their statement does, and it does no more. -/
theorem Stores.exists_run (h : b.Stores name lexemes level v) :
    ∃ statement c, Statement.Change name lexemes statement ∧ b.run statement = .ok c ∧
      b.Puts level name v c := by
  cases h with
  | declare hreads hv =>
    exact ⟨_, _, .declare hreads, run_declare_eq_ok_iff.2 ⟨v, hv, rfl⟩, puts_declare b name v⟩
  | update hsign hreads hold hoperand hv =>
    obtain ⟨c, hc, hputs⟩ := hold.exists_update v
    exact ⟨_, c, .update hsign hreads, (run_operator_eq_ok_iff hsign.op_eq).2
      ⟨_, _, _, v, hold, hoperand, hv, hc⟩, hputs⟩
  | count hsign hold hv =>
    obtain ⟨c, hc, hputs⟩ := hold.exists_update v
    exact ⟨_, c, .count hsign, (run_operator_eq_ok_iff hsign.op_eq).2
      ⟨_, _, _, v, hold, rfl, hv, hc⟩, hputs⟩

/-! ## Texts -/

open Statement (Opens)

theorem execute_eq_ok_iff : b.execute t = .ok c ↔
    ∃ name lexemes statement, Opens name lexemes t ∧ Statement.Change name lexemes statement ∧
      b.run statement = .ok c := by
  have hparse : b.execute t = .ok c ↔
      ∃ statement, Statement.parse t = .ok statement ∧ b.run statement = .ok c := by
    rw [execute]
    cases Statement.parse t <;> simp
  rw [hparse]
  constructor
  · rintro ⟨statement, hstatement, hrun⟩
    obtain ⟨_, hspelled, ⟨hlead, hchange⟩⟩ := Statement.parse_iff_derives.1 hstatement
    exact ⟨_, _, statement, ⟨_, hlead, hspelled⟩, hchange, hrun⟩
  · rintro ⟨name, lexemes, statement, ⟨lead, hlead, hspelled⟩, hchange, hrun⟩
    exact ⟨statement, Statement.parse_iff_derives.2 ⟨_, hspelled, .mk hlead hchange⟩, hrun⟩

/-- A statement that fails changes nothing. -/
theorem evaluator_execute_error {error : EvalError} (h : (evaluator.execute t b).1 = .error error) :
    (evaluator.execute t b).2 = b := by
  simp only [evaluator] at h ⊢
  split at h
  · rfl
  · cases h

theorem exists_stores_of_execute (h : (evaluator.execute t b).1 = .ok ()) :
    ∃ name lexemes level v, Opens name lexemes t ∧ b.Stores name lexemes level v := by
  obtain ⟨c, hexecute⟩ : ∃ c, b.execute t = .ok c := by
    simp only [evaluator] at h
    split at h
    · cases h
    · exact ⟨_, ‹_›⟩
  obtain ⟨name, lexemes, statement, hopens, hchange, hrun⟩ := execute_eq_ok_iff.1 hexecute
  obtain ⟨level, v, hstores⟩ := exists_stores_of_run hchange hrun
  exact ⟨name, lexemes, level, v, hopens, hstores⟩

theorem Stores.execute (h : b.Stores name lexemes level v) (hopens : Opens name lexemes t) :
    (evaluator.execute t b).1 = .ok () ∧ b.Puts level name v (evaluator.execute t b).2 := by
  obtain ⟨statement, c, hchange, hrun, hputs⟩ := h.exists_run
  have hexecute : b.execute t = .ok c :=
    execute_eq_ok_iff.2 ⟨name, lexemes, statement, hopens, hchange, hrun⟩
  simp only [evaluator, hexecute]
  exact ⟨trivial, hputs⟩

/-- Nothing is stored by an update of a name that is bound in no scope. -/
theorem not_stores_of_unbound {sign : Symbol}
    (hsign : Statement.UpdateSign sign op ∨ Statement.CountSign sign op)
    (hunbound : ∀ level, b.slot level name = none) :
    ¬b.Stores name (.symbol sign :: lexemes) level v := by
  have hnot (old : Value) : ¬b.BoundAt level name old := by
    intro hold
    have hvalue := hold.value
    rw [hunbound] at hvalue
    cases hvalue
  intro h
  cases h with
  | declare => rcases hsign with hsign | hsign <;> cases hsign
  | update _ _ hold => exact hnot _ hold
  | count _ hold => exact hnot _ hold

/-- A statement changes one slot or nothing. If it fails, the bindings are what they were. It
succeeds if and only if its text stores a value in a slot, and then this slot is the only one that
changes: the innermost one of its name if it is a declaration, and the one in which the name is
bound if it is an update. An update of a name that is bound in no scope fails, whatever follows its
sign. -/
theorem execute_one_slot (b : Bindings) (t : Text) :
    let ran := evaluator.execute t b
    (∀ error, ran.1 = .error error → ran.2 = b) ∧
      (ran.1 = .ok () ↔
        ∃ name lexemes level v, Opens name lexemes t ∧ b.Stores name lexemes level v) ∧
      (∀ name lexemes level v, Opens name lexemes t → b.Stores name lexemes level v →
        b.Puts level name v ran.2) ∧
      ∀ name sign op lexemes, Opens name (.symbol sign :: lexemes) t →
        Statement.UpdateSign sign op ∨ Statement.CountSign sign op →
        (∀ level, b.slot level name = none) → (∃ error, ran.1 = .error error) ∧ ran.2 = b := by
  intro ran
  have hfails : ∀ error, ran.1 = .error error → ran.2 = b := fun _ => evaluator_execute_error
  refine ⟨hfails, ⟨exists_stores_of_execute, ?_⟩, fun name lexemes level v hopens h => ?_, ?_⟩
  · rintro ⟨name, lexemes, level, v, hopens, h⟩
    exact (h.execute hopens).1
  · exact (h.execute hopens).2
  · intro name sign op lexemes hopens hsign hunbound
    rcases hresult : ran.1 with error | ⟨⟩
    · exact ⟨⟨error, rfl⟩, hfails error hresult⟩
    · obtain ⟨_, _, level, v, hopens', h⟩ := exists_stores_of_execute hresult
      obtain ⟨rfl, rfl⟩ := hopens.unique hopens'
      exact absurd h (not_stores_of_unbound hsign hunbound)

/-- An update whose operand is the name itself, which is bound twice; and one of a name that is
bound nowhere, by an operand that null could be added to. -/
theorem execute_one_slot_hidden :
    let b := inner .empty (inner (.ofList [(['x'], .string ['a'])])
      (outermost (.ofList [(['x'], .null)])))
    let ran := evaluator.execute "mut x += x".toList b
    let missed := evaluator.execute "y += 'a'".toList b
    ran.1 = .ok () ∧ b.Puts 1 ['x'] (.string ['a', 'a']) ran.2 ∧
      (∃ error, missed.1 = .error error) ∧ missed.2 = b := by
  intro b ran missed
  have hscan : Lexeme.scan "mut x += x".toList
      = .ok [.reserved .mutable, .name ['x'], .symbol .plusAssign, .name ['x']] := by cbv
  have hopens : Opens ['x'] [.symbol .plusAssign, .name ['x']] "mut x += x".toList :=
    ⟨_, .inr rfl, Lexeme.scan_eq_ok_iff.1 hscan⟩
  have hreads : (Expr.var ['x']).Reads [.name ['x']] :=
    ⟨1, by decide, (Expr.Derives.atom (.name _)).loosen (Nat.le_refl _) (Nat.zero_le _)⟩
  have hbound : b.BoundAt 1 ['x'] (.string ['a']) := by
    refine ⟨rfl, fun level hlevel => ?_⟩
    obtain rfl : level = 0 := Nat.lt_one_iff.1 hlevel
    rfl
  have hstores : b.Stores ['x'] [.symbol .plusAssign, .name ['x']] 1 (.string ['a', 'a']) :=
    .update .plus hreads hbound rfl rfl
  have hscan' : Lexeme.scan "y += 'a'".toList
      = .ok [.name ['y'], .symbol .plusAssign, .string ['a']] := by cbv
  have hopens' : Opens ['y'] [.symbol .plusAssign, .string ['a']] "y += 'a'".toList :=
    ⟨[], .inl rfl, Lexeme.scan_eq_ok_iff.1 hscan'⟩
  have hunbound (level : Nat) : b.slot level ['y'] = none := by
    rcases level with _ | _ | _ | level <;> rfl
  obtain ⟨-, hsucceeds, hputs, -⟩ := execute_one_slot b "mut x += x".toList
  obtain ⟨-, -, -, hmissed⟩ := execute_one_slot b "y += 'a'".toList
  exact ⟨hsucceeds.2 ⟨_, _, _, _, hopens, hstores⟩, hputs _ _ _ _ hopens hstores,
    hmissed _ _ _ _ hopens' (.inl .plus) hunbound⟩

end Bindings

end Stencil
