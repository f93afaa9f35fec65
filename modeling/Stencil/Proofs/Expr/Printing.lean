import Mathlib.Data.List.Forall2
import Stencil.Proofs.Expr.Reading
import Stencil.Proofs.Expr.Written

/-!
# Writing expressions

An expression is written with parentheses only where an operand is looser than its place allows
(`Expr.slots`). What is written is a row of slots, since some operators have two signs; how deep it
nests can be computed from the expression (`Expr.nesting`). Whatever signs are chosen, and however
they are spelled, what is written derives the expression again, so it is read as the same expression
unless it nests too deep.

* `Expr.derives_slots`: what is written derives the expression.
* `Expr.Writable.exists_texts`: every expression without negative numbers and odd names can be
  written.
* `Expr.parse_derives`: reading is derivation, and reads what was written.
-/

namespace Stencil.Expr

/-- What stands somewhere in an expression: a lexeme, or any sign for an operator. -/
inductive Slot
  | fixed (lexeme : Lexeme)
  | unary (op : UnaryOp)
  | binary (op : BinaryOp)

/-- The lexemes that can stand in a slot. -/
inductive Fills : Lexeme → Slot → Prop
  | fixed (lexeme : Lexeme) : Fills lexeme (.fixed lexeme)
  | unary {sign : Lexeme} {op : UnaryOp} (h : UnarySign sign op) : Fills sign (.unary op)
  | binary {level : Nat} {sign : Lexeme} {op : BinaryOp} (h : BinarySign level sign op) :
      Fills sign (.binary op)

/-- The level that an expression stands at without parentheses. -/
def level : Expr → Nat
  | binary op _ _ => op.level
  | unary _ _ => 6
  | _ => 7

/-- What is written for an expression of level `inner` where one of level `outer` is wanted. -/
def enclose (outer inner : Nat) (slots : List Slot) : List Slot :=
  if inner < outer then
    .fixed (.symbol .leftParen) :: (slots ++ [.fixed (.symbol .rightParen)])
  else slots

/-- How deep that nests if the expression nests `n` deep. -/
def deepen (outer inner n : Nat) : Nat := if inner < outer then n + 1 else n

mutual

/-- How an expression is written. -/
def slots : Expr → List Slot
  | string content => [.fixed (.string content)]
  | int value => [.fixed (.int value)]
  | bool true => [.fixed (.reserved .true)]
  | bool false => [.fixed (.reserved .false)]
  | null => [.fixed (.reserved .null)]
  | var name => [.fixed (.name name)]
  | array es =>
    .fixed (.symbol .leftBracket) :: (elementSlots es ++ [.fixed (.symbol .rightBracket)])
  | member object name =>
    enclose 7 object.level (slots object) ++ [.fixed (.symbol .dot), .fixed (.name name)]
  | index object i =>
    enclose 7 object.level (slots object)
      ++ .fixed (.symbol .leftBracket) :: (slots i ++ [.fixed (.symbol .rightBracket)])
  | unary op e => .unary op :: enclose 6 e.level (slots e)
  | binary op left right =>
    enclose op.level left.level (slots left)
      ++ .binary op :: enclose (op.level + 1) right.level (slots right)

/-- How the elements of an array are written, with commas between them. -/
def elementSlots : List Expr → List Slot
  | [] => []
  | [e] => slots e
  | e :: es => slots e ++ .fixed (.symbol .comma) :: elementSlots es

end

mutual

/-- How deep an expression nests as it is written, its parentheses included. -/
def nesting : Expr → Nat
  | array es => elementNesting es + 1
  | member object _ => deepen 7 object.level (nesting object)
  | index object i => max (deepen 7 object.level (nesting object)) (nesting i + 1)
  | unary _ e => deepen 6 e.level (nesting e) + 1
  | binary op left right =>
    max (deepen op.level left.level (nesting left))
      (deepen (op.level + 1) right.level (nesting right))
  | _ => 1

def elementNesting : List Expr → Nat
  | [] => 0
  | [e] => nesting e
  | e :: es => max (nesting e) (elementNesting es)

end

/-! ## What is written derives the expression -/

section

variable {e : Expr} {es : List Expr} {lexemes : List Lexeme} {slots first second : List Slot}
  {outer inner n : Nat}

theorem exists_append_of_fills (h : List.Forall₂ Fills lexemes (first ++ second)) :
    ∃ l l', lexemes = l ++ l' ∧ List.Forall₂ Fills l first ∧ List.Forall₂ Fills l' second :=
  ⟨_, _, (List.take_append_drop first.length lexemes).symm,
    List.forall₂_take_append _ _ _ h, List.forall₂_drop_append _ _ _ h⟩

theorem exists_cons_of_fills {slot : Slot} (h : List.Forall₂ Fills lexemes (slot :: slots)) :
    ∃ lexeme l, lexemes = lexeme :: l ∧ Fills lexeme slot ∧ List.Forall₂ Fills l slots := by
  cases h with
  | cons hfirst hrest => exact ⟨_, _, rfl, hfirst, hrest⟩

theorem eq_cons_of_fills {lexeme : Lexeme}
    (h : List.Forall₂ Fills lexemes (.fixed lexeme :: slots)) :
    ∃ l, lexemes = lexeme :: l ∧ List.Forall₂ Fills l slots := by
  obtain ⟨_, l, rfl, hfirst, hrest⟩ := exists_cons_of_fills h
  cases hfirst
  exact ⟨l, rfl, hrest⟩

theorem eq_singleton_of_fills {lexeme : Lexeme}
    (h : List.Forall₂ Fills lexemes [.fixed lexeme]) : lexemes = [lexeme] := by
  obtain ⟨l, rfl, hrest⟩ := eq_cons_of_fills h
  rw [List.forall₂_nil_right_iff.1 hrest]

theorem level_le (e : Expr) : e.level ≤ 7 := by
  unfold level
  split
  · rename_i op _ _
    obtain ⟨sign, hsign⟩ := exists_binarySign op
    exact Nat.le_succ_of_le (Nat.le_of_lt hsign.lt)
  · decide
  · decide

theorem derives_enclose
    (h : ∀ lexemes, List.Forall₂ Fills lexemes slots → Derives (.expr e.level e) n lexemes)
    (houter : outer ≤ 7) (hfills : List.Forall₂ Fills lexemes (enclose outer e.level slots)) :
    Derives (.expr outer e) (deepen outer e.level n) lexemes := by
  unfold enclose at hfills
  unfold deepen
  split at hfills
  · rename_i hlt
    obtain ⟨_, rfl, hrest⟩ := eq_cons_of_fills hfills
    obtain ⟨l, _, rfl, hinner, hclosing⟩ := exists_append_of_fills hrest
    obtain rfl := eq_singleton_of_fills hclosing
    rw [if_pos hlt]
    have hderives := (h l hinner).loosen e.level_le (Nat.zero_le _)
    exact (Derives.parens hderives).loosen (Nat.le_refl _) houter
  · rename_i hle
    rw [if_neg hle]
    exact (h lexemes hfills).loosen e.level_le (Nat.le_of_not_lt hle)

end

mutual

theorem derives_slots : ∀ (e : Expr) (lexemes : List Lexeme),
    List.Forall₂ Fills lexemes e.slots → Derives (.expr e.level e) e.nesting lexemes
  | .string content, lexemes, h => by
    rw [eq_singleton_of_fills h]
    exact .atom (.string content)
  | .int value, lexemes, h => by
    rw [eq_singleton_of_fills h]
    exact .atom (.int value)
  | .bool true, lexemes, h => by
    rw [eq_singleton_of_fills h]
    exact .atom .true
  | .bool false, lexemes, h => by
    rw [eq_singleton_of_fills h]
    exact .atom .false
  | .null, lexemes, h => by
    rw [eq_singleton_of_fills h]
    exact .atom .null
  | .var name, lexemes, h => by
    rw [eq_singleton_of_fills h]
    exact .atom (.name name)
  | .array es, lexemes, h => by
    obtain ⟨_, rfl, hrest⟩ := eq_cons_of_fills h
    obtain ⟨l, _, rfl, helements, hclosing⟩ := exists_append_of_fills hrest
    obtain rfl := eq_singleton_of_fills hclosing
    cases es with
    | nil =>
      obtain rfl := List.forall₂_nil_right_iff.1 helements
      exact .emptyArray
    | cons e es =>
      exact .array (.inl rfl) (derives_elementSlots (e :: es) l (List.cons_ne_nil _ _) helements)
  | .member object name, lexemes, h => by
    obtain ⟨l, _, rfl, hobject, hsuffix⟩ := exists_append_of_fills h
    obtain ⟨_, rfl, hname⟩ := eq_cons_of_fills hsuffix
    obtain rfl := eq_singleton_of_fills hname
    exact .member name (derives_enclose (derives_slots object) (Nat.le_refl _) hobject)
  | .index object i, lexemes, h => by
    obtain ⟨l, _, rfl, hobject, hsuffix⟩ := exists_append_of_fills h
    obtain ⟨_, rfl, hrest⟩ := eq_cons_of_fills hsuffix
    obtain ⟨l', _, rfl, hindex, hclosing⟩ := exists_append_of_fills hrest
    obtain rfl := eq_singleton_of_fills hclosing
    exact .index (derives_enclose (derives_slots object) (Nat.le_refl _) hobject)
      ((derives_slots i l' hindex).loosen i.level_le (Nat.zero_le _))
  | .unary op e, lexemes, h => by
    obtain ⟨sign, l, rfl, hsign, hrest⟩ := exists_cons_of_fills h
    cases hsign with
    | unary hsign => exact .unary hsign (derives_enclose (derives_slots e) (by decide) hrest)
  | .binary op left right, lexemes, h => by
    obtain ⟨l, _, rfl, hleft, hrest⟩ := exists_append_of_fills h
    obtain ⟨sign, l', rfl, hsign, hright⟩ := exists_cons_of_fills hrest
    cases hsign with
    | binary hsign =>
      obtain rfl := hsign.level_eq
      have := hsign.lt
      show Derives (.expr op.level (.binary op left right)) _ _
      exact .binary hsign (derives_enclose (derives_slots left) (by omega) hleft)
        (derives_enclose (derives_slots right) (by omega) hright)

theorem derives_elementSlots : ∀ (es : List Expr) (lexemes : List Lexeme), es ≠ [] →
    List.Forall₂ Fills lexemes (elementSlots es) →
      Derives (.elements es) (elementNesting es) lexemes
  | [], _, hnonempty, _ => absurd rfl hnonempty
  | [e], lexemes, _, h => .single ((derives_slots e lexemes h).loosen e.level_le (Nat.zero_le _))
  | e :: next :: es, lexemes, _, h => by
    obtain ⟨l, _, rfl, hfirst, hrest⟩ := exists_append_of_fills h
    obtain ⟨l', rfl, hmore⟩ := eq_cons_of_fills hrest
    exact .more ((derives_slots e l hfirst).loosen e.level_le (Nat.zero_le _))
      (derives_elementSlots (next :: es) l' (List.cons_ne_nil _ _) hmore)

end

/-- A difference needs parentheses as the right operand of a difference, but not as the left one. -/
example (a b c : Text) :
    (binary .sub (binary .sub (var a) (var b)) (binary .sub (var b) (var c))).slots
      = [.fixed (.name a), .binary .sub, .fixed (.name b), .binary .sub,
        .fixed (.symbol .leftParen), .fixed (.name b), .binary .sub, .fixed (.name c),
        .fixed (.symbol .rightParen)] := rfl

/-! ## Expressions that can be written -/

/-- The text is a name, and not a reserved word. -/
def IsFree (name : Text) : Prop := Text.isName name ∧ Reserved.ofText? name = none

mutual

/-- No number in the expression is negative, and all names are free. -/
def Writable : Expr → Prop
  | int value => 0 ≤ value.val
  | var name => IsFree name
  | array es => AllWritable es
  | member object name => Writable object ∧ IsFree name
  | index object i => Writable object ∧ Writable i
  | unary _ e => Writable e
  | binary _ left right => Writable left ∧ Writable right
  | _ => True

def AllWritable : List Expr → Prop
  | [] => True
  | e :: es => Writable e ∧ AllWritable es

end

/-- Something can be written in the slot. -/
def Slot.IsWritable (slot : Slot) : Prop := ∃ lexeme t, Fills lexeme slot ∧ lexeme.Written t

theorem isWritable_fixed {lexeme : Lexeme} {t : Text} (h : lexeme.Written t) :
    (Slot.fixed lexeme).IsWritable := ⟨lexeme, t, .fixed lexeme, h⟩

theorem isWritable_name {name : Text} (h : IsFree name) : (Slot.fixed (.name name)).IsWritable :=
  isWritable_fixed (.name h.1 h.2)

theorem isWritable_symbol (s : Symbol) : (Slot.fixed (.symbol s)).IsWritable :=
  isWritable_fixed (.symbol s)

theorem UnarySign.exists_written {sign : Lexeme} {op : UnaryOp} (h : UnarySign sign op) :
    ∃ t, sign.Written t := by
  cases h with
  | bang | minus => exact ⟨_, .symbol _⟩
  | not => exact ⟨_, .reserved _⟩

theorem BinarySign.exists_written {level : Nat} {sign : Lexeme} {op : BinaryOp}
    (h : BinarySign level sign op) : ∃ t, sign.Written t := by
  cases h with
  | or | and => exact ⟨_, .reserved _⟩
  | _ => exact ⟨_, .symbol _⟩

theorem isWritable_unary (op : UnaryOp) : (Slot.unary op).IsWritable := by
  obtain ⟨sign, hsign⟩ := exists_unarySign op
  obtain ⟨t, hwritten⟩ := hsign.exists_written
  exact ⟨sign, t, .unary hsign, hwritten⟩

theorem isWritable_binary (op : BinaryOp) : (Slot.binary op).IsWritable := by
  obtain ⟨sign, hsign⟩ := exists_binarySign op
  obtain ⟨t, hwritten⟩ := hsign.exists_written
  exact ⟨sign, t, .binary hsign, hwritten⟩

theorem forall_enclose {outer inner : Nat} {slots : List Slot}
    (h : ∀ slot ∈ slots, slot.IsWritable) :
    ∀ slot ∈ enclose outer inner slots, slot.IsWritable := by
  unfold enclose
  split
  · simpa [or_imp, forall_and, isWritable_symbol] using h
  · exact h

mutual

theorem forall_slots : ∀ e : Expr, e.Writable → ∀ slot ∈ e.slots, slot.IsWritable
  | .string content, _ => by
    obtain ⟨body, hbody⟩ := Lexeme.exists_quotedBody content
    exact List.forall_mem_singleton.2 (isWritable_fixed (.string (by decide) hbody))
  | .int value, h => List.forall_mem_singleton.2 (isWritable_fixed (Lexeme.written_toDigits h))
  | .bool true, _ => List.forall_mem_singleton.2 (isWritable_fixed (.reserved .true))
  | .bool false, _ => List.forall_mem_singleton.2 (isWritable_fixed (.reserved .false))
  | .null, _ => List.forall_mem_singleton.2 (isWritable_fixed (.reserved .null))
  | .var name, h => List.forall_mem_singleton.2 (isWritable_name h)
  | .array es, h => by
    refine List.forall_mem_cons.2 ⟨isWritable_symbol _, List.forall_mem_append.2 ⟨?_, ?_⟩⟩
    · exact forall_elementSlots es h
    · exact List.forall_mem_singleton.2 (isWritable_symbol _)
  | .member object name, ⟨hobject, hname⟩ => by
    refine List.forall_mem_append.2 ⟨forall_enclose (forall_slots object hobject), ?_⟩
    exact List.forall_mem_cons.2 ⟨isWritable_symbol _,
      List.forall_mem_singleton.2 (isWritable_name hname)⟩
  | .index object i, ⟨hobject, hindex⟩ => by
    refine List.forall_mem_append.2 ⟨forall_enclose (forall_slots object hobject), ?_⟩
    refine List.forall_mem_cons.2 ⟨isWritable_symbol _, List.forall_mem_append.2 ⟨?_, ?_⟩⟩
    · exact forall_slots i hindex
    · exact List.forall_mem_singleton.2 (isWritable_symbol _)
  | .unary op e, h =>
    List.forall_mem_cons.2 ⟨isWritable_unary op, forall_enclose (forall_slots e h)⟩
  | .binary op left right, ⟨hleft, hright⟩ => by
    refine List.forall_mem_append.2 ⟨forall_enclose (forall_slots left hleft), ?_⟩
    exact List.forall_mem_cons.2 ⟨isWritable_binary op, forall_enclose (forall_slots right hright)⟩

theorem forall_elementSlots : ∀ es : List Expr, AllWritable es →
    ∀ slot ∈ elementSlots es, slot.IsWritable
  | [], _ => List.forall_mem_nil _
  | [e], h => forall_slots e h.1
  | e :: next :: es, ⟨he, hes⟩ => by
    refine List.forall_mem_append.2 ⟨forall_slots e he, ?_⟩
    exact List.forall_mem_cons.2 ⟨isWritable_symbol _, forall_elementSlots (next :: es) hes⟩

end

/-- An expression without negative numbers and without names that are taken can be written. -/
theorem Writable.exists_texts {e : Expr} (h : e.Writable) : ∃ lexemes texts,
    List.Forall₂ Fills lexemes e.slots ∧ List.Forall₂ Lexeme.Written lexemes texts := by
  have hslots := forall_slots e h
  generalize e.slots = slots at hslots
  induction slots with
  | nil => exact ⟨[], [], .nil, .nil⟩
  | cons slot slots ih =>
    rw [List.forall_mem_cons] at hslots
    obtain ⟨⟨lexeme, t, hfills, hwritten⟩, hrest⟩ := hslots
    obtain ⟨lexemes, texts, hfills', hwritten'⟩ := ih hrest
    exact ⟨lexeme :: lexemes, t :: texts, .cons hfills hfills', .cons hwritten hwritten'⟩

/-! ## Reading -/

/-- If a text has lexemes, it is read as an expression exactly if these derive it and do not nest
too deep. In particular, whatever is written for an expression, with blanks between the lexemes, is
read as that expression if it does not nest too deep; and something can be written for every
expression without negative numbers and without names that are taken. -/
theorem parse_derives :
    (∀ t lexemes e, Lexeme.scan t = .ok lexemes →
      (parse t = .ok e ↔ ∃ n, n ≤ ExprError.maxNesting ∧ Derives (.expr 0 e) n lexemes)) ∧
    ∀ e : Expr, e.Writable →
      (∃ lexemes texts,
        List.Forall₂ Fills lexemes e.slots ∧ List.Forall₂ Lexeme.Written lexemes texts) ∧
      (e.nesting ≤ ExprError.maxNesting → ∀ lexemes texts gap,
        List.Forall₂ Fills lexemes e.slots → List.Forall₂ Lexeme.Written lexemes texts →
        gap ≠ [] → (∀ c ∈ gap, Text.isBlank c) → parse (Text.joinWith gap texts) = .ok e) := by
  constructor
  · intro t lexemes e hscan
    exact parse_eq_ok_of_scan_iff hscan
  · intro e he
    refine ⟨he.exists_texts, fun hnesting lexemes texts gap hfills hwritten hne hgap => ?_⟩
    have hscan : Lexeme.scan (Text.joinWith gap texts) = .ok lexemes :=
      Lexeme.scan_eq_ok_iff.2 (Lexeme.spelled_joinWith hwritten hgap hne)
    have hderives := (derives_slots e lexemes hfills).loosen e.level_le (Nat.zero_le _)
    exact (parse_eq_ok_of_scan_iff hscan).2 ⟨e.nesting, hnesting, hderives⟩

end Stencil.Expr
