import Stencil.Expr.Basic
import Stencil.Value

/-!
# Evaluating expressions

The value of an expression, given the values of names. A name without a value is null. Arithmetic
never wraps around: a result that does not fit a word is an error.
-/

namespace Stencil

/-- Why an expression has no value, or a statement cannot be executed. -/
inductive EvalError
  | malformed (error : ExprError)
  | missingAttribute (name : Text)
  | noAttributes (name : Text) (type : ValueType)
  | missingKey (key : Text)
  | outOfBounds (index : Word)
  | notIndexable (object index : ValueType)
  | overflow
  | notNegatable (type : ValueType)
  | divisionByZero
  | notComparable (left right : ValueType)
  | unsupported (op : BinaryOp) (left right : ValueType)
  | undefinedVariable (name : Text)
  | notIterable (type : ValueType)
  deriving DecidableEq

namespace EvalError

/-- The wording of an error. -/
def message : EvalError → Text
  | malformed error => error.message
  | missingAttribute name => "attribute ".toList ++ name ++ " not found".toList
  | noAttributes name type =>
    "cannot get attribute ".toList ++ name ++ " of ".toList ++ type.label.toList
  | missingKey key => "key ".toList ++ key ++ " not found".toList
  | outOfBounds index => "index ".toList ++ index.text ++ " out of bounds".toList
  | notIndexable object index =>
    "cannot index ".toList ++ object.label.toList ++ " with ".toList ++ index.label.toList
  | overflow => "integer overflow".toList
  | notNegatable type => "cannot negate ".toList ++ type.label.toList
  | divisionByZero => "division by zero".toList
  | notComparable left right =>
    "cannot compare ".toList ++ left.label.toList ++ " with ".toList ++ right.label.toList
  | unsupported op left right =>
    "unsupported operands for ".toList ++ op.label.toList ++ ": ".toList ++ left.label.toList
      ++ " and ".toList ++ right.label.toList
  | undefinedVariable name => "variable ".toList ++ name ++ " is not defined".toList
  | notIterable type => "cannot iterate over ".toList ++ type.label.toList

end EvalError

/-- The result of word arithmetic as a value. -/
def Word.toValue : Option Word → Except EvalError Value
  | some n => .ok (.int n)
  | none => .error .overflow

namespace Value

/-- An attribute of a value: a field of a map, or else the length of a map, array or string. -/
def member (name : Text) : Value → Except EvalError Value
  | map fs =>
    match fs.lookup name with
    | some v => .ok v
    | none =>
      if name = "len".toList then .ok (int (.ofCount fs.length))
      else .error (.missingAttribute name)
  | array es =>
    if name = "len".toList then .ok (int (.ofCount es.length))
    else .error (.noAttributes name .array)
  | string s =>
    if name = "len".toList then .ok (int (.ofCount s.length))
    else .error (.noAttributes name .string)
  | v => .error (.noAttributes name v.type)

/-- A field of a map by its name, or an element of an array by its number. -/
def index : Value → Value → Except EvalError Value
  | map fs, string s =>
    match fs.lookup s with
    | some v => .ok v
    | none => .error (.missingKey s)
  | array es, int i =>
    if i.val < 0 then .error (.outOfBounds i)
    else
      match es[i.val.toNat]? with
      | some v => .ok v
      | none => .error (.outOfBounds i)
  | v, i => .error (.notIndexable v.type i.type)

/-- What a loop goes through: the elements of an array, the names of a map, nothing for null. -/
def items : Value → Except EvalError (List Value)
  | array es => .ok es
  | map fs => .ok (fs.map fun field => string field.1)
  | null => .ok []
  | v => .error (.notIterable v.type)

/-- How two values of one type are ordered: integers by size, strings by their code points. -/
def order : Value → Value → Except EvalError Ordering
  | int m, int n => .ok (compareOfLessAndEq m.val n.val)
  | string s, string t => .ok (compareOfLessAndEq s t)
  | v, w => .error (.notComparable v.type w.type)

end Value

namespace UnaryOp

/-- The value of an operator before a value. -/
def apply : UnaryOp → Value → Except EvalError Value
  | not, v => .ok (.bool !v.isTruthy)
  | neg, .int n => Word.toValue n.neg?
  | neg, v => .error (.notNegatable v.type)

end UnaryOp

namespace BinaryOp

/-- The value of an operator between two values. A sum with a string is the text of both. -/
def apply : BinaryOp → Value → Value → Except EvalError Value
  | eq, v, w => .ok (.bool (v.same w))
  | ne, v, w => .ok (.bool !v.same w)
  | lt, v, w => (v.order w).map fun o => .bool o.isLT
  | le, v, w => (v.order w).map fun o => .bool o.isLE
  | gt, v, w => (v.order w).map fun o => .bool o.isGT
  | ge, v, w => (v.order w).map fun o => .bool o.isGE
  | add, .int m, .int n => Word.toValue (m.add? n)
  | add, .array es, .array fs => .ok (.array (es ++ fs))
  | add, .string s, w => .ok (.string (s ++ w.text))
  | add, v, .string t => .ok (.string (v.text ++ t))
  | sub, .int m, .int n => Word.toValue (m.sub? n)
  | mul, .int m, .int n => Word.toValue (m.mul? n)
  | div, .int m, .int n =>
    if n.val = 0 then .error .divisionByZero else Word.toValue (m.div? n)
  | rem, .int m, .int n =>
    if n.val = 0 then .error .divisionByZero else Word.toValue (m.rem? n)
  | op, v, w => .error (.unsupported op v.type w.type)

end BinaryOp

namespace Expr

mutual

/-- The value of an expression. The right operand of `and` and `or` is evaluated only if the left
one does not settle the result; all other operands are evaluated from left to right. -/
def eval (lookup : Text → Option Value) : Expr → Except EvalError Value
  | string s => .ok (.string s)
  | int n => .ok (.int n)
  | bool b => .ok (.bool b)
  | null => .ok .null
  | var name => .ok ((lookup name).getD .null)
  | array es =>
    match evalAll lookup es with
    | .error error => .error error
    | .ok vs => .ok (.array vs)
  | member object name =>
    match eval lookup object with
    | .error error => .error error
    | .ok v => v.member name
  | index object i =>
    match eval lookup object with
    | .error error => .error error
    | .ok v =>
      match eval lookup i with
      | .error error => .error error
      | .ok w => v.index w
  | unary op e =>
    match eval lookup e with
    | .error error => .error error
    | .ok v => op.apply v
  | binary op left right =>
    match eval lookup left with
    | .error error => .error error
    | .ok v =>
      if op = .and ∧ !v.isTruthy then .ok (.bool false)
      else if op = .or ∧ v.isTruthy then .ok (.bool true)
      else
        match eval lookup right with
        | .error error => .error error
        | .ok w => if op = .and ∨ op = .or then .ok (.bool w.isTruthy) else op.apply v w

/-- The values of expressions, from left to right. -/
def evalAll (lookup : Text → Option Value) : List Expr → Except EvalError (List Value)
  | [] => .ok []
  | e :: es =>
    match eval lookup e with
    | .error error => .error error
    | .ok v =>
      match evalAll lookup es with
      | .error error => .error error
      | .ok vs => .ok (v :: vs)

end

end Expr

end Stencil
