import Stencil.Word

/-!
# Values

What expressions evaluate to. The fields of a map stand in ascending order of their names, and no
two have the same name.
-/

namespace Stencil

/-- A value. -/
inductive Value
  | string (content : Text)
  | int (value : Word)
  | bool (value : Bool)
  | array (elements : List Value)
  | map (fields : List (Text × Value))
  | null

/-- The type of a value, as messages name it. -/
inductive ValueType
  | string
  | int
  | bool
  | array
  | map
  | null
  deriving DecidableEq, Repr

namespace ValueType

def label : ValueType → String
  | string => "string"
  | int => "int"
  | bool => "bool"
  | array => "array"
  | map => "map"
  | null => "null"

end ValueType

namespace Value

def type : Value → ValueType
  | string _ => .string
  | int _ => .int
  | bool _ => .bool
  | array _ => .array
  | map _ => .map
  | null => .null

/-- Null, false, zero and everything empty count as false. -/
def isTruthy : Value → Bool
  | string s => !s.isEmpty
  | int n => n.val != 0
  | bool b => b
  | array es => !es.isEmpty
  | map fs => !fs.isEmpty
  | null => false

/-! ## Text form -/

mutual

/-- How a value is written: null as nothing, a string without quotes, and arrays and maps in
brackets with commas between their elements. -/
def text : Value → Text
  | string s => s
  | int n => n.text
  | bool b => (if b then "true" else "false").toList
  | array es => ['['] ++ Text.joinWith [',', ' '] (elementTexts es) ++ [']']
  | map fs => ['{'] ++ Text.joinWith [',', ' '] (fieldTexts fs) ++ ['}']
  | null => []

/-- How each element is written. -/
def elementTexts : List Value → List Text
  | [] => []
  | e :: es => text e :: elementTexts es

/-- How each field is written. -/
def fieldTexts : List (Text × Value) → List Text
  | [] => []
  | (name, value) :: fs => (name ++ [':', ' '] ++ text value) :: fieldTexts fs

end

/-! ## Equality -/

mutual

/-- Whether two values are the same. Values of different types never are. -/
def same : Value → Value → Bool
  | string s, string t => s == t
  | int m, int n => m == n
  | bool a, bool b => a == b
  | array es, array fs => sameElements es fs
  | map fs, map gs => sameFields fs gs
  | null, null => true
  | _, _ => false

/-- Whether two lists of values are the same. -/
def sameElements : List Value → List Value → Bool
  | [], [] => true
  | e :: es, f :: fs => same e f && sameElements es fs
  | _, _ => false

/-- Whether two lists of fields are the same. -/
def sameFields : List (Text × Value) → List (Text × Value) → Bool
  | [], [] => true
  | (m, u) :: fs, (n, v) :: gs => m == n && same u v && sameFields fs gs
  | _, _ => false

end

/-! ## Fields of maps -/

/-- The fields with one more, in its place; a field of the same name is replaced. -/
def insertField (name : Text) (value : Value) : List (Text × Value) → List (Text × Value)
  | [] => [(name, value)]
  | (n, v) :: fs =>
    if name < n then (name, value) :: (n, v) :: fs
    else if name = n then (name, value) :: fs
    else (n, v) :: insertField name value fs

/-- The map with these fields; of several with one name the last one counts. -/
def ofFields (fields : List (Text × Value)) : Value :=
  map (fields.foldl (fun fs field => insertField field.1 field.2 fs) [])

end Value

end Stencil
