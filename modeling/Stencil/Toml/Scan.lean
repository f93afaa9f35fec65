import Stencil.Toml.Value

/-!
# Reading TOML from text

Readers for the parts of a TOML document. A reader takes something off the front of a text or fails;
where it fails, another one may be tried from the same place.
-/

namespace Stencil.Toml

/-- A reader of one thing from the front of a text. -/
abbrev Scan := StateT Text Option

namespace Scan

variable {α : Type}

/-- One character with a property. -/
def char (p : Char → Bool) : Scan Char := fun t =>
  match t with
  | c :: rest => if p c then some (c, rest) else none
  | [] => none

/-- A fixed text. -/
def literal (expected : Text) : Scan Unit := fun t =>
  if expected.isPrefixOf t then some ((), t.drop expected.length) else none

/-- The longest run of characters with a property. -/
def run (p : Char → Bool) : Scan Text := fun t => some (t.takeWhile p, t.dropWhile p)

/-- The end of the text. -/
def atEnd : Scan Unit := fun t => if t.isEmpty then some ((), t) else none

/-- As many things as there are, up to one that takes nothing off the text. -/
def manyFrom (item : Scan α) (t : Text) : List α × Text :=
  match item t with
  | none => ([], t)
  | some (a, rest) =>
    if rest.length < t.length then
      let (as, rest) := manyFrom item rest
      (a :: as, rest)
    else ([a], rest)
termination_by t.length

/-- As many things as there are. -/
def many (item : Scan α) : Scan (List α) := fun t => some (manyFrom item t)

/-- Perhaps something. -/
def perhaps (item : Scan α) : Scan (Option α) := (some <$> item) <|> pure none

/-! ## Blanks, comments and line ends -/

def isSpace (c : Char) : Bool := c == ' ' || c == '\t'

/-- Characters other than line ends that may stand in comments and strings. -/
def isPlain (c : Char) : Bool := c == '\t' || (32 ≤ c.toNat && c.toNat ≠ 127)

def spaces : Scan Unit := discard (run isSpace)

def lineEnd : Scan Unit := literal ['\n'] <|> literal ['\r', '\n']

def comment : Scan Unit := do
  literal ['#']
  discard (run isPlain)

/-- Blanks, comments and line ends, as they may stand between the elements of an array. -/
def filler : Scan Unit :=
  discard (many (discard (char isSpace) <|> lineEnd <|> (do comment; lineEnd)))

/-! ## Strings and keys -/

def isHexDigit (c : Char) : Bool :=
  Text.isDigit c || ('a' ≤ c && c ≤ 'f') || ('A' ≤ c && c ≤ 'F')

/-- The value of a digit of base 36. -/
def digitValue (c : Char) : Nat :=
  if Text.isDigit c then c.toNat - '0'.toNat
  else if 'a' ≤ c then c.toNat - 'a'.toNat + 10 else c.toNat - 'A'.toNat + 10

/-- The number that digits of a base make up. -/
def ofDigits (base : Nat) (digits : Text) : Nat :=
  digits.foldl (fun n c => base * n + digitValue c) 0

/-- The character with a code point of `n` digits. -/
def codePoint (n : Nat) : Scan Char := fun t => do
  let digits := t.take n
  guard (digits.length = n ∧ digits.all isHexDigit)
  let code := ofDigits 16 digits
  guard code.isValidChar
  return (Char.ofNat code, t.drop n)

/-- What stands for a character after a backslash. -/
def escape : Scan Char := do
  literal ['\\']
  match ← char fun _ => true with
  | 'b' => return '\x08'
  | 't' => return '\t'
  | 'n' => return '\n'
  | 'f' => return '\x0c'
  | 'r' => return '\r'
  | '"' => return '"'
  | '\\' => return '\\'
  | 'u' => codePoint 4
  | 'U' => codePoint 8
  | _ => failure

/-- A string in double quotes on one line. -/
def basicString : Scan Text := do
  literal ['"']
  let content ← many (char (fun c => isPlain c && c != '"' && c != '\\') <|> escape)
  literal ['"']
  return content

/-- A string in single quotes on one line. -/
def literalString : Scan Text := do
  literal ['\'']
  let content ← run fun c => isPlain c && c != '\''
  literal ['\'']
  return content

/-- The end of a string in triple quotes; up to two quotes before it belong to the string. -/
def tripleEnd (quote : Char) : Scan Text := fun t =>
  let quotes := t.takeWhile (· == quote)
  if 3 ≤ quotes.length ∧ quotes.length ≤ 5 then
    some (quotes.drop 3, t.drop quotes.length)
  else none

/-- One or two quotes in a string in triple quotes. -/
def fewQuotes (quote : Char) : Scan Text := fun t =>
  let quotes := t.takeWhile (· == quote)
  if 1 ≤ quotes.length ∧ quotes.length ≤ 2 then some (quotes, t.drop quotes.length) else none

/-- A backslash at the end of a line, with all blanks and line ends after it. -/
def continuation : Scan Text := do
  literal ['\\']
  spaces
  lineEnd
  discard (many (discard (char isSpace) <|> lineEnd))
  return []

/-- A string in triple double quotes. -/
def longString : Scan Text := do
  literal ['"', '"', '"']
  discard (perhaps lineEnd)
  let single (c : Char) : Text := [c]
  let parts ← many ((single <$> char fun c => isPlain c && c != '"' && c != '\\')
    <|> (do lineEnd; return ['\n']) <|> continuation <|> (single <$> escape) <|> fewQuotes '"')
  return parts.flatten ++ (← tripleEnd '"')

/-- A string in triple single quotes. -/
def longLiteral : Scan Text := do
  literal ['\'', '\'', '\'']
  discard (perhaps lineEnd)
  let single (c : Char) : Text := [c]
  let parts ← many ((single <$> char fun c => isPlain c && c != '\'')
    <|> (do lineEnd; return ['\n']) <|> fewQuotes '\'')
  return parts.flatten ++ (← tripleEnd '\'')

def string : Scan Text := longString <|> longLiteral <|> basicString <|> literalString

def isBare (c : Char) : Bool :=
  Text.isDigit c || ('a' ≤ c && c ≤ 'z') || ('A' ≤ c && c ≤ 'Z') || c == '_' || c == '-'

/-- One part of a key. -/
def simpleKey : Scan Text := do
  let t ← basicString <|> literalString <|> (do
    let t ← run isBare
    guard !t.isEmpty
    return t)
  return t

/-- How many levels arrays and tables in braces may nest, and how many parts a key may have. -/
def maxNesting : Nat := 79

/-- A key with its parts between dots: all but the last one, and the last one. -/
def key : Scan (List Text × Text) := do
  let first ← simpleKey
  let more ← many (do
    spaces
    literal ['.']
    spaces
    simpleKey)
  guard ((first :: more).length ≤ maxNesting)
  return ((first :: more).dropLast, (first :: more).getLastD first)

/-! ## Numbers and dates -/

/-- Whether the text is a run of digits with single underscores between them. -/
def isDigits (p : Char → Bool) : Text → Bool
  | [] => false
  | [c] => p c
  | c :: '_' :: rest => p c && isDigits p rest
  | c :: rest => p c && isDigits p rest

/-- The text without its sign. -/
def unsigned : Text → Text
  | '+' :: t => t
  | '-' :: t => t
  | t => t

def isDecimal (t : Text) : Bool :=
  isDigits Text.isDigit t && (t.length == 1 || t.head? != some '0')

/-- The integer that a text is. Only decimal ones have a sign, and they have no leading zeros. -/
def integer? (t : Text) : Option Int :=
  let value (base : Nat) (digits : Text) : Int := ofDigits base (digits.filter (· != '_'))
  match t with
  | '0' :: 'x' :: digits => if isDigits isHexDigit digits then some (value 16 digits) else none
  | '0' :: 'o' :: digits =>
    if isDigits (fun c => '0' ≤ c && c ≤ '7') digits then some (value 8 digits) else none
  | '0' :: 'b' :: digits =>
    if isDigits (fun c => c == '0' || c == '1') digits then some (value 2 digits) else none
  | _ =>
    let digits := unsigned t
    if isDecimal digits then
      some (if t.head? = some '-' then -value 10 digits else value 10 digits)
    else none

/-- The digits before the point, the fraction with its point, and the exponent with its letter. -/
def floatParts (t : Text) : Text × Text × Text :=
  let isExponent (c : Char) : Bool := c == 'e' || c == 'E'
  let mantissa := (unsigned t).takeWhile (!isExponent ·)
  (mantissa.takeWhile (· != '.'), mantissa.dropWhile (· != '.'),
    (unsigned t).dropWhile (!isExponent ·))

/-- Whether the text is a number with a fraction or an exponent, or a special one. -/
def isFloat (t : Text) : Bool :=
  if unsigned t = "inf".toList ∨ unsigned t = "nan".toList then true
  else
    let (whole, fraction, exponent) := floatParts t
    isDecimal whole && (fraction.isEmpty || isDigits Text.isDigit (fraction.drop 1))
      && (exponent.isEmpty || isDigits Text.isDigit (unsigned (exponent.drop 1)))
      && !(fraction.isEmpty && exponent.isEmpty)

/-- The least number that rounds to infinity as a float of 64 bits: it lies halfway between the
greatest finite one, `2 ^ 1024 - 2 ^ 971`, and `2 ^ 1024`. -/
def floatBound : Nat := Nat.pow 2 1024 - Nat.pow 2 970

/-- Whether a number with a fraction or an exponent is positive and rounds to infinity. The bound
has 309 digits before the point, so only numbers with as many are compared with it. -/
def isTooLarge (t : Text) : Bool :=
  let (whole, fraction, exponent) := floatParts t
  let digits := ((whole ++ fraction).filter Text.isDigit).dropWhile (· == '0')
  let shift : Int := ofDigits 10 (exponent.filter Text.isDigit)
  let scale := (if exponent.contains '-' then -shift else shift)
    - (fraction.filter Text.isDigit).length
  let width := digits.length + scale
  if t.head? = some '-' ∨ digits.isEmpty ∨ width < 309 then false
  else if 309 < width then true
  else floatBound * Nat.pow 10 (-scale).toNat ≤ ofDigits 10 digits * Nat.pow 10 scale.toNat

/-- A number of exactly `n` digits. -/
def fixed (n : Nat) : Scan Nat := fun t =>
  let digits := t.take n
  if digits.length = n ∧ digits.all Text.isDigit then some (ofDigits 10 digits, t.drop n) else none

/-- Number of days of a month. -/
def daysIn (year month : Nat) : Nat :=
  if month = 2 then
    if year % 4 = 0 ∧ (year % 100 ≠ 0 ∨ year % 400 = 0) then 29 else 28
  else if month = 4 ∨ month = 6 ∨ month = 9 ∨ month = 11 then 30
  else 31

def calendarDate : Scan Unit := do
  let year ← fixed 4
  literal ['-']
  let month ← fixed 2
  literal ['-']
  let day ← fixed 2
  guard (1 ≤ month ∧ month ≤ 12 ∧ 1 ≤ day ∧ day ≤ daysIn year month)

def clockTime : Scan Unit := do
  let hour ← fixed 2
  literal [':']
  let minute ← fixed 2
  literal [':']
  let second ← fixed 2
  guard (hour ≤ 23 ∧ minute ≤ 59 ∧ second ≤ 60)
  discard (perhaps (do
    literal ['.']
    let digits ← run Text.isDigit
    guard !digits.isEmpty))

/-- How far a time is from universal time. -/
def offset : Scan Unit :=
  discard (char fun c => c == 'Z' || c == 'z') <|> (do
    discard (char fun c => c == '+' || c == '-')
    let hour ← fixed 2
    literal [':']
    let minute ← fixed 2
    guard (hour ≤ 23 ∧ minute ≤ 59))

/-- A date, a time, or a date with a time. -/
def date : Scan Unit :=
  (do
    calendarDate
    discard (perhaps (do
      discard (char fun c => c == 'T' || c == 't' || c == ' ')
      clockTime
      discard (perhaps offset))))
  <|> clockTime

/-- A number. Integers have 64 bits, and no positive number may round to infinity. -/
def number : Scan Value := do
  let t ← run fun c => isBare c || c == '+' || c == '.'
  match integer? t with
  | some n =>
    guard (-0x8000000000000000 ≤ n ∧ n < 0x8000000000000000)
    return .integer n
  | none =>
    guard (isFloat t ∧ !isTooLarge t)
    return .float

/-! ## Values -/

/-- The elements of an array after its opening bracket. A comma may follow the last one. -/
def elements (element : Scan Value) : Scan (List Value) := do
  filler
  let first ← perhaps element
  let more ← if first.isNone then pure [] else do
    let more ← many (do
      filler
      literal [',']
      filler
      element)
    filler
    discard (perhaps (literal [',']))
    pure more
  filler
  literal [']']
  return first.toList ++ more

/-- A pair of a key and a value. -/
def pair (element : Scan Value) : Scan ((List Text × Text) × Value) := do
  let k ← key
  spaces
  literal ['=']
  spaces
  return (k, ← element)

/-- The pairs of a table in braces after the opening one. -/
def pairs (element : Scan Value) : Scan Entries := do
  spaces
  let first ← perhaps (pair element)
  let more ← if first.isNone then pure [] else many (do
    spaces
    literal [',']
    spaces
    pair element)
  spaces
  literal ['}']
  let add (entries : Entries) (p : (List Text × Text) × Value) : Option Entries :=
    Entries.addPair? p.1.1 p.1.2 p.2 .header entries
  fun t => ((first.toList ++ more).foldlM add []).map fun entries => (entries, t)

/-- A value that is neither an array nor a table. -/
def scalar : Scan Value :=
  (.string <$> string)
    <|> (do literal "true".toList; return .bool true)
    <|> (do literal "false".toList; return .bool false)
    <|> (do date; return .date)
    <|> number

/-- A value in which arrays and tables in braces nest at most `n` deep. -/
def valueAt : Nat → Scan Value
  | 0 => scalar
  | n + 1 => scalar
    <|> (do literal ['[']; return .array (← elements (valueAt n)))
    <|> (do literal ['{']; return .table .braces (← pairs (valueAt n)))

/-- A value. -/
def value : Scan Value := valueAt maxNesting

end Scan

end Stencil.Toml
