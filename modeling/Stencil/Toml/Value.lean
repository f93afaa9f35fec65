import Stencil.Text.Basic

/-!
# TOML values

The values of a TOML document, and how tables come about. Only what settings need is kept of a
value: of numbers with a fraction and of dates nothing but their kind.
-/

namespace Stencil.Toml

/-- How a table came about, which decides what may still be added to it. -/
inductive Origin
  /-- By a header of its own. -/
  | header
  /-- As a part of the path of a header. -/
  | path
  /-- As a part of the dotted key of a pair. -/
  | dotted
  /-- In braces; nothing can be added. -/
  | braces
  deriving DecidableEq, Repr

/-- A TOML value. -/
inductive Value
  | string (content : Text)
  | integer (value : Int)
  | float
  | bool (value : Bool)
  | date
  | array (elements : List Value)
  | table (origin : Origin) (entries : List (Text × Value))
  /-- Tables of headers in double brackets, by their entries, latest first. -/
  | tables (elements : List (List (Text × Value)))

/-- The entries of a table, in the order in which they were added. -/
abbrev Entries := List (Text × Value)

namespace Entries

/-- The entries with the value of a key replaced. -/
def replace (key : Text) (value : Value) (entries : Entries) : Entries :=
  entries.map fun entry => if entry.1 = key then (key, value) else entry

/-- Goes down a path of tables, changes the entries of the last one by `change`, which is also shown
how that table came about, and puts the tables of the path back. Tables that are not there are made
with `origin`; if that is `dotted`, no table with a header of its own is entered. -/
def change? (origin : Origin) (change : Origin → Entries → Option Entries) :
    List Text → Origin → Entries → Option Entries
  | [], own, entries => change own entries
  | key :: path, _, entries =>
    match entries.lookup key with
    | none => do
      let inner ← change? origin change path origin []
      return entries ++ [(key, .table origin inner)]
    | some (.table own inner) => do
      guard (own ≠ .braces ∧ ¬(origin = .dotted ∧ own = .header))
      let inner ← change? origin change path own inner
      return entries.replace key (.table own inner)
    | some (.tables (latest :: earlier)) => do
      let latest ← change? origin change path .header latest
      return entries.replace key (.tables (latest :: earlier))
    | some _ => none

/-- Adds a pair with a dotted key to a table. A table made by a header takes no pairs from dotted
keys that start outside of it, and no key is given twice. -/
def addPair? (path : List Text) (key : Text) (value : Value) (own : Origin) (entries : Entries) :
    Option Entries :=
  change? .dotted (fun last entries => do
    guard (path.isEmpty ∨ last = .dotted)
    guard (entries.lookup key).isNone
    return entries ++ [(key, value)]) path own entries

/-- Opens the table of a header. It may be there as a part of an earlier path only. -/
def addHeader? (path : List Text) (key : Text) (root : Entries) : Option Entries :=
  change? .path (fun _ entries =>
    match entries.lookup key with
    | none => some (entries ++ [(key, .table .header [])])
    | some (.table .path inner) => some (entries.replace key (.table .header inner))
    | some _ => none) path .header root

/-- Opens one more table of a header in double brackets. -/
def addElement? (path : List Text) (key : Text) (root : Entries) : Option Entries :=
  change? .path (fun _ entries =>
    match entries.lookup key with
    | none => some (entries ++ [(key, .tables [[]])])
    | some (.tables elements) => some (entries.replace key (.tables ([] :: elements)))
    | some _ => none) path .header root

end Entries

end Stencil.Toml
