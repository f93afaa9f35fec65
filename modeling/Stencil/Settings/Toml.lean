import Stencil.Settings
import Stencil.Toml.Document

/-!
# Settings from TOML

Settings are read from a document with the limits at the top and the names in the table `codegen`.
Whatever is not there has its usual value, and entries of other names mean nothing.
-/

namespace Stencil

/-- Why settings cannot be read: the text is no TOML document, or an entry has the wrong kind of
value. -/
inductive SettingsError
  | malformed
  | wrongValue (key : Text)
  deriving DecidableEq, Repr

namespace Settings

/-- A limit: an integer that is not negative. -/
def limit (entries : Toml.Entries) (key : Text) (usual : Nat) : Except SettingsError Nat :=
  match entries.lookup key with
  | none => .ok usual
  | some (.integer n) => if n < 0 then .error (.wrongValue key) else .ok n.toNat
  | some _ => .error (.wrongValue key)

/-- A name: a string. -/
def name (key usual : Text) : Option Toml.Value → Except SettingsError Text
  | none => .ok usual
  | some (.string t) => .ok t
  | some _ => .error (.wrongValue key)

/-- The names, given where to find the value of each: by its key or by its place. -/
def readNames (value : Text → Nat → Option Toml.Value) : Except SettingsError CodeNames := do
  let usual : CodeNames := {}
  let read (key usual : Text) (place : Nat) : Except SettingsError Text :=
    name key usual (value key place)
  let builder ← read "builder".toList usual.builder 0
  let whitespace ← read "whitespace".toList usual.whitespace 1
  let indentedSuffix ← read "indented_suffix".toList usual.indentedSuffix 2
  let runtimePath ← read "runtime_path".toList usual.runtimePath 3
  return { builder, whitespace, indentedSuffix, runtimePath }

/-- The names in the entry `codegen`: a table, or an array with the names in their order. A date
gives no names. -/
def codeNames (entries : Toml.Entries) : Except SettingsError CodeNames :=
  match entries.lookup "codegen".toList with
  | none => .ok {}
  | some (.table _ inner) => readNames fun key _ => inner.lookup key
  | some (.array elements) => readNames fun _ place => elements[place]?
  | some .date => .ok {}
  | some _ => .error (.wrongValue "codegen".toList)

/-- The settings in the entries of a document. -/
def ofEntries (entries : Toml.Entries) : Except SettingsError Settings := do
  let usual : Limits := {}
  let maxDepth ← limit entries "max_depth".toList usual.maxDepth
  let loopLimit ← limit entries "loop_limit".toList usual.loopLimit
  let maxCallDepth ← limit entries "max_call_depth".toList usual.maxCallDepth
  let names ← codeNames entries
  return { limits := { maxDepth, loopLimit, maxCallDepth }, names }

/-- The settings in a TOML text. -/
def ofToml (t : Text) : Except SettingsError Settings :=
  match Toml.parse? t with
  | none => .error .malformed
  | some entries => ofEntries entries

end Settings

end Stencil
