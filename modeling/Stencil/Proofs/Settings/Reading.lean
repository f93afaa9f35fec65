import Stencil.Proofs.Toml.Documents
import Stencil.Settings.Toml

/-!
# What a document says about the settings

The settings that the entries of a document give (`Settings.Gives`): each limit and each name is
looked up by its key, and what is not there has its usual value. Nothing else in a document matters,
nor does the order of its entries. Reading fails only where a key that means something has a value
that cannot be read, and the error names that key (`Settings.Misread`).

Main statements:

* `Settings.ofEntries_eq_ok_iff`, `Settings.exists_ofEntries_eq_ok_iff`: what is read from entries,
  and when anything is.
* `Settings.misread_of_error`: what an error says.
* `Settings.ofToml_text`: what is read from a document that is written out.
* `Settings.ofToml_document`: settings that are written out are read back.
-/

namespace Stencil

namespace Settings

/-! ## What entries give -/

/-- What the value of a limit, if it is there, gives for it. -/
inductive GivesLimit (usual : Nat) : Option Toml.Value → Nat → Prop
  | absent : GivesLimit usual none usual
  | integer (n : Nat) : GivesLimit usual (some (.integer n)) n

/-- What the value of a name, if it is there, gives for it. -/
inductive GivesName (usual : Text) : Option Toml.Value → Text → Prop
  | absent : GivesName usual none usual
  | string (t : Text) : GivesName usual (some (.string t)) t

/-- How values of names are found in the value of `codegen`, if that is there: by their keys in a
table, and by their places in an array. In a date there are none. -/
inductive Finds : Option Toml.Value → (Text → Nat → Option Toml.Value) → Prop
  | absent : Finds none fun _ _ => none
  | table (origin : Toml.Origin) (entries : Toml.Entries) :
      Finds (some (.table origin entries)) fun key _ => entries.lookup key
  | array (elements : List Toml.Value) :
      Finds (some (.array elements)) fun _ place => elements[place]?
  | date : Finds (some .date) fun _ _ => none

/-- What the values of the names give. -/
structure GivesNames (value : Text → Nat → Option Toml.Value) (names : CodeNames) : Prop where
  builder : GivesName "builder".toList (value "builder".toList 0) names.builder
  whitespace : GivesName "whitespace".toList (value "whitespace".toList 1) names.whitespace
  indentedSuffix :
    GivesName "_indented".toList (value "indented_suffix".toList 2) names.indentedSuffix
  runtimePath : GivesName "cutwork".toList (value "runtime_path".toList 3) names.runtimePath

/-- The settings that the entries of a document give. -/
structure Gives (entries : Toml.Entries) (settings : Settings) : Prop where
  maxDepth : GivesLimit 64 (entries.lookup "max_depth".toList) settings.limits.maxDepth
  loopLimit : GivesLimit 100000 (entries.lookup "loop_limit".toList) settings.limits.loopLimit
  maxCallDepth :
    GivesLimit 64 (entries.lookup "max_call_depth".toList) settings.limits.maxCallDepth
  names : ∃ value, Finds (entries.lookup "codegen".toList) value ∧ GivesNames value settings.names

/-- The keys of the limits. -/
def limitKeys : List Text :=
  ["max_depth".toList, "loop_limit".toList, "max_call_depth".toList]

/-- The keys of the names, with their places. -/
def nameKeys : List (Text × Nat) :=
  [("builder".toList, 0), ("whitespace".toList, 1), ("indented_suffix".toList, 2),
   ("runtime_path".toList, 3)]

/-- The key is there with a value that cannot be read: a limit that is no number, a name that is no
string, or a `codegen` in which no names can be looked for. -/
inductive Misread (entries : Toml.Entries) : Text → Prop
  | limit {key : Text} {value : Toml.Value} (hkey : key ∈ limitKeys)
      (hvalue : entries.lookup key = some value) (hwrong : ∀ n : Nat, value ≠ .integer n) :
      Misread entries key
  | codegen {value : Toml.Value} (hvalue : entries.lookup "codegen".toList = some value)
      (hwrong : ∀ found, ¬Finds (some value) found) : Misread entries "codegen".toList
  | name {found : Text → Nat → Option Toml.Value} {key : Text} {place : Nat} {value : Toml.Value}
      (hfound : Finds (entries.lookup "codegen".toList) found) (hkey : (key, place) ∈ nameKeys)
      (hvalue : found key place = some value) (hwrong : ∀ t, value ≠ .string t) :
      Misread entries key

/-! ## Steps of reading -/

section Bind

variable {ε α β : Type} {x : Except ε α} {f : α → Except ε β}

theorem bind_eq_ok_iff {b : β} : (x >>= f) = .ok b ↔ ∃ a, x = .ok a ∧ f a = .ok b := by
  cases x with
  | error error =>
    constructor
    · rintro ⟨⟩
    · rintro ⟨_, ⟨⟩, _⟩
  | ok a =>
    constructor
    · exact fun h => ⟨a, rfl, h⟩
    · rintro ⟨_, ⟨⟩, h⟩
      exact h

theorem bind_eq_error_iff {error : ε} :
    (x >>= f) = .error error ↔ x = .error error ∨ ∃ a, x = .ok a ∧ f a = .error error := by
  cases x with
  | error error =>
    constructor
    · rintro ⟨⟩
      exact .inl rfl
    · rintro (⟨⟨⟩⟩ | ⟨_, ⟨⟩, _⟩)
      rfl
  | ok a =>
    constructor
    · exact fun h => .inr ⟨a, rfl, h⟩
    · rintro (⟨⟨⟩⟩ | ⟨_, ⟨⟩, h⟩)
      exact h

end Bind

variable {entries : Toml.Entries} {settings : Settings} {error : SettingsError}
  {value : Text → Nat → Option Toml.Value} {names : CodeNames}

section Limit

variable {key : Text} {usual : Nat}

theorem limit_eq_ok_iff {n : Nat} :
    limit entries key usual = .ok n ↔ GivesLimit usual (entries.lookup key) n := by
  unfold limit
  constructor
  · intro h
    split at h
    · rename_i habsent
      cases h
      rw [habsent]
      exact .absent
    · rename_i hinteger
      split at h
      · cases h
      · rename_i hnonneg
        cases h
        obtain ⟨m, rfl⟩ := Int.eq_ofNat_of_zero_le (Int.not_lt.1 hnonneg)
        rw [hinteger]
        exact .integer m
    · cases h
  · intro h
    generalize entries.lookup key = found at h
    cases h with
    | absent => rfl
    | integer => exact if_neg (Int.not_lt.2 (Int.natCast_nonneg n))

theorem limit_eq_error (h : limit entries key usual = .error error) :
    error = .wrongValue key ∧
      ∃ value, entries.lookup key = some value ∧ ∀ n : Nat, value ≠ .integer n := by
  unfold limit at h
  split at h
  · cases h
  · rename_i hinteger
    split at h
    · rename_i hnegative
      cases h
      refine ⟨rfl, _, hinteger, ?_⟩
      rintro m ⟨⟩
      exact absurd hnegative (Int.not_lt.2 (Int.natCast_nonneg m))
    · cases h
  · rename_i hwrong hvalue
    cases h
    refine ⟨rfl, _, hvalue, ?_⟩
    rintro m rfl
    exact hwrong m rfl

end Limit

section Names

variable {key usual : Text} {found : Option Toml.Value}

theorem name_eq_ok_iff {t : Text} : name key usual found = .ok t ↔ GivesName usual found t := by
  constructor
  · intro h
    unfold name at h
    split at h
    · cases h
      exact .absent
    · cases h
      exact .string _
    · cases h
  · intro h
    cases h <;> rfl

theorem name_eq_error (h : name key usual found = .error error) :
    error = .wrongValue key ∧ ∃ value, found = some value ∧ ∀ t, value ≠ .string t := by
  unfold name at h
  split at h
  · cases h
  · cases h
  · rename_i hwrong
    cases h
    refine ⟨rfl, _, rfl, ?_⟩
    rintro t rfl
    exact hwrong t rfl

theorem readNames_eq_ok_iff : readNames value = .ok names ↔ GivesNames value names := by
  simp only [readNames, bind_eq_ok_iff, name_eq_ok_iff]
  constructor
  · rintro ⟨builder, hbuilder, whitespace, hwhitespace, suffix, hsuffix, path, hpath, h⟩
    cases h
    exact ⟨hbuilder, hwhitespace, hsuffix, hpath⟩
  · rintro ⟨hbuilder, hwhitespace, hsuffix, hpath⟩
    exact ⟨_, hbuilder, _, hwhitespace, _, hsuffix, _, hpath, rfl⟩

theorem readNames_eq_error (h : readNames value = .error error) :
    ∃ key place, (key, place) ∈ nameKeys ∧ error = .wrongValue key ∧
      ∃ found, value key place = some found ∧ ∀ t, found ≠ .string t := by
  simp only [readNames, bind_eq_error_iff] at h
  obtain h | ⟨_, -, h | ⟨_, -, h | ⟨_, -, h | ⟨_, -, ⟨⟩⟩⟩⟩⟩ := h
  · exact ⟨_, _, .head _, name_eq_error h⟩
  · exact ⟨_, _, .tail _ (.head _), name_eq_error h⟩
  · exact ⟨_, _, .tail _ (.tail _ (.head _)), name_eq_error h⟩
  · exact ⟨_, _, .tail _ (.tail _ (.tail _ (.head _))), name_eq_error h⟩

theorem codeNames_of_finds (h : Finds (entries.lookup "codegen".toList) value) :
    codeNames entries = readNames value := by
  unfold codeNames
  generalize entries.lookup "codegen".toList = found at h
  cases h <;> rfl

theorem codeNames_of_not_finds (h : ∀ value, ¬Finds (entries.lookup "codegen".toList) value) :
    codeNames entries = .error (.wrongValue "codegen".toList) := by
  unfold codeNames
  generalize entries.lookup "codegen".toList = found at h
  split
  · exact absurd .absent (h _)
  · exact absurd (.table _ _) (h _)
  · exact absurd (.array _) (h _)
  · exact absurd .date (h _)
  · rfl

theorem codeNames_eq_ok_iff : codeNames entries = .ok names ↔
    ∃ value, Finds (entries.lookup "codegen".toList) value ∧ GivesNames value names := by
  constructor
  · intro h
    by_cases hfinds : ∃ value, Finds (entries.lookup "codegen".toList) value
    · obtain ⟨value, hvalue⟩ := hfinds
      rw [codeNames_of_finds hvalue] at h
      exact ⟨value, hvalue, readNames_eq_ok_iff.1 h⟩
    · rw [codeNames_of_not_finds (not_exists.1 hfinds)] at h
      cases h
  · rintro ⟨value, hvalue, hnames⟩
    rw [codeNames_of_finds hvalue]
    exact readNames_eq_ok_iff.2 hnames

theorem codeNames_eq_error (h : codeNames entries = .error error) :
    ∃ key, error = .wrongValue key ∧ Misread entries key := by
  by_cases hfinds : ∃ value, Finds (entries.lookup "codegen".toList) value
  · obtain ⟨value, hvalue⟩ := hfinds
    rw [codeNames_of_finds hvalue] at h
    obtain ⟨key, place, hkey, herror, found, hfound, hwrong⟩ := readNames_eq_error h
    exact ⟨key, herror, .name hvalue hkey hfound hwrong⟩
  · have hwrong := not_exists.1 hfinds
    rw [codeNames_of_not_finds hwrong] at h
    cases h
    cases hvalue : entries.lookup "codegen".toList with
    | none =>
      rw [hvalue] at hwrong
      exact absurd .absent (hwrong _)
    | some found => exact ⟨_, rfl, .codegen hvalue (hvalue ▸ hwrong)⟩

end Names

/-! ## Settings -/

/-- Reading entries comes to the settings that they give. -/
theorem ofEntries_eq_ok_iff : ofEntries entries = .ok settings ↔ Gives entries settings := by
  simp only [ofEntries, bind_eq_ok_iff, limit_eq_ok_iff, codeNames_eq_ok_iff]
  constructor
  · rintro ⟨maxDepth, hdepth, loopLimit, hloop, maxCallDepth, hcall, names, hnames, h⟩
    cases h
    exact ⟨hdepth, hloop, hcall, hnames⟩
  · rintro ⟨hdepth, hloop, hcall, hnames⟩
    exact ⟨_, hdepth, _, hloop, _, hcall, _, hnames, rfl⟩

/-- Entries that are not read have a key that means something with a value that cannot be read, and
the error names it. -/
theorem misread_of_error (h : ofEntries entries = .error error) :
    ∃ key, error = .wrongValue key ∧ Misread entries key := by
  have hlimit : ∀ {key usual}, key ∈ limitKeys → limit entries key usual = .error error →
      ∃ key, error = .wrongValue key ∧ Misread entries key := by
    intro key usual hkey h
    obtain ⟨herror, value, hvalue, hwrong⟩ := limit_eq_error h
    exact ⟨key, herror, .limit hkey hvalue hwrong⟩
  simp only [ofEntries, bind_eq_error_iff] at h
  obtain h | ⟨_, -, h | ⟨_, -, h | ⟨_, -, h | ⟨_, -, ⟨⟩⟩⟩⟩⟩ := h
  · exact hlimit (.head _) h
  · exact hlimit (.tail _ (.head _)) h
  · exact hlimit (.tail _ (.tail _ (.head _))) h
  · exact codeNames_eq_error h

/-- A value is found in at most one way. -/
theorem Finds.unique {codegen : Option Toml.Value} {value' : Text → Nat → Option Toml.Value}
    (h : Finds codegen value) (h' : Finds codegen value') : value = value' := by
  cases h <;> cases h' <;> rfl

theorem Gives.not_misread (h : Gives entries settings) (key : Text) : ¬Misread entries key := by
  intro hmisread
  cases hmisread with
  | limit hkey hvalue hwrong =>
    have hlimit : ∀ usual n, ¬GivesLimit usual (entries.lookup key) n := by
      intro usual n hgives
      rw [hvalue] at hgives
      cases hgives
      exact hwrong n rfl
    rw [limitKeys, List.mem_cons, List.mem_cons, List.mem_singleton] at hkey
    obtain rfl | rfl | rfl := hkey
    · exact hlimit _ _ h.maxDepth
    · exact hlimit _ _ h.loopLimit
    · exact hlimit _ _ h.maxCallDepth
  | codegen hvalue hwrong =>
    obtain ⟨found, hfound, -⟩ := h.names
    exact hwrong found (hvalue ▸ hfound)
  | @name found _ place _ hfound hkey hvalue hwrong =>
    obtain ⟨given, hgiven, hnames⟩ := h.names
    obtain rfl : found = given := hfound.unique hgiven
    have hname : ∀ usual t, ¬GivesName usual (found key place) t := by
      intro usual t hgives
      rw [hvalue] at hgives
      cases hgives
      exact hwrong t rfl
    rw [nameKeys, List.mem_cons, List.mem_cons, List.mem_cons, List.mem_singleton] at hkey
    obtain h | h | h | h := hkey
    all_goals
      cases h
    · exact hname _ _ hnames.builder
    · exact hname _ _ hnames.whitespace
    · exact hname _ _ hnames.indentedSuffix
    · exact hname _ _ hnames.runtimePath

/-- Entries are read if and only if no key that means something has a value that cannot be read. -/
theorem exists_ofEntries_eq_ok_iff :
    (∃ settings, ofEntries entries = .ok settings) ↔ ∀ key, ¬Misread entries key := by
  constructor
  · rintro ⟨settings, h⟩
    exact (ofEntries_eq_ok_iff.1 h).not_misread
  · intro h
    cases hread : ofEntries entries with
    | error error =>
      obtain ⟨key, -, hmisread⟩ := misread_of_error hread
      exact absurd hmisread (h key)
    | ok settings => exact ⟨settings, rfl⟩

/-- What is read from a document that is written out: the settings that its entries give, whatever
else it says and in whatever order. -/
theorem ofToml_text {document : Toml.Document} (h : document.Formed) :
    ofToml document.text = .ok settings ↔ Gives document.entries settings := by
  rw [ofToml, Toml.Document.parse?_text h]
  exact ofEntries_eq_ok_iff

/-- The document that says all of the settings. -/
def document (settings : Settings) : Toml.Document where
  pairs :=
    [("max_depth".toList, .integer settings.limits.maxDepth),
     ("loop_limit".toList, .integer settings.limits.loopLimit),
     ("max_call_depth".toList, .integer settings.limits.maxCallDepth)]
  tables :=
    [("codegen".toList,
      [("builder".toList, .string settings.names.builder),
       ("whitespace".toList, .string settings.names.whitespace),
       ("indented_suffix".toList, .string settings.names.indentedSuffix),
       ("runtime_path".toList, .string settings.names.runtimePath)])]

/-- The limits are integers of 64 bits. -/
structure Fits (settings : Settings) : Prop where
  maxDepth : settings.limits.maxDepth < 0x8000000000000000
  loopLimit : settings.limits.loopLimit < 0x8000000000000000
  maxCallDepth : settings.limits.maxCallDepth < 0x8000000000000000

/-- Every key of the document is a word. -/
theorem isKey_document : ∀ key ∈ "codegen".toList :: limitKeys ++ nameKeys.map Prod.fst,
    Toml.Scan.IsKey key := by
  intro key hmem
  have hwords : (("codegen".toList :: limitKeys ++ nameKeys.map Prod.fst).all
      fun key => !key.isEmpty && key.all Toml.Scan.isBare) = true := by decide
  have hkey := List.all_eq_true.1 hwords key hmem
  rw [Bool.and_eq_true, Bool.not_eq_true', List.isEmpty_eq_false_iff] at hkey
  exact ⟨hkey.1, List.all_eq_true.1 hkey.2⟩

theorem formed_document (h : settings.Fits) : settings.document.Formed where
  lines := by
    have hkey := isKey_document
    simp only [limitKeys, nameKeys, List.map_cons, List.map_nil, List.cons_append, List.nil_append,
      List.forall_mem_cons] at hkey
    obtain ⟨hcodegen, hdepth, hloop, hcall, hbuilder, hwhitespace, hsuffix, hpath, -⟩ := hkey
    intro written hmem
    simp only [document, Toml.Document.lines, List.map_cons, List.map_nil, List.flatMap_cons,
      List.flatMap_nil, List.append_nil, List.cons_append, List.nil_append, List.mem_cons,
      List.not_mem_nil, or_false] at hmem
    obtain rfl | rfl | rfl | rfl | rfl | rfl | rfl | rfl := hmem
    · exact ⟨hdepth, h.maxDepth⟩
    · exact ⟨hloop, h.loopLimit⟩
    · exact ⟨hcall, h.maxCallDepth⟩
    · exact hcodegen
    · exact ⟨hbuilder, trivial⟩
    · exact ⟨hwhitespace, trivial⟩
    · exact ⟨hsuffix, trivial⟩
    · exact ⟨hpath, trivial⟩
  nodup := by
    have hkeys : (limitKeys ++ ["codegen".toList]).Nodup := by decide
    exact hkeys
  tables := by
    have hkeys : (nameKeys.map Prod.fst).Nodup := by decide
    intro table hmem
    rw [List.mem_singleton.1 hmem]
    exact hkeys

theorem gives_document (settings : Settings) : Gives settings.document.entries settings where
  maxDepth := .integer _
  loopLimit := .integer _
  maxCallDepth := .integer _
  names := ⟨_, .table .header _, .string _, .string _, .string _, .string _⟩

/-- Settings that are written out are read back, whatever characters the names have. -/
theorem ofToml_document (h : settings.Fits) : ofToml settings.document.text = .ok settings :=
  (ofToml_text (formed_document h)).2 settings.gives_document

end Settings

end Stencil
