import Stencil.Proofs.Toml.Readers

/-!
# Reading back TOML documents

A document that consists of pairs and of tables of pairs is written line by line: the pairs first,
then every table after a header of its own. If its keys can be written as they are and none of them
is given twice, the document is read as the entries that were written, in their order.

Each line is read by itself (`Written.line_text`), and the lines build up the entries one by one:
`Entries.add?_pair`, `Entries.add?_header` and `Entries.add?_tablePair` say what one line adds.

Main statement: `Document.parse?_text`.
-/

namespace Stencil.Toml

/-! ## Lines -/

/-- A value that is written on one line. -/
inductive Literal
  | string (content : Text)
  | integer (n : Nat)

namespace Literal

def value : Literal → Value
  | string content => .string content
  | integer n => .integer n

def text : Literal → Text
  | string content => Scan.quoted content
  | integer n => Nat.toDigits 10 n

/-- A number is an integer of 64 bits. -/
def Fits : Literal → Prop
  | string _ => True
  | integer n => n < 0x8000000000000000

theorem read_text {literal : Literal} (h : literal.Fits) (t : Text) :
    Scan.value (literal.text ++ '\n' :: t) = some (literal.value, '\n' :: t) := by
  refine Scan.orElse_of_some ?_
  cases literal with
  | string content =>
    exact Scan.orElse_of_some
      (Scan.map_of_some (Scan.string_quoted content (Scan.stops_cons (by decide))))
  | integer n => exact Scan.scalar_toDigits h

/-- A value begins with a quote or with a digit. -/
theorem stops_text (literal : Literal) (t : Text) {p : Char → Bool} (hquote : ¬p '"')
    (hdigit : ∀ c, Text.isDigit c → ¬p c) : Scan.Stops p (literal.text ++ t) := by
  cases literal with
  | string content => exact Scan.stops_cons hquote
  | integer n => exact Scan.stops_toDigits n hdigit

end Literal

/-- A line as it is written. -/
inductive Written
  | header (name : Text)
  | pair (key : Text) (literal : Literal)

namespace Written

/-- What the line says. -/
def line : Written → Line
  | header name => .header [] name
  | pair key literal => .pair [] key literal.value

/-- The line with its end. -/
def text : Written → Text
  | header name => '[' :: (name ++ "]\n".toList)
  | pair key literal => key ++ (" = ".toList ++ (literal.text ++ ['\n']))

/-- The key can be written as it is, and the value fits. -/
def Formed : Written → Prop
  | header name => Scan.IsKey name
  | pair key literal => Scan.IsKey key ∧ literal.Fits

theorem text_ne_nil : ∀ written : Written, written.text ≠ []
  | header name => List.cons_ne_nil _ _
  | pair key literal => by simp [text]

theorem header_text {name : Text} (h : Scan.IsKey name) (t : Text) :
    Scan.header ((header name).text ++ t) = some (.header [] name, '\n' :: t) := by
  have htext : (header name).text ++ t = '[' :: (name ++ (']' :: '\n' :: t)) := by simp [text]
  have hends : Scan.EndsKey (']' :: '\n' :: t) :=
    ⟨[], _, rfl, by simp, Scan.stops_cons (by decide), Scan.stops_cons (by decide),
      Scan.stops_cons (by decide)⟩
  have hspace : Scan.Stops Scan.isSpace (name ++ (']' :: '\n' :: t)) :=
    h.stops fun _ => Scan.not_isSpace_of_isBare
  rw [htext, Scan.header, Scan.bind_of_some (Scan.literal_single '[' _),
    Scan.bind_of_some (Scan.perhaps_of_none (Scan.literal_of_stops (h.stops_of_not (by decide)))),
    Scan.bind_of_some (Scan.spaces_of_stops hspace), Scan.bind_of_some (Scan.key_append h hends)]
  show (Scan.spaces >>= _) (']' :: '\n' :: t) = _
  rw [Scan.bind_of_some (Scan.spaces_of_stops (Scan.stops_cons (by decide))),
    Scan.bind_of_some (Scan.literal_single ']' _)]
  rfl

theorem pair_text {key : Text} {literal : Literal} (hkey : Scan.IsKey key) (h : literal.Fits)
    (t : Text) : Scan.pair Scan.value ((pair key literal).text ++ t)
      = some ((([], key), literal.value), '\n' :: t) := by
  have htext : (pair key literal).text ++ t
      = key ++ (' ' :: '=' :: ' ' :: (literal.text ++ '\n' :: t)) := by simp [text]
  have hequals : Scan.Stops Scan.isSpace ('=' :: ' ' :: (literal.text ++ '\n' :: t)) :=
    Scan.stops_cons (by decide)
  have hends : Scan.EndsKey (' ' :: '=' :: ' ' :: (literal.text ++ '\n' :: t)) :=
    ⟨[' '], _, rfl, List.forall_mem_singleton.2 rfl, hequals, Scan.stops_cons (by decide),
      Scan.stops_cons (by decide)⟩
  have hvalue : Scan.Stops Scan.isSpace (literal.text ++ '\n' :: t) :=
    literal.stops_text _ (by decide) fun _ hc =>
      Scan.not_isSpace_of_isBare (Scan.isBare_of_isDigit hc)
  rw [htext, Scan.pair, Scan.bind_of_some (Scan.key_append hkey hends),
    Scan.bind_of_some (Scan.spaces_blank hequals), Scan.bind_of_some (Scan.literal_single '=' _),
    Scan.bind_of_some (Scan.spaces_blank hvalue), Scan.bind_of_some (literal.read_text h t)]
  rfl

/-- A line begins with its key or with a bracket. -/
theorem stops_text {written : Written} (h : written.Formed) (t : Text) {p : Char → Bool}
    (hbracket : ¬p '[') (hbare : ∀ c, Scan.isBare c → ¬p c) : Scan.Stops p (written.text ++ t) := by
  cases written with
  | header name => exact Scan.stops_cons hbracket
  | pair key literal =>
    rw [text, List.append_assoc]
    exact h.1.stops hbare

/-- A line that is written is read. -/
theorem line_text {written : Written} (h : written.Formed) (t : Text) :
    Scan.line (written.text ++ t) = some (some written.line, '\n' :: t) := by
  have hspace : Scan.Stops Scan.isSpace (written.text ++ t) :=
    stops_text h t (by decide) fun _ => Scan.not_isSpace_of_isBare
  have hend : Scan.Stops Scan.isSpace ('\n' :: t) := Scan.stops_cons (by decide)
  have hcomment : Scan.comment ('\n' :: t) = none :=
    Scan.bind_of_none (Scan.literal_of_stops (Scan.stops_cons (by decide)))
  have hafter : (do
      Scan.spaces
      discard (Scan.perhaps Scan.comment)
      return some written.line : Scan (Option Line)) ('\n' :: t)
        = some (some written.line, '\n' :: t) := by
    rw [Scan.bind_of_some (Scan.spaces_of_stops hend),
      Scan.bind_of_some (Scan.discard_of_some (Scan.perhaps_of_none hcomment))]
    rfl
  rw [Scan.line, Scan.bind_of_some (Scan.spaces_of_stops hspace)]
  refine (Scan.bind_of_some (Scan.perhaps_of_some ?_)).trans hafter
  cases written with
  | header name => exact Scan.orElse_of_some (header_text h t)
  | pair key literal =>
    have hheader : Scan.header ((pair key literal).text ++ t) = none := by
      refine Scan.bind_of_none (Scan.literal_of_stops ?_)
      rw [text, List.append_assoc]
      exact h.1.stops_of_not (by decide)
    rw [Scan.orElse_of_none hheader, Scan.bind_of_some (pair_text h.1 h.2 t)]
    rfl

theorem lines_text {lines : List Written} (h : ∀ written ∈ lines, written.Formed) :
    Scan.lines (lines.flatMap text) = some (lines.map line, []) := by
  have hmark : Scan.literal ['\ufeff'] (lines.flatMap text) = none := by
    refine Scan.literal_of_stops ?_
    cases lines with
    | nil => rintro d ⟨⟩
    | cons written lines =>
      refine stops_text (h _ List.mem_cons_self) _ (by decide) fun c hc heq => ?_
      rw [beq_iff_eq.1 heq] at hc
      exact absurd hc (by decide)
  have hblank : Scan.line [] = some (none, []) := rfl
  have hitem : ∀ written ∈ lines, ∀ t, (do
      let said ← Scan.line
      Scan.lineEnd
      return said : Scan (Option Line)) (written.text ++ t) = some (some written.line, t) := by
    intro written hmem t
    have hend : Scan.lineEnd ('\n' :: t) = some ((), t) :=
      Scan.orElse_of_some (Scan.literal_single '\n' t)
    rw [Scan.bind_of_some (line_text (h written hmem) t), Scan.bind_of_some hend]
    rfl
  have hmany := Scan.many_flatMap hitem (fun written _ => written.text_ne_nil) (t := []) rfl
  rw [List.append_nil] at hmany
  rw [Scan.lines, Scan.bind_of_some (Scan.discard_of_some (Scan.perhaps_of_none hmark)),
    Scan.bind_of_some hmany, Scan.bind_of_some hblank]
  show some ((lines.map (fun w : Written => some w.line) ++ [none]).flatMap Option.toList, [])
    = some (lines.map line, [])
  simp [List.flatMap_map, ← List.map_eq_flatMap]

end Written

/-! ## Documents -/

/-- A document as it is written: pairs, and tables of pairs. -/
structure Document where
  pairs : List (Text × Literal)
  tables : List (Text × List (Text × Literal))

/-- What the lines of pairs say. -/
def Line.ofPairs (pairs : List (Text × Literal)) : List Line :=
  pairs.map fun pair => .pair [] pair.1 pair.2.value

/-- The entries for pairs. -/
def Entries.ofPairs (pairs : List (Text × Literal)) : Entries :=
  pairs.map fun pair => (pair.1, pair.2.value)

namespace Document

/-- The lines of a document. Every table follows a header. -/
def lines (document : Document) : List Written :=
  document.pairs.map (fun pair => .pair pair.1 pair.2) ++
    document.tables.flatMap fun table =>
      .header table.1 :: table.2.map fun pair => .pair pair.1 pair.2

/-- The document as it is written. -/
def text (document : Document) : Text := document.lines.flatMap Written.text

/-- The entries that are written. -/
def entries (document : Document) : Entries :=
  Entries.ofPairs document.pairs ++
    document.tables.map fun table => (table.1, .table .header (Entries.ofPairs table.2))

/-- Every line can be written as it is, and no key is given twice. -/
structure Formed (document : Document) : Prop where
  lines : ∀ written ∈ document.lines, written.Formed
  nodup : (document.pairs.map Prod.fst ++ document.tables.map Prod.fst).Nodup
  tables : ∀ table ∈ document.tables, (table.2.map Prod.fst).Nodup

end Document

namespace Entries

variable {entries root : Entries} {key name : Text} {value : Value} {more : List Line}

theorem lookup_of_not_mem (h : key ∉ entries.map Prod.fst) : entries.lookup key = none := by
  rw [List.lookup_eq_none_iff]
  intro entry hentry
  rw [bne_iff_ne]
  rintro rfl
  exact h (List.mem_map_of_mem hentry)

theorem lookup_concat (h : key ∉ entries.map Prod.fst) :
    (entries ++ [(key, value)]).lookup key = some value := by
  rw [List.lookup_append, lookup_of_not_mem h]
  simp

theorem replace_concat (h : key ∉ entries.map Prod.fst) (value' : Value) :
    replace key value' (entries ++ [(key, value)]) = entries ++ [(key, value')] := by
  have hkept : entries.map (fun entry => if entry.1 = key then (key, value') else entry)
      = entries.map id := by
    refine List.map_congr_left fun entry hentry => if_neg ?_
    rintro rfl
    exact h (List.mem_map_of_mem hentry)
  rw [replace, List.map_append, hkept, List.map_id]
  simp

/-- A pair is added to entries that do not have its key. -/
theorem addPair?_of_not_mem (h : key ∉ root.map Prod.fst) (own : Origin) :
    addPair? [] key value own root = some (root ++ [(key, value)]) := by
  have hpath : ([] : List Text).isEmpty ∨ own = .dotted := .inl rfl
  rw [addPair?, change?, Scan.guard_eq_some hpath, lookup_of_not_mem h]
  rfl

theorem add?_pair (h : key ∉ root.map Prod.fst) :
    Line.add? [] root (.pair [] key value :: more)
      = Line.add? [] (root ++ [(key, value)]) more := by
  simp [Line.add?, change?, addPair?_of_not_mem h]

/-- A header opens a table that is not there. -/
theorem add?_header (h : name ∉ root.map Prod.fst) (current : List Text) :
    Line.add? current root (.header [] name :: more)
      = Line.add? [name] (root ++ [(name, .table .header [])]) more := by
  simp [Line.add?, addHeader?, change?, lookup_of_not_mem h]

/-- A pair after a header goes to the table of the header. -/
theorem add?_tablePair (hname : name ∉ root.map Prod.fst) (h : key ∉ entries.map Prod.fst) :
    Line.add? [name] (root ++ [(name, .table .header entries)]) (.pair [] key value :: more)
      = Line.add? [name] (root ++ [(name, .table .header (entries ++ [(key, value)]))]) more := by
  have henter : Origin.header ≠ .braces ∧ ¬(Origin.path = .dotted ∧ Origin.header = .header) := by
    decide
  rw [Line.add?, change?, lookup_concat hname]
  dsimp only
  rw [Scan.guard_eq_some henter, change?, addPair?_of_not_mem h]
  exact congrArg (fun root => Line.add? [name] root more) (replace_concat hname _)

variable {pairs : List (Text × Literal)} {tables : List (Text × List (Text × Literal))}

/-- What the keys to come are told apart from goes on to include the first of them. -/
theorem nodup_concat (h : (entries.map Prod.fst ++ key :: pairs.map Prod.fst).Nodup)
    (value : Value) : ((entries ++ [(key, value)]).map Prod.fst ++ pairs.map Prod.fst).Nodup := by
  simpa using h

theorem not_mem_of_nodup {keys : List Text} (h : (entries.map Prod.fst ++ key :: keys).Nodup) :
    key ∉ entries.map Prod.fst :=
  fun hmem => (List.nodup_append.1 h).2.2 key hmem key List.mem_cons_self rfl

theorem add?_pairs (h : (root.map Prod.fst ++ pairs.map Prod.fst).Nodup) :
    Line.add? [] root (Line.ofPairs pairs ++ more)
      = Line.add? [] (root ++ ofPairs pairs) more := by
  induction pairs generalizing root with
  | nil => rw [ofPairs, List.map_nil, List.append_nil]; rfl
  | cons pair pairs ih =>
    have hpair : Line.add? [] root (Line.ofPairs (pair :: pairs) ++ more)
        = Line.add? [] (root ++ [(pair.1, pair.2.value)]) (Line.ofPairs pairs ++ more) :=
      add?_pair (not_mem_of_nodup h)
    refine hpair.trans ((ih (nodup_concat h _)).trans ?_)
    rw [List.append_assoc]
    rfl

theorem add?_tablePairs (hname : name ∉ root.map Prod.fst)
    (h : (entries.map Prod.fst ++ pairs.map Prod.fst).Nodup) :
    Line.add? [name] (root ++ [(name, .table .header entries)]) (Line.ofPairs pairs ++ more)
      = Line.add? [name] (root ++ [(name, .table .header (entries ++ ofPairs pairs))]) more := by
  induction pairs generalizing entries with
  | nil => rw [ofPairs, List.map_nil, List.append_nil]; rfl
  | cons pair pairs ih =>
    have hpair : Line.add? [name] (root ++ [(name, .table .header entries)])
          (Line.ofPairs (pair :: pairs) ++ more)
        = Line.add? [name] (root ++ [(name, .table .header (entries ++ [(pair.1, pair.2.value)]))])
          (Line.ofPairs pairs ++ more) :=
      add?_tablePair hname (not_mem_of_nodup h)
    refine hpair.trans ((ih (nodup_concat h _)).trans ?_)
    rw [List.append_assoc]
    rfl

theorem add?_tables (h : (root.map Prod.fst ++ tables.map Prod.fst).Nodup)
    (htables : ∀ table ∈ tables, (table.2.map Prod.fst).Nodup) (current : List Text) :
    Line.add? current root
        (tables.flatMap fun table => .header [] table.1 :: Line.ofPairs table.2)
      = some (root ++ tables.map fun table => (table.1, .table .header (ofPairs table.2))) := by
  induction tables generalizing root current with
  | nil => rw [List.map_nil, List.append_nil]; rfl
  | cons table tables ih =>
    rw [List.forall_mem_cons] at htables
    have hname : table.1 ∉ root.map Prod.fst := not_mem_of_nodup h
    have hrest : ((root ++ [(table.1, Value.table .header (ofPairs table.2))]).map Prod.fst
        ++ tables.map Prod.fst).Nodup := by simpa using h
    have hinner : (([] : Entries).map Prod.fst ++ table.2.map Prod.fst).Nodup := htables.1
    rw [List.flatMap_cons, List.cons_append, add?_header hname, add?_tablePairs hname hinner,
      List.nil_append, ih hrest htables.2, List.append_assoc]
    rfl

end Entries

/-- A document is read as the entries that were written, in their order. -/
theorem Document.parse?_text {document : Document} (h : document.Formed) :
    parse? document.text = some document.entries := by
  have hlines : document.lines.map Written.line = Line.ofPairs document.pairs ++
      document.tables.flatMap fun table => .header [] table.1 :: Line.ofPairs table.2 := by
    simp [lines, Line.ofPairs, Written.line, Function.comp_def, List.map_flatMap]
  have hroot : (Entries.ofPairs document.pairs).map Prod.fst = document.pairs.map Prod.fst := by
    simp [Entries.ofPairs, Function.comp_def]
  have htop : (([] : Entries).map Prod.fst ++ document.pairs.map Prod.fst).Nodup :=
    (List.nodup_append.1 h.nodup).1
  rw [parse?, text, Written.lines_text h.lines, Option.bind_some, hlines]
  exact (Entries.add?_pairs htop).trans (Entries.add?_tables (hroot ▸ h.nodup) h.tables [])

end Stencil.Toml
