import Mathlib.Data.Finset.Card
import Mathlib.Data.Finset.Dedup
import Stencil.Cache

/-!
# What a cache remembers

A cache is looked at after any history of requests and clears. What it holds then is, for every text
that was requested since the last clear and compiles, the template of that text, under a number that
no other text has and that was not handed out before that clear (`Reflects`). The numbers that a
cache has already given away are told apart from the later ones by `next`, which only grows: this is
what the runs of a cache keep (`Leads`).

* `reflects_after`: what a cache holds after a history.
* `leads_run`: how a cache changes while more operations follow.
* `get_transparent`: requests are answered as by compiling, and numbers tell the same template.
-/

namespace Stencil

namespace Table

variable {α : Type} {table : Table α} {key : Text}

theorem get?_isSome_iff : (table.get? key).isSome ↔ key ∈ table.entries.map Prod.fst := by
  rw [get?, List.mem_map]
  induction table.entries with
  | nil => simp
  | cons entry entries ih =>
    obtain ⟨k, v⟩ := entry
    by_cases hk : key = k
    · simp [hk]
    · have hne : (key == k) = false := by simpa using hk
      rw [List.lookup_cons, hne, ih]
      simp [Ne.symm hk]

/-- The size of a table is the number of its keys. -/
theorem size_eq_card {keys : Finset Text} (h : ∀ key, key ∈ keys ↔ (table.get? key).isSome) :
    table.size = keys.card := by
  have hkeys : keys = (table.entries.map Prod.fst).toFinset := by
    ext key
    rw [h, get?_isSome_iff, List.mem_toFinset]
  rw [hkeys, List.toFinset_card_of_nodup table.nodup, List.length_map, size]

end Table

namespace Cache

/-- What may be done with a cache. -/
inductive Operation
  | get (source : Text)
  | clear
  deriving DecidableEq, Repr

/-- The cache after an operation. -/
def act (cache : Cache) : Operation → Cache
  | .get source => (cache.get source).2
  | .clear => cache.clear

/-- The cache after operations. -/
def run (cache : Cache) (operations : List Operation) : Cache := operations.foldl act cache

/-- A new cache after a history of operations. -/
def after (maxDepth : Nat) (history : List Operation) : Cache := (empty maxDepth).run history

/-- The texts requested since the last clear, latest first. -/
def requested (history : List Operation) : List Text :=
  history.foldl (fun texts operation =>
    match operation with
    | .get source => source :: texts
    | .clear => []) []

/-- The texts requested since the last clear that compile. -/
def compiled (maxDepth : Nat) (history : List Operation) : Finset Text :=
  ((requested history).filter fun source =>
    (Template.compile maxDepth source).toOption.isSome).toFinset

variable {maxDepth n n' : Nat} {cache : Cache} {source source' : Text} {template : Template}
  {operation : Operation} {operations history : List Operation}

theorem mem_compiled : source ∈ compiled maxDepth history ↔
    source ∈ requested history ∧ ∃ template, Template.compile maxDepth source = .ok template := by
  have hsome : (Template.compile maxDepth source).toOption.isSome ↔
      ∃ template, Template.compile maxDepth source = .ok template := by
    cases Template.compile maxDepth source <;> simp [Except.toOption]
  rw [compiled, List.mem_toFinset, List.mem_filter, hsome]

theorem mem_compiled_get : source' ∈ compiled maxDepth (history ++ [.get source]) ↔
    source' ∈ compiled maxDepth history ∨
      source' = source ∧ ∃ template, Template.compile maxDepth source = .ok template := by
  have hrequested : requested (history ++ [.get source]) = source :: requested history := by
    rw [requested, List.foldl_append]
    rfl
  rw [mem_compiled, mem_compiled, hrequested, List.mem_cons]
  constructor
  · rintro ⟨rfl | hmem, hcompile⟩
    · exact .inr ⟨rfl, hcompile⟩
    · exact .inl ⟨hmem, hcompile⟩
  · rintro (⟨hmem, hcompile⟩ | ⟨rfl, hcompile⟩)
    · exact ⟨.inr hmem, hcompile⟩
    · exact ⟨.inl rfl, hcompile⟩

theorem not_mem_compiled_clear : source ∉ compiled maxDepth (history ++ [.clear]) := by
  have hrequested : requested (history ++ [.clear]) = [] := by
    rw [requested, List.foldl_append]
    rfl
  rw [mem_compiled, hrequested]
  exact fun h => List.not_mem_nil h.1

/-! ## One request -/

theorem get_of_some (h : cache.templates.get? source = some (n, template)) :
    cache.get source = (.ok (n, template), cache) := by
  rw [get, h]

/-- A request finds the text, or fails to compile it, or compiles it now. -/
theorem get_cases (cache : Cache) (source : Text) :
    (∃ n template, cache.templates.get? source = some (n, template) ∧
      cache.get source = (.ok (n, template), cache)) ∨
    (∃ error, cache.templates.get? source = none ∧
      Template.compile cache.maxDepth source = .error error ∧
      cache.get source = (.error error, cache)) ∨
    ∃ template, cache.templates.get? source = none ∧
      Template.compile cache.maxDepth source = .ok template ∧
      cache.get source = (.ok (cache.next, template), { cache with
        templates := cache.templates.insert source (cache.next, template)
        next := cache.next + 1 }) := by
  cases h : cache.templates.get? source with
  | some found => exact .inl ⟨found.1, found.2, rfl, get_of_some h⟩
  | none =>
    cases hcompile : Template.compile cache.maxDepth source with
    | error error => exact .inr (.inl ⟨error, rfl, rfl, by rw [get, h, hcompile]⟩)
    | ok template => exact .inr (.inr ⟨template, rfl, rfl, by rw [get, h, hcompile]⟩)

/-- What a request is answered with is there afterwards. -/
theorem get?_of_get (h : (cache.get source).1 = .ok (n, template)) :
    (cache.get source).2.templates.get? source = some (n, template) := by
  rcases get_cases cache source with
    ⟨m, found, hfound, hget⟩ | ⟨error, -, -, hget⟩ | ⟨found, -, -, hget⟩
  · rw [hget] at h ⊢
    cases h
    exact hfound
  · rw [hget] at h
    cases h
  · rw [hget] at h ⊢
    cases h
    simp [Table.get?_insert]

/-- A request that fails leaves the cache as it is. -/
theorem get_of_error {error : ParseError} (h : (cache.get source).1 = .error error) :
    (cache.get source).2 = cache := by
  rcases get_cases cache source with
    ⟨n, template, -, hget⟩ | ⟨error', -, -, hget⟩ | ⟨template, -, -, hget⟩
  · rw [hget] at h
    cases h
  · rw [hget]
  · rw [hget] at h
    cases h

/-! ## What a cache holds -/

/-- The cache holds exactly the given texts, each with its template, and under a number of its own
that is not a later one. -/
structure Reflects (maxDepth : Nat) (texts : Finset Text) (cache : Cache) : Prop where
  depth : cache.maxDepth = maxDepth
  keys : ∀ source, source ∈ texts ↔ (cache.templates.get? source).isSome
  entries : ∀ source n template, cache.templates.get? source = some (n, template) →
    Template.compile maxDepth source = .ok template ∧ n < cache.next
  distinct : ∀ source source' n template template',
    cache.templates.get? source = some (n, template) →
      cache.templates.get? source' = some (n, template') → source = source'

/-- A request is answered as by compiling the text. -/
theorem Reflects.answer {texts : Finset Text} (h : Reflects maxDepth texts cache) (source : Text) :
    (cache.get source).1.map Prod.snd = Template.compile maxDepth source := by
  rcases get_cases cache source with
    ⟨n, template, hfound, hget⟩ | ⟨error, -, hcompile, hget⟩ | ⟨template, -, hcompile, hget⟩
  · rw [hget, (h.entries source n template hfound).1]
    rfl
  · rw [hget, ← h.depth, hcompile]
    rfl
  · rw [hget, ← h.depth, hcompile]
    rfl

/-- A request keeps what the cache holds, and adds the text if it compiles. -/
theorem Reflects.get (h : Reflects maxDepth (compiled maxDepth history) cache) (source : Text) :
    Reflects maxDepth (compiled maxDepth (history ++ [.get source])) (cache.get source).2 := by
  obtain ⟨hdepth, hkeys, hentries, hdistinct⟩ := h
  rcases get_cases cache source with
    ⟨m, found, hfound, hget⟩ | ⟨error, -, hcompile, hget⟩ | ⟨found, hnone, hcompile, hget⟩
  · rw [hget]
    refine ⟨hdepth, fun other => ?_, hentries, hdistinct⟩
    have hmem : source ∈ compiled maxDepth history := (hkeys source).2 (by rw [hfound]; rfl)
    rw [mem_compiled_get, ← hkeys]
    exact or_iff_left_of_imp fun hother => hother.1 ▸ hmem
  · rw [hget]
    refine ⟨hdepth, fun other => ?_, hentries, hdistinct⟩
    rw [mem_compiled_get, ← hkeys]
    apply or_iff_left
    rintro ⟨-, template, htemplate⟩
    rw [hdepth, htemplate] at hcompile
    cases hcompile
  · rw [hget]
    rw [hdepth] at hcompile
    have hold : ∀ other n template, other ≠ source →
        (cache.templates.insert source (cache.next, found)).get? other = some (n, template) →
          cache.templates.get? other = some (n, template) := by
      intro other n template hne hother
      rwa [Table.get?_insert, if_neg hne] at hother
    have hnew : ∀ n template,
        (cache.templates.insert source (cache.next, found)).get? source = some (n, template) →
          cache.next = n ∧ found = template := by
      intro n template hsource
      simpa [Table.get?_insert] using hsource
    refine ⟨hdepth, fun other => ?_, fun other n template hother => ?_,
      fun first second n template template' hfirst hsecond => ?_⟩
    · rw [mem_compiled_get, hkeys, Table.get?_insert]
      by_cases hne : other = source
      · simp [hne, hcompile]
      · simp [hne]
    · by_cases hne : other = source
      · subst hne
        obtain ⟨rfl, rfl⟩ := hnew n template hother
        exact ⟨hcompile, Nat.lt_succ_self _⟩
      · obtain ⟨hcompiled, hlt⟩ := hentries other n template (hold other n template hne hother)
        exact ⟨hcompiled, Nat.lt_succ_of_lt hlt⟩
    -- The new number is greater than all that are there.
    · by_cases hne : first = source
      · subst hne
        obtain ⟨rfl, rfl⟩ := hnew n template hfirst
        by_contra hother
        have := (hentries second _ _ (hold second _ _ (Ne.symm hother) hsecond)).2
        omega
      · have hheld := hold first n template hne hfirst
        by_cases hne' : second = source
        · subst hne'
          obtain ⟨rfl, rfl⟩ := hnew n template' hsecond
          have := (hentries first _ _ hheld).2
          omega
        · exact hdistinct first second n template template' hheld
            (hold second n template' hne' hsecond)

/-- After any history the cache holds the texts requested since the last clear that compile. -/
theorem reflects_after (maxDepth : Nat) (history : List Operation) :
    Reflects maxDepth (compiled maxDepth history) (after maxDepth history) := by
  induction history using List.reverseRecOn with
  | nil => exact ⟨rfl, fun source => by simp [mem_compiled, requested, after, run, empty],
      fun source n template h => by simp [after, run, empty] at h,
      fun source source' n template template' h => by simp [after, run, empty] at h⟩
  | append_singleton history operation ih =>
    have hact : after maxDepth (history ++ [operation])
        = (after maxDepth history).act operation := by
      rw [after, run, List.foldl_append]
      rfl
    rw [hact]
    cases operation with
    | get source => exact ih.get source
    | clear =>
      refine ⟨ih.depth, fun source => ?_, fun source n template h => ?_,
        fun source source' n template template' h => ?_⟩
      · simp [not_mem_compiled_clear, act, clear]
      · simp [act, clear] at h
      · simp [act, clear] at h

/-! ## What a cache goes on to hold -/

/-- How a cache changes, with a clear on the way if `cleared` holds: templates stay until a clear,
and new ones get numbers that were not given away before. -/
structure Leads (cache : Cache) (cleared : Prop) (later : Cache) : Prop where
  next_le : cache.next ≤ later.next
  kept : ¬cleared → ∀ source n template, cache.templates.get? source = some (n, template) →
    later.templates.get? source = some (n, template)
  entries : ∀ source n template, later.templates.get? source = some (n, template) →
    ¬cleared ∧ cache.templates.get? source = some (n, template) ∨ cache.next ≤ n

variable {later last : Cache} {p q : Prop}

theorem Leads.trans (h : Leads cache p later) (h' : Leads later q last) :
    Leads cache (p ∨ q) last where
  next_le := Nat.le_trans h.next_le h'.next_le
  kept hcleared source n template hfound :=
    h'.kept (fun hq => hcleared (.inr hq)) source n template
      (h.kept (fun hp => hcleared (.inl hp)) source n template hfound)
  entries source n template hfound := by
    rcases h'.entries source n template hfound with ⟨hq, hlater⟩ | hle
    · rcases h.entries source n template hlater with ⟨hp, hcache⟩ | hle
      · exact .inl ⟨fun hcleared => hcleared.elim hp hq, hcache⟩
      · exact .inr hle
    · exact .inr (Nat.le_trans h.next_le hle)

theorem leads_act (cache : Cache) (operation : Operation) :
    Leads cache (.clear = operation) (cache.act operation) := by
  cases operation with
  | clear =>
    refine ⟨Nat.le_refl _, fun hcleared => absurd rfl hcleared, fun source n template h => ?_⟩
    simp [act, clear] at h
  | get source =>
    rcases get_cases cache source with
      ⟨m, found, -, hget⟩ | ⟨error, -, -, hget⟩ | ⟨found, hnone, -, hget⟩
    · rw [act, hget]
      exact ⟨Nat.le_refl _, fun _ _ _ _ h => h, fun _ _ _ h => .inl ⟨nofun, h⟩⟩
    · rw [act, hget]
      exact ⟨Nat.le_refl _, fun _ _ _ _ h => h, fun _ _ _ h => .inl ⟨nofun, h⟩⟩
    · rw [act, hget]
      refine ⟨Nat.le_succ _, fun _ other n template h => ?_, fun other n template h => ?_⟩
      · rw [Table.get?_insert, if_neg]
        · exact h
        · rintro rfl
          rw [hnone] at h
          cases h
      · rw [Table.get?_insert] at h
        split at h
        · cases h
          exact .inr (Nat.le_refl _)
        · exact .inl ⟨nofun, h⟩

theorem leads_run (cache : Cache) (operations : List Operation) :
    Leads cache (.clear ∈ operations) (cache.run operations) := by
  induction operations generalizing cache with
  | nil => exact ⟨Nat.le_refl _, fun _ _ _ _ h => h, fun _ _ _ h => .inl ⟨List.not_mem_nil, h⟩⟩
  | cons operation operations ih =>
    rw [List.mem_cons]
    exact (leads_act cache operation).trans (ih (cache.act operation))

/-- A later request is answered with what was there before, or with a new number. -/
theorem Leads.get (h : Leads cache p later) (hget : (later.get source).1 = .ok (n, template)) :
    ¬p ∧ cache.templates.get? source = some (n, template) ∨ cache.next ≤ n := by
  rcases get_cases later source with
    ⟨m, found, hfound, hlater⟩ | ⟨error, -, -, hlater⟩ | ⟨found, -, -, hlater⟩
  · rw [hlater] at hget
    cases hget
    exact h.entries source n template hfound
  · rw [hlater] at hget
    cases hget
  · rw [hlater] at hget
    cases hget
    exact .inr h.next_le

/-- A later request gets the number of a text that is there exactly if it is for that text and there
is no clear on the way. -/
theorem Reflects.number_iff {texts : Finset Text} {template' : Template}
    (h : Reflects maxDepth texts cache) (hleads : Leads cache p later)
    (hheld : cache.templates.get? source = some (n, template))
    (hget : (later.get source').1 = .ok (n', template')) : n = n' ↔ source = source' ∧ ¬p := by
  constructor
  · rintro rfl
    rcases hleads.get hget with ⟨hcleared, hheld'⟩ | hle
    · exact ⟨h.distinct source source' n template template' hheld hheld', hcleared⟩
    · have hlt := (h.entries source n template hheld).2
      omega
  · rintro ⟨rfl, hcleared⟩
    rw [get_of_some (hleads.kept hcleared source n template hheld)] at hget
    cases hget
    rfl

/-! ## All requests -/

/-- After any history a request is answered with what compiling the text gives, and changes nothing
if that fails; the size is the number of texts that were compiled since the last clear. Of two
requests that are answered with a template, with more operations between them, both have the same
number exactly if they are for the same text and there is no clear between them. -/
theorem get_transparent (maxDepth : Nat) (history : List Operation) (source : Text) :
    let cache := after maxDepth history
    (cache.get source).1.map Prod.snd = Template.compile maxDepth source ∧
      (∀ error, (cache.get source).1 = .error error → (cache.get source).2 = cache) ∧
      cache.size = (compiled maxDepth history).card ∧
      ∀ between source' n template n' template',
        (cache.get source).1 = .ok (n, template) →
        ((after maxDepth (history ++ .get source :: between)).get source').1
          = .ok (n', template') →
        (n = n' ↔ source = source' ∧ .clear ∉ between) := by
  intro cache
  have hcache : Reflects maxDepth (compiled maxDepth history) cache :=
    reflects_after maxDepth history
  refine ⟨hcache.answer source, fun error => get_of_error, Table.size_eq_card hcache.keys,
    fun between source' n template n' template' hfirst hsecond => ?_⟩
  -- The second request is made to what the cache becomes after the first one.
  have hafter : after maxDepth (history ++ .get source :: between)
      = (cache.get source).2.run between := by
    rw [after, run, List.foldl_append]
    rfl
  rw [hafter] at hsecond
  have hleads := leads_run (cache.get source).2 between
  exact (hcache.get source).number_iff hleads (get?_of_get hfirst) hsecond

end Cache

end Stencil
