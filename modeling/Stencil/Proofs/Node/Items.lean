import Stencil.Proofs.Node.Grammar

/-!
# Grouping tokens into items

Grouping a token list and writing its items out again are inverse, up to what stands after the first
end of file. Items are formed, and no text item comes right after another.

* `group_finished`: what grouping gives if it does not break off.
* `group_flatMap_tokens`: formed items are found again in their tokens.
-/

namespace Stencil

namespace Item

/-- The tokens of an item, in order. -/
def tokens : Item → List Token
  | .text first rest => first :: rest
  | .block found => found.tokens

/-- Text items hold text tokens only, and blocks are formed. -/
def Formed : Item → Prop
  | .text first rest => ∀ token ∈ first :: rest, token.kind.isText
  | .block found => found.Formed

/-- No text item comes right after another, and none comes first if `after` holds. -/
def Separated : Bool → List Item → Prop
  | _, [] => True
  | after, .text _ _ :: items => after = false ∧ Separated true items
  | _, .block _ :: items => Separated false items

theorem Separated.weaken {items : List Item} {after : Bool} (h : Separated true items) :
    Separated after items := by
  match items, h with
  | [], _ => trivial
  | .text _ _ :: _, h => exact absurd h.1 (by decide)
  | .block _ :: _, h => exact h

theorem ne_eof_of_mem_tokens {item : Item} (h : item.Formed) {token : Token}
    (ht : token ∈ item.tokens) : token.kind ≠ .eof := by
  match item, h with
  | .text first rest, h => exact Kind.ne_eof_of_isText (h token ht)
  | .block found, h =>
    simp only [tokens, Block.tokens, List.mem_cons, List.mem_append, List.not_mem_nil,
      or_false] at ht
    rcases ht with rfl | ht | rfl | ht | rfl
    · exact Kind.ne_eof_of_isEnter h.enter
    · exact Kind.ne_eof_of_isText (h.lead token ht).1
    · rw [h.identifier]
      decide
    · exact Kind.ne_eof_of_isText (h.more token ht)
    · exact Kind.ne_eof_of_isExit h.exit

theorem takeWhile_tokens_append {item : Item} (h : item.Formed) (later : List Token) :
    (item.tokens ++ later).takeWhile (·.kind ≠ .eof)
      = item.tokens ++ later.takeWhile (·.kind ≠ .eof) :=
  List.takeWhile_append_of_pos fun token ht => by simpa using ne_eof_of_mem_tokens h ht

/-! ## Blocks -/

/-- A block that is found is formed, and what it leaves follows it. -/
theorem block?_eq_ok {source : Text} {enter : Token} {tokens : List Token} {found : Block}
    (henter : enter.kind.isEnter) (h : block? source enter tokens = .ok found) :
    found.Formed ∧
      found.tokens ++ (tokens.dropWhile (·.kind.isText)).drop 1 = enter :: tokens := by
  have hsplit : tokens.takeWhile (·.kind.isText) ++ tokens.dropWhile (·.kind.isText) = tokens :=
    List.takeWhile_append_dropWhile
  have hinner : ∀ token ∈ tokens.takeWhile (·.kind.isText), token.kind.isText :=
    fun token ht => List.all_eq_true.1 List.all_takeWhile token ht
  unfold block? at h
  generalize tokens.takeWhile (·.kind.isText) = inner at hsplit hinner h
  generalize tokens.dropWhile (·.kind.isText) = rest at hsplit h ⊢
  have hwords : inner.takeWhile (·.kind ≠ .raw) ++ inner.dropWhile (·.kind ≠ .raw) = inner :=
    List.takeWhile_append_dropWhile
  have hlead : ∀ token ∈ inner.takeWhile (·.kind ≠ .raw), token.kind ≠ .raw := fun token ht => by
    simpa using List.all_eq_true.1 List.all_takeWhile token ht
  have hraw := List.head?_dropWhile_not (fun t : Token => decide (t.kind ≠ .raw)) inner
  simp only at h
  split at h
  · cases h
  rename_i hfamily
  split at h
  · cases h
  -- What is left to look at is the first raw token, and whether an exit follows the text tokens.
  split at h
  · cases h
  rename_i identifier more hmore
  split at h
  · rename_i hexit
    cases h
    obtain ⟨stop, later, rfl⟩ : ∃ stop later, rest = stop :: later := by
      cases rest with
      | nil => cases hexit
      | cons stop later => exact ⟨stop, later, rfl⟩
    rw [List.headD_cons] at hexit hfamily
    rw [hmore] at hwords hraw
    refine ⟨⟨henter, fun token ht => ?_, by simpa using hraw, fun token ht => ?_, hexit, ?_⟩, ?_⟩
    · exact ⟨hinner token (hwords ▸ List.mem_append_left _ ht), hlead token ht⟩
    · exact hinner token (hwords ▸ List.mem_append_right _ (List.mem_cons_of_mem _ ht))
    · simpa [hexit] using hfamily
    · have htokens : tokens
          = inner.takeWhile (·.kind ≠ .raw) ++ identifier :: more ++ stop :: later := by
        rw [hwords, hsplit]
      rw [htokens]
      simp [Block.tokens]
  · cases h

/-- The text tokens after the enter of a formed block are those before its exit. -/
theorem inner_of_formed {found : Block} (h : found.Formed) (later : List Token) :
    (found.lead ++ found.identifier :: (found.more ++ found.exit :: later)).takeWhile
        (·.kind.isText) = found.lead ++ found.identifier :: found.more ∧
      (found.lead ++ found.identifier :: (found.more ++ found.exit :: later)).dropWhile
        (·.kind.isText) = found.exit :: later := by
  have hinner : ∀ token ∈ found.lead ++ found.identifier :: found.more, token.kind.isText := by
    intro token ht
    rcases List.mem_append.1 ht with ht | ht
    · exact (h.lead token ht).1
    · rcases List.mem_cons.1 ht with rfl | ht
      · rw [h.identifier]
        decide
      · exact h.more token ht
  have hexit : ¬found.exit.kind.isText := Kind.not_isText_of_isExit h.exit
  have hsplit : found.lead ++ found.identifier :: (found.more ++ found.exit :: later)
      = (found.lead ++ found.identifier :: found.more) ++ found.exit :: later := by simp
  rw [hsplit, List.takeWhile_append_of_pos hinner, List.dropWhile_append_of_pos hinner,
    List.takeWhile_cons_of_neg (p := fun t : Token => t.kind.isText) hexit,
    List.dropWhile_cons_of_neg (p := fun t : Token => t.kind.isText) hexit, List.append_nil]
  exact ⟨rfl, rfl⟩

/-- A formed block is found in its tokens. -/
theorem block?_tokens {source : Text} {found : Block} (h : found.Formed) (later : List Token) :
    block? source found.enter
      (found.lead ++ found.identifier :: (found.more ++ found.exit :: later)) = .ok found := by
  obtain ⟨htake, hdrop⟩ := inner_of_formed h later
  have hlead : ∀ token ∈ found.lead, decide (token.kind ≠ .raw) := by
    simpa using fun token ht => (h.lead token ht).2
  rw [block?, htake, hdrop, List.headD_cons, List.dropWhile_append_of_pos hlead,
    List.takeWhile_append_of_pos hlead]
  simp [h.identifier, h.exit, h.family, Kind.not_isEnter_of_isExit h.exit]

/-! ## Grouping -/

/-- If grouping does not break off, its items are formed and separated, and their tokens are all up
to the end of file. -/
theorem group_finished {source : Text} {tokens : List Token} {items : List Item} {last : Token}
    (h : group source tokens = (items, .finished last)) :
    (∀ item ∈ items, item.Formed) ∧
      (∀ after : Bool, (after = true → ∀ token ∈ tokens.head?, ¬token.kind.isText) →
        Separated after items) ∧
      items.flatMap Item.tokens = tokens.takeWhile (·.kind ≠ .eof) := by
  fun_induction group source tokens generalizing items with
  | case1 =>
    cases h
    simp [Separated]
  | case2 token tokens heof =>
    cases h
    simp [Separated, heof]
  | case3 token tokens rest heof htext items' ending hgroup =>
    rename_i ih
    cases h
    obtain ⟨hformed, hseparated, htokens⟩ := ih hgroup
    have hitem : (Item.text token (tokens.takeWhile (·.kind.isText))).Formed := by
      rintro t (_ | ⟨_, ht⟩)
      · exact htext
      · exact List.all_eq_true.1 List.all_takeWhile t ht
    refine ⟨?_, fun after hafter => ⟨?_, hseparated true fun _ t ht => ?_⟩, ?_⟩
    · rintro item (_ | ⟨_, hmem⟩)
      · exact hitem
      · exact hformed item hmem
    · cases after with
      | false => rfl
      | true => exact absurd htext (hafter rfl token rfl)
    -- The run of text tokens is maximal, so what comes after it is no text.
    · have hstop := List.head?_dropWhile_not (fun t : Token => t.kind.isText) tokens
      rw [Option.mem_def.1 ht] at hstop
      simpa using hstop
    · have hsplit : token :: tokens
          = (Item.text token (tokens.takeWhile (·.kind.isText))).tokens
            ++ tokens.dropWhile (·.kind.isText) := by
        simp [Item.tokens]
      rw [hsplit, takeWhile_tokens_append hitem, List.flatMap_cons, htokens]
  | case4 token tokens heof htext hexit => cases h
  | case5 token tokens heof htext hexit error hblock => cases h
  | case6 token tokens rest heof htext hexit found hblock items' ending hgroup =>
    rename_i ih
    cases h
    obtain ⟨hformed, hseparated, htokens⟩ := ih hgroup
    obtain ⟨hfound, hsplit⟩ := block?_eq_ok (Kind.isEnter_of_not heof htext hexit) hblock
    refine ⟨?_, fun after hafter => hseparated false (by simp), ?_⟩
    · rintro item (_ | ⟨_, hmem⟩)
      · exact hfound
      · exact hformed item hmem
    · have hitem : (Item.block found).Formed := hfound
      rw [← hsplit, List.flatMap_cons, htokens]
      exact (takeWhile_tokens_append hitem _).symm

/-- Where no text item may come first, the next token is no text. -/
theorem not_isText_of_mem_head? {items : List Item} {later : List Token}
    (hformed : ∀ item ∈ items, item.Formed) (hseparated : Separated true items)
    (hlater : ∀ token ∈ later.head?, token.kind = .eof) :
    ∀ token ∈ (items.flatMap Item.tokens ++ later).head?, ¬token.kind.isText := by
  intro token ht
  match items, hseparated with
  | [], _ =>
    rw [hlater token ht]
    decide
  | .text _ _ :: _, hseparated => exact absurd hseparated.1 (by decide)
  | .block found :: _, _ =>
    have hfound : found.Formed := hformed (.block found) List.mem_cons_self
    obtain rfl : found.enter = token := by simpa [Item.tokens, Block.tokens] using ht
    exact Kind.not_isText_of_isEnter hfound.enter

/-- Items that are formed and separated are found again in their tokens, with an end of file or
nothing after them. -/
theorem group_flatMap_tokens (source : Text) {items : List Item} {later : List Token}
    (hformed : ∀ item ∈ items, item.Formed) (hseparated : Separated false items)
    (hlater : ∀ token ∈ later.head?, token.kind = .eof) :
    group source (items.flatMap Item.tokens ++ later)
      = (items, .finished (later.headD .eof)) := by
  induction items with
  | nil =>
    cases later with
    | nil => rw [List.flatMap_nil, List.nil_append, group, List.headD_nil]
    | cons token later =>
      have heof : token.kind = .eof := hlater token rfl
      rw [List.flatMap_nil, List.nil_append, group, if_pos heof, List.headD_cons]
  | cons item items ih =>
    have hitems : ∀ item' ∈ items, item'.Formed := fun item' h =>
      hformed item' (List.mem_cons_of_mem item h)
    have hitem := hformed item List.mem_cons_self
    rw [List.flatMap_cons, List.append_assoc]
    cases item with
    | text first rest =>
      have hfirst : first.kind.isText := hitem first List.mem_cons_self
      have hrest : ∀ token ∈ rest, token.kind.isText := fun token ht =>
        hitem token (List.mem_cons_of_mem first ht)
      have hstop := not_isText_of_mem_head? hitems hseparated.2 hlater
      have hgroup := ih hitems hseparated.2.weaken
      generalize items.flatMap Item.tokens ++ later = next at hstop hgroup ⊢
      have htake : next.takeWhile (·.kind.isText) = [] := by
        cases next with
        | nil => rfl
        | cons token next => exact List.takeWhile_cons_of_neg (hstop token rfl)
      have hdrop : next.dropWhile (·.kind.isText) = next := by
        cases next with
        | nil => rfl
        | cons token next => exact List.dropWhile_cons_of_neg (hstop token rfl)
      rw [Item.tokens, List.cons_append, group, if_neg (Kind.ne_eof_of_isText hfirst),
        if_pos hfirst, List.dropWhile_append_of_pos hrest, List.takeWhile_append_of_pos hrest,
        htake, hdrop, hgroup, List.append_nil]
    | block found =>
      have hfound : found.Formed := hitem
      have henter : found.enter.kind.isEnter := hfound.enter
      have hgroup := ih hitems hseparated
      generalize items.flatMap Item.tokens ++ later = next at hgroup ⊢
      have hsplit : (Item.block found).tokens ++ next = found.enter ::
          (found.lead ++ found.identifier :: (found.more ++ found.exit :: next)) := by
        simp [Item.tokens, Block.tokens]
      rw [hsplit, group, if_neg (Kind.ne_eof_of_isEnter henter),
        if_neg (Kind.not_isText_of_isEnter henter), if_neg (Kind.not_isExit_of_isEnter henter),
        block?_tokens hfound, (inner_of_formed hfound next).2, List.drop_one, List.tail_cons,
        hgroup]

end Item

end Stencil
