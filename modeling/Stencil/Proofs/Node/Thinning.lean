import Stencil.Proofs.Node.Offence

/-!
# Trimming and blocks

Trimming knows nothing of blocks. It drops blanks and line breaks next to delimiters, wherever these
stand, and yet it drops none in a block: after an enter nothing is dropped up to the next exit,
since only an exit with a trim marker takes a margin after it, and only an enter takes one before
it. Where delimiters are nested or stray anything may be dropped, but there the first offence has
been met.

`Token.Thinned` says this token by token, with whether a block is open as its state. It is what
trimming does (`thinned_trim`), and what passes and what offends go over from a token list to a
thinned one (`Thinned.passes`, `Thinned.offends`), so trimming changes no error.

Main statement: `Token.Thinned.parse_error`.
-/

namespace Stencil

namespace Kind

@[simp] theorem family?_plain (kind : Kind) : kind.plain.family? = kind.family? := by
  cases kind <;> rfl

end Kind

/-! ## Blocks and errors without trim markers -/

namespace Token

@[simp] theorem kind_plain (token : Token) : token.plain.kind = token.kind.plain := rfl

/-- The first of some tokens, with or without their trim markers. -/
theorem headD_plain {tokens tokens' : List Token} (h : tokens'.head? = tokens.head?.map plain) :
    tokens'.headD .eof = (tokens.headD .eof).plain := by
  rw [List.headD_eq_head?_getD, List.headD_eq_head?_getD, h]
  cases tokens.head? <;> rfl

end Token

/-- The error at the token without its trim marker. -/
def ParseError.plain (error : ParseError) : ParseError := { error with token := error.token.plain }

theorem ParseError.ofToken_plain (source : Text) (token : Token) (reason : Reason) :
    ofToken source token.plain reason = (ofToken source token reason).plain := by
  rw [ofToken, Token.text_plain, plain, ofToken]

namespace Block

/-- The block without its trim markers. -/
def plain (block : Block) : Block :=
  { block with enter := block.enter.plain, exit := block.exit.plain }

theorem Formed.plain {block : Block} (h : block.Formed) : block.plain.Formed where
  enter := (Kind.isEnter_plain _).trans h.enter
  lead := h.lead
  identifier := h.identifier
  more := h.more
  exit := (Kind.isExit_plain _).trans h.exit
  family := (Kind.family?_plain _).trans (h.family.trans (Kind.family?_plain _).symm)

/-- Where the exit stands does not depend on its marker. -/
theorem remainder_plain (source : Text) (block : Block) :
    block.plain.remainder source = block.remainder source := by
  rw [remainder, remainder, plain, Token.range_plain]

end Block

namespace Progress

variable {source : Text} {limit : Nat}

/-- Trim markers do not matter to what a block is taken for. -/
theorem block?_plain (progress : Progress) (block : Block) :
    progress.block? source limit block.plain = progress.block? source limit block := by
  unfold block? call? elseIf? open? otherwise? close?
  rw [Block.remainder_plain]
  rfl

theorem blocks?_plain (progress : Progress) (blocks : List Block) :
    progress.blocks? source limit (blocks.map Block.plain)
      = progress.blocks? source limit blocks := by
  induction blocks generalizing progress with
  | nil => rfl
  | cons block blocks ih =>
    rw [List.map_cons, blocks?_cons, blocks?_cons, block?_plain]
    cases progress.block? source limit block with
    | error error => rfl
    | ok next => exact ih next

end Progress

namespace Item

variable {source : Text} {enter stop : Token} {inner later later' : List Token}

/-- A block is looked for without regard to trim markers. -/
theorem block?_plain (hinner : ∀ token ∈ inner, token.kind.isText)
    (hlater : ∀ token ∈ later.head?, ¬token.kind.isText)
    (hhead : later'.head? = later.head?.map Token.plain) :
    block? source enter.plain (inner ++ later')
      = ((block? source enter (inner ++ later)).map Block.plain).mapError ParseError.plain := by
  have hlater' : ∀ token ∈ later'.head?, ¬token.kind.isText := by
    intro token htoken
    rw [hhead, Option.mem_def] at htoken
    obtain ⟨marked, hmarked, rfl⟩ := Option.map_eq_some_iff.1 htoken
    rw [Token.isText_plain]
    exact hlater marked hmarked
  have hstop := Token.headD_plain hhead
  have hfirst : (inner ++ later').headD .eof = ((inner ++ later).headD .eof).plain := by
    cases inner with
    | nil => exact hstop
    | cons token inner => exact (Token.plain_of_isText (hinner token List.mem_cons_self)).symm
  have hwords : ∀ token ∈ inner.dropWhile (·.kind ≠ .raw), token.plain = token :=
    fun token htoken => Token.plain_of_isText (hinner token ((List.dropWhile_sublist _).mem htoken))
  rw [block?, block?, (takeWhile_isText hinner hlater).1, (takeWhile_isText hinner hlater).2,
    (takeWhile_isText hinner hlater').1, (takeWhile_isText hinner hlater').2, hstop, hfirst]
  simp only [ParseError.ofToken_plain, Token.kind_plain, Kind.isExit_plain, Kind.isEnter_plain,
    Kind.family?_plain]
  split
  · rfl
  split
  · rfl
  split
  · rfl
  rename_i identifier more hmore
  split
  · rfl
  · rw [hmore] at hwords
    have hidentifier := hwords identifier List.mem_cons_self
    rw [Except.map, Except.mapError, ← ParseError.ofToken_plain, hidentifier]

/-- An enter may not stand in a block. -/
theorem block?_nested (hinner : ∀ token ∈ inner, token.kind.isText) (hstop : stop.kind.isEnter)
    (later : List Token) :
    block? source enter (inner ++ stop :: later) = .error (.ofToken source stop .nestedBlock) := by
  have hlater : ∀ token ∈ (stop :: later).head?, ¬token.kind.isText := by
    rintro token ⟨⟩
    exact Kind.not_isText_of_isEnter hstop
  have hsplit := takeWhile_isText hinner hlater
  rw [block?, hsplit.1, hsplit.2, List.headD_cons,
    if_neg fun h => Kind.not_isExit_of_isEnter hstop h.1, if_pos hstop]

end Item

/-! ## Thinned token lists -/

namespace Token

/-- The second list is what trimming may leave of the first one, in which a block is open if
`inside` holds. After the first delimiter that is stray or nested it does not matter what is
left. -/
inductive Thinned : (inside : Bool) → List Token → List Token → Prop
  | nil {inside : Bool} : Thinned inside [] []
  | keep {inside : Bool} {token : Token} {tokens left : List Token} :
      token.kind.isText → Thinned inside tokens left →
      Thinned inside (token :: tokens) (token :: left)
  /-- Text may be dropped where no block is open. -/
  | drop {token : Token} {tokens left : List Token} :
      token.kind.isText → Thinned false tokens left → Thinned false (token :: tokens) left
  | enter {token : Token} {tokens left : List Token} :
      token.kind.isEnter → Thinned true tokens left →
      Thinned false (token :: tokens) (token.plain :: left)
  | exit {token : Token} {tokens left : List Token} :
      token.kind.isExit → Thinned false tokens left →
      Thinned true (token :: tokens) (token.plain :: left)
  /-- An exit where no block is open. -/
  | stray {token : Token} {tokens left : List Token} :
      token.kind.isExit → left.Sublist (tokens.map plain) →
      Thinned false (token :: tokens) (token.plain :: left)
  /-- An enter where a block is open, with text before it. -/
  | nested {token : Token} {inner inner' tokens left : List Token} :
      (∀ token ∈ inner, token.kind.isText) → inner'.Sublist inner → token.kind.isEnter →
      left.Sublist (tokens.map plain) →
      Thinned true (inner ++ token :: tokens) (inner' ++ token.plain :: left)

variable {source : Text} {limit : Nat} {inside : Bool} {enter token : Token}
  {before rest run tokens left s s' t t' : List Token} {blocks : List Block}

theorem Thinned.sublist (h : Thinned inside tokens left) : left.Sublist (tokens.map plain) := by
  induction h with
  | nil => exact .slnil
  | keep htext _ ih =>
    rw [List.map_cons, plain_of_isText htext]
    exact ih.cons_cons _
  | drop _ _ ih => exact ih.cons _
  | enter _ _ ih => exact ih.cons_cons _
  | exit _ _ ih => exact ih.cons_cons _
  | stray _ hleft => exact hleft.cons_cons _
  | nested hinner hsublist _ hleft =>
    rw [List.map_append, map_plain_text hinner, List.map_cons]
    exact hsublist.append (hleft.cons_cons _)

/-! ### Trimming -/

theorem Thinned.append_text (hs : ∀ token ∈ s, token.kind.isText) (h : Thinned inside t t') :
    Thinned inside (s ++ t) (s ++ t') := by
  induction s with
  | nil => exact h
  | cons token s ih =>
    rw [List.forall_mem_cons] at hs
    exact .keep hs.1 (ih hs.2)

theorem Thinned.append_sublist (hs : ∀ token ∈ s, token.kind.isText) (hsublist : s'.Sublist s)
    (h : Thinned false t t') : Thinned false (s ++ t) (s' ++ t') := by
  induction hsublist with
  | slnil => exact h
  | cons token _ ih =>
    rw [List.forall_mem_cons] at hs
    exact .drop hs.1 (ih hs.2)
  | cons_cons token _ ih =>
    rw [List.forall_mem_cons] at hs
    exact .keep hs.1 (ih hs.2)

theorem survivors_eq_self {before after : Option Token} (hbefore : ¬before.any trimsAfter)
    (hafter : ¬after.any trimsBefore) (gap : List Token) : survivors before after gap = gap := by
  rw [survivors, if_neg hbefore, if_neg hafter, Nat.sub_zero, List.take_length, List.drop_zero]

/-- What is left of a gap comes first. If a block is open, no margin of the gap is taken. -/
theorem Thinned.append_survivors {before after : Option Token} {gap : List Token}
    (hgap : ∀ token ∈ gap, token.kind.isText)
    (hbefore : inside = true → ¬before.any trimsAfter)
    (hafter : inside = true → ¬after.any trimsBefore) (h : Thinned inside t t') :
    Thinned inside (gap ++ t) (survivors before after gap ++ t') := by
  cases inside with
  | false => exact h.append_sublist hgap (survivors_sublist before after gap)
  | true =>
    rw [survivors_eq_self (hbefore rfl) (hafter rfl)]
    exact h.append_text hgap

/-- Trimming thins tokens that are given by their gaps. The token before the first gap takes no
margin if a block is open. -/
theorem thinned_trimGaps {before : Option Token} {gap : List Token} {sections : List Section}
    (h : Gapped gap sections) (heof : ∀ token ∈ joined gap sections, token.kind ≠ .eof)
    (hbefore : inside = true → ¬before.any trimsAfter) :
    Thinned inside (joined gap sections) (trimGaps before gap sections none) := by
  have hgap := h.text
  induction sections generalizing before gap inside with
  | nil =>
    have hnil : Thinned inside [] [] := .nil
    have hthinned : Thinned inside (gap ++ []) (survivors before none gap ++ []) :=
      hnil.append_survivors hgap hbefore fun _ => by simp
    rwa [List.append_nil, List.append_nil] at hthinned
  | cons next sections ih =>
    obtain ⟨-, -, hrest⟩ := h
    rw [joined] at heof ⊢
    have hleft : (trimGaps (some next.token) next.gap sections none).Sublist
        ((joined next.gap sections).map plain) := trimGaps_sublist hrest
    have hlater : ∀ inside, (inside = true → ¬(some next.token).any trimsAfter) →
        Thinned inside (joined next.gap sections)
          (trimGaps (some next.token) next.gap sections none) := fun inside hinside =>
      ih hrest (fun token htoken => heof token (by simp [htoken])) hinside hrest.text
    have hclosed : ∀ {p : Prop}, false = true → p := fun h => absurd h Bool.false_ne_true
    by_cases henter : next.token.kind.isEnter
    · cases inside with
      | false =>
        refine .append_survivors hgap hclosed hclosed (.enter henter (hlater true fun _ => ?_))
        simp [trimsAfter_of_isEnter henter]
      | true => exact .nested hgap (survivors_sublist before _ gap) henter hleft
    -- What is no enter takes no margin before it.
    refine .append_survivors hgap hbefore (fun _ => by simp [trimsBefore, henter]) ?_
    by_cases hexit : next.token.kind.isExit
    · cases inside with
      | false => exact .stray hexit hleft
      | true => exact .exit hexit (hlater false hclosed)
    · have htext : next.token.kind.isText := by
        by_contra htext
        exact henter (Kind.isEnter_of_not (heof _ (by simp)) htext hexit)
      rw [plain_of_isText htext]
      refine .keep htext (hlater inside fun _ => ?_)
      simp [trimsAfter, hexit]

/-- Trimming thins. -/
theorem thinned_trim (heof : ∀ token ∈ tokens, token.kind ≠ .eof) :
    Thinned false tokens (trim tokens) := by
  obtain ⟨gap, sections, hgapped, rfl⟩ := exists_gapped tokens
  rw [trim_joined hgapped]
  exact thinned_trimGaps hgapped heof nofun

/-! ### What goes over -/

/-- An open block goes on with text up to a delimiter or to the end. Nothing of the text is dropped
unless the delimiter is an enter. -/
theorem Thinned.exists_stop (h : Thinned true tokens left) :
    ∃ inner inner' later later', tokens = inner ++ later ∧ left = inner' ++ later' ∧
      (∀ token ∈ inner, token.kind.isText) ∧ (∀ token ∈ inner', token.kind.isText) ∧
      (∀ token ∈ later.head?, ¬token.kind.isText) ∧ later'.head? = later.head?.map plain ∧
      ((inner' = inner ∧ Thinned false later.tail later'.tail) ∨
        ∃ token ∈ later.head?, token.kind.isEnter) := by
  generalize hinside : true = inside at h
  induction h with
  | nil => exact ⟨[], [], [], [], rfl, rfl, by simp, by simp, by simp, rfl, .inl ⟨rfl, .nil⟩⟩
  | @keep inside token _ _ htext _ ih =>
    subst hinside
    obtain ⟨inner, inner', later, later', rfl, rfl, hinner, hinner', hlater, hhead, hrest⟩ :=
      ih rfl
    exact ⟨token :: inner, token :: inner', later, later', rfl, rfl,
      List.forall_mem_cons.2 ⟨htext, hinner⟩, List.forall_mem_cons.2 ⟨htext, hinner'⟩, hlater,
      hhead, hrest.imp_left (And.imp_left (congrArg (token :: ·)))⟩
  | exit hexit hrest =>
    refine ⟨[], [], _, _, rfl, rfl, by simp, by simp, ?_, rfl, .inl ⟨rfl, hrest⟩⟩
    rintro token ⟨⟩
    exact Kind.not_isText_of_isExit hexit
  | @nested token inner inner' _ _ hinner hsublist henter =>
    refine ⟨inner, inner', _, _, rfl, rfl, hinner, fun t ht => hinner t (hsublist.mem ht), ?_, rfl,
      .inr ⟨token, rfl, henter⟩⟩
    rintro token ⟨⟩
    exact Kind.not_isText_of_isEnter henter
  | drop | enter | stray => cases hinside

/-- An enter opens a block. -/
theorem Thinned.exists_enter (henter : enter.kind.isEnter)
    (h : Thinned false (enter :: tokens) left) :
    ∃ later, left = enter.plain :: later ∧ Thinned true tokens later := by
  cases h with
  | keep htext | drop htext => exact absurd htext (Kind.not_isText_of_isEnter henter)
  | enter _ h => exact ⟨_, rfl, h⟩
  | stray hexit => exact absurd hexit (Kind.not_isExit_of_isEnter henter)

/-- A formed block stays. -/
theorem Thinned.block {found : Block} (hfound : found.Formed)
    (h : Thinned false (found.tokens ++ tokens) left) :
    ∃ later, left = found.plain.tokens ++ later ∧ Thinned false tokens later := by
  rw [Block.tokens_append] at h
  obtain ⟨left, rfl, hinside⟩ := h.exists_enter hfound.enter
  obtain ⟨inner, inner', later, later', hsplit, rfl, hinner, -, hlater, hhead, hrest⟩ :=
    hinside.exists_stop
  -- The text up to the delimiter is the text of the block, and the delimiter its exit.
  obtain ⟨htake, hdrop⟩ := Item.inner_of_formed hfound tokens
  obtain ⟨htake', hdrop'⟩ := Item.takeWhile_isText hinner hlater
  rw [hsplit] at htake hdrop
  obtain rfl : inner = _ := htake'.symm.trans htake
  obtain rfl : later = _ := hdrop'.symm.trans hdrop
  obtain ⟨next, rfl⟩ : ∃ next, later' = found.exit.plain :: next := by
    rw [List.head?_cons, Option.map_some] at hhead
    exact List.head?_eq_some_iff.1 hhead
  rcases hrest with ⟨rfl, hrest⟩ | ⟨token, htoken, henter⟩
  · refine ⟨next, ?_, hrest⟩
    simp [Block.tokens, Block.plain]
  · obtain rfl : found.exit = token := by simpa using htoken
    exact absurd henter (Kind.not_isEnter_of_isExit hfound.exit)

/-- Text goes over in part. -/
theorem Thinned.exists_sublist (hrun : ∀ token ∈ run, token.kind.isText)
    (h : Thinned false (run ++ tokens) left) :
    ∃ run' later, left = run' ++ later ∧ run'.Sublist run ∧ Thinned false tokens later := by
  induction run generalizing left with
  | nil => exact ⟨[], left, rfl, .slnil, h⟩
  | cons token run ih =>
    rw [List.forall_mem_cons] at hrun
    cases h with
    | keep _ h =>
      obtain ⟨run', later, rfl, hsublist, hlater⟩ := ih hrun.2 h
      exact ⟨token :: run', later, rfl, hsublist.cons_cons token, hlater⟩
    | drop _ h =>
      obtain ⟨run', later, rfl, hsublist, hlater⟩ := ih hrun.2 h
      exact ⟨run', later, rfl, hsublist.cons token, hlater⟩
    | enter henter => exact absurd hrun.1 (Kind.not_isText_of_isEnter henter)
    | stray hexit => exact absurd hrun.1 (Kind.not_isText_of_isExit hexit)

/-- What passes goes over with its blocks. -/
theorem Thinned.passes (hpasses : Passes before blocks) (h : Thinned false (before ++ rest) left) :
    ∃ before' rest', left = before' ++ rest' ∧ Passes before' (blocks.map Block.plain) ∧
      Thinned false rest rest' := by
  induction hpasses generalizing left with
  | nil => exact ⟨[], left, rfl, .nil, h⟩
  | @text token tokens blocks htext _ ih =>
    have hrun : ∀ t ∈ [token], t.kind.isText := by simpa using htext
    have hsplit : Thinned false ([token] ++ (tokens ++ rest)) left := h
    obtain ⟨run, later, rfl, hsublist, hlater⟩ := hsplit.exists_sublist hrun
    obtain ⟨before', rest', rfl, hpasses, hrest⟩ := ih hlater
    have hrun' : Passes run [] := by
      rcases List.sublist_singleton.1 hsublist with rfl | rfl
      · exact .nil
      · exact .text htext .nil
    exact ⟨run ++ before', rest', (List.append_assoc _ _ _).symm, hrun'.append hpasses, hrest⟩
  | block hfound _ ih =>
    rw [List.append_assoc] at h
    obtain ⟨later, rfl, hlater⟩ := h.block hfound
    obtain ⟨before', rest', rfl, hpasses, hrest⟩ := ih hlater
    exact ⟨_, rest', (List.append_assoc _ _ _).symm, .block hfound.plain hpasses, hrest⟩

/-- What offends goes over, with the error at the same place. -/
theorem Thinned.offends {progress : Progress} {error : ParseError} (h : Thinned false rest left)
    (hoffends : progress.Offends source limit rest error) :
    progress.Offends source limit left error.plain ∧ left.head? = rest.head?.map plain := by
  cases hoffends with
  | @block found later _ hfound hstep =>
    obtain ⟨later', rfl, -⟩ := h.block hfound
    have herror : error.plain = error := by
      have hraw : error.token.kind = .raw := by
        rcases (Progress.exists_token_of_block? hstep).2 with htoken | htoken
        · rw [htoken, hfound.identifier]
        · rw [htoken, hfound.second]
      rw [ParseError.plain, plain_of_isText (by rw [hraw]; rfl)]
    rw [herror]
    refine ⟨.block hfound.plain ?_, rfl⟩
    rwa [Progress.block?_plain]
  | @stray token later hexit =>
    cases h with
    | keep htext | drop htext => exact absurd htext (Kind.not_isText_of_isExit hexit)
    | enter henter => exact absurd hexit (Kind.not_isExit_of_isEnter henter)
    | stray =>
      rw [← ParseError.ofToken_plain]
      exact ⟨.stray ((Kind.isExit_plain _).trans hexit), rfl⟩
  | @unformed enter later _ henter hblock =>
    obtain ⟨left, rfl, hinside⟩ := h.exists_enter henter
    refine ⟨.unformed ((Kind.isEnter_plain _).trans henter) ?_, rfl⟩
    obtain ⟨inner, inner', later, later', rfl, rfl, hinner, hinner', hlater, hhead, hrest⟩ :=
      hinside.exists_stop
    rcases hrest with ⟨rfl, -⟩ | ⟨stop, hstop, hnested⟩
    · rw [Item.block?_plain hinner hlater hhead, hblock]
      rfl
    · obtain ⟨later, rfl⟩ := List.head?_eq_some_iff.1 (Option.mem_def.1 hstop)
      obtain ⟨later', rfl⟩ := List.head?_eq_some_iff.1 hhead
      rw [Item.block?_nested hinner hnested] at hblock
      cases hblock
      rw [Item.block?_nested hinner' ((Kind.isEnter_plain _).trans hnested),
        ParseError.ofToken_plain]
  | unfinished hframes =>
    cases h
    exact ⟨.unfinished hframes, rfl⟩

/-- A thinned token list is refused as the whole one is. -/
theorem Thinned.parse_error {error : ParseError} (h : Thinned false tokens left)
    (heof : ∀ token ∈ tokens, token.kind ≠ .eof)
    (hparse : Node.parse source limit tokens = .error error) :
    Node.parse source limit left = .error error.plain := by
  obtain ⟨before, rest, blocks, progress, rfl, hpasses, htaken, hoffends⟩ :=
    exists_offence heof hparse
  obtain ⟨before', rest', rfl, hpasses', hrest⟩ := h.passes hpasses
  refine parse_of_offends hpasses' ?_ (hrest.offends hoffends).1
  rwa [Progress.blocks?_plain]

end Token

end Stencil
