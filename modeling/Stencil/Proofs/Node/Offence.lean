import Stencil.Proofs.Node.Blocks
import Stencil.Proofs.Token.Gaps
import Stencil.Proofs.Token.Lines
import Stencil.Template

/-!
# The first offence

A token list that is refused has a first part that passes: text tokens and formed blocks, and the
blocks are taken. What comes after that part offends, with what stands first in it: a block that is
not taken, an exit without an enter, an enter that begins no block, or nothing although a body is
open (`Progress.Offends`). Refusing a token list and having such an offence are the same
(`exists_offence`, `parse_of_offends`), so an error can be followed from one token list to another
by following the offence.

Main statement: `Template.compile_error_placed`.
-/

namespace Stencil

/-! ## Blocks that cannot be formed -/

namespace Item

variable {source : Text} {enter stop token : Token} {inner later tokens : List Token}
  {error : ParseError}

/-- What follows the token after the run does not matter. -/
theorem block?_stop (hinner : ∀ token ∈ inner, token.kind.isText) (hstop : ¬stop.kind.isText)
    (later : List Token) :
    block? source enter (inner ++ stop :: later) = block? source enter (inner ++ [stop]) := by
  have hsplit : ∀ later, (inner ++ stop :: later).takeWhile (·.kind.isText) = inner ∧
      (inner ++ stop :: later).dropWhile (·.kind.isText) = stop :: later := fun later =>
    takeWhile_isText hinner (by rintro token ⟨⟩; exact hstop)
  have hhead : ∀ later, (inner ++ stop :: later).headD .eof = inner.headD stop := by
    cases inner <;> exact fun _ => rfl
  rw [block?, block?, (hsplit later).1, (hsplit later).2, (hsplit []).1, (hsplit []).2, hhead,
    hhead]
  rfl

/-- If the tokens end before the block does, that is what is noted. -/
theorem reason_of_run (hinner : ∀ token ∈ inner, token.kind.isText)
    (h : block? source enter inner = .error error) :
    error.reason = .emptyBlock ∨ error.reason = .missingExit := by
  have hnone : ∀ token ∈ ([] : List Token).head?, ¬token.kind.isText := nofun
  have hsplit := takeWhile_isText hinner hnone
  rw [List.append_nil] at hsplit
  have hstop : ¬Token.eof.kind.isExit ∧ ¬Token.eof.kind.isEnter := by decide
  rw [block?, hsplit.1, hsplit.2, List.headD_nil, if_neg fun hexit => hstop.1 hexit.1,
    if_neg hstop.2] at h
  split at h
  · cases h
    exact .inl rfl
  · rw [if_neg hstop.1] at h
    cases h
    exact .inr rfl

/-- A block that cannot be formed goes wrong at one of the tokens after its enter, or at the end of
file. -/
theorem exists_token_of_block? (h : block? source enter tokens = .error error) :
    error = .ofToken source error.token error.reason ∧
      (error.token = .eof ∨ error.token ∈ tokens) := by
  have hhead : ∀ tokens : List Token, tokens.headD .eof = .eof ∨ tokens.headD .eof ∈ tokens := by
    intro tokens
    cases tokens with
    | nil => exact .inl rfl
    | cons token tokens => exact .inr List.mem_cons_self
  have hstop := (hhead (tokens.dropWhile (·.kind.isText))).imp_right
    fun hmem => (List.dropWhile_sublist (fun token : Token => token.kind.isText)).mem hmem
  unfold block? at h
  simp only at h
  split at h
  · cases h
    exact ⟨rfl, hstop⟩
  split at h
  · cases h
    exact ⟨rfl, hstop⟩
  split at h
  · cases h
    exact ⟨rfl, hhead tokens⟩
  rename_i identifier more hmore
  split at h
  · cases h
  · cases h
    have hmem : identifier ∈ (tokens.takeWhile (·.kind.isText)).dropWhile (·.kind ≠ .raw) := by
      rw [hmore]
      exact List.mem_cons_self
    exact ⟨rfl, .inr ((List.takeWhile_sublist _).mem ((List.dropWhile_sublist _).mem hmem))⟩

end Item

/-! ## Blocks that are not taken -/

namespace Block

variable {block : Block}

theorem second_mem (block : Block) : block.second ∈ block.identifier :: block.more := by
  rw [second]
  cases hfound : block.more.find? (·.kind = .raw) with
  | none => exact List.mem_cons_self
  | some token => exact List.mem_cons_of_mem _ (List.mem_of_find?_eq_some hfound)

theorem Formed.second (h : block.Formed) : block.second.kind = .raw := by
  rw [Block.second]
  cases hfound : block.more.find? (·.kind = .raw) with
  | none => exact h.identifier
  | some token => simpa using List.find?_some hfound

end Block

/-- A block that is not taken goes wrong at its first or at its second word. -/
theorem Progress.exists_token_of_block? {source : Text} {limit : Nat} {block : Block}
    {progress : Progress} {error : ParseError}
    (h : progress.block? source limit block = .error error) :
    error = .ofToken source error.token error.reason ∧
      (error.token = block.identifier ∨ error.token = block.second) := by
  unfold Progress.block? Progress.call? Progress.open? Progress.elseIf? Progress.otherwise?
    Progress.close? at h
  repeat' split at h
  all_goals cases h
  all_goals first | exact ⟨rfl, .inl rfl⟩ | exact ⟨rfl, .inr rfl⟩

/-! ## Passing and offending -/

/-- The tokens are text tokens and the blocks, in order. -/
inductive Passes : List Token → List Block → Prop
  | nil : Passes [] []
  | text {token : Token} {tokens : List Token} {blocks : List Block} :
      token.kind.isText → Passes tokens blocks → Passes (token :: tokens) blocks
  | block {found : Block} {tokens : List Token} {blocks : List Block} :
      found.Formed → Passes tokens blocks → Passes (found.tokens ++ tokens) (found :: blocks)

/-- What stands first in the tokens is refused once a template has been read up to there. -/
inductive Progress.Offends (source : Text) (limit : Nat) (progress : Progress) :
    List Token → ParseError → Prop
  /-- A block is not taken. -/
  | block {found : Block} {later : List Token} {error : ParseError} :
      found.Formed → progress.block? source limit found = .error error →
      Offends source limit progress (found.tokens ++ later) error
  /-- An exit has no enter. -/
  | stray {token : Token} {later : List Token} :
      token.kind.isExit →
      Offends source limit progress (token :: later) (.ofToken source token .strayExit)
  /-- An enter begins no block. -/
  | unformed {enter : Token} {later : List Token} {error : ParseError} :
      enter.kind.isEnter → Item.block? source enter later = .error error →
      Offends source limit progress (enter :: later) error
  /-- There is nothing more, and a body is open. -/
  | unfinished :
      progress.frames ≠ [] →
      Offends source limit progress [] (.ofToken source .eof .unexpectedEnd)

/-- The tokens ran out: a body is not closed, or a block has no exit. -/
def RanOut (rest : List Token) (error : ParseError) : Prop :=
  error.reason = .unexpectedEnd ∨ error.reason = .missingExit ∨
    (error.reason = .emptyBlock ∧ ∀ token ∈ rest, ¬token.kind.isExit)

section

variable {source : Text} {limit : Nat} {progress : Progress} {before rest tokens : List Token}
  {blocks : List Block} {error : ParseError}

theorem Passes.append {later : List Token} {blocks' : List Block} (h : Passes before blocks)
    (hlater : Passes later blocks') : Passes (before ++ later) (blocks ++ blocks') := by
  induction h with
  | nil => exact hlater
  | text htext _ ih => exact .text htext ih
  | block hfound _ ih =>
    rw [List.append_assoc, List.cons_append]
    exact .block hfound ih

/-- The blocks of a first part that passes come first. -/
theorem Passes.blocks_append (h : Passes before blocks) (rest : List Token) :
    Item.blocks source (before ++ rest)
      = (blocks ++ (Item.blocks source rest).1, (Item.blocks source rest).2) := by
  induction h with
  | nil => rfl
  | text htext _ ih => rw [List.cons_append, Item.blocks_text htext, ih]
  | block hfound _ ih => rw [List.append_assoc, Item.blocks_block hfound, ih, List.cons_append]

/-- If taking the blocks of the tokens comes to an error, there is a first offence. -/
theorem exists_offence_of_blocks (heof : ∀ token ∈ tokens, token.kind ≠ .eof)
    (h : (progress.blocks? source limit (Item.blocks source tokens).1).bind
      (·.finish? source (Item.blocks source tokens).2) = .error error) :
    ∃ before rest blocks next, tokens = before ++ rest ∧ Passes before blocks ∧
      progress.blocks? source limit blocks = .ok next ∧ next.Offends source limit rest error := by
  refine Item.reading_induction (motive := fun tokens => ∀ progress : Progress,
    (progress.blocks? source limit (Item.blocks source tokens).1).bind
        (·.finish? source (Item.blocks source tokens).2) = .error error →
      ∃ before rest blocks next, tokens = before ++ rest ∧ Passes before blocks ∧
        progress.blocks? source limit blocks = .ok next ∧ next.Offends source limit rest error)
    source ?nil ?text ?stray ?unformed ?block tokens heof progress h
  case nil =>
    intro progress h
    rw [Item.blocks_nil] at h
    change progress.finish? source (.finished .eof) = .error error at h
    rw [Progress.finish?] at h
    split at h
    · cases h
    rename_i hframes
    cases h
    exact ⟨[], [], [], progress, rfl, .nil, rfl, .unfinished (by simpa using hframes)⟩
  case text =>
    intro token tokens htext ih progress h
    rw [Item.blocks_text htext] at h
    obtain ⟨before, rest, blocks, next, rfl, hpasses, htaken, hoffends⟩ := ih progress h
    exact ⟨token :: before, rest, blocks, next, rfl, .text htext hpasses, htaken, hoffends⟩
  case stray =>
    intro token tokens hexit progress h
    rw [Item.blocks_exit hexit] at h
    cases h
    exact ⟨[], _, [], progress, rfl, .nil, rfl, .stray hexit⟩
  case unformed =>
    intro enter tokens found henter hblock progress h
    rw [Item.blocks_error henter hblock] at h
    cases h
    exact ⟨[], _, [], progress, rfl, .nil, rfl, .unformed henter hblock⟩
  case block =>
    intro found tokens hfound ih progress h
    rw [Item.blocks_block hfound] at h
    simp only [Progress.blocks?_cons] at h
    cases hstep : progress.block? source limit found with
    | error error' =>
      rw [hstep] at h
      cases h
      exact ⟨[], _, [], progress, rfl, .nil, rfl, .block hfound hstep⟩
    | ok taken =>
      rw [hstep] at h
      obtain ⟨before, rest, blocks, next, rfl, hpasses, htaken, hoffends⟩ := ih taken h
      refine ⟨found.tokens ++ before, rest, found :: blocks, next, by rw [List.append_assoc],
        .block hfound hpasses, ?_, hoffends⟩
      rw [Progress.blocks?_cons, hstep]
      exact htaken

/-- A token list that is refused has a first offence. -/
theorem exists_offence (heof : ∀ token ∈ tokens, token.kind ≠ .eof)
    (h : Node.parse source limit tokens = .error error) :
    ∃ before rest blocks progress, tokens = before ++ rest ∧ Passes before blocks ∧
      Progress.start.blocks? source limit blocks = .ok progress ∧
      progress.Offends source limit rest error := by
  refine exists_offence_of_blocks heof ?_
  rw [← Node.parse_bare, h]
  rfl

/-- What offends ends the reading. -/
theorem Progress.Offends.finish? (h : progress.Offends source limit rest error) :
    (progress.blocks? source limit (Item.blocks source rest).1).bind
      (·.finish? source (Item.blocks source rest).2) = .error error := by
  cases h with
  | block hfound hstep =>
    rw [Item.blocks_block hfound, Progress.blocks?_cons, hstep]
    rfl
  | stray hexit =>
    rw [Item.blocks_exit hexit]
    rfl
  | unformed henter hblock =>
    rw [Item.blocks_error henter hblock]
    rfl
  | unfinished hframes =>
    have hopen : ¬progress.frames.isEmpty := by simpa using hframes
    rw [Item.blocks_nil]
    change progress.finish? source (.finished .eof) = _
    rw [Progress.finish?, if_neg hopen]

/-- A token list with an offence after a first part that passes is refused. -/
theorem parse_of_offends (hpasses : Passes before blocks)
    (htaken : Progress.start.blocks? source limit blocks = .ok progress)
    (hoffends : progress.Offends source limit rest error) :
    Node.parse source limit (before ++ rest) = .error error := by
  have hparse := Node.parse_bare source limit (before ++ rest)
  have hrest := hoffends.finish?
  rw [hpasses.blocks_append, Progress.blocks?_append, htaken] at hparse
  change _ = (progress.blocks? source limit _).bind _ at hparse
  rw [hrest] at hparse
  cases hresult : Node.parse source limit (before ++ rest) with
  | error error' =>
    rw [hresult] at hparse
    cases hparse
    rfl
  | ok nodes =>
    rw [hresult] at hparse
    cases hparse

/-- Further tokens do not change an offence, unless it is that the tokens ran out. -/
theorem Progress.Offends.append (h : progress.Offends source limit rest error)
    (hrest : ¬RanOut rest error) (more : List Token) :
    progress.Offends source limit (rest ++ more) error := by
  cases h with
  | block hfound hstep =>
    rw [List.append_assoc]
    exact .block hfound hstep
  | stray hexit => exact .stray hexit
  | @unformed enter later _ henter hblock =>
    obtain ⟨inner, later, rfl, hinner, hstop⟩ := Item.exists_run later
    cases later with
    | nil =>
      rw [List.append_nil] at hrest hblock
      refine absurd ?_ hrest
      rcases Item.reason_of_run hinner hblock with hreason | hreason
      · refine .inr (.inr ⟨hreason, List.forall_mem_cons.2 ⟨?_, fun token htoken => ?_⟩⟩)
        · exact Kind.not_isExit_of_isEnter henter
        · exact Kind.not_isExit_of_isText (hinner token htoken)
      · exact .inr (.inl hreason)
    | cons stop later =>
      have hstop : ¬stop.kind.isText := hstop stop rfl
      rw [Item.block?_stop hinner hstop] at hblock
      rw [List.cons_append, List.append_assoc, List.cons_append]
      refine .unformed henter ?_
      rwa [Item.block?_stop hinner hstop]
  | unfinished => exact absurd (.inl rfl) hrest

/-- An offence is noted at one of the tokens, or at the end of file. -/
theorem Progress.Offends.exists_token (h : progress.Offends source limit rest error) :
    error = .ofToken source error.token error.reason ∧
      (error.token = .eof ∨ error.token ∈ rest) := by
  cases h with
  | @block found later _ hfound hstep =>
    obtain ⟨herror, htoken⟩ := Progress.exists_token_of_block? hstep
    have hwords : ∀ token ∈ found.identifier :: found.more, token ∈ found.tokens ++ later := by
      intro token htoken
      rw [List.mem_cons] at htoken
      rcases htoken with rfl | hmore
      · simp [Block.tokens]
      · simp [Block.tokens, hmore]
    refine ⟨herror, .inr (hwords _ ?_)⟩
    rcases htoken with htoken | htoken
    · rw [htoken]
      exact List.mem_cons_self
    · rw [htoken]
      exact found.second_mem
  | stray => exact ⟨rfl, .inr List.mem_cons_self⟩
  | unformed henter hblock =>
    obtain ⟨herror, htoken⟩ := Item.exists_token_of_block? hblock
    exact ⟨herror, htoken.imp_right (List.mem_cons_of_mem _)⟩
  | unfinished => exact ⟨rfl, .inl rfl⟩

end

/-! ## Where errors are noted -/

namespace Token

variable {source : Text} {token : Token} {tokens : List Token}

theorem text_eof (source : Text) : eof.text source = [] := by
  rw [text, range, if_pos (.inl rfl)]
  simp [Text.slice?]

/-- The tokens of a trimmed source are tokens of the source, without their trim markers. -/
theorem exists_trim (source : Text) :
    ∃ tokens, trim (scan source) = tokens ++ [eof] ∧
      ∀ token ∈ tokens, token.kind ≠ .eof ∧
        ∃ scanned ∈ scan source, scanned.kind ≠ .eof ∧ token = scanned.plain := by
  obtain ⟨tokens, hscan, hlaid⟩ := exists_laid_scan source
  refine ⟨trim tokens, by rw [hscan, trim_concat_eof], fun token htoken => ?_⟩
  obtain ⟨scanned, hmem, rfl⟩ := List.mem_map.1 ((trim_sublist tokens).mem htoken)
  refine ⟨hlaid.trim.ne_eof _ htoken, scanned, ?_, hlaid.ne_eof scanned hmem, rfl⟩
  rw [hscan]
  exact List.mem_append_left _ hmem

end Token

namespace Template

/-- A source is refused for what is wrong with its trimmed tokens. -/
theorem compile_eq_error_iff {source : Text} {maxDepth : Nat} {error : ParseError} :
    compile maxDepth source = .error error ↔
      Node.parse source maxDepth (Token.trim (Token.scan source)) = .error error := by
  rw [compile]
  cases Node.parse source maxDepth (Token.trim (Token.scan source)) <;> simp

/-- The tokens of a source have the lines and columns that a count over the source gives. The error
of a source that is refused is noted at the end of file, with no text, or at a token of the source,
without its trim marker and with the text that it covers. -/
theorem compile_error_placed (source : Text) :
    (∀ token ∈ Token.scan source, token.kind ≠ .eof → token.Placed source) ∧
      ∀ maxDepth error, compile maxDepth source = .error error →
        (error.token = .eof ∧ error.value = []) ∨
          ∃ token ∈ Token.scan source, token.kind ≠ .eof ∧ error.token = token.plain ∧
            error.value = token.text source := by
  refine ⟨fun token htoken hkind => Token.placed_of_mem_scan htoken hkind,
    fun maxDepth error h => ?_⟩
  obtain ⟨tokens, htrim, hplain⟩ := Token.exists_trim source
  have hparse : Node.parse source maxDepth tokens = .error error := by
    rw [← Node.parse_concat_eof, ← htrim]
    exact compile_eq_error_iff.1 h
  -- What is refused is refused at one of the tokens that trimming has left.
  obtain ⟨before, rest, blocks, progress, rfl, -, -, hoffends⟩ :=
    exists_offence (fun token htoken => (hplain token htoken).1) hparse
  obtain ⟨herror, heof | hmem⟩ := hoffends.exists_token
  · refine .inl ⟨heof, ?_⟩
    rw [herror, ParseError.ofToken, heof]
    exact Token.text_eof source
  · obtain ⟨-, token, hscanned, hkind, htoken⟩ := hplain _ (List.mem_append_right before hmem)
    refine .inr ⟨token, hscanned, hkind, htoken, ?_⟩
    rw [herror, ParseError.ofToken, htoken]
    exact Token.text_plain source token

/-- A stray exit with a trim marker, on a second line after a character of two bytes. -/
theorem compile_error_placed_second_line :
    let source := "é\r\n -%\x7d".toList
    match compile 8 source with
    | .ok _ => False
    | .error error =>
      error = ⟨⟨.exit .directive false, ⟨2, 2, 5⟩, ⟨2, 4, 7⟩⟩, ['-', '%', '}'], .strayExit⟩ ∧
        ((error.token = .eof ∧ error.value = []) ∨
          ∃ token ∈ Token.scan source, token.kind ≠ .eof ∧ error.token = token.plain ∧
            error.value = token.text source) := by
  intro source
  have herror : (match compile 8 source with
    | .ok _ => false
    | .error error =>
      decide (error = ⟨⟨.exit .directive false, ⟨2, 2, 5⟩, ⟨2, 4, 7⟩⟩, ['-', '%', '}'],
        .strayExit⟩)) = true := by decide +kernel
  split at herror
  · cases herror
  · rename_i error hcompile
    exact ⟨of_decide_eq_true herror, (compile_error_placed source).2 8 error hcompile⟩

end Template

end Stencil
