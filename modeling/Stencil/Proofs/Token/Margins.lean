import Mathlib.Data.List.Chain
import Stencil.Proofs.Token.Gaps

/-!
# What stands at a margin

The tokens of a source follow one another without a gap, and no two of them are blanks next to each
other. Trimming takes tokens out, but what it leaves next to a marker is never a blank: a margin
ends with one, if there is one. So wherever a blank is left, the token before it is the one that
stood there in the source (`Neighbours.start`), and before an enter that is written with a trim
marker there is none (`Neighbours.margin`).

* `trimOnto_isChain`: what is true of neighbours stays true while trimming goes on.
* `exists_trimmed`: the tokens of a trimmed source.
-/

namespace Stencil

namespace Kind

@[simp] theorem plain_eq_blank {kind : Kind} : kind.plain = blank ↔ kind = blank := by
  cases kind <;> simp [plain]

theorem ne_blank_of_isExit {kind : Kind} (h : kind.isExit) : kind ≠ blank := by
  rintro rfl
  cases h

theorem exists_enter {kind : Kind} (h : kind.isEnter) :
    ∃ family trims, kind = enter family trims := by
  cases kind with
  | enter family trims => exact ⟨family, trims, rfl⟩
  | eof | blank | newline | raw | exit => cases h

theorem exists_exit {kind : Kind} (h : kind.isExit) :
    ∃ family trims, kind = exit family trims := by
  cases kind with
  | exit family trims => exact ⟨family, trims, rfl⟩
  | eof | blank | newline | raw | enter => cases h

/-- Whether an enter trims can be told from the last character of what is written. -/
theorem getLast?_literal_enter (family : Family) (trims : Bool) :
    ∃ c, (enter family trims).literal.getLast? = some c ∧ ¬Text.isBlank c ∧ (c = '-' ↔ trims) := by
  cases family <;> cases trims
  · exact ⟨'{', rfl, by decide, by decide⟩
  · exact ⟨'-', rfl, by decide, by decide⟩
  · exact ⟨'%', rfl, by decide, by decide⟩
  · exact ⟨'-', rfl, by decide, by decide⟩

theorem getLast?_literal_exit (family : Family) (trims : Bool) :
    (exit family trims).literal.getLast? = some '}' := by
  cases family <;> cases trims <;> rfl

/-- An enter that is written like one with a trim marker is one. -/
theorem trims_of_literal_eq {family family' : Family} {trims : Bool}
    (h : (enter family trims).literal = (enter family' true).literal) : trims = true := by
  obtain ⟨c, hc, -, hdash⟩ := getLast?_literal_enter family trims
  obtain ⟨d, hd, -, hdash'⟩ := getLast?_literal_enter family' true
  obtain rfl : c = d := Option.some.inj (hc.symm.trans (h ▸ hd))
  exact hdash.1 (hdash'.2 rfl)

end Kind

namespace Token

/-- The token is written like an enter with a trim marker. It stays written like that when the
marker is gone. -/
def OpensTrimming (source : Text) (token : Token) : Prop :=
  ∃ family, token.text source = (Kind.enter family true).literal

/-- What is true of a token and the one right before it, also if there were others between them. -/
structure Neighbours (source : Text) (previous token : Token) : Prop where
  /-- There were none, unless the margin of a marker is there and no blank is left of it. -/
  start : ¬token.kind.isEnter → (previous.kind.isExit → token.kind = .blank) →
    (token.range source).1 = (previous.range source).2
  /-- A run of blanks is one token. -/
  blank : previous.kind = .blank → token.kind ≠ .blank
  /-- An enter that had a trim marker has taken the blank before it. -/
  margin : token.kind.isEnter → ¬token.kind.isTrim → token.OpensTrimming source →
    previous.kind ≠ .blank

variable {source : Text} {kinds : List Kind} {previous token : Token}
  {kept tokens : List Token}

/-! ## One marker -/

theorem Neighbours.plain_left (h : Neighbours source previous token) :
    Neighbours source previous.plain token where
  start henter hexit := by
    rw [range_plain]
    exact h.start henter (by simpa [plain] using hexit)
  blank hblank := h.blank (Kind.plain_eq_blank.1 hblank)
  margin henter htrim hopens hblank := h.margin henter htrim hopens (Kind.plain_eq_blank.1 hblank)

/-- An exit without its marker follows what it followed with it. -/
theorem Neighbours.plain_right (hexit : token.kind.isExit) (h : Neighbours source previous token) :
    Neighbours source previous token.plain where
  start _ hblank := by
    rw [range_plain]
    refine h.start (Kind.not_isEnter_of_isExit hexit) fun hprevious => ?_
    exact Kind.plain_eq_blank.1 (hblank hprevious)
  blank _ hblank := Kind.ne_blank_of_isExit hexit (Kind.plain_eq_blank.1 hblank)
  margin henter := by
    rw [plain, Kind.isEnter_plain] at henter
    exact absurd henter (Kind.not_isEnter_of_isExit hexit)

/-- An enter may follow anything but a blank. -/
theorem Neighbours.of_enter (henter : token.kind.isEnter) (hprevious : previous.kind ≠ .blank) :
    Neighbours source previous token where
  start hnot := absurd henter hnot
  blank hblank := absurd hblank hprevious
  margin _ _ _ := hprevious

/-- Anything but a blank may follow an exit. -/
theorem Neighbours.of_exit (hexit : previous.kind.isExit) (htoken : token.kind ≠ .blank) :
    Neighbours source previous token where
  start _ hblank := absurd (hblank hexit) htoken
  blank _ := htoken
  margin _ _ _ := Kind.ne_blank_of_isExit hexit

/-- After a margin there is no blank: the last thing that is looked for is one, and two never follow
one another. -/
theorem head_dropMatching (kinds : List Kind)
    (h : tokens.IsChain fun s t => s.kind = .blank → t.kind ≠ .blank) :
    ∀ token ∈ (dropMatching (kinds ++ [.blank]) tokens).head?, token.kind ≠ .blank := by
  have hnil : ∀ tokens, dropMatching [] tokens = tokens := fun tokens => by
    rw [dropMatching]
    simp
  induction kinds generalizing tokens with
  | nil =>
    cases tokens with
    | nil => simp [dropMatching]
    | cons first tokens =>
      rw [List.nil_append, dropMatching, hnil, hnil]
      split
      · rename_i hfirst
        exact fun token htoken => (List.isChain_cons.1 h).1 token htoken hfirst
      · rename_i hfirst
        rintro token ⟨⟩
        exact hfirst
  | cons kind kinds ih =>
    cases tokens with
    | nil => simp [dropMatching]
    | cons first tokens =>
      rw [List.cons_append, dropMatching]
      split
      · exact ih h.tail
      · exact ih h

/-- An enter with a trim marker takes the margin of the tokens kept so far, latest first. -/
theorem isChain_enter {rest : List Token} (henter : token.kind.isEnter)
    (h : (kept.reverse ++ token :: rest).IsChain (Neighbours source)) :
    ((dropMatching margin kept).reverse ++ token.plain :: rest).IsChain (Neighbours source) := by
  obtain ⟨hfront, hback⟩ := List.isChain_split.1 h
  have hkept : kept.IsChain fun s t => Neighbours source t s :=
    List.isChain_reverse.1 hfront.left_of_append
  have hhead := head_dropMatching [.blank, .newline]
    (hkept.imp fun s t hneighbours hs ht => hneighbours.blank ht hs)
  rw [List.isChain_split]
  constructor
  · refine List.IsChain.append ?_ (.singleton _) ?_
    · rw [List.isChain_reverse, dropMatching_eq_drop]
      exact hkept.drop _
    · rintro previous hprevious _ ⟨⟩
      rw [List.getLast?_reverse] at hprevious
      exact .of_enter (by simpa [plain] using henter) (hhead previous hprevious)
  · rw [List.isChain_cons] at hback ⊢
    exact ⟨fun next hnext => (hback.1 next hnext).plain_left, hback.2⟩

/-- An exit with a trim marker takes the margin of the tokens to come. -/
theorem isChain_exit {rest : List Token} (hexit : token.kind.isExit)
    (h : (kept.reverse ++ token :: rest).IsChain (Neighbours source)) :
    (kept.reverse ++ token.plain :: dropMatching margin rest).IsChain (Neighbours source) := by
  obtain ⟨hfront, hback⟩ := List.isChain_split.1 h
  have hrest : rest.IsChain (Neighbours source) := hback.tail
  have hhead := head_dropMatching [.blank, .newline]
    (hrest.imp fun s t hneighbours => hneighbours.blank)
  rw [List.isChain_split]
  constructor
  · rw [List.isChain_append] at hfront ⊢
    refine ⟨hfront.1, .singleton _, ?_⟩
    rintro previous hprevious _ ⟨⟩
    exact (hfront.2.2 previous hprevious token rfl).plain_right hexit
  · rw [List.isChain_cons]
    constructor
    · intro next hnext
      exact .of_exit (by simpa [plain] using hexit) (hhead next hnext)
    · rw [dropMatching_eq_drop]
      exact hrest.drop _

/-! ## All markers -/

/-- The kept tokens, latest first, and those to come are the list that trimming has come to. -/
theorem trimOnto_isChain (h : (kept.reverse ++ tokens).IsChain (Neighbours source)) :
    (trimOnto kept tokens).IsChain (Neighbours source) := by
  fun_induction trimOnto kept tokens with
  | case1 kept => rwa [List.append_nil] at h
  | case2 kept token rest _ henter ih =>
    apply ih
    rw [List.reverse_cons, List.append_assoc]
    exact isChain_enter henter h
  | case3 kept token rest htrim henter ih =>
    apply ih
    rw [List.reverse_cons, List.append_assoc]
    exact isChain_exit (Kind.isExit_of_isTrim htrim henter) h
  | case4 kept token rest _ ih =>
    apply ih
    rwa [List.reverse_cons, List.append_assoc]

/-- A blank at the front of what is left was at the front before. -/
theorem mem_head?_of_trim (hhead : token ∈ (trim tokens).head?) (hblank : token.kind = .blank) :
    token ∈ tokens.head? := by
  obtain ⟨gap, sections, hgapped, rfl⟩ := exists_gapped tokens
  rw [trim_joined hgapped] at hhead
  cases sections with
  | nil => simpa [trimGaps, survivors, joined] using hhead
  | cons next sections =>
    have hnext : next.token.plain.kind ≠ .blank := by
      intro hkind
      have hspace : ¬next.token.kind.isSpace := hgapped.2.1
      rw [Kind.plain_eq_blank.1 hkind] at hspace
      exact hspace rfl
    rw [trimGaps, survivors, if_neg (by simp), List.drop_zero] at hhead
    generalize gap.length - _ = kept at hhead
    cases gap with
    | nil =>
      obtain rfl : next.token.plain = token := by simpa using hhead
      exact absurd hblank hnext
    | cons first gap =>
      cases kept with
      | zero =>
        obtain rfl : next.token.plain = token := by simpa using hhead
        exact absurd hblank hnext
      | succ kept => simpa [joined] using hhead

/-! ## The tokens of a source -/

/-- The tokens of a trimmed source, without the end of file. -/
structure Trimmed (source : Text) (tokens : List Token) : Prop where
  laid : Laid source false 0 (Text.bytes source) tokens
  neighbours : tokens.IsChain (Neighbours source)
  /-- A blank that nothing stands before is the first thing in the source. -/
  head : ∀ token ∈ tokens.head?, token.kind = .blank → (token.range source).1 = 0
  plain : ∀ token ∈ tokens, ¬token.kind.isTrim
  /-- Delimiters are written as they were with their markers. -/
  enter : ∀ token ∈ tokens, token.kind.isEnter →
    ∃ family trims, token.text source = (Kind.enter family trims).literal
  exit : ∀ token ∈ tokens, token.kind.isExit →
    ∃ family trims, token.text source = (Kind.exit family trims).literal

theorem Stands.text_eq (h : token.Stands source) (hkind : token.kind.isEnter ∨ token.kind.isExit) :
    token.text source = token.kind.literal := by
  obtain ⟨before, after, -, hfits⟩ := h
  rw [Piece.Fits, piece] at hfits
  rcases token with ⟨_ | _ | _ | _ | ⟨family, trims⟩ | ⟨family, trims⟩, first, last⟩
  case enter => exact hfits.1
  case exit => exact hfits
  all_goals simp [Kind.isEnter, Kind.isExit] at hkind

/-- The tokens of pieces that follow one another without a gap. -/
theorem isChain_of_tile {start stop : Nat} (hstands : ∀ token ∈ tokens, token.Stands source)
    (hmaximal : tokens.IsChain fun s t => s.kind = t.kind → s.kind ≠ .blank ∧ s.kind ≠ .raw)
    (h : Tile start stop (tokens.map (range source))) : tokens.IsChain (Neighbours source) := by
  induction tokens generalizing start with
  | nil => exact .nil
  | cons previous tokens ih =>
    rw [List.forall_mem_cons] at hstands
    rw [List.isChain_cons] at hmaximal ⊢
    refine ⟨fun token htoken => ?_, ih hstands.2 hmaximal.2 h.2.2⟩
    have hmem : token ∈ tokens := List.mem_of_mem_head? htoken
    have hstart : (token.range source).1 = (previous.range source).2 := by
      obtain ⟨tail, rfl⟩ := List.head?_eq_some_iff.1 htoken
      exact h.2.2.1
    refine ⟨fun _ _ => hstart, fun hp ht => ?_, fun henter htrim hopens => ?_⟩
    · exact (hmaximal.1 token htoken (hp.trans ht.symm)).1 hp
    · -- A marker that is written is still there.
      obtain ⟨family, htext⟩ := hopens
      obtain ⟨family', trims, hkind⟩ := Kind.exists_enter henter
      rw [(hstands.2 token hmem).text_eq (.inl henter), hkind] at htext
      obtain rfl := Kind.trims_of_literal_eq htext
      exact absurd (by rw [hkind]; rfl) htrim

/-- The tokens of a trimmed source, and the end of file that follows them. -/
theorem exists_trimmed (source : Text) :
    ∃ tokens, Token.trim (scan source) = tokens ++ [eof] ∧ Trimmed source tokens := by
  have hsegmentation : Piece.Segmentation source (Piece.segment source) :=
    Piece.segmentation_iff.2 rfl
  obtain ⟨tokens, hscan, htile, hpieces, hstands⟩ := exists_scan hsegmentation
  have hmaximal := hsegmentation.maximal
  rw [← hpieces, List.isChain_map] at hmaximal
  have hchain : tokens.IsChain (Neighbours source) := isChain_of_tile hstands hmaximal htile
  -- What is left is what was there, without its markers.
  have hwritten : ∀ token ∈ Token.trim tokens, token.kind.isEnter ∨ token.kind.isExit →
      ∃ kind : Kind, kind.isEnter = token.kind.isEnter ∧ kind.isExit = token.kind.isExit ∧
        token.text source = kind.literal := by
    intro token htoken hkind
    obtain ⟨original, horiginal, rfl⟩ := List.mem_map.1 ((trim_sublist tokens).mem htoken)
    rw [Token.plain, Kind.isEnter_plain, Kind.isExit_plain] at hkind ⊢
    refine ⟨original.kind, rfl, rfl, ?_⟩
    exact (text_plain source original).trans ((hstands original horiginal).text_eq hkind)
  refine ⟨Token.trim tokens, by rw [hscan, trim_concat_eof], ?_, trimOnto_isChain hchain, ?_, ?_,
    fun token htoken henter => ?_, fun token htoken hexit => ?_⟩
  · have hlaid : Laid source false 0 (Text.bytes source) tokens := .of_tile hstands htile
    exact hlaid.trim
  · intro token hhead hblank
    obtain ⟨tail, rfl⟩ := List.head?_eq_some_iff.1 (mem_head?_of_trim hhead hblank)
    exact htile.1
  · intro token htoken
    obtain ⟨gap, sections, hgapped, rfl⟩ := exists_gapped tokens
    rw [trim_joined hgapped] at htoken
    exact not_isTrim_of_mem_trimGaps hgapped htoken
  · obtain ⟨kind, hkind, -, htext⟩ := hwritten token htoken (.inl henter)
    obtain ⟨family, trims, rfl⟩ := Kind.exists_enter (hkind ▸ henter)
    exact ⟨family, trims, htext⟩
  · obtain ⟨kind, -, hkind, htext⟩ := hwritten token htoken (.inr hexit)
    obtain ⟨family, trims, rfl⟩ := Kind.exists_exit (hkind ▸ hexit)
    exact ⟨family, trims, htext⟩

end Token

end Stencil
