import Stencil.Proofs.Token.Trimming

/-!
# Trimming, gap by gap

Between two tokens that are neither blanks nor line breaks lies a gap, a run of blanks and line
breaks that may be empty. Trimming works on each gap by itself: an exit with a trim marker before
the gap takes the margin at its front, an enter with one after it takes the margin at its back, and
nothing else is lost. `survivors` says what is left of one gap and `trimGaps` puts the gaps together
again.

The two sides of a gap are trimmed in different ways, one by dropping kept tokens and one by
skipping tokens to come. `trim_joined` shows that the order does not matter, with the tokens kept so
far as the only state. That the sides are mirror images is then a fact about `survivors`
(`survivors_opposite`).

* `matched_take`: what matches in a part of a gap.
* `trim_joined`: trimming tokens that are given by their gaps.
* `trimGaps_mirror`: the gaps read from the other end.
* `trim_gaps`: all of it, for any tokens.
-/

namespace Stencil

namespace Kind

/-- Blanks and line breaks, all that trimming ever takes away. -/
def isSpace : Kind → Bool
  | blank | newline => true
  | _ => false

/-- The delimiter of the same family, with the same marker, at the other end of a block. -/
def opposite : Kind → Kind
  | enter family trims => exit family trims
  | exit family trims => enter family trims
  | kind => kind

theorem not_mem_margin {kind : Kind} (h : ¬kind.isSpace) : kind ∉ Token.margin := by
  cases kind <;> simp_all [isSpace, Token.margin]

theorem isText_of_isSpace {kind : Kind} (h : kind.isSpace) : kind.isText := by
  cases kind <;> simp_all [isSpace, isText]

theorem not_isTrim_of_isText {kind : Kind} (h : kind.isText) : ¬kind.isTrim := by
  cases kind <;> simp_all [isText, isTrim]

theorem not_isTrim_of_isSpace {kind : Kind} (h : kind.isSpace) : ¬kind.isTrim :=
  not_isTrim_of_isText (isText_of_isSpace h)

theorem plain_eq_self {kind : Kind} (h : ¬kind.isTrim) : kind.plain = kind := by
  cases kind <;> simp_all [isTrim, plain]

theorem not_isTrim_plain (kind : Kind) : ¬kind.plain.isTrim := by
  cases kind <;> simp [isTrim, plain]

@[simp] theorem isSpace_plain (kind : Kind) : kind.plain.isSpace = kind.isSpace := by
  cases kind <;> rfl

@[simp] theorem isEnter_plain (kind : Kind) : kind.plain.isEnter = kind.isEnter := by
  cases kind <;> rfl

@[simp] theorem isExit_plain (kind : Kind) : kind.plain.isExit = kind.isExit := by
  cases kind <;> rfl

@[simp] theorem isSpace_opposite (kind : Kind) : kind.opposite.isSpace = kind.isSpace := by
  cases kind <;> rfl

theorem opposite_eq_self {kind : Kind} (h : kind.isSpace) : kind.opposite = kind := by
  cases kind <;> simp_all [isSpace, opposite]

theorem opposite_plain (kind : Kind) : kind.opposite.plain = kind.plain.opposite := by
  cases kind <;> rfl

end Kind

namespace Token

/-! ## Gaps -/

/-- A token that is neither a blank nor a line break, with the gap after it. -/
structure Section where
  token : Token
  gap : List Token

/-- The tokens of a first gap and of sections. -/
def joined (gap : List Token) : List Section → List Token
  | [] => gap
  | next :: sections => gap ++ next.token :: joined next.gap sections

/-- The gaps hold blanks and line breaks only, and the tokens between them are neither, so each gap
is as long as it can be. -/
def Gapped (gap : List Token) : List Section → Prop
  | [] => ∀ token ∈ gap, token.kind.isSpace
  | next :: sections =>
    (∀ token ∈ gap, token.kind.isSpace) ∧ ¬next.token.kind.isSpace ∧ Gapped next.gap sections

/-- The token takes the margin before it. -/
def trimsBefore (token : Token) : Bool := token.kind.isTrim && token.kind.isEnter

/-- The token takes the margin after it. -/
def trimsAfter (token : Token) : Bool := token.kind.isTrim && token.kind.isExit

/-- Number of tokens at the front that match `kinds`, taken in order; a kind that is not there is
passed over. -/
def matched : List Kind → List Token → Nat
  | kind :: kinds, token :: tokens =>
    if token.kind = kind then matched kinds tokens + 1 else matched kinds (token :: tokens)
  | _, _ => 0

/-- What is left of the gap between two tokens, of which there may be none at the ends of a
template. At the front and at the back a blank, a line break and another blank may go, each if it is
there; both are measured in the whole gap. -/
def survivors (before after : Option Token) (gap : List Token) : List Token :=
  let front := if before.any trimsAfter then matched [.blank, .newline, .blank] gap else 0
  let back := if after.any trimsBefore then matched [.blank, .newline, .blank] gap.reverse else 0
  (gap.take (gap.length - back)).drop front

/-- What is left of a first gap, which stands after `before`, and of sections. -/
def trimGaps (before : Option Token) (gap : List Token) :
    List Section → (after : Option Token) → List Token
  | [], after => survivors before after gap
  | next :: sections, after =>
    survivors before (some next.token) gap ++
      next.token.plain :: trimGaps (some next.token) next.gap sections after

variable {kinds : List Kind} {token : Token} {before after : Option Token}
  {gap kept s t tokens : List Token} {sections : List Section}

/-- What may go is the margin that trimming takes. -/
theorem survivors_margin (before after : Option Token) (gap : List Token) :
    survivors before after gap =
      (gap.take (gap.length - if after.any trimsBefore then matched margin gap.reverse else 0)).drop
        (if before.any trimsAfter then matched margin gap else 0) :=
  rfl

theorem trimsAfter_of_isEnter (h : token.kind.isEnter) : token.trimsAfter = false := by
  rcases token with ⟨_ | _ | _ | _ | _ | _, _, _⟩ <;>
    simp_all [trimsAfter, Kind.isEnter, Kind.isExit]

theorem Gapped.space (h : Gapped gap sections) : ∀ token ∈ gap, token.kind.isSpace := by
  cases sections with
  | nil => exact h
  | cons next sections => exact h.1

theorem Gapped.text (h : Gapped gap sections) : ∀ token ∈ gap, token.kind.isText :=
  fun token htoken => Kind.isText_of_isSpace (h.space token htoken)

/-- Blanks and line breaks may be added to the first gap. -/
theorem Gapped.cons (htoken : token.kind.isSpace) (h : Gapped gap sections) :
    Gapped (token :: gap) sections := by
  cases sections with
  | nil => exact List.forall_mem_cons.2 ⟨htoken, h⟩
  | cons next sections => exact ⟨List.forall_mem_cons.2 ⟨htoken, h.1⟩, h.2⟩

theorem joined_cons (token : Token) (gap : List Token) (sections : List Section) :
    joined (token :: gap) sections = token :: joined gap sections := by
  cases sections <;> rfl

/-- Any tokens can be written by their gaps. -/
theorem exists_gapped (tokens : List Token) :
    ∃ gap sections, Gapped gap sections ∧ joined gap sections = tokens := by
  induction tokens with
  | nil => exact ⟨[], [], by simp [Gapped], rfl⟩
  | cons token tokens ih =>
    obtain ⟨gap, sections, hgapped, rfl⟩ := ih
    by_cases hspace : token.kind.isSpace
    · exact ⟨token :: gap, sections, hgapped.cons hspace, joined_cons token gap sections⟩
    · exact ⟨[], ⟨token, gap⟩ :: sections, ⟨by simp, hspace, hgapped⟩, rfl⟩

/-! ## Matching a margin -/

theorem matched_le (kinds : List Kind) (tokens : List Token) :
    matched kinds tokens ≤ tokens.length := by
  fun_induction matched kinds tokens with
  | case1 kinds token tokens ih =>
    rw [List.length_cons]
    omega
  | case2 kind kinds token tokens _ ih => exact ih
  | case3 => exact Nat.zero_le _

theorem dropMatching_eq_drop (kinds : List Kind) (tokens : List Token) :
    dropMatching kinds tokens = tokens.drop (matched kinds tokens) := by
  fun_induction matched kinds tokens with
  | case1 kinds token tokens ih => rw [dropMatching, if_pos rfl, ih, List.drop_succ_cons]
  | case2 kind kinds token tokens hkind ih => rw [dropMatching, if_neg hkind, ih]
  | case3 kinds tokens hnot =>
    rw [List.drop_zero, dropMatching]
    exact hnot

/-- In a part of the tokens as much matches as there is room for. -/
theorem matched_take (kinds : List Kind) (tokens : List Token) (n : Nat) :
    matched kinds (tokens.take n) = min (matched kinds tokens) n := by
  fun_induction matched kinds tokens generalizing n with
  | case1 kinds token tokens ih =>
    cases n with
    | zero => simp [matched]
    | succ n => rw [List.take_succ_cons, matched, if_pos rfl, ih, Nat.succ_min_succ]
  | case2 kind kinds token tokens hkind ih =>
    cases n with
    | zero => simp [matched]
    | succ n =>
      rw [← ih, List.take_succ_cons, matched, if_neg hkind]
  | case3 kinds tokens hnot =>
    cases kinds with
    | nil => simp [matched]
    | cons kind kinds =>
      cases tokens with
      | nil => simp [matched]
      | cons token tokens => exact (hnot kind kinds token tokens rfl rfl).elim

/-- Nothing is dropped past a token that does not match. -/
theorem dropMatching_append (ht : ∀ token ∈ t.head?, token.kind ∉ kinds) :
    dropMatching kinds (s ++ t) = dropMatching kinds s ++ t := by
  induction kinds generalizing s with
  | nil => rw [dropMatching, dropMatching] <;> simp
  | cons kind kinds ih =>
    have ht' : ∀ token ∈ t.head?, token.kind ∉ kinds := fun token htoken hmem =>
      ht token htoken (List.mem_cons_of_mem kind hmem)
    cases s with
    | nil =>
      have hnil : ∀ kinds, dropMatching kinds ([] : List Token) = [] := fun kinds => by
        rw [dropMatching]
        simp
      cases t with
      | nil => rw [List.append_nil, List.append_nil]
      | cons token t =>
        have hkind : token.kind ≠ kind := fun h => ht token rfl (h ▸ List.mem_cons_self)
        have hrest := ih ht' (s := [])
        rw [List.nil_append, hnil, List.nil_append] at hrest ⊢
        rw [dropMatching, if_neg hkind, hrest]
    | cons first s =>
      rw [List.cons_append, dropMatching, dropMatching]
      split
      · exact ih ht'
      · exact ih ht' (s := first :: s)

/-- The token before a gap has taken its margin. -/
def entered (before : Option Token) (gap : List Token) : List Token :=
  if before.any trimsAfter then dropMatching margin gap else gap

theorem entered_of (h : before.any trimsAfter) (gap : List Token) :
    entered before gap = dropMatching margin gap := if_pos h

theorem entered_of_not (h : ¬before.any trimsAfter) (gap : List Token) :
    entered before gap = gap := if_neg h

theorem entered_eq_drop (before : Option Token) (gap : List Token) :
    entered before gap = gap.drop (if before.any trimsAfter then matched margin gap else 0) := by
  split
  · rename_i hbefore
    rw [entered_of hbefore, dropMatching_eq_drop]
  · rename_i hbefore
    rw [entered_of_not hbefore, List.drop_zero]

/-- Taking the margin at the back after the one at the front comes to the same as measuring both in
the whole gap. -/
theorem survivors_eq (before after : Option Token) (gap : List Token) :
    survivors before after gap =
      if after.any trimsBefore then (dropMatching margin (entered before gap).reverse).reverse
      else entered before gap := by
  rw [entered_eq_drop, survivors_margin]
  generalize (if before.any trimsAfter then matched margin gap else 0) = front
  split
  · have hmatched : matched margin (gap.drop front).reverse
        = min (matched margin gap.reverse) (gap.length - front) := by
      rw [List.reverse_drop, matched_take]
    rw [dropMatching_eq_drop, List.reverse_drop, List.reverse_reverse, List.length_reverse,
      List.length_drop, hmatched, List.drop_take]
    congr 1
    omega
  · rw [Nat.sub_zero, List.take_length]

/-! ## Trimming -/

theorem isSpace_of_mem_entered (before : Option Token) (hgap : ∀ token ∈ gap, token.kind.isSpace) :
    ∀ token ∈ entered before gap, token.kind.isSpace := by
  intro token htoken
  rw [entered_eq_drop] at htoken
  exact hgap token (List.mem_of_mem_drop htoken)

/-- Blanks and line breaks are kept at first. -/
theorem trimOnto_space (hgap : ∀ token ∈ gap, token.kind.isSpace) (kept tokens : List Token) :
    trimOnto kept (gap ++ tokens) = trimOnto (gap.reverse ++ kept) tokens := by
  induction gap generalizing kept with
  | nil => rfl
  | cons token gap ih =>
    rw [List.forall_mem_cons] at hgap
    rw [List.cons_append, trimOnto, if_neg (Kind.not_isTrim_of_isSpace hgap.1), ih hgap.2,
      List.reverse_cons, List.append_assoc, List.singleton_append]

/-- A margin does not reach past the first gap. -/
theorem dropMatching_joined (h : Gapped gap sections) :
    dropMatching margin (joined gap sections) = joined (dropMatching margin gap) sections := by
  cases sections with
  | nil => rfl
  | cons next sections =>
    refine dropMatching_append ?_
    rintro token ⟨⟩
    exact Kind.not_mem_margin h.2.1

/-- The tokens up to and with the first one that is no blank and no line break. The last token that
is kept before them is neither, and if it takes the margin after it, it has done so. -/
theorem trimOnto_section {next : Section} (h : Gapped gap (next :: sections))
    (hkept : ∀ token ∈ kept.head?, ¬token.kind.isSpace) :
    trimOnto kept (joined (entered before gap) (next :: sections))
      = trimOnto (next.token.plain :: ((survivors before (some next.token) gap).reverse ++ kept))
        (joined (entered (some next.token) next.gap) sections) := by
  obtain ⟨hgap, -, hrest⟩ := h
  rw [joined, trimOnto_space (isSpace_of_mem_entered before hgap), trimOnto, survivors_eq]
  by_cases htrim : next.token.kind.isTrim
  · rw [if_pos htrim]
    by_cases henter : next.token.kind.isEnter
    · -- What is kept before the gap stops the margin before the token.
      have hmargin : dropMatching margin ((entered before gap).reverse ++ kept)
          = dropMatching margin (entered before gap).reverse ++ kept :=
        dropMatching_append fun token htoken => Kind.not_mem_margin (hkept token htoken)
      have hbefore : (some next.token).any trimsBefore := by
        simp [trimsBefore, htrim, henter]
      have hafter : ¬(some next.token).any trimsAfter := by
        simp [trimsAfter_of_isEnter henter]
      rw [if_pos henter, hmargin, if_pos hbefore, List.reverse_reverse, entered_of_not hafter]
    · have hbefore : ¬(some next.token).any trimsBefore := by
        simp [trimsBefore, henter]
      have hafter : (some next.token).any trimsAfter := by
        simp [trimsAfter, htrim, Kind.isExit_of_isTrim htrim henter]
      rw [if_neg henter, if_neg hbefore, dropMatching_joined hrest, entered_of hafter]
  · have hplain : next.token.plain = next.token := by
      rw [plain, Kind.plain_eq_self htrim]
    have hbefore : ¬(some next.token).any trimsBefore := by
      simp [trimsBefore, htrim]
    have hafter : ¬(some next.token).any trimsAfter := by
      simp [trimsAfter, htrim]
    rw [if_neg htrim, if_neg hbefore, hplain, entered_of_not hafter]

/-- The gaps of the tokens that are left, after the kept ones. -/
theorem trimOnto_entered (h : Gapped gap sections)
    (hkept : ∀ token ∈ kept.head?, ¬token.kind.isSpace) :
    trimOnto kept (joined (entered before gap) sections)
      = kept.reverse ++ trimGaps before gap sections none := by
  induction sections generalizing before gap kept with
  | nil =>
    have hkeep := trimOnto_space (isSpace_of_mem_entered before h) kept []
    rw [List.append_nil] at hkeep
    rw [joined, hkeep, trimOnto, trimGaps, survivors_eq, if_neg (by simp), List.reverse_append,
      List.reverse_reverse]
  | cons next sections ih =>
    have hhead : ∀ token ∈ (next.token.plain ::
        ((survivors before (some next.token) gap).reverse ++ kept)).head?,
        ¬token.kind.isSpace := by
      rintro token ⟨⟩
      rw [plain, Kind.isSpace_plain]
      exact h.2.1
    rw [trimOnto_section h hkept, ih h.2.2 hhead, trimGaps, List.reverse_cons,
      List.reverse_append, List.reverse_reverse, List.append_assoc, List.append_assoc,
      List.singleton_append]

/-- Trimming tokens that are given by their gaps. -/
theorem trim_joined (h : Gapped gap sections) :
    trim (joined gap sections) = trimGaps none gap sections none := by
  have hnone : entered none gap = gap := entered_of_not (by simp) gap
  have htrim : trimOnto [] (joined (entered none gap) sections)
      = trimGaps none gap sections none := trimOnto_entered h (by simp)
  rwa [hnone] at htrim

/-! ## What stays -/

theorem survivors_sublist (before after : Option Token) (gap : List Token) :
    (survivors before after gap).Sublist gap :=
  (List.drop_sublist _ _).trans (List.take_sublist _ _)

theorem mem_of_mem_survivors (h : token ∈ survivors before after gap) : token ∈ gap :=
  (survivors_sublist before after gap).mem h

theorem filter_space (hgap : ∀ token ∈ gap, token.kind.isSpace) :
    gap.filter (!·.kind.isSpace) = [] := by
  simpa using hgap

/-- Only blanks and line breaks are lost. -/
theorem filter_trimGaps (h : Gapped gap sections) :
    (trimGaps before gap sections after).filter (!·.kind.isSpace)
      = ((joined gap sections).filter (!·.kind.isSpace)).map plain := by
  induction sections generalizing before gap with
  | nil =>
    rw [trimGaps, joined, filter_space h, List.map_nil,
      filter_space fun token htoken => h token (mem_of_mem_survivors htoken)]
  | cons next sections ih =>
    obtain ⟨hgap, hnext, hrest⟩ := h
    have hplain : ¬next.token.plain.kind.isSpace := by rwa [plain, Kind.isSpace_plain]
    rw [trimGaps, joined, List.filter_append, List.filter_append, filter_space hgap,
      filter_space fun token htoken => hgap token (mem_of_mem_survivors htoken),
      List.filter_cons_of_pos (by simpa using hplain),
      List.filter_cons_of_pos (by simpa using hnext), ih hrest]
    rfl

theorem plain_of_isText (h : token.kind.isText) : token.plain = token := by
  rw [plain, Kind.plain_eq_self (Kind.not_isTrim_of_isText h)]

theorem map_plain_text (h : ∀ token ∈ tokens, token.kind.isText) : tokens.map plain = tokens := by
  have hmap : tokens.map plain = tokens.map id :=
    List.map_congr_left fun token htoken => plain_of_isText (h token htoken)
  rw [hmap, List.map_id]

/-- What is left is in order. -/
theorem trimGaps_sublist (h : Gapped gap sections) :
    (trimGaps before gap sections after).Sublist ((joined gap sections).map plain) := by
  induction sections generalizing before gap with
  | nil =>
    rw [trimGaps, joined, map_plain_text h.text]
    exact survivors_sublist before after gap
  | cons next sections ih =>
    rw [trimGaps, joined, List.map_append, map_plain_text h.text, List.map_cons]
    exact (survivors_sublist _ _ gap).append ((ih h.2.2).cons_cons _)

/-- Trimming leaves some of the tokens, without their trim markers, in order. -/
theorem trim_sublist (tokens : List Token) : (trim tokens).Sublist (tokens.map plain) := by
  obtain ⟨gap, sections, hgapped, rfl⟩ := exists_gapped tokens
  rw [trim_joined hgapped]
  exact trimGaps_sublist hgapped

/-- No trim marker is left. -/
theorem not_isTrim_of_mem_trimGaps (h : Gapped gap sections)
    (htoken : token ∈ trimGaps before gap sections after) : ¬token.kind.isTrim := by
  induction sections generalizing before gap with
  | nil => exact Kind.not_isTrim_of_isSpace (h token (mem_of_mem_survivors htoken))
  | cons next sections ih =>
    rw [trimGaps, List.mem_append, List.mem_cons] at htoken
    rcases htoken with hgap | rfl | hrest
    · exact Kind.not_isTrim_of_isSpace (h.1 token (mem_of_mem_survivors hgap))
    · exact Kind.not_isTrim_plain next.token.kind
    · exact ih h.2.2 hrest

/-- Where there is no trim marker, nothing changes. -/
theorem trimOnto_of_not_isTrim (h : ∀ token ∈ tokens, ¬token.kind.isTrim) (kept : List Token) :
    trimOnto kept tokens = kept.reverse ++ tokens := by
  induction tokens generalizing kept with
  | nil => rw [trimOnto, List.append_nil]
  | cons token tokens ih =>
    rw [List.forall_mem_cons] at h
    rw [trimOnto, if_neg h.1, ih h.2, List.reverse_cons, List.append_assoc, List.singleton_append]

/-! ## The other end -/

/-- The token as it is met from the other end of the template. -/
def opposite (token : Token) : Token := { token with kind := token.kind.opposite }

/-- The tokens read from the other end of the template, where an exit opens a block. -/
def mirror (tokens : List Token) : List Token := (tokens.map opposite).reverse

theorem mirror_append (s t : List Token) : mirror (s ++ t) = mirror t ++ mirror s := by
  simp [mirror]

theorem mirror_cons (token : Token) (t : List Token) :
    mirror (token :: t) = mirror t ++ [token.opposite] := by
  simp [mirror]

theorem mirror_space (hgap : ∀ token ∈ gap, token.kind.isSpace) : mirror gap = gap.reverse := by
  have hmap : gap.map opposite = gap.map id :=
    List.map_congr_left fun token htoken => by
      rw [opposite, Kind.opposite_eq_self (hgap token htoken), id_def]
  rw [mirror, hmap, List.map_id]

@[simp] theorem trimsBefore_opposite (token : Token) :
    token.opposite.trimsBefore = token.trimsAfter := by
  rcases token with ⟨_ | _ | _ | _ | _ | _, _, _⟩ <;> rfl

@[simp] theorem trimsAfter_opposite (token : Token) :
    token.opposite.trimsAfter = token.trimsBefore := by
  rcases token with ⟨_ | _ | _ | _ | _ | _, _, _⟩ <;> rfl

theorem opposite_plain (token : Token) : token.opposite.plain = token.plain.opposite := by
  rw [plain, opposite, opposite, plain, Kind.opposite_plain]

/-- The two sides of a gap are mirror images. -/
theorem survivors_opposite (before after : Option Token) (gap : List Token) :
    survivors (after.map opposite) (before.map opposite) gap.reverse
      = (survivors before after gap).reverse := by
  have hfront : (after.map opposite).any trimsAfter = after.any trimsBefore := by
    cases after <;> simp
  have hback : (before.map opposite).any trimsBefore = before.any trimsAfter := by
    cases before <;> simp
  rw [survivors_margin, survivors_margin, hfront, hback, List.reverse_reverse, List.length_reverse]
  have hle := matched_le margin gap.reverse
  rw [List.length_reverse] at hle
  generalize (if before.any trimsAfter then matched margin gap else 0) = front
  generalize hs : (if after.any trimsBefore then matched margin gap.reverse else 0) = back
  have hback : back ≤ gap.length := by
    rw [← hs]
    split <;> omega
  rw [List.reverse_drop, List.reverse_take, List.length_take, List.drop_take]
  congr 1
  · omega
  · congr 1
    omega

theorem joined_concat (gap : List Token) (sections : List Section) (last : Section) :
    joined gap (sections ++ [last]) = joined gap sections ++ last.token :: last.gap := by
  induction sections generalizing gap with
  | nil => rfl
  | cons next sections ih => simp [joined, ih]

theorem Gapped.concat {last : Section} (h : Gapped gap sections)
    (hlast : ¬last.token.kind.isSpace) (hgap : ∀ token ∈ last.gap, token.kind.isSpace) :
    Gapped gap (sections ++ [last]) := by
  induction sections generalizing gap with
  | nil => exact ⟨h, hlast, hgap⟩
  | cons next sections ih => exact ⟨h.1, h.2.1, ih h.2.2⟩

theorem trimGaps_concat (before : Option Token) (gap : List Token) (sections : List Section)
    (last : Section) (after : Option Token) :
    trimGaps before gap (sections ++ [last]) after = trimGaps before gap sections (some last.token)
      ++ last.token.plain :: survivors (some last.token) after last.gap := by
  induction sections generalizing before gap with
  | nil => rfl
  | cons next sections ih => simp [trimGaps, ih]

/-- The gaps of the mirror image are those of the tokens, last gap first, and so is what is left of
them. -/
theorem exists_gapped_mirror (h : Gapped gap sections) :
    ∃ gap' sections', Gapped gap' sections' ∧
      joined gap' sections' = mirror (joined gap sections) ∧
      ∀ before after, trimGaps (after.map opposite) gap' sections' (before.map opposite)
        = mirror (trimGaps before gap sections after) := by
  have hsurvivors : ∀ gap before after, (∀ token ∈ gap, token.kind.isSpace) →
      survivors (after.map opposite) (before.map opposite) gap.reverse
        = mirror (survivors before after gap) := by
    intro gap before after hgap
    rw [survivors_opposite,
      mirror_space fun token htoken => hgap token (mem_of_mem_survivors htoken)]
  induction sections generalizing gap with
  | nil =>
    refine ⟨gap.reverse, [], ?_, (mirror_space h).symm, fun before after => hsurvivors _ _ _ h⟩
    simpa [Gapped] using h
  | cons next sections ih =>
    obtain ⟨hgap, hnext, hrest⟩ := h
    obtain ⟨gap', sections', hgapped, hjoined, htrim⟩ := ih hrest
    have hopposite : ¬next.token.opposite.kind.isSpace := by
      rwa [opposite, Kind.isSpace_opposite]
    refine ⟨gap', sections' ++ [⟨next.token.opposite, gap.reverse⟩],
      hgapped.concat hopposite (by simpa using hgap), ?_, fun before after => ?_⟩
    · rw [joined_concat, hjoined, joined, mirror_append, mirror_cons, mirror_space hgap,
        List.append_assoc, List.singleton_append]
    · have hmiddle := htrim (some next.token) after
      have hfirst := hsurvivors gap before (some next.token) hgap
      rw [Option.map_some] at hmiddle hfirst
      rw [trimGaps_concat, hmiddle, hfirst, opposite_plain, trimGaps, mirror_append, mirror_cons,
        List.append_assoc, List.singleton_append]

theorem trim_mirror (tokens : List Token) : trim (mirror tokens) = mirror (trim tokens) := by
  obtain ⟨gap, sections, hgapped, rfl⟩ := exists_gapped tokens
  obtain ⟨gap', sections', hgapped', hjoined, htrim⟩ := exists_gapped_mirror hgapped
  rw [← hjoined, trim_joined hgapped', trim_joined hgapped]
  exact htrim none none

/-- What trimming does to any tokens, gap by gap. All tokens but blanks and line breaks stay, in
order and where they are, without their trim markers. Doing it again changes nothing, and it is the
same from either end. -/
theorem trim_gaps (tokens : List Token) :
    (∃ gap sections, Gapped gap sections ∧ joined gap sections = tokens ∧
      trim tokens = trimGaps none gap sections none) ∧
    (trim tokens).filter (!·.kind.isSpace) = (tokens.filter (!·.kind.isSpace)).map plain ∧
    (∀ token ∈ trim tokens, ¬token.kind.isTrim) ∧
    trim (trim tokens) = trim tokens ∧
    trim (mirror tokens) = mirror (trim tokens) := by
  obtain ⟨gap, sections, hgapped, hjoined⟩ := exists_gapped tokens
  have htrim : trim tokens = trimGaps none gap sections none := by
    rw [← hjoined, trim_joined hgapped]
  have hplain : ∀ token ∈ trim tokens, ¬token.kind.isTrim := by
    intro token htoken
    rw [htrim] at htoken
    exact not_isTrim_of_mem_trimGaps hgapped htoken
  refine ⟨⟨gap, sections, hgapped, hjoined, htrim⟩, ?_, hplain, ?_, trim_mirror tokens⟩
  · rw [htrim, filter_trimGaps hgapped, hjoined]
  · exact trimOnto_of_not_isTrim hplain []

/-- A gap that is trimmed from both sides, one that nothing is left of, and one at the end. -/
theorem trim_gaps_between :
    let source :=
      "\x7b\x7bx-\x7d\x7d \n \n\n\n \x7b%-y-%\x7d \n\x7b\x7b-z\x7d\x7d \n".toList
    let tokens := scan source
    ((trim tokens).map fun token => (token.kind, token.text source))
      = [(.enter .output false, "\x7b\x7b".toList), (.raw, ['x']),
         (.exit .output false, "-\x7d\x7d".toList), (.newline, ['\n']), (.newline, ['\n']),
         (.enter .directive false, "\x7b%-".toList), (.raw, ['y']),
         (.exit .directive false, "-%\x7d".toList), (.enter .output false, "\x7b\x7b-".toList),
         (.raw, ['z']), (.exit .output false, "\x7d\x7d".toList), (.blank, [' ']),
         (.newline, ['\n']), (.eof, [])] ∧
      (∃ gap sections, Gapped gap sections ∧ joined gap sections = tokens ∧
        trim tokens = trimGaps none gap sections none) ∧
      trim (trim tokens) = trim tokens ∧ trim (mirror tokens) = mirror (trim tokens) := by
  intro source tokens
  obtain ⟨hgaps, -, -, hagain, hmirror⟩ := trim_gaps tokens
  exact ⟨by decide +kernel, hgaps, hagain, hmirror⟩

end Token

end Stencil
