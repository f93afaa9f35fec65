import Mathlib.Logic.Relation
import Stencil.Proofs.Token.Place
import Stencil.Token.Trim

/-!
# What trimming leaves

Trimming takes away blanks and line breaks, and only right before an enter or right after an exit
that has a trim marker (`TrimStep`). It goes through a token list in such steps (`trim_steps`), so
what a step keeps is kept by all of it.

What is kept is `Laid`: the tokens stand in the source in order, each what its kind says, and
between two neighbouring text tokens nothing has been taken out. A step takes tokens away next to a
delimiter, which is no text.

* `trim_steps`: trimming is a run of steps.
* `TrimStep.laid`: what one step keeps.
* `exists_laid_trim`: the tokens of a trimmed source.
-/

namespace Stencil

theorem Kind.isExit_of_isTrim {kind : Kind} (htrim : kind.isTrim) (henter : ¬kind.isEnter) :
    kind.isExit := by
  cases kind <;> simp_all [isTrim, isEnter, isExit]

theorem Kind.isText_eq_false {kind : Kind} (h : kind.isEnter ∨ kind.isExit) :
    kind.isText = false := by
  cases kind <;> simp_all [isText, isEnter, isExit]

namespace Token

/-! ## Steps of trimming -/

/-- A trim marker takes away part of the margin on the outer side of its delimiter, and is gone
then. -/
inductive TrimStep : List Token → List Token → Prop
  | enter {front gone later : List Token} {token : Token} :
      token.kind.isEnter → (∀ t ∈ gone, t.kind ∈ margin) →
      TrimStep (front ++ (gone ++ token :: later)) (front ++ token.plain :: later)
  | exit {front gone later : List Token} {token : Token} :
      token.kind.isExit → (∀ t ∈ gone, t.kind ∈ margin) →
      TrimStep (front ++ token :: (gone ++ later)) (front ++ token.plain :: later)

theorem exists_dropMatching (kinds : List Kind) (tokens : List Token) :
    ∃ gone, tokens = gone ++ dropMatching kinds tokens ∧ ∀ token ∈ gone, token.kind ∈ kinds := by
  fun_induction dropMatching kinds tokens with
  | case1 kinds token tokens ih =>
    obtain ⟨gone, hsplit, hgone⟩ := ih
    refine ⟨token :: gone, by rw [List.cons_append, ← hsplit], ?_⟩
    exact List.forall_mem_cons.2
      ⟨List.mem_cons_self, fun t ht => List.mem_cons_of_mem _ (hgone t ht)⟩
  | case2 kind kinds token tokens _ ih =>
    obtain ⟨gone, hsplit, hgone⟩ := ih
    exact ⟨gone, hsplit, fun t ht => List.mem_cons_of_mem _ (hgone t ht)⟩
  | case3 => exact ⟨[], rfl, by simp⟩

/-- The kept tokens, latest first, and those to come are the list that trimming has come to. -/
theorem trimOnto_steps (kept tokens : List Token) :
    Relation.ReflTransGen TrimStep (kept.reverse ++ tokens) (trimOnto kept tokens) := by
  fun_induction trimOnto kept tokens with
  | case1 kept => rw [List.append_nil]
  | case2 kept token rest _ henter ih =>
    obtain ⟨gone, hsplit, hgone⟩ := exists_dropMatching margin kept
    refine .head ?_ ih
    have hkept : kept.reverse = (dropMatching margin kept).reverse ++ gone.reverse := by
      rw [← List.reverse_append, ← hsplit]
    rw [hkept, List.append_assoc, List.reverse_cons, List.append_assoc]
    exact .enter henter fun t ht => hgone t (List.mem_reverse.1 ht)
  | case3 kept token rest htrim henter ih =>
    obtain ⟨gone, hsplit, hgone⟩ := exists_dropMatching margin rest
    refine .head ?_ ih
    rw [List.reverse_cons, List.append_assoc]
    nth_rewrite 1 [hsplit]
    exact .exit (Kind.isExit_of_isTrim htrim henter) hgone
  | case4 kept token rest _ ih =>
    rw [List.reverse_cons, List.append_assoc] at ih
    exact ih

theorem trim_steps (tokens : List Token) :
    Relation.ReflTransGen TrimStep tokens (trim tokens) :=
  trimOnto_steps [] tokens

theorem dropMatching_eof {kinds : List Kind} (h : .eof ∉ kinds) :
    dropMatching kinds [eof] = [eof] := by
  induction kinds with
  | nil => rw [dropMatching]; simp
  | cons kind kinds ih =>
    rw [List.mem_cons, not_or] at h
    have hkind : eof.kind ≠ kind := h.1
    rw [dropMatching, if_neg hkind, ih h.2]

theorem dropMatching_concat_eof {kinds : List Kind} (h : .eof ∉ kinds) (tokens : List Token) :
    dropMatching kinds (tokens ++ [eof]) = dropMatching kinds tokens ++ [eof] := by
  fun_induction dropMatching kinds tokens with
  | case1 kinds token tokens ih =>
    rw [List.cons_append, dropMatching, if_pos rfl]
    exact ih fun hmem => h (List.mem_cons_of_mem _ hmem)
  | case2 kind kinds token tokens hkind ih =>
    rw [List.cons_append, dropMatching, if_neg hkind]
    exact ih fun hmem => h (List.mem_cons_of_mem _ hmem)
  | case3 kinds tokens hnot =>
    match kinds, tokens with
    | [], tokens => rw [dropMatching]; simp
    | kinds, [] => exact dropMatching_eof h
    | kind :: kinds, token :: tokens => exact (hnot kind kinds token tokens rfl rfl).elim

/-- The end of file is not touched. -/
theorem trimOnto_concat_eof (kept tokens : List Token) :
    trimOnto kept (tokens ++ [eof]) = trimOnto kept tokens ++ [eof] := by
  have hmargin : Kind.eof ∉ margin := by decide
  fun_induction trimOnto kept tokens with
  | case1 kept =>
    rw [List.nil_append, trimOnto, if_neg (by decide), trimOnto, List.reverse_cons]
  | case2 kept token rest htrim henter ih =>
    rw [List.cons_append, trimOnto, if_pos htrim, if_pos henter, ih]
  | case3 kept token rest htrim henter ih =>
    rw [List.cons_append, trimOnto, if_pos htrim, if_neg henter,
      dropMatching_concat_eof hmargin, ih]
  | case4 kept token rest htrim ih =>
    rw [List.cons_append, trimOnto, if_neg htrim, ih]

/-! ## What the steps keep -/

@[simp] theorem range_plain (source : Text) (token : Token) :
    token.plain.range source = token.range source := by
  have heof : token.plain.kind = .eof ↔ token.kind = .eof := by
    rcases token with ⟨_ | _ | _ | _ | _ | _, _, _⟩ <;> simp [plain, Kind.plain]
  simp only [range, heof]
  rfl

@[simp] theorem text_plain (source : Text) (token : Token) :
    token.plain.text source = token.text source := by
  rw [text, text, range_plain]

@[simp] theorem isText_plain (token : Token) : token.plain.kind.isText = token.kind.isText := by
  rcases token with ⟨_ | _ | _ | _ | _ | _, _, _⟩ <;> rfl

/-- The token covers a part of the source, and if it is text, that part is what its kind says. -/
def Rests (source : Text) (token : Token) : Prop :=
  ∃ before after, Covers source token before (token.text source) after ∧
    (token.kind.isText → (token.piece source).Fits after)

/-- The tokens stand in the source in order, from `start` up to `stop`. Between two neighbouring
text tokens there is nothing; `joined` says that there is a text token right before the first. -/
def Laid (source : Text) : Bool → Nat → Nat → List Token → Prop
  | _, start, stop, [] => start ≤ stop
  | joined, start, stop, token :: tokens =>
    token.Rests source ∧ start ≤ (token.range source).1 ∧
      (joined → token.kind.isText → (token.range source).1 = start) ∧
      Laid source token.kind.isText (token.range source).2 stop tokens

variable {source : Text} {token : Token} {joined : Bool} {start start' stop : Nat}
  {tokens tokens' s t : List Token}

theorem Rests.range_le (h : token.Rests source) :
    (token.range source).1 ≤ (token.range source).2 := by
  obtain ⟨before, after, hcovers, -⟩ := h
  rw [hcovers.range_eq]
  exact Nat.le_add_right _ _

theorem Rests.kind (h : token.Rests source) : token.kind ≠ .eof := by
  obtain ⟨before, after, hcovers, -⟩ := h
  exact hcovers.kind

/-- A delimiter without its marker still covers what it did. -/
theorem Rests.plain (h : token.Rests source) (htext : token.kind.isText = false) :
    token.plain.Rests source := by
  obtain ⟨before, after, hcovers, -⟩ := h
  refine ⟨before, after, ?_, by simp [htext]⟩
  rw [text_plain]
  refine ⟨hcovers.source_eq, hcovers.nonempty, fun hkind => hcovers.kind ?_, hcovers.first,
    hcovers.last⟩
  rcases token with ⟨_ | _ | _ | _ | _ | _, _, _⟩ <;> simp_all [Token.plain, Kind.plain]

theorem Laid.weaken (h : Laid source joined start stop tokens) (hstart : start' ≤ start) :
    Laid source false start' stop tokens := by
  cases tokens with
  | nil => exact Nat.le_trans hstart h
  | cons token tokens => exact ⟨h.1, Nat.le_trans hstart h.2.1, by simp, h.2.2.2⟩

theorem Laid.le (h : Laid source joined start stop tokens) : start ≤ stop := by
  induction tokens generalizing joined start with
  | nil => exact h
  | cons token tokens ih =>
    have hrange := h.1.range_le
    have hrest := ih h.2.2.2
    have hfirst := h.2.1
    omega

theorem Laid.rests (h : Laid source joined start stop tokens) :
    ∀ token ∈ tokens, token.Rests source := by
  induction tokens generalizing joined start with
  | nil => simp
  | cons token tokens ih => exact List.forall_mem_cons.2 ⟨h.1, ih h.2.2.2⟩

theorem Laid.ne_eof (h : Laid source joined start stop tokens) :
    ∀ token ∈ tokens, token.kind ≠ .eof := fun token htoken => (h.rests token htoken).kind

/-- A first and a second part of the tokens. -/
theorem Laid.split (h : Laid source joined start stop (s ++ t)) :
    ∃ mid, Laid source joined start mid s ∧ Laid source false mid stop t := by
  induction s generalizing joined start with
  | nil => exact ⟨start, Nat.le_refl start, h.weaken (Nat.le_refl start)⟩
  | cons token s ih =>
    obtain ⟨mid, hs, ht⟩ := ih h.2.2.2
    exact ⟨mid, ⟨h.1, h.2.1, h.2.2.1, hs⟩, ht⟩

/-- A second part may be changed into one that fits wherever the old one did. -/
theorem Laid.replace (h : Laid source joined start stop (s ++ t))
    (ht : ∀ joined start, Laid source joined start stop t → Laid source joined start stop tokens) :
    Laid source joined start stop (s ++ tokens) := by
  induction s generalizing joined start with
  | nil => exact ht joined start h
  | cons token s ih => exact ⟨h.1, h.2.1, h.2.2.1, ih h.2.2.2⟩

/-- Tokens right before a delimiter may be taken away. -/
theorem Laid.drop_before (h : Laid source joined start stop (s ++ token :: t))
    (htext : token.kind.isText = false) :
    Laid source joined start stop (token :: t) := by
  induction s generalizing joined start with
  | nil => exact h
  | cons first s ih =>
    have hrest := ih h.2.2.2
    have hrange := h.1.range_le
    have hfirst := h.2.1
    have hnext := hrest.2.1
    exact ⟨hrest.1, by omega, by simp [htext], hrest.2.2.2⟩

/-- Tokens at the front may be taken away if what comes before them is no text. -/
theorem Laid.drop_front (h : Laid source joined start stop (s ++ t)) :
    Laid source false start stop t := by
  induction s generalizing joined start with
  | nil => exact h.weaken (Nat.le_refl start)
  | cons first s ih =>
    have hrange := h.1.range_le
    have hfirst := h.2.1
    exact (ih h.2.2.2).weaken (by omega)

/-- A step keeps the tokens laid. -/
theorem TrimStep.laid (hstep : TrimStep tokens tokens')
    (h : Laid source joined start stop tokens) : Laid source joined start stop tokens' := by
  cases hstep with
  | @enter front gone later token henter hgone =>
    have htext : token.kind.isText = false := Kind.isText_eq_false (.inl henter)
    refine h.replace fun joined start ht => ?_
    have ht := ht.drop_before htext
    refine ⟨ht.1.plain htext, ?_, by simp [htext], ?_⟩
    · rw [range_plain]
      exact ht.2.1
    · rw [range_plain, isText_plain]
      exact ht.2.2.2
  | @exit front gone later token hexit hgone =>
    have htext : token.kind.isText = false := Kind.isText_eq_false (.inr hexit)
    refine h.replace fun joined start ht => ?_
    refine ⟨ht.1.plain htext, ?_, by simp [htext], ?_⟩
    · rw [range_plain]
      exact ht.2.1
    · rw [range_plain, isText_plain, htext]
      exact ht.2.2.2.drop_front

/-- All steps together keep them laid. -/
theorem Laid.trim (h : Laid source joined start stop tokens) :
    Laid source joined start stop (trim tokens) := by
  have hsteps := trim_steps tokens
  generalize Token.trim tokens = trimmed at hsteps ⊢
  induction hsteps with
  | refl => exact h
  | tail _ hstep ih => exact hstep.laid ih

/-- Tokens whose ranges make up a part of the source are laid. -/
theorem Laid.of_tile (hstands : ∀ token ∈ tokens, token.Stands source)
    (h : Tile start stop (tokens.map (range source))) : Laid source joined start stop tokens := by
  induction tokens generalizing joined start with
  | nil => exact Nat.le_of_eq h
  | cons token tokens ih =>
    obtain ⟨before, after, hcovers, hfits⟩ := hstands token List.mem_cons_self
    obtain ⟨hstart, -, hrest⟩ := h
    refine ⟨⟨before, after, hcovers, fun _ => hfits⟩, Nat.le_of_eq hstart.symm,
      fun _ _ => hstart, ?_⟩
    exact ih (fun t ht => hstands t (List.mem_cons_of_mem _ ht)) hrest

/-- The tokens of a source are laid in it, and an end of file follows them. -/
theorem exists_laid_scan (source : Text) :
    ∃ tokens, scan source = tokens ++ [eof] ∧
      Laid source false 0 (Text.bytes source) tokens := by
  obtain ⟨tokens, hscan, htile, -, hstands⟩ := exists_scan (Piece.segmentation_iff.2 rfl)
  exact ⟨tokens, hscan, .of_tile hstands htile⟩

theorem trim_concat_eof (tokens : List Token) :
    Token.trim (tokens ++ [eof]) = Token.trim tokens ++ [eof] := by
  rw [Token.trim, trimOnto_concat_eof, Token.trim]

/-- The tokens of a trimmed source are laid in it, and an end of file follows them. -/
theorem exists_laid_trim (source : Text) :
    ∃ tokens, Token.trim (scan source) = tokens ++ [eof] ∧
      Laid source false 0 (Text.bytes source) tokens := by
  obtain ⟨tokens, hscan, hlaid⟩ := exists_laid_scan source
  exact ⟨Token.trim tokens, by rw [hscan, trim_concat_eof], hlaid.trim⟩

end Token

end Stencil
