import Stencil.Proofs.Expr.Written
import Stencil.Proofs.Node.CallForm

/-!
# Closed texts

A text is closed if its quotes and brackets are: it consists of plain characters, of quoted strings
and of closed texts in brackets. Going through a closed text leads back to the nesting that one came
from, never to fewer brackets on the way (`Text.Closed.passes`). So no closed text has the
parenthesis in it that closes a call, and a separator that stands in closed texts in brackets only
separates exactly the texts that were joined with it.

* `Text.Closed.closes`: what closes a call.
* `Nesting.split_joinWith`: splitting what was joined.
-/

namespace Stencil

open Text

/-! ## Going through a text -/

namespace Nesting

/-- How many brackets are open. -/
def depth : Nesting → Nat
  | outside depth => depth
  | inside depth _ _ => depth

/-- From one nesting the text leads to another, and the property holds of all its characters with
the nestings that they are met at. -/
inductive Passes (p : Nesting → Char → Prop) : Nesting → Text → Nesting → Prop
  | nil {nesting : Nesting} : Passes p nesting [] nesting
  | cons {nesting next last : Nesting} {c : Char} {t : Text} (hstep : nesting.step c = next)
      (hc : p nesting c) (ht : Passes p next t last) : Passes p nesting (c :: t) last

variable {p q : Nesting → Char → Prop} {nesting next last : Nesting} {s t front back : Text}
  {c : Char} {d : Nat}

theorem Passes.after_eq (h : Passes p nesting t last) : nesting.after t = last := by
  induction h with
  | nil => rfl
  | cons hstep _ _ ih =>
    subst hstep
    exact ih

theorem Passes.append (hs : Passes p nesting s next) (ht : Passes p next t last) :
    Passes p nesting (s ++ t) last := by
  induction hs with
  | nil => exact ht
  | cons hstep hc _ ih => exact .cons hstep hc (ih ht)

theorem Passes.mono (h : Passes p nesting t last) (hpq : ∀ nesting c, p nesting c → q nesting c) :
    Passes q nesting t last := by
  induction h with
  | nil => exact .nil
  | cons hstep hc _ ih => exact .cons hstep (hpq _ _ hc) ih

/-- What holds at one of the characters. -/
theorem Passes.at (h : Passes p nesting (front ++ c :: back) last) :
    p (nesting.after front) c := by
  induction front generalizing nesting with
  | nil =>
    cases h with
    | cons _ hc => exact hc
  | cons d front ih =>
    cases h with
    | cons hstep _ ht =>
      subst hstep
      exact ih ht

end Nesting

namespace Text

/-- Neither a quote nor a bracket. -/
def IsPlain (c : Char) : Prop :=
  ¬Nesting.isQuote c ∧ ¬Nesting.isOpening c ∧ ¬Nesting.isClosing c

end Text

namespace Nesting

variable {d : Nat} {c quote : Char}

theorem step_plain (h : IsPlain c) : (outside d).step c = outside d := by
  rw [step, if_neg h.1, if_neg h.2.1, if_neg h.2.2]

theorem step_quote (h : isQuote quote) : (outside d).step quote = inside d quote false := by
  rw [step, if_pos h]

theorem step_opening (h : isOpening c) : (outside d).step c = outside (d + 1) := by
  have hquote : ¬isQuote c := by
    simp only [isOpening, Bool.or_eq_true, beq_iff_eq] at h
    rcases h with (rfl | rfl) | rfl <;> decide
  rw [step, if_neg hquote, if_pos h]

theorem step_closing (h : isClosing c) : (outside d).step c = outside (d - 1) := by
  have hother : ¬isQuote c ∧ ¬isOpening c := by
    simp only [isClosing, Bool.or_eq_true, beq_iff_eq] at h
    rcases h with (rfl | rfl) | rfl <;> decide
  rw [step, if_neg hother.1, if_neg hother.2, if_pos h]

theorem step_inside (hquote : c ≠ quote) (hslash : c ≠ '\\') :
    (inside d quote false).step c = inside d quote false := by
  rw [step, if_neg hslash, if_neg hquote]

theorem step_slash : (inside d quote false).step '\\' = inside d quote true := by
  rw [step, if_pos rfl]

theorem step_end (h : isQuote quote) : (inside d quote false).step quote = outside d := by
  have hslash : quote ≠ '\\' := by
    rintro rfl
    revert h
    decide
  rw [step, if_neg hslash, if_pos rfl]

end Nesting

/-! ## Closed texts -/

namespace Text

/-- Quotes and brackets are closed, and outside of them there is nothing that is excluded. The three
kinds of brackets are not told apart. -/
inductive Closed : (excluded : Char → Prop) → Text → Prop
  | nil {excluded : Char → Prop} : Closed excluded []
  | plain {excluded : Char → Prop} {c : Char} {t : Text} (hc : IsPlain c) (hexcluded : ¬excluded c)
      (h : Closed excluded t) : Closed excluded (c :: t)
  | quoted {excluded : Char → Prop} {quote : Char} {body content t : Text}
      (hquote : Nesting.isQuote quote) (hbody : Lexeme.QuotedBody quote body content)
      (h : Closed excluded t) : Closed excluded (quote :: (body ++ quote :: t))
  | bracketed {excluded : Char → Prop} {opening closing : Char} {inner t : Text}
      (hopening : Nesting.isOpening opening) (hclosing : Nesting.isClosing closing)
      (hinner : Closed (fun _ => False) inner) (h : Closed excluded t) :
      Closed excluded (opening :: (inner ++ closing :: t))

variable {excluded excluded' : Char → Prop} {s t inner : Text} {d : Nat}

theorem Closed.append (hs : Closed excluded s) (ht : Closed excluded t) :
    Closed excluded (s ++ t) := by
  induction hs with
  | nil => exact ht
  | plain hc hexcluded _ ih => exact .plain hc hexcluded (ih ht)
  | quoted hquote hbody _ ih =>
    rw [List.cons_append, List.append_assoc]
    exact .quoted hquote hbody (ih ht)
  | bracketed hopening hclosing hinner _ _ ih =>
    rw [List.cons_append, List.append_assoc]
    exact .bracketed hopening hclosing hinner (ih ht)

theorem Closed.mono (h : Closed excluded t) (hmono : ∀ c, excluded' c → excluded c) :
    Closed excluded' t := by
  induction h with
  | nil => exact .nil
  | plain hc hexcluded _ ih => exact .plain hc (fun h => hexcluded (hmono _ h)) (ih hmono)
  | quoted hquote hbody _ ih => exact .quoted hquote hbody (ih hmono)
  | bracketed hopening hclosing hinner _ _ ih =>
    exact .bracketed hopening hclosing hinner (ih hmono)

theorem closed_of_forall (h : ∀ c ∈ t, IsPlain c ∧ ¬excluded c) : Closed excluded t := by
  induction t with
  | nil => exact .nil
  | cons c t ih =>
    rw [List.forall_mem_cons] at h
    exact .plain h.1.1 h.1.2 (ih h.2)

/-- What is joined from closed texts is closed if the separator is. -/
theorem closed_joinWith {separator : Text} {parts : List Text}
    (hseparator : Closed excluded separator) (h : ∀ part ∈ parts, Closed excluded part) :
    Closed excluded (joinWith separator parts) := by
  induction parts with
  | nil => exact .nil
  | cons part parts ih =>
    rw [List.forall_mem_cons] at h
    cases parts with
    | nil => exact h.1
    | cons next parts =>
      rw [joinWith_cons_cons]
      exact h.1.append (hseparator.append (ih h.2))

open Nesting

/-- What is met in a closed text that starts under `d` brackets: there are never fewer, neither
before a character nor after it, and no character outside of all further ones is excluded. -/
def Guarded (excluded : Char → Prop) (d : Nat) (nesting : Nesting) (c : Char) : Prop :=
  d ≤ nesting.depth ∧ d ≤ (nesting.step c).depth ∧
    (nesting = outside d → IsPlain c → ¬excluded c)

theorem Guarded.of_succ {nesting : Nesting} {c : Char}
    (h : Guarded excluded' (d + 1) nesting c) : Guarded excluded d nesting c := by
  refine ⟨Nat.le_of_succ_le h.1, Nat.le_of_succ_le h.2.1, ?_⟩
  rintro rfl
  exact absurd h.1 (Nat.not_succ_le_self d)

theorem guarded_inside {quote : Char} {escaped : Bool} {c : Char} {next : Nesting}
    (hstep : (inside d quote escaped).step c = next) (h : next.depth = d) :
    Guarded excluded d (inside d quote escaped) c := by
  refine ⟨Nat.le_refl d, Nat.le_of_eq ?_, nofun⟩
  rw [hstep, h]

theorem guarded_outside {c : Char} {next : Nesting} (hstep : (outside d).step c = next)
    (h : d ≤ next.depth) (hexcluded : IsPlain c → ¬excluded c) :
    Guarded excluded d (outside d) c := by
  refine ⟨Nat.le_refl d, ?_, fun _ => hexcluded⟩
  rwa [hstep]

/-- A string is gone through up to the quote that ends it. -/
theorem passes_quotedBody {quote : Char} {body content : Text}
    (h : Lexeme.QuotedBody quote body content) (d : Nat) :
    Nesting.Passes (Guarded excluded d) (inside d quote false) body (inside d quote false) := by
  induction h with
  | nil => exact .nil
  | plain hne hslash _ ih =>
    have hstep := step_inside (d := d) hne hslash
    exact .cons hstep (guarded_inside hstep rfl) ih
  | escape c _ ih =>
    refine .cons step_slash (guarded_inside step_slash rfl) ?_
    exact .cons rfl (guarded_inside rfl rfl) ih

/-- Going through a closed text leads back, and never to fewer brackets. -/
theorem Closed.passes (h : Closed excluded t) (d : Nat) :
    Nesting.Passes (Guarded excluded d) (outside d) t (outside d) := by
  induction h generalizing d with
  | nil => exact .nil
  | plain hc hexcluded _ ih =>
    have hstep := step_plain (d := d) hc
    exact .cons hstep (guarded_outside hstep (Nat.le_refl d) fun _ => hexcluded) (ih d)
  | quoted hquote hbody _ ih =>
    have hopen := step_quote (d := d) hquote
    have hclose := step_end (d := d) hquote
    refine .cons hopen (guarded_outside hopen (Nat.le_refl d) fun hc => absurd hquote hc.1) ?_
    exact (passes_quotedBody hbody d).append (.cons hclose (guarded_inside hclose rfl) (ih d))
  | bracketed hopening hclosing _ _ ihinner ih =>
    have hopen := step_opening (d := d) hopening
    have hclose := step_closing (d := d + 1) hclosing
    refine .cons hopen (guarded_outside hopen (Nat.le_succ d) fun hc => absurd hopening hc.2.1) ?_
    refine ((ihinner (d + 1)).mono fun _ _ h => h.of_succ).append (.cons hclose ?_ (ih d))
    refine ⟨Nat.le_succ d, ?_, ?_⟩
    · rw [hclose]
      exact Nat.le_refl d
    · intro heq
      cases heq

/-- The first parenthesis after a closed text is the one that closes the call. -/
theorem Closed.closes (h : Closed excluded inner) : (outside 1).Closes inner := by
  constructor
  · rw [Nesting.after, List.foldl_append]
    show ((outside 1).after inner).step ')' = outside 0
    rw [(h.passes 1).after_eq]
    exact step_closing rfl
  · rintro front back rfl hafter
    have hguarded := (h.passes 1).at
    rw [Nesting.after, List.foldl_append] at hafter
    have hdepth : 1 ≤ (((outside 1).after front).step ')').depth := hguarded.2.1
    rw [show ((outside 1).after front).step ')' = outside 0 from hafter] at hdepth
    cases hdepth

end Text

namespace Nesting

variable {separator : Char} {nesting last : Nesting} {part : Text} {parts : List Text}

/-- A part in which no separator stands at the top level is the front of the first part. -/
theorem splitFrom_append {rest : Text}
    (h : Passes (fun nesting c => ¬(nesting.isTop c ∧ c = separator)) nesting part last) :
    splitFrom separator nesting (part ++ rest)
      = (part ++ (splitFrom separator last rest).1, (splitFrom separator last rest).2) := by
  induction h with
  | nil => rfl
  | @cons nesting next last c t hstep hc _ ih =>
    have hc : ¬(nesting.isTop c && c == separator) = true := by
      simpa using hc
    rw [List.cons_append, splitFrom, hstep, ih]
    simp only [if_neg hc, List.cons_append]

theorem isTop_iff {c : Char} : nesting.isTop c ↔ nesting = outside 0 ∧ IsPlain c := by
  simp [isTop, IsPlain, and_assoc]

/-- No separator stands at the top level of a closed text that excludes it. -/
theorem passes_of_closed (h : Closed (· = separator) part) :
    Passes (fun nesting c => ¬(nesting.isTop c ∧ c = separator)) (outside 0) part (outside 0) := by
  refine (h.passes 0).mono fun nesting c hguarded => ?_
  rintro ⟨htop, heq⟩
  obtain ⟨hnesting, hplain⟩ := isTop_iff.1 htop
  exact hguarded.2.2 hnesting hplain heq

/-- Closed texts that are joined with a separator are what it separates. -/
theorem split_joinWith (hseparator : IsPlain separator) (hnonempty : parts ≠ [])
    (hparts : ∀ part ∈ parts, Closed (· = separator) part) :
    split separator (joinWith [separator] parts) = parts := by
  induction parts with
  | nil => exact absurd rfl hnonempty
  | cons part parts ih =>
    rw [List.forall_mem_cons] at hparts
    have hpart := passes_of_closed hparts.1
    cases parts with
    | nil =>
      have hsplit : splitFrom separator (outside 0) (part ++ []) = (part ++ [], []) :=
        splitFrom_append hpart
      rw [List.append_nil] at hsplit
      rw [split, joinWith, hsplit]
    | cons next parts =>
      have hrest := ih (List.cons_ne_nil next parts) hparts.2
      have htop : (outside 0).isTop separator && separator == separator := by
        simp [isTop_iff.2 ⟨rfl, hseparator⟩]
      rw [split] at hrest ⊢
      rw [joinWith_cons_cons, splitFrom_append hpart, List.singleton_append, splitFrom,
        step_plain hseparator]
      simp only [if_pos htop, List.append_nil]
      exact congrArg (part :: ·) hrest

end Nesting

end Stencil
