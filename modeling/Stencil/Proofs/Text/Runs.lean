import Stencil.Nesting

/-!
# Runs of characters

A run of characters of one class ends at the first character of another class, so what is taken from
the front of a text depends on its next character only (`Text.takeWhile_append`). For names, numbers
and blanks the classes exclude each other: the tables of letters and numbers hold no blank, and no
sign is a letter.
-/

namespace Stencil.Text

variable {p : Char → Bool} {front rest : Text} {c : Char}

/-- Where what is taken from the front ends. -/
theorem takeWhile_append (hfront : ∀ c ∈ front, p c) (hrest : ∀ c ∈ rest.head?, ¬p c) :
    (front ++ rest).takeWhile p = front := by
  have hstop : rest.takeWhile p = [] := by
    cases rest with
    | nil => rfl
    | cons c rest => exact List.takeWhile_cons_of_neg (hrest c rfl)
  rw [List.takeWhile_append_of_pos hfront, hstop, List.append_nil]

/-- What is left of a text without the characters taken from the front. -/
theorem dropWhile_append (hfront : ∀ c ∈ front, p c) (hrest : ∀ c ∈ rest.head?, ¬p c) :
    (front ++ rest).dropWhile p = rest := by
  have hsplit := List.takeWhile_append_dropWhile (p := p) (l := front ++ rest)
  rw [takeWhile_append hfront hrest] at hsplit
  exact List.append_cancel_left hsplit

/-- A text is cut in one way where a run ends. -/
theorem run_inj {front' rest' : Text} (h : front ++ rest = front' ++ rest')
    (hfront : ∀ c ∈ front, p c) (hfront' : ∀ c ∈ front', p c) (hrest : ∀ c ∈ rest.head?, ¬p c)
    (hrest' : ∀ c ∈ rest'.head?, ¬p c) : front = front' ∧ rest = rest' := by
  have htake := congrArg (List.takeWhile p) h
  have hdrop := congrArg (List.dropWhile p) h
  rw [takeWhile_append hfront hrest, takeWhile_append hfront' hrest'] at htake
  rw [dropWhile_append hfront hrest, dropWhile_append hfront' hrest'] at hdrop
  exact ⟨htake, hdrop⟩

/-- A text is cut in one way where the run at its end begins. -/
theorem run_inj_back {back front' back' : Text} (h : front ++ back = front' ++ back')
    (hback : ∀ c ∈ back, p c) (hback' : ∀ c ∈ back', p c) (hfront : ∀ c ∈ front.getLast?, ¬p c)
    (hfront' : ∀ c ∈ front'.getLast?, ¬p c) : front = front' ∧ back = back' := by
  have hreverse : back.reverse ++ front.reverse = back'.reverse ++ front'.reverse := by
    rw [← List.reverse_append, h, List.reverse_append]
  rw [← List.head?_reverse] at hfront hfront'
  obtain ⟨hrun, hrest⟩ := run_inj hreverse (fun c hc => hback c (List.mem_reverse.1 hc))
    (fun c hc => hback' c (List.mem_reverse.1 hc)) hfront hfront'
  exact ⟨List.reverse_inj.1 hrest, List.reverse_inj.1 hrun⟩

theorem exists_takeWhile (p : Char → Bool) (t : Text) :
    ∃ front rest, t = front ++ rest ∧ (∀ c ∈ front, p c) ∧ ∀ c ∈ rest.head?, ¬p c := by
  refine ⟨t.takeWhile p, t.dropWhile p, List.takeWhile_append_dropWhile.symm,
    fun c hc => List.all_eq_true.1 List.all_takeWhile c hc, fun c hc => ?_⟩
  have hstop := List.head?_dropWhile_not p t
  rw [Option.mem_def.1 hc] at hstop
  simpa using hstop

/-- A text is what it is without the blanks at its ends, between blanks. -/
theorem exists_trim (t : Text) : ∃ front back, t = front ++ (trim t ++ back) ∧
    (∀ c ∈ front, isBlank c) ∧ ∀ c ∈ back, isBlank c := by
  refine ⟨t.takeWhile isBlank, ((trimStart t).reverse.takeWhile isBlank).reverse, ?_,
    List.all_eq_true.1 List.all_takeWhile, fun c hc => ?_⟩
  · rw [trim, trimEnd, ← List.reverse_append, List.takeWhile_append_dropWhile, List.reverse_reverse]
    exact List.takeWhile_append_dropWhile.symm
  · exact List.all_eq_true.1 List.all_takeWhile c (List.mem_reverse.1 hc)

/-- What is left without the blanks at the ends. -/
theorem trim_append {core back : Text} (hfront : ∀ c ∈ front, isBlank c)
    (hback : ∀ c ∈ back, isBlank c) (hfirst : ∀ c ∈ (core ++ back).head?, ¬isBlank c)
    (hlast : ∀ c ∈ core.reverse.head?, ¬isBlank c) : trim (front ++ (core ++ back)) = core := by
  have hback' : ∀ c ∈ back.reverse, isBlank c := fun c hc => hback c (List.mem_reverse.1 hc)
  rw [trim, trimStart, dropWhile_append hfront hfirst, trimEnd, List.reverse_append,
    dropWhile_append hback' hlast, List.reverse_reverse]

/-- A text without blanks is left as it is. -/
theorem trim_eq_self {t : Text} (h : ∀ c ∈ t, ¬isBlank c) : trim t = t := by
  have htrim : trim ([] ++ (t ++ [])) = t := by
    apply trim_append (List.forall_mem_nil _) (List.forall_mem_nil _)
    · rw [List.append_nil]
      exact fun c hc => h c (List.mem_of_mem_head? hc)
    · exact fun c hc => h c (List.mem_reverse.1 (List.mem_of_mem_head? hc))
  rwa [List.nil_append, List.append_nil] at htrim

theorem trim_eq_nil {t : Text} (h : ∀ c ∈ t, isBlank c) : trim t = [] := by
  rw [← List.append_nil t, trim, trimStart, dropWhile_append h (by simp)]
  rfl

theorem head?_trim (t : Text) : ∀ c ∈ (trim t).head?, ¬isBlank c := by
  intro c hc
  have hprefix : trim t <+: trimStart t := by
    rw [← List.reverse_suffix, trim, trimEnd, List.reverse_reverse]
    exact List.dropWhile_suffix isBlank
  obtain ⟨later, hsplit⟩ := hprefix
  have hfirst : c ∈ (trimStart t).head? := by
    rw [← hsplit, List.head?_append, Option.mem_def.1 hc]
    rfl
  have hstop := List.head?_dropWhile_not isBlank t
  rw [show (t.dropWhile isBlank).head? = some c from hfirst] at hstop
  simpa using hstop

theorem getLast?_trim (t : Text) : ∀ c ∈ (trim t).getLast?, ¬isBlank c := by
  intro c hc
  rw [trim, trimEnd, List.getLast?_reverse] at hc
  have hstop := List.head?_dropWhile_not isBlank (trimStart t).reverse
  rw [Option.mem_def.1 hc] at hstop
  simpa using hstop

theorem trimEnd_append {back : Text} (hfront : ∀ c ∈ front, ¬isBlank c)
    (hback : ∀ c ∈ back, isBlank c) : trimEnd (front ++ back) = front := by
  have hback : ∀ c ∈ back.reverse, isBlank c := fun c hc => hback c (List.mem_reverse.1 hc)
  rw [trimEnd, List.reverse_append, dropWhile_append hback, List.reverse_reverse]
  exact fun c hc => hfront c (List.mem_reverse.1 (List.mem_of_mem_head? hc))

theorem trim_blank_cons (h : isBlank c) (t : Text) : trim (c :: t) = trim t := by
  rw [trim, trim, trimStart, List.dropWhile_cons_of_pos h, trimStart]

theorem joinWith_cons_cons (separator s t : Text) (ts : List Text) :
    joinWith separator (s :: t :: ts) = s ++ (separator ++ joinWith separator (t :: ts)) :=
  List.append_assoc _ _ _

/-! ## Classes of characters -/

theorem isDigit_iff : isDigit c ↔ 48 ≤ c.toNat ∧ c.toNat ≤ 57 := by
  rw [isDigit, Bool.and_eq_true, decide_eq_true_iff, decide_eq_true_iff]
  rfl

theorem isNamePart_of_isNameStart (h : isNameStart c) : isNamePart c := by
  rw [isNameStart, Bool.or_eq_true] at h
  rw [isNamePart, Bool.or_eq_true, Bool.or_eq_true]
  exact h.imp_left .inl

theorem isNamePart_of_isDigit (h : isDigit c) : isNamePart c := by
  rw [isDigit_iff] at h
  rw [isNamePart, Bool.or_eq_true, Bool.or_eq_true]
  refine .inl (.inr ?_)
  rw [isNumeric, if_pos (by omega)]
  simpa using h

/-- A number does not look like a name. -/
theorem not_isNameStart_of_isDigit (h : isDigit c) : ¬isNameStart c := by
  rw [isDigit_iff] at h
  rw [isNameStart, Bool.or_eq_true, beq_iff_eq]
  rintro (hletter | rfl)
  · rw [isLetter, if_pos (by omega)] at hletter
    simp only [Bool.or_eq_true, Bool.and_eq_true, decide_eq_true_iff] at hletter
    omega
  · revert h
    decide

/-- Signs that enclose or separate are not in names. -/
theorem not_isNamePart_of_isQuote (h : Nesting.isQuote c) : ¬isNamePart c := by
  rw [Nesting.isQuote, Bool.or_eq_true, beq_iff_eq, beq_iff_eq] at h
  rcases h with rfl | rfl <;> decide

/-- The blank characters. -/
def blanks : List Char :=
  [9, 10, 11, 12, 13, 32, 0x85, 0xa0, 0x1680, 0x2000, 0x2001, 0x2002, 0x2003, 0x2004, 0x2005,
    0x2006, 0x2007, 0x2008, 0x2009, 0x200a, 0x2028, 0x2029, 0x202f, 0x205f, 0x3000].map Char.ofNat

theorem mem_blanks_of_isBlank (h : isBlank c) : c ∈ blanks := by
  refine List.mem_map.2 ⟨c.toNat, ?_, Char.ofNat_toNat c⟩
  simp only [isBlank] at h
  simp only [List.mem_cons, List.not_mem_nil, or_false]
  split at h
  all_goals
    simp only [Bool.or_eq_true, Bool.and_eq_true, beq_iff_eq, decide_eq_true_iff] at h
    omega

/-- What is checked of every character of a text. -/
theorem forall_not_of_all {t : Text} (h : t.all (!p ·)) : ∀ c ∈ t, ¬p c := by
  simpa using h

/-- No blank is in a name, a number or a quote. -/
theorem not_isNamePart_of_isBlank (h : isBlank c) : ¬isNamePart c := by
  have hblanks : blanks.all (!isNamePart ·) := by decide +kernel
  exact forall_not_of_all hblanks c (mem_blanks_of_isBlank h)

theorem not_isBlank_of_isName {t : Text} (h : isName t) : ∀ c ∈ t, ¬isBlank c := by
  rw [isName, Bool.and_eq_true, List.all_eq_true] at h
  exact fun c hc hblank => not_isNamePart_of_isBlank hblank (h.2 c hc)

theorem not_isDigit_of_isBlank (h : isBlank c) : ¬isDigit c := by
  have hblanks : blanks.all (!isDigit ·) := by decide +kernel
  exact forall_not_of_all hblanks c (mem_blanks_of_isBlank h)

theorem not_isQuote_of_isBlank (h : isBlank c) : ¬Nesting.isQuote c := by
  have hblanks : blanks.all (!Nesting.isQuote ·) := by decide +kernel
  exact forall_not_of_all hblanks c (mem_blanks_of_isBlank h)

end Stencil.Text
