import Stencil.Code.Generate

/-!
# Code only grows

Code that is written adds lines to those that are there, and leaves the writer at the depth and in
the loops that it was in (`Writer.Grows`). So the first lines that a loop writes stand right after
what was written before it, whatever its body is: `Writer.lines_plainLoop` and
`Writer.lines_countedLoop` say how the two kinds of loops begin.
-/

namespace Stencil.Code.Writer

variable {w w' w'' : Writer} {body : Writer → Writer}

/-- Lines were added, and the writer is back at the depth and in the loops that it started in. -/
structure Grows (w w' : Writer) : Prop where
  lines : ∃ later, w'.lines = later ++ w.lines
  depth : w'.depth = w.depth
  loops : w'.loops = w.loops
  labelled : w.labelled ≤ w'.labelled

/-- Wherever this is written, the writer grows. -/
def Adds (write : Writer → Writer) : Prop := ∀ w : Writer, w.Grows (write w)

/-! ## Putting code together -/

theorem Grows.refl (w : Writer) : w.Grows w := ⟨⟨[], rfl⟩, rfl, rfl, Nat.le_refl _⟩

theorem Grows.trans (h : w.Grows w') (h' : w'.Grows w'') : w.Grows w'' := by
  obtain ⟨later, hlater⟩ := h.lines
  obtain ⟨latest, hlatest⟩ := h'.lines
  refine ⟨⟨latest ++ later, ?_⟩, h'.depth.trans h.depth, h'.loops.trans h.loops,
    Nat.le_trans h.labelled h'.labelled⟩
  rw [hlatest, hlater, List.append_assoc]

theorem adds_line (t : Text) : Adds (line t) :=
  fun w => ⟨⟨[⟨w.depth, t⟩], rfl⟩, rfl, rfl, Nat.le_refl _⟩

theorem Adds.nested (hbody : Adds body) : Adds (nested body) := by
  intro w
  have hdeeper := hbody { w with depth := w.depth + 1 }
  refine ⟨hdeeper.lines, ?_, hdeeper.loops, hdeeper.labelled⟩
  show (body { w with depth := w.depth + 1 }).depth - 1 = w.depth
  rw [hdeeper.depth, Nat.add_sub_cancel]

theorem Adds.inLoop (hbody : Adds body) (number : Option Nat) : Adds (inLoop number body) := by
  intro w
  have hinner := hbody.nested { w with loops := number :: w.loops }
  refine ⟨hinner.lines, hinner.depth, ?_, hinner.labelled⟩
  show (Writer.nested body { w with loops := number :: w.loops }).loops.tail = w.loops
  rw [hinner.loops, List.tail_cons]

/-- A block: the line that opens it, what stands in it, and the line that closes it. -/
theorem Adds.block (hbody : Adds body) (number : Option Nat) (head : Text) :
    Adds fun w => ((w.opening head).inLoop number body).closing :=
  fun w => (adds_line _ w).trans ((hbody.inLoop number _).trans (adds_line _ _))

/-! ## Loops -/

/-- A loop without labels begins with its head. -/
theorem lines_plainLoop (hbody : Adds body) (head : Text) (w : Writer) :
    ∃ later, (w.plainLoop head body).lines
      = later ++ ⟨w.depth, head ++ " \x7b".toList⟩ :: w.lines :=
  ((hbody.inLoop none _).trans (adds_line _ _)).lines

/-- Writes a line for a text unless the text is empty. -/
def lineFor (t written : Text) (w : Writer) : Writer := if t.isEmpty then w else w.line written

theorem adds_lineFor (t written : Text) : Adds (lineFor t written) := by
  intro w
  unfold lineFor
  split
  · exact .refl w
  · exact adds_line written w

/-- The head of the `while` of a counted loop. -/
def whileHead (number : Nat) (condition : Text) : Text :=
  loopLabel number ++ ": while ".toList ++ if condition.isEmpty then "true".toList else condition

/-- Writes the `while` of a counted loop: in it the labelled block of the body, and the step. -/
def whileBlock (number : Nat) (condition step : Text) (body : Writer → Writer) (w : Writer) :
    Writer :=
  let w := (w.opening (whileHead number condition)).nested fun w =>
    ((w.opening (bodyLabel number ++ [':'])).inLoop (some number) body).closing.lineFor step
      (assignment step ++ [';'])
  w.closing

/-- A counted loop is a `while` in a block, after the declaration. -/
theorem countedLoop_eq (init condition step : Text) (body : Writer → Writer) (w : Writer) :
    w.countedLoop init condition step body
      = (({ w with labelled := w.labelled + 1 }.line ['\x7b']).nested fun inner =>
          (inner.lineFor init (letMut init)).whileBlock (w.labelled + 1) condition step
            body).closing :=
  rfl

theorem Adds.inWhile (hbody : Adds body) (number : Nat) (step : Text) : Adds fun w =>
    ((w.opening (bodyLabel number ++ [':'])).inLoop (some number) body).closing.lineFor step
      (assignment step ++ [';']) :=
  fun w => (hbody.block (some number) _ w).trans (adds_lineFor _ _ _)

theorem lines_lineFor (t written : Text) (w : Writer) :
    (w.lineFor t written).lines = (if t.isEmpty then [] else [⟨w.depth, written⟩]) ++ w.lines := by
  unfold lineFor
  split <;> rfl

theorem lines_whileBlock (hbody : Adds body) (number : Nat) (condition step : Text) (w : Writer) :
    ∃ later, (w.whileBlock number condition step body).lines
      = later ++ ⟨w.depth, whileHead number condition ++ " \x7b".toList⟩ :: w.lines :=
  (((hbody.inWhile number step).nested _).trans (adds_line _ _)).lines

/-- A counted loop begins with a block, the declaration in it if there is one, and the head of its
`while`. -/
theorem lines_countedLoop (hbody : Adds body) (init condition step : Text) (w : Writer) :
    ∃ later, (w.countedLoop init condition step body).lines
      = later ++ ⟨w.depth + 1, whileHead (w.labelled + 1) condition ++ " \x7b".toList⟩ ::
          ((if init.isEmpty then [] else [⟨w.depth + 1, letMut init⟩]) ++
            ⟨w.depth, ['\x7b']⟩ :: w.lines) := by
  -- The writer in the block, before and after the declaration.
  let inner : Writer := ⟨⟨w.depth, ['\x7b']⟩ :: w.lines, w.depth + 1, w.loops, w.labelled + 1⟩
  let declared := inner.lineFor init (letMut init)
  obtain ⟨later, hlater⟩ := lines_whileBlock hbody (w.labelled + 1) condition step declared
  have hdepth : declared.depth = w.depth + 1 := (adds_lineFor _ _ inner).depth
  have hlines := lines_lineFor init (letMut init) inner
  rw [hdepth, hlines] at hlater
  rw [countedLoop_eq]
  exact ⟨_ :: later, congrArg (_ :: ·) hlater⟩

end Stencil.Code.Writer
