import Stencil.Code.Line
import Stencil.Node.Basic

/-!
# Constructs of code

Generated code as a tree: lines that are statements, blocks, and the arms of a branching. A block is
closed at the depth at which it was opened because that is how it is printed (`Construct.lines`).

What this means for the lines alone is `Line.Braced`, which knows nothing of constructs: every line
that ends with an opening brace is followed by deeper lines only, up to one at its own depth that
begins with a closing brace. The lines of all constructs are like this
(`Construct.braced_allLines`).
-/

namespace Stencil.Code

/-! ## Lines with braces -/

namespace Line

/-- Every line that opens a block is followed by what stands in it, which is deeper, and by a line
at its own depth that closes it. -/
def Braced : List Line → Prop
  | [] => True
  | line :: after =>
    (line.text.getLast? = some '\x7b' → ∃ inside close later, after = inside ++ close :: later ∧
      (∀ inner ∈ inside, line.depth < inner.depth) ∧
      close.depth = line.depth ∧ close.text.head? = some '\x7d') ∧
    Braced after

variable {line close : Line} {lines lines' body later : List Line}

theorem braced_cons_of_not (h : line.text.getLast? ≠ some '\x7b') (hlines : Braced lines) :
    Braced (line :: lines) :=
  ⟨fun hopens => absurd hopens h, hlines⟩

theorem Braced.append (h : Braced lines) (h' : Braced lines') : Braced (lines ++ lines') := by
  induction lines with
  | nil => exact h'
  | cons line lines ih =>
    refine ⟨fun hopens => ?_, ih h.2⟩
    obtain ⟨inside, close, later, rfl, hdeeper, hclose⟩ := h.1 hopens
    exact ⟨inside, close, later ++ lines', by simp, hdeeper, hclose⟩

/-- A block: the line that opens it, what stands in it, and the line that closes it. -/
theorem Braced.block (hbody : Braced body) (hdeeper : ∀ inner ∈ body, line.depth < inner.depth)
    (hdepth : close.depth = line.depth) (hcloses : close.text.head? = some '\x7d')
    (hlater : Braced (close :: later)) : Braced (line :: (body ++ close :: later)) :=
  ⟨fun _ => ⟨body, close, later, rfl, hdeeper, hdepth, hcloses⟩, hbody.append hlater⟩

end Line

/-! ## Constructs -/

/-- A piece of code. -/
inductive Construct
  | line (text : Text) (ends : text.getLast? = some ';')
  | block (label : Option Text) (head : Text) (body : List Construct)
  | arms (chain : Chain Text (List Construct))

namespace Construct

/-- The text of a line that opens a block. -/
def opening (label : Option Text) (head : Text) : Text :=
  label.elim [] (· ++ ": ".toList) ++ head ++ ['\x7b']

mutual

/-- The lines of a construct at a depth. -/
def lines (depth : Nat) : Construct → List Line
  | line t _ => [⟨depth, t⟩]
  | block label head body =>
    ⟨depth, opening label head⟩ :: (allLines (depth + 1) body ++ [⟨depth, ['\x7d']⟩])
  | arms chain => chainLines depth "if ".toList chain

def allLines (depth : Nat) : List Construct → List Line
  | [] => []
  | c :: cs => lines depth c ++ allLines depth cs

/-- The lines of arms; `head` stands before the condition of the first one. The line that opens an
arm closes the one before it. -/
def chainLines (depth : Nat) (head : Text) : Chain Text (List Construct) → List Line
  | .done => [⟨depth, ['\x7d']⟩]
  | .otherwise body =>
    ⟨depth, opening none "\x7d else ".toList⟩ ::
      (allLines (depth + 1) body ++ [⟨depth, ['\x7d']⟩])
  | .arm condition body rest =>
    ⟨depth, opening none (head ++ condition ++ [' '])⟩ ::
      (allLines (depth + 1) body ++ chainLines depth "\x7d else if ".toList rest)

end

mutual

/-- The labels of the blocks of a construct, in the order in which the blocks begin. -/
def labels : Construct → List Text
  | line _ _ => []
  | block label _ body => label.toList ++ allLabels body
  | arms chain => chainLabels chain

def allLabels : List Construct → List Text
  | [] => []
  | c :: cs => labels c ++ allLabels cs

def chainLabels : Chain Text (List Construct) → List Text
  | .done => []
  | .otherwise body => allLabels body
  | .arm _ body rest => allLabels body ++ chainLabels rest

end

variable {depth : Nat}

theorem allLines_append (cs cs' : List Construct) :
    allLines depth (cs ++ cs') = allLines depth cs ++ allLines depth cs' := by
  induction cs with
  | nil => rfl
  | cons c cs ih => simp only [List.cons_append, allLines, ih, List.append_assoc]

/-! ## Depths -/

/-- What begins at a depth, goes on deeper, and then keeps to the depth is nowhere above it. -/
theorem depth_le_of_mem_block {t : Text} {body later : List Line}
    (hbody : ∀ l ∈ body, depth + 1 ≤ l.depth) (hlater : ∀ l ∈ later, depth ≤ l.depth) :
    ∀ l ∈ ⟨depth, t⟩ :: (body ++ later), depth ≤ l.depth := by
  intro l hl
  rw [List.mem_cons, List.mem_append] at hl
  obtain rfl | hl | hl := hl
  · exact Nat.le_refl depth
  · exact Nat.le_of_succ_le (hbody l hl)
  · exact hlater l hl

theorem depth_le_of_mem_singleton {t : Text} : ∀ l ∈ [Line.mk depth t], depth ≤ l.depth :=
  List.forall_mem_singleton.2 (Nat.le_refl depth)

mutual

theorem depth_le_of_mem_lines :
    ∀ (c : Construct) (depth : Nat), ∀ l ∈ lines depth c, depth ≤ l.depth
  | line _ _, _ => depth_le_of_mem_singleton
  | block _ _ body, depth =>
    depth_le_of_mem_block (depth_le_of_mem_allLines body (depth + 1)) depth_le_of_mem_singleton
  | arms chain, depth => depth_le_of_mem_chainLines chain depth _

theorem depth_le_of_mem_allLines :
    ∀ (cs : List Construct) (depth : Nat), ∀ l ∈ allLines depth cs, depth ≤ l.depth
  | [], _ => List.forall_mem_nil _
  | c :: cs, depth =>
    List.forall_mem_append.2 ⟨depth_le_of_mem_lines c depth, depth_le_of_mem_allLines cs depth⟩

theorem depth_le_of_mem_chainLines : ∀ (chain : Chain Text (List Construct)) (depth : Nat)
    (head : Text), ∀ l ∈ chainLines depth head chain, depth ≤ l.depth
  | .done, _, _ => depth_le_of_mem_singleton
  | .otherwise body, depth, _ =>
    depth_le_of_mem_block (depth_le_of_mem_allLines body (depth + 1)) depth_le_of_mem_singleton
  | .arm _ body rest, depth, _ =>
    depth_le_of_mem_block (depth_le_of_mem_allLines body (depth + 1))
      (depth_le_of_mem_chainLines rest depth _)

end

/-! ## Braces -/

/-- The arms after the first one begin with the line that closes the arm before them. -/
theorem exists_chainLines (chain : Chain Text (List Construct)) (depth : Nat) :
    ∃ close later, chainLines depth "\x7d else if ".toList chain = close :: later ∧
      close.depth = depth ∧ close.text.head? = some '\x7d' := by
  cases chain with
  | done => exact ⟨_, _, rfl, rfl, rfl⟩
  | otherwise body => exact ⟨_, _, rfl, rfl, rfl⟩
  | arm condition body rest => exact ⟨_, _, rfl, rfl, rfl⟩

theorem braced_closing : Line.Braced [⟨depth, ['\x7d']⟩] := by
  refine Line.braced_cons_of_not ?_ trivial
  show ['\x7d'].getLast? ≠ some '\x7b'
  decide

mutual

/-- Every construct closes the braces that it opens, where it opened them. -/
theorem braced_lines : ∀ (c : Construct) (depth : Nat), Line.Braced (lines depth c)
  | line t ends, depth => by
    refine Line.braced_cons_of_not ?_ trivial
    rw [ends]
    decide
  | block _ _ body, depth =>
    (braced_allLines body (depth + 1)).block (depth_le_of_mem_allLines body (depth + 1)) rfl rfl
      braced_closing
  | arms chain, depth => braced_chainLines chain depth _

theorem braced_allLines : ∀ (cs : List Construct) (depth : Nat), Line.Braced (allLines depth cs)
  | [], _ => trivial
  | c :: cs, depth => (braced_lines c depth).append (braced_allLines cs depth)

theorem braced_chainLines : ∀ (chain : Chain Text (List Construct)) (depth : Nat) (head : Text),
    Line.Braced (chainLines depth head chain)
  | .done, _, _ => braced_closing
  | .otherwise body, depth, _ =>
    (braced_allLines body (depth + 1)).block (depth_le_of_mem_allLines body (depth + 1)) rfl rfl
      braced_closing
  | .arm _ body rest, depth, head => by
    obtain ⟨close, later, hlines, hdepth, hcloses⟩ := exists_chainLines rest depth
    have hrest := braced_chainLines rest depth "\x7d else if ".toList
    rw [hlines] at hrest
    rw [chainLines, hlines]
    exact (braced_allLines body (depth + 1)).block (depth_le_of_mem_allLines body (depth + 1))
      hdepth hcloses hrest

end

end Construct

end Stencil.Code
