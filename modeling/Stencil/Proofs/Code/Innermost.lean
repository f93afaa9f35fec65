import Mathlib.Data.List.Nodup
import Stencil.Proofs.Code.Constructs
import Stencil.Proofs.Code.Lines

/-!
# Jumps go to the innermost loop

The writer keeps a stack of the loops that it is in and a count of those that it labelled. Here the
same code is made by recursion alone: `Construct.ofOp` is told how many counted loops began before
an operation and which one of them, if any, is the innermost loop around it, and gives a tree of
constructs. That the writer adds exactly the lines of this tree is `Writer.writes_op`.

Since the numbers go up in the order in which the loops begin (`Construct.allLabels_ofOps`), no
label is given twice.

Main statement: `Procedure.code_eq_reference`.
-/

namespace Stencil

/-! ## Counted loops -/

/-- What stands before the header of a loop that is not counted. -/
def LoopKind.keyword : LoopKind → Text
  | .whileLoop => "while ".toList
  | .forLoop | .foreachLoop => "for ".toList

/-- The parts of a header, if the loop is counted. -/
def LoopKind.parts? : LoopKind → Text → Option (Text × Text × Text)
  | .forLoop, header =>
    match Header.ofText? header with
    | some (.counted init condition step) => some (init, condition, step)
    | _ => none
  | .whileLoop, _ | .foreachLoop, _ => none

namespace Op

mutual

/-- How many counted loops there are in an operation. -/
def countedLoops : Op → Nat
  | .loop kind header body =>
    if (kind.parts? header).isSome then allCounted body + 1 else allCounted body
  | .branch chain => chainCounted chain
  | .text _ _ | .render _ _ | .declare _ | .call _ _ _ | .jump _ => 0

def allCounted : List Op → Nat
  | [] => 0
  | o :: os => countedLoops o + allCounted os

def chainCounted : Chain Text (List Op) → Nat
  | .done => 0
  | .otherwise body => allCounted body
  | .arm _ body rest => allCounted body + chainCounted rest

end

end Op

/-! ## The code of a procedure, as constructs -/

namespace Code

section Statements

variable {t t' : Text}

theorem ends_append (h : t'.getLast? = some ';') : (t ++ t').getLast? = some ';' := by
  rw [List.getLast?_append, h, Option.some_or]

theorem ends_letMut (t : Text) : (letMut t).getLast? = some ';' := by
  unfold letMut
  split <;> exact ends_append rfl

theorem ends_statement (t : Text) : (statement t).getLast? = some ';' := by
  simp only [statement]
  split
  · exact ends_append rfl
  · exact ends_letMut _

end Statements

namespace Construct

/-- A jump out of the counted loop with the given number or to its next round, or one of the
innermost loop whatever it is. -/
def jump : Option Nat → Jump → Construct
  | some number, .breaks =>
    line ("break ".toList ++ ("'loop_".toList ++ Nat.toDigits 10 number) ++ [';']) (ends_append rfl)
  | some number, .continues =>
    line ("break ".toList ++ ("'body_".toList ++ Nat.toDigits 10 number) ++ [';']) (ends_append rfl)
  | none, .breaks => line "break;".toList rfl
  | none, .continues => line "continue;".toList rfl
  | _, .returns => line "return;".toList rfl

/-- A statement, or nothing if it is made from an empty text. -/
def lineFor (t written : Text) (ends : written.getLast? = some ';') : List Construct :=
  if t.isEmpty then [] else [line written ends]

/-- A counted loop: in a block the declaration and a labelled `while`, and in that the body, in a
labelled block, and the step. -/
def countedLoop (number : Nat) (init condition step : Text) (body : List Construct) : Construct :=
  let condition := if condition.isEmpty then "true".toList else condition
  block none [] (lineFor init (letMut init) (ends_letMut init) ++
    [block (some ("'loop_".toList ++ Nat.toDigits 10 number))
      ("while ".toList ++ condition ++ [' '])
      (block (some ("'body_".toList ++ Nat.toDigits 10 number)) [] body ::
        lineFor step (assignment step ++ [';']) (ends_append rfl))])

mutual

/-- The code of an operation with `before` counted loops that began before it. The number of the
innermost loop around it is `target`, if that loop is counted. -/
def ofOp (names : CodeNames) (before : Nat) (target : Option Nat) : Op → Construct
  | .text t isIndented =>
    line (append names (laidOut names isIndented (Text.quoted t))) (ends_append rfl)
  | .render e isIndented =>
    line (append names (laidOut names isIndented (rendered e))) (ends_append rfl)
  | .declare t => line (statement t) (ends_statement t)
  | .call name arguments indent => line (call names name arguments indent) (ends_append rfl)
  | .branch chain => arms (ofChain names before target chain)
  | .loop kind header body =>
    match kind.parts? header with
    | some (init, condition, step) =>
      countedLoop (before + 1) init condition step
        (ofOps names (before + 1) (some (before + 1)) body)
    | none => block none (kind.keyword ++ header ++ [' ']) (ofOps names before none body)
  | .jump j => jump target j

def ofOps (names : CodeNames) (before : Nat) (target : Option Nat) : List Op → List Construct
  | [] => []
  | o :: os =>
    ofOp names before target o :: ofOps names (before + Op.countedLoops o) target os

def ofChain (names : CodeNames) (before : Nat) (target : Option Nat) :
    Chain Text (List Op) → Chain Text (List Construct)
  | .done => .done
  | .otherwise body => .otherwise (ofOps names before target body)
  | .arm condition body rest =>
    .arm condition (ofOps names before target body)
      (ofChain names (before + Op.allCounted body) target rest)

end

end Construct

/-! ## What the writer adds -/

namespace Writer

/-- The writer after lines with this many counted loops in them. -/
def extended (lines : List Line) (counted : Nat) (w : Writer) : Writer :=
  { w with lines := lines.reverse ++ w.lines, labelled := w.labelled + counted }

/-- Wherever this is written, it adds the lines for the number of loops labelled before, the
innermost loop and the depth there, and it labels this many loops. -/
def Writes (write : Writer → Writer) (code : Nat → Option Nat → Nat → List Line) (counted : Nat) :
    Prop :=
  ∀ w : Writer, write w = w.extended (code w.labelled w.target w.depth) counted

variable {write write' body : Writer → Writer} {code code' : Nat → Option Nat → Nat → List Line}
  {counted counted' : Nat}

theorem extended_extended (w : Writer) (lines lines' : List Line) :
    (w.extended lines counted).extended lines' counted'
      = w.extended (lines ++ lines') (counted + counted') := by
  simp only [extended, List.reverse_append, List.append_assoc, Nat.add_assoc]

theorem writes_line (t : Text) : Writes (line t) (fun _ _ depth => [⟨depth, t⟩]) 0 := fun _ => rfl

theorem Writes.andThen (h : Writes write code counted) (h' : Writes write' code' counted') :
    Writes (fun w => write' (write w)) (fun before target depth =>
      code before target depth ++ code' (before + counted) target depth) (counted + counted') := by
  intro w
  show write' (write w) = _
  rw [h w, h', extended_extended]
  rfl

theorem Writes.nested (h : Writes body code counted) :
    Writes (nested body) (fun before target depth => code before target (depth + 1)) counted := by
  intro w
  simp only [Writer.nested, h { w with depth := w.depth + 1 }]
  rfl

theorem Writes.inLoop (h : Writes body code counted) (number : Option Nat) :
    Writes (inLoop number body) (fun before _ depth => code before number (depth + 1)) counted := by
  intro w
  simp only [Writer.inLoop, h.nested { w with loops := number :: w.loops }]
  rfl

/-- A block: the line that opens it, what stands in it, and the line that closes it. -/
theorem Writes.block (h : Writes body code counted) (t : Text) :
    Writes (fun w => (body (w.line t)).closing) (fun before target depth =>
      ⟨depth, t⟩ :: (code before target depth ++ [⟨depth, ['\x7d']⟩])) counted := by
  have hblock := ((writes_line t).andThen h).andThen (writes_line ['\x7d'])
  rw [Nat.zero_add, Nat.add_zero] at hblock
  exact hblock

/-- Numbering a loop before it is written. -/
theorem extended_labelled (w : Writer) (lines : List Line) :
    ({ w with labelled := w.labelled + 1 } : Writer).extended lines counted
      = w.extended lines (counted + 1) := by
  simp only [extended, Nat.add_right_comm, Nat.add_assoc]

/-! ## Loops -/

section Loops

variable {constructs : Nat → Option Nat → List Construct}

/-- Wherever this is written, it adds the lines of these constructs. -/
abbrev WritesAll (write : Writer → Writer) (constructs : Nat → Option Nat → List Construct)
    (counted : Nat) : Prop :=
  Writes write (fun before target depth => Construct.allLines depth (constructs before target))
    counted

theorem writes_lineFor (t written : Text) (ends : written.getLast? = some ';') :
    WritesAll (lineFor t written) (fun _ _ => Construct.lineFor t written ends) 0 := by
  intro w
  unfold lineFor Construct.lineFor
  split <;> rfl

theorem opening_none (head : Text) :
    Construct.opening none (head ++ [' ']) = head ++ " \x7b".toList :=
  List.append_assoc head [' '] ['\x7b']

theorem opening_label (label : Text) :
    Construct.opening (some label) [] = label ++ [':'] ++ " \x7b".toList := by
  rw [Construct.opening, List.append_nil, List.append_assoc]
  exact List.append_assoc label ": ".toList ['\x7b']

theorem opening_bodyLabel (number : Nat) :
    Construct.opening (some ("'body_".toList ++ Nat.toDigits 10 number)) []
      = bodyLabel number ++ [':'] ++ " \x7b".toList :=
  opening_label _

theorem opening_while (label condition : Text) :
    Construct.opening (some label) ("while ".toList ++ condition ++ [' '])
      = label ++ ": while ".toList ++ condition ++ " \x7b".toList := by
  simp only [Construct.opening, Option.elim, List.append_assoc]
  rfl

theorem opening_whileHead (number : Nat) (condition : Text) :
    Construct.opening (some ("'loop_".toList ++ Nat.toDigits 10 number)) ("while ".toList ++
      (if condition.isEmpty then "true".toList else condition) ++ [' '])
        = whileHead number condition ++ " \x7b".toList :=
  opening_while _ _

theorem Writes.plainLoop (h : WritesAll body constructs counted) (head : Text) :
    Writes (fun w => w.plainLoop head body) (fun before _ depth =>
      Construct.lines depth (.block none (head ++ [' ']) (constructs before none))) counted := by
  simp only [Construct.lines, opening_none]
  exact (h.inLoop none).block _

theorem Writes.countedLoop (h : WritesAll body constructs counted) (init condition step : Text) :
    Writes (fun w => w.countedLoop init condition step body) (fun before _ depth =>
      Construct.lines depth (Construct.countedLoop (before + 1) init condition step
        (constructs (before + 1) (some (before + 1))))) (counted + 1) := by
  intro w
  have hbody := (h.inLoop (some (w.labelled + 1))).block
    (bodyLabel (w.labelled + 1) ++ [':'] ++ " \x7b".toList)
  have hround := hbody.andThen (writes_lineFor step (assignment step ++ [';']) (ends_append rfl))
  have hwhile := hround.nested.block (whileHead (w.labelled + 1) condition ++ " \x7b".toList)
  have hinner := (writes_lineFor init (letMut init) (ends_letMut init)).andThen hwhile
  have hloop := hinner.nested.block ['\x7b'] { w with labelled := w.labelled + 1 }
  rw [extended_labelled, Nat.zero_add, Nat.add_zero] at hloop
  simp only [Construct.countedLoop, Construct.lines, Construct.allLines_append, Construct.allLines,
    opening_bodyLabel, opening_whileHead, List.append_nil]
  exact hloop

theorem loop_eq (kind : LoopKind) (header : Text) (w : Writer) : w.loop kind header body =
    match kind.parts? header with
    | some (init, condition, step) => w.countedLoop init condition step body
    | none => w.plainLoop (kind.keyword ++ header) body := by
  cases kind with
  | whileLoop => rfl
  | foreachLoop => rfl
  | forLoop =>
    simp only [loop, LoopKind.parts?, Header.ofText?]
    -- A header has three parts, or one, or neither.
    rcases Nesting.split ';' header with _ | ⟨_, _ | ⟨_, _ | ⟨_, _ | _⟩⟩⟩
    · rfl
    · cases Header.each? header <;> rfl
    all_goals rfl

theorem Writes.loop (h : WritesAll body constructs counted) (kind : LoopKind) (header : Text) :
    Writes (fun w => w.loop kind header body) (fun before _ depth =>
      Construct.lines depth (match kind.parts? header with
        | some (init, condition, step) => Construct.countedLoop (before + 1) init condition step
            (constructs (before + 1) (some (before + 1)))
        | none => .block none (kind.keyword ++ header ++ [' ']) (constructs before none)))
      (if (kind.parts? header).isSome then counted + 1 else counted) := by
  simp only [loop_eq]
  cases kind.parts? header with
  | none => exact h.plainLoop _
  | some parts => exact h.countedLoop _ _ _

end Loops

/-! ## Operations -/

theorem writes_jump (j : Jump) : Writes (fun w => w.line (Code.jump w.target j))
    (fun _ target depth => Construct.lines depth (Construct.jump target j)) 0 := by
  intro w
  show w.line (Code.jump w.target j) = w.extended (Construct.lines w.depth (.jump w.target j)) 0
  cases w.target <;> cases j <;> rfl

mutual

/-- Writing an operation adds the lines of its construct. -/
theorem writes_op (names : CodeNames) : ∀ o : Op, Writes (op names o)
    (fun before target depth => Construct.lines depth (Construct.ofOp names before target o))
    (Op.countedLoops o)
  | .text _ _ => writes_line _
  | .render _ _ => writes_line _
  | .declare _ => writes_line _
  | .call _ _ _ => writes_line _
  | .branch chain => writes_arms names chain _
  | .loop kind header body => (writes_ops names body).loop kind header
  | .jump j => writes_jump j

theorem writes_ops (names : CodeNames) : ∀ os : List Op, WritesAll (ops names os)
    (fun before target => Construct.ofOps names before target os) (Op.allCounted os)
  | [] => fun _ => rfl
  | o :: os => (writes_op names o).andThen (writes_ops names os)

theorem writes_arms (names : CodeNames) : ∀ (chain : Chain Text (List Op)) (head : Text),
    Writes (arms names head chain) (fun before target depth =>
      Construct.chainLines depth head (Construct.ofChain names before target chain))
      (Op.chainCounted chain)
  | .done, _ => writes_line _
  | .otherwise body, _ => (writes_ops names body).nested.block _
  | .arm condition body rest, head => by
    have harm := (writes_line (head ++ condition ++ " \x7b".toList)).andThen
      (writes_ops names body).nested
    have hrest := harm.andThen (writes_arms names rest "\x7d else if ".toList)
    rw [Nat.zero_add] at hrest
    simp only [Construct.ofChain, Construct.chainLines, opening_none]
    exact hrest

end

theorem Writes.adds (h : Writes write code counted) : Adds write := by
  intro w
  rw [h w]
  exact ⟨⟨_, rfl⟩, rfl, rfl, Nat.le_add_right _ _⟩

/-- Writing operations adds their lines to those that are there. -/
theorem adds_ops (names : CodeNames) (os : List Op) : Adds (ops names os) :=
  (writes_ops names os).adds

end Writer

/-! ## Labels -/

/-- The labels of the counted loop with the given number. -/
def labelsOf (number : Nat) : List Text :=
  ["'loop_".toList ++ Nat.toDigits 10 number, "'body_".toList ++ Nat.toDigits 10 number]

theorem toDigits_injective {m n : Nat} (h : Nat.toDigits 10 m = Nat.toDigits 10 n) : m = n := by
  have hvalue := congrArg (Nat.ofDigitChars 10 · 0) h
  simpa only [Nat.ofDigitChars_ten_toDigits] using hvalue

theorem loopLabel_injective {m n : Nat} (h : loopLabel m = loopLabel n) : m = n :=
  toDigits_injective (List.append_cancel_left h)

theorem bodyLabel_injective {m n : Nat} (h : bodyLabel m = bodyLabel n) : m = n :=
  toDigits_injective (List.append_cancel_left h)

theorem loopLabel_ne_bodyLabel (m n : Nat) : loopLabel m ≠ bodyLabel n := by
  intro h
  have hloop : (loopLabel m)[1]? = some 'l' := rfl
  have hbody : (bodyLabel n)[1]? = some 'b' := rfl
  rw [h, hbody] at hloop
  cases hloop

theorem mem_labelsOf {label : Text} {number : Nat} :
    label ∈ labelsOf number ↔ label = loopLabel number ∨ label = bodyLabel number := by
  rw [labelsOf, List.mem_cons, List.mem_singleton]
  rfl

theorem nodup_labelsOf (number : Nat) : (labelsOf number).Nodup := by
  rw [labelsOf, List.nodup_cons, List.mem_singleton]
  exact ⟨loopLabel_ne_bodyLabel number number, List.nodup_singleton _⟩

/-- Counted loops with different numbers have no label in common. -/
theorem disjoint_labelsOf {m n : Nat} (h : m ≠ n) : (labelsOf m).Disjoint (labelsOf n) := by
  intro label hm hn
  rw [mem_labelsOf] at hm hn
  obtain rfl | rfl := hm <;> obtain heq | heq := hn
  · exact h (loopLabel_injective heq)
  · exact loopLabel_ne_bodyLabel m n heq
  · exact loopLabel_ne_bodyLabel n m heq.symm
  · exact h (bodyLabel_injective heq)

theorem nodup_labelsOf_range' (start count : Nat) :
    ((List.range' start count).flatMap labelsOf).Nodup :=
  List.nodup_flatMap.2 ⟨fun number _ => nodup_labelsOf number,
    List.Pairwise.imp disjoint_labelsOf List.nodup_range'⟩

namespace Construct

theorem allLabels_append (cs cs' : List Construct) :
    allLabels (cs ++ cs') = allLabels cs ++ allLabels cs' := by
  induction cs with
  | nil => rfl
  | cons c cs ih => simp only [List.cons_append, allLabels, ih, List.append_assoc]

theorem allLabels_lineFor {t written : Text} (ends : written.getLast? = some ';') :
    allLabels (lineFor t written ends) = [] := by
  unfold lineFor
  split <;> rfl

theorem labels_countedLoop (number : Nat) (init condition step : Text) (body : List Construct) :
    labels (countedLoop number init condition step body) = labelsOf number ++ allLabels body := by
  simp only [countedLoop, labels, allLabels, allLabels_append, allLabels_lineFor, List.append_nil]
  rfl

theorem labels_jump (target : Option Nat) (j : Jump) : labels (jump target j) = [] := by
  cases target <;> cases j <;> rfl

/-- The labels of so many loops that are numbered on from another number. -/
theorem flatMap_labelsOf_add (before count count' : Nat) :
    (List.range' (before + 1) (count + count')).flatMap labelsOf
      = (List.range' (before + 1) count).flatMap labelsOf
        ++ (List.range' (before + count + 1) count').flatMap labelsOf := by
  rw [← List.range'_append_1, List.flatMap_append, Nat.add_right_comm]

mutual

/-- The counted loops of an operation have the next numbers, in the order in which they begin. -/
theorem labels_ofOp (names : CodeNames) (before : Nat) (target : Option Nat) : ∀ o : Op,
    labels (ofOp names before target o)
      = (List.range' (before + 1) (Op.countedLoops o)).flatMap labelsOf
  | .text _ _ | .render _ _ | .declare _ | .call _ _ _ => rfl
  | .jump j => labels_jump target j
  | .branch chain => chainLabels_ofChain names before target chain
  | .loop kind header body => by
    simp only [ofOp, Op.countedLoops]
    cases kind.parts? header with
    | none => exact allLabels_ofOps names before none body
    | some parts =>
      have hbody := allLabels_ofOps names (before + 1) (some (before + 1)) body
      rw [labels_countedLoop, hbody]
      rfl

theorem allLabels_ofOps (names : CodeNames) (before : Nat) (target : Option Nat) :
    ∀ os : List Op, allLabels (ofOps names before target os)
      = (List.range' (before + 1) (Op.allCounted os)).flatMap labelsOf
  | [] => rfl
  | o :: os => by
    rw [ofOps, allLabels, labels_ofOp, allLabels_ofOps, Op.allCounted, flatMap_labelsOf_add]

theorem chainLabels_ofChain (names : CodeNames) (before : Nat) (target : Option Nat) :
    ∀ chain : Chain Text (List Op), chainLabels (ofChain names before target chain)
      = (List.range' (before + 1) (Op.chainCounted chain)).flatMap labelsOf
  | .done => rfl
  | .otherwise body => allLabels_ofOps names before target body
  | .arm _ body rest => by
    rw [ofChain, chainLabels, allLabels_ofOps, chainLabels_ofChain, Op.chainCounted,
      flatMap_labelsOf_add]

end

end Construct

end Code

/-- Jumps in the code of a procedure go to the innermost loop. The code is that of constructs which
are made with the innermost loop handed down, line by line and with four blanks for every block
that a line stands in: a `break` or a `continue` goes to the labels of that loop if it is counted,
and has none otherwise. Every construct closes the braces that it opens at the depth at which it
opened them, the counted loops are numbered in the order in which they begin, and no two labels are
the same. -/
theorem Procedure.code_eq_reference (names : CodeNames) (procedure : Procedure) :
    let constructs := Code.Construct.ofOps names 0 none procedure.ops
    let lines := Code.Construct.allLines 0 constructs
    let labels := Code.Construct.allLabels constructs
    (procedure.code names = lines.flatMap fun line =>
        List.replicate (4 * line.depth) ' ' ++ line.text ++ ['\n']) ∧
      Code.Line.Braced lines ∧
      labels = (List.range' 1 (Op.allCounted procedure.ops)).flatMap Code.labelsOf ∧
      labels.Nodup := by
  intro constructs lines labels
  have hlabels : labels = (List.range' 1 (Op.allCounted procedure.ops)).flatMap Code.labelsOf :=
    Code.Construct.allLabels_ofOps names 0 none procedure.ops
  refine ⟨?_, Code.Construct.braced_allLines constructs 0, hlabels, ?_⟩
  · have hwritten := Code.Writer.writes_ops names procedure.ops Code.Writer.empty
    rw [Procedure.code, hwritten, Code.Writer.code]
    show ((lines.reverse ++ []).reverse).flatMap Code.Line.written = _
    rw [List.append_nil, List.reverse_reverse]
    rfl
  · rw [hlabels]
    exact Code.nodup_labelsOf_range' 1 _

/-- A counted loop with a `while` loop and a branching in it, an `each` loop, and a counted loop
with nothing in its header. -/
theorem Procedure.code_eq_reference_nested :
    let branching : Op := .branch (.arm ['y'] [.jump .continues] (.otherwise [.jump .breaks]))
    let procedure : Procedure := ⟨.plain,
      [.loop .forLoop "i = 0; i < 3; i++".toList
        [.loop .whileLoop ['x'] [.jump .breaks], branching],
       .loop .forLoop "j in a".toList [.jump .continues],
       .loop .forLoop ";;".toList [.jump .breaks]]⟩
    let lines := Code.Construct.allLines 0 (Code.Construct.ofOps {} 0 none procedure.ops)
    let labels := Code.Construct.allLabels (Code.Construct.ofOps {} 0 none procedure.ops)
    procedure.code {} =
      ["\x7b",
       "    let mut i = 0;",
       "    'loop_1: while i < 3 \x7b",
       "        'body_1: \x7b",
       "            while x \x7b",
       "                break;",
       "            \x7d",
       "            if y \x7b",
       "                break 'body_1;",
       "            \x7d else \x7b",
       "                break 'loop_1;",
       "            \x7d",
       "        \x7d",
       "        i += 1;",
       "    \x7d",
       "\x7d",
       "for j in a \x7b",
       "    continue;",
       "\x7d",
       "\x7b",
       "    'loop_2: while true \x7b",
       "        'body_2: \x7b",
       "            break 'loop_2;",
       "        \x7d",
       "    \x7d",
       "\x7d"].flatMap (·.toList ++ ['\n']) ∧
      (procedure.code {} = lines.flatMap fun line =>
        List.replicate (4 * line.depth) ' ' ++ line.text ++ ['\n']) ∧
      Code.Line.Braced lines ∧
      labels = ["'loop_1".toList, "'body_1".toList, "'loop_2".toList, "'body_2".toList] := by
  intro branching procedure lines labels
  obtain ⟨hcode, hbraced, hlabels, -⟩ := code_eq_reference {} procedure
  exact ⟨by decide +kernel, hcode, hbraced, hlabels.trans (by decide +kernel)⟩

end Stencil
