import Stencil.Node.Basic

/-!
# Leaves of a syntax tree

The spans of a tree in the order in which they stand in the template. Literal text, code (whatever
is handed to the evaluator, and the names of called templates) and captured indentations are told
apart by a role.

This is the vocabulary in which trees are compared with their sources:

* `Leaf.Sound`: the span of one leaf fits the source.
* `Leaf.Ordered`: successive leaves stand one after another. Only an indentation shares its place
  with another leaf: it is the end of the text right before it.
* `Leaf.literal`: the literal text of all leaves.
-/

namespace Stencil

open Text

/-- There is something, and no white space at either end. -/
def Text.Tight (t : Text) : Prop :=
  t ≠ [] ∧ (∀ c ∈ t.head?, ¬isBlank c) ∧ ∀ c ∈ t.getLast?, ¬isBlank c

/-- What a span of a syntax tree is there for. -/
inductive Role
  | text
  | code
  | indentation
  deriving DecidableEq, Repr

/-- A span of a syntax tree. -/
structure Leaf where
  role : Role
  span : Span
  deriving DecidableEq, Repr

namespace Node

mutual

/-- The leaves of a node, in the order of the template. -/
def leaves : Node → List Leaf
  | text span => [⟨.text, span⟩]
  | output span => [⟨.code, span⟩]
  | declare span => [⟨.code, span⟩]
  | call name arguments leading =>
    (leading.toList.map (⟨.indentation, ·⟩)) ++ ⟨.code, name⟩ :: arguments.map (⟨.code, ·⟩)
  | branch condition body rest => ⟨.code, condition⟩ :: (allLeaves body ++ chainLeaves rest)
  | loop _ header body => ⟨.code, header⟩ :: allLeaves body
  | jump _ => []
  | noOp => []

/-- The leaves of the nodes of a body. -/
def allLeaves : List Node → List Leaf
  | [] => []
  | node :: nodes => leaves node ++ allLeaves nodes

/-- The leaves of the arms that follow a first one. -/
def chainLeaves : Chain Span (List Node) → List Leaf
  | .done => []
  | .otherwise body => allLeaves body
  | .arm condition body rest => ⟨.code, condition⟩ :: (allLeaves body ++ chainLeaves rest)

end

end Node

namespace Leaf

/-- The span lies in the source and between characters of it. Its text is not empty, no delimiter is
in it, and if it is code, no white space is at its ends. -/
structure Sound (source : Text) (leaf : Leaf) : Prop where
  ordered : leaf.span.start ≤ leaf.span.stop
  within : leaf.span.stop ≤ bytes source
  boundaries : ∃ before after, source = before ++ leaf.span.text source ++ after ∧
    leaf.span.start = bytes before ∧ leaf.span.stop = bytes (before ++ leaf.span.text source)
  nonempty : leaf.span.text source ≠ []
  clear : ∀ kind ∈ Kind.delimiters, ¬kind.literal <:+: leaf.span.text source
  tight : leaf.role = .code → (leaf.span.text source).Tight

/-- The leaves lie one after another between `start` and `stop`. An indentation lies in the text
right before it, which is `previous` for the first leaf, and ends with it. -/
def Ordered (start : Nat) (previous : Option Span) (stop : Nat) : List Leaf → Prop
  | [] => start ≤ stop
  | leaf :: leaves =>
    match leaf.role with
    | .text => start ≤ leaf.span.start ∧ Ordered leaf.span.stop (some leaf.span) stop leaves
    | .code => start ≤ leaf.span.start ∧ Ordered leaf.span.stop none stop leaves
    | .indentation =>
      (∃ text ∈ previous, text.start ≤ leaf.span.start ∧ leaf.span.stop = text.stop) ∧
        Ordered start none stop leaves

/-- Sound leaves in order. -/
structure Spread (source : Text) (start : Nat) (previous : Option Span) (stop : Nat)
    (leaves : List Leaf) : Prop where
  sound : ∀ leaf ∈ leaves, leaf.Sound source
  ordered : Ordered start previous stop leaves

/-- The literal text of the leaves. -/
def literal (source : Text) (leaves : List Leaf) : Text :=
  (leaves.filter (·.role = .text)).flatMap (·.span.text source)

variable {source : Text} {start start' mid stop stop' : Nat} {previous : Option Span}
  {leaf : Leaf} {leaves later : List Leaf}

@[simp] theorem literal_nil : literal source [] = [] := rfl

@[simp] theorem literal_append :
    literal source (leaves ++ later) = literal source leaves ++ literal source later := by
  simp [literal]

@[simp] theorem literal_text {span : Span} :
    literal source (⟨.text, span⟩ :: leaves) = span.text source ++ literal source leaves := by
  simp [literal]

@[simp] theorem literal_code {span : Span} :
    literal source (⟨.code, span⟩ :: leaves) = literal source leaves := by
  simp [literal]

/-- A call writes no literal text, though its indentation is a part of one. -/
theorem literal_call {name : Span} {arguments : List Span} {leading : Option Span} :
    literal source (Node.call name arguments leading).leaves = [] := by
  cases leading <;> simp [Node.leaves, literal, List.filter_map]

/-- There may be more room before the leaves, and a text. -/
theorem Ordered.weaken (h : Ordered start none stop leaves) (hstart : start' ≤ start) :
    Ordered start' previous stop leaves := by
  cases leaves with
  | nil => exact Nat.le_trans hstart h
  | cons leaf leaves =>
    obtain ⟨role, span⟩ := leaf
    cases role with
    | text => exact ⟨Nat.le_trans hstart h.1, h.2⟩
    | code => exact ⟨Nat.le_trans hstart h.1, h.2⟩
    | indentation =>
      obtain ⟨text, htext, -⟩ := h.1
      cases htext

/-- Leaves go on after others where these end. -/
theorem Ordered.append (h : Ordered start previous mid leaves) (h' : Ordered mid none stop later) :
    Ordered start previous stop (leaves ++ later) := by
  induction leaves generalizing start previous with
  | nil => exact h'.weaken h
  | cons leaf leaves ih =>
    obtain ⟨role, span⟩ := leaf
    cases role with
    | text => exact ⟨h.1, ih h.2⟩
    | code => exact ⟨h.1, ih h.2⟩
    | indentation => exact ⟨h.1, ih h.2⟩

namespace Spread

theorem nil (h : start ≤ stop) : Spread source start previous stop [] := ⟨by simp, h⟩

theorem weaken (h : Spread source start none stop leaves) (hstart : start' ≤ start) :
    Spread source start' previous stop leaves :=
  ⟨h.sound, h.ordered.weaken hstart⟩

theorem append (h : Spread source start previous mid leaves)
    (h' : Spread source mid none stop later) :
    Spread source start previous stop (leaves ++ later) where
  sound leaf hleaf := (List.mem_append.1 hleaf).elim (h.sound leaf) (h'.sound leaf)
  ordered := h.ordered.append h'.ordered

theorem widen (h : Spread source start previous stop leaves) (hstop : stop ≤ stop') :
    Spread source start previous stop' leaves :=
  List.append_nil leaves ▸ h.append (.nil hstop)

theorem text {span : Span} (hspan : Sound source ⟨.text, span⟩) (hstart : start ≤ span.start)
    (h : Spread source span.stop (some span) stop leaves) :
    Spread source start previous stop (⟨.text, span⟩ :: leaves) :=
  ⟨List.forall_mem_cons.2 ⟨hspan, h.sound⟩, hstart, h.ordered⟩

theorem code {span : Span} (hspan : Sound source ⟨.code, span⟩) (hstart : start ≤ span.start)
    (h : Spread source span.stop none stop leaves) :
    Spread source start previous stop (⟨.code, span⟩ :: leaves) :=
  ⟨List.forall_mem_cons.2 ⟨hspan, h.sound⟩, hstart, h.ordered⟩

theorem indentation {span text : Span} (hspan : Sound source ⟨.indentation, span⟩)
    (hstart : text.start ≤ span.start) (hstop : span.stop = text.stop)
    (h : Spread source start none stop leaves) :
    Spread source start (some text) stop (⟨.indentation, span⟩ :: leaves) :=
  ⟨List.forall_mem_cons.2 ⟨hspan, h.sound⟩, ⟨text, rfl, hstart, hstop⟩, h.ordered⟩

end Spread

end Leaf

end Stencil
