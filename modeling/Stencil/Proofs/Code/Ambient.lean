import Stencil.Proofs.Code.Innermost

/-!
# Plain code does not name the ambient indentation

Two of the names in generated code, the parameter that holds the ambient indentation and the path of
the function that puts it into a text, are written only where an operation asks for the ambient
indentation (`Op.readsAmbient`). All other operations are written the same whatever these two names
are (`Code.Writer.ops_congr`), and in the plain mode a tree becomes such operations alone
(`Node.anyReadsAmbient_lowerAll`). That holds although plain code may call indented functions: where
blanks stand before a call, what the indented function is handed is these blanks.

Main statement: `Node.functions_plain_congr`.
-/

namespace Stencil

/-! ## Operations that ask for the ambient indentation -/

namespace Op

mutual

/-- Whether an operation, or one inside it, asks for the ambient indentation. -/
def readsAmbient : Op → Bool
  | .text _ isIndented | .render _ isIndented => isIndented
  | .call _ _ indent => indent.ambient
  | .branch chain => chainReadsAmbient chain
  | .loop _ _ body => anyReadsAmbient body
  | .declare _ | .jump _ => false

def anyReadsAmbient : List Op → Bool
  | [] => false
  | o :: os => readsAmbient o || anyReadsAmbient os

def chainReadsAmbient : Chain Text (List Op) → Bool
  | .done => false
  | .otherwise body => anyReadsAmbient body
  | .arm _ body rest => anyReadsAmbient body || chainReadsAmbient rest

end

end Op

namespace Node

mutual

/-- In the plain mode no node becomes an operation that asks for the ambient indentation. -/
theorem readsAmbient_lower (source : Text) : ∀ (node : Node), ∀ o ∈ node.lower source .plain,
    o.readsAmbient = false
  | .text _, _, rfl | .output _, _, rfl | .declare _, _, rfl | .jump _, _, rfl => rfl
  | .call _ _ _, _, rfl => rfl
  | .branch _ body rest, _, rfl => by
    simp only [Op.readsAmbient, Op.chainReadsAmbient, anyReadsAmbient_lowerAll source body,
      chainReadsAmbient_lowerChain source rest, Bool.or_false]
  | .loop _ _ body, _, rfl => anyReadsAmbient_lowerAll source body

theorem anyReadsAmbient_lowerAll (source : Text) : ∀ nodes : List Node,
    Op.anyReadsAmbient (lowerAll source .plain nodes) = false
  | [] => rfl
  | node :: nodes => by
    have hnodes := anyReadsAmbient_lowerAll source nodes
    have hnode := readsAmbient_lower source node
    rw [lowerAll]
    cases hlower : node.lower source .plain with
    | none => exact hnodes
    | some o => simp only [Op.anyReadsAmbient, hnode o hlower, hnodes, Bool.or_false]

theorem chainReadsAmbient_lowerChain (source : Text) : ∀ chain : Chain Span (List Node),
    Op.chainReadsAmbient (lowerChain source .plain chain) = false
  | .done => rfl
  | .otherwise body => anyReadsAmbient_lowerAll source body
  | .arm _ body rest => by
    simp only [lowerChain, Op.chainReadsAmbient, anyReadsAmbient_lowerAll source body,
      chainReadsAmbient_lowerChain source rest, Bool.or_false]

end

end Node

/-! ## Code under two choices of names -/

/-- The names are the same, but for those of the ambient indentation and of where the function that
indents is found. -/
structure CodeNames.Agree (names names' : CodeNames) : Prop where
  builder : names.builder = names'.builder
  indentedSuffix : names.indentedSuffix = names'.indentedSuffix

namespace Code

variable {names names' : CodeNames}

theorem append_congr (hnames : names.Agree names') (value : Text) :
    append names value = append names' value := by
  rw [append, append, hnames.builder]

/-- The ambient indentation is named in a call only if it is handed over. -/
theorem callIndent_congr {indent : CallIndent} (h : indent.ambient = false) :
    callIndent names indent = callIndent names' indent := by
  simp only [callIndent, h, Bool.not_false, if_true]

theorem call_congr (hnames : names.Agree names') (name : Text) (arguments : List Text)
    {indent : CallIndent} (h : indent.ambient = false) :
    call names name arguments indent = call names' name arguments indent := by
  have hindent : callIndent names indent = callIndent names' indent := callIndent_congr h
  rw [call, call, hnames.builder, hnames.indentedSuffix, hindent]

namespace Writer

mutual

/-- An operation that does not ask for the ambient indentation is written the same under names that
agree. -/
theorem op_congr (hnames : names.Agree names') : ∀ o : Op, o.readsAmbient = false →
    op names o = op names' o
  | .text t isIndented, h => by
    obtain rfl : isIndented = false := h
    funext w
    exact congrArg w.line (append_congr hnames (Text.quoted t))
  | .render e isIndented, h => by
    obtain rfl : isIndented = false := h
    funext w
    exact congrArg w.line (append_congr hnames (rendered e))
  | .declare _, _ | .jump _, _ => rfl
  | .call name arguments indent, h => by
    funext w
    exact congrArg w.line (call_congr hnames name arguments h)
  | .branch chain, h => arms_congr hnames chain h "if ".toList
  | .loop kind header body, h => by
    have hbody : ops names body = ops names' body := ops_congr hnames body h
    funext w
    exact congrArg (w.loop kind header) hbody

theorem ops_congr (hnames : names.Agree names') : ∀ os : List Op,
    Op.anyReadsAmbient os = false → ops names os = ops names' os
  | [], _ => rfl
  | o :: os, h => by
    obtain ⟨ho, hos⟩ := Bool.or_eq_false_iff.1 h
    funext w
    rw [ops, ops, op_congr hnames o ho, ops_congr hnames os hos]

theorem arms_congr (hnames : names.Agree names') : ∀ chain : Chain Text (List Op),
    Op.chainReadsAmbient chain = false → ∀ head : Text,
      arms names head chain = arms names' head chain
  | .done, _, _ => rfl
  | .otherwise body, h, _ => by
    have hbody : ops names body = ops names' body := ops_congr hnames body h
    funext w
    exact congrArg (fun write => ((w.opening "\x7d else".toList).nested write).closing) hbody
  | .arm condition body rest, h, head => by
    obtain ⟨hfirst, hlater⟩ := Bool.or_eq_false_iff.1 h
    have hbody : ops names body = ops names' body := ops_congr hnames body hfirst
    have hrest := arms_congr hnames rest hlater "\x7d else if ".toList
    funext w
    show arms names "\x7d else if ".toList rest
        ((w.opening (head ++ condition)).nested (ops names body))
      = arms names' "\x7d else if ".toList rest
        ((w.opening (head ++ condition)).nested (ops names' body))
    rw [hbody, hrest]

end

/-- A block that is all there is: the line that opens it, what stands in it, and a brace. -/
theorem code_block {body : Writer → Writer} (hbody : Adds body) (head : Text) :
    ∃ inner : Text, ((empty.opening head).nested body).closing.code
      = head ++ " \x7b\n".toList ++ inner ++ "\x7d\n".toList := by
  let opened : Writer := empty.opening head
  have hgrows : opened.Grows (opened.nested body) := hbody.nested opened
  obtain ⟨later, hlater⟩ := hgrows.lines
  have hlines : (opened.nested body).lines = later ++ [⟨0, head ++ " \x7b".toList⟩] := hlater
  have hdepth : (opened.nested body).depth = 0 := hgrows.depth
  refine ⟨later.reverse.flatMap Line.written, ?_⟩
  show (⟨(opened.nested body).depth, ['\x7d']⟩ :: (opened.nested body).lines).reverse.flatMap
    Line.written = _
  rw [hdepth, hlines]
  simp [Line.written]

end Writer

end Code

open Code

namespace Node

variable {names names' : CodeNames}

/-- Whatever is around it, a tree is written the same in the plain mode under names that agree. -/
theorem ops_plain_congr (hnames : names.Agree names') (source : Text) (nodes : List Node) :
    Writer.ops names (Procedure.ofNodes source .plain nodes).ops
      = Writer.ops names' (Procedure.ofNodes source .plain nodes).ops :=
  Writer.ops_congr hnames _ (anyReadsAmbient_lowerAll source nodes)

theorem function_plain_congr (hnames : names.Agree names') (name : Text)
    (parameters : List (Text × Text)) (source : Text) (nodes : List Node) :
    function names name parameters source .plain nodes
      = function names' name parameters source .plain nodes := by
  simp only [function, hnames.builder, ops_plain_congr hnames source nodes]

/-- The head of a function whose parameters are the builder and the declared ones, and no other. -/
def plainHead (names : CodeNames) (name : Text) (parameters : List (Text × Text)) : Text :=
  "pub fn ".toList ++ name ++ ['('] ++ names.builder ++ ": &mut String".toList
    ++ (parameters.flatMap fun (name, type) => ", ".toList ++ name ++ ": ".toList ++ type) ++ [')']

theorem function_plain_eq (names : CodeNames) (name : Text) (parameters : List (Text × Text))
    (source : Text) (nodes : List Node) :
    ∃ body : Text, function names name parameters source .plain nodes
      = plainHead names name parameters ++ " \x7b\n".toList ++ body ++ "\x7d\n".toList := by
  -- A plain function has an empty suffix and nothing after the declared parameters. This is said of
  -- variables, since Lean would have to evaluate the texts to see that they are not empty.
  have hempty : ∀ start builder type declared : Text,
      start ++ [] ++ ['('] ++ builder ++ type ++ declared ++ [] ++ [')']
        = start ++ ['('] ++ builder ++ type ++ declared ++ [')'] := by
    intro start builder type declared
    rw [List.append_nil, List.append_nil]
  have hops := Writer.adds_ops names (Procedure.ofNodes source .plain nodes).ops
  obtain ⟨body, hbody⟩ := Writer.code_block hops (plainHead names name parameters)
  have hhead := hempty ("pub fn ".toList ++ name) names.builder ": &mut String".toList
    (parameters.flatMap fun (name, type) => ", ".toList ++ name ++ ": ".toList ++ type)
  have hfunction : function names name parameters source .plain nodes
      = ((Writer.empty.opening (plainHead names name parameters)).nested
          (Writer.ops names (Procedure.ofNodes source .plain nodes).ops)).closing.code :=
    congrArg (fun head => ((Writer.empty.opening head).nested
      (Writer.ops names (Procedure.ofNodes source .plain nodes).ops)).closing.code) hhead
  exact ⟨body, hfunction.trans hbody⟩

/-- Plain code does not depend on the name of the ambient indentation, nor on the path of the
function that puts it into a text: under two choices of names with the same builder and the same
suffix, the code of a tree in the plain mode is the same. So the two pairs of functions that render
the tree begin with the same plain function, and it has no parameter for an indentation. -/
theorem functions_plain_congr (hbuilder : names.builder = names'.builder)
    (hsuffix : names.indentedSuffix = names'.indentedSuffix) (source : Text) (nodes : List Node) :
    code names source .plain nodes = code names' source .plain nodes ∧
      ∀ (name : Text) (parameters : List (Text × Text)), ∃ body : Text,
        let plain := plainHead names name parameters ++ " \x7b\n".toList ++ body
          ++ "\x7d\n".toList
        functions names name parameters source nodes
            = plain ++ function names name parameters source .indented nodes ∧
          functions names' name parameters source nodes
            = plain ++ function names' name parameters source .indented nodes := by
  have hnames : names.Agree names' := ⟨hbuilder, hsuffix⟩
  constructor
  · have hops := ops_plain_congr hnames source nodes
    rw [code, code, Procedure.code, Procedure.code, hops]
  · intro name parameters
    obtain ⟨body, hbody⟩ := function_plain_eq names name parameters source nodes
    have hsame := function_plain_congr hnames name parameters source nodes
    refine ⟨body, ?_, ?_⟩
    · rw [functions, hbody]
    · rw [functions, ← hsame, hbody]

/-- In a loop and a branch, a call after blanks and one without: the indented code differs, since it
names the indentation, and the plain code does not. -/
theorem functions_plain_congr_captured :
    let names : CodeNames := {}
    let other : CodeNames := { whitespace := "margin".toList, runtimePath := "runtime".toList }
    let source := "c m  \n".toList
    let nodes : List Node := [.loop .whileLoop ⟨0, 1⟩
      [.branch ⟨0, 1⟩ [.text ⟨5, 6⟩, .call ⟨2, 3⟩ [] (some ⟨3, 5⟩)]
        (.otherwise [.call ⟨2, 3⟩ [] none, .output ⟨0, 1⟩])]]
    code names source .indented nodes ≠ code other source .indented nodes ∧
      code names source .plain nodes = code other source .plain nodes ∧
      ∃ body : Text,
        let plain := plainHead names ['t'] [] ++ " \x7b\n".toList ++ body ++ "\x7d\n".toList
        functions names ['t'] [] source nodes
            = plain ++ function names ['t'] [] source .indented nodes ∧
          functions other ['t'] [] source nodes
            = plain ++ function other ['t'] [] source .indented nodes := by
  intro names other source nodes
  have hplain := @functions_plain_congr names other rfl rfl source nodes
  exact ⟨by decide, hplain.1, hplain.2 ['t'] []⟩

end Node

end Stencil
