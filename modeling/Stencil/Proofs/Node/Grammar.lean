import Stencil.Node.Parse

/-!
# The grammar of templates

A declarative grammar of the token lists that are templates, each with the tree that it stands for.
The phrases of the grammar are bodies, statements and the arms after the first one of a branching;
they carry what they depend on, which is how many bodies they stand in and what text comes right
before them, and the tree that they derive. A text node is a run of text tokens that no other text
token can extend: no rule adds a run right after a run. What a block is depends on its first word,
which is looked up in a list of words (`directives`).

Nothing here is computed. That reading a template and deriving it come to the same is the subject of
`Stencil.Proofs.Node.Reading`.
-/

namespace Stencil

namespace Nesting

/-- The nesting after the characters of a text. -/
def after (nesting : Nesting) (t : Text) : Nesting := t.foldl step nesting

/-- The parenthesis that follows `inner` is the first one that leads back to the top level. -/
def Closes (nesting : Nesting) (inner : Text) : Prop :=
  nesting.after (inner ++ [')']) = outside 0 ∧
    ∀ front back, inner = front ++ ')' :: back → nesting.after (front ++ [')']) ≠ outside 0

end Nesting

namespace Span

/-- The span reads `Name(arguments)`. The first parenthesis is closed by the last character, the
name is not blank, and the arguments are what stands between the commas at the top level, as far as
it is not blank. -/
def IsCall (source : Text) (span name : Span) (arguments : List Span) : Prop :=
  ∃ before inner,
    span.text source = before ++ '(' :: (inner ++ [')']) ∧ '(' ∉ before ∧
      (Nesting.outside 1).Closes inner ∧
      name = trim source ⟨span.start, span.start + Text.bytes before⟩ ∧ ¬name.isEmpty ∧
      arguments = ((Nesting.ranges ',' (span.start + Text.bytes before + 1)
        (Nesting.split ',' inner)).map fun (start, stop) => trim source ⟨start, stop⟩).filter
          (!·.isEmpty)

end Span

/-! ## Blocks -/

/-- The words that make a block a directive, each with the directive. -/
def directives : List (String × Keyword) :=
  [("var", .declare), ("call", .call), ("if", .branch), ("elseif", .elseIf), ("else", .otherwise),
   ("for", .loop .forLoop), ("foreach", .loop .foreachLoop), ("while", .loop .whileLoop),
   ("break", .jump .breaks), ("continue", .jump .continues), ("return", .jump .returns),
   ("end", .close)]

/-- What a first word makes of a block: a directive, or an expression if there is none with this
word. -/
def Selects (t : Text) : Option Keyword → Prop
  | some keyword => ∃ word, (word, keyword) ∈ directives ∧ t = word.toList
  | none => ∀ word keyword, (word, keyword) ∈ directives → t ≠ word.toList

theorem mem_directives_iff {word : String} {keyword : Keyword} :
    (word, keyword) ∈ directives ↔ word = keyword.spelling := by
  constructor
  · intro h
    have hall : ∀ directive ∈ directives, directive.1 = directive.2.spelling := by decide
    exact hall _ h
  · rintro rfl
    rcases keyword with _ | _ | _ | _ | _ | (_ | _ | _) | (_ | _ | _) | _ <;> decide

/-- Reading the first word is the same as looking it up in the list. -/
theorem selects_iff {t : Text} {keyword : Option Keyword} :
    Selects t keyword ↔ Keyword.ofText? t = keyword := by
  cases keyword with
  | some keyword =>
    rw [Keyword.ofText?_eq_some_iff]
    constructor
    · rintro ⟨word, hword, rfl⟩
      rw [mem_directives_iff.1 hword]
    · exact fun h => ⟨keyword.spelling, mem_directives_iff.2 rfl, h⟩
  | none =>
    rw [Option.eq_none_iff_forall_ne_some]
    constructor
    · intro h keyword hkeyword
      exact h _ keyword (mem_directives_iff.2 rfl) (Keyword.ofText?_eq_some_iff.1 hkeyword)
    · intro h word keyword hword ht
      refine h keyword (Keyword.ofText?_eq_some_iff.2 ?_)
      rw [ht, mem_directives_iff.1 hword]

namespace Block

/-- The tokens of a block, in order. -/
def tokens (block : Block) : List Token :=
  block.enter :: (block.lead ++ block.identifier :: (block.more ++ [block.exit]))

/-- An enter, text tokens of which the first raw one is the identifier, and an exit of the same
family. -/
structure Formed (block : Block) : Prop where
  enter : block.enter.kind.isEnter
  lead : ∀ token ∈ block.lead, token.kind.isText ∧ token.kind ≠ .raw
  identifier : block.identifier.kind = .raw
  more : ∀ token ∈ block.more, token.kind.isText
  exit : block.exit.kind.isExit
  family : block.exit.kind.family? = block.enter.kind.family?

/-- Everything between the delimiters is text. -/
theorem Formed.isText {block : Block} (h : block.Formed) :
    ∀ token ∈ block.lead ++ block.identifier :: block.more, token.kind.isText := by
  intro token htoken
  rw [List.mem_append, List.mem_cons] at htoken
  rcases htoken with hlead | rfl | hmore
  · exact (h.lead token hlead).1
  · rw [h.identifier]
    rfl
  · exact h.more token hmore

/-- A formed block that its identifier makes a `keyword`, or an expression if there is none. -/
def Reads (source : Text) (keyword : Option Keyword) (block : Block) : Prop :=
  block.Formed ∧ Selects (block.identifier.text source) keyword

theorem reads_iff {source : Text} {keyword : Option Keyword} {block : Block} :
    block.Reads source keyword ↔ block.Formed ∧ block.keyword? source = keyword :=
  and_congr_right fun _ => selects_iff

theorem Formed.reads {source : Text} {keyword : Option Keyword} {block : Block}
    (h : block.Formed) (hkeyword : block.keyword? source = keyword) :
    block.Reads source keyword :=
  reads_iff.2 ⟨h, hkeyword⟩

theorem Reads.keyword?_eq {source : Text} {keyword : Option Keyword} {block : Block}
    (h : block.Reads source keyword) : block.keyword? source = keyword :=
  (reads_iff.1 h).2

/-- The identifier is all that the block holds. -/
def Bare (block : Block) : Prop := ∀ token ∈ block.more, token.kind ≠ .raw

theorem isBare_iff (block : Block) : block.isBare ↔ block.Bare := by
  simp [isBare, Bare]

end Block

/-- What the grammar derives. `depth` counts the bodies around a phrase, and `previous` is the span
of the text that comes right before it in its body. -/
inductive Phrase
  | body (depth : Nat) (previous : Option Span) (nodes : List Node)
  | statement (depth : Nat) (previous : Option Span) (node : Node)
  | arms (depth : Nat) (chain : Chain Span (List Node))

/-- The tokens that a phrase may be written with, if bodies nest at most `limit` deep. -/
inductive Derives (source : Text) (limit : Nat) : Phrase → List Token → Prop
  /-- A body ends. -/
  | nothing {depth : Nat} {previous : Option Span} :
      Derives source limit (.body depth previous []) []
  /-- A body goes on with a run of text tokens. -/
  | text {depth : Nat} {first : Token} {rest tokens : List Token} {nodes : List Node} :
      (∀ token ∈ first :: rest, token.kind.isText) →
      Derives source limit
        (.body depth (some (.covering source first (rest.getLastD first))) nodes) tokens →
      Derives source limit
        (.body depth none (.text (.covering source first (rest.getLastD first)) :: nodes))
        (first :: rest ++ tokens)
  /-- A body goes on with a statement. -/
  | statement {depth : Nat} {previous : Option Span} {node : Node} {nodes : List Node}
      {tokens later : List Token} :
      Derives source limit (.statement depth previous node) tokens →
      Derives source limit (.body depth none nodes) later →
      Derives source limit (.body depth previous (node :: nodes)) (tokens ++ later)
  | output {depth : Nat} {previous : Option Span} {block : Block} :
      block.Reads source none →
      Derives source limit (.statement depth previous (.output (block.content source))) block.tokens
  | declare {depth : Nat} {previous : Option Span} {block : Block} :
      block.Reads source (some .declare) → ¬block.Bare →
      Derives source limit (.statement depth previous (.declare (block.remainder source)))
        block.tokens
  /-- A call has something after its keyword, and that reads `Name(arguments)`. -/
  | call {depth : Nat} {previous : Option Span} {block : Block} {name : Span}
      {arguments : List Span} :
      block.Reads source (some .call) → ¬block.Bare →
      (block.remainder source).IsCall source name arguments →
      Derives source limit
        (.statement depth previous
          (.call name arguments (previous.bind (Span.indentation? source))))
        block.tokens
  | jump {depth : Nat} {previous : Option Span} {block : Block} {jump : Jump} :
      block.Reads source (some (.jump jump)) → block.Bare →
      Derives source limit (.statement depth previous (.jump jump)) block.tokens
  | branch {depth : Nat} {previous : Option Span} {block : Block} {nodes : List Node}
      {chain : Chain Span (List Node)} {tokens later : List Token} :
      block.Reads source (some .branch) → ¬block.Bare → depth < limit →
      Derives source limit (.body (depth + 1) none nodes) tokens →
      Derives source limit (.arms depth chain) later →
      Derives source limit
        (.statement depth previous (.branch (block.remainder source) nodes chain))
        (block.tokens ++ tokens ++ later)
  | loop {depth : Nat} {previous : Option Span} {kind : LoopKind} {block last : Block}
      {nodes : List Node} {tokens : List Token} :
      block.Reads source (some (.loop kind)) → ¬block.Bare → depth < limit →
      Derives source limit (.body (depth + 1) none nodes) tokens →
      last.Reads source (some .close) → last.Bare →
      Derives source limit
        (.statement depth previous (.loop kind (block.remainder source) nodes))
        (block.tokens ++ tokens ++ last.tokens)
  /-- No arm follows, but the end. -/
  | done {depth : Nat} {last : Block} :
      last.Reads source (some .close) → last.Bare →
      Derives source limit (.arms depth .done) last.tokens
  /-- The arm without a condition follows, and after it the end. -/
  | otherwise {depth : Nat} {block last : Block} {nodes : List Node} {tokens : List Token} :
      block.Reads source (some .otherwise) → block.Bare →
      Derives source limit (.body (depth + 1) none nodes) tokens →
      last.Reads source (some .close) → last.Bare →
      Derives source limit (.arms depth (.otherwise nodes)) (block.tokens ++ tokens ++ last.tokens)
  /-- An arm with a condition follows, and then the others. -/
  | arm {depth : Nat} {block : Block} {nodes : List Node} {chain : Chain Span (List Node)}
      {tokens later : List Token} :
      block.Reads source (some .elseIf) → ¬block.Bare →
      Derives source limit (.body (depth + 1) none nodes) tokens →
      Derives source limit (.arms depth chain) later →
      Derives source limit (.arms depth (.arm (block.remainder source) nodes chain))
        (block.tokens ++ tokens ++ later)

end Stencil
