import Stencil.Proofs.Node.CallForm
import Stencil.Proofs.Node.Items

/-!
# Reading a template is deriving it

The trees that are read from a token list are those that the grammar derives from it.

Soundness goes through the run from its end. What a template read in part still demands of the
tokens to come is written down as `Completes`: the innermost body has to be finished, then the
construct that it belongs to, and so on outward. Taking an item keeps that (`completes_of_item`), so
a run that succeeds has a derivation behind it (`completes_of_run`).

Completeness is an induction on the derivation. A derived phrase has items that the run takes from
any state that fits, and they add to the innermost body what the phrase derives (`Phrase.Runs`).

* `completes_of_run`: a run that succeeds completes the template read so far.
* `runs_of_derives`: what is derived runs.
* `Node.parse_eq_ok_iff`: both together, for whole templates.
-/

namespace Stencil

/-- The span of the text that comes right after the nodes, which are given latest first. -/
def Node.lastText? : List Node → Option Span
  | .text span :: _ => some span
  | _ => none

theorem Node.lastText?_cons {node : Node} (h : Node.lastText? [node] = none) (nodes : List Node) :
    Node.lastText? (node :: nodes) = none := by
  cases node <;> first | rfl | cases h

namespace Construct

/-- The tokens close a construct whose last body is `nodes`, and make it the node. -/
def Closes (source : Text) (limit depth : Nat) (nodes : List Node) :
    Construct → List Token → Node → Prop
  | .loop kind header, tokens, node =>
    ∃ last : Block, last.Reads source (some .close) ∧ last.Bare ∧ tokens = last.tokens ∧
      node = .loop kind header nodes
  | .arm finished condition, tokens, node =>
    ∃ chain, Derives source limit (.arms depth chain) tokens ∧
      node = .ofArms (condition, nodes) finished chain
  | .otherwise previous finished, tokens, node =>
    ∃ last : Block, last.Reads source (some .close) ∧ last.Bare ∧ tokens = last.tokens ∧
      node = .ofArms previous finished (.otherwise nodes)

end Construct

/-- The tokens complete the open bodies, of which the innermost has the given nodes so far, latest
first, and make the template the tree. -/
def Completes (source : Text) (limit : Nat) :
    List Node → List Frame → List Token → List Node → Prop
  | nodes, [], tokens, tree =>
    ∃ found, Derives source limit (.body 0 (Node.lastText? nodes) found) tokens ∧
      tree = nodes.reverse ++ found
  | nodes, ⟨construct, before⟩ :: frames, tokens, tree =>
    ∃ found node inner closing rest, tokens = inner ++ closing ++ rest ∧
      Derives source limit (.body (frames.length + 1) (Node.lastText? nodes) found) inner ∧
      construct.Closes source limit frames.length (nodes.reverse ++ found) closing node ∧
      Completes source limit (node :: before) frames rest tree

variable {source : Text} {limit : Nat}

/-! ## Soundness -/

/-- A node may be put before what completes a body if it may be put before what derives one. -/
theorem Completes.cons {node : Node} {nodes : List Node} {frames : List Frame}
    {tokens later : List Token} {tree : List Node}
    (hnode : ∀ found inner,
      Derives source limit (.body frames.length (Node.lastText? (node :: nodes)) found) inner →
      Derives source limit (.body frames.length (Node.lastText? nodes) (node :: found))
        (tokens ++ inner))
    (h : Completes source limit (node :: nodes) frames later tree) :
    Completes source limit nodes frames (tokens ++ later) tree := by
  cases frames with
  | nil =>
    obtain ⟨found, hfound, rfl⟩ := h
    exact ⟨node :: found, hnode _ _ hfound, by simp⟩
  | cons frame frames =>
    obtain ⟨found, node', inner, closing, rest, rfl, hfound, hclosing, hrest⟩ := h
    refine ⟨node :: found, node', tokens ++ inner, closing, rest, by simp, hnode _ _ hfound, ?_,
      hrest⟩
    simpa using hclosing

/-- A derived statement may be put before what completes a body. -/
theorem Completes.statement {node : Node} {nodes : List Node} {frames : List Frame}
    {tokens later : List Token} {tree : List Node}
    (hstatement : Derives source limit
      (.statement frames.length (Node.lastText? nodes) node) tokens)
    (hnode : Node.lastText? [node] = none)
    (h : Completes source limit (node :: nodes) frames later tree) :
    Completes source limit nodes frames (tokens ++ later) tree := by
  refine h.cons fun found inner hfound => .statement hstatement ?_
  rwa [Node.lastText?_cons hnode] at hfound

section Block

variable {block : Block} {progress next : Progress} {later : List Token} {tree : List Node}

theorem not_bare_of {b : Block} (h : ¬b.isBare) : ¬b.Bare := fun hbare => h (b.isBare_iff.2 hbare)

/-- A call that is taken. -/
theorem completes_of_call (hreads : block.Reads source (some .call))
    (hstep : progress.call? source block = .ok next)
    (h : Completes source limit next.nodes next.frames later tree) :
    Completes source limit progress.nodes progress.frames (block.tokens ++ later) tree := by
  unfold Progress.call? at hstep
  split at hstep
  · cases hstep
  rename_i hbare
  split at hstep
  · cases hstep
  rename_i name arguments hcall
  cases hstep
  -- The indentation that is looked for is that of the text right before, if there is one.
  have h' : Completes source limit
      (.call name arguments ((Node.lastText? progress.nodes).bind (Span.indentation? source))
        :: progress.nodes) progress.frames later tree := by
    obtain ⟨_ | ⟨node, nodes⟩, frames⟩ := progress
    · exact h
    · cases node <;> exact h
  exact h'.statement (.call hreads (not_bare_of hbare) (Span.call?_eq_some_iff.1 hcall)) rfl

/-- A branching that is opened. -/
theorem completes_of_branch (hreads : block.Reads source (some .branch)) (hbare : ¬block.Bare)
    (hstep : progress.open? source limit block (.arm [] (block.remainder source)) = .ok next)
    (h : Completes source limit next.nodes next.frames later tree) :
    Completes source limit progress.nodes progress.frames (block.tokens ++ later) tree := by
  unfold Progress.open? at hstep
  split at hstep
  · cases hstep
  rename_i hlimit
  cases hstep
  obtain ⟨found, _, inner, closing, rest, rfl, hfound, ⟨chain, hchain, rfl⟩, hrest⟩ := h
  have hbranch : Derives source limit (.statement progress.frames.length
      (Node.lastText? progress.nodes) (.branch (block.remainder source) found chain))
      (block.tokens ++ inner ++ closing) :=
    .branch hreads hbare (by omega) hfound hchain
  simpa using Completes.statement hbranch rfl hrest

/-- A loop that is opened. -/
theorem completes_of_loop {kind : LoopKind} (hreads : block.Reads source (some (.loop kind)))
    (hbare : ¬block.Bare)
    (hstep : progress.open? source limit block (.loop kind (block.remainder source)) = .ok next)
    (h : Completes source limit next.nodes next.frames later tree) :
    Completes source limit progress.nodes progress.frames (block.tokens ++ later) tree := by
  unfold Progress.open? at hstep
  split at hstep
  · cases hstep
  rename_i hlimit
  cases hstep
  obtain ⟨found, _, inner, _, rest, rfl, hfound, ⟨last, hlast, hlastBare, rfl, rfl⟩, hrest⟩ := h
  have hloop : Derives source limit (.statement progress.frames.length
      (Node.lastText? progress.nodes) (.loop kind (block.remainder source) found))
      (block.tokens ++ inner ++ last.tokens) :=
    .loop hreads hbare (by omega) hfound hlast hlastBare
  simpa using Completes.statement hloop rfl hrest

/-- What completes a construct completes the open body that belongs to it, once that body ends. -/
theorem Completes.close {construct : Construct} {nodes before : List Node} {frames : List Frame}
    {node : Node} {closing : List Token}
    (hclosing : construct.Closes source limit frames.length nodes.reverse closing node)
    (h : Completes source limit (node :: before) frames later tree) :
    Completes source limit nodes (⟨construct, before⟩ :: frames) (closing ++ later) tree :=
  ⟨[], node, [], closing, later, by simp, .nothing, by simpa using hclosing, h⟩

/-- An arm with a condition that is begun after another one. -/
theorem completes_of_elseIf (hreads : block.Reads source (some .elseIf))
    (hstep : progress.elseIf? source block = .ok next)
    (h : Completes source limit next.nodes next.frames later tree) :
    Completes source limit progress.nodes progress.frames (block.tokens ++ later) tree := by
  obtain ⟨nodes, frames⟩ := progress
  unfold Progress.elseIf? at hstep
  split at hstep
  · rename_i finished condition before frames hframes
    obtain rfl := hframes
    split at hstep
    · cases hstep
    rename_i hbare
    cases hstep
    obtain ⟨found, _, inner, closing, rest, rfl, hfound, ⟨chain, hchain, rfl⟩, hrest⟩ := h
    have hclosing : (Construct.arm finished condition).Closes source limit frames.length
        nodes.reverse (block.tokens ++ inner ++ closing)
        (.ofArms (condition, nodes.reverse) finished (.arm (block.remainder source) found chain)) :=
      ⟨_, .arm hreads (not_bare_of hbare) hfound hchain, rfl⟩
    simpa using Completes.close hclosing hrest
  · cases hstep
  · cases hstep

/-- The arm without a condition that is begun. -/
theorem completes_of_otherwise (hreads : block.Reads source (some .otherwise))
    (hstep : progress.otherwise? source block = .ok next)
    (h : Completes source limit next.nodes next.frames later tree) :
    Completes source limit progress.nodes progress.frames (block.tokens ++ later) tree := by
  obtain ⟨nodes, frames⟩ := progress
  unfold Progress.otherwise? at hstep
  split at hstep
  · cases hstep
  rename_i construct before frames hframes
  obtain rfl := hframes
  split at hstep
  · cases hstep
  rename_i hbare
  split at hstep
  · rename_i finished condition
    cases hstep
    obtain ⟨found, _, inner, _, rest, rfl, hfound, ⟨last, hlast, hlastBare, rfl, rfl⟩, hrest⟩ := h
    have hclosing : (Construct.arm finished condition).Closes source limit frames.length
        nodes.reverse (block.tokens ++ inner ++ last.tokens)
        (.ofArms (condition, nodes.reverse) finished (.otherwise found)) :=
      ⟨_, .otherwise hreads (block.isBare_iff.1 (by simpa using hbare)) hfound hlast hlastBare, rfl⟩
    simpa using Completes.close hclosing hrest
  · cases hstep
  · cases hstep

/-- A construct that is closed. -/
theorem completes_of_close (hreads : block.Reads source (some .close))
    (hstep : progress.close? source block = .ok next)
    (h : Completes source limit next.nodes next.frames later tree) :
    Completes source limit progress.nodes progress.frames (block.tokens ++ later) tree := by
  obtain ⟨nodes, frames⟩ := progress
  unfold Progress.close? at hstep
  split at hstep
  · cases hstep
  rename_i construct before frames hframes
  obtain rfl := hframes
  split at hstep
  · cases hstep
  rename_i hbare
  cases hstep
  have hbare : block.Bare := block.isBare_iff.1 (by simpa using hbare)
  refine Completes.close ?_ h
  cases construct with
  | loop kind header => exact ⟨block, hreads, hbare, rfl, rfl⟩
  | arm finished condition => exact ⟨.done, .done hreads hbare, rfl⟩
  | otherwise previous finished => exact ⟨block, hreads, hbare, rfl, rfl⟩

/-- A block that is taken, whatever its keyword. -/
theorem completes_of_block (hformed : block.Formed)
    (hstep : progress.block? source limit block = .ok next)
    (h : Completes source limit next.nodes next.frames later tree) :
    Completes source limit progress.nodes progress.frames (block.tokens ++ later) tree := by
  unfold Progress.block? at hstep
  split at hstep
  · rename_i hkeyword
    cases hstep
    exact h.statement (.output (hformed.reads hkeyword)) rfl
  · rename_i hkeyword
    split at hstep
    · cases hstep
    rename_i hbare
    cases hstep
    exact h.statement (.declare (hformed.reads hkeyword) (not_bare_of hbare)) rfl
  · rename_i hkeyword
    exact completes_of_call (hformed.reads hkeyword) hstep h
  · rename_i hkeyword
    split at hstep
    · cases hstep
    rename_i hbare
    exact completes_of_branch (hformed.reads hkeyword) (not_bare_of hbare) hstep h
  · rename_i kind hkeyword
    split at hstep
    · cases hstep
    rename_i hbare
    exact completes_of_loop (hformed.reads hkeyword) (not_bare_of hbare) hstep h
  · rename_i jump hkeyword
    split at hstep
    · rename_i hbare
      cases hstep
      exact h.statement (.jump (hformed.reads hkeyword) (block.isBare_iff.1 hbare)) rfl
    · cases hstep
  · rename_i hkeyword
    exact completes_of_elseIf (hformed.reads hkeyword) hstep h
  · rename_i hkeyword
    exact completes_of_otherwise (hformed.reads hkeyword) hstep h
  · rename_i hkeyword
    exact completes_of_close (hformed.reads hkeyword) hstep h

end Block

/-- What completes a template after an item completes it with the item. A text item has to come
after another node than text. -/
theorem completes_of_item {item : Item} (hformed : item.Formed) {progress next : Progress}
    {items : List Item}
    (hseparated : Item.Separated (Node.lastText? progress.nodes).isSome (item :: items))
    (hstep : progress.item? source limit item = .ok next) {later : List Token} {tree : List Node}
    (h : Completes source limit next.nodes next.frames later tree) :
    Completes source limit progress.nodes progress.frames (item.tokens ++ later) tree := by
  match item, hformed, hseparated, hstep with
  | .text first rest, hformed, hseparated, hstep =>
    cases hstep
    have hlast : Node.lastText? progress.nodes = none := by simpa using hseparated.1
    refine Completes.cons (fun found inner hfound => ?_) h
    rw [hlast]
    exact .text hformed hfound
  | .block found, hformed, _, hstep => exact completes_of_block hformed hstep h

theorem lastText?_ofArms (last : Arm) (finished : List Arm) (rest : Chain Span (List Node))
    (nodes : List Node) : Node.lastText? (.ofArms last finished rest :: nodes) = none := by
  induction finished generalizing last rest with
  | nil => rfl
  | cons arm finished ih => exact ih arm _

/-- No block leaves a text as the last node. -/
theorem lastText?_of_block {block : Block} {progress next : Progress}
    (hstep : progress.block? source limit block = .ok next) :
    Node.lastText? next.nodes = none := by
  unfold Progress.block? Progress.call? Progress.open? Progress.elseIf? Progress.otherwise?
    Progress.close? at hstep
  repeat' split at hstep
  all_goals cases hstep
  all_goals try rfl
  -- What is left is an end, which makes a construct the last node.
  rename_i construct before frames hframes hbare
  cases construct with
  | loop kind header => rfl
  | arm finished condition => exact lastText?_ofArms _ _ _ _
  | otherwise previous finished => exact lastText?_ofArms _ _ _ _

/-- What follows an item is separated from it. -/
theorem separated_of_item {item : Item} {progress next : Progress} {items : List Item}
    {after : Bool} (hseparated : Item.Separated after (item :: items))
    (hstep : progress.item? source limit item = .ok next) :
    Item.Separated (Node.lastText? next.nodes).isSome items := by
  match item, hseparated, hstep with
  | .text first rest, hseparated, hstep =>
    cases hstep
    exact hseparated.2
  | .block found, hseparated, hstep =>
    rw [lastText?_of_block hstep]
    exact hseparated

/-- A run that succeeds completes the template read so far. -/
theorem completes_of_run {items : List Item} {ending : Ending} {progress : Progress}
    {tree : List Node} (hformed : ∀ item ∈ items, item.Formed)
    (hseparated : Item.Separated (Node.lastText? progress.nodes).isSome items)
    (h : progress.run source limit ending items = .ok tree) :
    Completes source limit progress.nodes progress.frames (items.flatMap Item.tokens) tree := by
  -- Each item is put in front of what completes the template after it.
  induction items generalizing progress with
  | nil =>
    obtain ⟨nodes, frames⟩ := progress
    cases ending with
    | broken error => cases h
    | finished token =>
      -- At the end of file no construct may be open.
      cases frames with
      | nil =>
        cases h
        exact ⟨[], .nothing, by simp⟩
      | cons frame frames => cases h
  | cons item items ih =>
    rw [Progress.run] at h
    split at h
    · cases h
    rename_i next hstep
    rw [List.flatMap_cons]
    refine completes_of_item (hformed item List.mem_cons_self) hseparated hstep (ih ?_ ?_ h)
    · exact fun item' hitem => hformed item' (List.mem_cons_of_mem item hitem)
    · exact separated_of_item hseparated hstep

/-- A run that succeeds has come to an end of file. -/
theorem finished_of_run {items : List Item} {ending : Ending} {progress : Progress}
    {tree : List Node} (h : progress.run source limit ending items = .ok tree) :
    ∃ token, ending = .finished token := by
  induction items generalizing progress with
  | nil =>
    cases ending with
    | broken error => cases h
    | finished token => exact ⟨token, rfl⟩
  | cons item items ih =>
    rw [Progress.run] at h
    split at h
    · cases h
    · exact ih h

/-! ## Completeness -/

/-- Items that are written with the tokens. -/
structure Spells (items : List Item) (tokens : List Token) : Prop where
  formed : ∀ item ∈ items, item.Formed
  tokens_eq : items.flatMap Item.tokens = tokens

theorem Spells.nil : Spells [] [] := ⟨by simp, rfl⟩

theorem Spells.block {block : Block} (h : block.Formed) : Spells [.block block] block.tokens :=
  ⟨fun item hitem => (List.mem_singleton.1 hitem) ▸ h, by simp [Item.tokens]⟩

theorem Spells.text {first : Token} {rest : List Token}
    (h : ∀ token ∈ first :: rest, token.kind.isText) :
    Spells [.text first rest] (first :: rest) :=
  ⟨by simpa [Item.Formed] using h, by simp [Item.tokens]⟩

theorem Spells.append {items items' : List Item} {tokens tokens' : List Token}
    (h : Spells items tokens) (h' : Spells items' tokens') :
    Spells (items ++ items') (tokens ++ tokens') where
  formed item hitem := (List.mem_append.1 hitem).elim (h.formed item) (h'.formed item)
  tokens_eq := by rw [List.flatMap_append, h.tokens_eq, h'.tokens_eq]

/-- The tokens of a phrase have items that a run takes wherever the phrase may stand, and for which
it adds what the phrase derives. The items may be followed by any that may come after the phrase. -/
def Phrase.Runs (source : Text) (limit : Nat) : Phrase → List Token → Prop
  | .body depth previous nodes, tokens =>
    ∃ items, Spells items tokens ∧
      (∀ later, Item.Separated true later → Item.Separated previous.isSome (items ++ later)) ∧
      ∀ ending before frames later, frames.length = depth → Node.lastText? before = previous →
        Progress.run source limit ending ⟨before, frames⟩ (items ++ later)
          = Progress.run source limit ending ⟨nodes.reverse ++ before, frames⟩ later
  | .statement depth previous node, tokens =>
    ∃ items, Spells items tokens ∧ Node.lastText? [node] = none ∧
      (∀ after later, Item.Separated false later → Item.Separated after (items ++ later)) ∧
      ∀ ending before frames later, frames.length = depth → Node.lastText? before = previous →
        Progress.run source limit ending ⟨before, frames⟩ (items ++ later)
          = Progress.run source limit ending ⟨node :: before, frames⟩ later
  | .arms depth chain, tokens =>
    ∃ items, Spells items tokens ∧
      (∀ after later, Item.Separated false later → Item.Separated after (items ++ later)) ∧
      ∀ ending nodes finished condition before frames later, frames.length = depth →
        Progress.run source limit ending ⟨nodes, ⟨.arm finished condition, before⟩ :: frames⟩
            (items ++ later)
          = Progress.run source limit ending
            ⟨.ofArms (condition, nodes.reverse) finished chain :: before, frames⟩ later

/-- Taking a block and going on. -/
theorem run_block {block : Block} {progress next : Progress} {ending : Ending}
    {items : List Item} (h : progress.block? source limit block = .ok next) :
    progress.run source limit ending (.block block :: items)
      = next.run source limit ending items := by
  rw [Progress.run, Progress.item?, h]

theorem isBare_eq_false {b : Block} (h : ¬b.Bare) : b.isBare = false := by
  simpa using fun hbare => h (b.isBare_iff.1 hbare)

/-- A statement of one block. -/
theorem Phrase.runs_block {block : Block} (hformed : block.Formed) {depth : Nat}
    {previous : Option Span} {node : Node} (hnode : Node.lastText? [node] = none)
    (h : ∀ before frames, Node.lastText? before = previous →
      Progress.block? source limit block ⟨before, frames⟩ = .ok ⟨node :: before, frames⟩) :
    (Phrase.statement depth previous node).Runs source limit block.tokens :=
  ⟨[.block block], .block hformed, hnode, fun _ _ hlater => hlater,
    fun _ before frames _ _ hprevious => run_block (h before frames hprevious)⟩

/-- An end closes the innermost construct. -/
theorem block?_close {last : Block} (hreads : last.Reads source (some .close)) (hbare : last.Bare)
    (construct : Construct) (nodes before : List Node) (frames : List Frame) :
    Progress.block? source limit last ⟨nodes, ⟨construct, before⟩ :: frames⟩
      = .ok ⟨construct.close nodes.reverse :: before, frames⟩ := by
  simp [Progress.block?, hreads.keyword?_eq, Progress.close?, last.isBare_iff.2 hbare]

/-- A body of a construct, and what closes it. -/
theorem run_construct {depth : Nat} {nodes : List Node} {tokens : List Token} {block last : Block}
    (hbody : (Phrase.body (depth + 1) none nodes).Runs source limit tokens)
    (hformed : block.Formed) (hreads : last.Reads source (some .close)) (hbare : last.Bare) :
    ∃ items, Spells items (block.tokens ++ tokens ++ last.tokens) ∧
      (∀ after later, Item.Separated false later → Item.Separated after (items ++ later)) ∧
      ∀ ending progress construct before frames later, frames.length = depth →
        Progress.block? source limit block progress = .ok ⟨[], ⟨construct, before⟩ :: frames⟩ →
        Progress.run source limit ending progress (items ++ later)
          = Progress.run source limit ending ⟨construct.close nodes :: before, frames⟩ later := by
  obtain ⟨items, hspells, hseparated, hruns⟩ := hbody
  refine ⟨_, ((Spells.block hformed).append hspells).append (.block hreads.1),
    fun after later hlater => ?_, fun ending progress construct before frames later hframes h => ?_⟩
  · simp only [List.append_assoc, List.singleton_append]
    exact hseparated (.block last :: later) hlater
  · have hrest := hruns ending [] (⟨construct, before⟩ :: frames) (.block last :: later)
      (by simpa using hframes) rfl
    simp only [List.append_assoc, List.cons_append, List.nil_append, List.append_nil] at hrest ⊢
    rw [run_block h, hrest, run_block (block?_close hreads hbare _ _ _ _), List.reverse_reverse]

/-- A body of a branching, and the arms after it. -/
theorem run_arms {depth : Nat} {nodes : List Node} {chain : Chain Span (List Node)}
    {tokens later : List Token} {block : Block} (hformed : block.Formed)
    (hbody : (Phrase.body (depth + 1) none nodes).Runs source limit tokens)
    (harms : (Phrase.arms depth chain).Runs source limit later) :
    ∃ items, Spells items (block.tokens ++ tokens ++ later) ∧
      (∀ after later, Item.Separated false later → Item.Separated after (items ++ later)) ∧
      ∀ ending progress finished condition before frames later, frames.length = depth →
        Progress.block? source limit block progress
          = .ok ⟨[], ⟨.arm finished condition, before⟩ :: frames⟩ →
        Progress.run source limit ending progress (items ++ later)
          = Progress.run source limit ending
            ⟨.ofArms (condition, nodes) finished chain :: before, frames⟩ later := by
  obtain ⟨items, hspells, hseparated, hruns⟩ := hbody
  obtain ⟨items', hspells', hseparated', hruns'⟩ := harms
  refine ⟨_, ((Spells.block hformed).append hspells).append hspells',
    fun after later hlater => ?_,
    fun ending progress finished condition before frames later hframes h => ?_⟩
  · simp only [List.append_assoc, List.singleton_append]
    exact hseparated (items' ++ later) (hseparated' true later hlater)
  · have hinner := hruns ending [] (⟨.arm finished condition, before⟩ :: frames) (items' ++ later)
      (by simpa using hframes) rfl
    have hrest := hruns' ending nodes.reverse finished condition before frames later hframes
    simp only [List.append_assoc, List.cons_append, List.nil_append, List.append_nil] at hinner ⊢
    rw [run_block h, hinner, hrest, List.reverse_reverse]

/-- A derived phrase runs. -/
theorem runs_of_derives {phrase : Phrase} {tokens : List Token}
    (h : Derives source limit phrase tokens) : phrase.Runs source limit tokens := by
  induction h with
  | nothing => exact ⟨[], .nil, fun later hlater => hlater.weaken, fun _ _ _ _ _ _ => rfl⟩
  | text hrun _ ih =>
    obtain ⟨items, hspells, hseparated, hruns⟩ := ih
    -- The run of text comes first in its body, and what follows it comes after a text.
    refine ⟨_, (Spells.text hrun).append hspells,
      fun later hlater => ⟨rfl, hseparated later hlater⟩,
      fun ending before frames later hframes hprevious => ?_⟩
    have hrest := hruns ending (.text _ :: before) frames later hframes rfl
    simpa [Progress.run, Progress.item?, Progress.add] using hrest
  | @statement depth previous node nodes tokens later _ _ ih ih' =>
    obtain ⟨items, hspells, hnode, hseparated, hruns⟩ := ih
    obtain ⟨items', hspells', hseparated', hruns'⟩ := ih'
    refine ⟨_, hspells.append hspells', fun later hlater => ?_,
      fun ending before frames later hframes hprevious => ?_⟩
    · simpa using hseparated _ _ (hseparated' later hlater)
    · rw [List.append_assoc, hruns ending before frames _ hframes hprevious,
        hruns' ending (node :: before) frames later hframes (Node.lastText?_cons hnode before)]
      simp
  | output hreads =>
    exact Phrase.runs_block hreads.1 rfl fun before frames _ => by
      simp [Progress.block?, hreads.keyword?_eq, Progress.add]
  | declare hreads hbare =>
    exact Phrase.runs_block hreads.1 rfl fun before frames _ => by
      simp [Progress.block?, hreads.keyword?_eq, isBare_eq_false hbare, Progress.add]
  | call hreads hbare hcall =>
    refine Phrase.runs_block hreads.1 rfl fun before frames hprevious => ?_
    -- The last node decides whether there is an indentation to look for.
    simp only [Progress.block?, hreads.keyword?_eq, Progress.call?, isBare_eq_false hbare,
      Span.call?_eq_some_iff.2 hcall, ← hprevious]
    cases before with
    | nil => rfl
    | cons node before => cases node <;> rfl
  | jump hreads hbare =>
    exact Phrase.runs_block hreads.1 rfl fun before frames _ => by
      simp [Progress.block?, hreads.keyword?_eq, Block.isBare_iff _ |>.2 hbare, Progress.add]
  | @branch depth previous block nodes chain _ _ hreads hbare hdepth _ _ ih ih' =>
    obtain ⟨items, hspells, hseparated, hruns⟩ := run_arms hreads.1 ih ih'
    refine ⟨items, hspells, rfl, hseparated, fun ending before frames later hframes _ => ?_⟩
    refine hruns ending _ [] (block.remainder source) before frames later hframes ?_
    simp [Progress.block?, hreads.keyword?_eq, isBare_eq_false hbare, Progress.open?, hframes,
      Nat.not_le.2 hdepth]
  | loop hreads hbare hdepth _ hlast hlastBare ih =>
    obtain ⟨items, hspells, hseparated, hruns⟩ := run_construct ih hreads.1 hlast hlastBare
    refine ⟨items, hspells, rfl, hseparated, fun ending before frames later hframes _ => ?_⟩
    refine hruns ending _ (.loop _ _) before frames later hframes ?_
    simp [Progress.block?, hreads.keyword?_eq, isBare_eq_false hbare, Progress.open?, hframes,
      Nat.not_le.2 hdepth]
  | done hlast hlastBare =>
    refine ⟨[.block _], .block hlast.1, fun _ _ hlater => hlater,
      fun ending nodes finished condition before frames later _ => ?_⟩
    exact run_block (block?_close hlast hlastBare _ _ _ _)
  | otherwise hreads hbare _ hlast hlastBare ih =>
    obtain ⟨items, hspells, hseparated, hruns⟩ := run_construct ih hreads.1 hlast hlastBare
    refine ⟨items, hspells, hseparated,
      fun ending nodes finished condition before frames later hframes => ?_⟩
    refine hruns ending _ (.otherwise _ _) before frames later hframes ?_
    simp [Progress.block?, hreads.keyword?_eq, Progress.otherwise?, Block.isBare_iff _ |>.2 hbare]
  | @arm depth block nodes chain _ _ hreads hbare _ _ ih ih' =>
    obtain ⟨items, hspells, hseparated, hruns⟩ := run_arms hreads.1 ih ih'
    refine ⟨items, hspells, hseparated,
      fun ending nodes' finished condition before frames later hframes => ?_⟩
    refine hruns ending _ ((condition, nodes'.reverse) :: finished) (block.remainder source) before
      frames later hframes ?_
    simp [Progress.block?, hreads.keyword?_eq, Progress.elseIf?, isBare_eq_false hbare]

/-! ## Both -/

namespace Node

variable {tokens : List Token} {nodes : List Node}

/-- What is read can be derived. -/
theorem derives_of_parse (h : parse source limit tokens = .ok nodes) :
    Derives source limit (.body 0 none nodes) (tokens.takeWhile (·.kind ≠ .eof)) := by
  rcases hgroup : Item.group source tokens with ⟨items, ending⟩
  rw [parse, hgroup] at h
  obtain ⟨last, rfl⟩ := finished_of_run h
  obtain ⟨hformed, hseparated, htokens⟩ := Item.group_finished hgroup
  obtain ⟨found, hfound, rfl⟩ :=
    completes_of_run hformed (hseparated _ (by simp [Progress.start, lastText?])) h
  rw [htokens] at hfound
  exact hfound

/-- What can be derived is read. -/
theorem parse_of_derives
    (h : Derives source limit (.body 0 none nodes) (tokens.takeWhile (·.kind ≠ .eof))) :
    parse source limit tokens = .ok nodes := by
  obtain ⟨items, hspells, hseparated, hruns⟩ := runs_of_derives h
  have hlater : ∀ token ∈ (tokens.dropWhile (·.kind ≠ .eof)).head?, token.kind = .eof := by
    have hnot := List.head?_dropWhile_not (fun token : Token => decide (token.kind ≠ .eof)) tokens
    intro token htoken
    rw [Option.mem_def.1 htoken] at hnot
    simpa using hnot
  have hfirst : Item.Separated false items := by simpa using hseparated [] trivial
  have hgroup := Item.group_flatMap_tokens source hspells.formed hfirst hlater
  rw [hspells.tokens_eq, List.takeWhile_append_dropWhile] at hgroup
  have hrun := hruns (.finished ((tokens.dropWhile (·.kind ≠ .eof)).headD .eof)) [] [] [] rfl rfl
  rw [parse, hgroup]
  simpa [Progress.start, Progress.run, Progress.finish?] using hrun

/-- What can be derived is read if an end of file follows it. -/
theorem parse_concat_of_derives (h : Derives source limit (.body 0 none nodes) tokens)
    (hkinds : ∀ token ∈ tokens, token.kind ≠ .eof) :
    parse source limit (tokens ++ [.eof]) = .ok nodes := by
  apply parse_of_derives
  rw [List.takeWhile_append_of_pos (by simpa using hkinds)]
  simpa [Token.eof] using h

/-- The trees that are read from a token list are those that the grammar derives from the tokens
before the first end of file. -/
theorem parse_eq_ok_iff (source : Text) (limit : Nat) (tokens : List Token) (nodes : List Node) :
    parse source limit tokens = .ok nodes ↔
      Derives source limit (.body 0 none nodes) (tokens.takeWhile (·.kind ≠ .eof)) :=
  ⟨derives_of_parse, parse_of_derives⟩

/-- A template with all of the words, and a call on a line of its own with a comma and a parenthesis
in quotes. -/
theorem parse_eq_ok_iff_words :
    let source :=
      "\x7b%var x%\x7d\x7b%while a%\x7d\n \x7b%call f(x,',)')%\x7d\x7b%if b%\x7d".toList
        ++ "\x7b%break%\x7d\x7b%elseif c%\x7d\x7b%continue%\x7d\x7b%else%\x7d".toList
        ++ "\x7b%return%\x7d\x7b%end%\x7d\x7b%end%\x7d\x7b%for d%\x7d\x7b\x7b i + 1 \x7d\x7d".toList
        ++ "\x7b%end%\x7d\x7b%foreach e%\x7dt\x7b%end%\x7d".toList
    let tokens := Token.scan source
    let nodes : List Node :=
      [.declare ⟨6, 7⟩,
       .loop .whileLoop ⟨17, 18⟩
         [.text ⟨20, 22⟩, .call ⟨29, 30⟩ [⟨31, 32⟩, ⟨33, 37⟩] (some ⟨21, 22⟩),
          .branch ⟨45, 46⟩ [.jump .breaks]
            (.arm ⟨66, 67⟩ [.jump .continues] (.otherwise [.jump .returns]))],
       .loop .forLoop ⟨119, 120⟩ [.output ⟨125, 130⟩],
       .loop .foreachLoop ⟨150, 151⟩ [.text ⟨153, 154⟩]]
    parse source 2 tokens = .ok nodes ∧
      Derives source 2 (.body 0 none nodes) (tokens.takeWhile (·.kind ≠ .eof)) := by
  intro source tokens nodes
  have hread : (parse source 2 tokens).toOption = some nodes := by decide +kernel
  have hparse : parse source 2 tokens = .ok nodes := by
    cases hparse : parse source 2 tokens with
    | error error =>
      rw [hparse] at hread
      cases hread
    | ok found =>
      rw [hparse] at hread
      exact congrArg Except.ok (Option.some.inj hread)
  exact ⟨hparse, (parse_eq_ok_iff source 2 tokens nodes).1 hparse⟩

end Node

end Stencil
