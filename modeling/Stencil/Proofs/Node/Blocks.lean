import Stencil.Proofs.Node.Items

/-!
# Only blocks decide

Literal text has no say in whether a template is refused, and none in the rest of its tree: it only
adds text nodes, and it is where the indentation of a call is looked for. Without these a template
is its blocks and the ending that grouping comes to (`Item.blocks`).

Taking a block commutes with leaving literal text away (`Progress.block?_bare`), so a whole run does
(`Progress.run_bare`), and reading a template is, up to literal text, taking its blocks.

* `Progress.frames_of_block?`: the bodies that are open after a block.
* `Item.blocks_block`, `Item.blocks_text`, ...: the blocks of a token list, token by token.
* `Node.parse_bare`: reading a template by its blocks.
-/

namespace Stencil

/-! ## Trees without literal text -/

namespace Node

mutual

/-- The node without literal text and without the indentations of calls; nothing is left of a
text. -/
def bare : Node → List Node
  | text _ => []
  | output span => [output span]
  | declare span => [declare span]
  | call name arguments _ => [call name arguments none]
  | branch condition body rest => [branch condition (allBare body) (chainBare rest)]
  | loop kind header body => [loop kind header (allBare body)]
  | jump j => [jump j]
  | noOp => [noOp]

/-- What is left of the nodes of a body. -/
def allBare : List Node → List Node
  | [] => []
  | node :: nodes => bare node ++ allBare nodes

/-- What is left of the arms that follow a first one. -/
def chainBare : Chain Span (List Node) → Chain Span (List Node)
  | .done => .done
  | .otherwise body => .otherwise (allBare body)
  | .arm condition body rest => .arm condition (allBare body) (chainBare rest)

end

@[simp] theorem allBare_append (s t : List Node) : allBare (s ++ t) = allBare s ++ allBare t := by
  induction s with
  | nil => rfl
  | cons node s ih => rw [List.cons_append, allBare, allBare, ih, List.append_assoc]

/-- The order of the nodes does not matter. -/
@[simp] theorem allBare_reverse (nodes : List Node) :
    allBare nodes.reverse = (allBare nodes).reverse := by
  have hnode : ∀ node : Node, node.bare.reverse = node.bare := by
    intro node
    cases node <;> simp [bare]
  induction nodes with
  | nil => rfl
  | cons node nodes ih =>
    rw [List.reverse_cons, allBare_append, ih, allBare, allBare, allBare, List.append_nil,
      List.reverse_append, hnode]

theorem allBare_ne_text (nodes : List Node) (span : Span) (rest : List Node) :
    allBare nodes ≠ text span :: rest := by
  induction nodes with
  | nil => nofun
  | cons node nodes ih =>
    rw [allBare]
    cases node <;> first | exact ih | (rw [bare]; nofun)

end Node

/-- What is left of an arm. -/
def Arm.bare (arm : Arm) : Arm := (arm.1, Node.allBare arm.2)

theorem Node.bare_ofArms (last : Arm) (finished : List Arm) (rest : Chain Span (List Node)) :
    (Node.ofArms last finished rest).bare
      = [.ofArms (Arm.bare last) (finished.map Arm.bare) (Node.chainBare rest)] := by
  induction finished generalizing last rest with
  | nil => rfl
  | cons arm finished ih => exact ih arm _

namespace Construct

/-- What is left of a construct. -/
def bare : Construct → Construct
  | loop kind header => loop kind header
  | arm finished condition => arm (finished.map Arm.bare) condition
  | otherwise last finished => otherwise (Arm.bare last) (finished.map Arm.bare)

theorem bare_close (construct : Construct) (body : List Node) :
    (construct.close body).bare = [construct.bare.close (Node.allBare body)] := by
  cases construct with
  | loop kind header => rfl
  | arm finished condition => exact Node.bare_ofArms _ _ _
  | otherwise last finished => exact Node.bare_ofArms _ _ _

end Construct

/-- What is left of a frame. -/
def Frame.bare (frame : Frame) : Frame := ⟨frame.construct.bare, Node.allBare frame.before⟩

namespace Progress

/-- What is left of a template read in part. -/
def bare (progress : Progress) : Progress :=
  ⟨Node.allBare progress.nodes, progress.frames.map Frame.bare⟩

variable {source : Text} {limit : Nat}

theorem bare_add {node node' : Node} (h : node.bare = [node']) (progress : Progress) :
    (progress.add node).bare = progress.bare.add node' := by
  rw [add, bare, Node.allBare, h, add, bare, List.singleton_append]

/-- Opening a body. -/
theorem open?_bare {construct : Construct} (hconstruct : construct.bare = construct) (block : Block)
    (progress : Progress) :
    (progress.open? source limit block construct).map bare
      = progress.bare.open? source limit block construct := by
  have hlength : progress.bare.frames.length = progress.frames.length := List.length_map _
  rw [open?, open?, hlength]
  split
  · rfl
  · simp [Except.map, bare, Frame.bare, hconstruct, Node.allBare]

/-- A call is taken without an indentation. -/
theorem call?_bare (block : Block) (progress : Progress) :
    (progress.call? source block).map bare = progress.bare.call? source block := by
  rw [call?, call?]
  split
  · rfl
  · split
    · rfl
    · rename_i name arguments _
      have hadd : ∀ leading, (progress.add (.call name arguments leading)).bare
          = progress.bare.add (.call name arguments none) :=
        fun leading => bare_add (by rw [Node.bare]) progress
      simp only [Except.map, hadd]
      split
      · rename_i span nodes hnodes
        exact absurd hnodes (Node.allBare_ne_text progress.nodes span nodes)
      · rfl

theorem elseIf?_bare (block : Block) (progress : Progress) :
    (progress.elseIf? source block).map bare = progress.bare.elseIf? source block := by
  obtain ⟨nodes, _ | ⟨⟨construct, before⟩, frames⟩⟩ := progress
  · rfl
  · cases construct with
    | loop kind header => rfl
    | arm finished condition =>
      simp only [elseIf?, bare, List.map_cons, Frame.bare, Construct.bare]
      split
      · rfl
      · simp [Except.map, bare, Frame.bare, Construct.bare, Arm.bare, Node.allBare]
    | otherwise last finished => rfl

theorem otherwise?_bare (block : Block) (progress : Progress) :
    (progress.otherwise? source block).map bare = progress.bare.otherwise? source block := by
  obtain ⟨nodes, _ | ⟨⟨construct, before⟩, frames⟩⟩ := progress
  · rfl
  · simp only [otherwise?, bare, List.map_cons, Frame.bare]
    split
    · rfl
    · cases construct with
      | loop kind header => rfl
      | arm finished condition =>
        simp [Except.map, bare, Frame.bare, Construct.bare, Arm.bare, Node.allBare]
      | otherwise last finished => rfl

theorem close?_bare (block : Block) (progress : Progress) :
    (progress.close? source block).map bare = progress.bare.close? source block := by
  obtain ⟨nodes, _ | ⟨⟨construct, before⟩, frames⟩⟩ := progress
  · rfl
  · simp only [close?, bare, List.map_cons, Frame.bare]
    split
    · rfl
    · simp [Except.map, bare, Node.allBare, Construct.bare_close]

/-- Taking a block. -/
theorem block?_bare (block : Block) (progress : Progress) :
    (progress.block? source limit block).map bare = progress.bare.block? source limit block := by
  have hadd : ∀ node : Node, node.bare = [node] →
      (Except.ok (progress.add node)).map bare
        = (Except.ok (progress.bare.add node) : Except ParseError Progress) := by
    intro node hnode
    rw [Except.map, bare_add hnode]
  rw [block?, block?]
  split
  · exact hadd _ (by rw [Node.bare])
  · split
    · rfl
    · exact hadd _ (by rw [Node.bare])
  · exact call?_bare block progress
  · split
    · rfl
    · exact open?_bare rfl block progress
  · split
    · rfl
    · exact open?_bare rfl block progress
  · split
    · exact hadd _ (by rw [Node.bare])
    · rfl
  · exact elseIf?_bare block progress
  · exact otherwise?_bare block progress
  · exact close?_bare block progress

/-- Takes blocks, one after another. -/
def blocks? (source : Text) (limit : Nat) (progress : Progress) (blocks : List Block) :
    Except ParseError Progress :=
  blocks.foldlM (fun progress block => progress.block? source limit block) progress

@[simp] theorem blocks?_nil (progress : Progress) :
    progress.blocks? source limit [] = .ok progress := rfl

theorem blocks?_cons (progress : Progress) (block : Block) (blocks : List Block) :
    progress.blocks? source limit (block :: blocks)
      = (progress.block? source limit block).bind (·.blocks? source limit blocks) := rfl

theorem blocks?_append (progress : Progress) (blocks later : List Block) :
    progress.blocks? source limit (blocks ++ later)
      = (progress.blocks? source limit blocks).bind (·.blocks? source limit later) := by
  rw [blocks?, List.foldlM_append]
  rfl

theorem finish?_bare (progress : Progress) (ending : Ending) :
    (progress.finish? source ending).map Node.allBare = progress.bare.finish? source ending := by
  cases ending with
  | broken error => rfl
  | finished token =>
    have hempty : progress.bare.frames.isEmpty = progress.frames.isEmpty := by
      rw [bare, List.isEmpty_map]
    rw [finish?, finish?, hempty]
    split
    · rw [Except.map, Node.allBare_reverse, bare]
    · rfl

end Progress

namespace Item

/-- The block that an item is. -/
def toBlock? : Item → Option Block
  | .text _ _ => none
  | .block found => some found

end Item

/-- A run, without literal text, is a run of the blocks. -/
theorem Progress.run_bare {source : Text} {limit : Nat} (ending : Ending) (progress : Progress)
    (items : List Item) :
    (progress.run source limit ending items).map Node.allBare
      = (progress.bare.blocks? source limit (items.filterMap Item.toBlock?)).bind
        (·.finish? source ending) := by
  induction items generalizing progress with
  | nil => exact finish?_bare progress ending
  | cons item items ih =>
    cases item with
    | text first rest =>
      have hadd : ∀ span, (progress.add (.text span)).bare = progress.bare := fun span => by
        rw [add, bare, Node.allBare, Node.bare, List.nil_append, bare]
      rw [run, item?, List.filterMap_cons_none rfl]
      simp only
      rw [ih, hadd]
    | block found =>
      rw [run, item?, List.filterMap_cons_some (rfl : Item.toBlock? (.block found) = some found),
        blocks?_cons, ← block?_bare]
      cases progress.block? source limit found with
      | error error => rfl
      | ok next => exact ih next

/-! ## Open bodies -/

namespace Block

/-- How deep the body stands that a block opens, if `depth` bodies are open before it. An `elseif`
or an `else` closes one body and opens another in its place. -/
def opensAt? (source : Text) (block : Block) (depth : Nat) : Option Nat :=
  match block.keyword? source with
  | some .branch | some (.loop _) => some (depth + 1)
  | some .elseIf | some .otherwise => some depth
  | _ => none

/-- The number of bodies that are open after a block, if `depth` are open before it. -/
def openAfter (source : Text) (block : Block) (depth : Nat) : Nat :=
  match block.keyword? source with
  | some .branch | some (.loop _) => depth + 1
  | some .close => depth - 1
  | _ => depth

theorem openAfter_le (source : Text) (block : Block) (depth : Nat) :
    block.openAfter source depth ≤ depth + 1 := by
  unfold openAfter
  split <;> omega

end Block

namespace Progress

variable {source : Text} {limit : Nat} {progress next : Progress}

/-- A block that is taken leaves as many bodies open as its keyword says; if it opens one, that is
the innermost; and no more are open than allowed. -/
theorem frames_of_block? {block : Block} (h : progress.block? source limit block = .ok next) :
    next.frames.length = block.openAfter source progress.frames.length ∧
      (∀ depth, block.opensAt? source progress.frames.length = some depth →
        next.frames.length = depth) ∧
      (progress.frames.length ≤ limit → next.frames.length ≤ limit) := by
  obtain ⟨nodes, frames⟩ := progress
  unfold block? call? open? elseIf? otherwise? close? at h
  simp only at h
  -- One case for every keyword and every construct that it may stand in.
  repeat' split at h
  all_goals cases h
  all_goals simp_all [Block.openAfter, Block.opensAt?, add]
  all_goals omega

/-- Never are more bodies open than allowed. -/
theorem length_of_blocks? {blocks : List Block}
    (htaken : progress.blocks? source limit blocks = .ok next)
    (h : progress.frames.length ≤ limit) : next.frames.length ≤ limit := by
  induction blocks generalizing progress with
  | nil =>
    cases htaken
    exact h
  | cons block blocks ih =>
    rw [blocks?_cons] at htaken
    cases hstep : progress.block? source limit block with
    | error error =>
      rw [hstep] at htaken
      cases htaken
    | ok taken =>
      rw [hstep] at htaken
      exact ih htaken ((frames_of_block? hstep).2.2 h)

end Progress

/-! ## The blocks of a token list -/

theorem Block.tokens_append (block : Block) (later : List Token) :
    block.tokens ++ later = block.enter ::
      (block.lead ++ block.identifier :: (block.more ++ block.exit :: later)) := by
  simp [tokens]

namespace Item

/-- The blocks that tokens make up, and why there are no more. -/
def blocks (source : Text) (tokens : List Token) : List Block × Ending :=
  ((group source tokens).1.filterMap toBlock?, (group source tokens).2)

variable {source : Text} {token enter : Token} {inner later tokens : List Token}

theorem blocks_nil : blocks source [] = ([], .finished .eof) := by
  rw [blocks, group]
  rfl

theorem blocks_dropWhile (source : Text) (tokens : List Token) :
    blocks source (tokens.dropWhile (·.kind.isText)) = blocks source tokens := by
  cases tokens with
  | nil => rfl
  | cons token tokens =>
    by_cases htext : token.kind.isText
    · rw [List.dropWhile_cons_of_pos (p := fun t : Token => t.kind.isText) htext, blocks, blocks,
        group, if_neg (Kind.ne_eof_of_isText htext), if_pos htext]
      rfl
    · rw [List.dropWhile_cons_of_neg (p := fun t : Token => t.kind.isText) htext]

/-- Text tokens make up no blocks. -/
theorem blocks_text (htext : token.kind.isText) :
    blocks source (token :: tokens) = blocks source tokens := by
  rw [← blocks_dropWhile, List.dropWhile_cons_of_pos (p := fun t : Token => t.kind.isText) htext,
    blocks_dropWhile]

theorem blocks_exit (hexit : token.kind.isExit) :
    blocks source (token :: tokens) = ([], .broken (.ofToken source token .strayExit)) := by
  rw [blocks, group, if_neg (Kind.ne_eof_of_isExit hexit),
    if_neg (Kind.not_isText_of_isExit hexit), if_pos hexit]
  rfl

theorem blocks_error {error : ParseError} (henter : enter.kind.isEnter)
    (h : block? source enter tokens = .error error) :
    blocks source (enter :: tokens) = ([], .broken error) := by
  rw [blocks, group, if_neg (Kind.ne_eof_of_isEnter henter),
    if_neg (Kind.not_isText_of_isEnter henter), if_neg (Kind.not_isExit_of_isEnter henter), h]
  rfl

/-- A formed block is the first item of its tokens. -/
theorem group_block {found : Block} (h : found.Formed) (later : List Token) :
    group source (found.tokens ++ later)
      = (.block found :: (group source later).1, (group source later).2) := by
  rw [Block.tokens_append, group, if_neg (Kind.ne_eof_of_isEnter h.enter),
    if_neg (Kind.not_isText_of_isEnter h.enter), if_neg (Kind.not_isExit_of_isEnter h.enter),
    block?_tokens h, (inner_of_formed h later).2, List.drop_one, List.tail_cons]

theorem blocks_block {found : Block} (h : found.Formed) (later : List Token) :
    blocks source (found.tokens ++ later)
      = (found :: (blocks source later).1, (blocks source later).2) := by
  rw [blocks, group_block h]
  rfl

/-- Every token list without an end of file is read token by token, and block by block. -/
theorem reading_induction {motive : List Token → Prop} (source : Text) (nil : motive [])
    (text : ∀ token tokens, token.kind.isText → motive tokens → motive (token :: tokens))
    (stray : ∀ token tokens, token.kind.isExit → motive (token :: tokens))
    (unformed : ∀ enter tokens error, enter.kind.isEnter →
      block? source enter tokens = .error error → motive (enter :: tokens))
    (block : ∀ (found : Block) tokens, found.Formed → motive tokens →
      motive (found.tokens ++ tokens))
    (tokens : List Token) (heof : ∀ token ∈ tokens, token.kind ≠ .eof) : motive tokens := by
  induction hlength : tokens.length using Nat.strongRecOn generalizing tokens with
  | ind n ih =>
    cases tokens with
    | nil => exact nil
    | cons token tokens =>
      rw [List.forall_mem_cons] at heof
      rw [List.length_cons] at hlength
      by_cases htext : token.kind.isText
      · exact text token tokens htext (ih _ (by omega) tokens heof.2 rfl)
      by_cases hexit : token.kind.isExit
      · exact stray token tokens hexit
      have henter := Kind.isEnter_of_not heof.1 htext hexit
      cases hblock : block? source token tokens with
      | error error => exact unformed token tokens error henter hblock
      | ok found =>
        obtain ⟨hfound, hsplit⟩ := block?_eq_ok henter hblock
        have hsublist : ((tokens.dropWhile (·.kind.isText)).drop 1).Sublist tokens :=
          (List.drop_sublist _ _).trans (List.dropWhile_sublist _)
        rw [← hsplit]
        have hle := hsublist.length_le
        exact block found _ hfound (ih _ (by omega) _ (fun t ht => heof.2 t (hsublist.mem ht)) rfl)

end Item

/-- Reading a template, without literal text, is taking its blocks. -/
theorem Node.parse_bare (source : Text) (limit : Nat) (tokens : List Token) :
    (parse source limit tokens).map allBare
      = (Progress.start.blocks? source limit (Item.blocks source tokens).1).bind
        (·.finish? source (Item.blocks source tokens).2) :=
  Progress.run_bare _ _ _

/-! ## The end of file -/

namespace Item

variable {inner later : List Token}

/-- A run of text tokens that no other can extend. -/
theorem exists_run (tokens : List Token) :
    ∃ inner later, tokens = inner ++ later ∧ (∀ token ∈ inner, token.kind.isText) ∧
      ∀ token ∈ later.head?, ¬token.kind.isText := by
  refine ⟨tokens.takeWhile (·.kind.isText), tokens.dropWhile (·.kind.isText),
    List.takeWhile_append_dropWhile.symm,
    fun token htoken => List.all_eq_true.1 List.all_takeWhile token htoken, fun token htoken => ?_⟩
  have hstop := List.head?_dropWhile_not (fun token : Token => token.kind.isText) tokens
  rw [Option.mem_def.1 htoken] at hstop
  simpa using hstop

/-- The run before a token that is no text. -/
theorem takeWhile_isText (hinner : ∀ token ∈ inner, token.kind.isText)
    (hlater : ∀ token ∈ later.head?, ¬token.kind.isText) :
    (inner ++ later).takeWhile (·.kind.isText) = inner ∧
      (inner ++ later).dropWhile (·.kind.isText) = later := by
  rw [List.takeWhile_append_of_pos hinner, List.dropWhile_append_of_pos hinner]
  cases later with
  | nil => exact ⟨List.append_nil inner, rfl⟩
  | cons token later =>
    have htoken : ¬token.kind.isText := hlater token rfl
    rw [List.takeWhile_cons_of_neg (p := fun t : Token => t.kind.isText) htoken,
      List.dropWhile_cons_of_neg (p := fun t : Token => t.kind.isText) htoken, List.append_nil]
    exact ⟨rfl, rfl⟩

/-- An end of file ends a run of text tokens. -/
theorem takeWhile_concat_eof (tokens : List Token) :
    (tokens ++ [Token.eof]).takeWhile (·.kind.isText) = tokens.takeWhile (·.kind.isText) ∧
      (tokens ++ [Token.eof]).dropWhile (·.kind.isText)
        = tokens.dropWhile (·.kind.isText) ++ [Token.eof] := by
  obtain ⟨inner, later, rfl, hinner, hlater⟩ := exists_run tokens
  have hlater' : ∀ token ∈ (later ++ [Token.eof]).head?, ¬token.kind.isText := by
    cases later with
    | nil =>
      rintro token ⟨⟩
      decide
    | cons token later => exact hlater
  obtain ⟨htake, hdrop⟩ := takeWhile_isText hinner hlater
  obtain ⟨htake', hdrop'⟩ := takeWhile_isText hinner hlater'
  rw [List.append_assoc, htake, hdrop, htake', hdrop']
  exact ⟨rfl, rfl⟩

theorem block?_concat_eof (source : Text) (enter : Token) (tokens : List Token) :
    block? source enter (tokens ++ [Token.eof]) = block? source enter tokens := by
  have hhead : ∀ tokens : List Token, (tokens ++ [Token.eof]).headD .eof = tokens.headD .eof := by
    intro tokens
    cases tokens <;> rfl
  unfold block?
  rw [(takeWhile_concat_eof tokens).1, (takeWhile_concat_eof tokens).2, hhead, hhead]

/-- An end of file after the tokens makes no difference. -/
theorem group_concat_eof (source : Text) (tokens : List Token) :
    group source (tokens ++ [Token.eof]) = group source tokens := by
  fun_induction group source tokens with
  | case1 => rw [List.nil_append, group, if_pos (by rfl)]
  | case2 token tokens heof => rw [List.cons_append, group, if_pos heof]
  | case3 token tokens rest heof htext items ending hgroup ih =>
    rw [List.cons_append, group, if_neg heof, if_pos htext, (takeWhile_concat_eof tokens).1,
      (takeWhile_concat_eof tokens).2, ih, hgroup]
  | case4 token tokens heof htext hexit =>
    rw [List.cons_append, group, if_neg heof, if_neg htext, if_pos hexit]
  | case5 token tokens heof htext hexit error hblock =>
    rw [List.cons_append, group, if_neg heof, if_neg htext, if_neg hexit, block?_concat_eof, hblock]
  | case6 token tokens rest heof htext hexit found hblock items ending hgroup ih =>
    obtain ⟨hfound, hsplit⟩ := block?_eq_ok (Kind.isEnter_of_not heof htext hexit) hblock
    rw [← hsplit, List.append_assoc, group_block hfound, ih, hgroup]

end Item

theorem Node.parse_concat_eof (source : Text) (limit : Nat) (tokens : List Token) :
    parse source limit (tokens ++ [Token.eof]) = parse source limit tokens := by
  rw [parse, parse, Item.group_concat_eof]

end Stencil
