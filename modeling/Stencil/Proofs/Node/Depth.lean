import Stencil.Proofs.Node.Blocks
import Stencil.Proofs.Node.Reading

/-!
# The limit on nesting

The limit on how deep bodies may nest cuts, and does nothing else. What is read with a limit is what
is read without one, if its bodies nest no deeper than the limit; and a template that is refused is
refused for the reason that there would be without a limit, or because of its first block that opens
a body too deep.

The trees are found by derivation: a derivation uses no more of the limit than the depth of its tree
(`Derives.relimit`), and that depth is bounded by the limit and by the number of tokens. The errors
are found by going through the items with both limits: the blocks are taken alike up to one that
opens a body where so many are open already (`Progress.run_limit`).

Main statement: `Node.parse_limit`.
-/

namespace Stencil

namespace Node

/-! ## The depth of a tree -/

mutual

/-- How deep bodies nest in a node. All arms of a branching count alike. -/
def depth : Node → Nat
  | branch _ body rest => max (allDepth body) (chainDepth rest) + 1
  | loop _ _ body => allDepth body + 1
  | _ => 0

/-- How deep bodies nest in the deepest of the nodes. -/
def allDepth : List Node → Nat
  | [] => 0
  | node :: nodes => max node.depth (allDepth nodes)

/-- How deep bodies nest in the arms that follow a first one. -/
def chainDepth : Chain Span (List Node) → Nat
  | .done => 0
  | .otherwise body => allDepth body
  | .arm _ body rest => max (allDepth body) (chainDepth rest)

end

end Node

/-! ## Derivations under different limits -/

/-- The number of bodies around the bodies of a phrase. The arms of a branching are bodies
themselves. -/
def Phrase.around : Phrase → Nat
  | .body depth _ _ => depth
  | .statement depth _ _ => depth
  | .arms depth _ => depth + 1

/-- How deep bodies nest in a phrase. -/
def Phrase.depth : Phrase → Nat
  | .body _ _ nodes => Node.allDepth nodes
  | .statement _ _ node => node.depth
  | .arms _ chain => Node.chainDepth chain

namespace Derives

variable {source : Text} {limit : Nat} {phrase : Phrase} {tokens : List Token}

/-- Bodies nest no deeper than the limit. -/
theorem depth_le (h : Derives source limit phrase tokens) (haround : phrase.around ≤ limit) :
    phrase.around + phrase.depth ≤ limit := by
  induction h with
  | nothing => exact haround
  | text _ _ ih =>
    have hlater := ih haround
    simp only [Phrase.around, Phrase.depth, Node.allDepth, Node.depth] at *
    omega
  | statement _ _ ih ih' =>
    have hnode := ih haround
    have hlater := ih' haround
    simp only [Phrase.around, Phrase.depth, Node.allDepth] at *
    omega
  | output | declare | call | jump => exact haround
  | branch _ _ hdepth _ _ ih ih' =>
    have hbody := ih hdepth
    have harms := ih' hdepth
    simp only [Phrase.around, Phrase.depth, Node.depth] at *
    omega
  | loop _ _ hdepth _ _ _ ih =>
    have hbody := ih hdepth
    simp only [Phrase.around, Phrase.depth, Node.depth] at *
    omega
  | done => exact haround
  | otherwise _ _ _ _ _ ih => exact ih haround
  | arm _ _ _ _ ih ih' =>
    have hbody := ih haround
    have harms := ih' haround
    simp only [Phrase.around, Phrase.depth, Node.chainDepth] at *
    omega

/-- A body that nests in another one takes tokens of its own. -/
theorem depth_le_length (h : Derives source limit phrase tokens) :
    phrase.depth ≤ tokens.length := by
  have hblock : ∀ block : Block, 0 < block.tokens.length := fun block => Nat.succ_pos _
  induction h with
  | nothing | output | declare | call | jump | done => exact Nat.zero_le _
  | text _ _ ih =>
    simp only [Phrase.depth, Node.allDepth, Node.depth, List.length_append] at *
    omega
  | statement _ _ ih ih' =>
    simp only [Phrase.depth, Node.allDepth, List.length_append] at *
    omega
  | @branch _ _ block _ _ _ _ _ _ _ _ _ ih ih' =>
    have hfirst := hblock block
    simp only [Phrase.depth, Node.depth, List.length_append] at *
    omega
  | @loop _ _ _ block _ _ _ _ _ _ _ _ _ ih =>
    have hfirst := hblock block
    simp only [Phrase.depth, Node.depth, List.length_append] at *
    omega
  | otherwise _ _ _ _ _ ih =>
    simp only [Phrase.depth, Node.chainDepth, List.length_append] at *
    omega
  | arm _ _ _ _ ih ih' =>
    simp only [Phrase.depth, Node.chainDepth, List.length_append] at *
    omega

/-- A limit that is large enough for the tree will do. -/
theorem relimit (h : Derives source limit phrase tokens) {limit' : Nat}
    (hdepth : phrase.around + phrase.depth ≤ limit') : Derives source limit' phrase tokens := by
  induction h with
  | nothing => exact .nothing
  | text hrun _ ih =>
    refine .text hrun (ih ?_)
    simp only [Phrase.around, Phrase.depth, Node.allDepth, Node.depth] at *
    omega
  | statement _ _ ih ih' =>
    simp only [Phrase.around, Phrase.depth, Node.allDepth] at *
    exact .statement (ih (by omega)) (ih' (by omega))
  | output hreads => exact .output hreads
  | declare hreads hbare => exact .declare hreads hbare
  | call hreads hbare hcall => exact .call hreads hbare hcall
  | jump hreads hbare => exact .jump hreads hbare
  | branch hreads hbare _ _ _ ih ih' =>
    simp only [Phrase.around, Phrase.depth, Node.depth] at *
    exact .branch hreads hbare (by omega) (ih (by omega)) (ih' (by omega))
  | loop hreads hbare _ _ hlast hlastBare ih =>
    simp only [Phrase.around, Phrase.depth, Node.depth] at *
    exact .loop hreads hbare (by omega) (ih (by omega)) hlast hlastBare
  | done hlast hlastBare => exact .done hlast hlastBare
  | otherwise hreads hbare _ hlast hlastBare ih =>
    exact .otherwise hreads hbare (ih hdepth) hlast hlastBare
  | arm hreads hbare _ _ ih ih' =>
    simp only [Phrase.around, Phrase.depth, Node.chainDepth] at *
    exact .arm hreads hbare (ih (by omega)) (ih' (by omega))

end Derives

namespace Node

variable {source : Text} {limit large : Nat} {tokens : List Token} {nodes : List Node}

/-- What is read with a limit, and what is read with one for every token. -/
theorem parse_eq_ok_limit (hlarge : tokens.length ≤ large) :
    parse source limit tokens = .ok nodes ↔
      parse source large tokens = .ok nodes ∧ allDepth nodes ≤ limit := by
  have hlength : (tokens.takeWhile (·.kind ≠ .eof)).length ≤ tokens.length :=
    (List.takeWhile_sublist _).length_le
  constructor
  · intro h
    have hderives := derives_of_parse h
    have hdepth : 0 + allDepth nodes ≤ limit := hderives.depth_le (Nat.zero_le limit)
    have hcount : allDepth nodes ≤ (tokens.takeWhile (·.kind ≠ .eof)).length :=
      hderives.depth_le_length
    have hwide : 0 + allDepth nodes ≤ large := by omega
    exact ⟨parse_of_derives (hderives.relimit hwide), by omega⟩
  · rintro ⟨h, hdepth⟩
    have hwide : 0 + allDepth nodes ≤ limit := by omega
    exact parse_of_derives ((derives_of_parse h).relimit hwide)

end Node

/-! ## Blocks that open bodies -/

/-- The first of the blocks that opens a body as deep as `wanted`, if `depth` bodies are open before
them. -/
inductive FirstOpens (source : Text) (wanted : Nat) : (depth : Nat) → List Block → Block → Prop
  | here {depth : Nat} {block : Block} (later : List Block)
      (h : block.opensAt? source depth = some wanted) :
      FirstOpens source wanted depth (block :: later) block
  | later {depth : Nat} {block : Block} {blocks : List Block} {found : Block}
      (h : block.opensAt? source depth ≠ some wanted)
      (hrest : FirstOpens source wanted (block.openAfter source depth) blocks found) :
      FirstOpens source wanted depth (block :: blocks) found

namespace Progress

variable {source : Text} {limit large : Nat} {block : Block} {progress next : Progress}

/-- A block is taken alike under two limits, unless it opens a body where the smaller one is
reached. -/
theorem block?_limit (hlimit : progress.frames.length ≤ limit)
    (hlarge : progress.frames.length < large) (block : Block) :
    progress.block? source limit block = progress.block? source large block ∨
      block.opensAt? source progress.frames.length = some (limit + 1) ∧
        progress.block? source limit block
          = .error (.ofToken source block.identifier (.tooDeep limit)) := by
  have hopen : ∀ construct, progress.open? source limit block construct
        = progress.open? source large block construct ∨
      progress.frames.length = limit ∧ progress.open? source limit block construct
        = .error (.ofToken source block.identifier (.tooDeep limit)) := by
    intro construct
    unfold open?
    by_cases hreached : limit ≤ progress.frames.length
    · rw [if_pos hreached]
      exact .inr ⟨Nat.le_antisymm hlimit hreached, rfl⟩
    · rw [if_neg hreached, if_neg (Nat.not_le.2 hlarge)]
      exact .inl rfl
  unfold block?
  split
  case h_4 | h_5 =>
    rename_i hkeyword
    split
    · exact .inl rfl
    · rcases hopen _ with heq | ⟨hframes, herror⟩
      · exact .inl heq
      · exact .inr ⟨by rw [Block.opensAt?, hkeyword, hframes], herror⟩
  all_goals exact .inl rfl

/-- Under a limit that is never reached a run comes to the same, unless a block opens a body too
deep; then the first one that does is where it ends. -/
theorem run_limit (ending : Ending) (items : List Item) (progress : Progress)
    (hlimit : progress.frames.length ≤ limit)
    (hlarge : progress.frames.length + items.length ≤ large) :
    progress.run source limit ending items = progress.run source large ending items ∨
      ∃ block, FirstOpens source (limit + 1) progress.frames.length
          (items.filterMap Item.toBlock?) block ∧
        progress.run source limit ending items
          = .error (.ofToken source block.identifier (.tooDeep limit)) := by
  induction items generalizing progress with
  | nil => exact .inl rfl
  | cons item items ih =>
    rw [List.length_cons] at hlarge
    cases item with
    | text first rest => exact ih (progress.add _) hlimit (by simp only [add]; omega)
    | block block =>
      rw [List.filterMap_cons_some (rfl : Item.toBlock? (.block block) = some block), run, run,
        item?, item?]
      have hroom : progress.frames.length < large := by omega
      rcases progress.block?_limit hlimit hroom block with heq | ⟨hopens, herror⟩
      · rw [← heq]
        cases hstep : progress.block? source limit block with
        | error error => exact .inl rfl
        | ok next =>
          obtain ⟨hafter, hopened, hbound⟩ := frames_of_block? hstep
          have hle := block.openAfter_le source progress.frames.length
          rcases ih next (hbound hlimit) (by omega) with hsame | ⟨found, hfirst, herror⟩
          · exact .inl hsame
          · have hnot : block.opensAt? source progress.frames.length ≠ some (limit + 1) := by
              intro hopens
              rw [hopened (limit + 1) hopens] at hbound
              exact Nat.not_succ_le_self limit (hbound hlimit)
            rw [hafter] at hfirst
            exact .inr ⟨found, .later hnot hfirst, herror⟩
      · refine .inr ⟨block, .here _ hopens, ?_⟩
        rw [herror]

end Progress

namespace Item

/-- Every item takes tokens. -/
theorem length_group_le (source : Text) (tokens : List Token) :
    (group source tokens).1.length ≤ tokens.length := by
  fun_induction group source tokens with
  | case1 => exact Nat.le_refl 0
  | case2 => exact Nat.zero_le _
  | case3 token tokens rest heof htext items ending hgroup ih =>
    have hrest : rest.length ≤ tokens.length := (List.dropWhile_sublist _).length_le
    rw [hgroup] at ih
    simp only [List.length_cons] at *
    omega
  | case4 => exact Nat.zero_le _
  | case5 => exact Nat.zero_le _
  | case6 token tokens rest heof htext hexit found hblock items ending hgroup ih =>
    have hrest : rest.length ≤ tokens.length := (List.dropWhile_sublist _).length_le
    rw [hgroup] at ih
    simp only [List.length_cons, List.length_drop] at *
    omega

end Item

/-- A limit on nesting cuts, and does nothing else. A template is read under it, as the same tree,
if and only if it is read under a limit that its tokens cannot reach and its bodies nest no deeper.
If it is refused, then it is refused as under the large limit, or because of its first block that
opens a body one deeper than allowed. -/
theorem Node.parse_limit (source : Text) (limit large : Nat) (tokens : List Token)
    (hlarge : tokens.length ≤ large) :
    (∀ nodes, parse source limit tokens = .ok nodes ↔
      parse source large tokens = .ok nodes ∧ allDepth nodes ≤ limit) ∧
    ∀ error, parse source limit tokens = .error error →
      parse source large tokens = .error error ∨
        ∃ block, FirstOpens source (limit + 1) 0 (Item.blocks source tokens).1 block ∧
          error = .ofToken source block.identifier (.tooDeep limit) ∧
          error.reason.message = "maximum nesting depth of " ++ toString limit ++ " exceeded" := by
  constructor
  · intro nodes
    exact parse_eq_ok_limit hlarge
  · intro error h
    have hitems := Nat.le_trans (Item.length_group_le source tokens) hlarge
    rcases Progress.run_limit (Item.group source tokens).2 (Item.group source tokens).1
        Progress.start (Nat.zero_le limit) (Nat.le_trans (Nat.le_of_eq (Nat.zero_add _)) hitems)
      with hsame | ⟨block, hfirst, herror⟩
    · exact .inl (hsame.symm.trans h)
    · have herrors := herror.symm.trans h
      cases herrors
      exact .inr ⟨block, hfirst, rfl, rfl⟩

/-- Three bodies, one in the other, where two are allowed and where three are. -/
theorem Node.parse_limit_three :
    let source := "\x7b% if a %\x7d\x7b% if b %\x7d\x7b% for c %\x7dx\x7b% end %\x7d".toList
      ++ "\x7b% end %\x7d\x7b% end %\x7d".toList
    let tokens := Token.scan source
    tokens.length ≤ 99 ∧
      (∃ nodes, parse source 3 tokens = .ok nodes ∧
        parse source 99 tokens = .ok nodes ∧ allDepth nodes ≤ 3) ∧
      ∃ error, parse source 2 tokens = .error error ∧ error.token.first = ⟨1, 24, 23⟩ ∧
        error.value = "for".toList ∧
        (parse source 99 tokens = .error error ∨
          ∃ block, FirstOpens source 3 0 (Item.blocks source tokens).1 block ∧
            error = .ofToken source block.identifier (.tooDeep 2) ∧
            error.reason.message = "maximum nesting depth of 2 exceeded") := by
  intro source tokens
  have hlarge : tokens.length ≤ 99 := by decide +kernel
  have hread : (parse source 3 tokens).isOk := by decide +kernel
  have hrefused : (match parse source 2 tokens with
      | .ok _ => false
      | .error error =>
        decide (error.token.first = ⟨1, 24, 23⟩ ∧ error.value = "for".toList)) = true := by
    decide +kernel
  refine ⟨hlarge, ?_, ?_⟩
  · cases hparse : parse source 3 tokens with
    | error error =>
      rw [hparse] at hread
      cases hread
    | ok nodes => exact ⟨nodes, rfl, ((parse_limit source 3 99 tokens hlarge).1 nodes).1 hparse⟩
  · cases hparse : parse source 2 tokens with
    | ok nodes =>
      rw [hparse] at hrefused
      cases hrefused
    | error error =>
      rw [hparse] at hrefused
      obtain ⟨hfirst, hvalue⟩ := of_decide_eq_true hrefused
      exact ⟨error, rfl, hfirst, hvalue, (parse_limit source 2 99 tokens hlarge).2 error hparse⟩

end Stencil
