/-
Expressions are read back from their texts.

The text of nodes has one derivation in the grammar: a segment for each node, a bare list
for an only child and a bracketed one for several.  A name ends where a mark begins, and
every name in the text is followed by a mark or by nothing, so the text is cut into the
tokens of that derivation and read as its nodes.

Conversely the names in what is read are names of the text, so no text at all is read as
nodes with other names.  Nodes are read back exactly when their names are names of
expressions.
-/
import GraphFetch.Proofs.Expression.Grammar

namespace GraphFetch

namespace Expression

/-! ### Valid nodes -/

/-- Whether a text is one token of an expression. -/
def IsName (name : String) : Prop := name.toList ≠ [] ∧ ∀ c ∈ name.toList, isNameChar c = true

end Expression

namespace RelationNode

open Expression

mutual

/-- Nodes all of whose names are names of expressions. -/
def Valid : RelationNode → Prop
  | ⟨name, asName, modifiers, children⟩ =>
    IsName name ∧ (∀ other ∈ asName, IsName other) ∧ (∀ modifier ∈ modifiers, IsName modifier)
      ∧ AllValid children

def AllValid : List RelationNode → Prop
  | [] => True
  | node :: rest => Valid node ∧ AllValid rest

end

/-! ### Derivations of nodes -/

mutual

/-- The derivation of a node's text. -/
def segmentTree : RelationNode → SegmentTree
  | ⟨name, asName, modifiers, []⟩ => .leaf ⟨asName, name, modifiers⟩
  | ⟨name, asName, modifiers, [child]⟩ =>
    .parent ⟨asName, name, modifiers⟩ (.bare (segmentTree child))
  | ⟨name, asName, modifiers, child :: other :: more⟩ =>
    .parent ⟨asName, name, modifiers⟩ (.bracketed (segmentsTree child (other :: more)))
termination_by node => (sizeOf node, 0)

/-- The derivation of the texts of nodes, of which there is at least one. -/
def segmentsTree : RelationNode → List RelationNode → SegmentsTree
  | node, [] => .last (segmentTree node)
  | node, other :: more => .more (segmentTree node) (segmentsTree other more)
termination_by node more => (sizeOf node + sizeOf more, 1)

end

mutual

theorem node_segmentTree : ∀ node : RelationNode, node.segmentTree.node = node
  | ⟨name, asName, modifiers, []⟩ => by
    rw [segmentTree, SegmentTree.node]
  | ⟨name, asName, modifiers, [child]⟩ => by
    rw [segmentTree, SegmentTree.node, ListTree.nodes, node_segmentTree child]
  | ⟨name, asName, modifiers, child :: other :: more⟩ => by
    rw [segmentTree, SegmentTree.node, ListTree.nodes, nodes_segmentsTree child (other :: more)]
termination_by node => (sizeOf node, 0)

theorem nodes_segmentsTree : ∀ (node : RelationNode) (more : List RelationNode),
    (segmentsTree node more).nodes = node :: more
  | node, [] => by
    rw [segmentsTree, SegmentsTree.nodes, node_segmentTree node]
  | node, other :: more => by
    rw [segmentsTree, SegmentsTree.nodes, node_segmentTree node, nodes_segmentsTree other more]
termination_by node more => (sizeOf node + sizeOf more, 1)

end

/-! ### Cutting the texts of nodes -/

variable {text : List Char} {tokens : List Token}

/-- No name goes on with a mark or a blank. -/
theorem ends_cons {c : Char} (hc : isNameChar c = false) (text : List Char) : Ends (c :: text) := by
  rintro d ⟨⟩
  exact hc

/-- A comma and the space behind it. -/
theorem lexes_comma (htext : Lexes text tokens) :
    Lexes (',' :: ' ' :: text) (.comma :: tokens) :=
  .mark (by decide) (.blank (by decide) htext)

theorem lexes_names {names : List String} (hne : names ≠ []) (h : ∀ name ∈ names, IsName name)
    (hends : Ends text) (htext : Lexes text tokens) :
    Lexes (commaSeparated (names.map String.toList) ++ text) (nameTokens names ++ tokens) := by
  induction names with
  | nil => exact absurd rfl hne
  | cons name rest ih =>
      obtain ⟨hchars, hname⟩ := h name List.mem_cons_self
      cases rest with
      | nil => exact .name hchars hname hends htext
      | cons other more =>
          have hmore := ih (by simp) fun name h' => h name (List.mem_cons_of_mem _ h')
          have hboth := Lexes.name hchars hname (ends_cons (by decide) _) (lexes_comma hmore)
          simpa [commaSeparated, nameTokens] using hboth

theorem lexes_modifiers {modifiers : List String} (h : ∀ modifier ∈ modifiers, IsName modifier)
    (htext : Lexes text tokens) :
    Lexes (modifierChars modifiers ++ text) (modifierTokens modifiers ++ tokens) := by
  cases modifiers with
  | nil => exact htext
  | cons modifier rest =>
      have hclose : Lexes (')' :: text) (.closeModifiers :: tokens) := .mark (by decide) htext
      have hnames := lexes_names (List.cons_ne_nil _ _) h (ends_cons (by decide) _) hclose
      have hopen : Lexes ('(' :: _) (.openModifiers :: _) := .mark (by decide) hnames
      simpa [modifierChars, modifierTokens] using hopen

/-- What stands before the children of a node is cut into the head of its segment. -/
theorem lexes_head {name : String} {asName : Option String} {modifiers : List String}
    (hname : IsName name) (hasName : ∀ other ∈ asName, IsName other)
    (hmodifiers : ∀ modifier ∈ modifiers, IsName modifier) (hends : Ends text)
    (htext : Lexes text tokens) :
    Lexes (aliasChars asName ++ name.toList ++ modifierChars modifiers ++ text)
      ((⟨asName, name, modifiers⟩ : Head).tokens ++ tokens) := by
  have hbehind : Ends (modifierChars modifiers ++ text) := by
    cases modifiers with
    | nil => exact hends
    | cons modifier rest => exact ends_cons (by decide) _
  have hafter := Lexes.name hname.1 hname.2 hbehind (lexes_modifiers hmodifiers htext)
  cases asName with
  | none => simpa [aliasChars, Head.tokens, aliasTokens] using hafter
  | some other =>
      obtain ⟨hchars, hother⟩ := hasName other rfl
      have hcolon : Lexes (':' :: _) (.colon :: _) := .mark (by decide) hafter
      have hboth := Lexes.name hchars hother (ends_cons (by decide) _) hcolon
      simpa [aliasChars, Head.tokens, aliasTokens] using hboth

mutual

/-- The text of a node is cut into the tokens of its segment. -/
theorem lexes_chars : ∀ {node : RelationNode}, node.Valid → ∀ {text : List Char}
    {tokens : List Token}, Ends text → Lexes text tokens →
    Lexes (node.chars ++ text) (node.segmentTree.tokens ++ tokens)
  | ⟨name, asName, modifiers, []⟩, h, text, tokens, hends, htext => by
    rw [Valid] at h
    obtain ⟨hname, hasName, hmodifiers, -⟩ := h
    have hhead := lexes_head hname hasName hmodifiers hends htext
    simpa [chars, childChars, segmentTree, SegmentTree.tokens] using hhead
  | ⟨name, asName, modifiers, [child]⟩, h, text, tokens, hends, htext => by
    rw [Valid, AllValid] at h
    obtain ⟨hname, hasName, hmodifiers, hchild, -⟩ := h
    have hdot : Lexes ('.' :: _) (.dot :: _) := .mark (by decide) (lexes_chars hchild hends htext)
    have hhead := lexes_head hname hasName hmodifiers (ends_cons (by decide) _) hdot
    simpa [chars, childChars, segmentTree, SegmentTree.tokens, ListTree.tokens] using hhead
  | ⟨name, asName, modifiers, child :: other :: more⟩, h, text, tokens, _, htext => by
    rw [Valid, AllValid] at h
    obtain ⟨hname, hasName, hmodifiers, hchild, hmore⟩ := h
    have hopen : Lexes ('[' :: _) (.openList :: _) :=
      .mark (by decide) (lexes_segments hchild hmore htext)
    have hdot : Lexes ('.' :: _) (.dot :: _) := .mark (by decide) hopen
    have hhead := lexes_head hname hasName hmodifiers (ends_cons (by decide) _) hdot
    simpa [chars, childChars, segmentTree, SegmentTree.tokens, ListTree.tokens] using hhead
termination_by node => (sizeOf node, 0)

/-- The texts of nodes and the bracket behind them are cut into their segments and its token. -/
theorem lexes_segments : ∀ {node : RelationNode} {more : List RelationNode}, node.Valid →
    AllValid more → ∀ {text : List Char} {tokens : List Token}, Lexes text tokens →
    Lexes (node.chars ++ moreChars more ++ text)
      ((segmentsTree node more).tokens ++ .closeList :: tokens)
  | node, [], h, _, text, tokens, htext => by
    have hclose : Lexes (']' :: text) (.closeList :: tokens) := .mark (by decide) htext
    have hnode := lexes_chars h (ends_cons (by decide) _) hclose
    simpa [moreChars, segmentsTree, SegmentsTree.tokens] using hnode
  | node, other :: more, h, hmore, text, tokens, htext => by
    rw [AllValid] at hmore
    have hothers := lexes_comma (lexes_segments hmore.1 hmore.2 htext)
    have hnode := lexes_chars h (ends_cons (by decide) _) hothers
    simpa [moreChars, segmentsTree, SegmentsTree.tokens] using hnode
termination_by node more => (sizeOf node + sizeOf more, 1)

end

end RelationNode

namespace Expression

open RelationNode (AllValid lexes_segments segmentsTree nodes_segmentsTree)

/-! ### Reading nodes back -/

/-- The derivation of the text of nodes. -/
def derivationOf : List RelationNode → Derivation
  | [] => .empty
  | node :: rest => .list (.bracketed (segmentsTree node rest))

theorem nodes_derivationOf (nodes : List RelationNode) : (derivationOf nodes).nodes = nodes := by
  cases nodes with
  | nil => rfl
  | cons node rest =>
      rw [derivationOf, Derivation.nodes, ListTree.nodes, nodes_segmentsTree]

theorem derives_render {nodes : List RelationNode} (h : AllValid nodes) :
    Derives (render nodes) (derivationOf nodes) := by
  unfold Derives render
  rw [String.toList_ofList]
  cases nodes with
  | nil => exact .nil
  | cons node rest =>
      rw [AllValid] at h
      have hopen : Lexes ('[' :: _) (.openList :: _) :=
        .mark (by decide) (lexes_segments h.1 h.2 .nil)
      simpa [renderChars, derivationOf, Derivation.tokens, ListTree.tokens] using hopen

/-- **Nodes with valid names are read back from their text.** -/
theorem parse_render {nodes : List RelationNode} (h : AllValid nodes) :
    parse (render nodes) = .ok nodes := by
  rw [parse_of_derives (derives_render h), nodes_derivationOf]

/-! ### Names that are read -/

/-- The names among the tokens of a text are names. -/
theorem Lexes.isName {text : List Char} {tokens : List Token} (h : Lexes text tokens)
    {name : String} (hname : .name name.toList ∈ tokens) : IsName name := by
  induction h with
  | nil => exact absurd hname (by simp)
  | blank _ _ ih => exact ih hname
  | mark hc _ ih =>
      rcases List.mem_cons.mp hname with rfl | hname
      · exact absurd hc (by simp [marks])
      · exact ih hname
  | name hne hrun _ _ ih =>
      rcases List.mem_cons.mp hname with heq | hname
      · cases heq
        exact ⟨hne, hrun⟩
      · exact ih hname

theorem mem_nameTokens {name : String} {names : List String} (h : name ∈ names) :
    .name name.toList ∈ nameTokens names := by
  fun_induction nameTokens names with
  | case1 => exact absurd h (by simp)
  | case2 other =>
      obtain rfl := List.mem_singleton.mp h
      exact List.mem_singleton_self _
  | case3 other rest _ ih =>
      rcases List.mem_cons.mp h with rfl | h
      · exact List.mem_cons_self
      · exact List.mem_cons_of_mem _ (List.mem_cons_of_mem _ (ih h))

/-- The names of a head are among its tokens. -/
theorem Head.valid {head : Head} {tokens : List Token} (htokens : head.tokens ⊆ tokens)
    (h : ∀ name : String, .name name.toList ∈ tokens → IsName name) :
    IsName head.name ∧ (∀ other ∈ head.asName, IsName other)
      ∧ ∀ modifier ∈ head.modifiers, IsName modifier := by
  obtain ⟨asName, name, modifiers⟩ := head
  refine ⟨h name (htokens (by simp [Head.tokens])), ?_, ?_⟩
  · rintro other ⟨⟩
    exact h other (htokens (by simp [Head.tokens, aliasTokens]))
  · intro modifier hmodifier
    have hmem := mem_nameTokens hmodifier
    cases modifiers with
    | nil => exact absurd hmodifier (by simp)
    | cons first rest => exact h modifier (htokens (by simp [Head.tokens, modifierTokens, hmem]))

mutual

/-- What is derived is valid if its tokens are. -/
theorem ListTree.valid : ∀ (tree : ListTree) {tokens : List Token}, tree.tokens ⊆ tokens →
    (∀ name : String, .name name.toList ∈ tokens → IsName name) → AllValid tree.nodes
  | .bracketed segments, tokens, htokens, h => by
    rw [ListTree.nodes]
    refine segments.valid (fun token htoken => htokens ?_) h
    simp [ListTree.tokens, htoken]
  | .bare segment, tokens, htokens, h => by
    rw [ListTree.nodes, AllValid]
    rw [ListTree.tokens] at htokens
    exact ⟨segment.valid htokens h, trivial⟩

theorem SegmentsTree.valid : ∀ (tree : SegmentsTree) {tokens : List Token}, tree.tokens ⊆ tokens →
    (∀ name : String, .name name.toList ∈ tokens → IsName name) → AllValid tree.nodes
  | .last segment, tokens, htokens, h => by
    rw [SegmentsTree.nodes, AllValid]
    rw [SegmentsTree.tokens] at htokens
    exact ⟨segment.valid htokens h, trivial⟩
  | .more segment rest, tokens, htokens, h => by
    rw [SegmentsTree.nodes, AllValid]
    refine ⟨segment.valid (fun token htoken => htokens ?_) h,
      rest.valid (fun token htoken => htokens ?_) h⟩
    · simp [SegmentsTree.tokens, htoken]
    · simp [SegmentsTree.tokens, htoken]

theorem SegmentTree.valid : ∀ (tree : SegmentTree) {tokens : List Token}, tree.tokens ⊆ tokens →
    (∀ name : String, .name name.toList ∈ tokens → IsName name) → tree.node.Valid
  | .leaf head, tokens, htokens, h => by
    rw [SegmentTree.tokens] at htokens
    obtain ⟨hname, hasName, hmodifiers⟩ := Head.valid htokens h
    rw [SegmentTree.node]
    exact ⟨hname, hasName, hmodifiers, trivial⟩
  | .parent head children, tokens, htokens, h => by
    have hhead : head.tokens ⊆ tokens := fun token htoken =>
      htokens (by simp [SegmentTree.tokens, htoken])
    have hchildren : children.tokens ⊆ tokens := fun token htoken =>
      htokens (by simp [SegmentTree.tokens, htoken])
    obtain ⟨hname, hasName, hmodifiers⟩ := Head.valid hhead h
    rw [SegmentTree.node]
    exact ⟨hname, hasName, hmodifiers, children.valid hchildren h⟩

end

/-- All names in what is read from a text are names. -/
theorem parse_valid {text : String} {nodes : List RelationNode} (h : parse text = .ok nodes) :
    AllValid nodes := by
  obtain ⟨derivation, hderives, rfl⟩ := derives_of_parse h
  cases derivation with
  | empty => trivial
  | list tree => exact tree.valid (List.Subset.refl _) fun name hname => hderives.isName hname

/-- **Nodes are read back from their text exactly if their names are names of expressions.** -/
theorem parse_render_iff {nodes : List RelationNode} :
    parse (render nodes) = .ok nodes ↔ AllValid nodes :=
  ⟨parse_valid, parse_render⟩

/-- **The text of nodes is a normal form.**  Nodes are read back from it exactly if their names are
names; so whatever text they were read from, theirs is read as the same nodes, and rendering these
again gives it again. -/
theorem render_normal :
    (∀ nodes, parse (render nodes) = .ok nodes ↔ AllValid nodes)
      ∧ ∀ text nodes, parse text = .ok nodes →
        parse (render nodes) = .ok nodes
          ∧ (parse (render nodes)).map render = .ok (render nodes) := by
  refine ⟨fun nodes => parse_render_iff, fun text nodes h => ?_⟩
  have hagain : parse (render nodes) = .ok nodes := parse_render (parse_valid h)
  refine ⟨hagain, ?_⟩
  rw [hagain]
  rfl

/-- Blanks and brackets around an only child are left out. -/
theorem render_normal_posts :
    ∃ nodes, parse " [ posts . [ author ] ] " = .ok nodes ∧ render nodes = "[posts.author]"
      ∧ parse "[posts.author]" = .ok nodes := by
  have hread : ((parse " [ posts . [ author ] ] ").toOption.any fun nodes =>
      render nodes == "[posts.author]") = true := by decide +kernel
  obtain ⟨nodes, hparse, hrender⟩ := Outcome.ok_of_any hread
  have hnormal : render nodes = "[posts.author]" := beq_iff_eq.mp hrender
  exact ⟨nodes, hparse, hnormal, hnormal ▸ (render_normal.2 _ nodes hparse).1⟩

end Expression

end GraphFetch
