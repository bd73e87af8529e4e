/-
The grammar of eager expressions, and that its derivations are what is read.

    expression := "" | list
    list       := "[" segments "]" | segment
    segments   := segment ("," segments)?
    segment    := (name ":")? name ("(" name ("," name)* ")")? ("." list)?

The grammar is one of tokens, so a text is cut into tokens first: names as long as they
can be, marks by themselves, and blanks dropped.  A derivation is a tree with a
constructor for each way in which a phrase can be formed; its tokens are those that it
derives, and its nodes what they mean.

The readers and the trees are kept together by the one token that stands behind a phrase.
A segment goes on with a colon, a parenthesis or a dot, and what may stand behind it is a
comma, a bracket or nothing.  So a reader that takes tokens of a tree takes all of them
and no more, and two trees that derive the same tokens are the same tree.
-/
import GraphFetch.Expression.Parser
import GraphFetch.Proofs.Expression.Scanning
import GraphFetch.Proofs.Outcome

namespace GraphFetch

namespace Expression

/-! ### Derivations -/

/-- What a segment begins with: the key and the name of its relation, and the modifiers. -/
structure Head where
  asName : Option String
  name : String
  modifiers : List String

mutual

/-- A derivation of a list. -/
inductive ListTree
  | bracketed (segments : SegmentsTree)
  | bare (segment : SegmentTree)

/-- A derivation of segments with commas between them. -/
inductive SegmentsTree
  | last (segment : SegmentTree)
  | more (segment : SegmentTree) (rest : SegmentsTree)

/-- A derivation of a segment. -/
inductive SegmentTree
  | leaf (head : Head)
  | parent (head : Head) (children : ListTree)

end

/-- A derivation of an expression. -/
inductive Derivation
  | empty
  | list (tree : ListTree)

def aliasTokens : Option String → List Token
  | none => []
  | some name => [.name name.toList, .colon]

/-- Names with commas between them. -/
def nameTokens : List String → List Token
  | [] => []
  | [name] => [.name name.toList]
  | name :: rest => .name name.toList :: .comma :: nameTokens rest

/-- Names in parentheses, nothing if there are none. -/
def modifierTokens : List String → List Token
  | [] => []
  | names => .openModifiers :: (nameTokens names ++ [.closeModifiers])

def Head.tokens (head : Head) : List Token :=
  aliasTokens head.asName ++ .name head.name.toList :: modifierTokens head.modifiers

mutual

def ListTree.tokens : ListTree → List Token
  | .bracketed segments => .openList :: (segments.tokens ++ [.closeList])
  | .bare segment => segment.tokens

def SegmentsTree.tokens : SegmentsTree → List Token
  | .last segment => segment.tokens
  | .more segment rest => segment.tokens ++ .comma :: rest.tokens

def SegmentTree.tokens : SegmentTree → List Token
  | .leaf head => head.tokens
  | .parent head children => head.tokens ++ .dot :: children.tokens

end

/-- The tokens that are derived. -/
def Derivation.tokens : Derivation → List Token
  | empty => []
  | list tree => tree.tokens

mutual

def ListTree.nodes : ListTree → List RelationNode
  | .bracketed segments => segments.nodes
  | .bare segment => [segment.node]

def SegmentsTree.nodes : SegmentsTree → List RelationNode
  | .last segment => [segment.node]
  | .more segment rest => segment.node :: rest.nodes

def SegmentTree.node : SegmentTree → RelationNode
  | .leaf head => ⟨head.name, head.asName, head.modifiers, []⟩
  | .parent head children => ⟨head.name, head.asName, head.modifiers, children.nodes⟩

end

/-- The nodes that a derivation stands for. -/
def Derivation.nodes : Derivation → List RelationNode
  | empty => []
  | list tree => tree.nodes

/-- Whether a text has a derivation. -/
def Derives (input : String) (derivation : Derivation) : Prop :=
  Lexes input.toList derivation.tokens

/-! ### Reading what is derived -/

/-- Whether no segment goes on with these tokens. -/
def Follows (tokens : List Token) : Prop :=
  ∀ token ∈ tokens.head?, token = .comma ∨ token = .closeList

/-- Whether a segment's head ends before these tokens. -/
def Below (tokens : List Token) : Prop :=
  ∀ token ∈ tokens.head?, token ≠ .colon ∧ token ≠ .openModifiers

theorem Follows.below {tokens : List Token} (h : Follows tokens) : Below tokens := by
  intro token htoken
  rcases h token htoken with rfl | rfl
  · exact ⟨nofun, nofun⟩
  · exact ⟨nofun, nofun⟩

theorem below_dot (tokens : List Token) : Below (.dot :: tokens) := by
  rintro token ⟨⟩
  exact ⟨nofun, nofun⟩

theorem follows_nil : Follows [] := nofun

theorem follows_comma (tokens : List Token) : Follows (.comma :: tokens) := by
  rintro token ⟨⟩
  exact Or.inl rfl

theorem follows_closeList (tokens : List Token) : Follows (.closeList :: tokens) := by
  rintro token ⟨⟩
  exact Or.inr rfl

theorem exists_spot {spots : List Spot} {token : Token} {tokens : List Token}
    (h : spots.map Spot.token = token :: tokens) :
    ∃ offset more, spots = ⟨token, offset⟩ :: more ∧ more.map Spot.token = tokens := by
  obtain ⟨⟨_, offset⟩, more, rfl, rfl, hmore⟩ := List.map_eq_cons_iff.mp h
  exact ⟨offset, more, rfl, hmore⟩

theorem readHead_eq {name : String} {asName : Option String} {spots rest : List Spot}
    (hspots : spots.map Spot.token = aliasTokens asName ++ [.name name.toList])
    (hrest : ∀ spot ∈ rest.head?, spot.token ≠ .colon) :
    readHead (spots ++ rest) = .ok ((name, asName), rest) := by
  cases asName with
  | none =>
      obtain ⟨offset, more, rfl, hmore⟩ := exists_spot hspots
      obtain rfl := List.map_eq_nil_iff.mp hmore
      have hname : readName ([⟨.name name.toList, offset⟩] ++ rest) = .ok (name, rest) := by
        simp [readName]
      unfold readHead
      rw [hname]
      simp only [bind, Except.bind]
      split
      · rename_i next more
        exact absurd rfl (hrest _ rfl)
      · rfl
  | some other =>
      obtain ⟨offset, more, rfl, hcolon⟩ := exists_spot hspots
      obtain ⟨offset', more, rfl, hname⟩ := exists_spot hcolon
      obtain ⟨offset'', more, rfl, hnil⟩ := exists_spot hname
      obtain rfl := List.map_eq_nil_iff.mp hnil
      simp [readHead, readName, bind, Except.bind, pure, Except.pure]

theorem readModifierNames_eq {names : List String} (hne : names ≠ []) {spots rest : List Spot}
    (hspots : spots.map Spot.token = nameTokens names ++ [.closeModifiers]) :
    readModifierNames (spots ++ rest) = .ok (names, rest) := by
  induction names generalizing spots with
  | nil => exact absurd rfl hne
  | cons name more ih =>
      cases more with
      | nil =>
          obtain ⟨offset, spots, rfl, hclose⟩ := exists_spot hspots
          obtain ⟨offset', spots, rfl, hnil⟩ := exists_spot hclose
          obtain rfl := List.map_eq_nil_iff.mp hnil
          simp [readModifierNames]
      | cons other more =>
          obtain ⟨offset, spots, rfl, hcomma⟩ := exists_spot hspots
          obtain ⟨offset', spots, rfl, hnames⟩ := exists_spot hcomma
          have hmore := ih (by simp) hnames
          simp [readModifierNames, hmore, bind, Except.bind, pure, Except.pure]

theorem readModifiers_eq {modifiers : List String} {spots rest : List Spot}
    (hspots : spots.map Spot.token = modifierTokens modifiers)
    (hrest : ∀ spot ∈ rest.head?, spot.token ≠ .openModifiers) :
    readModifiers (spots ++ rest) = .ok (modifiers, rest) := by
  cases modifiers with
  | nil =>
      obtain rfl := List.map_eq_nil_iff.mp hspots
      rw [List.nil_append]
      unfold readModifiers
      split
      · exact absurd rfl (hrest _ rfl)
      · rfl
  | cons modifier more =>
      obtain ⟨offset, spots, rfl, hnames⟩ := exists_spot hspots
      exact readModifierNames_eq (by simp) hnames

/-- The tokens of a head are read as its parts, up to what follows. -/
theorem Head.read {head : Head} {spots rest : List Spot}
    (hspots : spots.map Spot.token = head.tokens) (hrest : Below (rest.map Spot.token)) :
    ∃ between, readHead (spots ++ rest) = .ok ((head.name, head.asName), between)
      ∧ readModifiers between = .ok (head.modifiers, rest) := by
  have hbelow : ∀ spot ∈ rest.head?, spot.token ≠ .colon ∧ spot.token ≠ .openModifiers := by
    intro spot hspot
    refine hrest spot.token ?_
    rw [List.head?_map]
    exact Option.mem_map_of_mem _ hspot
  rw [Head.tokens, List.append_cons] at hspots
  obtain ⟨named, modified, rfl, hnamed, hmodified⟩ := List.map_eq_append_iff.mp hspots
  refine ⟨modified ++ rest, ?_,
    readModifiers_eq hmodified fun spot hspot => (hbelow spot hspot).2⟩
  rw [List.append_assoc]
  refine readHead_eq hnamed ?_
  cases hmodifiers : head.modifiers with
  | nil =>
      rw [hmodifiers] at hmodified
      obtain rfl := List.map_eq_nil_iff.mp hmodified
      exact fun spot hspot => (hbelow spot hspot).1
  | cons modifier more =>
      rw [hmodifiers] at hmodified
      obtain ⟨offset, inside, rfl, -⟩ := exists_spot hmodified
      rintro spot ⟨⟩
      exact nofun

theorem Head.tokens_ne_nil (head : Head) : head.tokens ≠ [] := by
  rw [Head.tokens]
  simp

/-- A segment starts with a name. -/
theorem Head.starts (head : Head) (rest : List Token) :
    ∃ name more, head.tokens ++ rest = .name name :: more := by
  rw [Head.tokens]
  cases head.asName with
  | none => exact ⟨_, _, rfl⟩
  | some other => exact ⟨_, _, rfl⟩

theorem SegmentTree.starts (tree : SegmentTree) (rest : List Token) :
    ∃ name more, tree.tokens ++ rest = .name name :: more := by
  cases tree with
  | leaf head =>
      rw [SegmentTree.tokens]
      exact head.starts rest
  | parent head children =>
      rw [SegmentTree.tokens, List.append_assoc]
      exact head.starts _

mutual

/-- The tokens of a list are read as its nodes, up to what follows.  No reader goes on for more than
three calls without a token. -/
theorem readList_eq : ∀ (tree : ListTree) {fuel : Nat} {spots rest : List Spot},
    spots.map Spot.token = tree.tokens → 3 * spots.length ≤ fuel →
    Follows (rest.map Spot.token) → readList fuel (spots ++ rest) = .ok (tree.nodes, rest)
  | .bracketed segments, fuel, spots, rest, hspots, hfuel, _ => by
    rw [ListTree.tokens] at hspots
    obtain ⟨offset, inside, rfl, hinside⟩ := exists_spot hspots
    rw [List.length_cons] at hfuel
    obtain ⟨fuel, rfl⟩ : ∃ less, fuel = less + 1 := ⟨fuel - 1, by omega⟩
    rw [ListTree.nodes]
    exact readSegments_eq segments hinside (by omega)
  | .bare segment, fuel, spots, rest, hspots, hfuel, hrest => by
    rw [ListTree.tokens] at hspots
    obtain ⟨name, more, hname⟩ := segment.starts []
    rw [List.append_nil] at hname
    obtain ⟨offset, inside, rfl, -⟩ := exists_spot (hspots.trans hname)
    rw [List.length_cons] at hfuel
    obtain ⟨fuel, rfl⟩ : ∃ less, fuel = less + 1 := ⟨fuel - 1, by omega⟩
    rw [readList, readSegment_eq segment hspots (by rw [List.length_cons]; omega) hrest,
      ListTree.nodes]
    · rfl
    · rintro offset more ⟨⟩

theorem readSegments_eq : ∀ (tree : SegmentsTree) {fuel : Nat} {spots rest : List Spot},
    spots.map Spot.token = tree.tokens ++ [.closeList] → 3 * spots.length ≤ fuel + 1 →
    readSegments fuel (spots ++ rest) = .ok (tree.nodes, rest)
  | .last segment, fuel, spots, rest, hspots, hfuel => by
    rw [SegmentsTree.tokens] at hspots
    obtain ⟨first, close, rfl, hfirst, hclose⟩ := List.map_eq_append_iff.mp hspots
    obtain ⟨offset, nothing, rfl, hnil⟩ := exists_spot hclose
    obtain rfl := List.map_eq_nil_iff.mp hnil
    rw [List.length_append, List.length_singleton] at hfuel
    obtain ⟨fuel, rfl⟩ : ∃ less, fuel = less + 1 := ⟨fuel - 1, by omega⟩
    have hbehind : Follows ((⟨.closeList, offset⟩ :: rest).map Spot.token) := follows_closeList _
    rw [List.append_assoc, readSegments, SegmentsTree.nodes]
    rw [List.singleton_append, readSegment_eq segment hfirst (by omega) hbehind]
    rfl
  | .more segment others, fuel, spots, rest, hspots, hfuel => by
    rw [SegmentsTree.tokens, List.append_assoc] at hspots
    obtain ⟨first, behind, rfl, hfirst, hbehind⟩ := List.map_eq_append_iff.mp hspots
    obtain ⟨offset, inside, rfl, hinside⟩ := exists_spot hbehind
    rw [List.length_append, List.length_cons] at hfuel
    obtain ⟨fuel, rfl⟩ : ∃ less, fuel = less + 1 := ⟨fuel - 1, by omega⟩
    have hbehind : Follows ((⟨.comma, offset⟩ :: (inside ++ rest)).map Spot.token) :=
      follows_comma _
    rw [List.append_assoc, readSegments, SegmentsTree.nodes]
    rw [List.cons_append, readSegment_eq segment hfirst (by omega) hbehind]
    simp only [bind, Except.bind]
    rw [readSegments_eq others hinside (by omega)]
    rfl

theorem readSegment_eq : ∀ (tree : SegmentTree) {fuel : Nat} {spots rest : List Spot},
    spots.map Spot.token = tree.tokens → 3 * spots.length ≤ fuel + 2 →
    Follows (rest.map Spot.token) → readSegment fuel (spots ++ rest) = .ok (tree.node, rest)
  | .leaf head, fuel, spots, rest, hspots, hfuel, hrest => by
    rw [SegmentTree.tokens] at hspots
    have hlength : 0 < spots.length := by
      rw [← List.length_map Spot.token, hspots]
      exact List.length_pos_iff.mpr head.tokens_ne_nil
    obtain ⟨fuel, rfl⟩ : ∃ less, fuel = less + 1 := ⟨fuel - 1, by omega⟩
    obtain ⟨between, hhead, hmodifiers⟩ := Head.read hspots hrest.below
    rw [readSegment, hhead, SegmentTree.node]
    simp only [bind, Except.bind]
    rw [hmodifiers]
    dsimp only
    split
    · exact nomatch hrest .dot rfl
    · rfl
  | .parent head children, fuel, spots, rest, hspots, hfuel, hrest => by
    rw [SegmentTree.tokens] at hspots
    obtain ⟨first, behind, rfl, hfirst, hbehind⟩ := List.map_eq_append_iff.mp hspots
    obtain ⟨offset, inside, rfl, hinside⟩ := exists_spot hbehind
    have hlength : 0 < first.length := by
      rw [← List.length_map Spot.token, hfirst]
      exact List.length_pos_iff.mpr head.tokens_ne_nil
    rw [List.length_append, List.length_cons] at hfuel
    obtain ⟨fuel, rfl⟩ : ∃ less, fuel = less + 1 := ⟨fuel - 1, by omega⟩
    have hdot : Below ((⟨.dot, offset⟩ :: (inside ++ rest)).map Spot.token) := below_dot _
    obtain ⟨between, hhead, hmodifiers⟩ := Head.read hfirst hdot
    rw [List.append_assoc, List.cons_append, readSegment, hhead, SegmentTree.node]
    simp only [bind, Except.bind]
    rw [hmodifiers]
    dsimp only
    rw [readList_eq children hinside (by omega) hrest]
    rfl

end

/-- The tokens of a derivation are read as its nodes. -/
theorem readAll_eq (derivation : Derivation) {spots : List Spot}
    (hspots : spots.map Spot.token = derivation.tokens) : readAll spots = .ok derivation.nodes := by
  cases derivation with
  | empty =>
      obtain rfl := List.map_eq_nil_iff.mp hspots
      rfl
  | list tree =>
      have hlist : readList (3 * spots.length) (spots ++ []) = .ok (tree.nodes, []) :=
        readList_eq tree hspots (Nat.le_refl _) follows_nil
      rw [List.append_nil] at hlist
      cases spots with
      | nil => exact nomatch hlist
      | cons spot rest =>
          rw [readAll, hlist]
          · rfl
          · exact List.cons_ne_nil _ _

/-! ### Deriving what is read -/

open Outcome (bind_ok)

theorem readName_tokens {spots rest : List Spot} {name : String}
    (h : readName spots = .ok (name, rest)) :
    spots.map Spot.token = .name name.toList :: rest.map Spot.token := by
  unfold readName at h
  split at h
  · cases h
    simp
  · cases h

theorem readHead_tokens {spots rest : List Spot} {name : String} {asName : Option String}
    (h : readHead spots = .ok ((name, asName), rest)) :
    spots.map Spot.token = aliasTokens asName ++ .name name.toList :: rest.map Spot.token := by
  unfold readHead at h
  obtain ⟨⟨first, behind⟩, hfirst, h⟩ := bind_ok.mp h
  rw [readName_tokens hfirst]
  dsimp only at h
  split at h
  · obtain ⟨⟨second, after⟩, hsecond, h⟩ := bind_ok.mp h
    cases h
    rw [List.map_cons, readName_tokens hsecond]
    rfl
  · cases h
    rfl

theorem readModifierNames_tokens {spots rest : List Spot} {names : List String}
    (h : readModifierNames spots = .ok (names, rest)) :
    names ≠ []
      ∧ spots.map Spot.token = nameTokens names ++ .closeModifiers :: rest.map Spot.token := by
  fun_induction readModifierNames spots generalizing names rest with
  | case1 chars offset offset' more ih =>
      obtain ⟨⟨others, behind⟩, hothers, h⟩ := bind_ok.mp h
      obtain ⟨hne, hmore⟩ := ih hothers
      cases h
      refine ⟨by simp, ?_⟩
      obtain ⟨other, others, rfl⟩ := List.exists_cons_of_ne_nil hne
      simp [nameTokens, hmore]
  | case2 chars offset offset' more =>
      cases h
      simp [nameTokens]
  | case3 => cases h
  | case4 => cases h

theorem readModifiers_tokens {spots rest : List Spot} {names : List String}
    (h : readModifiers spots = .ok (names, rest)) :
    spots.map Spot.token = modifierTokens names ++ rest.map Spot.token := by
  unfold readModifiers at h
  split at h
  · obtain ⟨hne, hmore⟩ := readModifierNames_tokens h
    obtain ⟨name, others, rfl⟩ := List.exists_cons_of_ne_nil hne
    simp [modifierTokens, hmore]
  · cases h
    rfl

mutual

/-- What is read as a list is derived by one, whatever fuel is left.  Each reader calls the next
with less. -/
theorem readList_derived : ∀ (fuel : Nat) {spots rest : List Spot} {nodes : List RelationNode},
    readList fuel spots = .ok (nodes, rest) →
    ∃ tree : ListTree, spots.map Spot.token = tree.tokens ++ rest.map Spot.token
      ∧ tree.nodes = nodes
  | 0, spots, rest, nodes, h => by
    rw [readList] at h
    cases h
  | fuel + 1, spots, rest, nodes, h => by
    unfold readList at h
    split at h
    · cases ‹_ = 0›
    · rename_i heq
      cases heq
      obtain ⟨tree, htokens, hnodes⟩ := readSegments_derived fuel h
      exact ⟨.bracketed tree, by simp [ListTree.tokens, htokens], by rw [ListTree.nodes, hnodes]⟩
    · rename_i less heq _
      obtain rfl : fuel = less := Nat.succ.inj heq
      obtain ⟨⟨node, behind⟩, hnode, h⟩ := bind_ok.mp h
      obtain ⟨tree, htokens, hnodes⟩ := readSegment_derived fuel hnode
      cases h
      exact ⟨.bare tree, by rw [ListTree.tokens, htokens], by rw [ListTree.nodes, hnodes]⟩

theorem readSegments_derived : ∀ (fuel : Nat) {spots rest : List Spot} {nodes : List RelationNode},
    readSegments fuel spots = .ok (nodes, rest) →
    ∃ tree : SegmentsTree,
      spots.map Spot.token = tree.tokens ++ .closeList :: rest.map Spot.token
        ∧ tree.nodes = nodes
  | 0, spots, rest, nodes, h => by
    rw [readSegments] at h
    cases h
  | fuel + 1, spots, rest, nodes, h => by
    rw [readSegments] at h
    obtain ⟨⟨node, behind⟩, hnode, h⟩ := bind_ok.mp h
    obtain ⟨first, hfirst, rfl⟩ := readSegment_derived fuel hnode
    dsimp only at h
    split at h
    · obtain ⟨⟨nodes, after⟩, hnodes, h⟩ := bind_ok.mp h
      obtain ⟨others, hothers, rfl⟩ := readSegments_derived fuel hnodes
      cases h
      exact ⟨.more first others, by simp [SegmentsTree.tokens, hfirst, hothers],
        by rw [SegmentsTree.nodes]⟩
    · cases h
      exact ⟨.last first, by simp [SegmentsTree.tokens, hfirst], by rw [SegmentsTree.nodes]⟩
    · cases h

theorem readSegment_derived : ∀ (fuel : Nat) {spots rest : List Spot} {node : RelationNode},
    readSegment fuel spots = .ok (node, rest) →
    ∃ tree : SegmentTree, spots.map Spot.token = tree.tokens ++ rest.map Spot.token
      ∧ tree.node = node
  | 0, spots, rest, node, h => by
    rw [readSegment] at h
    cases h
  | fuel + 1, spots, rest, node, h => by
    rw [readSegment] at h
    obtain ⟨⟨⟨name, asName⟩, afterHead⟩, hhead, h⟩ := bind_ok.mp h
    obtain ⟨⟨modifiers, behind⟩, hmodifiers, h⟩ := bind_ok.mp h
    let head : Head := ⟨asName, name, modifiers⟩
    have htokens : spots.map Spot.token = head.tokens ++ behind.map Spot.token := by
      rw [readHead_tokens hhead, readModifiers_tokens hmodifiers, Head.tokens, List.append_assoc,
        List.cons_append]
    dsimp only at h
    split at h
    · obtain ⟨⟨children, after⟩, hchildren, h⟩ := bind_ok.mp h
      obtain ⟨tree, htree, rfl⟩ := readList_derived fuel hchildren
      cases h
      exact ⟨.parent head tree, by simp [SegmentTree.tokens, htokens, htree],
        by rw [SegmentTree.node]⟩
    · cases h
      exact ⟨.leaf head, by rw [SegmentTree.tokens, htokens], by rw [SegmentTree.node]⟩

end

theorem readAll_derived {spots : List Spot} {nodes : List RelationNode}
    (h : readAll spots = .ok nodes) :
    ∃ derivation : Derivation, spots.map Spot.token = derivation.tokens
      ∧ derivation.nodes = nodes := by
  unfold readAll at h
  split at h
  · cases h
    exact ⟨.empty, rfl, rfl⟩
  · obtain ⟨⟨found, rest⟩, hlist, h⟩ := bind_ok.mp h
    obtain ⟨tree, htokens, hnodes⟩ := readList_derived _ hlist
    dsimp only at h
    split at h
    · cases h
      exact ⟨.list tree, by simpa [Derivation.tokens] using htokens, hnodes⟩
    · cases h

/-! ### One derivation at most -/

/-- Heads with the same tokens are the same, since both are what is read. -/
theorem Head.tokens_append_inj {head other : Head} {rest more : List Token}
    (h : head.tokens ++ rest = other.tokens ++ more) (hrest : Below rest) (hmore : Below more) :
    head = other ∧ rest = more := by
  let spotsOf (tokens : List Token) : List Spot := tokens.map fun token => ⟨token, 0⟩
  have htokens : ∀ tokens, (spotsOf tokens).map Spot.token = tokens := by
    intro tokens
    simp [spotsOf, Function.comp_def]
  obtain ⟨between, hhead, hmodifiers⟩ := Head.read (htokens head.tokens)
    (show Below ((spotsOf rest).map Spot.token) by rwa [htokens])
  obtain ⟨between', hhead', hmodifiers'⟩ := Head.read (htokens other.tokens)
    (show Below ((spotsOf more).map Spot.token) by rwa [htokens])
  have hspots : spotsOf head.tokens ++ spotsOf rest = spotsOf other.tokens ++ spotsOf more := by
    rw [← List.map_append, ← List.map_append, h]
  rw [hspots, hhead'] at hhead
  obtain ⟨⟨hname, hasName⟩, rfl⟩ : (other.name = head.name ∧ other.asName = head.asName)
      ∧ between' = between := by simpa using hhead
  rw [hmodifiers'] at hmodifiers
  obtain ⟨hmodified, hbehind⟩ : other.modifiers = head.modifiers ∧ spotsOf more = spotsOf rest := by
    simpa using hmodifiers
  refine ⟨?_, ?_⟩
  · cases head
    cases other
    simp_all
  · rw [← htokens rest, ← htokens more, hbehind]

mutual

theorem ListTree.tokens_append_inj : ∀ (tree other : ListTree) {rest more : List Token},
    tree.tokens ++ rest = other.tokens ++ more → Follows rest → Follows more →
    tree = other ∧ rest = more
  | .bracketed segments, .bracketed others, rest, more, h, _, _ => by
    simp only [ListTree.tokens, List.cons_append, List.append_assoc, List.cons.injEq,
      true_and] at h
    obtain ⟨rfl, rfl⟩ := SegmentsTree.tokens_append_inj segments others h
    exact ⟨rfl, rfl⟩
  | .bracketed segments, .bare segment, rest, more, h, _, _ => by
    obtain ⟨name, behind, hname⟩ := segment.starts more
    simp [ListTree.tokens, hname] at h
  | .bare segment, .bracketed segments, rest, more, h, _, _ => by
    obtain ⟨name, behind, hname⟩ := segment.starts rest
    simp [ListTree.tokens, hname] at h
  | .bare segment, .bare other, rest, more, h, hrest, hmore => by
    simp only [ListTree.tokens] at h
    obtain ⟨rfl, rfl⟩ := SegmentTree.tokens_append_inj segment other h hrest hmore
    exact ⟨rfl, rfl⟩

theorem SegmentsTree.tokens_append_inj : ∀ (tree other : SegmentsTree) {rest more : List Token},
    tree.tokens ++ .closeList :: rest = other.tokens ++ .closeList :: more →
    tree = other ∧ rest = more
  | .last segment, .last other, rest, more, h => by
    simp only [SegmentsTree.tokens] at h
    obtain ⟨rfl, hrest⟩ := SegmentTree.tokens_append_inj segment other h (follows_closeList _)
      (follows_closeList _)
    exact ⟨rfl, (List.cons.inj hrest).2⟩
  | .last segment, .more other others, rest, more, h => by
    simp only [SegmentsTree.tokens, List.append_assoc, List.cons_append] at h
    obtain ⟨-, hrest⟩ := SegmentTree.tokens_append_inj segment other h (follows_closeList _)
      (follows_comma _)
    exact nomatch (List.cons.inj hrest).1
  | .more segment segments, .last other, rest, more, h => by
    simp only [SegmentsTree.tokens, List.append_assoc, List.cons_append] at h
    obtain ⟨-, hrest⟩ := SegmentTree.tokens_append_inj segment other h (follows_comma _)
      (follows_closeList _)
    exact nomatch (List.cons.inj hrest).1
  | .more segment segments, .more other others, rest, more, h => by
    simp only [SegmentsTree.tokens, List.append_assoc, List.cons_append] at h
    obtain ⟨rfl, hrest⟩ := SegmentTree.tokens_append_inj segment other h (follows_comma _)
      (follows_comma _)
    obtain ⟨rfl, rfl⟩ := SegmentsTree.tokens_append_inj segments others (List.cons.inj hrest).2
    exact ⟨rfl, rfl⟩

theorem SegmentTree.tokens_append_inj : ∀ (tree other : SegmentTree) {rest more : List Token},
    tree.tokens ++ rest = other.tokens ++ more → Follows rest → Follows more →
    tree = other ∧ rest = more
  | .leaf head, .leaf other, rest, more, h, hrest, hmore => by
    simp only [SegmentTree.tokens] at h
    obtain ⟨rfl, rfl⟩ := Head.tokens_append_inj h hrest.below hmore.below
    exact ⟨rfl, rfl⟩
  | .leaf head, .parent other children, rest, more, h, hrest, _ => by
    simp only [SegmentTree.tokens, List.append_assoc, List.cons_append] at h
    obtain ⟨-, rfl⟩ := Head.tokens_append_inj h hrest.below (below_dot _)
    exact nomatch hrest .dot rfl
  | .parent head children, .leaf other, rest, more, h, _, hmore => by
    simp only [SegmentTree.tokens, List.append_assoc, List.cons_append] at h
    obtain ⟨-, rfl⟩ := Head.tokens_append_inj h (below_dot _) hmore.below
    exact nomatch hmore .dot rfl
  | .parent head children, .parent other others, rest, more, h, hrest, hmore => by
    simp only [SegmentTree.tokens, List.append_assoc, List.cons_append] at h
    obtain ⟨rfl, hbehind⟩ := Head.tokens_append_inj h (below_dot _) (below_dot _)
    obtain ⟨rfl, rfl⟩ := ListTree.tokens_append_inj children others (List.cons.inj hbehind).2 hrest
      hmore
    exact ⟨rfl, rfl⟩

end

theorem ListTree.tokens_ne_nil (tree : ListTree) : tree.tokens ≠ [] := by
  cases tree with
  | bracketed segments => simp [ListTree.tokens]
  | bare segment =>
      obtain ⟨name, more, hname⟩ := segment.starts []
      rw [List.append_nil] at hname
      rw [ListTree.tokens, hname]
      exact List.cons_ne_nil _ _

/-- Derivations of the same tokens are the same. -/
theorem Derivation.tokens_injective {derivation other : Derivation}
    (h : derivation.tokens = other.tokens) : derivation = other := by
  cases derivation with
  | empty =>
      cases other with
      | empty => rfl
      | list tree => exact absurd h.symm tree.tokens_ne_nil
  | list tree =>
      cases other with
      | empty => exact absurd h tree.tokens_ne_nil
      | list other =>
          have hnil : tree.tokens ++ [] = other.tokens ++ [] := congrArg (· ++ []) h
          obtain ⟨rfl, -⟩ := ListTree.tokens_append_inj tree other hnil follows_nil follows_nil
          rfl

/-! ### Parsing -/

theorem Lexes.unique {text : List Char} {tokens others : List Token} (h : Lexes text tokens)
    (hothers : Lexes text others) : tokens = others :=
  (scan_of_lexes h 0).symm.trans (scan_of_lexes hothers 0)

theorem stray_notMem_nameTokens (c : Char) (names : List String) :
    Token.stray c ∉ nameTokens names := by
  fun_induction nameTokens names with
  | case1 => simp
  | case2 name => simp
  | case3 name rest _ ih => simp [ih]

theorem Head.stray_notMem (c : Char) (head : Head) : Token.stray c ∉ head.tokens := by
  obtain ⟨asName, name, modifiers⟩ := head
  have hnames := stray_notMem_nameTokens c modifiers
  cases asName <;> cases modifiers <;> simp [Head.tokens, aliasTokens, modifierTokens, hnames]

mutual

theorem ListTree.stray_notMem (c : Char) : ∀ tree : ListTree, Token.stray c ∉ tree.tokens
  | .bracketed segments => by simp [ListTree.tokens, SegmentsTree.stray_notMem c segments]
  | .bare segment => by simp [ListTree.tokens, SegmentTree.stray_notMem c segment]

theorem SegmentsTree.stray_notMem (c : Char) : ∀ tree : SegmentsTree, Token.stray c ∉ tree.tokens
  | .last segment => by simp [SegmentsTree.tokens, SegmentTree.stray_notMem c segment]
  | .more segment rest => by
    simp [SegmentsTree.tokens, SegmentTree.stray_notMem c segment, SegmentsTree.stray_notMem c rest]

theorem SegmentTree.stray_notMem (c : Char) : ∀ tree : SegmentTree, Token.stray c ∉ tree.tokens
  | .leaf head => by simp [SegmentTree.tokens, Head.stray_notMem c head]
  | .parent head children => by
    simp [SegmentTree.tokens, Head.stray_notMem c head, ListTree.stray_notMem c children]

end

theorem Derivation.stray_notMem (c : Char) (derivation : Derivation) :
    Token.stray c ∉ derivation.tokens := by
  cases derivation with
  | empty => simp [Derivation.tokens]
  | list tree => exact tree.stray_notMem c

theorem parse_ok {input : String} {nodes : List RelationNode} :
    parse input = .ok nodes ↔ readAll (scan 0 input.toList) = .ok nodes := by
  unfold parse
  split
  · rename_i found hfound
    rw [hfound]
    simp
  · rename_i hfound
    rw [hfound]
    simp

theorem parse_of_derives {input : String} {derivation : Derivation} (h : Derives input derivation) :
    parse input = .ok derivation.nodes :=
  parse_ok.mpr (readAll_eq derivation (scan_of_lexes h 0))

theorem derives_of_parse {input : String} {nodes : List RelationNode}
    (h : parse input = .ok nodes) :
    ∃ derivation, Derives input derivation ∧ derivation.nodes = nodes := by
  obtain ⟨derivation, htokens, hnodes⟩ := readAll_derived (parse_ok.mp h)
  refine ⟨derivation, ?_, hnodes⟩
  have hlexes : Lexes input.toList ((scan 0 input.toList).map Spot.token) :=
    lexes_of_scan fun c => htokens ▸ derivation.stray_notMem c
  rwa [htokens] at hlexes

/-- **What is parsed is what the grammar derives**: a text is read as nodes exactly if it has a
derivation that stands for them, and no text has two. -/
theorem parse_iff_derives :
    (∀ input nodes, parse input = .ok nodes
        ↔ ∃ derivation, Derives input derivation ∧ derivation.nodes = nodes)
      ∧ ∀ input derivation other, Derives input derivation → Derives input other →
        derivation = other := by
  refine ⟨fun input nodes => ⟨derives_of_parse, ?_⟩, ?_⟩
  · rintro ⟨derivation, hderives, rfl⟩
    exact parse_of_derives hderives
  · intro input derivation other hderives hother
    exact Derivation.tokens_injective (Lexes.unique hderives hother)

/-- A text with a bare segment, an alias, modifiers and a list is derived in one way. -/
theorem parse_iff_derives_posts :
    ∃ derivation, Derives "recent: posts (s0, f1) .[author, tags]" derivation
      ∧ render derivation.nodes = "[recent:posts(s0, f1).[author, tags]]"
      ∧ ∀ other, Derives "recent: posts (s0, f1) .[author, tags]" other → other = derivation := by
  have hread : ((parse "recent: posts (s0, f1) .[author, tags]").toOption.any fun nodes =>
      render nodes == "[recent:posts(s0, f1).[author, tags]]") = true := by decide +kernel
  obtain ⟨nodes, hparse, hrender⟩ := Outcome.ok_of_any hread
  obtain ⟨derivation, hderives, rfl⟩ := (parse_iff_derives.1 _ nodes).mp hparse
  exact ⟨derivation, hderives, beq_iff_eq.mp hrender, fun other hother =>
    parse_iff_derives.2 _ other derivation hother hderives⟩

end Expression

end GraphFetch
