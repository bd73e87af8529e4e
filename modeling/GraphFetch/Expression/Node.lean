/-
Eager expressions: which relations to fetch alongside the rows of a query.

A node names a relation, the key its rows are attached under, the modifiers of its
query and the relations to fetch below it.  Its text is a segment such as
`recent:posts(s0, f1).[comments, tags(s2)]`: one child follows a dot bare, several
stand in brackets.  The text of a list of nodes is always bracketed, and empty when
there is nothing to load.
-/

namespace GraphFetch

/-- One relation of an eager expression, with the modifiers of its query. -/
structure RelationNode where
  name : String
  asName : Option String
  modifiers : List String
  children : List RelationNode
deriving BEq, Inhabited

namespace RelationNode

/-- The member under which the loaded rows are attached to their owner. -/
def key (node : RelationNode) : String := node.asName.getD node.name

/-! ### Text -/

/-- Texts with a comma and a space between them. -/
def commaSeparated : List (List Char) → List Char
  | [] => []
  | [text] => text
  | text :: rest => text ++ ',' :: ' ' :: commaSeparated rest

/-- The alias and its colon. -/
def aliasChars : Option String → List Char
  | none => []
  | some name => name.toList ++ [':']

/-- The modifiers in parentheses, nothing if there are none. -/
def modifierChars : List String → List Char
  | [] => []
  | names => '(' :: (commaSeparated (names.map String.toList) ++ [')'])

mutual

/-- The segment of a node. -/
def chars : RelationNode → List Char
  | ⟨name, asName, modifiers, children⟩ =>
    aliasChars asName ++ name.toList ++ modifierChars modifiers ++ childChars children

/-- What follows a segment for its children. -/
def childChars : List RelationNode → List Char
  | [] => []
  | [child] => '.' :: chars child
  | child :: more => '.' :: '[' :: (chars child ++ moreChars more)

/-- The segments after the first one and the closing bracket. -/
def moreChars : List RelationNode → List Char
  | [] => [']']
  | node :: rest => ',' :: ' ' :: (chars node ++ moreChars rest)

end

/-- The segment of a node. -/
def text (node : RelationNode) : String := String.ofList node.chars

end RelationNode

namespace Expression

/-- The text of a list of nodes. -/
def renderChars : List RelationNode → List Char
  | [] => []
  | node :: rest => '[' :: (node.chars ++ RelationNode.moreChars rest)

/-- The text of a list of nodes, empty when there is nothing to load. -/
def render (nodes : List RelationNode) : String := String.ofList (renderChars nodes)

end Expression

end GraphFetch
