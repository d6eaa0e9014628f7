import SwiftRelations.Source.Span

/-!
# Concrete syntax trees

A file comes with the concrete syntax tree of its text. A node has a kind, which is the name of
the grammar's rule or the token itself, a place in the file, perhaps a field name in its parent,
and its children in order. Error recovery may leave any mix of nodes, so nothing is assumed about
which kinds stand below which.

A tree is written down as the list of its nodes in preorder, each with the number of its children:
`Tree.ofRows?` builds the tree from that list.

What is asked of a tree is the documented behaviour of the library tree-sitter: `kind`, `is_named`,
`children`, `child_by_field_name` and `children_by_field_name`. The parts of a tree follow
`children`, `named_children`, `operands`, `find_child`, `is_comment` and `is_operand`.
-/

namespace SwiftRelations

/-- What a node of a concrete syntax tree holds apart from its children. -/
structure TreeHead where
  /-- The place of the node in preorder, which tells it from every other node. -/
  index : Nat
  kind : String
  /-- Whether the grammar has a rule for the node, rather than a mere token. -/
  named : Bool
  /-- The field name of the node in its parent. -/
  field : Option String
  span : Span
  text : String
  /-- Fields of this node that are answered by some descendant, or by none, rather than by the
  first child with that field name. -/
  fieldAnswers : List (String × Option Nat)
  deriving Inhabited

/-- A concrete syntax tree. -/
inductive Tree where
  | node (head : TreeHead) (children : List Tree)
  deriving Inhabited

namespace Tree

/-- What the root holds. -/
def head : Tree → TreeHead
  | .node head _ => head

/-- The children of the root, comments included. -/
def children : Tree → List Tree
  | .node _ children => children

/-- The kind of the root. -/
abbrev kind (t : Tree) : String := t.head.kind

/-- The text the tree spans. -/
abbrev text (t : Tree) : String := t.head.text

/-- The place of the tree in the file. -/
abbrev span (t : Tree) : Span := t.head.span

mutual

/-- A tree and the trees below it, in preorder. -/
def subtrees : Tree → List Tree
  | .node head children => .node head children :: subtreesOfAll children

/-- The trees of a list and the trees below them, in preorder. -/
def subtreesOfAll : List Tree → List Tree
  | [] => []
  | t :: ts => subtrees t ++ subtreesOfAll ts

end

/-- The trees below a tree, in preorder. -/
def descendants (t : Tree) : List Tree := subtreesOfAll t.children

mutual

/-- The number of nodes on the longest way down from the root. -/
def height : Tree → Nat
  | .node _ children => heightOfAll children + 1

/-- The height of the highest tree of a list. -/
def heightOfAll : List Tree → Nat
  | [] => 0
  | t :: ts => max (height t) (heightOfAll ts)

end

/-- The child of a field: the first child with that field name, unless the tree states which
descendant answers. -/
def childByField? (t : Tree) (name : String) : Option Tree :=
  match t.head.fieldAnswers.lookup name with
  | some none => none
  | some (some index) => t.descendants.find? (·.head.index == index)
  | none => t.children.find? (·.head.field == some name)

/-- The children with a field name. -/
def childrenByField (t : Tree) (name : String) : List Tree :=
  t.children.filter (·.head.field == some name)

/-- Whether the node is a comment. -/
def isComment (t : Tree) : Bool :=
  t.kind == "comment" || t.kind == "multiline_comment"

/-- The children that are no comments. -/
def parts (t : Tree) : List Tree := t.children.filter (!·.isComment)

/-- The named children that are no comments. -/
def namedParts (t : Tree) : List Tree := t.parts.filter (·.head.named)

/-- Whether the node can stand for an expression. The token `nil` is one although the grammar has
no rule for it. -/
def isOperand (t : Tree) : Bool :=
  (t.head.named && !t.isComment) || t.kind == "nil"

/-- The children that can stand for expressions. -/
def operands (t : Tree) : List Tree := t.parts.filter isOperand

/-- The first part of a kind. -/
def part? (t : Tree) (kind : String) : Option Tree := t.parts.find? (·.kind == kind)

end Tree

/-- A node as a line of a preorder listing. -/
structure TreeRow where
  kind : String
  named : Bool
  start : Nat
  stop : Nat
  field : Option String
  childCount : Nat
  fieldAnswers : List (String × Option Nat) := []
  deriving Inhabited

/-- The node of a row, its place in the listing given. -/
def TreeRow.head (row : TreeRow) (source : Source) (index : Nat) : TreeHead where
  index := index
  kind := row.kind
  named := row.named
  field := row.field
  span := source.span row.start row.stop
  text := source.text row.start row.stop
  fieldAnswers := row.fieldAnswers

/-- The trees that a listing from some place on spells, given those that its rest spells: the
row's node takes the first of them as its children. -/
def TreeRow.plant (source : Source) (row : TreeRow × Nat) (forest : List Tree) : List Tree :=
  .node (row.1.head source row.2) (forest.take row.1.childCount) :: forest.drop row.1.childCount

/-- The tree that a preorder listing spells. -/
def Tree.ofRows? (source : Source) (rows : List TreeRow) : Option Tree :=
  (rows.zipIdx.foldr (TreeRow.plant source) []).head?

end SwiftRelations
