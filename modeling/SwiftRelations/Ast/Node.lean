import SwiftRelations.Types.Table

/-!
# Nodes and their identity

A file's nodes live in one arena for each of eight categories, and a node is known by its category
and its place in the arena. Two nodes of equal content stay two nodes; a node named from several
places is one. A type annotation is identified by its text node alone, whatever type it is said to
resolve to.

They follow `AstNode`, with `category` and `key`, `NodeKey`, `Category` and `TypeLoc`.
-/

namespace SwiftRelations

/-- The place of a declaration. -/
structure DeclId where
  index : Nat
  deriving DecidableEq, Hashable, Repr, Inhabited

/-- The place of a statement. -/
structure StmtId where
  index : Nat
  deriving DecidableEq, Hashable, Repr, Inhabited

/-- The place of an expression. -/
structure ExprId where
  index : Nat
  deriving DecidableEq, Hashable, Repr, Inhabited

/-- The place of a pattern. -/
structure PatternId where
  index : Nat
  deriving DecidableEq, Hashable, Repr, Inhabited

/-- The place of the text of a type annotation. -/
structure TypeReprId where
  index : Nat
  deriving DecidableEq, Hashable, Repr, Inhabited

/-- The place of the condition list of an `if`, `guard` or `while`. -/
structure StmtConditionId where
  index : Nat
  deriving DecidableEq, Hashable, Repr, Inhabited

/-- The place of one label item of a switch case. -/
structure CaseLabelItemId where
  index : Nat
  deriving DecidableEq, Hashable, Repr, Inhabited

/-- A type annotation: its text, and the type it resolved to. -/
structure WrittenType where
  repr : TypeReprId
  type : Option TypeId
  deriving DecidableEq, Repr, Inhabited

/-- The categories of nodes. -/
inductive Category where
  | decl
  | stmt
  | stmtCondition
  | caseLabelItem
  | expr
  | pattern
  | type
  | typeRepr
  deriving DecidableEq, Hashable, Repr, Inhabited

/-- The word for a category in facts and reports. -/
def Category.word : Category → String
  | .decl => "decl"
  | .stmt => "stmt"
  | .stmtCondition => "stmt_condition"
  | .caseLabelItem => "case_label_item"
  | .expr => "expr"
  | .pattern => "pattern"
  | .type => "type"
  | .typeRepr => "type_repr"

/-- The categories in the order of their declaration. -/
def Category.all : List Category :=
  [.decl, .stmt, .stmtCondition, .caseLabelItem, .expr, .pattern, .type, .typeRepr]

/-- The category that a word names. -/
def Category.ofWord? (word : String) : Option Category :=
  all.find? (·.word == word)

/-- The identity of a node: its category and its place there. -/
structure NodeKey where
  category : Category
  index : Nat
  deriving DecidableEq, Hashable, Repr, Inhabited

/-- The written form of an identity, such as `expr[3]`. -/
def NodeKey.text (key : NodeKey) : String :=
  key.category.word ++ "[" ++ toString key.index ++ "]"

/-- A node as it is referred to. An annotation is named with the type it resolved to, and the two
are visited together. -/
inductive Node where
  | decl (id : DeclId)
  | stmt (id : StmtId)
  | stmtCondition (id : StmtConditionId)
  | caseLabelItem (id : CaseLabelItemId)
  | expr (id : ExprId)
  | pattern (id : PatternId)
  | type (id : TypeId)
  | writtenType (written : WrittenType)
  deriving DecidableEq, Repr, Inhabited

/-- The identity of a node. -/
def Node.key : Node → NodeKey
  | .decl id => ⟨.decl, id.index⟩
  | .stmt id => ⟨.stmt, id.index⟩
  | .stmtCondition id => ⟨.stmtCondition, id.index⟩
  | .caseLabelItem id => ⟨.caseLabelItem, id.index⟩
  | .expr id => ⟨.expr, id.index⟩
  | .pattern id => ⟨.pattern, id.index⟩
  | .type id => ⟨.type, id.index⟩
  | .writtenType written => ⟨.typeRepr, written.repr.index⟩

/-- The category of a node. -/
def Node.category (node : Node) : Category := node.key.category

end SwiftRelations
