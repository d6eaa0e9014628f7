import SwiftRelations.Ast.Kind
import SwiftRelations.Source.Span

/-!
# The syntax tree of a file

An `Ast` owns the nodes of one file, in the order of their creation. Adding a node gives its place
and the tree with the node at the end of its arena; nodes are never removed. Resolved types are
kept in a `TypeTable`.

The tree follows `AstContext`: `add_decl`, `add_stmt`, `add_expr`, `add_pattern`, `add_type_repr`,
`add_stmt_condition` and `add_case_label_item`, the access to nodes by their places, `span_of`, and
`named_type` and `resolve_type_text` on its table of types.
-/

namespace SwiftRelations

/-- A declaration. -/
structure Decl where
  kind : DeclKind
  span : Option Span
  deriving Repr, Inhabited

/-- A statement. -/
structure Stmt where
  kind : StmtKind
  span : Option Span
  deriving Repr, Inhabited

/-- An expression, with its type when that is known. -/
structure Expr where
  kind : ExprKind
  type : Option TypeId
  span : Option Span
  deriving Repr, Inhabited

/-- A pattern. -/
structure Pattern where
  kind : PatternKind
  span : Option Span
  deriving Repr, Inhabited

/-- The text of a type annotation. -/
structure TypeRepr where
  text : String
  span : Option Span
  deriving Repr, Inhabited

/-- The condition list of an `if`, `guard` or `while`. -/
structure StmtCondition where
  elements : List ConditionElement
  span : Option Span
  deriving Repr, Inhabited

/-- One item of the label of a switch case. -/
structure CaseLabelItem where
  pattern : PatternId
  guard : Option ExprId
  span : Option Span
  deriving Repr, Inhabited

/-- The nodes of one file. -/
structure Ast where
  decls : Array Decl := #[]
  stmts : Array Stmt := #[]
  exprs : Array Expr := #[]
  patterns : Array Pattern := #[]
  typeReprs : Array TypeRepr := #[]
  stmtConditions : Array StmtCondition := #[]
  caseLabelItems : Array CaseLabelItem := #[]
  types : TypeTable := {}
  deriving Repr, Inhabited

namespace Ast

/-- A new declaration. -/
def addDecl (ast : Ast) (kind : DeclKind) (span : Option Span) : DeclId × Ast :=
  (⟨ast.decls.size⟩, { ast with decls := ast.decls.push { kind, span } })

/-- A new statement. -/
def addStmt (ast : Ast) (kind : StmtKind) (span : Option Span) : StmtId × Ast :=
  (⟨ast.stmts.size⟩, { ast with stmts := ast.stmts.push { kind, span } })

/-- A new expression. -/
def addExpr (ast : Ast) (kind : ExprKind) (type : Option TypeId) (span : Option Span) :
    ExprId × Ast :=
  (⟨ast.exprs.size⟩, { ast with exprs := ast.exprs.push { kind, type, span } })

/-- A new pattern. -/
def addPattern (ast : Ast) (kind : PatternKind) (span : Option Span) : PatternId × Ast :=
  (⟨ast.patterns.size⟩, { ast with patterns := ast.patterns.push { kind, span } })

/-- A new annotation text. -/
def addTypeRepr (ast : Ast) (text : String) (span : Option Span) : TypeReprId × Ast :=
  (⟨ast.typeReprs.size⟩, { ast with typeReprs := ast.typeReprs.push { text, span } })

/-- A new condition list. -/
def addStmtCondition (ast : Ast) (elements : List ConditionElement) (span : Option Span) :
    StmtConditionId × Ast :=
  (⟨ast.stmtConditions.size⟩,
    { ast with stmtConditions := ast.stmtConditions.push { elements, span } })

/-- A new case label item. -/
def addCaseLabelItem (ast : Ast) (pattern : PatternId) (guard : Option ExprId)
    (span : Option Span) : CaseLabelItemId × Ast :=
  (⟨ast.caseLabelItems.size⟩,
    { ast with caseLabelItems := ast.caseLabelItems.push { pattern, guard, span } })

/-- The place of the nominal type `name` without arguments. -/
def namedType (ast : Ast) (name : String) : TypeId × Ast :=
  let (id, types) := ast.types.named name
  (id, { ast with types })

/-- The place of the type that an annotation's text spells. -/
def resolveType (ast : Ast) (text : String) : TypeId × Ast :=
  let (id, types) := ast.types.resolve text
  (id, { ast with types })

/-- The declaration at a place. -/
def decl? (ast : Ast) (id : DeclId) : Option Decl := ast.decls[id.index]?

/-- The statement at a place. -/
def stmt? (ast : Ast) (id : StmtId) : Option Stmt := ast.stmts[id.index]?

/-- The expression at a place. -/
def expr? (ast : Ast) (id : ExprId) : Option Expr := ast.exprs[id.index]?

/-- The pattern at a place. -/
def pattern? (ast : Ast) (id : PatternId) : Option Pattern := ast.patterns[id.index]?

/-- The annotation text at a place. -/
def typeRepr? (ast : Ast) (id : TypeReprId) : Option TypeRepr := ast.typeReprs[id.index]?

/-- The condition list at a place. -/
def stmtCondition? (ast : Ast) (id : StmtConditionId) : Option StmtCondition :=
  ast.stmtConditions[id.index]?

/-- The case label item at a place. -/
def caseLabelItem? (ast : Ast) (id : CaseLabelItemId) : Option CaseLabelItem :=
  ast.caseLabelItems[id.index]?

/-- The type at a place. -/
def type? (ast : Ast) (id : TypeId) : Option TypeEntry := ast.types.get? id

/-- The type of an expression, when it is known. -/
def exprType? (ast : Ast) (id : ExprId) : Option TypeId := (ast.expr? id).bind (·.type)

/-- The declaration at a place with its kind replaced. -/
def setDeclKind (ast : Ast) (id : DeclId) (kind : DeclKind) : Ast :=
  { ast with decls := ast.decls.modify id.index ({ · with kind }) }

/-- The expression at a place with its kind replaced. -/
def setExprKind (ast : Ast) (id : ExprId) (kind : ExprKind) : Ast :=
  { ast with exprs := ast.exprs.modify id.index ({ · with kind }) }

/-- The number of nodes of a category. -/
def count (ast : Ast) : Category → Nat
  | .decl => ast.decls.size
  | .stmt => ast.stmts.size
  | .stmtCondition => ast.stmtConditions.size
  | .caseLabelItem => ast.caseLabelItems.size
  | .expr => ast.exprs.size
  | .pattern => ast.patterns.size
  | .type => ast.types.size
  | .typeRepr => ast.typeReprs.size

/-- Whether a place is that of a node. -/
def Holds (ast : Ast) (key : NodeKey) : Prop := key.index < ast.count key.category

/-- Whether a tree has a node can be computed. -/
instance (ast : Ast) (key : NodeKey) : Decidable (ast.Holds key) :=
  inferInstanceAs (Decidable (_ < _))

/-- Where a node stands in the source. Types stand nowhere. -/
def spanOf (ast : Ast) : Node → Option Span
  | .decl id => (ast.decl? id).bind (·.span)
  | .stmt id => (ast.stmt? id).bind (·.span)
  | .stmtCondition id => (ast.stmtCondition? id).bind (·.span)
  | .caseLabelItem id => (ast.caseLabelItem? id).bind (·.span)
  | .expr id => (ast.expr? id).bind (·.span)
  | .pattern id => (ast.pattern? id).bind (·.span)
  | .type _ => none
  | .writtenType written => (ast.typeRepr? written.repr).bind (·.span)

end Ast

end SwiftRelations
