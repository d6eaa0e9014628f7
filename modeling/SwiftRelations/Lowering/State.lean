import SwiftRelations.Ast.Basic
import SwiftRelations.Source.Tree

/-!
# The state of a lowering

Lowering a concrete syntax tree adds nodes to an `Ast` while names are declared into lexical scopes
and looked up in them. A name that is bound nowhere when it is used is remembered: the file scope
may bind it later.

The state is that of `Lowerer`; the steps follow `push_scope`, `pop_scope`, `declare`, `resolve`,
`decl_type`, `decl_ref` and `type_loc`, and the open recursion `item` and `items`.
-/

namespace SwiftRelations.Lowering

open SwiftRelations.Text

/-- The names one scope binds. The binding made last comes first and hides the earlier ones. -/
abbrev Scope := List (String × DeclId)

/-- Lexical scopes: those opened and not closed yet, the innermost first, inside the scope of the
file, which is never closed. -/
structure Scopes where
  nested : List Scope := []
  file : Scope := []
  deriving Repr, Inhabited

namespace Scopes

/-- The scopes with a new innermost one. -/
def enter (scopes : Scopes) : Scopes := { scopes with nested := [] :: scopes.nested }

/-- The scopes without the innermost one. The scope of the file stays. -/
def leave (scopes : Scopes) : Scopes := { scopes with nested := scopes.nested.tail }

/-- The scopes with a name bound in the innermost one. An empty name and `_` bind nothing. -/
def bind (scopes : Scopes) (name : String) (decl : DeclId) : Scopes :=
  if name = "" ∨ name = "_" then scopes
  else
    match scopes.nested with
    | [] => { scopes with file := (name, decl) :: scopes.file }
    | scope :: outer => { scopes with nested := ((name, decl) :: scope) :: outer }

/-- The declaration that the innermost scope binding a name binds it to. -/
def find? (scopes : Scopes) (name : String) : Option DeclId :=
  (scopes.nested.findSome? (·.lookup name)).orElse fun _ => scopes.file.lookup name

end Scopes

/-- What a lowering has made so far. -/
structure State where
  ast : Ast := {}
  scopes : Scopes := {}
  /-- The references that found no declaration, in the order of their creation. -/
  pending : List ExprId := []
  deriving Repr, Inhabited

/-- What can stop a lowering. -/
inductive Fault where
  /-- In a condition an equals sign stands before the keyword of the binding, so that there is no
  place where its pattern could be. The grammar has the keyword first, so no tree that the parser
  makes stops a lowering. -/
  | equalsBeforeBinding
  /-- The tree is higher than the depth that was allowed for. -/
  | tooDeep
  deriving DecidableEq, Repr, Inhabited

end SwiftRelations.Lowering

namespace SwiftRelations

/-- A step of a lowering. -/
abbrev Lower (α : Type) := StateT Lowering.State (Except Lowering.Fault) α

namespace Lower

open SwiftRelations.Text SwiftRelations.Lowering

/-- A step that changes the syntax tree alone. -/
def onAst (f : Ast → α × Ast) : Lower α :=
  modifyGet fun ⟨ast, scopes, pending⟩ => let (a, ast) := f ast; (a, ⟨ast, scopes, pending⟩)

/-- What the syntax tree holds now. -/
def ofAst (f : Ast → α) : Lower α := return f (← get).ast

/-- A new declaration. -/
def addDecl (kind : DeclKind) (span : Span) : Lower DeclId := onAst (·.addDecl kind (some span))

/-- A new statement. -/
def addStmt (kind : StmtKind) (span : Span) : Lower StmtId := onAst (·.addStmt kind (some span))

/-- A new expression. -/
def addExpr (kind : ExprKind) (type : Option TypeId) (span : Span) : Lower ExprId :=
  onAst (·.addExpr kind type (some span))

/-- A new pattern. -/
def addPattern (kind : PatternKind) (span : Option Span) : Lower PatternId :=
  onAst (·.addPattern kind span)

/-- The nominal type `name` without arguments. -/
def namedType (name : String) : Lower TypeId := onAst (·.namedType name)

/-- The declaration at a place, its kind replaced. -/
def setDeclKind (id : DeclId) (kind : DeclKind) : Lower Unit :=
  modify fun s => { s with ast := s.ast.setDeclKind id kind }

/-- The type of an expression, when it is known. -/
def exprType? (id : ExprId) : Lower (Option TypeId) := ofAst (·.exprType? id)

/-- A step inside a scope of its own. -/
def inScope (step : Lower α) : Lower α := do
  modify fun s => { s with scopes := s.scopes.enter }
  let a ← step
  modify fun s => { s with scopes := s.scopes.leave }
  return a

/-- Bind a name in the innermost scope. -/
def declare (name : String) (decl : DeclId) : Lower Unit :=
  modify fun s => { s with scopes := s.scopes.bind name decl }

/-- A type annotation. The tree may be that of the type, or the annotation around it. -/
def writtenType (t : Tree) : Lower WrittenType := do
  let t :=
    if t.kind == "type_annotation" then
      ((t.childByField? "type").orElse fun _ => t.namedParts.head?).getD t
    else t
  let text := trim t.text
  let type ← onAst (·.resolveType text)
  let repr ← onAst (·.addTypeRepr text (some t.span))
  return ⟨repr, some type⟩

end Lower

/-- The type a reference to a declaration has, when the declaration states one. -/
def DeclKind.statedType? : DeclKind → Option TypeId
  | .var _ _ type => type
  | .param _ _ (some written) => written.type
  | _ => none

/-- The type a reference to a declaration has, when the declaration states one. -/
def Ast.statedType? (ast : Ast) (decl : DeclId) : Option TypeId :=
  (ast.decl? decl).bind (·.kind.statedType?)

/-- A name used as a value: a reference to what the name is bound to. -/
def Lower.declRef (t : Tree) (name : String) : Lower ExprId := do
  let decl := (← get).scopes.find? name
  let type ← Lower.ofAst fun ast => decl.bind ast.statedType?
  let id ← Lower.addExpr (.declRef name decl) type t.span
  if decl.isNone then
    modify fun s => { s with pending := s.pending ++ [id] }
  return id

namespace Lowering

open SwiftRelations.Text

/-- How trees further down are lowered. Every rule for a tree is written over the lowering of the
trees below it. -/
structure Below where
  decl : Tree → Lower DeclId
  stmt : Tree → Lower StmtId
  expr : Tree → Lower ExprId
  /-- The flag tells whether the names in the pattern introduce constants (`some true`) or
  variables (`some false`), or are values to compare with (`none`). -/
  pattern : Tree → Option Bool → Lower PatternId

/-- Whether a kind of the grammar is that of a declaration. -/
def isDeclKind (kind : String) : Bool :=
  endsWith kind "_declaration" || kind == "enum_entry"

/-- Whether a kind of the grammar is that of a statement. -/
def isStmtKind (kind : String) : Bool :=
  endsWith kind "_statement" || kind == "statements"

/-- Whether a kind of the grammar is that of a type. -/
def isTypeKind (kind : String) : Bool :=
  kind ∈ ["user_type", "type_identifier", "optional_type", "array_type", "dictionary_type",
    "tuple_type", "function_type", "opaque_type", "existential_type", "metatype",
    "protocol_composition_type"]

/-- Whether nodes of a kind carry no node of their own. -/
def isTrivia (t : Tree) : Bool :=
  t.isComment || t.kind ∈ ["modifiers", "attribute", "type_parameters", "type_constraints"]

/-- An element of a block: a declaration, a statement or an expression. -/
def Below.item (below : Below) (t : Tree) : Lower Node :=
  if isDeclKind t.kind then return .decl (← below.decl t)
  else if isStmtKind t.kind then return .stmt (← below.stmt t)
  else return .expr (← below.expr t)

/-- The children of a node that has no model of its own. -/
def Below.items (below : Below) (t : Tree) : Lower (List Node) :=
  (t.namedParts.filter (!isTrivia ·)).mapM fun child =>
    if isTypeKind child.kind then return .writtenType (← Lower.writtenType child)
    else below.item child

end Lowering

end SwiftRelations
