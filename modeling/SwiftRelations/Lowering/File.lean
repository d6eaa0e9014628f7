import SwiftRelations.Lowering.Decl

/-!
# Lowering of a file

The rules for trees are closed over themselves, the top-level items of a file are gathered, and
the names that were used before their declaration are resolved.

It follows `lower`, `source_file`, `flush_script` and `resolve_forward_references` of `Lowerer`.
-/

namespace SwiftRelations

/-- A lowered file. -/
structure LoweredFile where
  ast : Ast
  /-- The top-level declarations, in source order. -/
  topLevel : List DeclId
  /-- Whether the concrete syntax tree has an error or a missing node. -/
  hasParseErrors : Bool
  deriving Repr, Inhabited

namespace Lowering

/-- The lowering of the trees up to a height. -/
def upTo : Nat → Below
  | 0 =>
    { decl := fun _ => throw .tooDeep
      stmt := fun _ => throw .tooDeep
      expr := fun _ => throw .tooDeep
      pattern := fun _ _ => throw .tooDeep }
  | height + 1 =>
    let below := upTo height
    { decl := declAt below
      stmt := stmtAt below
      expr := exprAt below
      pattern := patternAt below }

/-- The top-level declarations of a file so far. -/
structure TopLevel where
  /-- The declarations, the last one first. -/
  decls : List DeclId := []
  /-- The statements and expressions since the last declaration, the last one first, each with its
  place. -/
  script : List (Span × Node) := []

/-- The statements and expressions read since the last declaration are wrapped into a top-level
code declaration. -/
def TopLevel.flush (top : TopLevel) : Lower TopLevel := do
  match top.script.getLast?, top.script.head? with
  | some (first, _), some (last, _) =>
    let span := first.cover last
    let body ← Lower.addStmt (.brace (top.script.reverse.map (·.2))) span
    let decl ← Lower.addDecl (.topLevelCode body) span
    return { decls := decl :: top.decls, script := [] }
  | _, _ => return top

/-- The next item of a file. -/
def TopLevel.next (below : Below) (top : TopLevel) (t : Tree) : Lower TopLevel := do
  match ← below.item t with
  | .decl decl =>
    let top ← top.flush
    return { top with decls := decl :: top.decls }
  | other => return { top with script := (t.span, other) :: top.script }

/-- The top-level declarations of a file, in order. -/
def sourceFile (below : Below) (root : Tree) : Lower (List DeclId) := do
  let top ← root.namedParts.foldlM (TopLevel.next below) {}
  let top ← top.flush
  return top.decls.reverse

end Lowering

/-- An expression that refers to `decl`, if it is an unresolved reference, with the type the
declaration states if it has none. -/
def Expr.referTo (expr : Expr) (decl : DeclId) (type : Option TypeId) : Expr :=
  match expr.kind with
  | .declRef name none =>
    { expr with kind := .declRef name (some decl), type := expr.type.orElse fun _ => type }
  | _ => expr

/-- The declaration that a file scope offers to an unresolved reference. -/
def Expr.forwardTarget? (expr : Expr) (file : Lowering.Scope) : Option DeclId :=
  match expr.kind with
  | .declRef name none => file.lookup name
  | _ => none

/-- The syntax tree with a reference resolved against the file scope, if it binds the name. -/
def Ast.resolveForward (ast : Ast) (file : Lowering.Scope) (id : ExprId) : Ast :=
  match (ast.expr? id).bind (·.forwardTarget? file) with
  | some target =>
    let type := ast.statedType? target
    { ast with exprs := ast.exprs.modify id.index (·.referTo target type) }
  | none => ast

namespace Lowering

/-- The syntax tree of a finished lowering: references that found no declaration are looked up
again in the file scope, which by now holds the declarations that follow them. -/
def State.finish (state : State) : Ast :=
  state.pending.foldl (·.resolveForward state.scopes.file ·) state.ast

end Lowering

/-- The syntax tree of a file with a given concrete syntax tree. -/
def Tree.lower (root : Tree) (hasParseErrors : Bool) : Except Lowering.Fault LoweredFile := do
  let (topLevel, state) ← (Lowering.sourceFile (Lowering.upTo root.height) root).run {}
  return { ast := state.finish, topLevel, hasParseErrors }

end SwiftRelations
