import SwiftRelations.Lowering.Pattern

/-!
# Lowering of statements

One rule for each kind of statement of the grammar. The tokens of a statement are its children
too, and the rules find its pieces by the tokens around them. A statement whose tokens are missing
or out of order is an unknown statement over its children.

The rules follow `stmt`, `unknown_stmt`, `block`, `braced`, `statements_block`, `empty_block`,
`condition`, `condition_element`, `unwrap_optional`, `if_stmt`, `guard_stmt`, `while_stmt`,
`repeat_while_stmt`, `for_stmt`, `switch_stmt`, `switch_case`, `do_stmt` and `control_transfer` of
`Lowerer`. A range of children between two tokens, as `position` and `between` find it, is what
stands in front of one and behind the other.
-/

namespace SwiftRelations.Lowering

open SwiftRelations.Text

/-- A statement that is not modelled. -/
def unknownStmt (below : Below) (t : Tree) : Lower StmtId := do
  let children ← below.items t
  Lower.addStmt (.unknown t.kind children) t.span

/-- Whether a tree is the brace that opens a block. -/
def opensBlock (t : Tree) : Bool := t.kind == "\x7b"

/-- Whether a tree is the brace that closes a block. -/
def closesBlock (t : Tree) : Bool := t.kind == "\x7d"

/-- The trees that a child of a block contributes to it: a list of statements contributes its
elements. -/
def blockElements (t : Tree) : List Tree :=
  if t.kind == "statements" then t.namedParts
  else if t.isOperand then [t]
  else []

/-- The block that `brace` opens, over the trees after it, and the trees after the closing brace.
A block that is not closed ends with the last tree. -/
def braced (below : Below) (brace : Tree) (after : List Tree) : Lower (StmtId × List Tree) := do
  let inside := after.takeWhile (!closesBlock ·)
  let rest := after.dropWhile (!closesBlock ·)
  let elements ← Lower.inScope ((inside.flatMap blockElements).mapM below.item)
  let last := (rest.head?.orElse fun _ => after.getLast?).getD brace
  let id ← Lower.addStmt (.brace elements) (brace.span.cover last.span)
  return (id, rest.drop 1)

/-- A block over the named parts of a tree. -/
def statementsBlock (below : Below) (t : Tree) : Lower StmtId := do
  let elements ← (t.namedParts.flatMap blockElements).mapM below.item
  Lower.addStmt (.brace elements) t.span

/-- A block that is written in braces, or else is all of the tree. -/
def block (below : Below) (t : Tree) : Lower StmtId := do
  match t.parts.dropWhile (!opensBlock ·) with
  | brace :: after => return (← braced below brace after).1
  | [] => statementsBlock below t

/-- A list cut at each tree of a kind, which is left out. -/
def splitAtKind (kind : String) : List Tree → List (List Tree)
  | [] => [[]]
  | t :: ts =>
    if t.kind == kind then [] :: splitAtKind kind ts
    else
      match splitAtKind kind ts with
      | group :: groups => (t :: group) :: groups
      | [] => [[t]]

/-- Whether a tree is the keyword of a binding in a condition. -/
def isBindingKeyword (t : Tree) : Bool :=
  t.kind ∈ ["value_binding_pattern", "let", "var", "case"]

/-- The type that a binding of an optional's value gives: `T` for `T?`. -/
def unwrappedType (ast : Ast) (type : TypeId) : TypeId :=
  match ast.type? type with
  | some { kind := .optional base, .. } => base
  | _ => type

/-- The pattern of a condition that binds the value of an optional. -/
def optionalBinding (below : Below) (keyword : Tree) (isLet : Bool) (typeTree : Option Tree)
    (pattern : Tree) (initializer : ExprId) : Lower PatternId := do
  let written ← typeTree.mapM Lower.writtenType
  let name :=
    if pattern.kind == "simple_identifier" then some pattern
    else pattern.childByField? "bound_identifier"
  let sub ← match name with
    | some name => do
      let initType ← Lower.ofAst fun ast => (ast.exprType? initializer).map (unwrappedType ast)
      let type := match written with
        | some written => written.type
        | none => initType
      newVariable name isLet type
    | none => below.pattern pattern (some isLet)
  let sub ← match written with
    | some written => Lower.addPattern (.typed sub written) (some pattern.span)
    | none => pure sub
  Lower.addPattern (.binding isLet sub) (some (keyword.span.cover pattern.span))

/-- A binding in a condition: `keyword`, the trees of the pattern, and the trees of the value. The
value is lowered first, so that it cannot see the names it initializes; without one, the pattern's
text names the value. -/
def bindingElement (below : Below) (keyword : Tree) (pieces value : List Tree) :
    Lower (Option ConditionElement) := do
  match pieces.find? fun t => t.isOperand && t.kind != "type_annotation" with
  | none => return none
  | some pattern =>
    let initializer ← match value.find? Tree.isOperand with
      | some init => below.expr init
      | none => Lower.declRef pattern (trim pattern.text)
    let word := trimStart keyword.text
    let id ←
      if startsWith word "case" then do
        match ← patternRun below pieces none with
        | some id => pure id
        | none => below.pattern pattern none
      else
        optionalBinding below keyword (startsWith word "let")
          (pieces.find? (·.kind == "type_annotation")) pattern initializer
    return some (.pattern id initializer)

/-- One element of a condition list. -/
def conditionElement (below : Below) (group : List Tree) : Lower (Option ConditionElement) := do
  match group.dropWhile (!isBindingKeyword ·) with
  | [] =>
    match group.find? Tree.isOperand with
    | some t => return some (.boolean (← below.expr t))
    | none => return none
  | keyword :: after =>
    if (group.takeWhile (!isBindingKeyword ·)).any (·.kind == "=") then
      throw .equalsBeforeBinding
    else
      bindingElement below keyword (after.takeWhile (·.kind != "="))
        ((after.dropWhile (·.kind != "=")).drop 1)

/-- A condition list, its elements parted by commas. -/
def condition (below : Below) (ts : List Tree) : Lower StmtConditionId := do
  let elements ← (splitAtKind "," ts).mapM (conditionElement below)
  Lower.onAst (·.addStmtCondition (elements.filterMap id) (spanOfAll? ts))

/-- The branch after the keyword `else`: another conditional, or a block. -/
def elseBranch (below : Below) : List Tree → Lower (Option StmtId)
  | keyword :: t :: after => do
    if keyword.kind != "else" then return none
    else if t.kind == "if_statement" then return some (← below.stmt t)
    else if opensBlock t then return some (← braced below t after).1
    else return none
  | _ => return none

/-- A condition and the block under it, in a scope of their own, and the trees after the block. -/
def guarded (below : Below) (parts : List Tree) :
    Lower (Option (StmtConditionId × StmtId × List Tree)) := do
  match parts.dropWhile (!opensBlock ·) with
  | [] => return none
  | brace :: after =>
    Lower.inScope do
      let condition ← condition below ((parts.takeWhile (!opensBlock ·)).drop 1)
      let (body, rest) ← braced below brace after
      return some (condition, body, rest)

/-- A conditional. -/
def ifStmt (below : Below) (t : Tree) : Lower StmtId := do
  match ← guarded below t.parts with
  | none => unknownStmt below t
  | some (condition, thenBranch, rest) =>
    let elseBranch ← elseBranch below rest
    Lower.addStmt (.ifElse condition thenBranch elseBranch) t.span

/-- A guard. The names its condition binds stay visible after it. -/
def guardStmt (below : Below) (t : Tree) : Lower StmtId := do
  let parts := t.parts
  let beforeBrace := parts.takeWhile (!opensBlock ·)
  match parts.dropWhile (!opensBlock ·) with
  | brace :: after =>
    if beforeBrace.any (·.kind == "else") then
      let condition ← condition below ((beforeBrace.takeWhile (·.kind != "else")).drop 1)
      let (body, _) ← braced below brace after
      Lower.addStmt (.guard condition body) t.span
    else unknownStmt below t
  | [] => unknownStmt below t

/-- A loop with its condition first. -/
def whileStmt (below : Below) (t : Tree) : Lower StmtId := do
  match ← guarded below t.parts with
  | none => unknownStmt below t
  | some (condition, body, _) => Lower.addStmt (.whileLoop condition body) t.span

/-- The condition of a loop with its condition last: the operand after the last `while`. -/
def trailingCondition? (parts : List Tree) : Option Tree :=
  if parts.any (·.kind == "while") then
    ((parts.reverse.takeWhile (·.kind != "while")).reverse).find? Tree.isOperand
  else none

/-- A loop with its condition last. -/
def repeatWhileStmt (below : Below) (t : Tree) : Lower StmtId := do
  match t.parts.dropWhile (!opensBlock ·), trailingCondition? t.parts with
  | brace :: after, some condition =>
    let (body, _) ← braced below brace after
    let condition ← below.expr condition
    Lower.addStmt (.repeatWhile body condition) t.span
  | _, _ => unknownStmt below t

/-- The pieces of a loop over a sequence. -/
structure ForPieces where
  item : Tree
  typeTree : Option Tree
  sequence : Tree
  brace : Tree
  body : List Tree

/-- The pieces of a loop over a sequence: what stands between the first token and `in`, between
`in` and the brace, and after the brace. -/
def forPieces? (t : Tree) : Option ForPieces := do
  let beforeBrace := t.parts.takeWhile (!opensBlock ·)
  let header := beforeBrace.takeWhile (·.kind != "in")
  let (brace, body) ← match t.parts.dropWhile (!opensBlock ·) with
    | brace :: body => some (brace, body)
    | [] => none
  let afterIn ← match beforeBrace.dropWhile (·.kind != "in") with
    | _ :: afterIn => some afterIn
    | [] => none
  if header.isEmpty then none
  else
    let names := header.drop 1
    let item ← (t.childByField? "item").orElse fun _ =>
      names.find? fun c => c.head.named && c.kind != "type_annotation"
    let sequence ← (t.childByField? "collection").orElse fun _ => afterIn.find? Tree.isOperand
    some { item, typeTree := names.find? (·.kind == "type_annotation"), sequence, brace, body }

/-- A loop over a sequence. Its names are constants of its own scope. -/
def forStmt (below : Below) (t : Tree) : Lower StmtId := do
  match forPieces? t with
  | none => unknownStmt below t
  | some pieces =>
    let sequence ← below.expr pieces.sequence
    let (pattern, body) ← Lower.inScope do
      let pattern ← below.pattern pieces.item (some true)
      let pattern ← match pieces.typeTree with
        | some typeTree => do
          let written ← Lower.writtenType typeTree
          Lower.addPattern (.typed pattern written)
            (some (pieces.item.span.cover typeTree.span))
        | none => pure pattern
      let (body, _) ← braced below pieces.brace pieces.body
      return (pattern, body)
    Lower.addStmt (.forEach pattern sequence body) t.span

/-- What has been read of a switch case. -/
structure CaseState where
  /-- The patterns of the label with their guards, the last one first. -/
  labels : List (PatternId × Option ExprId × Span) := []
  body : Option StmtId := none
  /-- Whether the keyword of a guard was read and its expression was not. -/
  expectsGuard : Bool := false

/-- The labels with a guard for the last one. -/
def CaseState.withGuard (state : CaseState) (guard : ExprId) : CaseState :=
  match state.labels with
  | (pattern, _, span) :: labels => { state with labels := (pattern, some guard, span) :: labels }
  | [] => state

/-- The next part of a switch case. -/
def casePart (below : Below) (state : CaseState) (t : Tree) : Lower CaseState := do
  if t.kind == "switch_pattern" then
    let pattern ← below.pattern (t.namedParts.head?.getD t) none
    return { state with labels := (pattern, none, t.span) :: state.labels }
  else if t.kind == "where_keyword" || t.kind == "where" then
    return { state with expectsGuard := true }
  else if t.kind == "statements" then
    return { state with body := some (← statementsBlock below t) }
  else if state.expectsGuard && t.isOperand then
    let guard ← below.expr t
    return { state.withGuard guard with expectsGuard := false }
  else
    return state

/-- A case of a switch, in a scope of its own. -/
def switchCase (below : Below) (t : Tree) : Lower StmtId := do
  let (labels, body) ← Lower.inScope do
    let state ← t.parts.foldlM (casePart below) {}
    let body ← match state.body with
      | some body => pure body
      | none => Lower.addStmt (.brace []) t.span
    return (state.labels.reverse, body)
  let labels ← labels.mapM fun (pattern, guard, span) =>
    Lower.onAst (·.addCaseLabelItem pattern guard (some span))
  Lower.addStmt (.case labels body) t.span

/-- A switch. -/
def switchStmt (below : Below) (t : Tree) : Lower StmtId := do
  match t.parts.dropWhile (!opensBlock ·) with
  | [] => unknownStmt below t
  | _ :: after =>
    let header := (t.parts.takeWhile (!opensBlock ·)).drop 1
    match (t.childByField? "expr").orElse fun _ => header.find? Tree.isOperand with
    | none => unknownStmt below t
    | some subject =>
      let subject ← below.expr subject
      let cases ← (after.filter (·.kind == "switch_entry")).mapM (switchCase below)
      Lower.addStmt (.switch subject cases) t.span

/-- The block of a catch clause. -/
def catchBlock (below : Below) (t : Tree) : Lower StmtId := do
  match t.parts.dropWhile (!opensBlock ·) with
  | brace :: after => return (← braced below brace after).1
  | [] => Lower.addStmt (.brace []) t.span

/-- A `do` block with its catch clauses. -/
def doStmt (below : Below) (t : Tree) : Lower StmtId := do
  match t.parts.dropWhile (!opensBlock ·) with
  | [] => unknownStmt below t
  | brace :: after =>
    let (body, _) ← braced below brace after
    let catches ← (after.filter (·.kind == "catch_block")).mapM (catchBlock below)
    Lower.addStmt (.doCatch body catches) t.span

/-- A statement that leaves its block: the first part is the keyword. -/
def controlTransfer (below : Below) (t : Tree) : Lower StmtId := do
  let keyword := match t.parts with
    | first :: _ => trim first.text
    | [] => ""
  let operand := (t.childByField? "result").orElse fun _ =>
    t.operands.find? (·.kind != "throw_keyword")
  if startsWith keyword "return" then
    let result ← operand.mapM below.expr
    Lower.addStmt (.returning result) t.span
  else if startsWith keyword "throw" then
    match operand with
    | some error =>
      let error ← below.expr error
      Lower.addStmt (.throwing error) t.span
    | none => unknownStmt below t
  else if startsWith keyword "break" then Lower.addStmt .breaking t.span
  else if startsWith keyword "continue" then Lower.addStmt .continuing t.span
  else unknownStmt below t

/-- The rules for statements. -/
def stmtAt (below : Below) (t : Tree) : Lower StmtId :=
  match t.kind with
  | "if_statement" => ifStmt below t
  | "guard_statement" => guardStmt below t
  | "while_statement" => whileStmt below t
  | "repeat_while_statement" => repeatWhileStmt below t
  | "for_statement" => forStmt below t
  | "switch_statement" => switchStmt below t
  | "do_statement" => doStmt below t
  | "control_transfer_statement" => controlTransfer below t
  | "statements" => statementsBlock below t
  | _ => unknownStmt below t

end SwiftRelations.Lowering
