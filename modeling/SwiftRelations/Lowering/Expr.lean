import SwiftRelations.Lowering.State

/-!
# Lowering of expressions

One rule for each kind of expression of the grammar. A tree without a rule, or without the parts
its rule needs, becomes an unknown expression over its children.

The rules follow `expr`, `unknown_expr`, `string_contents`, `call`, `call_type`, `argument`,
`binary`, `prefix`, `member_ref`, `tuple`, `closure`, `assignment` and `ternary` of `Lowerer`.
-/

namespace SwiftRelations.Lowering

open SwiftRelations.Text

/-- An expression that is not modelled. -/
def unknownExpr (below : Below) (t : Tree) : Lower ExprId := do
  let children ← below.items t
  Lower.addExpr (.unknown t.kind children) none t.span

/-- The contents of a string literal, without its delimiters. -/
def stringContents (text : String) : String :=
  let cs := dropEndWhile (· == '#') ((trim text).toList.dropWhile (· == '#'))
  let inside (quotes : Nat) : Option (List Char) :=
    let quote := List.replicate quotes '"'
    if 2 * quotes ≤ cs.length && quote.isPrefixOf cs && quote.isSuffixOf cs then
      some ((cs.drop quotes).take (cs.length - 2 * quotes))
    else none
  String.ofList (((inside 3).orElse fun _ => inside 1).getD cs)

/-- A literal with the type all literals of its kind have. -/
def literal (t : Tree) (typeName : String) (kind : ExprKind) : Lower ExprId := do
  let type ← Lower.namedType typeName
  Lower.addExpr kind (some type) t.span

/-- An argument of a call, with its label if it has one. -/
def argument (below : Below) (t : Tree) : Lower Argument := do
  let parts := t.operands
  let (label, value) :=
    match parts with
    | label :: value :: _ =>
      if label.kind == "value_argument_label" then (some (trim label.text), some value)
      else (none, (t.childByField? "value").orElse fun _ => parts.getLast?)
    | _ => (none, (t.childByField? "value").orElse fun _ => parts.getLast?)
  let expr ← match value with
    | some value => below.expr value
    | none => unknownExpr below t
  return { label, expr }

/-- The type of the call of a declaration by a name: the declared result of a function, or for an
initializer the type itself. -/
def callTypeOf (name : String) : DeclKind → Lower (Option TypeId)
  | .func _ _ result _ => return result.bind (·.type)
  | .nominal kind .. =>
    if kind = .protocolType then return none else return some (← Lower.namedType name)
  | _ => return none

/-- The type of a call, when the declaration called is known. -/
def callType (callee : ExprId) : Lower (Option TypeId) := do
  let ast := (← get).ast
  match (ast.expr? callee).map Expr.kind with
  | some (.declRef name (some decl)) =>
    match ast.decl? decl with
    | some { kind, .. } => callTypeOf name kind
    | none => return none
  | _ => return none

/-- The arguments that one part of a call's suffix holds: those of an argument list, or a trailing
closure. -/
def suffixArguments (below : Below) (t : Tree) : Lower (List Argument) := do
  if t.kind == "value_arguments" then
    (t.namedParts.filter (·.kind == "value_argument")).mapM (argument below)
  else
    return [{ label := none, expr := ← below.expr t }]

/-- A call of the first part with the arguments of the suffixes after it. -/
def call (below : Below) (t : Tree) : Lower ExprId := do
  match t.operands with
  | [] => unknownExpr below t
  | callee :: others =>
    let callee ← below.expr callee
    let suffixes := others.filter (·.kind == "call_suffix")
    let arguments ← (suffixes.flatMap (·.namedParts)).mapM (suffixArguments below)
    let type ← callType callee
    Lower.addExpr (.call callee arguments.flatten) type t.span

/-- The operator of a binary expression. -/
def binaryOperator (t : Tree) : String :=
  match t.childByField? "op" with
  | some op => trim op.text
  | none =>
    match t.parts.find? (!·.isOperand) with
    | some op => trim op.text
    | none => t.kind

/-- The type of a binary expression of the grammar, where the operands decide it. -/
def binaryType (kind : String) (lhs rhs : ExprId) : Lower (Option TypeId) := do
  if kind ∈ ["comparison_expression", "equality_expression", "conjunction_expression",
      "disjunction_expression"] then
    return some (← Lower.namedType "Bool")
  else if kind ∈ ["additive_expression", "multiplicative_expression"] then
    let left ← Lower.exprType? lhs
    let right ← Lower.exprType? rhs
    return if left = right then left else none
  else if kind == "nil_coalescing_expression" then
    Lower.exprType? rhs
  else
    return none

/-- An operator between two operands. -/
def binary (below : Below) (t : Tree) : Lower ExprId := do
  let lhs := (t.childByField? "lhs").orElse fun _ => t.operands.head?
  let rhs := (t.childByField? "rhs").orElse fun _ => t.operands.getLast?
  match lhs, rhs with
  | some lhs, some rhs =>
    if lhs.head.index = rhs.head.index then unknownExpr below t
    else
      let lhs ← below.expr lhs
      let rhs ← below.expr rhs
      let type ← binaryType t.kind lhs rhs
      Lower.addExpr (.binary (binaryOperator t) lhs rhs) type t.span
  | _, _ => unknownExpr below t

/-- The type of an operator before an operand. -/
def unaryType (op : String) (operand : ExprId) : Lower (Option TypeId) := do
  if op == "!" then return some (← Lower.namedType "Bool")
  else if op == "-" || op == "+" then Lower.exprType? operand
  else return none

/-- An operator before its operand. -/
def unary (below : Below) (t : Tree) : Lower ExprId := do
  match (t.childByField? "target").orElse fun _ => t.operands.getLast? with
  | none => unknownExpr below t
  | some operand =>
    let op :=
      match (t.childByField? "operation").orElse fun _ => t.parts.head? with
      | some op => trim op.text
      | none => ""
    let operand ← below.expr operand
    let type ← unaryType op operand
    Lower.addExpr (.unary op operand) type t.span

/-- The name of a member without the dots before it. -/
def memberName (t : Tree) : String :=
  trim (String.ofList ((trim t.text).toList.dropWhile (· == '.')))

/-- A member of a value. -/
def memberRef (below : Below) (t : Tree) : Lower ExprId := do
  let base := (t.childByField? "target").orElse fun _ => t.operands.head?
  let member := (t.childByField? "suffix").orElse fun _ => t.operands.getLast?
  match base, member with
  | some base, some member =>
    let name := memberName ((member.childByField? "suffix").getD member)
    let base ← below.expr base
    Lower.addExpr (.memberRef base name) none t.span
  | _, _ => unknownExpr below t

/-- A tuple. One value without a label in parentheses is the value. -/
def tuple (below : Below) (t : Tree) : Lower ExprId := do
  let values :=
    match t.childrenByField "value" with
    | [] => t.operands
    | values => values
  match values, t.childByField? "name" with
  | [value], none => below.expr value
  | values, _ =>
    let elements ← values.mapM below.expr
    Lower.addExpr (.tuple elements) none t.span

/-- An array literal. -/
def arrayLiteral (below : Below) (t : Tree) : Lower ExprId := do
  let elements :=
    match t.childrenByField "element" with
    | [] => t.operands
    | elements => elements
  let elements ← elements.mapM below.expr
  Lower.addExpr (.array elements) none t.span

/-- The parameter of a closure, bound in the innermost scope. -/
def closureParam (t : Tree) : Lower DeclId := do
  let name := trim ((t.childByField? "name").getD t).text
  let written ← (t.namedParts.find? (isTypeKind ·.kind)).mapM Lower.writtenType
  let decl ← Lower.addDecl (.param name none written) t.span
  Lower.declare name decl
  return decl

/-- The trees of a closure's parameters. -/
def closureParams (t : Tree) : List Tree :=
  match (t.part? "lambda_function_type").bind (·.part? "lambda_function_type_parameters") with
  | some list => list.namedParts.filter (·.kind == "lambda_parameter")
  | none => []

/-- The trees of the elements of a closure's body. -/
def closureElements (t : Tree) : List Tree :=
  match t.part? "statements" with
  | some statements => statements.namedParts
  | none => []

/-- A closure. -/
def closure (below : Below) (t : Tree) : Lower ExprId := do
  let (params, elements) ← Lower.inScope do
    let params ← (closureParams t).mapM closureParam
    let elements ← (closureElements t).mapM below.item
    return (params, elements)
  let body ← Lower.addStmt (.brace elements) t.span
  Lower.addExpr (.closure params body) none t.span

/-- An assignment. One with an operator, such as `+=`, is a binary expression. -/
def assignment (below : Below) (t : Tree) : Lower ExprId := do
  let dest := (t.childByField? "target").orElse fun _ => t.operands.head?
  let source := (t.childByField? "result").orElse fun _ => t.operands.getLast?
  match dest, source with
  | some dest, some source =>
    let op :=
      match t.childByField? "operator" with
      | some op => trim op.text
      | none => "="
    let source ← below.expr source
    let dest ← below.expr dest
    let kind := if op == "=" then .assign dest source else .binary op dest source
    Lower.addExpr kind none t.span
  | _, _ => unknownExpr below t

/-- A choice between two expressions. -/
def ternary (below : Below) (t : Tree) : Lower ExprId := do
  let condition := (t.childByField? "condition").orElse fun _ => t.operands[0]?
  let thenExpr := (t.childByField? "if_true").orElse fun _ => t.operands[1]?
  let elseExpr := (t.childByField? "if_false").orElse fun _ => t.operands[2]?
  match condition, thenExpr, elseExpr with
  | some condition, some thenExpr, some elseExpr =>
    let condition ← below.expr condition
    let thenExpr ← below.expr thenExpr
    let elseExpr ← below.expr elseExpr
    let thenType ← Lower.exprType? thenExpr
    let elseType ← Lower.exprType? elseExpr
    let type := if thenType = elseType then thenType else none
    Lower.addExpr (.ternary condition thenExpr elseExpr) type t.span
  | _, _, _ => unknownExpr below t

/-- An expression that stands for its last operand. -/
def lastOperand (below : Below) (t : Tree) : Lower ExprId :=
  match t.operands.getLast? with
  | some operand => below.expr operand
  | none => unknownExpr below t

/-- The rules for expressions. -/
def exprAt (below : Below) (t : Tree) : Lower ExprId :=
  let text := trim t.text
  match t.kind with
  | "integer_literal" | "hex_literal" | "oct_literal" | "bin_literal" =>
    literal t "Int" (.integerLiteral text)
  | "real_literal" => literal t "Double" (.floatLiteral text)
  | "line_string_literal" | "multi_line_string_literal" | "raw_string_literal" =>
    literal t "String" (.stringLiteral (stringContents text))
  | "boolean_literal" => literal t "Bool" (.booleanLiteral (text == "true"))
  | "nil" => Lower.addExpr .nilLiteral none t.span
  | "simple_identifier" => Lower.declRef t text
  | "self_expression" | "super_expression" => Lower.addExpr (.declRef text none) none t.span
  | "call_expression" => call below t
  | "additive_expression" | "multiplicative_expression" | "comparison_expression"
  | "equality_expression" | "conjunction_expression" | "disjunction_expression"
  | "nil_coalescing_expression" | "infix_expression" | "range_expression"
  | "bitwise_operation" => binary below t
  | "prefix_expression" => unary below t
  | "navigation_expression" => memberRef below t
  | "tuple_expression" => tuple below t
  | "array_literal" => arrayLiteral below t
  | "lambda_literal" => closure below t
  | "assignment" => assignment below t
  | "ternary_expression" => ternary below t
  | "try_expression" | "await_expression" | "directly_assignable_expression" =>
    lastOperand below t
  | _ => unknownExpr below t

end SwiftRelations.Lowering
