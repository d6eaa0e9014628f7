import SwiftRelations.Lowering.File

/-!
# What a tree is lowered for

Which expressions the lowering of a tree makes does not depend on what was lowered before: a rule
lowers some of the trees below its tree, in some order, and makes some expressions between them. The
tables here say which, one for each rule. What a table does not list is not looked at: a part of the
tree that nobody asks for leaves nothing behind.
-/

namespace SwiftRelations

/-- What an expression shows of itself apart from its parts: what it is called if it is not
modelled, and its place. -/
structure ExprMark where
  unmodelled : Option String
  span : Option Span
  deriving DecidableEq, Repr

namespace Lowering

open SwiftRelations.Text

/-- A tree to lower, and for what. -/
inductive Visit where
  | decl (t : Tree)
  | stmt (t : Tree)
  | expr (t : Tree)
  | pattern (t : Tree) (binding : Option Bool)

/-- An element of a block is a declaration, a statement or an expression. -/
def Visit.item (t : Tree) : Visit :=
  if isDeclKind t.kind then .decl t else if isStmtKind t.kind then .stmt t else .expr t

/-- What a rule does that leaves expressions: it makes one, or lowers a tree. -/
inductive Task where
  | mark (mark : ExprMark)
  | visit (visit : Visit)

namespace Task

/-- A modelled expression is made in the place of a tree. -/
def make (t : Tree) : Task := .mark ⟨none, some t.span⟩

/-! ### Elements -/

/-- A tree is lowered as an element of a block. -/
def item (t : Tree) : Task := .visit (.item t)

/-- The children of a node that has no model of its own, but for types. -/
def items (t : Tree) : List Task :=
  (t.namedParts.filter (!isTrivia ·)).flatMap fun child =>
    if isTypeKind child.kind then [] else [item child]

/-! ### Expressions -/

/-- The items of an expression that is not modelled, and then the expression itself. -/
def unknownExpr (t : Tree) : List Task := items t ++ [.mark ⟨some t.kind, some t.span⟩]

/-- The tree of an argument's value. -/
def argumentValue? (t : Tree) : Option Tree :=
  match t.operands with
  | label :: value :: _ =>
    if label.kind == "value_argument_label" then some value
    else (t.childByField? "value").orElse fun _ => t.operands.getLast?
  | _ => (t.childByField? "value").orElse fun _ => t.operands.getLast?

/-- The value of an argument, without its label. -/
def argument (t : Tree) : List Task :=
  match argumentValue? t with
  | some value => [.visit (.expr value)]
  | none => unknownExpr t

/-- The arguments in parentheses, or the closure behind a call. -/
def suffixArguments (t : Tree) : List Task :=
  if t.kind == "value_arguments" then
    (t.namedParts.filter (·.kind == "value_argument")).flatMap argument
  else [.visit (.expr t)]

/-- The callee, then the arguments, and then the call. -/
def call (t : Tree) : List Task :=
  match t.operands with
  | [] => unknownExpr t
  | callee :: others =>
    .visit (.expr callee) ::
      (((others.filter (·.kind == "call_suffix")).flatMap (·.namedParts)).flatMap suffixArguments ++
        [make t])

/-- An expression with some operands, unless one is missing. -/
def ofOperands (t : Tree) (operands : List (Option Tree)) : List Task :=
  match operands.mapM id with
  | some operands => operands.map (.visit <| .expr ·) ++ [make t]
  | none => unknownExpr t

/-- Two operands, unless they are one. -/
def binary (t : Tree) : List Task :=
  let lhs := (t.childByField? "lhs").orElse fun _ => t.operands.head?
  let rhs := (t.childByField? "rhs").orElse fun _ => t.operands.getLast?
  if lhs.map (·.head.index) = rhs.map (·.head.index) then unknownExpr t
  else ofOperands t [lhs, rhs]

/-- The operand behind an operator. -/
def unary (t : Tree) : List Task :=
  ofOperands t [(t.childByField? "target").orElse fun _ => t.operands.getLast?]

/-- The member itself is no operand: only its name is read. -/
def memberRef (t : Tree) : List Task :=
  match (t.childByField? "target").orElse fun _ => t.operands.head?,
    (t.childByField? "suffix").orElse fun _ => t.operands.getLast? with
  | some base, some _ => [.visit (.expr base), make t]
  | _, _ => unknownExpr t

/-- The children of a field, or else the operands. -/
def valuesOf (t : Tree) (field : String) : List Tree :=
  match t.childrenByField field with
  | [] => t.operands
  | values => values

/-- The values of a tuple. One value without a name makes no tuple. -/
def tuple (t : Tree) : List Task :=
  match valuesOf t "value", t.childByField? "name" with
  | [value], none => [.visit (.expr value)]
  | values, _ => values.map (.visit <| .expr ·) ++ [make t]

/-- The elements, and then the array. -/
def arrayLiteral (t : Tree) : List Task :=
  (valuesOf t "element").map (.visit <| .expr ·) ++ [make t]

/-- The elements of the body, and then the closure. -/
def closure (t : Tree) : List Task := (closureElements t).map item ++ [make t]

/-- The value comes before what it is assigned to. -/
def assignment (t : Tree) : List Task :=
  ofOperands t [(t.childByField? "result").orElse fun _ => t.operands.getLast?,
    (t.childByField? "target").orElse fun _ => t.operands.head?]

/-- A condition and two branches. -/
def ternary (t : Tree) : List Task :=
  ofOperands t [(t.childByField? "condition").orElse fun _ => t.operands[0]?,
    (t.childByField? "if_true").orElse fun _ => t.operands[1]?,
    (t.childByField? "if_false").orElse fun _ => t.operands[2]?]

/-- An expression that stands for its last operand. -/
def lastOperand (t : Tree) : List Task :=
  match t.operands.getLast? with
  | some operand => [.visit (.expr operand)]
  | none => unknownExpr t

/-- The tasks of an expression. -/
def expr (t : Tree) : List Task :=
  match t.kind with
  | "simple_identifier" | "self_expression" | "super_expression" | "nil" | "boolean_literal"
  | "integer_literal" | "hex_literal" | "oct_literal" | "bin_literal" | "real_literal"
  | "line_string_literal" | "multi_line_string_literal" | "raw_string_literal" => [make t]
  | "call_expression" => call t
  | "additive_expression" | "multiplicative_expression" | "comparison_expression"
  | "equality_expression" | "conjunction_expression" | "disjunction_expression"
  | "nil_coalescing_expression" | "infix_expression" | "range_expression"
  | "bitwise_operation" => binary t
  | "prefix_expression" => unary t
  | "navigation_expression" => memberRef t
  | "tuple_expression" => tuple t
  | "array_literal" => arrayLiteral t
  | "lambda_literal" => closure t
  | "assignment" => assignment t
  | "ternary_expression" => ternary t
  | "try_expression" | "await_expression" | "directly_assignable_expression" => lastOperand t
  | _ => unknownExpr t

/-! ### Patterns -/

/-- A name that is bound is no expression, and one that is compared with is. -/
def namePattern (t : Tree) : Option Bool → List Task
  | some _ => []
  | none => [make t]

/-- Some trees as patterns under one binding. -/
def patterns (ts : List Tree) (binding : Option Bool) : List Task :=
  ts.map (.visit <| .pattern · binding)

/-- The trees that are left of a pattern when its marks are read. -/
def patternRun : PatternRun → Option Bool → List Task
  | .binding isLet sub _, _ => patternRun sub (some isLet)
  | .optionalSome sub _, binding => patternRun sub binding
  | .isType _ _, _ => []
  | .enumElement _ payload _, binding => patterns payload binding
  | .single t, binding => patterns [t] binding

/-- A pattern that has no form of its own is that of its only part, or an expression. -/
def otherPattern (t : Tree) (binding : Option Bool) : List Task :=
  if t.kind == "pattern" then
    match t.namedParts with
    | [single] => patterns [single] binding
    | _ => items t
  else expr t

/-- A pattern that is neither a binding nor a type test nor a case of an enumeration. -/
def plainPattern (t : Tree) (binding : Option Bool) : List Task :=
  let cs := (trim t.text).toList
  if cs.head? == some '(' && t.kind == "pattern" then patterns t.namedParts binding
  else
    match t.namedParts with
    | [sub] =>
      if cs.getLast? == some '?' && t.kind == "pattern" then patterns [sub] binding
      else otherPattern t binding
    | _ => otherPattern t binding

/-- A type test asks for nothing, a case of an enumeration for its payload. -/
def unboundPattern (t : Tree) (binding : Option Bool) : List Task :=
  let text := trim t.text
  match if startsWith text "is " then t.namedParts.find? (isTypeKind ·.kind) else none with
  | some _ => []
  | none =>
    match text.toList with
    | '.' :: afterDot => patterns (partsAfterName (caseName afterDot) t.namedParts) binding
    | _ => plainPattern t binding

/-- The tasks of the pattern under a binding keyword, if there is one. -/
def boundPattern? (t : Tree) (isLet : Bool) : Option (List Task) :=
  let pieces := t.parts.filter fun c => c.kind != "value_binding_pattern" && c.kind != "case"
  match if pieces.any (·.kind == ".") then PatternRun.ofSiblings? pieces else none with
  | some run => some (patternRun run (some isLet))
  | none =>
    (t.namedParts.find? (·.kind != "value_binding_pattern")).map fun sub =>
      patterns [sub] (some isLet)

/-- A pattern under a keyword of its own, or else one without. -/
def compoundPattern (t : Tree) (binding : Option Bool) : List Task :=
  ((bindingKeyword? t).bind (boundPattern? t)).getD (unboundPattern t binding)

/-- The tasks of a pattern. -/
def pattern (t : Tree) (binding : Option Bool) : List Task :=
  if t.kind == "simple_identifier" then namePattern t binding
  else if t.kind == "wildcard_pattern" || trim t.text == "_" then []
  else
    match t.childByField? "bound_identifier" with
    | some name => namePattern name (binding.orElse fun _ => some true)
    | none => compoundPattern t binding

/-! ### Statements -/

/-- The elements of some statements. -/
def elements (ts : List Tree) : List Task := (ts.flatMap blockElements).map item

/-- A block, over the trees after its brace. -/
def braced (after : List Tree) : List Task := elements (after.takeWhile (!closesBlock ·))

/-- The trees after the brace that closes a block. -/
def afterBlock (after : List Tree) : List Tree := (after.dropWhile (!closesBlock ·)).drop 1

/-- A block in braces, or the statements of a tree that has none. -/
def block (t : Tree) : List Task :=
  match t.parts.dropWhile (!opensBlock ·) with
  | _ :: after => braced after
  | [] => elements t.namedParts

/-- A name that is bound to a type of its own is no task; another pattern is one. -/
def bindingPattern (t : Tree) (isLet : Bool) : List Task :=
  let name := if t.kind == "simple_identifier" then some t else t.childByField? "bound_identifier"
  match name with
  | some _ => []
  | none => patterns [t] (some isLet)

/-- The value of a binding in a condition comes before its pattern. Without a pattern neither is
read. -/
def bindingElement (keyword : Tree) (pieces value : List Tree) : List Task :=
  match pieces.find? fun t => t.isOperand && t.kind != "type_annotation" with
  | none => []
  | some pattern =>
    let initializer := match value.find? Tree.isOperand with
      | some init => .visit (.expr init)
      | none => make pattern
    let word := trimStart keyword.text
    initializer ::
      if startsWith word "case" then
        match PatternRun.ofSiblings? pieces with
        | some run => patternRun run none
        | none => patterns [pattern] none
      else bindingPattern pattern (startsWith word "let")

/-- An element of a condition is a binding if it has a keyword, and an expression if not. -/
def conditionElement (group : List Tree) : List Task :=
  match group.dropWhile (!isBindingKeyword ·) with
  | [] => ((group.find? Tree.isOperand).map (.visit <| .expr ·)).toList
  | keyword :: after =>
    bindingElement keyword (after.takeWhile (·.kind != "="))
      ((after.dropWhile (·.kind != "=")).drop 1)

/-- The elements of a condition, between commas. -/
def condition (ts : List Tree) : List Task := (splitAtKind "," ts).flatMap conditionElement

/-- What follows a block if it is another branch: a conditional or a block. -/
def elseBranch : List Tree → List Task
  | keyword :: t :: after =>
    if keyword.kind != "else" then []
    else if t.kind == "if_statement" then [.visit (.stmt t)]
    else if opensBlock t then braced after
    else []
  | _ => []

/-- A condition and the block that it guards. -/
def guarded (parts after : List Tree) : List Task :=
  condition ((parts.takeWhile (!opensBlock ·)).drop 1) ++ braced after

/-- A condition, a block and another branch. -/
def ifStmt (t : Tree) : List Task :=
  match t.parts.dropWhile (!opensBlock ·) with
  | [] => items t
  | _ :: after => guarded t.parts after ++ elseBranch (afterBlock after)

/-- A condition up to its keyword, and the block that leaves. -/
def guardStmt (t : Tree) : List Task :=
  let beforeBrace := t.parts.takeWhile (!opensBlock ·)
  match t.parts.dropWhile (!opensBlock ·) with
  | _ :: after =>
    if beforeBrace.any (·.kind == "else") then
      condition ((beforeBrace.takeWhile (·.kind != "else")).drop 1) ++ braced after
    else items t
  | [] => items t

/-- A condition and the block that is repeated. -/
def whileStmt (t : Tree) : List Task :=
  match t.parts.dropWhile (!opensBlock ·) with
  | [] => items t
  | _ :: after => guarded t.parts after

/-- The block comes before the condition behind it. -/
def repeatWhileStmt (t : Tree) : List Task :=
  match t.parts.dropWhile (!opensBlock ·), trailingCondition? t.parts with
  | _ :: after, some condition => braced after ++ [.visit (.expr condition)]
  | _, _ => items t

/-- The sequence, then the pattern, and then the block. -/
def forStmt (t : Tree) : List Task :=
  match forPieces? t with
  | none => items t
  | some pieces =>
    .visit (.expr pieces.sequence) :: (patterns [pieces.item] (some true) ++ braced pieces.body)

/-- The parts of a switch case. The flag tells whether the keyword of a guard was read and its
expression was not. -/
def caseParts : Bool → List Tree → List Task
  | _, [] => []
  | expectsGuard, t :: ts =>
    if t.kind == "switch_pattern" then
      patterns [t.namedParts.head?.getD t] none ++ caseParts expectsGuard ts
    else if t.kind == "where_keyword" || t.kind == "where" then caseParts true ts
    else if t.kind == "statements" then elements t.namedParts ++ caseParts expectsGuard ts
    else if expectsGuard && t.isOperand then .visit (.expr t) :: caseParts false ts
    else caseParts expectsGuard ts

/-- The subject, and then the parts of the cases. -/
def switchStmt (t : Tree) : List Task :=
  match t.parts.dropWhile (!opensBlock ·) with
  | [] => items t
  | _ :: after =>
    let header := (t.parts.takeWhile (!opensBlock ·)).drop 1
    match (t.childByField? "expr").orElse fun _ => header.find? Tree.isOperand with
    | none => items t
    | some subject =>
      .visit (.expr subject) ::
        (after.filter (·.kind == "switch_entry")).flatMap (caseParts false ·.parts)

/-- The block of a catch clause. Its pattern is not read. -/
def catchBlock (t : Tree) : List Task :=
  match t.parts.dropWhile (!opensBlock ·) with
  | _ :: after => braced after
  | [] => []

/-- A block and those of its catch clauses. -/
def doStmt (t : Tree) : List Task :=
  match t.parts.dropWhile (!opensBlock ·) with
  | [] => items t
  | _ :: after => braced after ++ (after.filter (·.kind == "catch_block")).flatMap catchBlock

/-- A statement that leaves its block, by its keyword. -/
def transfer (keyword : String) (operand : Option Tree) (t : Tree) : List Task :=
  if startsWith keyword "return" then operand.toList.map (.visit <| .expr ·)
  else if startsWith keyword "throw" then
    match operand with
    | some error => [.visit (.expr error)]
    | none => items t
  else if startsWith keyword "break" then []
  else if startsWith keyword "continue" then []
  else items t

/-- The keyword tells what is asked for of the operand. -/
def controlTransfer (t : Tree) : List Task :=
  let keyword := match t.parts with
    | first :: _ => trim first.text
    | [] => ""
  let operand := (t.childByField? "result").orElse fun _ =>
    t.operands.find? (·.kind != "throw_keyword")
  transfer keyword operand t

/-- The tasks of a statement. -/
def stmt (t : Tree) : List Task :=
  match t.kind with
  | "statements" => elements t.namedParts
  | "if_statement" => ifStmt t
  | "guard_statement" => guardStmt t
  | "while_statement" => whileStmt t
  | "repeat_while_statement" => repeatWhileStmt t
  | "for_statement" => forStmt t
  | "switch_statement" => switchStmt t
  | "do_statement" => doStmt t
  | "control_transfer_statement" => controlTransfer t
  | _ => items t

/-! ### Declarations -/

/-- Only the body of a function is read: default values of parameters are not. -/
def function (t : Tree) : List Task :=
  let body := (t.childByField? "body").orElse fun _ => t.part? "function_body"
  body.toList.flatMap block

/-- The members of a type. -/
def nominal (t : Tree) : List Task := (memberTrees t).map (.visit <| .decl ·)

/-- The value comes before the pattern that it initializes. -/
def propertyEntry (isLet : Bool) (entry : PropertyEntry) : List Task :=
  entry.value.toList.map (.visit <| .expr ·) ++ bindingPattern entry.name isLet

/-- Only the entries of a property are read: accessors are not. -/
def property (t : Tree) : List Task :=
  (propertyEntries t).flatMap (propertyEntry (bindsConstants t))

/-- The tasks of a declaration. -/
def decl (t : Tree) : List Task :=
  match t.kind with
  | "import_declaration" | "typealias_declaration" | "enum_entry" => []
  | "function_declaration" | "protocol_function_declaration" | "init_declaration"
  | "deinit_declaration" => function t
  | "class_declaration" | "protocol_declaration" => nominal t
  | "property_declaration" | "protocol_property_declaration" => property t
  | _ => items t

end Task

/-- What is done when a tree is lowered. -/
def Visit.tasks : Visit → List Task
  | .decl t => Task.decl t
  | .stmt t => Task.stmt t
  | .expr t => Task.expr t
  | .pattern t binding => Task.pattern t binding

/-- The expressions that a task leaves, if those are known that lowering a tree leaves. -/
def Task.marks (visits : Visit → List ExprMark) : Task → List ExprMark
  | .mark m => [m]
  | .visit v => visits v

/-- The expressions that lowering a tree leaves. The trees up to a height are looked at, and those
further down leave what is given. -/
def Visit.marks (deep : List ExprMark) : Nat → Visit → List ExprMark
  | 0, _ => deep
  | height + 1, v => v.tasks.flatMap (Task.marks (Visit.marks deep height))

end Lowering

/-- What is lowered for a file: its items, and what the tasks of these ask for, and so on. -/
inductive Tree.Visits (root : Tree) : Lowering.Visit → Prop
  | item {t : Tree} (ht : t ∈ root.namedParts) : root.Visits (.item t)
  | task {v w : Lowering.Visit} (hv : root.Visits v) (hw : .visit w ∈ v.tasks) : root.Visits w

/-- Whether an expression is left by something that is lowered for a file. -/
def Tree.Leaves (root : Tree) (mark : ExprMark) : Prop :=
  ∃ v, root.Visits v ∧ .mark mark ∈ v.tasks

end SwiftRelations
