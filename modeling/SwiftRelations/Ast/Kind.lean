import SwiftRelations.Ast.Node

/-!
# What nodes hold

The kinds of declarations, statements, expressions and patterns. A construct without a kind of its
own is `unknown`: it keeps the word of the grammar for it, and its children.

The kinds are those of `DeclKind`, `StmtKind`, `ExprKind`, `PatternKind` and `NominalKind`, each
with its `name` as a word here, and with `declared_name`.
-/

namespace SwiftRelations

/-- The kinds of nominal type declarations. -/
inductive NominalKind where
  | classType
  | structType
  | enumType
  | protocolType
  | extensionType
  | actorType
  deriving DecidableEq, Repr, Inhabited

/-- The keyword of a kind of nominal type. -/
def NominalKind.word : NominalKind → String
  | .classType => "class"
  | .structType => "struct"
  | .enumType => "enum"
  | .protocolType => "protocol"
  | .extensionType => "extension"
  | .actorType => "actor"

/-- The kinds of nominal type declarations. -/
def NominalKind.all : List NominalKind :=
  [.classType, .structType, .enumType, .protocolType, .extensionType, .actorType]

/-- The kind of nominal type that a keyword declares. -/
def NominalKind.ofWord? (word : String) : Option NominalKind :=
  all.find? (·.word == word)

/-- One `pattern = initializer` of a `let` or `var` declaration. -/
structure BindingEntry where
  pattern : PatternId
  init : Option ExprId
  deriving DecidableEq, Repr, Inhabited

/-- The kinds of declarations. -/
inductive DeclKind where
  /-- The import of a module. -/
  | importing (module : String)
  | func (name : String) (params : List DeclId) (result : Option WrittenType) (body : Option StmtId)
  | param (name : String) (externalName : Option String) (written : Option WrittenType)
  | nominal (kind : NominalKind) (name : String) (inherited : List WrittenType)
      (members : List DeclId)
  | var (name : String) (isLet : Bool) (type : Option TypeId)
  | patternBinding (entries : List BindingEntry)
  | enumCase (elements : List String)
  | typeAlias (name : String) (written : Option WrittenType)
  /-- Statements at file scope, wrapped in a block. -/
  | topLevelCode (body : StmtId)
  | unknown (kind : String) (children : List Node)
  deriving DecidableEq, Repr, Inhabited

/-- The word for a kind of declaration. -/
def DeclKind.word : DeclKind → String
  | .importing _ => "import"
  | .func .. => "func"
  | .param .. => "param"
  | .nominal kind .. => kind.word
  | .var .. => "var"
  | .patternBinding _ => "pattern_binding"
  | .enumCase _ => "enum_case"
  | .typeAlias .. => "typealias"
  | .topLevelCode _ => "top_level_code"
  | .unknown kind _ => kind

/-- The name a declaration introduces. -/
def DeclKind.declaredName? : DeclKind → Option String
  | .func name .. => some name
  | .param name .. => some name
  | .nominal _ name .. => some name
  | .var name .. => some name
  | .typeAlias name _ => some name
  | _ => none

/-- The kinds of statements. -/
inductive StmtKind where
  /-- A block, of declarations, statements and expressions. -/
  | brace (elements : List Node)
  | returning (result : Option ExprId)
  | ifElse (condition : StmtConditionId) (thenBranch : StmtId) (elseBranch : Option StmtId)
  | guard (condition : StmtConditionId) (body : StmtId)
  | whileLoop (condition : StmtConditionId) (body : StmtId)
  | repeatWhile (body : StmtId) (condition : ExprId)
  | forEach (pattern : PatternId) (sequence : ExprId) (body : StmtId)
  | switch (subject : ExprId) (cases : List StmtId)
  /-- One case of a switch. The default case has no labels. -/
  | case (labels : List CaseLabelItemId) (body : StmtId)
  | breaking
  | continuing
  | throwing (error : ExprId)
  | deferring (body : StmtId)
  /-- A `do` block with its catch blocks. -/
  | doCatch (body : StmtId) (catches : List StmtId)
  | unknown (kind : String) (children : List Node)
  deriving DecidableEq, Repr, Inhabited

/-- The word for a kind of statement. -/
def StmtKind.word : StmtKind → String
  | .brace _ => "brace"
  | .returning _ => "return"
  | .ifElse .. => "if"
  | .guard .. => "guard"
  | .whileLoop .. => "while"
  | .repeatWhile .. => "repeat_while"
  | .forEach .. => "for_each"
  | .switch .. => "switch"
  | .case .. => "case"
  | .breaking => "break"
  | .continuing => "continue"
  | .throwing _ => "throw"
  | .deferring _ => "defer"
  | .doCatch .. => "do"
  | .unknown kind _ => kind

/-- One element of the condition list of an `if`, `guard` or `while`. -/
inductive ConditionElement where
  | boolean (expr : ExprId)
  /-- A binding such as `let x = value` or `case .some(x) = value`. -/
  | pattern (pattern : PatternId) (initializer : ExprId)
  deriving DecidableEq, Repr, Inhabited

/-- An argument of a call. -/
structure Argument where
  label : Option String
  expr : ExprId
  deriving DecidableEq, Repr, Inhabited

/-- The kinds of expressions. -/
inductive ExprKind where
  | integerLiteral (text : String)
  | floatLiteral (text : String)
  | stringLiteral (text : String)
  | booleanLiteral (value : Bool)
  | nilLiteral
  /-- A name used as a value, with the declaration it refers to when that is known. -/
  | declRef (name : String) (decl : Option DeclId)
  | call (callee : ExprId) (arguments : List Argument)
  | binary (op : String) (lhs rhs : ExprId)
  /-- An operator before its operand. -/
  | unary (op : String) (operand : ExprId)
  | memberRef (base : ExprId) (name : String)
  | tuple (elements : List ExprId)
  | array (elements : List ExprId)
  | closure (params : List DeclId) (body : StmtId)
  | assign (dest source : ExprId)
  | ternary (condition thenExpr elseExpr : ExprId)
  | unknown (kind : String) (children : List Node)
  deriving DecidableEq, Repr, Inhabited

/-- The word for a kind of expression. -/
def ExprKind.word : ExprKind → String
  | .integerLiteral _ => "integer_literal"
  | .floatLiteral _ => "float_literal"
  | .stringLiteral _ => "string_literal"
  | .booleanLiteral _ => "boolean_literal"
  | .nilLiteral => "nil_literal"
  | .declRef .. => "decl_ref"
  | .call .. => "call"
  | .binary .. => "binary"
  | .unary .. => "prefix"
  | .memberRef .. => "member_ref"
  | .tuple _ => "tuple"
  | .array _ => "array"
  | .closure .. => "closure"
  | .assign .. => "assign"
  | .ternary .. => "ternary"
  | .unknown kind _ => kind

/-- The kinds of patterns. -/
inductive PatternKind where
  /-- A name that binds, with the variable it introduces. -/
  | named (name : String) (var : Option DeclId)
  /-- The pattern `_`. -/
  | any
  | typed (sub : PatternId) (written : WrittenType)
  | tuple (elements : List PatternId)
  /-- An expression that a value is compared with. -/
  | expr (expr : ExprId)
  /-- A pattern after `let` or `var`. -/
  | binding (isLet : Bool) (sub : PatternId)
  /-- The case of an enumeration, with a pattern for its payload. -/
  | enumElement (name : String) (sub : Option PatternId)
  /-- A test of a value's type. -/
  | isType (written : WrittenType)
  /-- A pattern for the value of an optional. -/
  | optionalSome (sub : PatternId)
  | unknown (kind : String) (children : List Node)
  deriving DecidableEq, Repr, Inhabited

/-- The word for a kind of pattern. -/
def PatternKind.word : PatternKind → String
  | .named .. => "named"
  | .any => "any"
  | .typed .. => "typed"
  | .tuple _ => "tuple"
  | .expr _ => "expr"
  | .binding .. => "binding"
  | .enumElement .. => "enum_element"
  | .isType _ => "is"
  | .optionalSome _ => "optional_some"
  | .unknown kind _ => kind

end SwiftRelations
