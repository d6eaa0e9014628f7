import SwiftRelations.Ast.Basic
import SwiftRelations.Facts.Diagnostic
import SwiftRelations.Facts.Fact

/-!
# What is said of a node

A node's description is the list of steps that state it: its own facts, over the identities of
nodes, and between them the visits to the nodes it refers to, each before the fact that mentions
it. The description depends on the node alone, never on what was visited before.

The steps follow `visit` of `DeclVisitor`, `StmtVisitor`, `ExprVisitor`, `PatternVisitor` and
`TypeVisitor`, with `visit_condition`, `visit_case_label_item`, `visit_repr`, `visit_unknown` and
`emit_location`.
-/

namespace SwiftRelations

/-- What an extraction is asked for. -/
structure ExtractionOptions where
  /-- Whether each node with a span gets a fact about its location. -/
  emitLocations : Bool := true
  deriving DecidableEq, Repr, Inhabited

namespace Extraction

/-- One step of a description. -/
inductive Step where
  /-- Describe a node now, unless that was done before. -/
  | visit (node : Node)
  /-- Describe a declaration now, unless it has a label already. -/
  | refer (decl : DeclId)
  /-- State a fact. -/
  | emit (fact : Fact NodeKey)
  /-- Report that a node of some kind is not modelled. -/
  | report (key : NodeKey) (kind : String) (span : Option Span)
  deriving Repr, Inhabited

/-- A fact about a node. -/
def about (key : NodeKey) (relation : String) (args : List (Value NodeKey)) : Step :=
  .emit { relation, args := .node key :: args }

/-- The argument for a node. -/
def arg (node : Node) : Value NodeKey := .node node.key

/-- A child, and the fact that relates it. -/
def child (key : NodeKey) (relation : String) (node : Node) : List Step :=
  [.visit node, about key relation [arg node]]

/-- A child that may be missing, and the fact that relates it. -/
def child? (key : NodeKey) (relation : String) : Option Node → List Step
  | some node => child key relation node
  | none => []

/-- The child with a number, and the fact that relates it. -/
def numbered (key : NodeKey) (relation : String) (index : Nat) (node : Node) : List Step :=
  [.visit node, about key relation [.int index, arg node]]

/-- Children in order, each with the fact that relates it by its number. -/
def children (key : NodeKey) (relation : String) (nodes : List Node) : List Step :=
  nodes.zipIdx.flatMap fun (node, index) => numbered key relation index node

/-- The location of a node. -/
def location (key : NodeKey) (span : Span) : Step :=
  about key "locations"
    [.int span.startLine, .int span.startCol, .int span.endLine, .int span.endCol]

/-- What is said of a node that is not modelled: that it is not, and its children. -/
def unspecified (key : NodeKey) (kind : String) (span : Option Span) (nodes : List Node) :
    List Step :=
  about key "unspecified_elements"
      [.string key.category.word, .string kind,
        .string (Diagnostic.classify key.category kind).2] ::
    .report key kind span :: children key "unspecified_element_children" nodes

/-- What is said of one entry of a pattern binding. -/
def bindingEntry (key : NodeKey) (entry : BindingEntry × Nat) : List Step :=
  numbered key "pattern_binding_decl_patterns" entry.2 (.pattern entry.1.pattern) ++
    match entry.1.init with
    | some init => numbered key "pattern_binding_decl_inits" entry.2 (.expr init)
    | none => []

/-- What is said of a declaration. -/
def declSteps (key : NodeKey) (span : Option Span) : DeclKind → List Step
  | .importing module => [about key "import_decls" [.string module]]
  | .func name params result body =>
    about key "func_decls" [.string name] ::
      children key "func_decl_params" (params.map .decl) ++
      child? key "func_decl_results" (result.map .writtenType) ++
      child? key "func_decl_bodies" (body.map .stmt)
  | .param name externalName written =>
    about key "param_decls" [.string name] ::
      (match externalName with
        | some external => [about key "param_decl_external_names" [.string external]]
        | none => []) ++
      child? key "param_decl_type_reprs" (written.map .writtenType)
  | .nominal kind name inherited members =>
    about key "nominal_type_decls" [.string kind.word, .string name] ::
      children key "nominal_type_decl_inherited_types" (inherited.map .writtenType) ++
      children key "decl_members" (members.map .decl)
  | .var name isLet type =>
    about key "var_decls" [.string name, .bool isLet] ::
      child? key "var_decl_types" (type.map .type)
  | .patternBinding entries =>
    about key "pattern_binding_decls" [] :: entries.zipIdx.flatMap (bindingEntry key)
  | .enumCase elements =>
    about key "enum_case_decls" [] :: elements.zipIdx.map fun (element, index) =>
      about key "enum_case_decl_elements" [.int index, .string element]
  | .typeAlias name written =>
    about key "type_alias_decls" [.string name] ::
      child? key "type_alias_decl_type_reprs" (written.map .writtenType)
  | .topLevelCode body => child key "top_level_code_decls" (.stmt body)
  | .unknown kind nodes => unspecified key kind span nodes

/-- What is said of a statement. -/
def stmtSteps (key : NodeKey) (span : Option Span) : StmtKind → List Step
  | .brace elements =>
    about key "brace_stmts" [] :: children key "brace_stmt_elements" elements
  | .returning result =>
    about key "return_stmts" [] :: child? key "return_stmt_results" (result.map .expr)
  | .ifElse condition thenBranch elseBranch =>
    [.visit (.stmtCondition condition), .visit (.stmt thenBranch),
      about key "if_stmts" [arg (.stmtCondition condition), arg (.stmt thenBranch)]] ++
      child? key "if_stmt_elses" (elseBranch.map .stmt)
  | .guard condition body =>
    [.visit (.stmtCondition condition), .visit (.stmt body),
      about key "guard_stmts" [arg (.stmtCondition condition), arg (.stmt body)]]
  | .whileLoop condition body =>
    [.visit (.stmtCondition condition), .visit (.stmt body),
      about key "while_stmts" [arg (.stmtCondition condition), arg (.stmt body)]]
  | .repeatWhile body condition =>
    [.visit (.stmt body), .visit (.expr condition),
      about key "repeat_while_stmts" [arg (.expr condition), arg (.stmt body)]]
  | .forEach pattern sequence body =>
    [.visit (.pattern pattern), .visit (.expr sequence), .visit (.stmt body),
      about key "for_each_stmts" [arg (.pattern pattern), arg (.expr sequence), arg (.stmt body)]]
  | .switch subject cases =>
    child key "switch_stmts" (.expr subject) ++
      children key "switch_stmt_cases" (cases.map .stmt)
  | .case labels body =>
    child key "case_stmts" (.stmt body) ++
      children key "case_stmt_labels" (labels.map .caseLabelItem)
  | .breaking => [about key "break_stmts" []]
  | .continuing => [about key "continue_stmts" []]
  | .throwing error => child key "throw_stmts" (.expr error)
  | .deferring body => child key "defer_stmts" (.stmt body)
  | .doCatch body catches =>
    child key "do_stmts" (.stmt body) ++ children key "do_stmt_catches" (catches.map .stmt)
  | .unknown kind nodes => unspecified key kind span nodes

/-- What is said of one element of a condition list. A binding's value comes before its
pattern. -/
def conditionElementSteps (key : NodeKey) : ConditionElement × Nat → List Step
  | (.boolean expr, index) => numbered key "stmt_condition_booleans" index (.expr expr)
  | (.pattern pattern initializer, index) =>
    [.visit (.expr initializer), .visit (.pattern pattern),
      about key "stmt_condition_patterns"
        [.int index, arg (.pattern pattern), arg (.expr initializer)]]

/-- What is said of a condition list. -/
def stmtConditionSteps (key : NodeKey) (elements : List ConditionElement) : List Step :=
  about key "stmt_conditions" [] :: elements.zipIdx.flatMap (conditionElementSteps key)

/-- What is said of a case label item. -/
def caseLabelItemSteps (key : NodeKey) (item : CaseLabelItem) : List Step :=
  child key "case_label_items" (.pattern item.pattern) ++
    child? key "case_label_item_guards" (item.guard.map .expr)

/-- What is said of one argument of a call. -/
def argumentSteps (key : NodeKey) (argument : Argument × Nat) : List Step :=
  numbered key "call_expr_arguments" argument.2 (.expr argument.1.expr) ++
    match argument.1.label with
    | some label =>
      [about key "call_expr_argument_labels" [.int argument.2, .string label]]
    | none => []

/-- What is said of the kind of an expression. -/
def exprKindSteps (key : NodeKey) (span : Option Span) : ExprKind → List Step
  | .integerLiteral text => [about key "integer_literal_exprs" [.string text]]
  | .floatLiteral text => [about key "float_literal_exprs" [.string text]]
  | .stringLiteral text => [about key "string_literal_exprs" [.string text]]
  | .booleanLiteral value => [about key "boolean_literal_exprs" [.bool value]]
  | .nilLiteral => [about key "nil_literal_exprs" []]
  | .declRef name decl =>
    about key "decl_ref_exprs" [.string name] ::
      match decl with
      | some decl => [.refer decl, about key "decl_ref_expr_decls" [arg (.decl decl)]]
      | none => []
  | .call callee arguments =>
    child key "call_exprs" (.expr callee) ++ arguments.zipIdx.flatMap (argumentSteps key)
  | .binary op lhs rhs =>
    [.visit (.expr lhs), .visit (.expr rhs),
      about key "binary_exprs" [.string op, arg (.expr lhs), arg (.expr rhs)]]
  | .unary op operand =>
    [.visit (.expr operand), about key "prefix_exprs" [.string op, arg (.expr operand)]]
  | .memberRef base name =>
    [.visit (.expr base), about key "member_ref_exprs" [arg (.expr base), .string name]]
  | .tuple elements =>
    about key "tuple_exprs" [] :: children key "tuple_expr_elements" (elements.map .expr)
  | .array elements =>
    about key "array_exprs" [] :: children key "array_expr_elements" (elements.map .expr)
  | .closure params body =>
    child key "closure_exprs" (.stmt body) ++
      children key "closure_expr_params" (params.map .decl)
  | .assign dest source =>
    [.visit (.expr dest), .visit (.expr source),
      about key "assign_exprs" [arg (.expr dest), arg (.expr source)]]
  | .ternary condition thenExpr elseExpr =>
    [.visit (.expr condition), .visit (.expr thenExpr), .visit (.expr elseExpr),
      about key "ternary_exprs" [arg (.expr condition), arg (.expr thenExpr), arg (.expr elseExpr)]]
  | .unknown kind nodes => unspecified key kind span nodes

/-- What is said of an expression: its kind, then its type. -/
def exprSteps (key : NodeKey) (expr : Expr) : List Step :=
  exprKindSteps key expr.span expr.kind ++ child? key "expr_types" (expr.type.map .type)

/-- What is said of a pattern. -/
def patternSteps (key : NodeKey) (span : Option Span) : PatternKind → List Step
  | .named name var =>
    about key "named_patterns" [.string name] ::
      child? key "named_pattern_vars" (var.map .decl)
  | .any => [about key "any_patterns" []]
  | .typed sub written =>
    child key "typed_patterns" (.pattern sub) ++
      child key "typed_pattern_type_reprs" (.writtenType written)
  | .tuple elements =>
    about key "tuple_patterns" [] ::
      children key "tuple_pattern_elements" (elements.map .pattern)
  | .expr expr => child key "expr_patterns" (.expr expr)
  | .binding isLet sub =>
    [.visit (.pattern sub), about key "binding_patterns" [.bool isLet, arg (.pattern sub)]]
  | .enumElement name sub =>
    about key "enum_element_patterns" [.string name] ::
      child? key "enum_element_pattern_subs" (sub.map .pattern)
  | .isType written => child key "is_patterns" (.writtenType written)
  | .optionalSome sub => child key "optional_some_patterns" (.pattern sub)
  | .unknown kind nodes => unspecified key kind span nodes

/-- What is said of the structure of a type. -/
def typeKindSteps (key : NodeKey) : TypeKind → List Step
  | .nominal name args =>
    about key "nominal_types" [.string name] ::
      children key "nominal_type_args" (args.map .type)
  | .optional base => child key "optional_types" (.type base)
  | .array element => child key "array_types" (.type element)
  | .dictionary fst snd =>
    [.visit (.type fst), .visit (.type snd),
      about key "dictionary_types" [arg (.type fst), arg (.type snd)]]
  | .tuple elements => children key "tuple_type_elements" (elements.map .type)
  | .function params result =>
    child key "function_types" (.type result) ++
      children key "function_type_params" (params.map .type)
  | .unknown text => unspecified key text none []

/-- What is said of a type: its canonical name, then its structure. -/
def typeSteps (key : NodeKey) (entry : TypeEntry) : List Step :=
  about key "types" [.string entry.name] :: typeKindSteps key entry.kind

/-- What is said of an annotation: its text, then the type it resolved to. -/
def writtenTypeSteps (key : NodeKey) (repr : TypeRepr) (type : Option TypeId) : List Step :=
  about key "type_reprs" [.string repr.text] ::
    child? key "type_repr_types" (type.map .type)

/-- What is said of a node, its location left out. Nothing is said of a place that holds no
node. -/
def content (ast : Ast) (node : Node) : List Step :=
  match node with
  | .decl id => ((ast.decl? id).map fun decl => declSteps node.key decl.span decl.kind).getD []
  | .stmt id => ((ast.stmt? id).map fun stmt => stmtSteps node.key stmt.span stmt.kind).getD []
  | .stmtCondition id =>
    ((ast.stmtCondition? id).map fun c => stmtConditionSteps node.key c.elements).getD []
  | .caseLabelItem id => ((ast.caseLabelItem? id).map (caseLabelItemSteps node.key)).getD []
  | .expr id => ((ast.expr? id).map (exprSteps node.key)).getD []
  | .pattern id =>
    ((ast.pattern? id).map fun p => patternSteps node.key p.span p.kind).getD []
  | .type id => ((ast.type? id).map (typeSteps node.key)).getD []
  | .writtenType written =>
    ((ast.typeRepr? written.repr).map (writtenTypeSteps node.key · written.type)).getD []

/-- The location of a node, if locations are asked for and the node has a span. -/
def locationSteps (ast : Ast) (options : ExtractionOptions) (node : Node) : List Step :=
  match ast.spanOf node with
  | some span => if options.emitLocations then [location node.key span] else []
  | none => []

/-- What is said of a node, its location first. -/
def describe (ast : Ast) (options : ExtractionOptions) (node : Node) : List Step :=
  locationSteps ast options node ++ content ast node

end Extraction

end SwiftRelations
