import SwiftRelations.Facts.Fact
import SwiftRelations.Proofs.Ast.Payload

/-!
# Reading facts back

The facts about one node, in the order in which they were stated, tell its payload: the relation of
the first one tells the kind, and the rows of the others tell what is in it. Nodes are read as
their labels. Where a node stands at a place that does not fix its category, what its label stands
for is read from the facts about it.
-/

namespace SwiftRelations

/-- The label at a position among the arguments of a fact. -/
def labelAt (args : List (Value Label)) (i : Nat) : Label := (args[i]?.bind Value.node?).getD ⟨0⟩

/-- The text at a position among the arguments of a fact. -/
def textAt (args : List (Value Label)) (i : Nat) : String :=
  match args[i]? with
  | some (.string s) => s
  | _ => ""

/-- The flag at a position among the arguments of a fact. -/
def flagAt (args : List (Value Label)) (i : Nat) : Bool :=
  match args[i]? with
  | some (.bool b) => b
  | _ => false

section

variable (u v : Value Label) (l : Label) (s : String) (b : Bool) (args : List (Value Label))

@[simp]
private theorem labelAt_zero : labelAt (.node l :: args) 0 = l := rfl

@[simp]
private theorem labelAt_one : labelAt (v :: .node l :: args) 1 = l := rfl

@[simp]
private theorem labelAt_two : labelAt (u :: v :: .node l :: args) 2 = l := rfl

@[simp]
private theorem textAt_zero : textAt (.string s :: args) 0 = s := rfl

@[simp]
private theorem textAt_one : textAt (v :: .string s :: args) 1 = s := rfl

@[simp]
private theorem flagAt_zero : flagAt (.bool b :: args) 0 = b := rfl

@[simp]
private theorem flagAt_one : flagAt (v :: .bool b :: args) 1 = b := rfl

end

/-- The arguments after the subject, of each fact of a relation. -/
def told (facts : List (Fact Label)) (relation : String) : List (List (Value Label)) :=
  (facts.filter (·.relation = relation)).map (·.args.tail)

/-- The relation of the first fact. -/
def leading (facts : List (Fact Label)) : String := (facts.head?.map Fact.relation).getD ""

/-- The arguments of the fact of a relation that is stated once. -/
def only (facts : List (Fact Label)) (relation : String) : List (Value Label) :=
  (told facts relation).headD []

/-- The label in the fact of a relation that is stated at most once. -/
def label? (facts : List (Fact Label)) (relation : String) : Option Label :=
  (told facts relation).head?.map (labelAt · 0)

/-- The labels in the facts of a relation with numbers. -/
def labels (facts : List (Fact Label)) (relation : String) : List Label :=
  (told facts relation).map (labelAt · 1)

/-- The row with the number of another row, if there is one. -/
def partner (rows : List (List (Value Label))) (row : List (Value Label)) :
    Option (List (Value Label)) :=
  rows.find? (·.head? == row.head?)

/-- The annotation that a label stands for. -/
def writtenOf (node : Label → Node) (label : Label) : WrittenType :=
  match node label with
  | .writtenType written => written
  | _ => ⟨⟨0⟩, none⟩

/-- The kind of nominal type with a keyword. -/
def NominalKind.read (word : String) : NominalKind := (ofWord? word).getD .classType

section

variable (node : Label → Node) (facts : List (Fact Label))

/-- The kind of a declaration. -/
def DeclKind.read : DeclKind :=
  match leading facts with
  | "import_decls" => .importing (textAt (only facts "import_decls") 0)
  | "func_decls" =>
    .func (textAt (only facts "func_decls") 0) ((labels facts "func_decl_params").map (⟨·.number⟩))
      ((label? facts "func_decl_results").map (writtenOf node))
      ((label? facts "func_decl_bodies").map (⟨·.number⟩))
  | "param_decls" =>
    .param (textAt (only facts "param_decls") 0)
      ((told facts "param_decl_external_names").head?.map (textAt · 0))
      ((label? facts "param_decl_type_reprs").map (writtenOf node))
  | "nominal_type_decls" =>
    .nominal (.read (textAt (only facts "nominal_type_decls") 0))
      (textAt (only facts "nominal_type_decls") 1)
      ((labels facts "nominal_type_decl_inherited_types").map (writtenOf node))
      ((labels facts "decl_members").map (⟨·.number⟩))
  | "var_decls" =>
    .var (textAt (only facts "var_decls") 0) (flagAt (only facts "var_decls") 1)
      ((label? facts "var_decl_types").map (⟨·.number⟩))
  | "pattern_binding_decls" =>
    .patternBinding ((told facts "pattern_binding_decl_patterns").map fun row =>
      { pattern := ⟨(labelAt row 1).number⟩
        init := (partner (told facts "pattern_binding_decl_inits") row).map
          fun row => ⟨(labelAt row 1).number⟩ })
  | "enum_case_decls" => .enumCase ((told facts "enum_case_decl_elements").map (textAt · 1))
  | "type_alias_decls" =>
    .typeAlias (textAt (only facts "type_alias_decls") 0)
      ((label? facts "type_alias_decl_type_reprs").map (writtenOf node))
  | "top_level_code_decls" =>
    .topLevelCode ⟨(labelAt (only facts "top_level_code_decls") 0).number⟩
  | _ =>
    .unknown (textAt (only facts "unspecified_elements") 1)
      ((labels facts "unspecified_element_children").map node)

/-- The kind of a statement. -/
def StmtKind.read : StmtKind :=
  match leading facts with
  | "brace_stmts" => .brace ((labels facts "brace_stmt_elements").map node)
  | "return_stmts" => .returning ((label? facts "return_stmt_results").map (⟨·.number⟩))
  | "if_stmts" =>
    .ifElse ⟨(labelAt (only facts "if_stmts") 0).number⟩
      ⟨(labelAt (only facts "if_stmts") 1).number⟩
      ((label? facts "if_stmt_elses").map (⟨·.number⟩))
  | "guard_stmts" =>
    .guard ⟨(labelAt (only facts "guard_stmts") 0).number⟩
      ⟨(labelAt (only facts "guard_stmts") 1).number⟩
  | "while_stmts" =>
    .whileLoop ⟨(labelAt (only facts "while_stmts") 0).number⟩
      ⟨(labelAt (only facts "while_stmts") 1).number⟩
  | "repeat_while_stmts" =>
    .repeatWhile ⟨(labelAt (only facts "repeat_while_stmts") 1).number⟩
      ⟨(labelAt (only facts "repeat_while_stmts") 0).number⟩
  | "for_each_stmts" =>
    .forEach ⟨(labelAt (only facts "for_each_stmts") 0).number⟩
      ⟨(labelAt (only facts "for_each_stmts") 1).number⟩
      ⟨(labelAt (only facts "for_each_stmts") 2).number⟩
  | "switch_stmts" =>
    .switch ⟨(labelAt (only facts "switch_stmts") 0).number⟩
      ((labels facts "switch_stmt_cases").map (⟨·.number⟩))
  | "case_stmts" =>
    .case ((labels facts "case_stmt_labels").map (⟨·.number⟩))
      ⟨(labelAt (only facts "case_stmts") 0).number⟩
  | "break_stmts" => .breaking
  | "continue_stmts" => .continuing
  | "throw_stmts" => .throwing ⟨(labelAt (only facts "throw_stmts") 0).number⟩
  | "defer_stmts" => .deferring ⟨(labelAt (only facts "defer_stmts") 0).number⟩
  | "do_stmts" =>
    .doCatch ⟨(labelAt (only facts "do_stmts") 0).number⟩
      ((labels facts "do_stmt_catches").map (⟨·.number⟩))
  | _ =>
    .unknown (textAt (only facts "unspecified_elements") 1)
      ((labels facts "unspecified_element_children").map node)

/-- The element of a condition list that a fact relates. -/
def ConditionElement.read? (fact : Fact Label) : Option ConditionElement :=
  match fact.relation with
  | "stmt_condition_booleans" => some (.boolean ⟨(labelAt fact.args 2).number⟩)
  | "stmt_condition_patterns" =>
    some (.pattern ⟨(labelAt fact.args 2).number⟩ ⟨(labelAt fact.args 3).number⟩)
  | _ => none

/-- The kind of an expression. -/
def ExprKind.read : ExprKind :=
  match leading facts with
  | "integer_literal_exprs" => .integerLiteral (textAt (only facts "integer_literal_exprs") 0)
  | "float_literal_exprs" => .floatLiteral (textAt (only facts "float_literal_exprs") 0)
  | "string_literal_exprs" => .stringLiteral (textAt (only facts "string_literal_exprs") 0)
  | "boolean_literal_exprs" => .booleanLiteral (flagAt (only facts "boolean_literal_exprs") 0)
  | "nil_literal_exprs" => .nilLiteral
  | "decl_ref_exprs" =>
    .declRef (textAt (only facts "decl_ref_exprs") 0)
      ((label? facts "decl_ref_expr_decls").map (⟨·.number⟩))
  | "call_exprs" =>
    .call ⟨(labelAt (only facts "call_exprs") 0).number⟩
      ((told facts "call_expr_arguments").map fun row =>
        { label := (partner (told facts "call_expr_argument_labels") row).map (textAt · 1)
          expr := ⟨(labelAt row 1).number⟩ })
  | "binary_exprs" =>
    .binary (textAt (only facts "binary_exprs") 0) ⟨(labelAt (only facts "binary_exprs") 1).number⟩
      ⟨(labelAt (only facts "binary_exprs") 2).number⟩
  | "prefix_exprs" =>
    .unary (textAt (only facts "prefix_exprs") 0) ⟨(labelAt (only facts "prefix_exprs") 1).number⟩
  | "member_ref_exprs" =>
    .memberRef ⟨(labelAt (only facts "member_ref_exprs") 0).number⟩
      (textAt (only facts "member_ref_exprs") 1)
  | "tuple_exprs" => .tuple ((labels facts "tuple_expr_elements").map (⟨·.number⟩))
  | "array_exprs" => .array ((labels facts "array_expr_elements").map (⟨·.number⟩))
  | "closure_exprs" =>
    .closure ((labels facts "closure_expr_params").map (⟨·.number⟩))
      ⟨(labelAt (only facts "closure_exprs") 0).number⟩
  | "assign_exprs" =>
    .assign ⟨(labelAt (only facts "assign_exprs") 0).number⟩
      ⟨(labelAt (only facts "assign_exprs") 1).number⟩
  | "ternary_exprs" =>
    .ternary ⟨(labelAt (only facts "ternary_exprs") 0).number⟩
      ⟨(labelAt (only facts "ternary_exprs") 1).number⟩
      ⟨(labelAt (only facts "ternary_exprs") 2).number⟩
  | _ =>
    .unknown (textAt (only facts "unspecified_elements") 1)
      ((labels facts "unspecified_element_children").map node)

/-- The kind of a pattern. -/
def PatternKind.read : PatternKind :=
  match leading facts with
  | "named_patterns" =>
    .named (textAt (only facts "named_patterns") 0)
      ((label? facts "named_pattern_vars").map (⟨·.number⟩))
  | "any_patterns" => .any
  | "typed_patterns" =>
    .typed ⟨(labelAt (only facts "typed_patterns") 0).number⟩
      (writtenOf node (labelAt (only facts "typed_pattern_type_reprs") 0))
  | "tuple_patterns" => .tuple ((labels facts "tuple_pattern_elements").map (⟨·.number⟩))
  | "expr_patterns" => .expr ⟨(labelAt (only facts "expr_patterns") 0).number⟩
  | "binding_patterns" =>
    .binding (flagAt (only facts "binding_patterns") 0)
      ⟨(labelAt (only facts "binding_patterns") 1).number⟩
  | "enum_element_patterns" =>
    .enumElement (textAt (only facts "enum_element_patterns") 0)
      ((label? facts "enum_element_pattern_subs").map (⟨·.number⟩))
  | "is_patterns" => .isType (writtenOf node (labelAt (only facts "is_patterns") 0))
  | "optional_some_patterns" =>
    .optionalSome ⟨(labelAt (only facts "optional_some_patterns") 0).number⟩
  | _ =>
    .unknown (textAt (only facts "unspecified_elements") 1)
      ((labels facts "unspecified_element_children").map node)

/-- The structure of a type, after the fact that names it. A tuple type is one of which no other
kind is told. -/
def TypeKind.read : TypeKind :=
  match leading facts.tail with
  | "nominal_types" =>
    .nominal (textAt (only facts "nominal_types") 0)
      ((labels facts "nominal_type_args").map (⟨·.number⟩))
  | "optional_types" => .optional ⟨(labelAt (only facts "optional_types") 0).number⟩
  | "array_types" => .array ⟨(labelAt (only facts "array_types") 0).number⟩
  | "dictionary_types" =>
    .dictionary ⟨(labelAt (only facts "dictionary_types") 0).number⟩
      ⟨(labelAt (only facts "dictionary_types") 1).number⟩
  | "function_types" =>
    .function ((labels facts "function_type_params").map (⟨·.number⟩))
      ⟨(labelAt (only facts "function_types") 0).number⟩
  | "unspecified_elements" => .unknown (textAt (only facts "unspecified_elements") 1)
  | _ => .tuple ((labels facts "tuple_type_elements").map (⟨·.number⟩))

/-- The relations that a description of the category begins with, but for those of nodes that are
not modelled. -/
def Category.leadingRelations : Category → List String
  | .decl =>
    ["import_decls", "func_decls", "param_decls", "nominal_type_decls", "var_decls",
      "pattern_binding_decls", "enum_case_decls", "type_alias_decls", "top_level_code_decls"]
  | .stmt =>
    ["brace_stmts", "return_stmts", "if_stmts", "guard_stmts", "while_stmts",
      "repeat_while_stmts", "for_each_stmts", "switch_stmts", "case_stmts", "break_stmts",
      "continue_stmts", "throw_stmts", "defer_stmts", "do_stmts"]
  | .stmtCondition => ["stmt_conditions"]
  | .caseLabelItem => ["case_label_items"]
  | .expr =>
    ["integer_literal_exprs", "float_literal_exprs", "string_literal_exprs",
      "boolean_literal_exprs", "nil_literal_exprs", "decl_ref_exprs", "call_exprs",
      "binary_exprs", "prefix_exprs", "member_ref_exprs", "tuple_exprs", "array_exprs",
      "closure_exprs", "assign_exprs", "ternary_exprs"]
  | .pattern =>
    ["named_patterns", "any_patterns", "typed_patterns", "tuple_patterns", "expr_patterns",
      "binding_patterns", "enum_element_patterns", "is_patterns", "optional_some_patterns"]
  | .type => ["types"]
  | .typeRepr => ["type_reprs"]

/-- The category of a node. One that is not modelled is described with its category. -/
def Category.read : Category :=
  ((all.find? fun category => leading facts ∈ category.leadingRelations).or
    (ofWord? (textAt (only facts "unspecified_elements") 0))).getD .decl

/-- What a label stands for. -/
def Node.read (label : Label) : Node :=
  match Category.read facts with
  | .decl => .decl ⟨label.number⟩
  | .stmt => .stmt ⟨label.number⟩
  | .stmtCondition => .stmtCondition ⟨label.number⟩
  | .caseLabelItem => .caseLabelItem ⟨label.number⟩
  | .expr => .expr ⟨label.number⟩
  | .pattern => .pattern ⟨label.number⟩
  | .type => .type ⟨label.number⟩
  | .typeRepr =>
    .writtenType ⟨⟨label.number⟩, (label? facts "type_repr_types").map (⟨·.number⟩)⟩

/-- What a node holds. -/
def Payload.read : Payload :=
  match Category.read facts with
  | .decl => .decl (.read node facts)
  | .stmt => .stmt (.read node facts)
  | .stmtCondition => .stmtCondition (facts.filterMap ConditionElement.read?)
  | .caseLabelItem =>
    .caseLabelItem ⟨(labelAt (only facts "case_label_items") 0).number⟩
      ((label? facts "case_label_item_guards").map (⟨·.number⟩))
  | .expr => .expr (.read node facts) ((label? facts "expr_types").map (⟨·.number⟩))
  | .pattern => .pattern (.read node facts)
  | .type => .type (.read facts) (textAt (only facts "types") 0)
  | .typeRepr =>
    .writtenType (textAt (only facts "type_reprs") 0)
      ((label? facts "type_repr_types").map (⟨·.number⟩))

end

end SwiftRelations
