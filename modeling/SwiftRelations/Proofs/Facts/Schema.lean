import Mathlib.Data.List.Forall2
import SwiftRelations.Proofs.Facts.Renaming

/-!
# The schema of the facts

Each relation has a fixed number of columns, and each column holds scalars of one type or nodes of
one category. The first column is the node a fact is about, so the relations are listed by its
category. Nodes of any category stand in few columns: the subjects of the relations that all
categories share, the children of a node that is not modelled, and the elements of a block.
-/

namespace SwiftRelations

/-- What a column of a relation holds. -/
inductive Column where
  /-- Nodes of a category. -/
  | node (category : Category)
  /-- Nodes of any category. -/
  | anyNode
  | string
  | int
  | bool
  deriving DecidableEq, Repr

/-- Whether an argument may stand in a column, where the category of each node is known. -/
def Column.Fits {ν : Type} (category? : ν → Option Category) : Column → Value ν → Prop
  | .node category, .node n => category? n = some category
  | .anyNode, .node n => (category? n).isSome
  | .string, .string _ => True
  | .int, .int _ => True
  | .bool, .bool _ => True
  | _, _ => False

/-- The relations about nodes of a category, with the columns after the subject. -/
def Category.relations : Category → List (String × List Column)
  | .decl =>
    [("import_decls", [.string]),
      ("func_decls", [.string]),
      ("func_decl_params", [.int, .node .decl]),
      ("func_decl_results", [.node .typeRepr]),
      ("func_decl_bodies", [.node .stmt]),
      ("param_decls", [.string]),
      ("param_decl_external_names", [.string]),
      ("param_decl_type_reprs", [.node .typeRepr]),
      ("nominal_type_decls", [.string, .string]),
      ("nominal_type_decl_inherited_types", [.int, .node .typeRepr]),
      ("decl_members", [.int, .node .decl]),
      ("var_decls", [.string, .bool]),
      ("var_decl_types", [.node .type]),
      ("pattern_binding_decls", []),
      ("pattern_binding_decl_patterns", [.int, .node .pattern]),
      ("pattern_binding_decl_inits", [.int, .node .expr]),
      ("enum_case_decls", []),
      ("enum_case_decl_elements", [.int, .string]),
      ("type_alias_decls", [.string]),
      ("type_alias_decl_type_reprs", [.node .typeRepr]),
      ("top_level_code_decls", [.node .stmt])]
  | .stmt =>
    [("brace_stmts", []),
      ("brace_stmt_elements", [.int, .anyNode]),
      ("return_stmts", []),
      ("return_stmt_results", [.node .expr]),
      ("if_stmts", [.node .stmtCondition, .node .stmt]),
      ("if_stmt_elses", [.node .stmt]),
      ("guard_stmts", [.node .stmtCondition, .node .stmt]),
      ("while_stmts", [.node .stmtCondition, .node .stmt]),
      ("repeat_while_stmts", [.node .expr, .node .stmt]),
      ("for_each_stmts", [.node .pattern, .node .expr, .node .stmt]),
      ("switch_stmts", [.node .expr]),
      ("switch_stmt_cases", [.int, .node .stmt]),
      ("case_stmts", [.node .stmt]),
      ("case_stmt_labels", [.int, .node .caseLabelItem]),
      ("break_stmts", []),
      ("continue_stmts", []),
      ("throw_stmts", [.node .expr]),
      ("defer_stmts", [.node .stmt]),
      ("do_stmts", [.node .stmt]),
      ("do_stmt_catches", [.int, .node .stmt])]
  | .stmtCondition =>
    [("stmt_conditions", []),
      ("stmt_condition_booleans", [.int, .node .expr]),
      ("stmt_condition_patterns", [.int, .node .pattern, .node .expr])]
  | .caseLabelItem =>
    [("case_label_items", [.node .pattern]),
      ("case_label_item_guards", [.node .expr])]
  | .expr =>
    [("integer_literal_exprs", [.string]),
      ("float_literal_exprs", [.string]),
      ("string_literal_exprs", [.string]),
      ("boolean_literal_exprs", [.bool]),
      ("nil_literal_exprs", []),
      ("decl_ref_exprs", [.string]),
      ("decl_ref_expr_decls", [.node .decl]),
      ("call_exprs", [.node .expr]),
      ("call_expr_arguments", [.int, .node .expr]),
      ("call_expr_argument_labels", [.int, .string]),
      ("binary_exprs", [.string, .node .expr, .node .expr]),
      ("prefix_exprs", [.string, .node .expr]),
      ("member_ref_exprs", [.node .expr, .string]),
      ("tuple_exprs", []),
      ("tuple_expr_elements", [.int, .node .expr]),
      ("array_exprs", []),
      ("array_expr_elements", [.int, .node .expr]),
      ("closure_exprs", [.node .stmt]),
      ("closure_expr_params", [.int, .node .decl]),
      ("assign_exprs", [.node .expr, .node .expr]),
      ("ternary_exprs", [.node .expr, .node .expr, .node .expr]),
      ("expr_types", [.node .type])]
  | .pattern =>
    [("named_patterns", [.string]),
      ("named_pattern_vars", [.node .decl]),
      ("any_patterns", []),
      ("typed_patterns", [.node .pattern]),
      ("typed_pattern_type_reprs", [.node .typeRepr]),
      ("tuple_patterns", []),
      ("tuple_pattern_elements", [.int, .node .pattern]),
      ("expr_patterns", [.node .expr]),
      ("binding_patterns", [.bool, .node .pattern]),
      ("enum_element_patterns", [.string]),
      ("enum_element_pattern_subs", [.node .pattern]),
      ("is_patterns", [.node .typeRepr]),
      ("optional_some_patterns", [.node .pattern])]
  | .type =>
    [("types", [.string]),
      ("nominal_types", [.string]),
      ("nominal_type_args", [.int, .node .type]),
      ("optional_types", [.node .type]),
      ("array_types", [.node .type]),
      ("dictionary_types", [.node .type, .node .type]),
      ("tuple_type_elements", [.int, .node .type]),
      ("function_types", [.node .type]),
      ("function_type_params", [.int, .node .type])]
  | .typeRepr =>
    [("type_reprs", [.string]),
      ("type_repr_types", [.node .type])]

/-- The relations about nodes of any category, with the columns after the subject. -/
def sharedRelations : List (String × List Column) :=
  [("locations", [.int, .int, .int, .int]),
    ("unspecified_elements", [.string, .string, .string]),
    ("unspecified_element_children", [.int, .anyNode])]

/-- All relations, with their columns. -/
def schema : List (String × List Column) :=
  sharedRelations.map (fun row => (row.1, .anyNode :: row.2)) ++
    Category.all.flatMap fun category =>
      category.relations.map fun row => (row.1, .node category :: row.2)

/-- The columns that hold nodes of any category, counted from the subject on. -/
def mixedColumns : List (String × Nat) :=
  [("locations", 0), ("unspecified_elements", 0), ("unspecified_element_children", 0),
    ("unspecified_element_children", 2), ("brace_stmt_elements", 2)]

/-- Each relation is listed once. -/
theorem schema_nodup : (schema.map Prod.fst).Nodup := by
  decide +kernel

/-- Nodes of any category stand in the columns said to be mixed, and in no others. -/
theorem schema_mixedColumns : ∀ row ∈ schema, ∀ column ∈ row.2.zipIdx,
    column.1 = .anyNode ↔ (row.1, column.2) ∈ mixedColumns := by
  decide +kernel

variable {ν μ : Type} {category? : ν → Option Category}

/-- Whether a fact is of the schema: its relation is listed, and its arguments are as many as the
columns and stand in them one by one. -/
def Fact.Conforms (category? : ν → Option Category) (fact : Fact ν) : Prop :=
  ∃ columns, (fact.relation, columns) ∈ schema ∧
    List.Forall₂ (Column.Fits category?) columns fact.args

/-- The relations about nodes of a category are in the schema. -/
theorem mem_schema_of_category {category : Category} {relation : String} {columns : List Column}
    (h : (relation, columns) ∈ category.relations) :
    (relation, .node category :: columns) ∈ schema := by
  have hc : category ∈ Category.all := by cases category <;> decide
  exact List.mem_append_right _ (List.mem_flatMap.mpr ⟨category, hc, List.mem_map.mpr ⟨_, h, rfl⟩⟩)

/-- The relations about nodes of any category are in the schema. -/
theorem mem_schema_of_shared {relation : String} {columns : List Column}
    (h : (relation, columns) ∈ sharedRelations) : (relation, .anyNode :: columns) ∈ schema :=
  List.mem_append_left _ (List.mem_map.mpr ⟨_, h, rfl⟩)

/-- A column does not tell one node from another of its category. -/
theorem Column.Fits.map {column : Column} {value : Value ν} {f : ν → μ}
    {category?' : μ → Option Category} (h : column.Fits category? value)
    (hf : ∀ n ∈ value.node?, category?' (f n) = category? n) :
    column.Fits category?' (value.map f) := by
  cases column <;> cases value <;> first | exact h.elim | skip
  case node.node => exact (hf _ rfl).trans h
  case anyNode.node => exact (congrArg Option.isSome (hf _ rfl)).trans h
  all_goals trivial

/-- A fact is of the schema whatever its nodes are called, if their categories stay. -/
theorem Fact.Conforms.map {fact : Fact ν} {f : ν → μ} {category?' : μ → Option Category}
    (h : fact.Conforms category?) (hf : ∀ n ∈ fact.nodes, category?' (f n) = category? n) :
    (fact.map f).Conforms category?' := by
  obtain ⟨columns, hm, hc⟩ := h
  refine ⟨columns, hm, ?_⟩
  have hv : ∀ value ∈ fact.args, ∀ n ∈ value.node?, category?' (f n) = category? n :=
    fun value hv n hn => hf n (List.mem_filterMap.mpr ⟨value, hv, hn⟩)
  simp only [Fact.map]
  clear hm hf
  generalize fact.args = args at hc hv
  induction hc with
  | nil => exact .nil
  | cons fits _ ih =>
    exact .cons (fits.map (hv _ List.mem_cons_self))
      (ih fun value hm => hv value (List.mem_cons_of_mem _ hm))

/-! ### The kinds of arguments -/

/-- Whether an argument is of the kind that stands in a column. -/
def Column.Takes : Column → Value ν → Prop
  | .node _, .node _ => True
  | .anyNode, .node _ => True
  | .string, .string _ => True
  | .int, .int _ => True
  | .bool, .bool _ => True
  | _, _ => False

/-- Whether a fact is of the schema but for the categories of its nodes. -/
def Fact.IsTyped (fact : Fact ν) : Prop :=
  ∃ columns, (fact.relation, columns) ∈ schema ∧ List.Forall₂ Column.Takes columns fact.args

/-- An argument that may stand in a column is of its kind. -/
theorem Column.Fits.takes {column : Column} {value : Value ν} (h : column.Fits category? value) :
    column.Takes value := by
  cases column <;> cases value <;> first | exact h.elim | trivial

/-- A fact of the schema is one but for the categories of its nodes. -/
theorem Fact.Conforms.isTyped {fact : Fact ν} (h : fact.Conforms category?) : fact.IsTyped := by
  obtain ⟨columns, hm, hc⟩ := h
  exact ⟨columns, hm, hc.imp fun _ _ fits => fits.takes⟩

/-- A column does not tell one node from another but for its category. -/
theorem Column.takes_map (column : Column) (value : Value ν) (f : ν → μ) :
    column.Takes (value.map f) ↔ column.Takes value := by
  cases column <;> cases value <;> exact Iff.rfl

/-- The kinds of the arguments stay whatever the nodes are called. -/
theorem Fact.IsTyped.map {fact : Fact ν} (h : fact.IsTyped) (f : ν → μ) :
    (fact.map f).IsTyped := by
  obtain ⟨columns, hm, hc⟩ := h
  refine ⟨columns, hm, ?_⟩
  rw [Fact.map, List.forall₂_map_right_iff]
  exact hc.imp fun column value takes => (column.takes_map value f).mpr takes

end SwiftRelations
