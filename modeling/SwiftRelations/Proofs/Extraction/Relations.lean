import Mathlib.Data.List.Basic
import SwiftRelations.Data.List
import SwiftRelations.Proofs.Extraction.Steps
import SwiftRelations.Proofs.Facts.Renaming

/-!
# The relations of a description

Each kind of node is described in relations of its own, and the first of them tells the kind. Within
one description no two facts are of one relation, unless the relation numbers what it relates and
the numbers differ.
-/

namespace SwiftRelations

/-- The relations whose second argument is the number of what they relate. -/
def indexedRelations : List String :=
  ["func_decl_params", "nominal_type_decl_inherited_types", "decl_members",
    "pattern_binding_decl_patterns", "pattern_binding_decl_inits", "enum_case_decl_elements",
    "brace_stmt_elements", "switch_stmt_cases", "case_stmt_labels", "do_stmt_catches",
    "stmt_condition_booleans", "stmt_condition_patterns", "call_expr_arguments",
    "call_expr_argument_labels", "tuple_expr_elements", "array_expr_elements",
    "closure_expr_params", "tuple_pattern_elements", "nominal_type_args", "tuple_type_elements",
    "function_type_params", "unspecified_element_children"]

/-- The number in a fact of such a relation. -/
def Fact.index? {ν : Type} (fact : Fact ν) : Option Int :=
  match fact.args with
  | _ :: .int index :: _ => some index
  | _ => none

/-- Facts of one relation are told apart by their numbers, and the relation is one with numbers. -/
def Fact.Apart {ν : Type} (f g : Fact ν) : Prop :=
  f.relation = g.relation →
    f.relation ∈ indexedRelations ∧ ∃ i j, f.index? = some i ∧ g.index? = some j ∧ i ≠ j

/-- The relations a declaration is described in, the first one first. -/
def DeclKind.relations : DeclKind → List String
  | .importing _ => ["import_decls"]
  | .func .. => ["func_decls", "func_decl_params", "func_decl_results", "func_decl_bodies"]
  | .param .. => ["param_decls", "param_decl_external_names", "param_decl_type_reprs"]
  | .nominal .. => ["nominal_type_decls", "nominal_type_decl_inherited_types", "decl_members"]
  | .var .. => ["var_decls", "var_decl_types"]
  | .patternBinding _ =>
    ["pattern_binding_decls", "pattern_binding_decl_patterns", "pattern_binding_decl_inits"]
  | .enumCase _ => ["enum_case_decls", "enum_case_decl_elements"]
  | .typeAlias .. => ["type_alias_decls", "type_alias_decl_type_reprs"]
  | .topLevelCode _ => ["top_level_code_decls"]
  | .unknown .. => ["unspecified_elements", "unspecified_element_children"]

/-- The relations a statement is described in, the first one first. -/
def StmtKind.relations : StmtKind → List String
  | .brace _ => ["brace_stmts", "brace_stmt_elements"]
  | .returning _ => ["return_stmts", "return_stmt_results"]
  | .ifElse .. => ["if_stmts", "if_stmt_elses"]
  | .guard .. => ["guard_stmts"]
  | .whileLoop .. => ["while_stmts"]
  | .repeatWhile .. => ["repeat_while_stmts"]
  | .forEach .. => ["for_each_stmts"]
  | .switch .. => ["switch_stmts", "switch_stmt_cases"]
  | .case .. => ["case_stmts", "case_stmt_labels"]
  | .breaking => ["break_stmts"]
  | .continuing => ["continue_stmts"]
  | .throwing _ => ["throw_stmts"]
  | .deferring _ => ["defer_stmts"]
  | .doCatch .. => ["do_stmts", "do_stmt_catches"]
  | .unknown .. => ["unspecified_elements", "unspecified_element_children"]

/-- The relations the kind of an expression is described in, the first one first. -/
def ExprKind.relations : ExprKind → List String
  | .integerLiteral _ => ["integer_literal_exprs"]
  | .floatLiteral _ => ["float_literal_exprs"]
  | .stringLiteral _ => ["string_literal_exprs"]
  | .booleanLiteral _ => ["boolean_literal_exprs"]
  | .nilLiteral => ["nil_literal_exprs"]
  | .declRef .. => ["decl_ref_exprs", "decl_ref_expr_decls"]
  | .call .. => ["call_exprs", "call_expr_arguments", "call_expr_argument_labels"]
  | .binary .. => ["binary_exprs"]
  | .unary .. => ["prefix_exprs"]
  | .memberRef .. => ["member_ref_exprs"]
  | .tuple _ => ["tuple_exprs", "tuple_expr_elements"]
  | .array _ => ["array_exprs", "array_expr_elements"]
  | .closure .. => ["closure_exprs", "closure_expr_params"]
  | .assign .. => ["assign_exprs"]
  | .ternary .. => ["ternary_exprs"]
  | .unknown .. => ["unspecified_elements", "unspecified_element_children"]

/-- The relations a pattern is described in, the first one first. -/
def PatternKind.relations : PatternKind → List String
  | .named .. => ["named_patterns", "named_pattern_vars"]
  | .any => ["any_patterns"]
  | .typed .. => ["typed_patterns", "typed_pattern_type_reprs"]
  | .tuple _ => ["tuple_patterns", "tuple_pattern_elements"]
  | .expr _ => ["expr_patterns"]
  | .binding .. => ["binding_patterns"]
  | .enumElement .. => ["enum_element_patterns", "enum_element_pattern_subs"]
  | .isType _ => ["is_patterns"]
  | .optionalSome _ => ["optional_some_patterns"]
  | .unknown .. => ["unspecified_elements", "unspecified_element_children"]

/-- The relations the structure of a type is described in. A tuple type has none but that of its
elements. -/
def TypeKind.relations : TypeKind → List String
  | .nominal .. => ["nominal_types", "nominal_type_args"]
  | .optional _ => ["optional_types"]
  | .array _ => ["array_types"]
  | .dictionary .. => ["dictionary_types"]
  | .tuple _ => ["tuple_type_elements"]
  | .function .. => ["function_types", "function_type_params"]
  | .unknown _ => ["unspecified_elements", "unspecified_element_children"]

namespace Extraction

/-- The facts that some steps state are of the given relations, and apart from one another. -/
structure Tells (relations : List String) (steps : List Step) : Prop where
  among : ∀ fact ∈ factsOf steps, fact.relation ∈ relations
  apart : (factsOf steps).Pairwise Fact.Apart

section

variable {key : NodeKey} {relation : String}

/-- The facts of two lists of steps are those of both. -/
@[simp]
theorem factsOf_append (a b : List Step) : factsOf (a ++ b) = factsOf a ++ factsOf b :=
  List.filterMap_append

@[simp]
private theorem factsOf_visit_cons (node : Node) (steps : List Step) :
    factsOf (.visit node :: steps) = factsOf steps := rfl

@[simp]
private theorem factsOf_refer_cons (decl : DeclId) (steps : List Step) :
    factsOf (.refer decl :: steps) = factsOf steps := rfl

@[simp]
private theorem factsOf_report_cons (kind : String) (span : Option Span) (steps : List Step) :
    factsOf (.report key kind span :: steps) = factsOf steps := rfl

@[simp]
private theorem factsOf_about_cons (args : List (Value NodeKey)) (steps : List Step) :
    factsOf (about key relation args :: steps) =
      { relation, args := .node key :: args } :: factsOf steps := rfl

@[simp]
private theorem factsOf_nil : factsOf [] = [] := rfl

/-- What is told in some relations is told in more. -/
theorem Tells.mono {r s : List String} {steps : List Step} (h : Tells r steps)
    (hs : ∀ name ∈ r, name ∈ s) : Tells s steps :=
  ⟨fun fact hf => hs _ (h.among fact hf), h.apart⟩

/-- No steps tell nothing. -/
theorem tells_nil {relations : List String} : Tells relations [] :=
  ⟨nofun, List.Pairwise.nil⟩

/-- What is told in different relations may be told one after the other. -/
theorem Tells.append {r s : List String} {a b : List Step} (ha : Tells r a) (hb : Tells s b)
    (h : ∀ name ∈ r, name ∉ s) : Tells (r ++ s) (a ++ b) where
  among fact hf := by
    rw [factsOf_append] at hf
    rcases List.mem_append.mp hf with hf | hf
    · exact List.mem_append_left _ (ha.among fact hf)
    · exact List.mem_append_right _ (hb.among fact hf)
  apart := by
    rw [factsOf_append, List.pairwise_append]
    refine ⟨ha.apart, hb.apart, ?_⟩
    intro f hf g hg he
    exact absurd (hb.among g hg) (he ▸ h f.relation (ha.among f hf))

variable (relation)

/-- One fact, and steps that state none. -/
theorem tells_fact {steps : List Step} (args : List (Value NodeKey))
    (h : factsOf steps = [{ relation, args := .node key :: args }]) : Tells [relation] steps := by
  constructor
  · rw [h]
    intro fact hf
    rw [List.mem_singleton.mp hf]
    exact List.mem_singleton.mpr rfl
  · rw [h]
    exact List.pairwise_singleton _ _

/-- A fact tells of its relation. -/
theorem tells_about (args : List (Value NodeKey)) : Tells [relation] [about key relation args] :=
  tells_fact relation args rfl

private theorem tells_child (node : Node) : Tells [relation] (child key relation node) :=
  tells_fact relation [arg node] rfl

private theorem tells_child? (node : Option Node) :
    Tells [relation] (child? key relation node) := by
  cases node with
  | none => exact tells_nil
  | some node => exact tells_child relation node

private theorem tells_numbered (index : Nat) (node : Node) :
    Tells [relation] (numbered key relation index node) :=
  tells_fact relation [.int index, arg node] rfl

/-- Numbered groups of facts are apart if the facts of each group are. -/
theorem tells_groups {α : Type} {relations : List String} {f : α × Nat → List Step} (l : List α)
    (hr : ∀ name ∈ relations, name ∈ indexedRelations)
    (h : ∀ a i, Tells relations (f (a, i)))
    (hi : ∀ a i, ∀ fact ∈ factsOf (f (a, i)), fact.index? = some (i : Int)) :
    Tells relations (l.zipIdx.flatMap f) := by
  have he : factsOf (l.zipIdx.flatMap f) = l.zipIdx.flatMap fun p => factsOf (f p) :=
    List.filterMap_flatMap
  constructor
  · rw [he]
    intro fact hf
    obtain ⟨⟨a, i⟩, -, hf⟩ := List.mem_flatMap.mp hf
    exact (h a i).among fact hf
  · rw [he, List.pairwise_flatMap]
    refine ⟨fun p _ => (h p.1 p.2).apart, (l.pairwise_snd_lt_zipIdx 0).imp ?_⟩
    rintro ⟨a, i⟩ ⟨b, j⟩ hij x hx y hy -
    refine ⟨hr _ ((h a i).among x hx), i, j, hi a i x hx, hi b j y hy, ?_⟩
    simp only at hij
    omega

/-- Children are told apart by their numbers. -/
theorem tells_children (nodes : List Node)
    (h : relation ∈ indexedRelations) : Tells [relation] (children key relation nodes) := by
  refine tells_groups nodes (by simpa using h)
    (fun node index => tells_numbered relation index node) ?_
  intro node index fact hf
  rw [List.mem_singleton.mp hf]
  rfl

/-- Optional children may be told after facts of other relations. -/
theorem Tells.child? {r : List String} {a : List Step} (ha : Tells r a) (node : Option Node)
    (h : relation ∉ r) : Tells (r ++ [relation]) (a ++ Extraction.child? key relation node) :=
  ha.append (tells_child? relation node) fun _ hm hn => h (List.mem_singleton.mp hn ▸ hm)

/-- Numbered children may be told after facts of other relations. -/
theorem Tells.children {r : List String} {a : List Step} (ha : Tells r a) (nodes : List Node)
    (h : relation ∉ r ∧ relation ∈ indexedRelations) :
    Tells (r ++ [relation]) (a ++ Extraction.children key relation nodes) :=
  ha.append (tells_children relation nodes h.2) fun _ hm hn => h.1 (List.mem_singleton.mp hn ▸ hm)

private theorem tells_unspecified (kind : String) (span : Option Span) (nodes : List Node) :
    Tells ["unspecified_elements", "unspecified_element_children"]
      (unspecified key kind span nodes) := by
  have hu : Tells ["unspecified_elements"]
      [about key "unspecified_elements"
        [.string key.category.word, .string kind,
          .string (Diagnostic.classify key.category kind).2], .report key kind span] :=
    tells_fact "unspecified_elements" _ rfl
  exact hu.children "unspecified_element_children" nodes (by decide)

variable (span : Option Span)

/-- A declaration is told in the relations of its kind. -/
theorem tells_declSteps (kind : DeclKind) : Tells kind.relations (declSteps key span kind) := by
  cases kind with
  | importing module => exact tells_about "import_decls" _
  | func name params result body =>
    exact (((tells_about "func_decls" _).children "func_decl_params" _ (by decide)).child?
      "func_decl_results" _ (by decide)).child? "func_decl_bodies" _ (by decide)
  | param name externalName written =>
    refine Tells.append (r := ["param_decls", "param_decl_external_names"])
      ((tells_about "param_decls" _).append ?_ (by decide)) (tells_child? "param_decl_type_reprs" _)
      (by decide)
    cases externalName with
    | none => exact tells_nil
    | some external => exact tells_about "param_decl_external_names" _
  | nominal kind name inherited members =>
    exact ((tells_about "nominal_type_decls" _).children "nominal_type_decl_inherited_types" _
      (by decide)).children "decl_members" _ (by decide)
  | var name isLet type =>
    exact (tells_about "var_decls" _).child? "var_decl_types" _ (by decide)
  | patternBinding entries =>
    have he : Tells ["pattern_binding_decl_patterns", "pattern_binding_decl_inits"]
        (entries.zipIdx.flatMap (bindingEntry key)) := by
      refine tells_groups entries (by decide) ?_ ?_
      · intro entry index
        refine (tells_numbered "pattern_binding_decl_patterns" _ _).append
          (s := ["pattern_binding_decl_inits"]) ?_ (by decide)
        cases entry.init with
        | none => exact tells_nil
        | some init => exact tells_numbered "pattern_binding_decl_inits" _ _
      · intro entry index fact hf
        cases h : entry.init <;>
          simp only [bindingEntry, numbered, h, factsOf_append, factsOf_visit_cons,
            factsOf_about_cons, factsOf_nil, List.append_nil, List.mem_append,
            List.mem_singleton] at hf
        · rw [hf]
          rfl
        · rcases hf with rfl | rfl <;> rfl
    exact (tells_about "pattern_binding_decls" _).append he (by decide)
  | enumCase elements =>
    have he : Tells ["enum_case_decl_elements"] (elements.zipIdx.flatMap fun p =>
        [about key "enum_case_decl_elements" [.int p.2, .string p.1]]) := by
      refine tells_groups elements (by decide) ?_ ?_
      · exact fun element index => tells_about "enum_case_decl_elements" _
      · intro element index fact hf
        rw [List.mem_singleton.mp hf]
        rfl
    rw [← List.map_eq_flatMap] at he
    exact (tells_about "enum_case_decls" _).append he (by decide)
  | typeAlias name written =>
    exact (tells_about "type_alias_decls" _).child? "type_alias_decl_type_reprs" _ (by decide)
  | topLevelCode body => exact tells_child "top_level_code_decls" _
  | unknown kind nodes => exact tells_unspecified kind span nodes

/-- A statement is told in the relations of its kind. -/
theorem tells_stmtSteps (kind : StmtKind) : Tells kind.relations (stmtSteps key span kind) := by
  cases kind with
  | brace elements =>
    exact (tells_about "brace_stmts" _).children "brace_stmt_elements" _ (by decide)
  | returning result =>
    exact (tells_about "return_stmts" _).child? "return_stmt_results" _ (by decide)
  | ifElse condition thenBranch elseBranch =>
    have hi : Tells ["if_stmts"] [.visit (.stmtCondition condition), .visit (.stmt thenBranch),
        about key "if_stmts" [arg (.stmtCondition condition), arg (.stmt thenBranch)]] :=
      tells_fact "if_stmts" _ rfl
    exact hi.child? "if_stmt_elses" _ (by decide)
  | guard condition body => exact tells_fact "guard_stmts" _ rfl
  | whileLoop condition body => exact tells_fact "while_stmts" _ rfl
  | repeatWhile body condition => exact tells_fact "repeat_while_stmts" _ rfl
  | forEach pattern sequence body => exact tells_fact "for_each_stmts" _ rfl
  | switch subject cases =>
    exact (tells_child "switch_stmts" _).children "switch_stmt_cases" _ (by decide)
  | case labels body =>
    exact (tells_child "case_stmts" _).children "case_stmt_labels" _ (by decide)
  | breaking => exact tells_about "break_stmts" _
  | continuing => exact tells_about "continue_stmts" _
  | throwing error => exact tells_child "throw_stmts" _
  | deferring body => exact tells_child "defer_stmts" _
  | doCatch body catches =>
    exact (tells_child "do_stmts" _).children "do_stmt_catches" _ (by decide)
  | unknown kind nodes => exact tells_unspecified kind span nodes

/-- A condition is told in three relations. -/
theorem tells_stmtConditionSteps (elements : List ConditionElement) :
    Tells ["stmt_conditions", "stmt_condition_booleans", "stmt_condition_patterns"]
      (stmtConditionSteps key elements) := by
  have he : Tells ["stmt_condition_booleans", "stmt_condition_patterns"]
      (elements.zipIdx.flatMap (conditionElementSteps key)) := by
    refine tells_groups elements (by decide) ?_ ?_
    · intro element index
      cases element with
      | boolean expr =>
        exact (tells_numbered "stmt_condition_booleans" _ _).mono (by simp)
      | pattern pattern initializer =>
        exact (tells_fact "stmt_condition_patterns" _ rfl).mono (by simp)
    · intro element index fact hf
      cases element <;> rw [List.mem_singleton.mp hf] <;> rfl
  exact (tells_about "stmt_conditions" _).append he (by decide)

/-- A case label item is told in two relations. -/
theorem tells_caseLabelItemSteps (item : CaseLabelItem) :
    Tells ["case_label_items", "case_label_item_guards"] (caseLabelItemSteps key item) :=
  (tells_child "case_label_items" _).child? "case_label_item_guards" _ (by decide)

/-- An expression is told in the relations of its kind. -/
theorem tells_exprKindSteps (kind : ExprKind) :
    Tells kind.relations (exprKindSteps key span kind) := by
  cases kind with
  | integerLiteral text => exact tells_about "integer_literal_exprs" _
  | floatLiteral text => exact tells_about "float_literal_exprs" _
  | stringLiteral text => exact tells_about "string_literal_exprs" _
  | booleanLiteral value => exact tells_about "boolean_literal_exprs" _
  | nilLiteral => exact tells_about "nil_literal_exprs" _
  | declRef name decl =>
    refine (tells_about "decl_ref_exprs" _).append (s := ["decl_ref_expr_decls"]) ?_ (by decide)
    cases decl with
    | none => exact tells_nil
    | some decl => exact tells_fact "decl_ref_expr_decls" _ rfl
  | call callee arguments =>
    have ha : Tells ["call_expr_arguments", "call_expr_argument_labels"]
        (arguments.zipIdx.flatMap (argumentSteps key)) := by
      refine tells_groups arguments (by decide) ?_ ?_
      · intro argument index
        refine (tells_numbered "call_expr_arguments" _ _).append
          (s := ["call_expr_argument_labels"]) ?_ (by decide)
        cases argument.label with
        | none => exact tells_nil
        | some label => exact tells_about "call_expr_argument_labels" _
      · intro argument index fact hf
        cases h : argument.label <;>
          simp only [argumentSteps, numbered, h, factsOf_append, factsOf_visit_cons,
            factsOf_about_cons, factsOf_nil, List.append_nil, List.mem_append,
            List.mem_singleton] at hf
        · rw [hf]
          rfl
        · rcases hf with rfl | rfl <;> rfl
    exact (tells_child "call_exprs" _).append ha (by decide)
  | binary op lhs rhs => exact tells_fact "binary_exprs" _ rfl
  | unary op operand => exact tells_fact "prefix_exprs" _ rfl
  | memberRef base name => exact tells_fact "member_ref_exprs" _ rfl
  | tuple elements =>
    exact (tells_about "tuple_exprs" _).children "tuple_expr_elements" _ (by decide)
  | array elements =>
    exact (tells_about "array_exprs" _).children "array_expr_elements" _ (by decide)
  | closure params body =>
    exact (tells_child "closure_exprs" _).children "closure_expr_params" _ (by decide)
  | assign dest source => exact tells_fact "assign_exprs" _ rfl
  | ternary condition thenExpr elseExpr => exact tells_fact "ternary_exprs" _ rfl
  | unknown kind nodes => exact tells_unspecified kind span nodes

/-- A pattern is told in the relations of its kind. -/
theorem tells_patternSteps (kind : PatternKind) :
    Tells kind.relations (patternSteps key span kind) := by
  cases kind with
  | named name var =>
    exact (tells_about "named_patterns" _).child? "named_pattern_vars" _ (by decide)
  | any => exact tells_about "any_patterns" _
  | typed sub written =>
    exact (tells_child "typed_patterns" _).append (tells_child "typed_pattern_type_reprs" _)
      (by decide)
  | tuple elements =>
    exact (tells_about "tuple_patterns" _).children "tuple_pattern_elements" _ (by decide)
  | expr expr => exact tells_child "expr_patterns" _
  | binding isLet sub => exact tells_fact "binding_patterns" _ rfl
  | enumElement name sub =>
    exact (tells_about "enum_element_patterns" _).child?
      "enum_element_pattern_subs" _ (by decide)
  | isType written => exact tells_child "is_patterns" _
  | optionalSome sub => exact tells_child "optional_some_patterns" _
  | unknown kind nodes => exact tells_unspecified kind span nodes

/-- A type is told in the relations of its kind. -/
theorem tells_typeKindSteps (kind : TypeKind) :
    Tells kind.relations (typeKindSteps key kind) := by
  cases kind with
  | nominal name args =>
    exact (tells_about "nominal_types" _).children "nominal_type_args" _ (by decide)
  | optional base => exact tells_child "optional_types" _
  | array element => exact tells_child "array_types" _
  | dictionary fst snd => exact tells_fact "dictionary_types" _ rfl
  | tuple elements => exact tells_children "tuple_type_elements" _ (by decide)
  | function params result =>
    exact (tells_child "function_types" _).children "function_type_params" _ (by decide)
  | unknown text => exact tells_unspecified text none []

end
end Extraction
end SwiftRelations
