import SwiftRelations.Proofs.Extraction.Consistency
import SwiftRelations.Proofs.Extraction.Relations
import SwiftRelations.Proofs.Facts.Schema

/-!
# The facts are of the schema

A description mentions nodes by their keys, so the category of each argument can be seen there. The
labels of a run belong to the same nodes; so the facts of a run are of the schema, with the category
of a label that of its owner.
-/

namespace SwiftRelations

/-- The category of the node of a label. -/
def Registry.category? (registry : Registry) (label : Label) : Option Category :=
  (registry.owner label).map NodeKey.category

/-- The narrowest column that an argument stands in. -/
def Column.of : Value NodeKey → Column
  | .node key => .node key.category
  | .string _ => .string
  | .int _ => .int
  | .bool _ => .bool

/-- The category of a node is that of its constructor. -/
theorem Node.category_key (node : Node) :
    node.key.category =
      match node with
      | .decl _ => .decl
      | .stmt _ => .stmt
      | .stmtCondition _ => .stmtCondition
      | .caseLabelItem _ => .caseLabelItem
      | .expr _ => .expr
      | .pattern _ => .pattern
      | .type _ => .type
      | .writtenType _ => .typeRepr := by
  cases node <;> rfl

namespace Extraction

/-- The category that a key shows. -/
def shown (key : NodeKey) : Option Category := some key.category

/-- Whether the facts that some steps state are of the schema. -/
def Conforming (steps : List Step) : Prop := ∀ fact ∈ factsOf steps, fact.Conforms shown

/-- Arguments stand in their narrowest columns. -/
theorem fits_of (args : List (Value NodeKey)) :
    List.Forall₂ (Column.Fits shown) (args.map Column.of) args := by
  induction args with
  | nil => exact .nil
  | cons value args ih =>
    refine .cons ?_ ih
    cases value <;> simp [Column.of, Column.Fits, shown]

section

variable {key : NodeKey} {relation : String}

@[simp]
private theorem conforming_nil : Conforming [] := nofun

@[simp]
private theorem conforming_visit_cons (node : Node) (steps : List Step) :
    Conforming (.visit node :: steps) ↔ Conforming steps := Iff.rfl

@[simp]
private theorem conforming_refer_cons (decl : DeclId) (steps : List Step) :
    Conforming (.refer decl :: steps) ↔ Conforming steps := Iff.rfl

@[simp]
private theorem conforming_report_cons (kind : String) (span : Option Span) (steps : List Step) :
    Conforming (.report key kind span :: steps) ↔ Conforming steps := Iff.rfl

@[simp]
private theorem conforming_append (a b : List Step) :
    Conforming (a ++ b) ↔ Conforming a ∧ Conforming b := by
  simp [Conforming, or_imp, forall_and]

@[simp]
private theorem conforming_about_cons (args : List (Value NodeKey)) (steps : List Step) :
    Conforming (about key relation args :: steps) ↔
      Fact.Conforms shown { relation, args := .node key :: args } ∧ Conforming steps :=
  List.forall_mem_cons

@[simp]
private theorem conforming_flatMap {α : Type} (l : List α) (f : α → List Step) :
    Conforming (l.flatMap f) ↔ ∀ a ∈ l, Conforming (f a) := by
  induction l with
  | nil => simp
  | cons a l ih => simp [ih]

/-- A fact about a node conforms if the relation is listed for its category, with columns that the
other arguments stand in. -/
theorem conforms_of_mem {columns : List Column} {args : List (Value NodeKey)}
    (h : (relation, columns) ∈ key.category.relations)
    (hc : List.Forall₂ (Column.Fits shown) columns args) :
    Fact.Conforms shown { relation, args := .node key :: args } :=
  ⟨_, mem_schema_of_category h, .cons rfl hc⟩

@[simp]
private theorem conforms_about {args : List (Value NodeKey)}
    (h : (relation, args.map Column.of) ∈ key.category.relations) :
    Fact.Conforms shown { relation, args := .node key :: args } :=
  conforms_of_mem h (fits_of args)

@[simp]
private theorem conforming_child {node : Node}
    (h : (relation, [.node node.key.category]) ∈ key.category.relations) :
    Conforming (child key relation node) :=
  (conforming_about_cons _ _).mpr ⟨conforms_about h, conforming_nil⟩

@[simp]
private theorem conforming_child? {node : Option Node}
    (h : ∀ n ∈ node, (relation, [.node n.key.category]) ∈ key.category.relations) :
    Conforming (child? key relation node) := by
  cases node with
  | none => exact conforming_nil
  | some node => exact conforming_child (h node rfl)

@[simp]
private theorem conforming_numbered {index : Nat} {node : Node}
    (h : (relation, [.int, .node node.key.category]) ∈ key.category.relations) :
    Conforming (numbered key relation index node) :=
  (conforming_about_cons _ _).mpr ⟨conforms_about h, conforming_nil⟩

@[simp]
private theorem conforming_children {nodes : List Node}
    (h : ∀ node ∈ nodes, (relation, [.int, .node node.key.category]) ∈ key.category.relations) :
    Conforming (children key relation nodes) :=
  (conforming_flatMap _ _).mpr fun _ hn => conforming_numbered (h _ (List.fst_mem_of_mem_zipIdx hn))

/-- A fact of a relation that is about nodes of any category. -/
theorem conforms_of_shared (columns : List Column) {args : List (Value NodeKey)}
    (h : (relation, columns) ∈ sharedRelations)
    (hc : List.Forall₂ (Column.Fits shown) columns args) :
    Fact.Conforms shown { relation, args := .node key :: args } :=
  ⟨_, mem_schema_of_shared h, .cons rfl hc⟩

/-- A number and a node of any category. -/
theorem fits_numbered (index : Nat) (node : Node) :
    List.Forall₂ (Column.Fits shown) [.int, .anyNode] [.int index, arg node] :=
  .cons trivial (.cons rfl .nil)

/-- Children in order, if the fact about each of them conforms. -/
theorem conforming_children_of (nodes : List Node)
    (h : ∀ (index : Nat) (node : Node),
      Fact.Conforms shown { relation, args := [.node key, .int index, arg node] }) :
    Conforming (children key relation nodes) := by
  rw [children, conforming_flatMap]
  rintro ⟨node, index⟩ -
  exact (conforming_about_cons _ _).mpr ⟨h index node, conforming_nil⟩

@[simp]
private theorem conforming_unspecified (kind : String) (span : Option Span) (nodes : List Node) :
    Conforming (unspecified key kind span nodes) := by
  rw [unspecified, conforming_about_cons, conforming_report_cons]
  constructor
  · exact conforms_of_shared [.string, .string, .string] (by simp [sharedRelations])
      (fits_of [.string _, .string _, .string _])
  · exact conforming_children_of nodes fun index node =>
      conforms_of_shared [.int, .anyNode] (by simp [sharedRelations]) (fits_numbered index node)

variable (span : Option Span)

private theorem conforming_declSteps (id : DeclId) (kind : DeclKind) :
    Conforming (declSteps (Node.decl id).key span kind) := by
  cases kind with
  | param name externalName written =>
    cases externalName <;>
      simp [declSteps, Category.relations, Column.of, Node.category_key]
  | patternBinding entries =>
    rw [declSteps, conforming_about_cons, conforming_flatMap]
    refine ⟨conforms_about (by simp [Category.relations, Node.category_key]), ?_⟩
    rintro ⟨entry, index⟩ -
    cases h : entry.init <;> simp [bindingEntry, h, Category.relations, Node.category_key]
  | enumCase elements =>
    rw [declSteps, conforming_about_cons, List.map_eq_flatMap, conforming_flatMap]
    simp [Category.relations, Column.of, Node.category_key]
  | _ => simp [declSteps, Category.relations, Column.of, Node.category_key]

private theorem conforming_stmtSteps (id : StmtId) (kind : StmtKind) :
    Conforming (stmtSteps (Node.stmt id).key span kind) := by
  cases kind with
  | brace elements =>
    rw [stmtSteps, conforming_about_cons]
    refine ⟨conforms_about (by simp [Category.relations, Node.category_key]), ?_⟩
    exact conforming_children_of elements fun index node =>
      conforms_of_mem (by simp [Category.relations, Node.category_key]) (fits_numbered index node)
  | _ => simp [stmtSteps, Category.relations, Column.of, arg, Node.category_key]

private theorem conforming_stmtConditionSteps (id : StmtConditionId)
    (elements : List ConditionElement) :
    Conforming (stmtConditionSteps (Node.stmtCondition id).key elements) := by
  rw [stmtConditionSteps, conforming_about_cons, conforming_flatMap]
  refine ⟨conforms_about (by simp [Category.relations, Node.category_key]), ?_⟩
  rintro ⟨element, index⟩ -
  cases element <;>
    simp [conditionElementSteps, Category.relations, Column.of, arg, Node.category_key]

private theorem conforming_caseLabelItemSteps (id : CaseLabelItemId) (item : CaseLabelItem) :
    Conforming (caseLabelItemSteps (Node.caseLabelItem id).key item) := by
  simp [caseLabelItemSteps, Category.relations, Node.category_key]

private theorem conforming_exprKindSteps (id : ExprId) (kind : ExprKind) :
    Conforming (exprKindSteps (Node.expr id).key span kind) := by
  cases kind with
  | declRef name decl =>
    cases decl <;> simp [exprKindSteps, Category.relations, Column.of, arg, Node.category_key]
  | call callee arguments =>
    rw [exprKindSteps, conforming_append, conforming_flatMap]
    refine ⟨conforming_child (by simp [Category.relations, Node.category_key]), ?_⟩
    rintro ⟨argument, index⟩ -
    cases h : argument.label <;>
      simp [argumentSteps, h, Category.relations, Column.of, Node.category_key]
  | _ => simp [exprKindSteps, Category.relations, Column.of, arg, Node.category_key]

private theorem conforming_patternSteps (id : PatternId) (kind : PatternKind) :
    Conforming (patternSteps (Node.pattern id).key span kind) := by
  cases kind <;> simp [patternSteps, Category.relations, Column.of, arg, Node.category_key]

private theorem conforming_typeKindSteps (id : TypeId) (kind : TypeKind) :
    Conforming (typeKindSteps (Node.type id).key kind) := by
  cases kind <;> simp [typeKindSteps, Category.relations, Column.of, arg, Node.category_key]

end

/-- The content of a node is of the schema. -/
theorem conforming_content (ast : Ast) (node : Node) : Conforming (content ast node) := by
  cases node with
  | decl id => cases h : ast.decl? id <;> simp [content, h, conforming_declSteps]
  | stmt id => cases h : ast.stmt? id <;> simp [content, h, conforming_stmtSteps]
  | stmtCondition id =>
    cases h : ast.stmtCondition? id <;> simp [content, h, conforming_stmtConditionSteps]
  | caseLabelItem id =>
    cases h : ast.caseLabelItem? id <;> simp [content, h, conforming_caseLabelItemSteps]
  | expr id =>
    cases h : ast.expr? id <;>
      simp [content, h, exprSteps, conforming_exprKindSteps, Category.relations, Node.category_key]
  | pattern id => cases h : ast.pattern? id <;> simp [content, h, conforming_patternSteps]
  | type id =>
    cases h : ast.type? id <;>
      simp [content, h, typeSteps, conforming_typeKindSteps, Category.relations, Column.of,
        Node.category_key]
  | writtenType written =>
    cases h : ast.typeRepr? written.repr <;>
      simp [content, h, writtenTypeSteps, Category.relations, Column.of, Node.category_key]

/-- A description is of the schema. -/
theorem conforming_describe (ast : Ast) (options : ExtractionOptions) (node : Node) :
    Conforming (describe ast options node) := by
  rw [describe, conforming_append]
  refine ⟨?_, conforming_content ast node⟩
  rcases locationSteps_cases ast options node with h | ⟨span, h⟩ <;> rw [h]
  · exact conforming_nil
  · exact (conforming_about_cons _ _).mpr
      ⟨conforms_of_shared [.int, .int, .int, .int] (by simp [sharedRelations])
        (fits_of [.int _, .int _, .int _, .int _]), conforming_nil⟩

/-- The facts of a run with no steps ahead are of the schema. -/
theorem Traced.conforms {ast : Ast} {options : ExtractionOptions} {asked order : List Node}
    {log : List Step} {run : Run} (h : Traced ast options asked order log run [])
    {fact : Fact Label} (hf : fact ∈ run.facts) : fact.Conforms run.registry.category? := by
  obtain ⟨source, hs, rfl⟩ := h.mem_facts.mp hf
  obtain ⟨node, -, hn⟩ := List.mem_flatMap.mp (h.facts_perm.mem_iff.mp hs)
  apply (conforming_describe ast options node source hn).map
  -- a label has the category of the key it stands for
  intro key hk
  have hl := h.registered.lookup_eq_some (h.mentioned hs hk)
  rw [Registry.category?, (h.registered.wf.inverse _ _).mp hl, Option.map_some, shown]

/-- There is one schema, which lists each relation once and has nodes of any category in few columns
alone. Any requests for nodes of a tree state only facts of that schema, with the category of each
label that of the node it belongs to. -/
theorem Run.answerAll_conforms {ast : Ast} {requests : List Request} (inRange : ast.InRange)
    (held : ∀ node ∈ asked requests, ast.HasNode node) (options : ExtractionOptions) :
    (schema.map Prod.fst).Nodup ∧
      (∀ row ∈ schema, ∀ column ∈ row.2.zipIdx,
        column.1 = .anyNode ↔ (row.1, column.2) ∈ mixedColumns) ∧
      ∃ answers run, ({} : Run).answerAll ast options requests = .ok (answers, run) ∧
        ∀ fact ∈ run.facts, fact.Conforms run.registry.category? := by
  obtain ⟨order, log, run, hm, h⟩ := exists_traced inRange held options
  obtain ⟨answers, ha⟩ := Run.answerAll_of_moves ast options hm
  exact ⟨schema_nodup, schema_mixedColumns, answers, run, ha, fun fact hf => h.conforms hf⟩

/-- A block of a declaration that is not modelled, which lists the block, and a literal. -/
def mixedBlock : Ast where
  decls := #[{ kind := .unknown "actor_declaration" [.stmt ⟨0⟩], span := none }]
  stmts := #[{ kind := .brace [.decl ⟨0⟩, .expr ⟨0⟩], span := some ⟨0, 20, 1, 1, 1, 21⟩ }]
  exprs := #[{ kind := .nilLiteral, type := none, span := some ⟨15, 18, 1, 16, 1, 19⟩ }]

/-- Nodes of several categories may stand in one column of a block. -/
theorem Run.answerAll_conforms_mixedBlock :
    mixedBlock.InRange ∧ (schema.map Prod.fst).Nodup ∧
      (∀ row ∈ schema, ∀ column ∈ row.2.zipIdx,
        column.1 = .anyNode ↔ (row.1, column.2) ∈ mixedColumns) ∧
      ∃ answers run, ({} : Run).answerAll mixedBlock {}
          [.extract (.expr ⟨0⟩), .extractAll [.decl ⟨0⟩, .stmt ⟨0⟩]] = .ok (answers, run) ∧
        ∀ fact ∈ run.facts, fact.Conforms run.registry.category? :=
  ⟨by decide, Run.answerAll_conforms (by decide) (by decide) {}⟩

end Extraction

end SwiftRelations
