import SwiftRelations.Proofs.Lowering.Follows
import SwiftRelations.Proofs.Lowering.Structure

/-!
# What a lowered file keeps

The expressions of a lowered file are those that are left by something that is lowered for it, and
nothing else in its tree is a syntax error. So a syntax error is reported exactly when it is asked
for, and a literal or a call is kept exactly when it is. Nodes without a rule ask for all their
children, and some rules do not: a syntax error among the members of a class is not looked at, and
neither is the filter of a loop.
-/

namespace SwiftRelations

open Lowering

/-! ### The final pass -/

/-- A reference shows the same of itself when it is resolved. -/
theorem Expr.mark_referTo (expr : Expr) (decl : DeclId) (type : Option TypeId) :
    (expr.referTo decl type).mark = expr.mark := by
  unfold referTo
  split
  case h_1 name hk => simp [mark, hk, ExprKind.unmodelled?]
  case h_2 => rfl

private theorem Ast.marks_resolveForward (ast : Ast) (file : Scope) (id : ExprId) :
    (ast.resolveForward file id).marks = ast.marks := by
  unfold resolveForward
  split
  case h_1 target _ =>
    apply List.ext_getElem?
    intro i
    simp only [marks, List.getElem?_map, Array.getElem?_toList, Array.getElem?_modify]
    split
    · rw [Option.map_map]
      exact Option.map_congr fun expr _ => expr.mark_referTo target _
    · rfl
  case h_2 => rfl

namespace Lowering.State

variable (s : State)

/-- The final pass changes nothing that expressions show of themselves. -/
theorem marks_finish : s.finish.marks = s.ast.marks := by
  unfold finish
  generalize s.ast = ast
  induction s.pending generalizing ast with
  | nil => rfl
  | cons id ids ih => rw [List.foldl_cons, ih, Ast.marks_resolveForward]

private theorem orderly_finish (h : s.ast.Orderly) : s.finish.Orderly := by
  obtain ⟨exprs, -, he⟩ := s.finish_eq
  rw [he]
  exact ⟨h.decls, h.stmts, h.patterns, h.types⟩

end Lowering.State

private theorem Ast.mem_marks {ast : Ast} {m : ExprMark} :
    m ∈ ast.marks ↔ ∃ expr ∈ ast.exprs, expr.mark = m := by
  simp [marks]

/-! ### What is lowered for a file -/

namespace Tree.Visits

variable {root : Tree} {v : Visit} {m : ExprMark}

/-- What is left by something that is lowered is left by the file, if nothing further down is taken
to leave anything. By induction on the height that is looked at. -/
theorem leaves (hv : root.Visits v) {height : Nat} (hm : m ∈ v.marks [] height) :
    root.Leaves m := by
  induction height generalizing v with
  | zero => cases hm
  | succ height ih =>
    obtain ⟨task, ht, hm⟩ := List.mem_flatMap.mp hm
    cases task with
    | mark other =>
      obtain rfl := List.mem_singleton.mp hm
      exact ⟨v, hv, ht⟩
    | visit w => exact ih (hv.task ht) hm

/-- What is left at any height by something that is lowered is left by an item of the file, at the
height that is looked at. By induction on the way from the item. -/
theorem mem_marks (hv : root.Visits v) (hm : ∀ height, m ∈ v.marks [m] height) (height : Nat) :
    ∃ t ∈ root.namedParts, m ∈ (Visit.item t).marks [m] height := by
  induction hv generalizing height with
  | @item t ht => exact ⟨t, ht, hm height⟩
  | @task v w hv hw ih =>
    refine ih (fun height => ?_) height
    cases height with
    | zero => exact List.mem_singleton.mpr rfl
    | succ height => exact List.mem_flatMap.mpr ⟨.visit w, hw, hm height⟩

end Tree.Visits

/-- What a task leaves is left at any height, if it is left by what is further down. -/
theorem Lowering.Visit.mem_marks_of_mem_tasks {v : Visit} {m : ExprMark} (h : .mark m ∈ v.tasks)
    (height : Nat) : m ∈ v.marks [m] height := by
  cases height with
  | zero => exact List.mem_singleton.mpr rfl
  | succ height => exact List.mem_flatMap.mpr ⟨.mark m, h, List.mem_singleton.mpr rfl⟩

/-- The expressions of a lowered file are those that are left by something that is lowered for it,
and nothing else is a syntax error. -/
theorem Tree.lower_leaves {root : Tree} {hasParseErrors : Bool} {file : LoweredFile}
    (h : root.lower hasParseErrors = .ok file) :
    file.ast.Orderly ∧ ∀ m, m ∈ file.ast.marks ↔ root.Leaves m := by
  obtain ⟨topLevel, s, hrun, rfl⟩ := exists_run h
  have hrun (deep : List ExprMark) :=
    sourceFile_follows deep root.height root {} _ _ hrun
  have hmem (deep : List ExprMark) (m : ExprMark) : m ∈ s.finish.marks ↔
      ∃ t ∈ root.namedParts, m ∈ (Visit.item t).marks deep root.height := by
    rw [s.marks_finish, (hrun deep).1, List.flatMap_map]
    simp [Ast.marks, Task.item, Task.marks]
  refine ⟨?_, fun m => ⟨fun hm => ?_, ?_⟩⟩
  · exact s.orderly_finish ((hrun []).2 ⟨by simp, by simp, by simp, by simp⟩)
  · obtain ⟨t, ht, hm⟩ := (hmem [] m).mp hm
    exact (Visits.item ht).leaves hm
  · -- The height does not matter, so what is too far down may be taken to leave just this.
    rintro ⟨v, hv, hm⟩
    exact (hmem [m] m).mpr (hv.mem_marks (Visit.mem_marks_of_mem_tasks hm) root.height)

/-! ### Syntax errors and their reports -/

/-- Whether a tree has a syntax error at a place. -/
def Ast.HasError (ast : Ast) (span : Span) : Prop :=
  ∃ node, ast.unmodelled? node = some "ERROR" ∧ ast.spanOf node = some span

/-- Whether an error is reported at a place. -/
def Output.ReportsError (output : Output) (span : Span) : Prop :=
  ∃ d ∈ output.diagnostics, d.severity = .error ∧ d.span = some span

/-- Nothing but an expression is a syntax error. -/
theorem Ast.Orderly.hasError_iff {ast : Ast} (h : ast.Orderly) {span : Span} :
    ast.HasError span ↔ ⟨some "ERROR", some span⟩ ∈ ast.marks := by
  constructor
  · rintro ⟨node, hu, hs⟩
    obtain ⟨payload, hp, hu⟩ := Option.bind_eq_some_iff.mp hu
    cases node with
    | decl id =>
      obtain ⟨decl, hd, rfl⟩ := Option.map_eq_some_iff.mp hp
      exact absurd hu (h.decls decl (Array.mem_of_getElem? hd))
    | stmt id =>
      obtain ⟨stmt, hd, rfl⟩ := Option.map_eq_some_iff.mp hp
      exact absurd hu (h.stmts stmt (Array.mem_of_getElem? hd))
    | pattern id =>
      obtain ⟨pattern, hd, rfl⟩ := Option.map_eq_some_iff.mp hp
      exact absurd hu (h.patterns pattern (Array.mem_of_getElem? hd))
    | expr id =>
      obtain ⟨expr, he, rfl⟩ := Option.map_eq_some_iff.mp hp
      obtain ⟨_, he', hs⟩ := Option.bind_eq_some_iff.mp hs
      cases he.symm.trans he'
      refine List.mem_map.mpr ⟨expr, Array.mem_toList_iff.mpr (Array.mem_of_getElem? he), ?_⟩
      rw [Expr.mark, hs]
      exact congrArg (ExprMark.mk · _) hu
    | type id => cases hs
    | stmtCondition id | caseLabelItem id | writtenType written =>
      obtain ⟨_, -, rfl⟩ := Option.map_eq_some_iff.mp hp
      cases hu
  · intro hm
    obtain ⟨expr, he, hm⟩ := List.mem_map.mp hm
    obtain ⟨i, hi⟩ := List.mem_iff_getElem?.mp he
    have hexpr : ast.expr? ⟨i⟩ = some expr := by simpa [Ast.expr?] using hi
    obtain ⟨hk, hs⟩ := ExprMark.mk.inj hm
    refine ⟨.expr ⟨i⟩, ?_, ?_⟩
    · simpa [Ast.unmodelled?, Ast.payload?, hexpr, Payload.unmodelled?] using hk
    · simpa [Ast.spanOf, hexpr] using hs

/-- A node that is not modelled is one of a tree. -/
theorem Ast.holds_of_unmodelled? {ast : Ast} {node : Node} {kind : String}
    (h : ast.unmodelled? node = some kind) : ast.Holds node.key := by
  obtain ⟨payload, hp, -⟩ := Option.bind_eq_some_iff.mp h
  cases node <;>
    (obtain ⟨_, he, -⟩ := Option.map_eq_some_iff.mp hp
     exact (Array.getElem?_eq_some_iff.mp he).1)

/-- The reports of the extraction of a file that labels all its nodes. -/
theorem LoweredFile.LabelsAll.exists_reported {file : LoweredFile} (labelsAll : file.LabelsAll)
    (forest : file.IsForest) (options : ExtractionOptions) :
    ∃ run : Extraction.Run, file.extract options =
        .ok { run.output with hasParseErrors := file.hasParseErrors } ∧
      run.Reported file.ast ∧
      ∀ node : Node, file.ast.Holds node.key → node.key.category ≠ .type →
        ∃ label, run.registry.lookup node.key = some label := by
  obtain ⟨labels, run, hrun, hextract, -, hlabels⟩ := labelsAll options
  refine ⟨run, hextract, ?_, fun node hn hc => Option.isSome_iff_exists.mp (hlabels _ hn hc)⟩
  have held : ∀ node ∈ file.topLevel.map Node.decl, file.ast.HasNode node := by
    intro node hn
    obtain ⟨decl, hd, rfl⟩ := List.mem_map.mp hn
    exact ⟨forest.held decl hd, by simp [Node.resolved?]⟩
  obtain ⟨order, log, run', hm, h⟩ := Extraction.exists_traced forest.inRange held options
  cases hrun.symm.trans
    (Extraction.Run.extractAll_of_moves file.ast options Registry.wf_empty hm)
  exact h.reported hm

/-- A report is an error exactly if it is on a syntax error. -/
theorem Diagnostic.severity_on {label : Label} {category : Category} {kind : String}
    {span : Option Span} :
    (Diagnostic.on label category kind span).severity = .error ↔ kind = "ERROR" := by
  simp only [on, classify]
  split_ifs <;> simp_all

/-- The extraction of a file that labels all its nodes reports errors at the places of its syntax
errors, and nowhere else. -/
theorem LoweredFile.LabelsAll.reportsError_iff {file : LoweredFile} (labelsAll : file.LabelsAll)
    (forest : file.IsForest) (options : ExtractionOptions) :
    ∃ output, file.extract options = .ok output ∧
      ∀ span, output.ReportsError span ↔ file.ast.HasError span := by
  obtain ⟨run, hextract, reported, hlabels⟩ := labelsAll.exists_reported forest options
  refine ⟨_, hextract, fun span => ⟨?_, ?_⟩⟩
  · rintro ⟨d, hd, hseverity, hspan⟩
    obtain ⟨node, hl, -⟩ := reported.labelled d hd
    have hc : d ∈ run.diagnostics.toList.filter (·.label == d.label) :=
      List.mem_filter.mpr ⟨hd, beq_self_eq_true _⟩
    rw [reported.complete node d.label hl] at hc
    obtain ⟨kind, hk, hon⟩ := List.mem_map.mp hc
    refine ⟨node, ?_, ?_⟩
    · rw [← hon, Diagnostic.severity_on] at hseverity
      rw [Option.mem_toList.mp hk, hseverity]
    · rw [← hspan, ← hon]
      rfl
  · rintro ⟨node, hu, hspan⟩
    have hc : node.key.category ≠ .type := by
      intro hc
      cases node <;> first | cases hspan | cases hc
    obtain ⟨label, hl⟩ := hlabels node (Ast.holds_of_unmodelled? hu) hc
    have hd : .on label node.category "ERROR" (some span) ∈
        run.diagnostics.toList.filter (·.label == label) := by
      rw [reported.complete node label hl, hu, hspan]
      exact List.mem_singleton.mpr rfl
    exact ⟨_, List.mem_of_mem_filter hd, Diagnostic.severity_on.mpr rfl, rfl⟩

/-- Whether all nodes of a tree are modelled, and there are no annotations. -/
@[mk_iff]
structure Ast.Plain (ast : Ast) : Prop where
  decls : ∀ decl ∈ ast.decls, decl.kind.unmodelled? = none
  stmts : ∀ stmt ∈ ast.stmts, stmt.kind.unmodelled? = none
  exprs : ∀ expr ∈ ast.exprs, expr.kind.unmodelled? = none
  patterns : ∀ pattern ∈ ast.patterns, pattern.kind.unmodelled? = none
  typeReprs : ast.typeReprs = #[]

/-- Whether a syntax tree is plain can be computed. -/
instance (ast : Ast) : Decidable ast.Plain :=
  decidable_of_iff _ ast.plain_iff.symm

/-- Types without annotations are modelled as well. -/
theorem Ast.Plain.unmodelled? {ast : Ast} (h : ast.Plain) (orderly : ast.Orderly) (node : Node) :
    ast.unmodelled? node = none := by
  refine Option.bind_eq_none_iff.mpr fun payload hp => ?_
  cases node <;> obtain ⟨entry, he, rfl⟩ := Option.map_eq_some_iff.mp hp
  case decl => exact h.decls entry (Array.mem_of_getElem? he)
  case stmt => exact h.stmts entry (Array.mem_of_getElem? he)
  case expr => exact h.exprs entry (Array.mem_of_getElem? he)
  case pattern => exact h.patterns entry (Array.mem_of_getElem? he)
  case type => exact orderly.types h.typeReprs entry (Array.mem_of_getElem? he)
  all_goals rfl

/-- A lowered file is a forest and labels all its nodes, where the guards of switch cases fit. -/
theorem Tree.GuardsFit.lowered {root : Tree} (fits : root.GuardsFit) {hasParseErrors : Bool}
    {file : LoweredFile} (h : root.lower hasParseErrors = .ok file) :
    file.IsForest ∧ file.LabelsAll := by
  have hroot : (Terms.fitting root fits).trees root := mem_subtrees_self root
  rcases lower_records hroot id hasParseErrors with he | ⟨topLevel, s, es, hrec, -, effect, hok⟩
  · cases h.symm.trans he
  · cases h.symm.trans hok
    exact LoweredFile.isForest_of_effect hasParseErrors (hrec.linked .empty) effect

/-- A lowered file with no annotations has nothing to report if all its nodes are modelled. -/
theorem Tree.GuardsFit.silent {root : Tree} (fits : root.GuardsFit) {hasParseErrors : Bool}
    {file : LoweredFile} (h : root.lower hasParseErrors = .ok file) (plain : file.ast.Plain)
    (options : ExtractionOptions) :
    ∃ output, file.extract options = .ok output ∧ output.diagnostics = [] ∧
      output.hasParseErrors = hasParseErrors := by
  obtain ⟨forest, labelsAll⟩ := fits.lowered h
  obtain ⟨run, hextract, reported, -⟩ := labelsAll.exists_reported forest options
  obtain ⟨orderly, -⟩ := lower_leaves h
  obtain ⟨topLevel, s, -, rfl⟩ := exists_run h
  exact ⟨_, hextract,
    reported.diagnostics_eq_nil_iff.mpr fun node _ => plain.unmodelled? orderly node, rfl⟩

/-! ### What is asked for -/

namespace Lowering.Visit

/-- The tree that is lowered. -/
def tree : Visit → Tree
  | .decl t | .stmt t | .expr t | .pattern t _ => t

/-- Whether there is a rule for what is lowered. -/
def isModelled : Visit → Bool
  | .decl t => t.kind ∈ ["import_declaration", "function_declaration",
      "protocol_function_declaration", "init_declaration", "deinit_declaration",
      "class_declaration", "protocol_declaration", "property_declaration",
      "protocol_property_declaration", "typealias_declaration", "enum_entry"]
  | .stmt t => t.kind ∈ ["if_statement", "guard_statement", "while_statement",
      "repeat_while_statement", "for_statement", "switch_statement", "do_statement",
      "control_transfer_statement", "statements"]
  | .expr t => t.kind ∈ ["integer_literal", "hex_literal", "oct_literal", "bin_literal",
      "real_literal", "line_string_literal", "multi_line_string_literal", "raw_string_literal",
      "boolean_literal", "nil", "simple_identifier", "self_expression", "super_expression",
      "call_expression", "additive_expression", "multiplicative_expression",
      "comparison_expression", "equality_expression", "conjunction_expression",
      "disjunction_expression", "nil_coalescing_expression", "infix_expression",
      "range_expression", "bitwise_operation", "prefix_expression", "navigation_expression",
      "tuple_expression", "array_literal", "lambda_literal", "assignment", "ternary_expression",
      "try_expression", "await_expression", "directly_assignable_expression"]
  | .pattern _ _ => true

private theorem expr_tasks {t : Tree} (h : (expr t).isModelled = false) :
    (expr t).tasks = Task.unknownExpr t := by
  simp only [tasks, Task.expr]
  split <;> first | rfl | simp_all [isModelled]

/-- Nothing without a rule is lowered without its children. -/
theorem items_subset {v : Visit} (h : v.isModelled = false) : Task.items v.tree ⊆ v.tasks := by
  cases v with
  | decl t =>
    simp only [tasks, tree, Task.decl]
    split <;> simp_all [isModelled]
  | stmt t =>
    simp only [tasks, tree, Task.stmt]
    split <;> simp_all [isModelled]
  | expr t =>
    rw [expr_tasks h]
    exact List.subset_append_left _ _
  | pattern t binding => cases h

end Lowering.Visit

/-- The children of what is not modelled are lowered, but for types and what has no nodes. -/
theorem Tree.Visits.child {root u : Tree} {v : Visit} (hv : root.Visits v)
    (hm : v.isModelled = false) (hu : u ∈ v.tree.namedParts) (hn : isTrivia u = false)
    (ht : isTypeKind u.kind = false) : root.Visits (.item u) := by
  apply hv.task (Visit.items_subset hm _)
  refine List.mem_flatMap.mpr ⟨u, List.mem_filter.mpr ⟨hu, by simp [hn]⟩, ?_⟩
  simp [ht, Task.item]

/-- Whether a node is a literal or a call. -/
def Tree.isLiteralOrCall (t : Tree) : Bool :=
  t.kind ∈ ["integer_literal", "hex_literal", "oct_literal", "bin_literal", "real_literal",
    "boolean_literal", "line_string_literal", "multi_line_string_literal", "raw_string_literal",
    "call_expression"]

/-- A syntax error that is lowered leaves an expression that is one. -/
theorem Tree.Visits.leaves_error {root t : Tree} (hv : root.Visits (.expr t))
    (hk : t.kind = "ERROR") : root.Leaves ⟨some "ERROR", some t.span⟩ := by
  refine ⟨_, hv, ?_⟩
  rw [Visit.expr_tasks (by simp [Visit.isModelled, hk]), Task.unknownExpr, hk]
  exact List.mem_append_right _ (List.mem_singleton.mpr rfl)

/-- A literal or a call that is lowered leaves an expression. -/
theorem Tree.Visits.leaves_span {root t : Tree} (hv : root.Visits (.expr t))
    (ht : t.isLiteralOrCall) : ∃ m, root.Leaves m ∧ m.span = some t.span := by
  suffices h : ∃ m, .mark m ∈ Task.expr t ∧ m.span = some t.span by
    obtain ⟨m, hm, hs⟩ := h
    exact ⟨m, ⟨_, hv, hm⟩, hs⟩
  by_cases hk : t.kind = "call_expression"
  · rw [Task.expr, hk]
    simp only [Task.call]
    split
    · exact ⟨_, List.mem_append_right _ (List.mem_singleton.mpr rfl), rfl⟩
    · refine ⟨⟨none, some t.span⟩, List.mem_cons_of_mem _ (List.mem_append_right _ ?_), rfl⟩
      exact List.mem_singleton.mpr rfl
  · refine ⟨⟨none, some t.span⟩, ?_, rfl⟩
    unfold Task.expr
    split <;> simp_all [isLiteralOrCall, Task.make]

/-! ### What is reported and kept -/

mutual

/-- A tree and the trees below it, but for those inside a tree that is closed. -/
def Tree.outside (closed : Tree → Bool) : Tree → List Tree
  | .node head children =>
    .node head children ::
      if closed (.node head children) then [] else outsideAll closed children

/-- The trees of a list and those below them, but for those inside a tree that is closed. -/
def Tree.outsideAll (closed : Tree → Bool) : List Tree → List Tree
  | [] => []
  | t :: ts => outside closed t ++ outsideAll closed ts

end

namespace Tree

/-- The syntax errors of a tree that are not inside another one, a comment or a type. -/
def syntaxErrors (root : Tree) : List Tree :=
  (root.outside fun t => t.kind == "ERROR" || t.isComment || isTypeKind t.kind).filter
    (·.kind == "ERROR")

/-- The literals and calls of a tree that are not inside a type or what carries no nodes. -/
def code (root : Tree) : List Tree :=
  (root.outside fun t => isTrivia t || isTypeKind t.kind).filter isLiteralOrCall

/-- A lowered file has a syntax error where something that is lowered for it leaves one, which every
node of this kind does that is lowered as an expression. Where the guards of switch cases fit, just
these are reported as errors. -/
theorem lower_syntaxErrors (root : Tree) (hasParseErrors : Bool) :
    root.lower hasParseErrors = .error .equalsBeforeBinding ∨
    ∃ file, root.lower hasParseErrors = .ok file ∧
      (∀ span, file.ast.HasError span ↔ root.Leaves ⟨some "ERROR", some span⟩) ∧
      (∀ t, root.Visits (.expr t) → t.kind = "ERROR" → file.ast.HasError t.span) ∧
      (root.GuardsFit → ∀ options, ∃ output, file.extract options = .ok output ∧
        ∀ span, output.ReportsError span ↔ file.ast.HasError span) := by
  refine (lower_ends root hasParseErrors).imp id ?_
  rintro ⟨file, h⟩
  obtain ⟨orderly, leaves⟩ := lower_leaves h
  have herror (span : Span) : file.ast.HasError span ↔ root.Leaves ⟨some "ERROR", some span⟩ :=
    orderly.hasError_iff.trans (leaves _)
  refine ⟨file, h, herror, fun t hv hk => (herror _).mpr (hv.leaves_error hk), ?_⟩
  intro fits options
  obtain ⟨forest, labelsAll⟩ := fits.lowered h
  exact labelsAll.reportsError_iff forest options

/-- The tree of a class with a keyword for its only member, which is a syntax error. -/
def keywordMember : Tree :=
  (ofRows? (.ofBytes "class C \x7b let \x7d\n".toUTF8) [
    ⟨"source_file", true, 0, 16, none, 1, []⟩,
    ⟨"class_declaration", true, 0, 15, none, 3, []⟩,
    ⟨"class", false, 0, 5, some "declaration_kind", 0, []⟩,
    ⟨"type_identifier", true, 6, 7, some "name", 0, []⟩,
    ⟨"class_body", true, 8, 15, some "body", 3, []⟩,
    ⟨"\x7b", false, 8, 9, none, 0, []⟩,
    ⟨"ERROR", true, 10, 13, none, 1, []⟩,
    ⟨"value_binding_pattern", true, 10, 13, none, 1, []⟩,
    ⟨"let", false, 10, 13, some "mutability", 0, []⟩,
    ⟨"\x7d", false, 14, 15, none, 0, []⟩]).getD default

/-- A syntax error among the members of a class is not lowered, and nothing is reported. -/
theorem lower_syntaxErrors_keywordMember :
    ∃ error ∈ keywordMember.syntaxErrors, ∃ file, keywordMember.lower true = .ok file ∧
      ¬ file.ast.HasError error.span ∧
      ∀ options, ∃ output, file.extract options = .ok output ∧ output.diagnostics = [] := by
  have fits : keywordMember.GuardsFit := by decide +kernel
  obtain ⟨file, hfile, error, herror, plain⟩ :
      ∃ file ∈ (keywordMember.lower true).toOption, ∃ error ∈ keywordMember.syntaxErrors,
        file.ast.Plain := by
    decide +kernel
  have h := lower_of_mem_toOption hfile
  refine ⟨error, herror, file, h, ?_, fun options => ?_⟩
  · rintro ⟨node, hu, -⟩
    cases (plain.unmodelled? (lower_leaves h).1 node).symm.trans hu
  · obtain ⟨output, hextract, hnil, -⟩ := fits.silent h plain options
    exact ⟨output, hextract, hnil⟩

/-- A lowered file has expressions where something that is lowered for it leaves one, which every
literal and call does that is lowered as an expression. Everything is lowered that stands in a node
without a rule, but for types and what carries no nodes; and where the guards of switch cases fit, a
file with expressions that are not modelled is not clean. -/
theorem lower_code (root : Tree) (hasParseErrors : Bool) :
    root.lower hasParseErrors = .error .equalsBeforeBinding ∨
    ∃ file, root.lower hasParseErrors = .ok file ∧
      (∀ span, (∃ expr ∈ file.ast.exprs, expr.span = some span) ↔
        ∃ m, root.Leaves m ∧ m.span = some span) ∧
      (∀ t, root.Visits (.expr t) → t.isLiteralOrCall →
        ∃ expr ∈ file.ast.exprs, expr.span = some t.span) ∧
      (∀ v, root.Visits v → v.isModelled = false → ∀ t ∈ v.tree.namedParts,
        isTrivia t = false → isTypeKind t.kind = false → root.Visits (.item t)) ∧
      (root.GuardsFit → ∀ options, ∃ output, file.extract options = .ok output ∧
        (output.isClean → ∀ m, root.Leaves m → m.unmodelled = none)) := by
  refine (lower_ends root hasParseErrors).imp id ?_
  rintro ⟨file, h⟩
  obtain ⟨-, leaves⟩ := lower_leaves h
  have hspan (span : Span) : (∃ expr ∈ file.ast.exprs, expr.span = some span) ↔
      ∃ m, root.Leaves m ∧ m.span = some span := by
    simp only [← leaves, Ast.mem_marks]
    constructor
    · rintro ⟨expr, he, hs⟩
      exact ⟨expr.mark, ⟨expr, he, rfl⟩, hs⟩
    · rintro ⟨-, ⟨expr, he, rfl⟩, hs⟩
      exact ⟨expr, he, hs⟩
  refine ⟨file, h, hspan, fun t hv ht => (hspan _).mpr (hv.leaves_span ht),
    fun v hv hm t ht hn hk => hv.child hm ht hn hk, fun fits options => ?_⟩
  obtain ⟨forest, labelsAll⟩ := fits.lowered h
  obtain ⟨run, hextract, reported, hlabels⟩ := labelsAll.exists_reported forest options
  refine ⟨_, hextract, fun clean m hm => ?_⟩
  obtain ⟨expr, he, rfl⟩ := Ast.mem_marks.mp ((leaves m).mpr hm)
  obtain ⟨i, hi, rfl⟩ := Array.mem_iff_getElem.mp he
  obtain ⟨label, hl⟩ := hlabels (.expr ⟨i⟩) hi (by simp [Node.key])
  have hu := ((reported.isClean_iff _).mp clean).1 (.expr ⟨i⟩) (by rw [hl]; rfl)
  simpa [Ast.unmodelled?, Ast.payload?, Ast.expr?, hi, Payload.unmodelled?, Expr.mark] using hu

/-- The tree of a loop whose elements are filtered. -/
def filteredLoop : Tree :=
  (ofRows? (.ofBytes "for i in 0...n where i % 2 == 0 \x7b print(i) \x7d\n".toUTF8) [
    ⟨"source_file", true, 0, 45, none, 1, []⟩,
    ⟨"for_statement", true, 0, 44, none, 8, [("bound_identifier", some 4)]⟩,
    ⟨"for", false, 0, 3, none, 0, []⟩,
    ⟨"pattern", true, 4, 5, some "item", 1, []⟩,
    ⟨"simple_identifier", true, 4, 5, some "bound_identifier", 0, []⟩,
    ⟨"in", false, 6, 8, none, 0, []⟩,
    ⟨"range_expression", true, 9, 14, some "collection", 3, []⟩,
    ⟨"integer_literal", true, 9, 10, some "start", 0, []⟩,
    ⟨"...", false, 10, 13, some "op", 0, []⟩,
    ⟨"simple_identifier", true, 13, 14, some "end", 0, []⟩,
    ⟨"where_clause", true, 15, 31, none, 2, []⟩,
    ⟨"where_keyword", true, 15, 20, none, 0, []⟩,
    ⟨"equality_expression", true, 21, 31, none, 3, []⟩,
    ⟨"multiplicative_expression", true, 21, 26, some "lhs", 3, []⟩,
    ⟨"simple_identifier", true, 21, 22, some "lhs", 0, []⟩,
    ⟨"%", false, 23, 24, some "op", 0, []⟩,
    ⟨"integer_literal", true, 25, 26, some "rhs", 0, []⟩,
    ⟨"==", false, 27, 29, some "op", 0, []⟩,
    ⟨"integer_literal", true, 30, 31, some "rhs", 0, []⟩,
    ⟨"\x7b", false, 32, 33, none, 0, []⟩,
    ⟨"statements", true, 34, 42, none, 1, []⟩,
    ⟨"call_expression", true, 34, 42, none, 2, []⟩,
    ⟨"simple_identifier", true, 34, 39, none, 0, []⟩,
    ⟨"call_suffix", true, 39, 42, none, 1, []⟩,
    ⟨"value_arguments", true, 39, 42, none, 3, []⟩,
    ⟨"(", false, 39, 40, none, 0, []⟩,
    ⟨"value_argument", true, 40, 41, none, 1, []⟩,
    ⟨"simple_identifier", true, 40, 41, some "value", 0, []⟩,
    ⟨")", false, 41, 42, none, 0, []⟩,
    ⟨"\x7d", false, 43, 44, none, 0, []⟩]).getD default

/-- The filter of a loop is not lowered, and the file is clean. -/
theorem lower_code_filteredLoop :
    ∃ file, filteredLoop.lower false = .ok file ∧
      (∀ options, ∃ output, file.extract options = .ok output ∧ output.isClean) ∧
      ∃ t ∈ filteredLoop.code, ∀ expr ∈ file.ast.exprs, expr.span ≠ some t.span := by
  have fits : filteredLoop.GuardsFit := by decide +kernel
  obtain ⟨file, hfile, plain, lost⟩ :
      ∃ file ∈ (filteredLoop.lower false).toOption, file.ast.Plain ∧
        ∃ t ∈ filteredLoop.code, ∀ expr ∈ file.ast.exprs, expr.span ≠ some t.span := by
    decide +kernel
  have h := lower_of_mem_toOption hfile
  refine ⟨file, h, fun options => ?_, lost⟩
  obtain ⟨output, hextract, hnil, hparsed⟩ := fits.silent h plain options
  exact ⟨output, hextract, by simp [Output.isClean, hnil, hparsed]⟩

end Tree

end SwiftRelations
