import SwiftRelations.Data.List
import SwiftRelations.Proofs.Extraction.Payload
import SwiftRelations.Proofs.Facts.Reading

/-!
# What is said can be read back

Reading the facts of a description gives the payload described, with labels for the nodes in it,
for every kind of node of every category.
-/

namespace SwiftRelations.Extraction

/-- What some steps say, with labels for nodes. -/
def said (f : NodeKey → Label) (steps : List Step) : List (Fact Label) :=
  (factsOf steps).map (Fact.map f)

section

variable {f : NodeKey → Label} {key : NodeKey} {relation other : String}

@[simp]
private theorem said_nil : said f [] = [] := rfl

/-- What the steps of two lists say is said by both. -/
@[simp]
theorem said_append (a b : List Step) : said f (a ++ b) = said f a ++ said f b := by
  simp [said]

@[simp]
private theorem said_visit_cons (node : Node) (steps : List Step) :
    said f (.visit node :: steps) = said f steps := rfl

@[simp]
private theorem said_refer_cons (decl : DeclId) (steps : List Step) :
    said f (.refer decl :: steps) = said f steps := rfl

@[simp]
private theorem said_report_cons (kind : String) (span : Option Span) (steps : List Step) :
    said f (.report key kind span :: steps) = said f steps := rfl

@[simp]
private theorem said_about_cons (args : List (Value NodeKey)) (steps : List Step) :
    said f (about key relation args :: steps) =
      { relation, args := .node (f key) :: args.map (Value.map f) } :: said f steps := rfl

@[simp]
private theorem told_nil : told [] relation = [] := rfl

@[simp]
private theorem told_append (a b : List (Fact Label)) :
    told (a ++ b) relation = told a relation ++ told b relation := by
  simp [told]

@[simp]
private theorem told_cons (v : Value Label) (args : List (Value Label))
    (facts : List (Fact Label)) :
    told ({ relation := other, args := v :: args } :: facts) relation =
      if other = relation then args :: told facts relation else told facts relation := by
  by_cases h : other = relation <;> simp [told, h]

@[simp]
private theorem told_child? (node : Option Node) :
    told (said f (child? key other node)) relation =
      if other = relation then (node.map fun n => [.node (f n.key)]).toList else [] := by
  cases node <;> simp [child?, child, arg, Value.map]

/-- Steps taken one group after the other are told so. -/
theorem told_flatMap {α : Type} (l : List α) (g : α → List Step) :
    told (said f (l.flatMap g)) relation = l.flatMap fun a => told (said f (g a)) relation := by
  induction l with
  | nil => rfl
  | cons a l ih => simp [ih]

/-- The rows of children: their numbers and their labels. -/
def rows (f : NodeKey → Label) (nodes : List Node) : List (List (Value Label)) :=
  nodes.zipIdx.map fun p => [.int p.2, .node (f p.1.key)]

@[simp]
private theorem told_children (nodes : List Node) :
    told (said f (children key other nodes)) relation =
      if other = relation then rows f nodes else [] := by
  rw [children, told_flatMap, rows, List.map_eq_flatMap]
  by_cases h : other = relation <;> simp [numbered, arg, Value.map, h]

@[simp]
private theorem map_labelAt_rows (nodes : List Node) :
    (rows f nodes).map (labelAt · 1) = nodes.map fun n => f n.key := by
  rw [rows, List.map_map]
  exact List.map_zipIdx_eq_map _ _ fun _ _ _ => rfl

/-! ### Entries told in two rows -/

section

variable {α β : Type} (l : List α) (k : Nat)

/-- The rows of what some of the entries have, with the numbers of the entries. -/
def sparse (g : α → Option (Value Label)) : List (List (Value Label)) :=
  (l.zipIdx k).flatMap fun p => ((g p.1).map fun v => [.int p.2, v]).toList

/-- An entry that has something finds it by its number. -/
theorem partner_sparse (g : α → Option (Value Label)) {a : α} {i : Nat}
    (h : (a, i) ∈ l.zipIdx k) (args : List (Value Label)) :
    partner (sparse l k g) (.int i :: args) = (g a).map fun v => [.int i, v] := by
  induction l generalizing k with
  | nil => cases h
  | cons b l ih =>
    rw [List.zipIdx_cons, List.mem_cons] at h
    have hc : sparse (b :: l) k g =
        ((g b).map fun v => [.int k, v]).toList ++ sparse l (k + 1) g := by
      simp [sparse, List.zipIdx_cons]
    rw [hc, partner, List.find?_append]
    rcases h with h | h
    · obtain ⟨rfl, rfl⟩ := Prod.mk.inj h
      cases hg : g a with
      | some v => simp
      | none =>
        -- all later entries have greater numbers
        simp only [Option.map_none, Option.toList_none, List.find?_nil, Option.none_or]
        apply List.find?_eq_none.mpr
        intro row hr
        obtain ⟨⟨c, j⟩, hm, hr⟩ := List.mem_flatMap.mp hr
        obtain ⟨v, -, rfl⟩ := Option.map_eq_some_iff.mp (Option.mem_toList.mp hr)
        have hj := (List.mem_zipIdx hm).1
        simp only [List.head?_cons, beq_iff_eq, Option.some.injEq, Value.int.injEq]
        omega
    · have hi := (List.mem_zipIdx h).1
      have hn : ((g b).map fun v => [Value.int k, v]).toList.find?
          (·.head? == (Value.int (ν := Label) i :: args).head?) = none := by
        apply List.find?_eq_none.mpr
        intro row hr
        obtain ⟨v, -, rfl⟩ := Option.map_eq_some_iff.mp (Option.mem_toList.mp hr)
        simp only [List.head?_cons, beq_iff_eq, Option.some.injEq, Value.int.injEq]
        omega
      rw [hn, Option.none_or]
      exact ih (k + 1) h

end

/-! ### What labels stand for -/

/-- What the labels of some nodes stand for is known. -/
def Reads (node : Label → Node) (f : NodeKey → Label) (nodes : List Node) : Prop :=
  ∀ m ∈ nodes, node (f m.key) = m.relabel f

/-- An annotation is read from its label. -/
theorem Reads.written {node : Label → Node} {nodes : List Node} (h : Reads node f nodes)
    {written : WrittenType} (hw : .writtenType written ∈ nodes) :
    writtenOf node (f (Node.writtenType written).key) = written.relabel f := by
  rw [writtenOf, h _ hw]
  rfl

/-- An annotation that may be missing is read from its label. -/
theorem Reads.written? {node : Label → Node} {nodes : List Node} (h : Reads node f nodes)
    (written : Option WrittenType) (hw : ∀ w ∈ written, .writtenType w ∈ nodes) :
    written.map (fun w => writtenOf node (f (Node.writtenType w).key)) =
      written.map (·.relabel f) :=
  Option.map_congr fun w hm => h.written (hw w hm)

variable {node : Label → Node} {span : Option Span}

/-- What is said of a payload begins with its first relation. -/
theorem leading_payload (payload : Payload) :
    leading (said f (payload.steps key span)) = payload.relations.headD "" := by
  rw [List.headD_eq_head?_getD, ← head?_payload key span payload, leading, said, List.head?_map,
    Option.map_map]
  rfl

/-! ### Declarations -/

private theorem read_nominalKind (kind : NominalKind) : NominalKind.read kind.word = kind := by
  cases kind <;> rfl

private theorem told_binding_patterns (entries : List BindingEntry) :
    told (said f (entries.zipIdx.flatMap (bindingEntry key))) "pattern_binding_decl_patterns" =
      entries.zipIdx.map fun p => [.int p.2, .node (f (Node.pattern p.1.pattern).key)] := by
  rw [told_flatMap, List.map_eq_flatMap]
  apply List.flatMap_congr
  rintro ⟨⟨sub, init⟩, index⟩ -
  cases init <;> simp [bindingEntry, numbered, arg, Value.map]

private theorem told_binding_inits (entries : List BindingEntry) :
    told (said f (entries.zipIdx.flatMap (bindingEntry key))) "pattern_binding_decl_inits" =
      sparse entries 0 fun entry => entry.init.map fun init => .node (f (Node.expr init).key) := by
  rw [told_flatMap, sparse]
  apply List.flatMap_congr
  rintro ⟨⟨sub, init⟩, index⟩ -
  cases init <;> simp [bindingEntry, numbered, arg, Value.map]

private theorem told_elements (elements : List String) :
    told (said f (elements.zipIdx.map fun p =>
        about key "enum_case_decl_elements" [.int p.2, .string p.1])) "enum_case_decl_elements" =
      elements.zipIdx.map fun p => [.int p.2, .string p.1] := by
  rw [List.map_eq_flatMap, told_flatMap, List.map_eq_flatMap]
  simp [Value.map]

/-- A declaration is read from what is said of it. -/
theorem read_declSteps (kind : DeclKind) (h : Reads node f kind.nodes) :
    DeclKind.read node (said f (declSteps key span kind)) = kind.relabel f := by
  have hl : leading (said f (declSteps key span kind)) = kind.relations.headD "" :=
    leading_payload (.decl kind)
  rw [DeclKind.read, hl]
  cases kind with
  | importing module =>
    simp [DeclKind.relations, declSteps, only, Value.map, DeclKind.relabel]
  | func name params result body =>
    have hr := h.written? result (by simp +contextual [DeclKind.nodes])
    simp [DeclKind.relations, declSteps, only, labels, label?, Value.map, Function.comp_def,
      DeclKind.relabel, hr]
  | param name externalName written =>
    have hr := h.written? written (by simp +contextual [DeclKind.nodes])
    cases externalName <;>
      simp [DeclKind.relations, declSteps, only, label?, Value.map, Function.comp_def,
        DeclKind.relabel, hr]
  | nominal kind name inherited members =>
    have hr : ∀ w ∈ inherited, writtenOf node (f (Node.writtenType w).key) = w.relabel f :=
      fun w hw => h.written (by simp [DeclKind.nodes, hw])
    simp +contextual [DeclKind.relations, declSteps, only, labels, Value.map, DeclKind.relabel,
      read_nominalKind, hr]
  | var name isLet type =>
    simp [DeclKind.relations, declSteps, only, label?, Value.map, Function.comp_def,
      DeclKind.relabel]
  | patternBinding entries =>
    simp only [DeclKind.relations, List.headD_cons, declSteps, said_about_cons, told_cons,
      String.reduceEq, ite_false, told_binding_patterns, told_binding_inits, List.map_map,
      DeclKind.relabel, DeclKind.patternBinding.injEq]
    apply List.map_zipIdx_eq_map
    intro entry index hm
    rw [Function.comp_apply, partner_sparse _ _ _ hm]
    simp [BindingEntry.relabel, Function.comp_def]
  | enumCase elements =>
    simp only [DeclKind.relations, List.headD_cons, declSteps, said_about_cons, told_cons,
      String.reduceEq, ite_false, told_elements, List.map_map, DeclKind.relabel,
      DeclKind.enumCase.injEq]
    exact (List.map_zipIdx_eq_map _ 0 fun element index _ => rfl).trans (List.map_id elements)
  | typeAlias name written =>
    have hr := h.written? written (by simp +contextual [DeclKind.nodes])
    simp [DeclKind.relations, declSteps, only, label?, Value.map, Function.comp_def,
      DeclKind.relabel, hr]
  | topLevelCode body =>
    simp [DeclKind.relations, declSteps, child, arg, only, Value.map, DeclKind.relabel]
  | unknown kind nodes =>
    have hn : ∀ n ∈ nodes, node (f n.key) = n.relabel f := h
    simpa [DeclKind.relations, declSteps, unspecified, only, labels, Value.map, DeclKind.relabel]
      using hn

/-! ### Statements, conditions and labels -/

/-- A statement is read from what is said of it. -/
theorem read_stmtSteps (kind : StmtKind) (h : Reads node f kind.nodes) :
    StmtKind.read node (said f (stmtSteps key span kind)) = kind.relabel f := by
  have hl : leading (said f (stmtSteps key span kind)) = kind.relations.headD "" :=
    leading_payload (.stmt kind)
  rw [StmtKind.read, hl]
  cases kind with
  | brace elements =>
    have hn : ∀ n ∈ elements, node (f n.key) = n.relabel f := h
    simpa [StmtKind.relations, stmtSteps, labels, StmtKind.relabel] using hn
  | unknown kind nodes =>
    have hn : ∀ n ∈ nodes, node (f n.key) = n.relabel f := h
    simpa [StmtKind.relations, stmtSteps, unspecified, only, labels, Value.map, StmtKind.relabel]
      using hn
  | _ =>
    simp [StmtKind.relations, stmtSteps, child, arg, only, labels, label?, Value.map,
      Function.comp_def, StmtKind.relabel]

/-- The elements of a condition list are read from what is said of it. -/
theorem read_stmtConditionSteps (elements : List ConditionElement) :
    (said f (stmtConditionSteps key elements)).filterMap ConditionElement.read? =
      elements.map (·.relabel f) := by
  have he : ∀ k, (said f ((elements.zipIdx k).flatMap (conditionElementSteps key))).filterMap
      ConditionElement.read? = elements.map (·.relabel f) := by
    induction elements with
    | nil => exact fun _ => rfl
    | cons element elements ih =>
      intro k
      rw [List.zipIdx_cons, List.flatMap_cons, said_append, List.filterMap_append, ih]
      cases element <;> rfl
  exact he 0

/-! ### Expressions -/

private theorem told_arguments (arguments : List Argument) :
    told (said f (arguments.zipIdx.flatMap (argumentSteps key))) "call_expr_arguments" =
      arguments.zipIdx.map fun p => [.int p.2, .node (f (Node.expr p.1.expr).key)] := by
  rw [told_flatMap, List.map_eq_flatMap]
  apply List.flatMap_congr
  rintro ⟨⟨name, expr⟩, index⟩ -
  cases name <;> simp [argumentSteps, numbered, arg, Value.map]

private theorem told_argument_labels (arguments : List Argument) :
    told (said f (arguments.zipIdx.flatMap (argumentSteps key))) "call_expr_argument_labels" =
      sparse arguments 0 fun argument => argument.label.map .string := by
  rw [told_flatMap, sparse]
  apply List.flatMap_congr
  rintro ⟨⟨name, expr⟩, index⟩ -
  cases name <;> simp [argumentSteps, numbered, arg, Value.map]

/-- The kind of an expression is read from what is said of it. -/
theorem read_exprSteps (kind : ExprKind) (type : Option TypeId) (h : Reads node f kind.nodes) :
    ExprKind.read node (said f (Payload.steps key span (.expr kind type))) = kind.relabel f := by
  rw [ExprKind.read, leading_payload]
  cases kind with
  | declRef name decl =>
    cases decl <;>
      simp [Payload.relations, ExprKind.relations, Payload.steps, exprKindSteps, only, label?, arg,
        Value.map, ExprKind.relabel]
  | call callee arguments =>
    simp only [Payload.relations, ExprKind.relations, List.cons_append, List.headD_cons,
      Payload.steps, exprKindSteps, child, List.nil_append, said_visit_cons, said_append,
      said_about_cons, told_cons, told_append, told_child?, String.reduceEq, ite_false,
      told_arguments, told_argument_labels, List.append_nil, List.map_map, ExprKind.relabel,
      ExprKind.call.injEq]
    refine ⟨rfl, ?_⟩
    apply List.map_zipIdx_eq_map
    intro argument index hm
    rw [Function.comp_apply, partner_sparse _ _ _ hm]
    simp [Argument.relabel, Function.comp_def]
  | unknown kind nodes =>
    have hn : ∀ n ∈ nodes, node (f n.key) = n.relabel f := h
    simpa [Payload.relations, ExprKind.relations, Payload.steps, exprKindSteps, unspecified, only,
      labels, Value.map, ExprKind.relabel] using hn
  | _ =>
    simp [Payload.relations, ExprKind.relations, Payload.steps, exprKindSteps, child, arg, only,
      labels, Value.map, ExprKind.relabel]

/-! ### Patterns and types -/

/-- A pattern is read from what is said of it. -/
theorem read_patternSteps (kind : PatternKind) (h : Reads node f kind.nodes) :
    PatternKind.read node (said f (patternSteps key span kind)) = kind.relabel f := by
  have hl : leading (said f (patternSteps key span kind)) = kind.relations.headD "" :=
    leading_payload (.pattern kind)
  rw [PatternKind.read, hl]
  cases kind with
  | typed sub written =>
    have hw : writtenOf node (f (Node.writtenType written).key) = written.relabel f :=
      h.written (by simp [PatternKind.nodes])
    simp [PatternKind.relations, patternSteps, child, arg, only, Value.map, PatternKind.relabel, hw]
  | isType written =>
    have hw : writtenOf node (f (Node.writtenType written).key) = written.relabel f :=
      h.written (by simp [PatternKind.nodes])
    simp [PatternKind.relations, patternSteps, child, arg, only, Value.map, PatternKind.relabel, hw]
  | unknown kind nodes =>
    have hn : ∀ n ∈ nodes, node (f n.key) = n.relabel f := h
    simpa [PatternKind.relations, patternSteps, unspecified, only, labels, Value.map,
      PatternKind.relabel] using hn
  | _ =>
    simp [PatternKind.relations, patternSteps, child, arg, only, labels, label?, Value.map,
      Function.comp_def, PatternKind.relabel]

/-- The structure of a type is read from what is said of it. -/
theorem read_typeSteps (kind : TypeKind) (name : String) :
    TypeKind.read (said f (Payload.steps key span (.type kind name))) = kind.relabel f := by
  cases kind with
  | tuple elements =>
    -- no fact comes before those of the elements, and there may be none of these
    have hr : ∀ facts, facts = said f (Payload.steps key span (.type (.tuple elements) name)) →
        TypeKind.read facts = .tuple ((labels facts "tuple_type_elements").map (⟨·.number⟩)) := by
      rintro _ rfl
      cases elements <;> rfl
    rw [hr _ rfl]
    simp [Payload.steps, typeKindSteps, labels, TypeKind.relabel]
  | _ =>
    simp [TypeKind.read, leading, Payload.steps, typeKindSteps, unspecified, child, arg, only,
      labels, Value.map, TypeKind.relabel]

/-! ### Nodes and payloads -/

/-- Of a relation that the steps do not tell in there are no rows. -/
theorem Tells.told_eq_nil {relations : List String} {steps : List Step} (h : Tells relations steps)
    (hr : relation ∉ relations) : told (said f steps) relation = [] := by
  rw [told, List.map_eq_nil_iff, List.filter_eq_nil_iff]
  intro fact hf he
  obtain ⟨source, hs, rfl⟩ := List.mem_map.mp hf
  exact hr (of_decide_eq_true he ▸ h.among source hs)

/-- The category of a node that is not modelled is told by its word. -/
theorem read_unspecified {facts : List (Fact Label)} {category : Category}
    (hl : leading facts = "unspecified_elements")
    (hw : textAt (only facts "unspecified_elements") 0 = category.word) :
    Category.read facts = category := by
  rw [Category.read, hl, hw]
  cases category <;> rfl

/-- The category of a node is read from what is said of its payload. -/
theorem read_category {payload : Payload} (hc : key.category = payload.category) :
    Category.read (said f (payload.steps key span)) = payload.category := by
  have hl : leading (said f (payload.steps key span)) = payload.relations.headD "" :=
    leading_payload payload
  cases payload with
  | decl kind =>
    cases kind
    case unknown =>
      apply read_unspecified hl
      simp [Payload.steps, declSteps, unspecified, only, Value.map, hc]
    all_goals (rw [Category.read, hl]; rfl)
  | stmt kind =>
    cases kind
    case unknown =>
      apply read_unspecified hl
      simp [Payload.steps, stmtSteps, unspecified, only, Value.map, hc]
    all_goals (rw [Category.read, hl]; rfl)
  | expr kind type =>
    cases kind
    case unknown =>
      apply read_unspecified hl
      simp [Payload.steps, exprKindSteps, unspecified, only, Value.map, hc]
    all_goals (rw [Category.read, hl]; rfl)
  | pattern kind =>
    cases kind
    case unknown =>
      apply read_unspecified hl
      simp [Payload.steps, patternSteps, unspecified, only, Value.map, hc]
    all_goals (rw [Category.read, hl]; rfl)
  | _ =>
    rw [Category.read, hl]
    rfl

variable {ast : Ast} {m : Node} {payload : Payload}

/-- What a label stands for is read from what is said of the node of the label. -/
theorem read_node (h : ast.payload? m = some payload) :
    Node.read (said f (payload.steps m.key span)) (f m.key) = m.relabel f := by
  rw [Node.read, read_category (ast.category_of_payload? h)]
  cases m with
  | writtenType written =>
    obtain ⟨entry, -, rfl⟩ := Option.map_eq_some_iff.mp h
    simp [Payload.category, Payload.steps, label?, Function.comp_def, Node.relabel,
      WrittenType.relabel]
  | _ =>
    obtain ⟨entry, -, rfl⟩ := Option.map_eq_some_iff.mp h
    rfl

/-- What a node holds is read from what is said of it, once it is known what labels stand for. -/
theorem read_payload (h : ast.payload? m = some payload) (hr : Reads node f (ast.references m)) :
    Payload.read node (said f (payload.steps m.key span)) = payload.relabel f := by
  rw [Payload.read, read_category (ast.category_of_payload? h)]
  cases m with
  | decl id =>
    obtain ⟨entry, he, rfl⟩ := Option.map_eq_some_iff.mp h
    simp only [Ast.references, he, Option.map_some, Option.getD_some] at hr
    exact congrArg Payload.decl (read_declSteps entry.kind hr)
  | stmt id =>
    obtain ⟨entry, he, rfl⟩ := Option.map_eq_some_iff.mp h
    simp only [Ast.references, he, Option.map_some, Option.getD_some] at hr
    exact congrArg Payload.stmt (read_stmtSteps entry.kind hr)
  | stmtCondition id =>
    obtain ⟨entry, -, rfl⟩ := Option.map_eq_some_iff.mp h
    exact congrArg Payload.stmtCondition (read_stmtConditionSteps entry.elements)
  | caseLabelItem id =>
    obtain ⟨entry, -, rfl⟩ := Option.map_eq_some_iff.mp h
    simp [Payload.category, Payload.steps, caseLabelItemSteps, child, arg, only, label?, Value.map,
      Function.comp_def, Payload.relabel]
  | expr id =>
    obtain ⟨entry, he, rfl⟩ := Option.map_eq_some_iff.mp h
    simp only [Ast.references, he, Option.map_some, Option.getD_some] at hr
    have hk : ExprKind.read node (said f (Payload.steps (Node.expr id).key span
        (.expr entry.kind entry.type))) = entry.kind.relabel f :=
      read_exprSteps entry.kind entry.type fun n hn => hr n (List.mem_append_left _ hn)
    have ht : told (said f (exprKindSteps (Node.expr id).key span entry.kind)) "expr_types" = [] :=
      (tells_exprKindSteps span entry.kind).told_eq_nil
        (by cases entry.kind <;> simp [ExprKind.relations])
    simp only [Payload.category, hk, Payload.relabel]
    simp [Payload.steps, label?, ht, Function.comp_def]
  | pattern id =>
    obtain ⟨entry, he, rfl⟩ := Option.map_eq_some_iff.mp h
    simp only [Ast.references, he, Option.map_some, Option.getD_some] at hr
    exact congrArg Payload.pattern (read_patternSteps entry.kind hr)
  | type id =>
    obtain ⟨entry, -, rfl⟩ := Option.map_eq_some_iff.mp h
    exact congrArg (Payload.type · entry.name) (read_typeSteps entry.kind entry.name)
  | writtenType written =>
    obtain ⟨entry, -, rfl⟩ := Option.map_eq_some_iff.mp h
    simp [Payload.category, Payload.steps, only, label?, Value.map, Function.comp_def,
      Payload.relabel]

end

end SwiftRelations.Extraction
