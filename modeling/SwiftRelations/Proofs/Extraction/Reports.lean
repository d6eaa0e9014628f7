import SwiftRelations.Proofs.Extraction.Finished
import SwiftRelations.Proofs.Extraction.Requests

/-!
# Reports and their facts

A node that is not modelled is stated to be so and reported in the next step, whatever description
is under way. So the reports of a run are, in order, those of its facts about nodes that are not
modelled. There is one for each such node that has a label, with the place of that node, and none
for any other node; a file is clean when it has no such node and was parsed without errors.
-/

namespace SwiftRelations

/-! ### Nodes that are not modelled -/

/-- What a declaration is called that is not modelled. -/
def DeclKind.unmodelled? : DeclKind → Option String
  | .unknown kind _ => some kind
  | _ => none

/-- What a statement is called that is not modelled. -/
def StmtKind.unmodelled? : StmtKind → Option String
  | .unknown kind _ => some kind
  | _ => none

/-- What an expression is called that is not modelled. -/
def ExprKind.unmodelled? : ExprKind → Option String
  | .unknown kind _ => some kind
  | _ => none

/-- What a pattern is called that is not modelled. -/
def PatternKind.unmodelled? : PatternKind → Option String
  | .unknown kind _ => some kind
  | _ => none

/-- The text of a type that could not be read. -/
def TypeKind.unmodelled? : TypeKind → Option String
  | .unknown text => some text
  | _ => none

/-- What a payload is called that is not modelled. -/
def Payload.unmodelled? : Payload → Option String
  | .decl kind => kind.unmodelled?
  | .stmt kind => kind.unmodelled?
  | .expr kind _ => kind.unmodelled?
  | .pattern kind => kind.unmodelled?
  | .type kind _ => kind.unmodelled?
  | _ => none

/-- What a node of a tree is called that is not modelled. -/
def Ast.unmodelled? (ast : Ast) (node : Node) : Option String :=
  (ast.payload? node).bind Payload.unmodelled?

/-- Whether a node is modelled is known from its key. -/
theorem Ast.unmodelled?_congr (ast : Ast) {m n : Node} (hk : m.key = n.key) :
    ast.unmodelled? m = ast.unmodelled? n := by
  rcases Node.eq_or_writtenType_of_key hk with rfl | ⟨repr, s, t, rfl, rfl⟩
  · rfl
  · -- an annotation is always modelled, whatever it resolved to
    cases h : ast.typeRepr? repr <;>
      simp [Ast.unmodelled?, Ast.payload?, h, Payload.unmodelled?]

/-- A payload that is modelled is described without saying that it is not. -/
theorem Payload.not_mem_relations {payload : Payload} (h : payload.unmodelled? = none) :
    "unspecified_elements" ∉ payload.relations := by
  cases payload with
  | decl kind =>
    cases kind <;> simp_all [unmodelled?, DeclKind.unmodelled?, relations, DeclKind.relations]
  | stmt kind =>
    cases kind <;> simp_all [unmodelled?, StmtKind.unmodelled?, relations, StmtKind.relations]
  | expr kind type =>
    cases kind <;> simp_all [unmodelled?, ExprKind.unmodelled?, relations, ExprKind.relations]
  | pattern kind =>
    cases kind <;>
      simp_all [unmodelled?, PatternKind.unmodelled?, relations, PatternKind.relations]
  | type kind name =>
    cases kind <;> simp_all [unmodelled?, TypeKind.unmodelled?, relations, TypeKind.relations]
  | _ => simp [relations]

/-! ### Reports -/

/-- The report that a node is not modelled. -/
def Diagnostic.on (label : Label) (category : Category) (kind : String) (span : Option Span) :
    Diagnostic where
  label := label
  category := category
  kind := kind
  message := (classify category kind).2
  severity := (classify category kind).1
  span := span

/-- The fact that a report belongs to. -/
def Diagnostic.fact (d : Diagnostic) : Fact Label where
  relation := "unspecified_elements"
  args := [.node d.label, .string d.category.word, .string d.kind, .string d.message]

namespace Extraction

/-- What some steps report, with labels given to nodes. -/
def reported (f : NodeKey → Label) (steps : List Step) : List Diagnostic :=
  steps.filterMap (Step.diagnostic? f)

section

variable (f : NodeKey → Label) (key : NodeKey) (relation : String)

@[simp]
private theorem reported_nil : reported f [] = [] := rfl

@[simp]
private theorem reported_append (a b : List Step) :
    reported f (a ++ b) = reported f a ++ reported f b :=
  List.filterMap_append

@[simp]
private theorem reported_visit_cons (node : Node) (steps : List Step) :
    reported f (.visit node :: steps) = reported f steps := rfl

@[simp]
private theorem reported_refer_cons (decl : DeclId) (steps : List Step) :
    reported f (.refer decl :: steps) = reported f steps := rfl

@[simp]
private theorem reported_report_cons (kind : String) (span : Option Span) (steps : List Step) :
    reported f (.report key kind span :: steps) =
      .on (f key) key.category kind span :: reported f steps := rfl

@[simp]
private theorem reported_about_cons (args : List (Value NodeKey)) (steps : List Step) :
    reported f (about key relation args :: steps) = reported f steps := rfl

@[simp]
private theorem reported_flatMap {α : Type} (l : List α) (g : α → List Step) :
    reported f (l.flatMap g) = l.flatMap fun a => reported f (g a) :=
  List.filterMap_flatMap

@[simp]
private theorem reported_child (node : Node) : reported f (child key relation node) = [] := rfl

@[simp]
private theorem reported_child? (node : Option Node) :
    reported f (child? key relation node) = [] := by
  cases node <;> rfl

@[simp]
private theorem reported_children (nodes : List Node) :
    reported f (children key relation nodes) = [] := by
  simp [children, numbered]

@[simp]
private theorem reported_unspecified (kind : String) (span : Option Span) (nodes : List Node) :
    reported f (unspecified key kind span nodes) = [.on (f key) key.category kind span] := by
  simp [unspecified]

variable (span : Option Span)

@[simp]
private theorem reported_declSteps (kind : DeclKind) :
    reported f (declSteps key span kind) =
      kind.unmodelled?.toList.map (.on (f key) key.category · span) := by
  cases kind with
  | param name externalName written =>
    cases externalName <;> simp [declSteps, DeclKind.unmodelled?]
  | patternBinding entries =>
    simp only [declSteps, reported_about_cons, reported_flatMap, DeclKind.unmodelled?,
      Option.toList_none, List.map_nil, List.flatMap_eq_nil_iff]
    rintro ⟨entry, index⟩ -
    cases h : entry.init <;> simp [bindingEntry, numbered, h]
  | enumCase elements =>
    simp [declSteps, DeclKind.unmodelled?, List.map_eq_flatMap]
  | _ => simp [declSteps, DeclKind.unmodelled?]

@[simp]
private theorem reported_stmtSteps (kind : StmtKind) :
    reported f (stmtSteps key span kind) =
      kind.unmodelled?.toList.map (.on (f key) key.category · span) := by
  cases kind <;> simp [stmtSteps, StmtKind.unmodelled?]

@[simp]
private theorem reported_stmtConditionSteps (elements : List ConditionElement) :
    reported f (stmtConditionSteps key elements) = [] := by
  simp only [stmtConditionSteps, reported_about_cons, reported_flatMap, List.flatMap_eq_nil_iff]
  rintro ⟨element, index⟩ -
  cases element <;> rfl

@[simp]
private theorem reported_exprKindSteps (kind : ExprKind) :
    reported f (exprKindSteps key span kind) =
      kind.unmodelled?.toList.map (.on (f key) key.category · span) := by
  cases kind with
  | declRef name decl => cases decl <;> simp [exprKindSteps, ExprKind.unmodelled?]
  | call callee arguments =>
    simp only [exprKindSteps, reported_append, reported_child, reported_flatMap,
      ExprKind.unmodelled?, Option.toList_none, List.map_nil, List.nil_append,
      List.flatMap_eq_nil_iff]
    rintro ⟨argument, index⟩ -
    cases h : argument.label <;> simp [argumentSteps, numbered, h]
  | _ => simp [exprKindSteps, ExprKind.unmodelled?]

@[simp]
private theorem reported_patternSteps (kind : PatternKind) :
    reported f (patternSteps key span kind) =
      kind.unmodelled?.toList.map (.on (f key) key.category · span) := by
  cases kind <;> simp [patternSteps, PatternKind.unmodelled?]

@[simp]
private theorem reported_typeKindSteps (kind : TypeKind) :
    reported f (typeKindSteps key kind) =
      kind.unmodelled?.toList.map (.on (f key) key.category · none) := by
  cases kind <;> simp [typeKindSteps, TypeKind.unmodelled?]

end

/-- A description reports its node, where it stands, if it is not modelled. -/
theorem reported_describe (f : NodeKey → Label) (ast : Ast) (options : ExtractionOptions)
    (node : Node) :
    reported f (describe ast options node) =
      (ast.unmodelled? node).toList.map (.on (f node.key) node.category · (ast.spanOf node)) := by
  have hl : reported f (locationSteps ast options node) = [] := by
    rcases locationSteps_cases ast options node with h | ⟨span, h⟩ <;> rw [h] <;> rfl
  rw [describe, reported_append, hl, List.nil_append, Node.category]
  cases node with
  | decl id =>
    cases h : ast.decl? id <;>
      simp [content, Ast.unmodelled?, Ast.payload?, Ast.spanOf, h, Payload.unmodelled?]
  | stmt id =>
    cases h : ast.stmt? id <;>
      simp [content, Ast.unmodelled?, Ast.payload?, Ast.spanOf, h, Payload.unmodelled?]
  | stmtCondition id =>
    cases h : ast.stmtCondition? id <;>
      simp [content, Ast.unmodelled?, Ast.payload?, h, Payload.unmodelled?]
  | caseLabelItem id =>
    cases h : ast.caseLabelItem? id <;>
      simp [content, caseLabelItemSteps, Ast.unmodelled?, Ast.payload?, h, Payload.unmodelled?]
  | expr id =>
    cases h : ast.expr? id <;>
      simp [content, exprSteps, Ast.unmodelled?, Ast.payload?, Ast.spanOf, h,
        Payload.unmodelled?]
  | pattern id =>
    cases h : ast.pattern? id <;>
      simp [content, Ast.unmodelled?, Ast.payload?, Ast.spanOf, h, Payload.unmodelled?]
  | type id =>
    cases h : ast.type? id <;>
      simp [content, typeSteps, Ast.unmodelled?, Ast.payload?, Ast.spanOf, h,
        Payload.unmodelled?]
  | writtenType written =>
    cases h : ast.typeRepr? written.repr <;>
      simp [content, writtenTypeSteps, Ast.unmodelled?, Ast.payload?, h, Payload.unmodelled?]

/-! ### Reports in step with facts -/

/-- Whether a fact says that its node is not modelled. -/
def saysUnmodelled {ν : Type} (fact : Fact ν) : Bool := fact.relation == "unspecified_elements"

/-- Steps that report a node right after they state that it is not modelled, and only then. -/
inductive Paired : List Step → Prop where
  | nil : Paired []
  | visit {rest : List Step} (node : Node) (h : Paired rest) : Paired (.visit node :: rest)
  | refer {rest : List Step} (decl : DeclId) (h : Paired rest) : Paired (.refer decl :: rest)
  | emit {rest : List Step} {fact : Fact NodeKey} (hf : saysUnmodelled fact = false)
      (h : Paired rest) : Paired (.emit fact :: rest)
  | pair {rest : List Step} (key : NodeKey) (kind : String) (span : Option Span)
      (h : Paired rest) :
      Paired (about key "unspecified_elements"
          [.string key.category.word, .string kind,
            .string (Diagnostic.classify key.category kind).2] ::
        .report key kind span :: rest)

/-- Paired steps may follow one another. -/
theorem Paired.append {a b : List Step} (ha : Paired a) (hb : Paired b) : Paired (a ++ b) := by
  induction ha with
  | nil => exact hb
  | visit node _ ih => exact .visit node ih
  | refer decl _ ih => exact .refer decl ih
  | emit hf _ ih => exact .emit hf ih
  | pair key kind span _ ih => exact .pair key kind span ih

/-- Steps that report nothing and state of no node that it is not modelled are paired. -/
theorem paired_of_quiet {f : NodeKey → Label} {steps : List Step} (hr : reported f steps = [])
    (hs : ∀ fact ∈ factsOf steps, saysUnmodelled fact = false) : Paired steps := by
  induction steps with
  | nil => exact .nil
  | cons step steps ih =>
    cases step with
    | visit node => exact .visit node (ih hr hs)
    | refer decl => exact .refer decl (ih hr hs)
    | emit fact =>
      have hs : ∀ other ∈ fact :: factsOf steps, saysUnmodelled other = false := hs
      exact .emit (hs fact List.mem_cons_self)
        (ih hr fun other ho => hs other (List.mem_cons_of_mem _ ho))
    | report key kind span => cases hr

/-- What is said of a node that is not modelled is paired. -/
theorem paired_unspecified (key : NodeKey) (kind : String) (span : Option Span)
    (nodes : List Node) : Paired (unspecified key kind span nodes) := by
  refine .pair key kind span (paired_of_quiet (reported_children (fun _ => ⟨0⟩) key _ nodes) ?_)
  intro fact hf
  have hr := (tells_children "unspecified_element_children" nodes (by decide)).among fact hf
  rw [saysUnmodelled, List.mem_singleton.mp hr]
  rfl

/-- What is said of a payload is paired. -/
theorem paired_payload (key : NodeKey) (span : Option Span) (payload : Payload) :
    Paired (payload.steps key span) := by
  cases hu : payload.unmodelled? with
  | none =>
    refine paired_of_quiet (f := fun _ => ⟨0⟩) ?_ ?_
    · cases payload <;> simp_all [Payload.steps, Payload.unmodelled?, caseLabelItemSteps]
    · intro fact hf
      have hr := (tells_payload key span payload).among fact hf
      have hn := Payload.not_mem_relations hu
      exact beq_eq_false_iff_ne.mpr fun he => hn (he ▸ hr)
  | some word =>
    have hq : ∀ type : Option TypeId, Paired (child? key "expr_types" (type.map .type)) := by
      intro type
      cases type with
      | none => exact .nil
      | some type => exact .visit _ (.emit rfl .nil)
    cases payload with
    | decl kind =>
      cases kind <;> cases hu
      exact paired_unspecified key word span _
    | stmt kind =>
      cases kind <;> cases hu
      exact paired_unspecified key word span _
    | expr kind type =>
      cases kind <;> cases hu
      exact (paired_unspecified key word span _).append (hq type)
    | pattern kind =>
      cases kind <;> cases hu
      exact paired_unspecified key word span _
    | type kind name =>
      cases kind <;> cases hu
      exact .emit rfl (paired_unspecified key word none [])
    | _ => cases hu

/-- A description is paired. -/
theorem paired_describe (ast : Ast) (options : ExtractionOptions) (node : Node) :
    Paired (describe ast options node) := by
  have hl : Paired (locationSteps ast options node) := by
    rcases locationSteps_cases ast options node with h | ⟨span, h⟩ <;> rw [h]
    · exact .nil
    · exact .emit rfl .nil
  refine hl.append ?_
  cases hp : ast.payload? node with
  | none =>
    rw [content_of_payload?_eq_none hp]
    exact .nil
  | some payload =>
    rw [content_eq hp]
    exact paired_payload node.key (ast.spanOf node) payload

/-- The facts of a run that state of a node that it is not modelled, in order. -/
def Run.unmodelledFacts (run : Run) : List (Fact Label) := run.facts.toList.filter saysUnmodelled

/-- What a run has reported is what its facts state not to be modelled, but for a node that is to
be reported next. -/
inductive InStep (run : Run) : List Step → Prop where
  | even {steps : List Step}
      (same : run.unmodelledFacts = run.diagnostics.toList.map Diagnostic.fact)
      (paired : Paired steps) : InStep run steps
  | owing {key : NodeKey} {kind : String} {span : Option Span} {rest : List Step}
      (more : run.unmodelledFacts = run.diagnostics.toList.map Diagnostic.fact ++
        [(Diagnostic.on (run.labelOf key) key.category kind span).fact])
      (paired : Paired rest) : InStep run (.report key kind span :: rest)

section

variable {ast : Ast} {options : ExtractionOptions} {asked order : List Node} {log : List Step}
  {run run' : Run} {steps steps' : List Step} {node : Node}

/-- A move keeps the reports in step with the facts. -/
theorem InStep.move {entered : Option Node} (h : InStep run steps)
    (hm : Move ast options run steps entered run' steps') : InStep run' steps' := by
  cases h with
  | owing more paired =>
    cases hm with
    | report key kind span =>
      refine .even ?_ paired
      simp only [Run.report, Array.toList_push, List.map_append]
      exact more
  | even same paired =>
    cases hm with
    | emit fact rest =>
      cases paired with
      | emit hf paired =>
        refine .even ?_ paired
        simp only [Run.unmodelledFacts, Run.emit, Array.toList_push, List.filter_append]
        rw [List.filter_cons_of_neg (by simpa [saysUnmodelled, Fact.map] using hf),
          List.filter_nil, List.append_nil]
        exact same
      | pair key kind span paired =>
        refine .owing ?_ paired
        simp only [Run.unmodelledFacts, Run.emit, Array.toList_push, List.filter_append]
        exact congrArg (· ++ _) same
    | report key kind span => cases paired
    | known rest hl =>
      cases paired with
      | refer _ paired => exact .even same paired
    | @refer decl rest hl =>
      cases paired with
      | refer _ paired => exact .even same (.visit (.decl decl) paired)
    | pass rest hf hp =>
      cases paired with
      | visit _ paired => exact .even same paired
    | @enter node label registry rest hf holds fresh =>
      cases paired with
      | visit _ paired => exact .even same ((paired_describe ast options node).append paired)

/-- A run that visits nodes reports them in step with its facts. -/
theorem Moves.reported_facts {nodes entered : List Node}
    (hm : Moves ast options {} (nodes.map .visit) entered run []) :
    run.unmodelledFacts = run.diagnostics.toList.map Diagnostic.fact := by
  have hp : ∀ nodes : List Node, Paired (nodes.map .visit) := by
    intro nodes
    induction nodes with
    | nil => exact .nil
    | cons node nodes ih => exact .visit node ih
  have h := hm.keeps (P := fun run steps _ => InStep run steps) (fun h hm => h.move hm) []
    (.even rfl (hp nodes))
  cases h with
  | even same => exact same

/-! ### The reports of a finished run -/

/-- Steps that go to nodes report nothing. -/
theorem reported_filter_target? (f : NodeKey → Label) (steps : List Step) :
    reported f (steps.filter (·.target?.isNone)) = reported f steps := by
  simp only [reported, List.filterMap_filter]
  apply List.filterMap_congr
  intro step _
  cases step <;> rfl

/-- The reports on a node described are those of its description. -/
theorem Traced.reports_eq (h : Traced ast options asked order log run []) (hn : node ∈ order) :
    run.diagnostics.toList.filter (·.label == run.labelOf node.key) =
      (ast.unmodelled? node).toList.map
        (.on (run.labelOf node.key) node.category · (ast.spanOf node)) := by
  have hw := h.told.whole node hn
  rw [List.append_nil] at hw
  rw [← reported_describe run.labelOf ast options node, ← reported_filter_target?, ← hw,
    h.logged.diagnostics]
  simp only [reported, List.filter_filterMap, List.filterMap_filter]
  apply List.filterMap_congr
  intro step hs
  cases step with
  | report key kind span =>
    have hk := h.logged.mentioned _ hs key (List.mem_singleton.mpr rfl)
    have hi := h.registered.labelOf_inj hk (List.mem_map_of_mem hn)
    by_cases he : key = node.key
    · simp [Step.diagnostic?, Step.subject?, he]
    · have hl : run.labelOf key ≠ run.labelOf node.key := fun hl => he (hi hl)
      simp [Step.diagnostic?, Step.subject?, he, hl]
  | emit fact => cases (Step.emit fact).subject? == some node.key <;> rfl
  | _ => rfl

/-- Every report is on a node described. -/
theorem Traced.exists_reported (h : Traced ast options asked order log run [])
    {diagnostic : Diagnostic} (hd : diagnostic ∈ run.diagnostics.toList) :
    ∃ node ∈ order, diagnostic.label = run.labelOf node.key := by
  rw [h.logged.diagnostics] at hd
  obtain ⟨step, hs, he⟩ := List.mem_filterMap.mp hd
  cases step <;> cases he
  case report key kind span =>
    have hk := h.logged.mentioned _ hs key (List.mem_singleton.mpr rfl)
    obtain ⟨node, hn, rfl⟩ := List.mem_map.mp hk
    exact ⟨node, hn, rfl⟩

/-- The reports of a run are those of its facts about nodes that are not modelled: one on each such
node that has a label, and none on any other node. -/
structure Run.Reported (ast : Ast) (run : Run) : Prop where
  paired : run.unmodelledFacts = run.diagnostics.toList.map Diagnostic.fact
  complete : ∀ (node : Node) (label : Label), run.registry.lookup node.key = some label →
    run.diagnostics.toList.filter (·.label == label) =
      (ast.unmodelled? node).toList.map (.on label node.category · (ast.spanOf node))
  labelled : ∀ diagnostic ∈ run.diagnostics.toList, ∃ node : Node,
    run.registry.lookup node.key = some diagnostic.label ∧ (ast.unmodelled? node).isSome

/-- A run has reported nothing exactly when the nodes that have labels are all modelled. -/
theorem Run.Reported.diagnostics_eq_nil_iff (h : run.Reported ast) :
    run.diagnostics.toList = [] ↔
      ∀ node : Node, (run.registry.lookup node.key).isSome → ast.unmodelled? node = none := by
  constructor
  · intro he node hl
    obtain ⟨label, hl⟩ := Option.isSome_iff_exists.mp hl
    have hc := h.complete node label hl
    rw [he, List.filter_nil, eq_comm, List.map_eq_nil_iff, Option.toList_eq_nil_iff] at hc
    exact hc
  · intro hm
    apply List.eq_nil_iff_forall_not_mem.mpr
    intro diagnostic hd
    obtain ⟨node, hl, hu⟩ := h.labelled diagnostic hd
    rw [hm node (by rw [hl]; rfl)] at hu
    cases hu

/-- The output of a run is clean exactly when the nodes that have labels are all modelled and the
file was parsed without errors. -/
theorem Run.Reported.isClean_iff (h : run.Reported ast) (hasParseErrors : Bool) :
    ({ run.output with hasParseErrors } : Output).isClean = true ↔
      (∀ node : Node, (run.registry.lookup node.key).isSome → ast.unmodelled? node = none) ∧
        hasParseErrors = false := by
  rw [← h.diagnostics_eq_nil_iff]
  simp [Output.isClean, Run.output]

/-- A run with no steps ahead has reported the nodes described that are not modelled. -/
theorem Traced.reported (h : Traced ast options asked order log run [])
    (hm : Moves ast options {} (asked.map .visit) order run []) : run.Reported ast where
  paired := hm.reported_facts
  complete node label hl := by
    obtain ⟨same, hs, hk⟩ := List.mem_map.mp ((h.registered.labelled node.key).mp (by rw [hl]; rfl))
    have hr := h.reports_eq hs
    rwa [hk, ast.unmodelled?_congr hk, ast.spanOf_congr hk, Node.category, hk, Run.labelOf, hl,
      Option.getD_some] at hr
  labelled diagnostic hd := by
    obtain ⟨node, hn, hl⟩ := h.exists_reported hd
    refine ⟨node, ?_, ?_⟩
    · rw [hl]
      exact h.registered.lookup_eq_some (List.mem_map_of_mem hn)
    · have hr := h.reports_eq hn
      have hm : diagnostic ∈ run.diagnostics.toList.filter (·.label == run.labelOf node.key) :=
        List.mem_filter.mpr ⟨hd, beq_iff_eq.mpr hl⟩
      rw [hr] at hm
      obtain ⟨kind, hk, -⟩ := List.mem_map.mp hm
      rw [Option.mem_toList.mp hk, Option.isSome_some]

/-- Any requests for nodes of a tree are answered, and leave reports in step with the facts about
the nodes that are not modelled. The output is clean exactly when there is no such node among those
that have labels, and the file was parsed without errors. -/
theorem Run.answerAll_reported {requests : List Request} (inRange : ast.InRange)
    (held : ∀ node ∈ Extraction.asked requests, ast.HasNode node) (options : ExtractionOptions) :
    ∃ answers run, ({} : Run).answerAll ast options requests = .ok (answers, run) ∧
      run.Reported ast ∧
      ∀ hasParseErrors : Bool,
        ({ run.output with hasParseErrors } : Output).isClean = true ↔
          (∀ node : Node, (run.registry.lookup node.key).isSome → ast.unmodelled? node = none) ∧
            hasParseErrors = false := by
  obtain ⟨order, log, run, hm, h⟩ := exists_traced inRange held options
  obtain ⟨answers, ha⟩ := Run.answerAll_of_moves ast options hm
  have hr := h.reported hm
  exact ⟨answers, run, ha, hr, hr.isClean_iff⟩

/-- The tree of a dictionary literal with an element that refers back to the literal and a type that
could not be read. -/
def dictionaryLoop : Ast where
  exprs := #[{ kind := .unknown "dictionary_literal" [.expr ⟨1⟩], type := some ⟨0⟩,
               span := some ⟨8, 11, 1, 9, 1, 12⟩ },
    { kind := .tuple [⟨0⟩], type := none, span := none }]
  types := { entries := #[{ kind := .unknown "[Int", name := "[Int" }] }

/-- The nodes may be on a cycle, and asked for again. -/
theorem Run.answerAll_reported_dictionaryLoop :
    dictionaryLoop.InRange ∧
      ∃ answers run, ({} : Run).answerAll dictionaryLoop {}
          [.extract (.expr ⟨1⟩), .lookup (.type ⟨0⟩), .extract (.expr ⟨0⟩)] = .ok (answers, run) ∧
        run.Reported dictionaryLoop ∧
        ∀ hasParseErrors : Bool,
          ({ run.output with hasParseErrors } : Output).isClean = true ↔
            (∀ node : Node, (run.registry.lookup node.key).isSome →
              dictionaryLoop.unmodelled? node = none) ∧ hasParseErrors = false :=
  ⟨by decide, Run.answerAll_reported (by decide) (by decide) {}⟩

end

end Extraction

end SwiftRelations
