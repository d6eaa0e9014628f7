import SwiftRelations.Extraction.Description
import SwiftRelations.Proofs.Ast.References

/-!
# The steps of a description

What a description goes to and what it says are read off its steps. A description goes to exactly
the nodes its node refers to, speaks of its own node alone, and mentions no other node before it
went there.
-/

namespace SwiftRelations.Extraction

/-- The node a step goes to. -/
def Step.target? : Step → Option Node
  | .visit node => some node
  | .refer decl => some (.decl decl)
  | _ => none

/-- The fact a step states. -/
def Step.fact? : Step → Option (Fact NodeKey)
  | .emit fact => some fact
  | _ => none

/-- The node a step says something of. -/
def Step.subject? : Step → Option NodeKey
  | .emit fact => fact.subject?
  | .report key _ _ => some key
  | _ => none

/-- The nodes that must have their labels when a step is taken. -/
def Step.mentions : Step → List NodeKey
  | .emit fact => fact.nodes
  | .report key _ _ => [key]
  | _ => []

/-- The nodes that some steps go to, in order. -/
def targets (steps : List Step) : List Node := steps.filterMap Step.target?

/-- The facts that some steps state, in order. -/
def factsOf (steps : List Step) : List (Fact NodeKey) := steps.filterMap Step.fact?

/-- Every node that is mentioned is known, or is gone to before. -/
def Grounded (known : NodeKey → Prop) : List Step → Prop
  | [] => True
  | step :: rest =>
    (∀ key ∈ step.mentions, known key) ∧
      Grounded (fun key => known key ∨ step.target?.map Node.key = some key) rest

/-- Whatever the steps say they say of the node `key`. -/
def Concerns (key : NodeKey) (steps : List Step) : Prop :=
  ∀ step ∈ steps, step.target? = none → step.subject? = some key

/-! ### Targets -/

section

variable (key : NodeKey) (relation : String)

/-- A visit is to its node. -/
@[simp]
theorem target?_visit (node : Node) : (Step.visit node).target? = some node := rfl

@[simp]
private theorem target?_refer (decl : DeclId) : (Step.refer decl).target? = some (.decl decl) := rfl

@[simp]
private theorem target?_report (kind : String) (span : Option Span) :
    (Step.report key kind span).target? = none := rfl

@[simp]
private theorem target?_about (args : List (Value NodeKey)) :
    (about key relation args).target? = none :=
  rfl

@[simp]
private theorem targets_nil : targets [] = [] := rfl

/-- The targets of steps are that of the first, if it has one, and those of the others. -/
@[simp]
theorem targets_cons (step : Step) (steps : List Step) :
    targets (step :: steps) = step.target?.toList ++ targets steps := by
  cases h : step.target? <;> simp [targets, h]

/-- The targets of two lists of steps are those of both. -/
@[simp]
theorem targets_append (a b : List Step) : targets (a ++ b) = targets a ++ targets b :=
  List.filterMap_append

@[simp]
private theorem targets_child (node : Node) : targets (child key relation node) = [node] := rfl

@[simp]
private theorem targets_child? (node : Option Node) :
    targets (child? key relation node) = node.toList := by
  cases node <;> rfl

@[simp]
private theorem targets_numbered (index : Nat) (node : Node) :
    targets (numbered key relation index node) = [node] := rfl

/-- Numbered groups of steps go to what each of them goes to. -/
theorem mem_targets_flatMap_zipIdx {α : Type} {f : α × Nat → List Step} {g : α → List Node}
    (h : ∀ a i node, node ∈ targets (f (a, i)) ↔ node ∈ g a) (l : List α) (node : Node) :
    node ∈ targets (l.zipIdx.flatMap f) ↔ node ∈ l.flatMap g := by
  have hk : ∀ k, node ∈ targets ((l.zipIdx k).flatMap f) ↔ node ∈ l.flatMap g := by
    induction l with
    | nil => intro k; rfl
    | cons a l ih =>
      intro k
      simp only [List.zipIdx_cons, List.flatMap_cons, targets_append, List.mem_append, h, ih]
  exact hk 0

@[simp]
private theorem mem_targets_children (nodes : List Node) (node : Node) :
    node ∈ targets (children key relation nodes) ↔ node ∈ nodes := by
  rw [children, mem_targets_flatMap_zipIdx (g := fun n => [n])]
  · simp
  · intro n index m
    rw [targets_numbered]

@[simp]
private theorem mem_targets_unspecified (kind : String) (span : Option Span) (nodes : List Node)
    (node : Node) : node ∈ targets (unspecified key kind span nodes) ↔ node ∈ nodes := by
  simp [unspecified]

variable (span : Option Span) (m : Node)

@[simp]
private theorem mem_targets_declSteps (kind : DeclKind) :
    m ∈ targets (declSteps key span kind) ↔ m ∈ kind.nodes := by
  cases kind with
  | param name externalName written =>
    cases externalName <;> simp [declSteps, DeclKind.nodes]
  | patternBinding entries =>
    simp only [declSteps, DeclKind.nodes, targets_cons, target?_about, Option.toList_none,
      List.nil_append]
    apply mem_targets_flatMap_zipIdx
    intro entry index node
    cases h : entry.init <;> simp [bindingEntry, h]
  | enumCase elements =>
    have h : targets (declSteps key span (.enumCase elements)) = [] := by
      apply List.filterMap_eq_nil_iff.mpr
      intro step hs
      simp only [declSteps, List.mem_cons, List.mem_map] at hs
      rcases hs with rfl | ⟨_, -, rfl⟩ <;> rfl
    rw [h, DeclKind.nodes]
  | _ => simp [declSteps, DeclKind.nodes]

@[simp]
private theorem mem_targets_stmtSteps (kind : StmtKind) :
    m ∈ targets (stmtSteps key span kind) ↔ m ∈ kind.nodes := by
  cases kind <;> simp [stmtSteps, StmtKind.nodes, or_comm]

@[simp]
private theorem mem_targets_stmtConditionSteps (elements : List ConditionElement) :
    m ∈ targets (stmtConditionSteps key elements) ↔
      m ∈ elements.flatMap ConditionElement.nodes := by
  simp only [stmtConditionSteps, targets_cons, target?_about, Option.toList_none, List.nil_append]
  apply mem_targets_flatMap_zipIdx
  intro element index node
  -- the value of a binding is visited before its pattern
  cases element <;> simp [conditionElementSteps, ConditionElement.nodes, or_comm]

@[simp]
private theorem mem_targets_exprKindSteps (kind : ExprKind) :
    m ∈ targets (exprKindSteps key span kind) ↔ m ∈ kind.nodes := by
  cases kind with
  | declRef name decl => cases decl <;> simp [exprKindSteps, ExprKind.nodes]
  | call callee arguments =>
    have h := mem_targets_flatMap_zipIdx (f := argumentSteps key)
      (g := fun argument => [Node.expr argument.expr])
      (fun argument index node => by cases h : argument.label <;> simp [argumentSteps, h])
      arguments m
    simp [exprKindSteps, ExprKind.nodes, h, eq_comm]
  | _ => simp [exprKindSteps, ExprKind.nodes, or_comm]

@[simp]
private theorem mem_targets_patternSteps (kind : PatternKind) :
    m ∈ targets (patternSteps key span kind) ↔ m ∈ kind.nodes := by
  cases kind <;> simp [patternSteps, PatternKind.nodes]

@[simp]
private theorem mem_targets_typeKindSteps (kind : TypeKind) :
    m ∈ targets (typeKindSteps key kind) ↔ m ∈ kind.parts.map Node.type := by
  cases kind <;> simp [typeKindSteps, TypeKind.parts, or_comm]

end

/-- The content of a node goes to the nodes it refers to, and to no others. -/
theorem mem_targets_content (ast : Ast) (node m : Node) :
    m ∈ targets (content ast node) ↔ m ∈ ast.references node := by
  cases node with
  | decl id => cases h : ast.decl? id <;> simp [content, Ast.references, h]
  | stmt id => cases h : ast.stmt? id <;> simp [content, Ast.references, h]
  | stmtCondition id =>
    cases h : ast.stmtCondition? id with
    | none => simp [content, Ast.references, h]
    | some condition =>
      simp only [content, Ast.references, h, Option.map_some, Option.getD_some,
        mem_targets_stmtConditionSteps]
  | caseLabelItem id =>
    cases h : ast.caseLabelItem? id <;> simp [content, Ast.references, h, caseLabelItemSteps]
  | expr id => cases h : ast.expr? id <;> simp [content, Ast.references, h, exprSteps]
  | pattern id => cases h : ast.pattern? id <;> simp [content, Ast.references, h]
  | type id => cases h : ast.type? id <;> simp [content, Ast.references, h, typeSteps]
  | writtenType written =>
    cases h : ast.typeRepr? written.repr <;>
      simp [content, Ast.references, h, writtenTypeSteps]

/-- The location of a node is one step, or none. -/
theorem locationSteps_cases (ast : Ast) (options : ExtractionOptions) (node : Node) :
    locationSteps ast options node = [] ∨
      ∃ span, locationSteps ast options node = [location node.key span] := by
  unfold locationSteps
  split
  · split
    · exact .inr ⟨_, rfl⟩
    · exact .inl rfl
  · exact .inl rfl

/-- A description goes to the nodes its node refers to, and to no others. -/
theorem mem_targets_describe (ast : Ast) (options : ExtractionOptions) (node m : Node) :
    m ∈ targets (describe ast options node) ↔ m ∈ ast.references node := by
  have h : targets (locationSteps ast options node) = [] := by
    rcases locationSteps_cases ast options node with h | ⟨span, h⟩ <;> rw [h] <;> rfl
  rw [describe, targets_append, h, List.nil_append, mem_targets_content]

/-! ### Groundedness -/

/-- Knowing more nodes does no harm. -/
theorem Grounded.mono {steps : List Step} {known more : NodeKey → Prop} (h : Grounded known steps)
    (hm : ∀ key, known key → more key) : Grounded more steps := by
  induction steps generalizing known more with
  | nil => trivial
  | cons step steps ih =>
    refine ⟨fun key hk => hm key (h.1 key hk), ih h.2 ?_⟩
    exact fun key hk => hk.imp_left (hm key)

/-- Grounded steps may follow one another. -/
theorem Grounded.append {a b : List Step} {known : NodeKey → Prop} (ha : Grounded known a)
    (hb : Grounded known b) : Grounded known (a ++ b) := by
  induction a generalizing known with
  | nil => exact hb
  | cons step a ih => exact ⟨ha.1, ih ha.2 (hb.mono fun _ => Or.inl)⟩

section

variable {key : NodeKey} {known : NodeKey → Prop}

@[simp]
private theorem grounded_nil : Grounded known [] := trivial

/-- A visit makes its node known to the steps after it. -/
@[simp]
theorem grounded_visit_cons (node : Node) (steps : List Step) :
    Grounded known (.visit node :: steps) ↔
      Grounded (fun other => known other ∨ node.key = other) steps := by
  simp [Grounded, Step.mentions]

@[simp]
private theorem grounded_refer_cons (decl : DeclId) (steps : List Step) :
    Grounded known (.refer decl :: steps) ↔
      Grounded (fun other => known other ∨ (Node.decl decl).key = other) steps := by
  simp [Grounded, Step.mentions]

@[simp]
private theorem grounded_report_cons (kind : String) (span : Option Span) (steps : List Step) :
    Grounded known (.report key kind span :: steps) ↔ known key ∧ Grounded known steps := by
  simp [Grounded, Step.mentions]

@[simp]
private theorem grounded_about_cons (relation : String) (args : List (Value NodeKey))
    (steps : List Step) :
    Grounded known (about key relation args :: steps) ↔
      known key ∧ (∀ other ∈ args.filterMap Value.node?, known other) ∧ Grounded known steps := by
  simp [Grounded, about, Step.mentions, Fact.nodes, Value.node?, and_assoc, Step.target?]

variable (hk : known key) (relation : String)
include hk

@[simp]
private theorem grounded_child (node : Node) : Grounded known (child key relation node) := by
  simp [child, hk, arg, Value.node?]

@[simp]
private theorem grounded_child? (node : Option Node) :
    Grounded known (child? key relation node) := by
  cases node with
  | none => trivial
  | some node => exact grounded_child hk relation node

@[simp]
private theorem grounded_numbered (index : Nat) (node : Node) :
    Grounded known (numbered key relation index node) := by
  simp [numbered, hk, arg, Value.node?]

/-- Groups of steps are grounded if each group is, once the node is known. -/
theorem grounded_flatMap {α : Type} {l : List α} {f : α → List Step}
    (h : ∀ a (known : NodeKey → Prop), known key → Grounded known (f a)) :
    Grounded known (l.flatMap f) := by
  induction l with
  | nil => trivial
  | cons a l ih => exact (h a known hk).append ih

@[simp]
private theorem grounded_children (nodes : List Node) :
    Grounded known (children key relation nodes) :=
  grounded_flatMap hk fun (node, index) _ hk => grounded_numbered hk relation index node

@[simp]
private theorem grounded_unspecified (kind : String) (span : Option Span) (nodes : List Node) :
    Grounded known (unspecified key kind span nodes) := by
  simp [unspecified, hk, Value.node?]

variable (span : Option Span)

private theorem grounded_declSteps (kind : DeclKind) :
    Grounded known (declSteps key span kind) := by
  cases kind with
  | func name params result body =>
    exact ((((grounded_about_cons ..).mpr ⟨hk, by simp [Value.node?], grounded_children hk _ _⟩)
      ).append (grounded_child? hk _ _)).append (grounded_child? hk _ _)
  | param name externalName written =>
    cases externalName <;> simp [declSteps, hk, Value.node?]
  | nominal kind name inherited members =>
    exact ((grounded_about_cons ..).mpr ⟨hk, by simp [Value.node?], grounded_children hk _ _⟩
      ).append (grounded_children hk _ _)
  | patternBinding entries =>
    refine (grounded_about_cons ..).mpr ⟨hk, nofun, grounded_flatMap hk ?_⟩
    rintro ⟨entry, index⟩ known hk
    cases h : entry.init <;> simp [bindingEntry, h, hk, Grounded.append]
  | enumCase elements =>
    refine (grounded_about_cons ..).mpr ⟨hk, nofun, ?_⟩
    rw [List.map_eq_flatMap]
    apply grounded_flatMap hk
    rintro ⟨element, index⟩ known hk
    simp [hk, Value.node?]
  | _ => simp [declSteps, hk, Value.node?]

private theorem grounded_stmtSteps (kind : StmtKind) :
    Grounded known (stmtSteps key span kind) := by
  cases kind <;> simp [stmtSteps, hk, arg, Value.node?, Grounded.append]

private theorem grounded_stmtConditionSteps (elements : List ConditionElement) :
    Grounded known (stmtConditionSteps key elements) := by
  refine (grounded_about_cons ..).mpr ⟨hk, nofun, grounded_flatMap hk ?_⟩
  rintro ⟨element, index⟩ known hk
  cases element with
  | boolean expr => exact grounded_numbered hk _ _ _
  | pattern pattern initializer =>
    simp only [conditionElementSteps, arg, grounded_visit_cons, grounded_about_cons, hk, true_or,
      true_and, grounded_nil, and_true]
    intro other ho
    simp only [Value.node?, List.filterMap_cons, List.filterMap_nil, List.mem_cons,
      List.not_mem_nil, or_false] at ho
    rcases ho with rfl | rfl <;> simp

private theorem grounded_exprKindSteps (kind : ExprKind) :
    Grounded known (exprKindSteps key span kind) := by
  cases kind with
  | declRef name decl => cases decl <;> simp [exprKindSteps, hk, arg, Value.node?]
  | call callee arguments =>
    refine (grounded_child hk _ _).append (grounded_flatMap hk ?_)
    rintro ⟨argument, index⟩ known hk
    cases h : argument.label <;> simp [argumentSteps, h, hk, Value.node?, Grounded.append]
  | binary op lhs rhs =>
    simp only [exprKindSteps, arg, grounded_visit_cons, grounded_about_cons, hk, true_or,
      true_and, grounded_nil, and_true]
    intro other ho
    simp only [Value.node?, List.filterMap_cons, List.filterMap_nil, List.mem_cons,
      List.not_mem_nil, or_false] at ho
    rcases ho with rfl | rfl <;> simp
  | _ => simp [exprKindSteps, hk, arg, Value.node?, Grounded.append]

private theorem grounded_patternSteps (kind : PatternKind) :
    Grounded known (patternSteps key span kind) := by
  cases kind <;> simp [patternSteps, hk, arg, Value.node?, Grounded.append]

private theorem grounded_typeKindSteps (kind : TypeKind) :
    Grounded known (typeKindSteps key kind) := by
  cases kind <;> simp [typeKindSteps, hk, arg, Value.node?, Grounded.append]

end

/-- The content of a node mentions it, and other nodes after going there. -/
theorem grounded_content (ast : Ast) (node : Node) {known : NodeKey → Prop}
    (hk : known node.key) : Grounded known (content ast node) := by
  cases node with
  | decl id => cases h : ast.decl? id <;> simp [content, h, grounded_declSteps hk]
  | stmt id => cases h : ast.stmt? id <;> simp [content, h, grounded_stmtSteps hk]
  | stmtCondition id =>
    cases h : ast.stmtCondition? id <;> simp [content, h, grounded_stmtConditionSteps hk]
  | caseLabelItem id =>
    cases h : ast.caseLabelItem? id <;>
      simp [content, h, caseLabelItemSteps, hk, Grounded.append]
  | expr id =>
    cases h : ast.expr? id <;>
      simp [content, h, exprSteps, hk, Grounded.append, grounded_exprKindSteps]
  | pattern id => cases h : ast.pattern? id <;> simp [content, h, grounded_patternSteps hk]
  | type id =>
    cases h : ast.type? id <;>
      simp [content, h, typeSteps, hk, grounded_typeKindSteps, Value.node?]
  | writtenType written =>
    cases h : ast.typeRepr? written.repr <;>
      simp [content, h, writtenTypeSteps, hk, Value.node?]

/-- A location mentions no other node. -/
theorem grounded_locationSteps (ast : Ast) (options : ExtractionOptions) (node : Node)
    {known : NodeKey → Prop} (hk : known node.key) :
    Grounded known (locationSteps ast options node) := by
  rcases locationSteps_cases ast options node with h | ⟨span, h⟩ <;>
    simp [h, location, hk, Value.node?]

/-- A description mentions its node, and other nodes after going there. -/
theorem grounded_describe (ast : Ast) (options : ExtractionOptions) (node : Node)
    {known : NodeKey → Prop} (hk : known node.key) :
    Grounded known (describe ast options node) :=
  (grounded_locationSteps ast options node hk).append (grounded_content ast node hk)

/-! ### Subjects -/

section

variable (key : NodeKey) (relation : String)

@[simp]
private theorem concerns_nil : Concerns key [] := by simp [Concerns]

@[simp]
private theorem concerns_visit_cons (node : Node) (steps : List Step) :
    Concerns key (.visit node :: steps) ↔ Concerns key steps := by
  simp [Concerns]

@[simp]
private theorem concerns_refer_cons (decl : DeclId) (steps : List Step) :
    Concerns key (.refer decl :: steps) ↔ Concerns key steps := by
  simp [Concerns]

@[simp]
private theorem concerns_report_cons (kind : String) (span : Option Span) (steps : List Step) :
    Concerns key (.report key kind span :: steps) ↔ Concerns key steps := by
  simp [Concerns, Step.subject?]

@[simp]
private theorem concerns_about_cons (args : List (Value NodeKey)) (steps : List Step) :
    Concerns key (about key relation args :: steps) ↔ Concerns key steps := by
  simp [Concerns, about, Step.subject?, Fact.subject?, Value.node?]

@[simp]
private theorem concerns_append (a b : List Step) :
    Concerns key (a ++ b) ↔ Concerns key a ∧ Concerns key b := by
  simp [Concerns, or_imp, forall_and]

@[simp]
private theorem concerns_flatMap {α : Type} (l : List α) (f : α → List Step) :
    Concerns key (l.flatMap f) ↔ ∀ a ∈ l, Concerns key (f a) := by
  induction l with
  | nil => simp
  | cons a l ih => simp [ih]

@[simp]
private theorem concerns_child (node : Node) : Concerns key (child key relation node) := by
  simp [child]

@[simp]
private theorem concerns_child? (node : Option Node) : Concerns key (child? key relation node) := by
  cases node <;> simp [child?]

@[simp]
private theorem concerns_numbered (index : Nat) (node : Node) :
    Concerns key (numbered key relation index node) := by
  simp [numbered]

@[simp]
private theorem concerns_children (nodes : List Node) :
    Concerns key (children key relation nodes) := by
  simp [children]

@[simp]
private theorem concerns_unspecified (kind : String) (span : Option Span) (nodes : List Node) :
    Concerns key (unspecified key kind span nodes) := by
  simp [unspecified]

variable (span : Option Span)

@[simp]
private theorem concerns_declSteps (kind : DeclKind) : Concerns key (declSteps key span kind) := by
  cases kind with
  | param name externalName written => cases externalName <;> simp [declSteps]
  | patternBinding entries =>
    simp only [declSteps, concerns_about_cons, concerns_flatMap]
    rintro ⟨entry, index⟩ -
    cases h : entry.init <;> simp [bindingEntry, h]
  | enumCase elements =>
    simp only [declSteps, concerns_about_cons, List.map_eq_flatMap, concerns_flatMap]
    simp
  | _ => simp [declSteps]

@[simp]
private theorem concerns_stmtSteps (kind : StmtKind) : Concerns key (stmtSteps key span kind) := by
  cases kind <;> simp [stmtSteps]

@[simp]
private theorem concerns_stmtConditionSteps (elements : List ConditionElement) :
    Concerns key (stmtConditionSteps key elements) := by
  simp only [stmtConditionSteps, concerns_about_cons, concerns_flatMap]
  rintro ⟨element, index⟩ -
  cases element <;> simp [conditionElementSteps]

@[simp]
private theorem concerns_exprKindSteps (kind : ExprKind) :
    Concerns key (exprKindSteps key span kind) := by
  cases kind with
  | declRef name decl => cases decl <;> simp [exprKindSteps]
  | call callee arguments =>
    simp only [exprKindSteps, concerns_append, concerns_child, concerns_flatMap, true_and]
    rintro ⟨argument, index⟩ -
    cases h : argument.label <;> simp [argumentSteps, h]
  | _ => simp [exprKindSteps]

@[simp]
private theorem concerns_patternSteps (kind : PatternKind) :
    Concerns key (patternSteps key span kind) := by
  cases kind <;> simp [patternSteps]

@[simp]
private theorem concerns_typeKindSteps (kind : TypeKind) :
    Concerns key (typeKindSteps key kind) := by
  cases kind <;> simp [typeKindSteps]

end

/-- A description speaks of its node alone. -/
theorem concerns_describe (ast : Ast) (options : ExtractionOptions) (node : Node) :
    Concerns node.key (describe ast options node) := by
  rw [describe, concerns_append]
  constructor
  · rcases locationSteps_cases ast options node with h | ⟨span, h⟩ <;> simp [h, location]
  · cases node with
    | decl id => cases h : ast.decl? id <;> simp [content, h]
    | stmt id => cases h : ast.stmt? id <;> simp [content, h]
    | stmtCondition id => cases h : ast.stmtCondition? id <;> simp [content, h]
    | caseLabelItem id => cases h : ast.caseLabelItem? id <;> simp [content, h, caseLabelItemSteps]
    | expr id => cases h : ast.expr? id <;> simp [content, h, exprSteps]
    | pattern id => cases h : ast.pattern? id <;> simp [content, h]
    | type id => cases h : ast.type? id <;> simp [content, h, typeSteps]
    | writtenType written =>
      cases h : ast.typeRepr? written.repr <;> simp [content, h, writtenTypeSteps]

end SwiftRelations.Extraction
