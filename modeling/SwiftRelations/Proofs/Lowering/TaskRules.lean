import SwiftRelations.Proofs.Extraction.Reports
import SwiftRelations.Proofs.Lowering.Rules
import SwiftRelations.Proofs.Lowering.Tasks

/-!
# Rules do their tasks

A rule of the lowering does the tasks that the table lists for it. What that says of a step depends
on the sense in which steps do tasks: which expressions they leave, or where they stop. A sense has
one rule for each operation and for each way to put steps together, and from these there is one
lemma for each rule of the lowering; here those for expressions and patterns.
-/

namespace SwiftRelations

open Lowering Text

namespace Lower

/-- A sense in which a step does tasks, in order. -/
structure Sense where
  Holds : {α : Type} → Lower α → List Task → Prop
  pure {α : Type} (a : α) : Holds (Pure.pure a : Lower α) []
  /-- Steps in a row do the tasks of both, where the second goes by what the first returns. -/
  bind {α β : Type} {x : Lower α} {f : α → Lower β} {p : α → Prop} {tasks tasks' : List Task} :
    x.Returns p → Holds x tasks → (∀ a, p a → Holds (f a) tasks') →
      Holds (x >>= f) (tasks ++ tasks')
  inScope {α : Type} {x : Lower α} {tasks : List Task} : Holds x tasks → Holds x.inScope tasks
  /-- What a step reads does not matter. -/
  get {α : Type} {f : State → Lower α} {tasks : List Task} :
    (∀ s, Holds (f s) tasks) → Holds (MonadState.get >>= f) tasks
  /-- An expression is made. Nothing else leaves one, and nothing else is a syntax error. -/
  addExpr (kind : ExprKind) (type : Option TypeId) (span : Span) :
    Holds (Lower.addExpr kind type span) [.mark ⟨kind.unmodelled?, some span⟩]
  declRef (t : Tree) (name : String) : Holds (Lower.declRef t name) [Task.make t]
  addDecl (kind : DeclKind) (span : Span) :
    kind.unmodelled? ≠ some "ERROR" → Holds (Lower.addDecl kind span) []
  addStmt (kind : StmtKind) (span : Span) :
    kind.unmodelled? ≠ some "ERROR" → Holds (Lower.addStmt kind span) []
  addPattern (kind : PatternKind) (span : Option Span) :
    kind.unmodelled? ≠ some "ERROR" → Holds (Lower.addPattern kind span) []
  setDeclKind (id : DeclId) (kind : DeclKind) :
    kind.unmodelled? = none → Holds (Lower.setDeclKind id kind) []
  addStmtCondition (elements : List ConditionElement) (span : Option Span) :
    Holds (Lower.onAst (·.addStmtCondition elements span)) []
  addCaseLabelItem (pattern : PatternId) (guard : Option ExprId) (span : Option Span) :
    Holds (Lower.onAst (·.addCaseLabelItem pattern guard span)) []
  namedType (name : String) : Holds (Lower.namedType name) []
  writtenType (t : Tree) : Holds (Lower.writtenType t) []
  declare (name : String) (decl : DeclId) : Holds (Lower.declare name decl) []

/-- Whether a step does some tasks. -/
def Does (sense : Sense) (x : Lower α) (tasks : List Task) : Prop := sense.Holds x tasks

namespace Does

variable {α β γ : Type} {sense : Sense} {x : Lower α} {f : α → Lower β} {tasks tasks' : List Task}

/-! ### Putting steps together -/

/-- A result without a step does no tasks. -/
theorem pure (a : α) : (Pure.pure a : Lower α).Does sense [] := sense.pure a

/-- Steps in a row do the tasks of both, where the second goes by what the first returns. -/
theorem bind_of_returns {p : α → Prop} (hp : x.Returns p) (hx : x.Does sense tasks)
    (hf : ∀ a, p a → (f a).Does sense tasks') : (x >>= f).Does sense (tasks ++ tasks') :=
  sense.bind hp hx hf

/-- Two steps do the tasks of the first and those of the second. -/
theorem bind (hx : x.Does sense tasks) (hf : ∀ a, (f a).Does sense tasks') :
    (x >>= f).Does sense (tasks ++ tasks') :=
  hx.bind_of_returns .any fun a _ => hf a

/-- One task, and then the others. -/
theorem cons {task : Task} (hx : x.Does sense [task]) (hf : ∀ a, (f a).Does sense tasks) :
    (x >>= f).Does sense (task :: tasks) :=
  hx.bind hf

/-- A step that does no tasks may come before another. -/
theorem after (hx : x.Does sense []) (hf : ∀ a, (f a).Does sense tasks) :
    (x >>= f).Does sense tasks :=
  hx.bind hf

/-- A step that does no tasks may come after another. -/
theorem before (hx : x.Does sense tasks) (hf : ∀ a, (f a).Does sense []) :
    (x >>= f).Does sense tasks := by
  simpa using hx.bind hf

/-- The tasks may be listed in another way. -/
theorem of_eq (hx : x.Does sense tasks) (he : tasks = tasks') : x.Does sense tasks' :=
  he ▸ hx

/-- The steps for a list do the tasks of each in turn. -/
theorem mapM {ts : List γ} {g : γ → Lower α} {tasksOf : γ → List Task}
    (h : ∀ t ∈ ts, (g t).Does sense (tasksOf t)) :
    (ts.mapM g).Does sense (ts.flatMap tasksOf) := by
  induction ts with
  | nil => exact .pure []
  | cons t ts ih =>
    rw [List.mapM_cons, List.flatMap_cons]
    exact (h t List.mem_cons_self).bind fun _ =>
      (ih fun u hu => h u (List.mem_cons_of_mem t hu)).before fun _ => .pure _

/-- As many trees are lowered. -/
theorem mapM_visit {ts : List γ} {g : γ → Lower α} {visit : γ → Visit}
    (h : ∀ t ∈ ts, (g t).Does sense [.visit (visit t)]) :
    (ts.mapM g).Does sense (ts.map (.visit <| visit ·)) := by
  rw [List.map_eq_flatMap]
  exact mapM h

/-- The step for a value, if there is one, does its tasks. -/
theorem optionMapM {o : Option γ} {g : γ → Lower α} {tasksOf : γ → List Task}
    (h : ∀ t, o = some t → (g t).Does sense (tasksOf t)) :
    (o.mapM g).Does sense (o.toList.flatMap tasksOf) := by
  cases o with
  | none => exact .pure none
  | some t => simpa using (h t rfl).before fun a => .pure (some a)

/-- The steps for a list do no tasks if none does. -/
theorem mapM_quiet {ts : List γ} {g : γ → Lower α} (h : ∀ t ∈ ts, (g t).Does sense []) :
    (ts.mapM g).Does sense [] := by
  simpa only [List.flatMap_eq_nil_iff.mpr fun _ _ => rfl] using mapM h

/-- The step for a value, if there is one, does no tasks if it does not. -/
theorem optionMapM_quiet {o : Option γ} {g : γ → Lower α} (h : ∀ t, (g t).Does sense []) :
    (o.mapM g).Does sense [] := by
  cases o with
  | none => exact .pure none
  | some t => exact (h t).before fun a => .pure (some a)

/-- A step does the same tasks in a scope of its own. -/
theorem inScope (hx : x.Does sense tasks) : x.inScope.Does sense tasks := sense.inScope hx

/-! ### Operations -/

private theorem get {g : State → Lower β} (h : ∀ s, (g s).Does sense tasks) :
    (MonadState.get >>= g).Does sense tasks :=
  sense.get h

/-- Looking at the tree does no tasks. -/
theorem ofAst (g : Ast → α) : (Lower.ofAst g).Does sense [] := get fun _ => .pure _

private theorem addExpr {kind : ExprKind} {type : Option TypeId} {span : Span} :
    (Lower.addExpr kind type span).Does sense [.mark ⟨kind.unmodelled?, some span⟩] :=
  sense.addExpr kind type span

/-- A reference is one task. -/
theorem declRef (t : Tree) (name : String) : (Lower.declRef t name).Does sense [Task.make t] :=
  sense.declRef t name

/-- A declaration that is no syntax error is no task. -/
theorem addDecl_of_ne {kind : DeclKind} {span : Span} (hk : kind.unmodelled? ≠ some "ERROR") :
    (Lower.addDecl kind span).Does sense [] :=
  sense.addDecl kind span hk

/-- A declaration that is modelled is no task. -/
theorem addDecl {kind : DeclKind} {span : Span} (hk : kind.unmodelled? = none) :
    (Lower.addDecl kind span).Does sense [] :=
  addDecl_of_ne (by simp [hk])

/-- A statement that is no syntax error is no task. -/
theorem addStmt_of_ne {kind : StmtKind} {span : Span} (hk : kind.unmodelled? ≠ some "ERROR") :
    (Lower.addStmt kind span).Does sense [] :=
  sense.addStmt kind span hk

/-- A statement that is modelled is no task. -/
theorem addStmt {kind : StmtKind} {span : Span} (hk : kind.unmodelled? = none) :
    (Lower.addStmt kind span).Does sense [] :=
  addStmt_of_ne (by simp [hk])

private theorem addPattern_of_ne {kind : PatternKind} {span : Option Span}
    (hk : kind.unmodelled? ≠ some "ERROR") : (Lower.addPattern kind span).Does sense [] :=
  sense.addPattern kind span hk

/-- A pattern that is modelled is no task. -/
theorem addPattern {kind : PatternKind} {span : Option Span} (hk : kind.unmodelled? = none) :
    (Lower.addPattern kind span).Does sense [] :=
  addPattern_of_ne (by simp [hk])

/-- Another kind for a declaration, if it is modelled, is no task. -/
theorem setDeclKind {id : DeclId} {kind : DeclKind} (hk : kind.unmodelled? = none) :
    (Lower.setDeclKind id kind).Does sense [] :=
  sense.setDeclKind id kind hk

/-- A condition is no task. -/
theorem addStmtCondition {elements : List ConditionElement} {span : Option Span} :
    (Lower.onAst (·.addStmtCondition elements span)).Does sense [] :=
  sense.addStmtCondition elements span

/-- A case label item is no task. -/
theorem addCaseLabelItem {pattern : PatternId} {guard : Option ExprId} {span : Option Span} :
    (Lower.onAst (·.addCaseLabelItem pattern guard span)).Does sense [] :=
  sense.addCaseLabelItem pattern guard span

private theorem namedType (name : String) : (Lower.namedType name).Does sense [] :=
  sense.namedType name

private theorem exprType? (id : ExprId) : (Lower.exprType? id).Does sense [] := ofAst _

/-- Binding a name is no task. -/
theorem declare (name : String) (decl : DeclId) : (Lower.declare name decl).Does sense [] :=
  sense.declare name decl

/-- An annotation is no task. -/
theorem writtenType (t : Tree) : (Lower.writtenType t).Does sense [] := sense.writtenType t

end Does

end Lower

namespace Lowering

open Lower

/-- Whether the lowering of trees does what it is known to do. Declarations and statements are
lowered of trees with kinds of these only. -/
structure Below.Does (sense : Sense) (below : Below) : Prop where
  decl : ∀ t, isDeclKind t.kind → (below.decl t).Does sense [.visit (.decl t)]
  stmt : ∀ t, isStmtKind t.kind → (below.stmt t).Does sense [.visit (.stmt t)]
  expr : ∀ t, (below.expr t).Does sense [.visit (.expr t)]
  pattern : ∀ t binding, (below.pattern t binding).Does sense [.visit (.pattern t binding)]

variable {sense : Sense} {below : Below} {t : Tree}

/-! ### Elements -/

/-- An item does the tasks of its tree. -/
theorem item_does (hb : below.Does sense) (t : Tree) :
    (below.item t).Does sense [Task.item t] := by
  unfold Below.item Task.item Visit.item
  split
  case isTrue hd => exact (hb.decl t hd).before fun id => .pure _
  split
  case isTrue hs => exact (hb.stmt t hs).before fun id => .pure _
  case isFalse => exact (hb.expr t).before fun id => .pure _

/-- Elements do the tasks of their trees. -/
theorem elements_does (hb : below.Does sense) (ts : List Tree) :
    (ts.mapM below.item).Does sense (ts.map Task.item) := by
  rw [List.map_eq_flatMap]
  exact .mapM fun t _ => item_does hb t

/-- Keeping the children of a tree of no known kind does the tasks of its items. -/
theorem items_does (hb : below.Does sense) (t : Tree) :
    (below.items t).Does sense (Task.items t) := by
  refine .mapM fun child _ => ?_
  split
  · exact .before (.writtenType child) fun _ => .pure _
  · exact item_does hb child

/-! ### Expressions -/

/-- A modelled expression is made of a tree last. -/
theorem make_does {kind : ExprKind} {type : Option TypeId} (hk : kind.unmodelled? = none) :
    (Lower.addExpr kind type t.span).Does sense [Task.make t] := by
  rw [Task.make, ← hk]
  exact .addExpr

private theorem unknownExpr_does (hb : below.Does sense) (t : Tree) :
    (unknownExpr below t).Does sense (Task.unknownExpr t) :=
  (items_does hb t).bind fun _ => .addExpr

private theorem literal_does (typeName : String) {kind : ExprKind} (hk : kind.unmodelled? = none) :
    (literal t typeName kind).Does sense [Task.make t] :=
  .after (.namedType typeName) fun _ => make_does hk

/-- The value of an argument is lowered, or else its tree as one that is not modelled. -/
theorem argument_eq (below : Below) (t : Tree) : ∃ label, argument below t = do
    let expr ← match Task.argumentValue? t with
      | some value => below.expr value
      | none => unknownExpr below t
    return { label, expr } := by
  unfold argument
  extract_lets parts
  have hparts : parts = t.operands := rfl
  clear_value parts
  subst hparts
  split
  case h_1 label value h =>
    have hvalue : value = Task.argumentValue? t := by
      rw [Task.argumentValue?, show value = _ from (congrArg Prod.snd h).symm]
      rcases t.operands with _ | ⟨first, _ | ⟨second, rest⟩⟩
      · rfl
      · rfl
      · dsimp only
        split <;> rfl
    subst hvalue
    refine ⟨label, ?_⟩
    cases Task.argumentValue? t <;> rfl

private theorem argument_does (hb : below.Does sense) (t : Tree) :
    (argument below t).Does sense (Task.argument t) := by
  obtain ⟨label, heq⟩ := argument_eq below t
  rw [heq, Task.argument]
  cases Task.argumentValue? t with
  | some value => exact (hb.expr value).before fun _ => .pure _
  | none => exact (unknownExpr_does hb t).before fun _ => .pure _

private theorem suffixArguments_does (hb : below.Does sense) (t : Tree) :
    (suffixArguments below t).Does sense (Task.suffixArguments t) := by
  unfold suffixArguments Task.suffixArguments
  split
  · exact .mapM fun u _ => argument_does hb u
  · exact (hb.expr t).before fun _ => .pure _

private theorem callType_does (callee : ExprId) : (callType callee).Does sense [] := by
  refine .get fun s => ?_
  dsimp only
  split
  · split
    · unfold callTypeOf
      split
      · exact .pure _
      · split
        · exact .pure _
        · exact .before (.namedType _) fun _ => .pure _
      · exact .pure _
    · exact .pure _
  · exact .pure _

private theorem call_does (hb : below.Does sense) (t : Tree) :
    (call below t).Does sense (Task.call t) := by
  unfold call Task.call
  cases t.operands with
  | nil => exact unknownExpr_does hb t
  | cons callee others =>
    refine (hb.expr callee).cons fun _ => ?_
    refine .bind (.mapM fun u _ => suffixArguments_does hb u) fun _ => ?_
    exact .after (callType_does _) fun _ => make_does rfl

private theorem exprs_do (hb : below.Does sense) (ts : List Tree) :
    (ts.mapM below.expr).Does sense (ts.map (.visit <| .expr ·)) :=
  .mapM_visit fun t _ => hb.expr t

private theorem binaryType_does (kind : String) (lhs rhs : ExprId) :
    (binaryType kind lhs rhs).Does sense [] := by
  unfold binaryType
  split
  · exact .before (.namedType _) fun _ => .pure _
  split
  · exact .after (.exprType? lhs) fun _ => .before (.exprType? rhs) fun _ => .pure _
  split
  · exact .exprType? rhs
  · exact .pure _

private theorem binary_does (hb : below.Does sense) (t : Tree) :
    (binary below t).Does sense (Task.binary t) := by
  simp only [binary, Task.binary]
  generalize (t.childByField? "lhs").orElse _ = lhs, (t.childByField? "rhs").orElse _ = rhs
  rcases lhs with _ | lhs <;> rcases rhs with _ | rhs
  case some.some =>
    simp only [Option.map_some, Option.some.injEq]
    split
    · exact unknownExpr_does hb t
    · refine (hb.expr lhs).cons fun _ => (hb.expr rhs).cons fun _ => ?_
      exact .after (binaryType_does _ _ _) fun _ => make_does rfl
  all_goals exact unknownExpr_does hb t

private theorem unaryType_does (op : String) (operand : ExprId) :
    (unaryType op operand).Does sense [] := by
  unfold unaryType
  split
  · exact .before (.namedType _) fun _ => .pure _
  split
  · exact .exprType? operand
  · exact .pure _

private theorem unary_does (hb : below.Does sense) (t : Tree) :
    (unary below t).Does sense (Task.unary t) := by
  simp only [unary, Task.unary]
  generalize (t.childByField? "target").orElse _ = operand
  cases operand with
  | none => exact unknownExpr_does hb t
  | some operand =>
    exact (hb.expr operand).cons fun _ => .after (unaryType_does _ _) fun _ => make_does rfl

private theorem memberRef_does (hb : below.Does sense) (t : Tree) :
    (memberRef below t).Does sense (Task.memberRef t) := by
  simp only [memberRef, Task.memberRef]
  generalize (t.childByField? "target").orElse _ = base,
    (t.childByField? "suffix").orElse _ = member
  cases base with
  | none => exact unknownExpr_does hb t
  | some base =>
    cases member with
    | none => exact unknownExpr_does hb t
    | some _ => exact (hb.expr base).cons fun _ => make_does rfl

private theorem tuple_does (hb : below.Does sense) (t : Tree) :
    (tuple below t).Does sense (Task.tuple t) := by
  have htuple : ∀ values : List Tree,
      (values.mapM below.expr >>= fun elements =>
        Lower.addExpr (.tuple elements) none t.span).Does sense
      (values.map (.visit <| .expr ·) ++ [Task.make t]) :=
    fun values => (exprs_do hb values).bind fun _ => make_does rfl
  unfold tuple Task.tuple
  extract_lets values
  have hvalues : values = Task.valuesOf t "value" := rfl
  clear_value values
  subst hvalues
  generalize Task.valuesOf t "value" = values, t.childByField? "name" = name
  rcases values with _ | ⟨value, _ | ⟨second, rest⟩⟩
  · exact htuple []
  · cases name with
    | none => exact hb.expr value
    | some _ => exact htuple [value]
  · exact htuple (value :: second :: rest)

private theorem arrayLiteral_does (hb : below.Does sense) (t : Tree) :
    (arrayLiteral below t).Does sense (Task.arrayLiteral t) :=
  (exprs_do hb _).bind fun _ => make_does rfl

private theorem closureParam_does (t : Tree) : (closureParam t).Does sense [] :=
  .after (.optionMapM_quiet .writtenType) fun _ => .after (.addDecl rfl)
    fun _ => .after (.declare _ _) fun _ => .pure _

private theorem closure_does (hb : below.Does sense) (t : Tree) :
    (closure below t).Does sense (Task.closure t) := by
  refine .bind (.inScope ?_) fun _ =>
    .after (.addStmt rfl) fun _ => make_does rfl
  exact .after (.mapM_quiet fun u _ => closureParam_does u) fun _ =>
    (elements_does hb _).before fun _ => .pure _

private theorem assignment_does (hb : below.Does sense) (t : Tree) :
    (assignment below t).Does sense (Task.assignment t) := by
  simp only [assignment, Task.assignment]
  generalize (t.childByField? "target").orElse _ = dest,
    (t.childByField? "result").orElse _ = source
  rcases dest with _ | dest <;> rcases source with _ | source
  case some.some =>
    refine (hb.expr source).cons fun _ => (hb.expr dest).cons fun _ => make_does ?_
    split <;> split <;> rfl
  all_goals exact unknownExpr_does hb t

private theorem ternary_does (hb : below.Does sense) (t : Tree) :
    (ternary below t).Does sense (Task.ternary t) := by
  simp only [ternary, Task.ternary]
  generalize (t.childByField? "condition").orElse _ = condition,
    (t.childByField? "if_true").orElse _ = thenExpr,
    (t.childByField? "if_false").orElse _ = elseExpr
  rcases condition with _ | condition <;> rcases thenExpr with _ | thenExpr <;>
    rcases elseExpr with _ | elseExpr
  case some.some.some =>
    refine (hb.expr condition).cons fun _ => (hb.expr thenExpr).cons fun _ =>
      (hb.expr elseExpr).cons fun _ => ?_
    exact .after (.exprType? _) fun _ => .after (.exprType? _) fun _ => make_does rfl
  all_goals exact unknownExpr_does hb t

private theorem lastOperand_does (hb : below.Does sense) (t : Tree) :
    (lastOperand below t).Does sense (Task.lastOperand t) := by
  unfold lastOperand Task.lastOperand
  cases t.operands.getLast? with
  | some operand => exact hb.expr operand
  | none => exact unknownExpr_does hb t

/-- The rule for expressions does the tasks listed for them. -/
theorem exprAt_does (hb : below.Does sense) (t : Tree) :
    (exprAt below t).Does sense (Task.expr t) := by
  simp only [exprAt, Task.expr]
  generalize t.kind = kind
  split
  case h_1 | h_2 | h_3 | h_4 | h_5 | h_6 | h_7 | h_8 | h_9 => exact literal_does _ rfl
  case h_10 => exact make_does rfl
  case h_11 => exact .declRef t _
  case h_12 | h_13 => exact make_does rfl
  case h_14 => exact call_does hb t
  case h_15 | h_16 | h_17 | h_18 | h_19 | h_20 | h_21 | h_22 | h_23 | h_24 =>
    exact binary_does hb t
  case h_25 => exact unary_does hb t
  case h_26 => exact memberRef_does hb t
  case h_27 => exact tuple_does hb t
  case h_28 => exact arrayLiteral_does hb t
  case h_29 => exact closure_does hb t
  case h_30 => exact assignment_does hb t
  case h_31 => exact ternary_does hb t
  case h_32 | h_33 | h_34 => exact lastOperand_does hb t
  case h_35 =>
    -- The kind is none of those above, and none that the table names.
    split <;> first | contradiction | exact unknownExpr_does hb t

/-! ### Patterns -/

/-- A new variable is no task. -/
theorem newVariable_does (t : Tree) (isLet : Bool) (type : Option TypeId) :
    (newVariable t isLet type).Does sense [] :=
  .after (.addDecl rfl) fun _ => .after (.declare _ _) fun _ =>
    .addPattern rfl

private theorem namePattern_does (t : Tree) (binding : Option Bool) :
    (namePattern t binding).Does sense (Task.namePattern t binding) := by
  cases binding with
  | some isLet => exact newVariable_does t isLet none
  | none =>
    exact .before (.declRef t _) fun _ => .addPattern rfl

private theorem patterns_do (hb : below.Does sense) (ts : List Tree) (binding : Option Bool) :
    (ts.mapM (below.pattern · binding)).Does sense (Task.patterns ts binding) :=
  .mapM_visit fun t _ => hb.pattern t binding

private theorem casePattern_does (hb : below.Does sense) (name : String) (payload : List Tree)
    (binding : Option Bool) (span : Option Span) :
    (casePattern below name payload binding span).Does sense
      (Task.patterns payload binding) := by
  refine .before ?_ fun _ => .addPattern rfl
  rcases payload with _ | ⟨single, _ | ⟨second, rest⟩⟩
  · exact .pure _
  · exact (hb.pattern single binding).before fun _ => .pure _
  · exact (patterns_do hb _ binding).before fun _ =>
      .before (.addPattern rfl) fun _ => .pure _

/-- A pattern of several trees does the tasks listed for it. -/
theorem patternRun_does (hb : below.Does sense) (run : PatternRun) (binding : Option Bool) :
    (run.lower below binding).Does sense (Task.patternRun run binding) := by
  induction run generalizing binding with
  | binding isLet sub span ih =>
    exact (ih (some isLet)).before fun _ => .addPattern rfl
  | optionalSome sub span ih =>
    exact (ih binding).before fun _ => .addPattern rfl
  | isType type span =>
    exact .before (.writtenType type) fun _ => .addPattern rfl
  | enumElement name payload span => exact casePattern_does hb name payload binding span
  | single t => exact hb.pattern t binding

private theorem unknownPattern_does (hb : below.Does sense) (t : Tree) :
    (unknownPattern below t).Does sense (Task.items t) :=
  (items_does hb t).before fun _ => .addPattern_of_ne (by simp [PatternKind.unmodelled?])

private theorem otherPattern_does (hb : below.Does sense) (t : Tree) (binding : Option Bool) :
    (otherPattern below t binding).Does sense (Task.otherPattern t binding) := by
  unfold otherPattern Task.otherPattern
  split
  · rcases t.namedParts with _ | ⟨single, _ | ⟨second, rest⟩⟩
    · exact unknownPattern_does hb t
    · exact hb.pattern single binding
    · exact unknownPattern_does hb t
  · exact (exprAt_does hb t).before fun _ => .addPattern rfl

private theorem unboundPattern_does (hb : below.Does sense) (t : Tree) (binding : Option Bool) :
    (unboundPattern below t binding).Does sense (Task.unboundPattern t binding) := by
  have hother := otherPattern_does hb t binding
  simp only [unboundPattern, Task.unboundPattern]
  generalize (if startsWith (trim t.text) "is " then t.namedParts.find? _ else none) = type
  cases type with
  | some type =>
    exact .before (.writtenType type) fun _ => .addPattern rfl
  | none =>
    generalize hcs : (trim t.text).toList = cs
    split
    case h_1 h => cases h
    case h_2 => exact casePattern_does hb _ _ binding _
    case h_3 _ hdot =>
      refine Does.of_eq (?_ : Does sense _ (Task.plainPattern t binding)) ?_
      · simp only [Task.plainPattern, hcs]
        split
        · exact (patterns_do hb _ binding).before fun _ =>
            .addPattern rfl
        rcases t.namedParts with _ | ⟨sub, _ | ⟨second, rest⟩⟩
        · exact hother
        · dsimp only
          split
          · exact (hb.pattern sub binding).before fun _ => .addPattern rfl
          · exact hother
        · exact hother
      · dsimp only
        split
        · exact absurd rfl (hdot _)
        · rfl

/-- The pattern under a binding keyword, if there is one: what its siblings spell, or else a
part. -/
def boundRun? (t : Tree) : Option PatternRun :=
  let pieces := t.parts.filter fun c => c.kind != "value_binding_pattern" && c.kind != "case"
  (if pieces.any (·.kind == ".") then PatternRun.ofSiblings? pieces else none).orElse fun _ =>
    (t.namedParts.find? (·.kind != "value_binding_pattern")).map .single

private theorem boundPattern?_eq (t : Tree) (isLet : Bool) :
    Task.boundPattern? t isLet = (boundRun? t).map (Task.patternRun · (some isLet)) := by
  unfold Task.boundPattern? boundRun?
  dsimp only
  split
  case h_1 run h => rw [h]; rfl
  case h_2 h =>
    rw [h, Option.orElse_none, Option.map_map]
    rfl

private theorem boundPattern_eq (below : Below) (t : Tree) (isLet : Bool) :
    boundPattern below t isLet = (boundRun? t).mapM (·.lower below (some isLet)) := by
  unfold boundPattern patternRun boundRun?
  extract_lets pieces next
  -- What is done if the pieces are no run.
  have hnext : next none = ((t.namedParts.find? (·.kind != "value_binding_pattern")).map
      PatternRun.single).mapM (·.lower below (some isLet)) := by
    simp only [next]
    cases t.namedParts.find? (·.kind != "value_binding_pattern") with
    | none => rfl
    | some sub => simp [PatternRun.lower, Option.mapM_some]
  by_cases hdot : pieces.any (·.kind == ".") = true
  · simp only [hdot, if_true]
    cases PatternRun.ofSiblings? pieces with
    | none => simpa only [pure_bind, Option.orElse_none] using hnext
    | some run => simp [next, Option.mapM_some]
  · simpa only [if_neg hdot, pure_bind, Option.orElse_none] using hnext

private theorem compoundPattern_does (hb : below.Does sense) (t : Tree) (binding : Option Bool) :
    (compoundPattern below t binding).Does sense (Task.compoundPattern t binding) := by
  unfold compoundPattern Task.compoundPattern
  cases bindingKeyword? t with
  | none =>
    rw [Option.bind_none, Option.getD_none]
    exact unboundPattern_does hb t binding
  | some isLet =>
    rw [Option.bind_some, boundPattern?_eq]
    dsimp only
    rw [boundPattern_eq]
    cases boundRun? t with
    | none =>
      rw [Option.mapM_none, pure_bind, Option.map_none, Option.getD_none]
      exact unboundPattern_does hb t binding
    | some run =>
      rw [Option.map_some, Option.getD_some]
      simp only [Option.mapM_some, map_eq_pure_bind, bind_assoc, pure_bind]
      exact (patternRun_does hb run (some isLet)).before fun _ => .addPattern rfl

/-- The rule for patterns does the tasks listed for them. -/
theorem patternAt_does (hb : below.Does sense) (t : Tree) (binding : Option Bool) :
    (patternAt below t binding).Does sense (Task.pattern t binding) := by
  unfold patternAt Task.pattern
  split
  · exact namePattern_does t binding
  split
  · exact .addPattern rfl
  cases t.childByField? "bound_identifier" with
  | some name => exact namePattern_does name _
  | none => exact compoundPattern_does hb t binding

end Lowering

end SwiftRelations
