import SwiftRelations.Facts.Label
import SwiftRelations.Proofs.Ast.References

/-!
# What nodes hold, up to their places

The payload of a node is its kind with everything in it, and for an expression and an annotation
the type as well; only its place in the source is left out. To relabel a payload is to write the
label of each node it names for the place of that node. Payloads of two trees that are equal once
they are relabelled hold the same things, and name nodes of equal labels at the same positions.
-/

namespace SwiftRelations

/-- What a node holds, its place in the source left out. -/
inductive Payload where
  | decl (kind : DeclKind)
  | stmt (kind : StmtKind)
  | stmtCondition (elements : List ConditionElement)
  | caseLabelItem (pattern : PatternId) (guard : Option ExprId)
  | expr (kind : ExprKind) (type : Option TypeId)
  | pattern (kind : PatternKind)
  /-- The structure of a type, with its canonical name. -/
  | type (kind : TypeKind) (name : String)
  /-- The text of an annotation, with the type it resolved to. -/
  | writtenType (text : String) (type : Option TypeId)
  deriving DecidableEq, Repr

/-- What a node of a tree holds. A place that holds no node has no payload. -/
def Ast.payload? (ast : Ast) : Node → Option Payload
  | .decl id => (ast.decl? id).map fun decl => .decl decl.kind
  | .stmt id => (ast.stmt? id).map fun stmt => .stmt stmt.kind
  | .stmtCondition id => (ast.stmtCondition? id).map fun c => .stmtCondition c.elements
  | .caseLabelItem id =>
    (ast.caseLabelItem? id).map fun item => .caseLabelItem item.pattern item.guard
  | .expr id => (ast.expr? id).map fun expr => .expr expr.kind expr.type
  | .pattern id => (ast.pattern? id).map fun pattern => .pattern pattern.kind
  | .type id => (ast.type? id).map fun entry => .type entry.kind entry.name
  | .writtenType written =>
    (ast.typeRepr? written.repr).map fun repr => .writtenType repr.text written.type

/-- The category of the nodes that hold such a payload. -/
def Payload.category : Payload → Category
  | .decl _ => .decl
  | .stmt _ => .stmt
  | .stmtCondition _ => .stmtCondition
  | .caseLabelItem .. => .caseLabelItem
  | .expr .. => .expr
  | .pattern _ => .pattern
  | .type .. => .type
  | .writtenType .. => .typeRepr

variable {ast : Ast} {node : Node}

/-- A node holds a payload of its category. -/
theorem Ast.category_of_payload? {payload : Payload} (h : ast.payload? node = some payload) :
    node.key.category = payload.category := by
  cases node <;>
    (obtain ⟨entry, -, rfl⟩ := Option.map_eq_some_iff.mp h
     rfl)

/-- Every node of a tree holds something. -/
theorem Ast.HasNode.exists_payload (h : ast.HasNode node) :
    ∃ payload, ast.payload? node = some payload := by
  have hi : node.key.index < ast.count node.key.category := h.1
  cases node <;>
    simp only [Node.key, Ast.count, TypeTable.size] at hi <;>
    simp [Ast.payload?, Ast.decl?, Ast.stmt?, Ast.stmtCondition?, Ast.caseLabelItem?, Ast.expr?,
      Ast.pattern?, Ast.type?, Ast.typeRepr?, TypeTable.get?, hi]

/-! ### Labels for places -/

section

variable (f : NodeKey → Label)

/-- The place of a declaration, its label written for it. -/
def DeclId.relabel (id : DeclId) : DeclId := ⟨(f (Node.decl id).key).number⟩

/-- The place of a statement, its label written for it. -/
def StmtId.relabel (id : StmtId) : StmtId := ⟨(f (Node.stmt id).key).number⟩

/-- The place of a condition list, its label written for it. -/
def StmtConditionId.relabel (id : StmtConditionId) : StmtConditionId :=
  ⟨(f (Node.stmtCondition id).key).number⟩

/-- The place of a case label item, its label written for it. -/
def CaseLabelItemId.relabel (id : CaseLabelItemId) : CaseLabelItemId :=
  ⟨(f (Node.caseLabelItem id).key).number⟩

/-- The place of an expression, its label written for it. -/
def ExprId.relabel (id : ExprId) : ExprId := ⟨(f (Node.expr id).key).number⟩

/-- The place of a pattern, its label written for it. -/
def PatternId.relabel (id : PatternId) : PatternId := ⟨(f (Node.pattern id).key).number⟩

/-- The place of a type, its label written for it. -/
def TypeId.relabel (id : TypeId) : TypeId := ⟨(f (Node.type id).key).number⟩

/-- An annotation, with labels for its text and its type. -/
def WrittenType.relabel (written : WrittenType) : WrittenType where
  repr := ⟨(f (Node.writtenType written).key).number⟩
  type := written.type.map (·.relabel f)

/-- A node, with labels for places. -/
def Node.relabel : Node → Node
  | .decl id => .decl (id.relabel f)
  | .stmt id => .stmt (id.relabel f)
  | .stmtCondition id => .stmtCondition (id.relabel f)
  | .caseLabelItem id => .caseLabelItem (id.relabel f)
  | .expr id => .expr (id.relabel f)
  | .pattern id => .pattern (id.relabel f)
  | .type id => .type (id.relabel f)
  | .writtenType written => .writtenType (written.relabel f)

@[simp]
private theorem mk_decl_label (id : DeclId) :
    (⟨(f (Node.decl id).key).number⟩ : DeclId) = id.relabel f :=
  rfl

@[simp]
private theorem mk_stmt_label (id : StmtId) :
    (⟨(f (Node.stmt id).key).number⟩ : StmtId) = id.relabel f :=
  rfl

@[simp]
private theorem mk_stmtCondition_label (id : StmtConditionId) :
    (⟨(f (Node.stmtCondition id).key).number⟩ : StmtConditionId) = id.relabel f := rfl

@[simp]
private theorem mk_caseLabelItem_label (id : CaseLabelItemId) :
    (⟨(f (Node.caseLabelItem id).key).number⟩ : CaseLabelItemId) = id.relabel f := rfl

@[simp]
private theorem mk_expr_label (id : ExprId) :
    (⟨(f (Node.expr id).key).number⟩ : ExprId) = id.relabel f :=
  rfl

@[simp]
private theorem mk_pattern_label (id : PatternId) :
    (⟨(f (Node.pattern id).key).number⟩ : PatternId) = id.relabel f := rfl

@[simp]
private theorem mk_type_label (id : TypeId) :
    (⟨(f (Node.type id).key).number⟩ : TypeId) = id.relabel f :=
  rfl

/-- An entry of a pattern binding, with labels for places. -/
def BindingEntry.relabel (entry : BindingEntry) : BindingEntry where
  pattern := entry.pattern.relabel f
  init := entry.init.map (·.relabel f)

/-- The kind of a declaration, with labels for places. -/
def DeclKind.relabel : DeclKind → DeclKind
  | .importing module => .importing module
  | .func name params result body =>
    .func name (params.map (·.relabel f)) (result.map (·.relabel f)) (body.map (·.relabel f))
  | .param name externalName written => .param name externalName (written.map (·.relabel f))
  | .nominal kind name inherited members =>
    .nominal kind name (inherited.map (·.relabel f)) (members.map (·.relabel f))
  | .var name isLet type => .var name isLet (type.map (·.relabel f))
  | .patternBinding entries => .patternBinding (entries.map (·.relabel f))
  | .enumCase elements => .enumCase elements
  | .typeAlias name written => .typeAlias name (written.map (·.relabel f))
  | .topLevelCode body => .topLevelCode (body.relabel f)
  | .unknown kind children => .unknown kind (children.map (·.relabel f))

/-- The kind of a statement, with labels for places. -/
def StmtKind.relabel : StmtKind → StmtKind
  | .brace elements => .brace (elements.map (·.relabel f))
  | .returning result => .returning (result.map (·.relabel f))
  | .ifElse condition thenBranch elseBranch =>
    .ifElse (condition.relabel f) (thenBranch.relabel f) (elseBranch.map (·.relabel f))
  | .guard condition body => .guard (condition.relabel f) (body.relabel f)
  | .whileLoop condition body => .whileLoop (condition.relabel f) (body.relabel f)
  | .repeatWhile body condition => .repeatWhile (body.relabel f) (condition.relabel f)
  | .forEach pattern sequence body =>
    .forEach (pattern.relabel f) (sequence.relabel f) (body.relabel f)
  | .switch subject cases => .switch (subject.relabel f) (cases.map (·.relabel f))
  | .case labels body => .case (labels.map (·.relabel f)) (body.relabel f)
  | .breaking => .breaking
  | .continuing => .continuing
  | .throwing error => .throwing (error.relabel f)
  | .deferring body => .deferring (body.relabel f)
  | .doCatch body catches => .doCatch (body.relabel f) (catches.map (·.relabel f))
  | .unknown kind children => .unknown kind (children.map (·.relabel f))

/-- An element of a condition list, with labels for places. -/
def ConditionElement.relabel : ConditionElement → ConditionElement
  | .boolean expr => .boolean (expr.relabel f)
  | .pattern sub initializer => .pattern (sub.relabel f) (initializer.relabel f)

/-- An argument of a call, with labels for places. -/
def Argument.relabel (argument : Argument) : Argument where
  label := argument.label
  expr := argument.expr.relabel f

/-- The kind of an expression, with labels for places. -/
def ExprKind.relabel : ExprKind → ExprKind
  | .integerLiteral text => .integerLiteral text
  | .floatLiteral text => .floatLiteral text
  | .stringLiteral text => .stringLiteral text
  | .booleanLiteral value => .booleanLiteral value
  | .nilLiteral => .nilLiteral
  | .declRef name decl => .declRef name (decl.map (·.relabel f))
  | .call callee arguments => .call (callee.relabel f) (arguments.map (·.relabel f))
  | .binary op lhs rhs => .binary op (lhs.relabel f) (rhs.relabel f)
  | .unary op operand => .unary op (operand.relabel f)
  | .memberRef base name => .memberRef (base.relabel f) name
  | .tuple elements => .tuple (elements.map (·.relabel f))
  | .array elements => .array (elements.map (·.relabel f))
  | .closure params body => .closure (params.map (·.relabel f)) (body.relabel f)
  | .assign dest source => .assign (dest.relabel f) (source.relabel f)
  | .ternary condition thenExpr elseExpr =>
    .ternary (condition.relabel f) (thenExpr.relabel f) (elseExpr.relabel f)
  | .unknown kind children => .unknown kind (children.map (·.relabel f))

/-- The kind of a pattern, with labels for places. -/
def PatternKind.relabel : PatternKind → PatternKind
  | .named name var => .named name (var.map (·.relabel f))
  | .any => .any
  | .typed sub written => .typed (sub.relabel f) (written.relabel f)
  | .tuple elements => .tuple (elements.map (·.relabel f))
  | .expr value => .expr (value.relabel f)
  | .binding isLet sub => .binding isLet (sub.relabel f)
  | .enumElement name sub => .enumElement name (sub.map (·.relabel f))
  | .isType written => .isType (written.relabel f)
  | .optionalSome sub => .optionalSome (sub.relabel f)
  | .unknown kind children => .unknown kind (children.map (·.relabel f))

/-- The structure of a type, with labels for places. -/
def TypeKind.relabel : TypeKind → TypeKind
  | .nominal name args => .nominal name (args.map (·.relabel f))
  | .optional base => .optional (base.relabel f)
  | .array element => .array (element.relabel f)
  | .dictionary fst snd => .dictionary (fst.relabel f) (snd.relabel f)
  | .tuple elements => .tuple (elements.map (·.relabel f))
  | .function params result => .function (params.map (·.relabel f)) (result.relabel f)
  | .unknown text => .unknown text

/-- A payload, with labels for places. -/
def Payload.relabel : Payload → Payload
  | .decl kind => .decl (kind.relabel f)
  | .stmt kind => .stmt (kind.relabel f)
  | .stmtCondition elements => .stmtCondition (elements.map (·.relabel f))
  | .caseLabelItem sub guard => .caseLabelItem (sub.relabel f) (guard.map (·.relabel f))
  | .expr kind resolved => .expr (kind.relabel f) (resolved.map (·.relabel f))
  | .pattern kind => .pattern (kind.relabel f)
  | .type kind name => .type (kind.relabel f) name
  | .writtenType text resolved => .writtenType text (resolved.map (·.relabel f))

end

end SwiftRelations
