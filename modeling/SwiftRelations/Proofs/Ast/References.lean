import SwiftRelations.Ast.Basic

/-!
# The graph of nodes

A node refers to the nodes that its content names. `Ast.Reachable` is reachability along these
references from some roots. It says nothing of an order, and sharing and cycles are as good as
anything else. An annotation is a node together with the type it is said to resolve to; where every
reachable annotation text comes with one such type, reachable nodes are known by their keys.
-/

namespace SwiftRelations

/-- The nodes a declaration names. -/
def DeclKind.nodes : DeclKind → List Node
  | .importing _ => []
  | .func _ params result body =>
    params.map .decl ++ (result.map Node.writtenType).toList ++ (body.map Node.stmt).toList
  | .param _ _ written => (written.map Node.writtenType).toList
  | .nominal _ _ inherited members => inherited.map .writtenType ++ members.map .decl
  | .var _ _ type => (type.map Node.type).toList
  | .patternBinding entries =>
    entries.flatMap fun entry => .pattern entry.pattern :: (entry.init.map Node.expr).toList
  | .enumCase _ => []
  | .typeAlias _ written => (written.map Node.writtenType).toList
  | .topLevelCode body => [.stmt body]
  | .unknown _ children => children

/-- The nodes a statement names. -/
def StmtKind.nodes : StmtKind → List Node
  | .brace elements => elements
  | .returning result => (result.map Node.expr).toList
  | .ifElse condition thenBranch elseBranch =>
    [.stmtCondition condition, .stmt thenBranch] ++ (elseBranch.map Node.stmt).toList
  | .guard condition body => [.stmtCondition condition, .stmt body]
  | .whileLoop condition body => [.stmtCondition condition, .stmt body]
  | .repeatWhile body condition => [.stmt body, .expr condition]
  | .forEach pattern sequence body => [.pattern pattern, .expr sequence, .stmt body]
  | .switch subject cases => .expr subject :: cases.map .stmt
  | .case labels body => labels.map .caseLabelItem ++ [.stmt body]
  | .breaking => []
  | .continuing => []
  | .throwing error => [.expr error]
  | .deferring body => [.stmt body]
  | .doCatch body catches => .stmt body :: catches.map .stmt
  | .unknown _ children => children

/-- The nodes an element of a condition list names. -/
def ConditionElement.nodes : ConditionElement → List Node
  | .boolean expr => [.expr expr]
  | .pattern sub initializer => [.pattern sub, .expr initializer]

/-- The nodes an expression names, its type apart. A reference names its declaration. -/
def ExprKind.nodes : ExprKind → List Node
  | .integerLiteral _ => []
  | .floatLiteral _ => []
  | .stringLiteral _ => []
  | .booleanLiteral _ => []
  | .nilLiteral => []
  | .declRef _ decl => (decl.map Node.decl).toList
  | .call callee arguments => .expr callee :: arguments.map (.expr ·.expr)
  | .binary _ lhs rhs => [.expr lhs, .expr rhs]
  | .unary _ operand => [.expr operand]
  | .memberRef base _ => [.expr base]
  | .tuple elements => elements.map .expr
  | .array elements => elements.map .expr
  | .closure params body => params.map .decl ++ [.stmt body]
  | .assign dest source => [.expr dest, .expr source]
  | .ternary condition thenExpr elseExpr => [.expr condition, .expr thenExpr, .expr elseExpr]
  | .unknown _ children => children

/-- The nodes a pattern names. -/
def PatternKind.nodes : PatternKind → List Node
  | .named _ var => (var.map Node.decl).toList
  | .any => []
  | .typed sub written => [.pattern sub, .writtenType written]
  | .tuple elements => elements.map .pattern
  | .expr value => [.expr value]
  | .binding _ sub => [.pattern sub]
  | .enumElement _ sub => (sub.map Node.pattern).toList
  | .isType written => [.writtenType written]
  | .optionalSome sub => [.pattern sub]
  | .unknown _ children => children

/-- The type an annotation is said to resolve to. -/
def Node.resolved? : Node → Option TypeId
  | .writtenType written => written.type
  | _ => none

namespace Ast

/-- The nodes a node refers to. An annotation refers to the type it resolved to. -/
def references (ast : Ast) : Node → List Node
  | .decl id => ((ast.decl? id).map fun decl => decl.kind.nodes).getD []
  | .stmt id => ((ast.stmt? id).map fun stmt => stmt.kind.nodes).getD []
  | .stmtCondition id =>
    ((ast.stmtCondition? id).map fun c => c.elements.flatMap ConditionElement.nodes).getD []
  | .caseLabelItem id =>
    ((ast.caseLabelItem? id).map fun item =>
      .pattern item.pattern :: (item.guard.map Node.expr).toList).getD []
  | .expr id =>
    ((ast.expr? id).map fun expr =>
      expr.kind.nodes ++ (expr.type.map Node.type).toList).getD []
  | .pattern id => ((ast.pattern? id).map fun pattern => pattern.kind.nodes).getD []
  | .type id => ((ast.type? id).map fun entry => entry.kind.parts.map .type).getD []
  | .writtenType written =>
    ((ast.typeRepr? written.repr).map fun _ => (written.type.map Node.type).toList).getD []

/-- Whether a node is one of the tree. For an annotation the type it resolved to is one, too. -/
def HasNode (ast : Ast) (node : Node) : Prop :=
  ast.Holds node.key ∧ ∀ type ∈ node.resolved?, ast.Holds (Node.type type).key

/-- All nodes that the nodes of the tree refer to are in the tree. -/
def InRange (ast : Ast) : Prop :=
  ∀ node, ast.HasNode node → ∀ child ∈ ast.references node, ast.HasNode child

/-- Whether a node can be reached from some roots along references. -/
inductive Reachable (ast : Ast) (roots : List Node) : Node → Prop where
  | root {node : Node} (h : node ∈ roots) : Reachable ast roots node
  | child {node child : Node} (h : Reachable ast roots node)
      (hc : child ∈ ast.references node) : Reachable ast roots child

/-- Each annotation text that can be reached is paired with one resolved type throughout. -/
def PairsTypes (ast : Ast) (roots : List Node) : Prop :=
  ∀ m n : Node, ast.Reachable roots m → ast.Reachable roots n → m.key = n.key →
    m.resolved? = n.resolved?

variable {ast : Ast} {roots : List Node}

/-- What can be reached from some roots can be reached from more. -/
theorem Reachable.mono {others : List Node} (hs : ∀ root ∈ roots, root ∈ others) {node : Node}
    (h : ast.Reachable roots node) : ast.Reachable others node := by
  induction h with
  | root hr => exact .root (hs _ hr)
  | child _ hc ih => exact .child ih hc

/-- A list of nodes with all the nodes they refer to has everything that can be reached from it. -/
theorem Reachable.mem_of_closed {nodes : List Node} (hr : ∀ root ∈ roots, root ∈ nodes)
    (hc : ∀ node ∈ nodes, ∀ child ∈ ast.references node, child ∈ nodes) {node : Node}
    (h : ast.Reachable roots node) : node ∈ nodes := by
  induction h with
  | root hm => exact hr _ hm
  | child _ hm ih => exact hc _ ih _ hm

/-- From roots of a tree only nodes of the tree can be reached. -/
theorem Reachable.hasNode (inRange : ast.InRange) (held : ∀ root ∈ roots, ast.HasNode root)
    {node : Node} (h : ast.Reachable roots node) : ast.HasNode node := by
  induction h with
  | root hr => exact held _ hr
  | child _ hc ih => exact inRange _ ih _ hc

/-- Annotations may be seen to be paired with one type each on a list of nodes with all the nodes
they refer to. -/
theorem pairsTypes_of_closed (nodes : List Node) (hr : ∀ root ∈ roots, root ∈ nodes)
    (hc : ∀ node ∈ nodes, ∀ child ∈ ast.references node, child ∈ nodes)
    (hp : ∀ m ∈ nodes, ∀ n ∈ nodes, m.key = n.key → m.resolved? = n.resolved?) :
    ast.PairsTypes roots :=
  fun m n hm hn => hp m (hm.mem_of_closed hr hc) n (hn.mem_of_closed hr hc)

/-- Whether a tree has a node can be computed. -/
instance (node : Node) : Decidable (ast.HasNode node) := inferInstanceAs (Decidable (_ ∧ _))

/-- Whether all nodes named by some parts of the tree are in it. -/
def Names (ast : Ast) {α : Type} (entries : Array α) (nodes : α → List Node) : Prop :=
  ∀ entry ∈ entries.toList, ∀ child ∈ nodes entry, ast.HasNode child

/-- Whether the nodes named by some parts are in the tree can be computed. -/
instance {α : Type} (entries : Array α) (nodes : α → List Node) :
    Decidable (ast.Names entries nodes) :=
  inferInstanceAs (Decidable (∀ entry ∈ entries.toList, ∀ child ∈ nodes entry, ast.HasNode child))

private theorem names_iff {α : Type} {entries : Array α} {nodes : α → List Node}
    (place : Nat → Node) (hn : ∀ i, ast.HasNode (place i) ↔ i < entries.size)
    (hr : ∀ i, ast.references (place i) = (entries[i]?.map nodes).getD []) :
    ast.Names entries nodes ↔
      ∀ i, ast.HasNode (place i) → ∀ child ∈ ast.references (place i), ast.HasNode child := by
  constructor
  · intro h i hi child hc
    have hs := (hn i).mp hi
    rw [hr, Array.getElem?_eq_getElem hs] at hc
    exact h entries[i] (Array.mem_toList_iff.mpr (Array.getElem_mem hs)) child hc
  · intro h entry he child hc
    obtain ⟨i, hs, rfl⟩ := Array.mem_iff_getElem.mp (Array.mem_toList_iff.mp he)
    apply h i ((hn i).mpr hs) child
    rwa [hr, Array.getElem?_eq_getElem hs]

/-- A tree is in range when all that its entries name is in it. -/
theorem inRange_iff : ast.InRange ↔
    ast.Names ast.decls (·.kind.nodes) ∧ ast.Names ast.stmts (·.kind.nodes) ∧
    ast.Names ast.stmtConditions (·.elements.flatMap ConditionElement.nodes) ∧
    ast.Names ast.caseLabelItems
      (fun item => .pattern item.pattern :: (item.guard.map Node.expr).toList) ∧
    ast.Names ast.exprs (fun expr => expr.kind.nodes ++ (expr.type.map Node.type).toList) ∧
    ast.Names ast.patterns (·.kind.nodes) ∧
    ast.Names ast.types.entries (·.kind.parts.map Node.type) := by
  have holds : ∀ {n : Node}, n.resolved? = none → (ast.HasNode n ↔ ast.Holds n.key) := by
    intro n hr
    simp [HasNode, hr]
  rw [names_iff (fun i => .decl ⟨i⟩) (fun i => holds rfl) (fun i => rfl),
    names_iff (fun i => .stmt ⟨i⟩) (fun i => holds rfl) (fun i => rfl),
    names_iff (fun i => .stmtCondition ⟨i⟩) (fun i => holds rfl) (fun i => rfl),
    names_iff (fun i => .caseLabelItem ⟨i⟩) (fun i => holds rfl) (fun i => rfl),
    names_iff (fun i => .expr ⟨i⟩) (fun i => holds rfl) (fun i => rfl),
    names_iff (fun i => .pattern ⟨i⟩) (fun i => holds rfl) (fun i => rfl),
    names_iff (fun i => .type ⟨i⟩) (fun i => holds rfl) (fun i => rfl)]
  constructor
  · intro h
    exact ⟨fun i => h _, fun i => h _, fun i => h _, fun i => h _, fun i => h _, fun i => h _,
      fun i => h _⟩
  · rintro ⟨hd, hs, hc, hl, he, hp, ht⟩ node hn
    cases node with
    | decl id => exact hd id.index hn
    | stmt id => exact hs id.index hn
    | stmtCondition id => exact hc id.index hn
    | caseLabelItem id => exact hl id.index hn
    | expr id => exact he id.index hn
    | pattern id => exact hp id.index hn
    | type id => exact ht id.index hn
    | writtenType written =>
      -- an annotation of the tree comes with a type of the tree
      intro child hm
      cases hr : ast.typeRepr? written.repr with
      | none => simp [references, hr] at hm
      | some repr =>
        cases htype : written.type with
        | none => simp [references, hr, htype] at hm
        | some type =>
          obtain rfl : child = .type type := by simpa [references, hr, htype] using hm
          exact (holds rfl).mpr (hn.2 type htype)

/-- Whether all references are in range can be computed. -/
instance : Decidable ast.InRange := decidable_of_iff _ inRange_iff.symm

/-- The tree of `func loop() -> Int { loop }`, whose body refers back to it. -/
def loop : Ast where
  decls := #[{ kind := .func "loop" [] (some { repr := ⟨0⟩, type := some ⟨0⟩ }) (some ⟨0⟩),
               span := none }]
  stmts := #[{ kind := .brace [.expr ⟨0⟩], span := none }]
  exprs := #[{ kind := .declRef "loop" (some ⟨0⟩), type := some ⟨0⟩, span := none }]
  typeReprs := #[{ text := "Int", span := none }]
  types := { entries := #[{ kind := .nominal "Int" [], name := "Int" }] }

end Ast

/-- Nodes of one key are equal, or annotations of one text. -/
theorem Node.eq_or_writtenType_of_key {m n : Node} (hk : m.key = n.key) :
    m = n ∨ ∃ repr s t, m = .writtenType ⟨repr, s⟩ ∧ n = .writtenType ⟨repr, t⟩ := by
  cases m <;> cases n <;>
    simp only [Node.key, NodeKey.mk.injEq, reduceCtorEq, false_and, true_and] at hk
  case writtenType v w =>
    obtain ⟨⟨i⟩, s⟩ := v
    obtain ⟨⟨j⟩, t⟩ := w
    obtain rfl : i = j := hk
    exact .inr ⟨⟨i⟩, s, t, rfl, rfl⟩
  all_goals
    rename_i i j
    cases i
    cases j
    obtain rfl := hk
    exact .inl rfl

/-- Nodes of one key are equal, annotations if they resolved to the same type. -/
theorem Node.eq_of_key {m n : Node} (hk : m.key = n.key) (hr : m.resolved? = n.resolved?) :
    m = n := by
  rcases Node.eq_or_writtenType_of_key hk with h | ⟨repr, s, t, rfl, rfl⟩
  · exact h
  · exact congrArg (fun type => Node.writtenType ⟨repr, type⟩) hr

/-- Where a node stands is known from its key. -/
theorem Ast.spanOf_congr (ast : Ast) {m n : Node} (hk : m.key = n.key) :
    ast.spanOf m = ast.spanOf n := by
  rcases Node.eq_or_writtenType_of_key hk with rfl | ⟨repr, s, t, rfl, rfl⟩ <;> rfl

/-- Reachable nodes are known by their keys, where annotations resolve to one type each. -/
theorem Ast.PairsTypes.eq_of_key {ast : Ast} {roots : List Node} (paired : ast.PairsTypes roots)
    {m n : Node} (hm : ast.Reachable roots m) (hn : ast.Reachable roots n)
    (hk : m.key = n.key) : m = n :=
  Node.eq_of_key hk (paired m n hm hn hk)

end SwiftRelations
