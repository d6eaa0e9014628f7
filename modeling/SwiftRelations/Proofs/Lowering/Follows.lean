import SwiftRelations.Proofs.Lowering.TaskRulesItems

/-!
# Rules follow their tasks

A step follows a list of tasks if the expressions it makes are those that the tasks leave, in order,
and if it makes no syntax error of anything but an expression. This is a sense in which steps do
tasks, so that the lowering of a file follows the tasks of its items.
-/

namespace SwiftRelations

open Lowering Text

/-- What an expression shows of itself. -/
def Expr.mark (expr : Expr) : ExprMark := ⟨expr.kind.unmodelled?, expr.span⟩

/-- What the expressions of a tree show of themselves, in the order in which they were made. -/
def Ast.marks (ast : Ast) : List ExprMark := ast.exprs.toList.map Expr.mark

/-- Whether nothing but expressions of a tree are syntax errors, and types that could not be read
are those of annotations. -/
structure Ast.Orderly (ast : Ast) : Prop where
  decls : ∀ decl ∈ ast.decls, decl.kind.unmodelled? ≠ some "ERROR"
  stmts : ∀ stmt ∈ ast.stmts, stmt.kind.unmodelled? ≠ some "ERROR"
  patterns : ∀ pattern ∈ ast.patterns, pattern.kind.unmodelled? ≠ some "ERROR"
  types : ast.typeReprs = #[] → ∀ entry ∈ ast.types.entries, entry.kind.unmodelled? = none

/-- A type that is asked for by its name is modelled. -/
theorem TypeTable.unmodelled?_named {table : TypeTable} {name : String}
    (h : ∀ entry ∈ table.entries, entry.kind.unmodelled? = none) :
    ∀ entry ∈ (table.named name).2.entries, entry.kind.unmodelled? = none := by
  simp only [named, intern]
  split
  · exact h
  · intro entry he
    rcases Array.mem_push.mp he with he | rfl
    · exact h entry he
    · rfl

namespace Lower

/-- Whether a step leaves the expressions that some tasks leave, and no syntax error apart from
these. -/
def Follows (visits : Visit → List ExprMark) (x : Lower α) (tasks : List Task) : Prop :=
  ∀ s a s', x s = .ok (a, s') →
    s'.ast.marks = s.ast.marks ++ tasks.flatMap (Task.marks visits) ∧
    (s.ast.Orderly → s'.ast.Orderly)

namespace Follows

variable {α β γ : Type} {visits : Visit → List ExprMark} {x : Lower α} {f : α → Lower β}
  {tasks tasks' : List Task}

private theorem pure (a : α) : (Pure.pure a : Lower α).Follows visits [] := by
  intro s b s' h
  cases h
  exact ⟨by simp, id⟩

private theorem throw (fault : Fault) :
    (MonadExcept.throw fault : Lower α).Follows visits tasks := by
  intro s a s' h
  cases h

private theorem bind {p : α → Prop} (hp : x.Returns p) (hx : x.Follows visits tasks)
    (hf : ∀ a, p a → (f a).Follows visits tasks') : (x >>= f).Follows visits (tasks ++ tasks') := by
  intro s b s' h
  obtain ⟨a, s₁, hxr, hfr⟩ := bind_eq_ok.mp h
  obtain ⟨hm, ho⟩ := hx s a s₁ hxr
  obtain ⟨hm', ho'⟩ := hf a (hp s a s₁ hxr) s₁ b s' hfr
  refine ⟨?_, fun h => ho' (ho h)⟩
  rw [hm', hm, List.flatMap_append, List.append_assoc]

private theorem inScope (hx : x.Follows visits tasks) : x.inScope.Follows visits tasks := by
  intro s a s' h
  obtain ⟨s₁, hs, rfl⟩ := inScope_eq_ok.mp h
  exact hx { s with scopes := s.scopes.enter } a s₁ hs

/-- A step that changes the syntax tree leaves what the new tree has more. -/
theorem onAst {g : Ast → α × Ast}
    (hm : ∀ ast, (g ast).2.marks = ast.marks ++ tasks.flatMap (Task.marks visits))
    (ho : ∀ ast : Ast, ast.Orderly → (g ast).2.Orderly) :
    (Lower.onAst g).Follows visits tasks := by
  intro s a s' h
  cases h
  exact ⟨hm s.ast, ho s.ast⟩

private theorem modify {g : State → State} (h : ∀ s, (g s).ast = s.ast) :
    (modify g : Lower PUnit).Follows visits [] := by
  intro s a s' hs
  cases hs
  exact ⟨by simp [h], by rw [h]; exact id⟩

/-- What a step reads makes no expressions. -/
theorem get {g : State → Lower β} (h : ∀ s, (g s).Follows visits tasks) :
    (MonadState.get >>= g).Follows visits tasks := by
  intro s b s' hs
  exact h s s b s' hs

private theorem addExpr {kind : ExprKind} {type : Option TypeId} {span : Span} :
    (Lower.addExpr kind type span).Follows visits [.mark ⟨kind.unmodelled?, some span⟩] :=
  onAst (fun ast => by simp [Ast.marks, Ast.addExpr, Expr.mark, Task.marks])
    fun ast h => ⟨h.decls, h.stmts, h.patterns, h.types⟩

private theorem addDecl {kind : DeclKind} {span : Span} (hk : kind.unmodelled? ≠ some "ERROR") :
    (Lower.addDecl kind span).Follows visits [] :=
  onAst (fun ast => by simp [Ast.marks, Ast.addDecl]) fun ast h => by
    refine ⟨fun decl hd => ?_, h.stmts, h.patterns, h.types⟩
    rcases Array.mem_push.mp hd with hd | rfl
    · exact h.decls decl hd
    · exact hk

private theorem addStmt {kind : StmtKind} {span : Span} (hk : kind.unmodelled? ≠ some "ERROR") :
    (Lower.addStmt kind span).Follows visits [] :=
  onAst (fun ast => by simp [Ast.marks, Ast.addStmt]) fun ast h => by
    refine ⟨h.decls, fun stmt hs => ?_, h.patterns, h.types⟩
    rcases Array.mem_push.mp hs with hs | rfl
    · exact h.stmts stmt hs
    · exact hk

private theorem addPattern {kind : PatternKind} {span : Option Span}
    (hk : kind.unmodelled? ≠ some "ERROR") : (Lower.addPattern kind span).Follows visits [] :=
  onAst (fun ast => by simp [Ast.marks, Ast.addPattern]) fun ast h => by
    refine ⟨h.decls, h.stmts, fun pattern hp => ?_, h.types⟩
    rcases Array.mem_push.mp hp with hp | rfl
    · exact h.patterns pattern hp
    · exact hk

private theorem setDeclKind {id : DeclId} {kind : DeclKind} (hk : kind.unmodelled? = none) :
    (Lower.setDeclKind id kind).Follows visits [] := by
  intro s a s' hs
  cases hs
  refine ⟨by simp [Ast.marks, Ast.setDeclKind], fun h =>
    ⟨fun decl hd => ?_, h.stmts, h.patterns, h.types⟩⟩
  obtain ⟨i, hi, rfl⟩ := Array.mem_iff_getElem.mp hd
  simp only [Ast.setDeclKind, Array.getElem_modify]
  split
  · simp [hk]
  · exact h.decls _ (Array.getElem_mem _)

private theorem addStmtCondition {elements : List ConditionElement} {span : Option Span} :
    (Lower.onAst (·.addStmtCondition elements span)).Follows visits [] :=
  onAst (fun ast => by simp [Ast.marks, Ast.addStmtCondition])
    fun ast h => ⟨h.decls, h.stmts, h.patterns, h.types⟩

private theorem addCaseLabelItem {pattern : PatternId} {guard : Option ExprId}
    {span : Option Span} :
    (Lower.onAst (·.addCaseLabelItem pattern guard span)).Follows visits [] :=
  onAst (fun ast => by simp [Ast.marks, Ast.addCaseLabelItem])
    fun ast h => ⟨h.decls, h.stmts, h.patterns, h.types⟩

private theorem namedType (name : String) : (Lower.namedType name).Follows visits [] :=
  onAst (fun ast => by simp [Ast.marks, Ast.namedType]) fun ast h =>
    ⟨h.decls, h.stmts, h.patterns, fun hn => TypeTable.unmodelled?_named (h.types hn)⟩

private theorem declare (name : String) (decl : DeclId) :
    (Lower.declare name decl).Follows visits [] :=
  modify fun _ => rfl

/-- The type of an annotation may be one that could not be read: then there is the annotation. -/
theorem writtenType (t : Tree) : (Lower.writtenType t).Follows visits [] := by
  intro s a s' hs
  cases hs
  exact ⟨by simp [Ast.marks], fun h =>
    ⟨h.decls, h.stmts, h.patterns, fun hn => absurd hn Array.push_ne_empty⟩⟩

/-- A reference is an expression. -/
theorem declRef (t : Tree) (name : String) :
    (Lower.declRef t name).Follows visits [Task.make t] := by
  intro s a s' h
  rw [declRef_eq] at h
  cases h
  exact ⟨by simp [Ast.marks, Ast.addExpr, State.refer, Expr.mark, Task.marks, Task.make,
    ExprKind.unmodelled?], fun h => ⟨h.decls, h.stmts, h.patterns, h.types⟩⟩

end Follows

/-- The sense of following tasks. -/
def Sense.follows (visits : Visit → List ExprMark) : Sense where
  Holds := Follows visits
  pure := .pure
  bind := .bind
  inScope := .inScope
  get := .get
  addExpr _ _ _ := .addExpr
  declRef := .declRef
  addDecl _ _ := .addDecl
  addStmt _ _ := .addStmt
  addPattern _ _ := .addPattern
  setDeclKind _ _ := .setDeclKind
  addStmtCondition _ _ := .addStmtCondition
  addCaseLabelItem _ _ _ := .addCaseLabelItem
  namedType := .namedType
  writtenType := .writtenType
  declare := .declare

/-- A step that stops leaves nothing, whatever its condition is. -/
theorem Sense.follows_allows (visits : Visit → List ExprMark) (ts : List Tree) :
    (follows visits).Allows ts :=
  .inr fun _ _ => Follows.throw .equalsBeforeBinding

end Lower

namespace Lowering

open Lower

/-- The rules for the trees up to a height follow their tasks, by induction on the height. What is
taken for the trees further down does not matter: they are not lowered. -/
theorem upTo_follows (deep : List ExprMark) (height : Nat) :
    (upTo height).Does (.follows (Visit.marks deep height)) := by
  induction height with
  | zero =>
    exact ⟨fun _ _ => Follows.throw _, fun _ _ => Follows.throw _, fun _ => Follows.throw _,
      fun _ _ => Follows.throw _⟩
  | succ height ih =>
    have hvisit : ∀ (visit : Visit) {α : Type} {x : Lower α},
        x.Follows (Visit.marks deep height) visit.tasks →
        x.Follows (Visit.marks deep (height + 1)) [.visit visit] := by
      intro visit α x hx s a s' hs
      simpa [Task.marks, Visit.marks] using hx s a s' hs
    exact ⟨fun t ht => hvisit (.decl t) (declAt_does ih ht),
      fun t ht => hvisit (.stmt t) (stmtAt_does ih ht fun _ _ => Sense.follows_allows _ _),
      fun t => hvisit (.expr t) (exprAt_does ih t),
      fun t binding => hvisit (.pattern t binding) (patternAt_does ih t binding)⟩

/-- Lowering a file follows the tasks of its items. -/
theorem sourceFile_follows (deep : List ExprMark) (height : Nat) (root : Tree) :
    (sourceFile (upTo height) root).Follows (Visit.marks deep height)
      (root.namedParts.map Task.item) :=
  sourceFile_does (upTo_follows deep height) root

end Lowering

end SwiftRelations
