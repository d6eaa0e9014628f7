import SwiftRelations.Data.List
import SwiftRelations.Lowering.File

/-!
# The journal of a lowering

What a lowering does with names is told by a journal: the scopes it closed, the names it bound, and
the references it made. `Lower.Records` gives the journals of a step, operation by operation, and
holds each operation to what the rules promise of it: a name is bound to a declaration of that name,
as soon as it is made, and a declaration is replaced only by one that says the same of itself.
What is shown of a single operation holds of whole files by induction on their journals.
-/

namespace SwiftRelations

/-- What a declaration tells those who refer to it: its name, and the type it states. -/
def DeclKind.header (kind : DeclKind) : Option String × Option TypeId :=
  (kind.declaredName?, kind.statedType?)

/-- What the declaration at a place tells those who refer to it. -/
def Ast.header? (ast : Ast) (id : DeclId) : Option (Option String × Option TypeId) :=
  (ast.decl? id).map (·.kind.header)

namespace Lowering

open SwiftRelations.Text

/-- A scope that was closed. -/
structure ClosedScope where
  /-- How many scopes were open inside that of the file when it was closed, itself included. -/
  depth : Nat
  /-- The declarations made inside it are those from `first` on that come before `last`. -/
  first : Nat
  last : Nat
  deriving DecidableEq, Repr

/-- Whether a declaration was made while the scope was open. -/
def ClosedScope.Made (scope : ClosedScope) (decl : DeclId) : Prop :=
  scope.first ≤ decl.index ∧ decl.index < scope.last

/-- What a lowering does with names. -/
inductive Event where
  | closed (scope : ClosedScope)
  /-- A name is bound in the innermost scope, which is that of the file or not. -/
  | bound (inFile : Bool) (name : String) (decl : DeclId)
  /-- A name is looked up in the scopes, and an expression refers to what was found. -/
  | referred (ref : ExprId) (name : String) (target : Option DeclId)
  /-- An expression stands for `self` or `super`, which are not looked up. -/
  | selfReferred (ref : ExprId) (t : Tree)

/-- What binding a name is recorded as. -/
def Scopes.bindingEvents (scopes : Scopes) (name : String) (decl : DeclId) : List Event :=
  if name = "" ∨ name = "_" then [] else [.bound scopes.nested.isEmpty name decl]

/-- Whether a tree is that of `self` or `super`. -/
def isSelf (t : Tree) : Bool := t.kind == "self_expression" || t.kind == "super_expression"

namespace State

/-- The state with a new expression. -/
def addExpr (s : State) (kind : ExprKind) (type : Option TypeId) (span : Span) : State :=
  { s with ast := (s.ast.addExpr kind type (some span)).2 }

/-- The state with a new reference by a name, pending if nothing binds the name. -/
def refer (s : State) (name : String) (span : Span) : State :=
  let target := s.scopes.find? name
  { ast := (s.ast.addExpr (.declRef name target) (target.bind s.ast.statedType?) (some span)).2
    scopes := s.scopes
    pending := if target.isNone then s.pending ++ [⟨s.ast.exprs.size⟩] else s.pending }

end State

end Lowering

open Lowering Text

/-- A reference is made by looking its name up. -/
theorem Lower.declRef_eq (t : Tree) (name : String) (s : State) :
    Lower.declRef t name s = .ok (⟨s.ast.exprs.size⟩, s.refer name t.span) := by
  have hrun : Lower.declRef t name s = (do
      let target := s.scopes.find? name
      let id ← Lower.addExpr (.declRef name target) (target.bind s.ast.statedType?) t.span
      if target.isNone then
        modify fun s => { s with pending := s.pending ++ [id] }
      return id : Lower ExprId) s := rfl
  rw [hrun, State.refer]
  cases s.scopes.find? name <;> rfl

/-- A declaration is made and its name bound. -/
def Lower.introduce (kind : DeclKind) (span : Span) (name : String) : Lower DeclId := do
  let decl ← Lower.addDecl kind span
  Lower.declare name decl
  return decl

/-- The state in which a declaration is made and its name bound. -/
def Lowering.State.introduce (s : State) (kind : DeclKind) (span : Span) (name : String) : State :=
  { s with ast := (s.ast.addDecl kind (some span)).2
           scopes := s.scopes.bind name ⟨s.ast.decls.size⟩ }

/-- The journals of a step: running it from a state gives a result and a state, and the events tell
what it did with names. -/
inductive Lower.Records : {α : Type} → Lower α → State → List Event → α → State → Prop
  | pure {α : Type} (a : α) (s : State) : Records (Pure.pure a) s [] a s
  | bind {α β : Type} {x : Lower α} {f : α → Lower β} {s s₁ s₂ : State} {es es' : List Event}
      {a : α} {b : β} (hx : Records x s es a s₁) (hf : Records (f a) s₁ es' b s₂) :
      Records (x >>= f) s (es ++ es') b s₂
  | get (s : State) : Records MonadState.get s [] s s
  /-- The syntax tree grows by other nodes than expressions. -/
  | onAst {α : Type} (f : Ast → α × Ast) (s : State)
      (decls : ∀ id decl, s.ast.decl? id = some decl → (f s.ast).2.decl? id = some decl)
      (size : s.ast.decls.size ≤ (f s.ast).2.decls.size)
      (exprs : (f s.ast).2.exprs = s.ast.exprs) :
      Records (Lower.onAst f) s [] (f s.ast).1 { s with ast := (f s.ast).2 }
  /-- An expression is made that is no reference. -/
  | addExpr (kind : ExprKind) (type : Option TypeId) (span : Span) (s : State)
      (plain : ∀ name decl, kind ≠ .declRef name decl) :
      Records (Lower.addExpr kind type span) s [] ⟨s.ast.exprs.size⟩ (s.addExpr kind type span)
  | selfRef (t : Tree) (s : State) (ht : isSelf t) :
      Records (Lower.addExpr (.declRef (trim t.text) none) none t.span) s
        [.selfReferred ⟨s.ast.exprs.size⟩ t] ⟨s.ast.exprs.size⟩
        (s.addExpr (.declRef (trim t.text) none) none t.span)
  | declRef (t : Tree) (name : String) (s : State) :
      Records (Lower.declRef t name) s
        [.referred ⟨s.ast.exprs.size⟩ name (s.scopes.find? name)] ⟨s.ast.exprs.size⟩
        (s.refer name t.span)
  /-- A declaration is made and the name that it introduces is bound to it. -/
  | introduce (kind : DeclKind) (span : Span) (name : String) (s : State)
      (named : kind.declaredName? = some name) :
      Records (Lower.introduce kind span name) s
        (s.scopes.bindingEvents name ⟨s.ast.decls.size⟩) ⟨s.ast.decls.size⟩
        (s.introduce kind span name)
  /-- A declaration is replaced by one that tells the same of itself. -/
  | setDeclKind (id : DeclId) (kind : DeclKind) (s : State)
      (same : s.ast.header? id = some kind.header) :
      Records (Lower.setDeclKind id kind) s [] () { s with ast := s.ast.setDeclKind id kind }
  | inScope {α : Type} {x : Lower α} {s s₁ : State} {es : List Event} {a : α}
      (hx : Records x { s with scopes := s.scopes.enter } es a s₁) :
      Records (Lower.inScope x) s
        (es ++ [.closed ⟨s₁.scopes.nested.length, s.ast.decls.size, s₁.ast.decls.size⟩]) a
        { s₁ with scopes := s₁.scopes.leave }

namespace Lower

variable {α β : Type} {s s₁ s₂ : State} {es : List Event} {a : α}

/-- A step that succeeds and goes on. -/
theorem bind_eq_ok {x : Lower α} {f : α → Lower β} {b : β} :
    (x >>= f) s = .ok (b, s₂) ↔ ∃ a s₁, x s = .ok (a, s₁) ∧ f a s₁ = .ok (b, s₂) := by
  simp only [bind, StateT.bind, Except.bind]
  cases x s with
  | error fault => simp
  | ok result => simp [Prod.ext_iff, and_assoc]

/-- A step inside a scope of its own runs with the scope entered, which is left behind it. -/
theorem inScope_run (x : Lower α) (s : State) : x.inScope s =
    (x { s with scopes := s.scopes.enter }).bind fun r =>
      .ok (r.1, { r.2 with scopes := r.2.scopes.leave }) :=
  rfl

/-- A step inside a scope of its own succeeds when the step does. -/
theorem inScope_eq_ok {x : Lower α} : x.inScope s = .ok (a, s₂) ↔
    ∃ s₁, x { s with scopes := s.scopes.enter } = .ok (a, s₁) ∧
      s₂ = { s₁ with scopes := s₁.scopes.leave } := by
  rw [inScope_run]
  cases x { s with scopes := s.scopes.enter } with
  | error fault => simp [Except.bind]
  | ok r => simp [Except.bind, Prod.ext_iff, eq_comm, and_assoc]

/-- A journal is that of a run. -/
theorem Records.run {x : Lower α} (h : x.Records s es a s₁) : x s = .ok (a, s₁) := by
  induction h with
  | bind _ _ ihx ihf => exact bind_eq_ok.mpr ⟨_, _, ihx, ihf⟩
  | declRef t name s => exact declRef_eq t name s
  | inScope _ ih => exact inScope_eq_ok.mpr ⟨_, ih, rfl⟩
  | _ => rfl

end Lower

namespace Lowering.State

/-- What a later state keeps of an earlier one: the headers of its declarations, and its
expressions. -/
structure Precedes (s s' : State) : Prop where
  header : ∀ id header, s.ast.header? id = some header → s'.ast.header? id = some header
  decls : s.ast.decls.size ≤ s'.ast.decls.size
  exprs : ∀ id expr, s.ast.expr? id = some expr → s'.ast.expr? id = some expr
  refs : s.ast.exprs.size ≤ s'.ast.exprs.size

variable {s s₁ s₂ : State}

private theorem Precedes.refl (s : State) : s.Precedes s :=
  ⟨fun _ _ h => h, Nat.le_refl _, fun _ _ h => h, Nat.le_refl _⟩

private theorem Precedes.trans (h : s.Precedes s₁) (h' : s₁.Precedes s₂) : s.Precedes s₂ where
  header id header hh := h'.header id header (h.header id header hh)
  decls := Nat.le_trans h.decls h'.decls
  exprs id expr he := h'.exprs id expr (h.exprs id expr he)
  refs := Nat.le_trans h.refs h'.refs

/-- A new expression stands after the others. -/
theorem expr?_push {ast : Ast} {expr other : Expr} {id : ExprId}
    (h : ast.expr? id = some expr) :
    Ast.expr? { ast with exprs := ast.exprs.push other } id = some expr :=
  Array.getElem?_push_of_eq_some h

/-- A new expression leaves the rest as it is. -/
theorem precedes_addExpr (s : State) (kind : ExprKind) (type : Option TypeId) (span : Span) :
    s.Precedes (s.addExpr kind type span) :=
  ⟨fun _ _ h => h, Nat.le_refl _, fun _ _ => expr?_push, by simp [addExpr, Ast.addExpr]⟩

private theorem precedes_refer (s : State) (name : String) (span : Span) :
    s.Precedes (s.refer name span) :=
  ⟨fun _ _ h => h, Nat.le_refl _, fun _ _ => expr?_push, by simp [refer, Ast.addExpr]⟩

/-- A new declaration stands after the others. -/
theorem decl?_push {ast : Ast} {decl other : Decl} {id : DeclId} (h : ast.decl? id = some decl) :
    Ast.decl? { ast with decls := ast.decls.push other } id = some decl :=
  Array.getElem?_push_of_eq_some h

/-- A new declaration, bound to its name, leaves the rest as it is. -/
theorem precedes_introduce (s : State) (kind : DeclKind) (span : Span) (name : String) :
    s.Precedes (s.introduce kind span name) := by
  refine ⟨fun id header hh => ?_, by simp [introduce, Ast.addDecl], fun _ _ h => h, Nat.le_refl _⟩
  obtain ⟨decl, hd, rfl⟩ := Option.map_eq_some_iff.mp hh
  exact Option.map_eq_some_iff.mpr ⟨decl, decl?_push hd, rfl⟩

/-- Replacing a declaration by one with the same header changes no header. -/
theorem header?_setDeclKind {ast : Ast} {id other : DeclId} {kind : DeclKind}
    (same : ast.header? id = some kind.header) :
    (ast.setDeclKind id kind).header? other = ast.header? other := by
  simp only [Ast.header?, Ast.decl?, Ast.setDeclKind, Array.getElem?_modify] at same ⊢
  split
  case isTrue h =>
    rw [← h, same]
    cases hd : ast.decls[id.index]? with
    | none => simp [hd] at same
    | some decl => rfl
  case isFalse => rfl

end Lowering.State

/-- What a step leaves comes after what it found. -/
theorem Lower.Records.precedes {α : Type} {x : Lower α} {s s' : State} {es : List Event} {a : α}
    (h : x.Records s es a s') : s.Precedes s' := by
  induction h with
  | pure a s => exact .refl s
  | bind _ _ ihx ihf => exact ihx.trans ihf
  | get s => exact .refl s
  | onAst f s decls size exprs =>
    refine ⟨fun id header hh => ?_, size, fun id expr he => ?_, by simp [exprs]⟩
    · obtain ⟨decl, hd, rfl⟩ := Option.map_eq_some_iff.mp hh
      exact Option.map_eq_some_iff.mpr ⟨decl, decls id decl hd, rfl⟩
    · simpa only [Ast.expr?, exprs] using he
  | addExpr kind type span s => exact s.precedes_addExpr kind type span
  | selfRef t s => exact s.precedes_addExpr _ _ _
  | declRef t name s => exact s.precedes_refer name t.span
  | introduce kind span name s => exact s.precedes_introduce kind span name
  | setDeclKind id kind s same =>
    refine ⟨fun other header hh => ?_, ?_, fun _ _ h => h, Nat.le_refl _⟩
    · rw [State.header?_setDeclKind same, hh]
    · simp [Ast.setDeclKind]
  | @inScope α x s s₁ es a _ ih => exact ⟨ih.header, ih.decls, ih.exprs, ih.refs⟩

end SwiftRelations
