import SwiftRelations.Proofs.Lowering.References
import SwiftRelations.Proofs.Lowering.Scopes

/-!
# Links between references and declarations

Names are bound to declarations that introduce them, and a reference agrees with the declaration
that it found. Declarations are replaced while they are made, but their names and the types they
state stay, so that what a reference read off its declaration when it was made stays right.
-/

namespace SwiftRelations

open Lowering

/-- A declaration with a name says which type it states. -/
theorem Ast.statedType?_of_header? {ast : Ast} {decl : DeclId} {name : Option String}
    {type : Option TypeId} (h : ast.header? decl = some (name, type)) :
    ast.statedType? decl = type := by
  obtain ⟨found, hd, hh⟩ := Option.map_eq_some_iff.mp h
  rw [Ast.statedType?, hd]
  exact congrArg Prod.snd hh

/-- Whether an expression, if it is a reference, agrees with its declaration: it has a name that can
be bound, which is that of the declaration, and the type that the declaration states. -/
def Expr.Agrees (expr : Expr) (ast : Ast) : Prop :=
  ∀ name target, expr.kind = .declRef name target →
    match target with
    | some decl => name ≠ "" ∧ name ≠ "_" ∧ ast.header? decl = some (some name, expr.type)
    | none => expr.type = none

/-- What is no reference has nothing to agree with. -/
theorem Expr.agrees_of_plain {expr : Expr} {ast : Ast}
    (plain : ∀ name target, expr.kind ≠ .declRef name target) : expr.Agrees ast :=
  fun name target h => absurd h (plain name target)

namespace Lowering

/-- Whether names are bound to declarations that introduce them, and references agree with their
declarations. -/
structure State.Linked (s : State) : Prop where
  bound : ∀ b ∈ s.scopes.bindings, b.1 ≠ "" ∧ b.1 ≠ "_" ∧
    ∃ type, s.ast.header? b.2 = some (some b.1, type)
  agrees : ∀ id expr, s.ast.expr? id = some expr → expr.Agrees s.ast

namespace State.Linked

variable {s s₁ : State}

/-- Nothing is bound in an empty state, and nothing refers to anything. -/
theorem empty : ({} : State).Linked where
  bound b hb := by cases hb
  agrees id expr he := by simp [Ast.expr?] at he

/-- What agrees with its declaration keeps to it. -/
theorem agrees_mono (hp : s.Precedes s₁) {expr : Expr} (h : expr.Agrees s.ast) :
    expr.Agrees s₁.ast := by
  intro name target hk
  have h := h name target hk
  cases target with
  | none => exact h
  | some decl => exact ⟨h.1, h.2.1, hp.header decl _ h.2.2⟩

/-- A binding is to a declaration of its name from then on. -/
theorem bound_mono (hp : s.Precedes s₁) {b : String × DeclId}
    (h : b.1 ≠ "" ∧ b.1 ≠ "_" ∧ ∃ type, s.ast.header? b.2 = some (some b.1, type)) :
    b.1 ≠ "" ∧ b.1 ≠ "_" ∧ ∃ type, s₁.ast.header? b.2 = some (some b.1, type) := by
  obtain ⟨hn, hu, type, hh⟩ := h
  exact ⟨hn, hu, type, hp.header b.2 _ hh⟩

/-- A step that makes no reference and binds no name. -/
theorem of_precedes (h : s.Linked) (hp : s.Precedes s₁)
    (hb : ∀ b ∈ s₁.scopes.bindings, b ∈ s.scopes.bindings)
    (he : ∀ id expr, s₁.ast.expr? id = some expr →
      s.ast.expr? id = some expr ∨ expr.Agrees s₁.ast) : s₁.Linked where
  bound b hm := bound_mono hp (h.bound b (hb b hm))
  agrees id expr hexpr := by
    rcases he id expr hexpr with he | he
    · exact agrees_mono hp (h.agrees id expr he)
    · exact he

/-- A new expression agrees with its declaration. -/
theorem addExpr (h : s.Linked) (kind : ExprKind) (type : Option TypeId) (span : Span)
    (hk : Expr.Agrees ⟨kind, type, some span⟩ s.ast) : (s.addExpr kind type span).Linked := by
  refine h.of_precedes (s.precedes_addExpr kind type span) (fun b hb => hb) fun id expr he => ?_
  rw [State.addExpr, Ast.expr?_addExpr] at he
  split at he
  · cases he
    exact .inr hk
  · exact .inl he

/-- A reference by a name agrees with what the name is bound to. -/
theorem agrees_find? (h : s.Linked) (name : String) (span : Option Span) :
    Expr.Agrees ⟨.declRef name (s.scopes.find? name),
      (s.scopes.find? name).bind s.ast.statedType?, span⟩ s.ast := by
  rintro _ _ ⟨rfl, rfl⟩
  cases hf : s.scopes.find? name with
  | none => rfl
  | some decl =>
    obtain ⟨hn, hu, type, hh⟩ := h.bound _ (Scopes.mem_bindings_of_find? hf)
    have ht : s.ast.statedType? decl = type := Ast.statedType?_of_header? hh
    exact ⟨hn, hu, by rw [hh, Option.bind_some, ht]⟩

end State.Linked

end Lowering

/-- A step that has a journal keeps names bound to their declarations, and references agreeing with
theirs. By induction on the journal. -/
theorem Lower.Records.linked {α : Type} {x : Lower α} {s s' : State} {es : List Event} {a : α}
    (h : x.Records s es a s') (hs : s.Linked) : s'.Linked := by
  induction h with
  | pure a s => exact hs
  | bind _ _ ihx ihf => exact ihf (ihx hs)
  | get s => exact hs
  | onAst f s decls size exprs =>
    refine hs.of_precedes (Lower.Records.onAst f s decls size exprs).precedes (fun b hb => hb) ?_
    intro id expr he
    exact .inl (by simpa only [Ast.expr?, exprs] using he)
  | addExpr kind type span s plain => exact hs.addExpr kind type span (Expr.agrees_of_plain plain)
  | selfRef t s ht =>
    refine hs.addExpr _ none t.span ?_
    rintro _ _ ⟨rfl, rfl⟩
    rfl
  | declRef t name s =>
    -- That the reference may be pending does not matter.
    have h := hs.addExpr _ _ t.span (hs.agrees_find? name (some t.span))
    exact ⟨h.bound, h.agrees⟩
  | introduce kind span name s named =>
    have hp := s.precedes_introduce kind span name
    constructor
    · intro b hb
      rcases Scopes.mem_bindings_bind hb with hb | ⟨rfl, hn, hu⟩
      · exact State.Linked.bound_mono hp (hs.bound b hb)
      · refine ⟨hn, hu, kind.statedType?, ?_⟩
        simp [State.introduce, Ast.header?, Ast.decl?, Ast.addDecl, DeclKind.header, named]
    · exact fun id expr he => State.Linked.agrees_mono hp (hs.agrees id expr he)
  | setDeclKind id kind s same =>
    have hp := (Lower.Records.setDeclKind id kind s same).precedes
    exact hs.of_precedes hp (fun b hb => hb) fun id expr he => .inl he
  | @inScope α x s s₁ es a hx ih =>
    have h₁ := ih ⟨fun b hb => hs.bound b hb, hs.agrees⟩
    constructor
    · intro b hb
      have hsame : s₁.scopes.leave = s.scopes := hx.grows.leave
      exact State.Linked.bound_mono hx.precedes (hs.bound b (hsame ▸ hb))
    · exact h₁.agrees

end SwiftRelations
