import SwiftRelations.Proofs.Lowering.File
import SwiftRelations.Proofs.Lowering.Linking

/-!
# What references agree on with declarations

A reference that is resolved bears the name of its declaration and the type that the declaration
states, and one that is not resolved bears no type. What a reference read off its declaration when
it was made is still right in the end, and the final pass reads the final declarations.
-/

namespace SwiftRelations

open Lowering

/-! ### The final pass -/

namespace Lowering.State

variable {s : State}

/-- The final pass leaves the declarations alone. -/
theorem header?_finish (s : State) (decl : DeclId) :
    s.finish.header? decl = s.ast.header? decl := by
  obtain ⟨exprs, -, he⟩ := s.finish_eq
  rw [he]
  rfl

/-- What the final pass makes of an expression agrees with its declaration. -/
theorem Linked.forward (h : s.Linked) {expr : Expr} (he : expr.Agrees s.ast) :
    (expr.forward s.ast s.scopes.file).Agrees s.ast := by
  unfold Expr.forward
  split
  case h_2 => exact he
  case h_1 target htarget =>
    obtain ⟨kind, type, span⟩ := expr
    unfold Expr.forwardTarget? at htarget
    split at htarget
    case h_2 => cases htarget
    case h_1 name hk =>
      obtain rfl : kind = .declRef name none := hk
      obtain rfl : type = none := he name none rfl
      obtain ⟨hn, hu, type, hh⟩ := h.bound (name, target)
        (List.mem_append_right _ (Scopes.mem_of_lookup htarget))
      have ht : s.ast.statedType? target = type := Ast.statedType?_of_header? hh
      rintro _ _ ⟨rfl, rfl⟩
      refine ⟨hn, hu, ?_⟩
      rw [hh, ht]
      rfl

/-- In a finished syntax tree references agree with their declarations. -/
theorem Linked.finish (h : s.Linked) {id : ExprId} {expr : Expr}
    (he : s.finish.expr? id = some expr) : expr.Agrees s.finish := by
  have hagrees : expr.Agrees s.ast := by
    rw [expr?_finish] at he
    split at he
    · obtain ⟨old, hold, rfl⟩ := Option.map_eq_some_iff.mp he
      exact h.forward (h.agrees id old hold)
    · exact h.agrees id expr he
  intro name target hk
  have hagrees := hagrees name target hk
  cases target with
  | none => exact hagrees
  | some decl => exact ⟨hagrees.1, hagrees.2.1, by rw [header?_finish, hagrees.2.2]⟩

end Lowering.State

/-- In a lowered file every reference that is resolved has a name that can be bound, which is the
name of its declaration, and exactly the type that the declaration states. One that is not resolved
has no type. -/
theorem Tree.lower_names (root : Tree) (hasParseErrors : Bool) :
    root.lower hasParseErrors = .error .equalsBeforeBinding ∨
    ∃ file, root.lower hasParseErrors = .ok file ∧
      ∀ id expr name target, file.ast.expr? id = some expr → expr.kind = .declRef name target →
        match target with
        | some d => name ≠ "" ∧ name ≠ "_" ∧ ∃ decl, file.ast.decl? d = some decl ∧
            decl.kind.declaredName? = some name ∧ expr.type = decl.kind.statedType?
        | none => expr.type = none := by
  have hroot : (Terms.all False).trees root := trivial
  refine (Tree.lower_records hroot id hasParseErrors).imp id ?_
  rintro ⟨topLevel, s, es, hrec, -, -, hlower⟩
  refine ⟨_, hlower, fun ref expr name target he hk => ?_⟩
  have hagrees := (hrec.linked .empty).finish he name target hk
  cases target with
  | none => exact hagrees
  | some d =>
    obtain ⟨hn, hu, hh⟩ := hagrees
    obtain ⟨decl, hd, hheader⟩ := Option.map_eq_some_iff.mp hh
    simp only [DeclKind.header, Prod.mk.injEq] at hheader
    exact ⟨hn, hu, decl, hd, hheader.1, hheader.2.symm⟩

end SwiftRelations
