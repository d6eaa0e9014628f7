import SwiftRelations.Proofs.Lowering.Forward

/-!
# Types of calls

A call gets its type when it is made, from the declaration that its callee refers to by then. That
declaration may still be unfinished, as it is for a recursive call, but it states its type before
its body is lowered. The final pass completes the references that found nothing, and gives them
types, but leaves the calls of them without a type.
-/

namespace SwiftRelations

open Lowering

namespace Lower.Records

variable {α : Type} {x : Lower α} {s : State} {es : List Event} {a : α} {id callee : ExprId}
  {expr : Expr} {arguments : List Argument} {name : String} {d : DeclId}

/-- The final pass leaves calls alone. -/
theorem expr?_of_call (h : x.Records {} es a s) (he : s.finish.expr? id = some expr)
    (hk : expr.kind = .call callee arguments) : s.ast.expr? id = some expr := by
  rw [← h.expr?_finish_of_not_pending fun name hr => ?_, he]
  obtain ⟨other, hother, hkind⟩ := h.expr?_finish_of_unresolved hr
  cases he.symm.trans hother
  cases hk.symm.trans hkind

/-- A call whose callee was resolved when it was made has the type that the declaration states. -/
theorem callType_of_resolved (h : x.Records {} es a s) (hc : s.ast.Coherent ∅)
    (he : s.finish.expr? id = some expr) (hk : expr.kind = .call callee arguments)
    (hr : .referred callee name (some d) ∈ es) {decl : Decl} (hd : s.finish.decl? d = some decl) :
    decl.kind.CallType s.finish.types name expr.type := by
  obtain ⟨target, htarget, -, hkind⟩ := h.expr?_finish_of_resolved hr
  obtain ⟨exprs, -, hfinish⟩ := s.finish_eq
  rw [hfinish] at hd ⊢
  have hcall := (hc.links _ _ (Ast.entryAt?_of_expr? (h.expr?_of_call he hk))).calls
  exact (hcall expr callee arguments rfl hk).known target name d decl htarget hkind (by simp) hd

/-- A call whose callee was not resolved when it was made has no type. -/
theorem type_of_unresolved (h : x.Records {} es a s) (hc : s.ast.Coherent ∅)
    (he : s.finish.expr? id = some expr) (hk : expr.kind = .call callee arguments)
    (hn : ∀ name d, .referred callee name (some d) ∉ es) : expr.type = none := by
  have hold := h.expr?_of_call he hk
  obtain ⟨target, htarget⟩ := hc.exists_callee hold hk
  have hcall := (hc.links _ _ (Ast.entryAt?_of_expr? hold)).calls expr callee arguments rfl hk
  refine hcall.unknown target htarget fun name d hkind => ?_
  rcases h.event_of_expr?_file htarget hkind with hr | ⟨t, -, -, rfl⟩
  · exact hn name d hr
  · cases hkind

end Lower.Records

/-- In a finished file a call of a declaration has the type that the declaration states, if lexical
lookup found the declaration when the callee was made. If the callee was resolved by the final pass
alone, and if it refers to no declaration, the call has no type. -/
theorem Tree.lower_calls (root : Tree) (hasParseErrors : Bool) :
    root.lower hasParseErrors = .error .equalsBeforeBinding ∨
    ∃ topLevel s es, (sourceFile (upTo root.height) root).Records {} es topLevel s ∧
      root.lower hasParseErrors = .ok { ast := s.finish, topLevel, hasParseErrors } ∧
      ∀ id expr callee arguments target, s.finish.expr? id = some expr →
        expr.kind = .call callee arguments → s.finish.expr? callee = some target →
        (∀ name d decl, target.kind = .declRef name (some d) → s.finish.decl? d = some decl →
          .referred callee name (some d) ∈ es ∧
            decl.kind.CallType s.finish.types name expr.type ∨
          .referred callee name none ∈ es ∧ lastBound es name = some d ∧ expr.type = none) ∧
        ((∀ name d, target.kind ≠ .declRef name (some d)) → expr.type = none) := by
  have hroot : (Terms.under root).trees root := Tree.mem_subtrees_self root
  refine (Tree.lower_records hroot id hasParseErrors).imp id ?_
  rintro ⟨topLevel, s, es, h, -, -, hlower⟩
  have hc := (sourceFile_upkeep h.run).coherent
  refine ⟨topLevel, s, es, h, hlower, fun id expr callee arguments target he hk ht => ⟨?_, ?_⟩⟩
  · intro name d decl hkind hd
    rcases h.event_of_expr?_finish ht hkind with ⟨hr, -⟩ | ⟨hr, hlast⟩ | ⟨t, -, -, rfl⟩
    · exact .inl ⟨hr, h.callType_of_resolved hc he hk hr hd⟩
    · refine .inr ⟨hr, hlast.symm, h.type_of_unresolved hc he hk fun other d' hr' => ?_⟩
      -- What is pending was not resolved.
      obtain ⟨old, hold, hold'⟩ := h.expr?_of_referred hr
      obtain ⟨new, hnew, hnew'⟩ := h.expr?_of_referred hr'
      cases hold.symm.trans hnew
      cases hold'.symm.trans hnew'
    · cases hkind
  · refine fun hn => h.type_of_unresolved hc he hk fun name d hr => ?_
    obtain ⟨found, -, hfound, hkind⟩ := h.expr?_finish_of_resolved hr
    cases ht.symm.trans hfound
    exact hn name d hkind

/-- The tree of a file with an initializer call on the line before the type. -/
def Tree.calledBefore : Tree :=
  (ofRows? (.ofBytes "let x = Foo()\nstruct Foo \x7b\x7d\n".toUTF8) [
    ⟨"source_file", true, 0, 28, none, 2, []⟩,
    ⟨"property_declaration", true, 0, 13, none, 4, []⟩,
    ⟨"value_binding_pattern", true, 0, 3, none, 1, []⟩,
    ⟨"let", false, 0, 3, some "mutability", 0, []⟩,
    ⟨"pattern", true, 4, 5, some "name", 1, []⟩,
    ⟨"simple_identifier", true, 4, 5, some "bound_identifier", 0, []⟩,
    ⟨"=", false, 6, 7, none, 0, []⟩,
    ⟨"call_expression", true, 8, 13, some "value", 2, []⟩,
    ⟨"simple_identifier", true, 8, 11, none, 0, []⟩,
    ⟨"call_suffix", true, 11, 13, none, 1, []⟩,
    ⟨"value_arguments", true, 11, 13, none, 2, []⟩,
    ⟨"(", false, 11, 12, none, 0, []⟩,
    ⟨")", false, 12, 13, none, 0, []⟩,
    ⟨"class_declaration", true, 14, 27, none, 3, []⟩,
    ⟨"struct", false, 14, 20, some "declaration_kind", 0, []⟩,
    ⟨"type_identifier", true, 21, 24, some "name", 0, []⟩,
    ⟨"class_body", true, 25, 27, some "body", 2, []⟩,
    ⟨"\x7b", false, 25, 26, none, 0, []⟩,
    ⟨"\x7d", false, 26, 27, none, 0, []⟩]).getD default

/-- The call of a type that is declared later refers to it, and has no type all the same. -/
theorem Tree.lower_calls_calledBefore :
    ∃ file, calledBefore.lower false = .ok file ∧
      ∃ id expr callee arguments target name d decl, file.ast.expr? id = some expr ∧
        expr.kind = .call callee arguments ∧ file.ast.expr? callee = some target ∧
        target.kind = .declRef name (some d) ∧ file.ast.decl? d = some decl ∧
        ¬ decl.kind.CallType file.ast.types name expr.type := by
  obtain ⟨file, hfile, hcall, hcallee, hdecl⟩ :
      ∃ file ∈ (calledBefore.lower false).toOption,
        (file.ast.expr? ⟨1⟩).map (fun e => (e.kind, e.type)) = some (.call ⟨0⟩ [], none) ∧
        (file.ast.expr? ⟨0⟩).map (·.kind) = some (.declRef "Foo" (some ⟨2⟩)) ∧
        (file.ast.decl? ⟨2⟩).map (·.kind) = some (.nominal .structType "Foo" [] []) := by
    decide +kernel
  obtain ⟨expr, he, hk⟩ := Option.map_eq_some_iff.mp hcall
  obtain ⟨target, ht, htarget⟩ := Option.map_eq_some_iff.mp hcallee
  obtain ⟨decl, hd, hkind⟩ := Option.map_eq_some_iff.mp hdecl
  obtain ⟨hk, htype⟩ := Prod.mk.inj hk
  refine ⟨file, lower_of_mem_toOption hfile, ⟨1⟩, expr, ⟨0⟩, [], target, "Foo", ⟨2⟩, decl, he, hk,
    ht, htarget, hd, ?_⟩
  simp [hkind, htype, DeclKind.CallType]

end SwiftRelations
