import SwiftRelations.Proofs.Lowering.File
import SwiftRelations.Proofs.Lowering.References

/-!
# Forward references

References that found no declaration are looked up once more at the end of a file, in the scope of
the file. The journal of the lowering tells which references these are and what the names of the
file are bound to last, so it decides for each reference what it refers to in the end.
-/

namespace SwiftRelations

open Lowering Text

namespace Lowering

/-- A reference is pending if the journal says that it found no declaration. -/
theorem mem_filterMap_unresolved? {es : List Event} {id : ExprId} :
    id ∈ es.filterMap Event.unresolved? ↔ ∃ name, .referred id name none ∈ es := by
  rw [List.mem_filterMap]
  constructor
  · rintro ⟨event, he, hid⟩
    unfold Event.unresolved? at hid
    split at hid
    case h_1 ref name =>
      cases hid
      exact ⟨name, he⟩
    case h_2 => cases hid
  · rintro ⟨name, he⟩
    exact ⟨_, he, rfl⟩

end Lowering

/-- An unresolved reference is resolved by the scope of the file, if that binds its name. -/
theorem Expr.kind_forward {expr : Expr} {name : String} (h : expr.kind = .declRef name none)
    (ast : Ast) (file : Scope) :
    (expr.forward ast file).kind = .declRef name (file.lookup name) := by
  obtain ⟨kind, type, span⟩ := expr
  obtain rfl : kind = .declRef name none := h
  cases hl : file.lookup name <;> simp [forward, forwardTarget?, hl, referTo]

/-- What the scope of the file does not bind stays unresolved. -/
theorem Expr.forward_of_lookup_eq_none {expr : Expr} {name : String} {file : Scope}
    (h : expr.kind = .declRef name none) (hl : file.lookup name = none) (ast : Ast) :
    expr.forward ast file = expr := by
  obtain ⟨kind, type, span⟩ := expr
  obtain rfl : kind = .declRef name none := h
  simp [forward, forwardTarget?, hl]

/-! ### The journal of a file -/

namespace Lower.Records

variable {α : Type} {x : Lower α} {s : State} {es : List Event} {a : α} {id : ExprId}
  {expr : Expr} {name : String}

/-- The references that stay pending are those the journal tells of. -/
theorem mem_pending (h : x.Records {} es a s) :
    id ∈ s.pending ↔ ∃ name, .referred id name none ∈ es := by
  rw [h.pending_eq]
  exact mem_filterMap_unresolved?

/-- A reference in the syntax tree of a file is one the journal tells of. -/
theorem event_of_expr?_file (h : x.Records {} es a s) {target : Option DeclId}
    (he : s.ast.expr? id = some expr) (hk : expr.kind = .declRef name target) :
    .referred id name target ∈ es ∨
      ∃ t, isSelf t ∧ .selfReferred id t ∈ es ∧
        expr = ⟨.declRef (trim t.text) none, none, some t.span⟩ := by
  refine (h.event_of_expr? he hk).resolve_left fun he => ?_
  simp [Ast.expr?] at he

/-- The scope of a file binds a name to the declaration it was bound to last. -/
theorem lookup_scope (h : x.Records {} es a s) (name : String) :
    s.scopes.file.lookup name = lastBound es name := by
  rw [h.lookup_file, show List.lookup name ({} : State).scopes.file = none from rfl, Option.or_none]

/-- The final pass leaves an expression alone that is not pending. -/
theorem expr?_finish_of_not_pending (h : x.Records {} es a s)
    (hn : ∀ name, .referred id name none ∉ es) : s.finish.expr? id = s.ast.expr? id := by
  rw [State.expr?_finish, if_neg]
  exact fun hm => (h.mem_pending.mp hm).elim hn

/-- A reference that found a declaration keeps it. -/
theorem expr?_finish_of_resolved (h : x.Records {} es a s) {target : DeclId}
    (he : .referred id name (some target) ∈ es) :
    ∃ expr, s.ast.expr? id = some expr ∧ s.finish.expr? id = some expr ∧
      expr.kind = .declRef name (some target) := by
  obtain ⟨expr, hexpr, hk⟩ := h.expr?_of_referred he
  refine ⟨expr, hexpr, ?_, hk⟩
  rw [h.expr?_finish_of_not_pending fun other hr => ?_, hexpr]
  -- What is pending has no target.
  obtain ⟨expr', hexpr', hk'⟩ := h.expr?_of_referred hr
  cases hexpr.symm.trans hexpr'
  simp [hk] at hk'

/-- A reference that found no declaration refers in the end to what its name is bound to last. -/
theorem expr?_finish_of_unresolved (h : x.Records {} es a s) (he : .referred id name none ∈ es) :
    ∃ expr, s.finish.expr? id = some expr ∧ expr.kind = .declRef name (lastBound es name) := by
  obtain ⟨expr, hexpr, hk⟩ := h.expr?_of_referred he
  refine ⟨expr.forward s.ast s.scopes.file, ?_, ?_⟩
  · rw [State.expr?_finish, if_pos (h.mem_pending.mpr ⟨name, he⟩), hexpr, Option.map_some]
  · rw [Expr.kind_forward hk, h.lookup_scope]

/-- The final pass leaves an expression alone that the scope of the file does not resolve. -/
theorem expr?_finish_eq (h : x.Records {} es a s)
    (hn : ∀ name, .referred id name none ∈ es → lastBound es name = none) :
    s.finish.expr? id = s.ast.expr? id := by
  by_cases hp : ∃ name, .referred id name none ∈ es
  · obtain ⟨name, hr⟩ := hp
    obtain ⟨expr, hexpr, hk⟩ := h.expr?_of_referred hr
    have hl : s.scopes.file.lookup name = none := by rw [h.lookup_scope, hn name hr]
    rw [State.expr?_finish, if_pos (h.mem_pending.mpr ⟨name, hr⟩), hexpr, Option.map_some,
      Expr.forward_of_lookup_eq_none hk hl]
  · exact h.expr?_finish_of_not_pending fun name hr => hp ⟨name, hr⟩

/-- A reference of a finished syntax tree is one that found a declaration when it was made, one that
is resolved by the scope of the file, or one for `self` or `super`. -/
theorem event_of_expr?_finish (h : x.Records {} es a s) {target : Option DeclId}
    (he : s.finish.expr? id = some expr) (hk : expr.kind = .declRef name target) :
    (.referred id name target ∈ es ∧ target.isSome) ∨
    (.referred id name none ∈ es ∧ target = lastBound es name) ∨
    ∃ t, isSelf t ∧ .selfReferred id t ∈ es ∧
      expr = ⟨.declRef (trim t.text) none, none, some t.span⟩ := by
  by_cases hp : ∃ other, .referred id other none ∈ es
  · obtain ⟨other, hr⟩ := hp
    obtain ⟨expr', he', hk'⟩ := h.expr?_finish_of_unresolved hr
    cases he.symm.trans he'
    obtain ⟨rfl, rfl⟩ : name = other ∧ target = lastBound es other := by simpa [hk] using hk'
    exact .inr (.inl ⟨hr, rfl⟩)
  · have hn : ∀ other, .referred id other none ∉ es := fun other hr => hp ⟨other, hr⟩
    rw [h.expr?_finish_of_not_pending hn] at he
    rcases h.event_of_expr?_file he hk with hr | hself
    · cases target with
      | none => exact absurd hr (hn name)
      | some d => exact .inl ⟨hr, rfl⟩
    · exact .inr (.inr hself)

end Lower.Records

/-- Forward references are complete and never rebind. When a file has been lowered, its journal
tells of each reference in the finished syntax tree what it refers to: what lexical lookup found
when the reference was made, or else the declaration that the scope of the file binds the name to
last, if any. Only the references for `self` and `super` are not looked up. The final pass changes
no expression but the references that it resolves, and nothing else. -/
theorem Tree.lower_forward (root : Tree) (hasParseErrors : Bool) :
    root.lower hasParseErrors = .error .equalsBeforeBinding ∨
    ∃ topLevel s es, (sourceFile (upTo root.height) root).Records {} es topLevel s ∧
      root.lower hasParseErrors = .ok { ast := s.finish, topLevel, hasParseErrors } ∧
      (∀ name, s.scopes.file.lookup name = lastBound es name) ∧
      (∀ id expr name, s.finish.expr? id = some expr → expr.kind = .declRef name none →
        lastBound es name = none ∨
        ∃ t ∈ root.subtrees, isSelf t ∧ .selfReferred id t ∈ es ∧
          expr = ⟨.declRef (trim t.text) none, none, some t.span⟩) ∧
      (∀ id name target, .referred id name (some target) ∈ es →
        ∃ expr, s.ast.expr? id = some expr ∧ s.finish.expr? id = some expr ∧
          expr.kind = .declRef name (some target)) ∧
      (∀ id name, .referred id name none ∈ es →
        ∃ expr, s.finish.expr? id = some expr ∧ expr.kind = .declRef name (lastBound es name)) ∧
      (∀ id expr name target, s.finish.expr? id = some expr →
        expr.kind = .declRef name (some target) →
        .referred id name (some target) ∈ es ∨
        .referred id name none ∈ es ∧ lastBound es name = some target) ∧
      (∀ id, (∀ name, .referred id name none ∈ es → lastBound es name = none) →
        s.finish.expr? id = s.ast.expr? id) ∧
      ∃ exprs, exprs.size = s.ast.exprs.size ∧ s.finish = { s.ast with exprs } := by
  have hroot : (Terms.under root).trees root := Tree.mem_subtrees_self root
  refine (Tree.lower_records hroot id hasParseErrors).imp id ?_
  rintro ⟨topLevel, s, es, h, within, -, hlower⟩
  refine ⟨topLevel, s, es, h, hlower, h.lookup_scope, fun id expr name he hk => ?_,
    fun _ _ _ => h.expr?_finish_of_resolved, fun _ _ => h.expr?_finish_of_unresolved,
    fun id expr name target he hk => ?_, fun _ => h.expr?_finish_eq, s.finish_eq⟩
  · rcases h.event_of_expr?_finish he hk with ⟨-, hs⟩ | ⟨-, hn⟩ | ⟨t, ht, hr, hexpr⟩
    · cases hs
    · exact .inl hn.symm
    · exact .inr ⟨t, within _ hr, ht, hr, hexpr⟩
  · rcases h.event_of_expr?_finish he hk with ⟨hr, -⟩ | ⟨hr, hn⟩ | ⟨t, -, -, rfl⟩
    · exact .inl hr
    · exact .inr ⟨hr, hn.symm⟩
    · simp at hk

/-- The tree of a file in which a name is used on the line before that of its declaration. -/
def Tree.usedBefore : Tree :=
  .bare "source_file" true "" [.bare "simple_identifier" true "x" [],
    .bare "property_declaration" true "" [.bare "let" false "let" [],
      .bare "simple_identifier" true "x" []]]

example : ((Tree.usedBefore.lower false).toOption.bind fun file =>
    (file.ast.expr? ⟨0⟩).map (·.kind)) = some (.declRef "x" (some ⟨0⟩)) := by
  decide +kernel

end SwiftRelations
