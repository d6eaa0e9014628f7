import SwiftRelations.Proofs.Lowering.Journal

/-!
# References in a journal

Each reference of a syntax tree is told of by the journal of the lowering that made it, and the
references that stay pending and the names that the scope of the file binds are read off the
journal. The final pass resolves what is pending and leaves everything else as it is.
-/

namespace SwiftRelations

open Lowering Text

/-! ### What a journal tells -/

namespace Lowering

/-- The reference that found no declaration, if the event is one. -/
def Event.unresolved? : Event → Option ExprId
  | .referred ref _ none => some ref
  | _ => none

/-- The declaration that a name is bound to in the scope of the file, if the event is that. -/
def Event.boundInFile? (name : String) : Event → Option DeclId
  | .bound true other decl => if other = name then some decl else none
  | _ => none

/-- The declaration that a name is bound to last in the scope of the file. -/
def lastBound (es : List Event) (name : String) : Option DeclId :=
  (es.filterMap (Event.boundInFile? name)).getLast?

private theorem lastBound_append (es es' : List Event) (name : String) :
    lastBound (es ++ es') name = (lastBound es' name).or (lastBound es name) := by
  rw [lastBound, List.filterMap_append, List.getLast?_append]
  rfl

/-- Binding a name in the scope of the file hides what the name was bound to before. -/
theorem Scopes.lookup_bind (scopes : Scopes) (name other : String) (decl : DeclId) :
    (scopes.bind name decl).file.lookup other =
      (lastBound (scopes.bindingEvents name decl) other).or (scopes.file.lookup other) := by
  obtain ⟨nested, file⟩ := scopes
  unfold bind bindingEvents
  split
  case isTrue => rfl
  case isFalse =>
    cases nested with
    | nil =>
      by_cases h : name = other
      · simp [lastBound, Event.boundInFile?, h]
      · have hb : (other == name) = false := by simpa using Ne.symm h
        simp [lastBound, Event.boundInFile?, List.lookup_cons, h, hb]
    | cons scope nested => rfl

/-- What a name stands for that is bound tells of no reference. -/
theorem Scopes.unresolved?_bindingEvents (scopes : Scopes) (name : String) (decl : DeclId) :
    (scopes.bindingEvents name decl).filterMap Event.unresolved? = [] := by
  unfold bindingEvents
  split <;> rfl

end Lowering

namespace Lower.Records

variable {α : Type} {x : Lower α} {s s' : State} {es : List Event} {a : α}

/-- In the scope of the file a name is bound to the declaration it was bound to last. -/
theorem lookup_file (h : x.Records s es a s') (name : String) :
    s'.scopes.file.lookup name = (lastBound es name).or (s.scopes.file.lookup name) := by
  induction h with
  | bind _ _ ihx ihf => rw [ihf, ihx, lastBound_append, Option.or_assoc]
  | introduce kind span other s => exact s.scopes.lookup_bind other name _
  | inScope _ ih =>
    rw [lastBound_append]
    exact ih
  | _ => rfl

/-- The references stay pending that found no declaration. -/
theorem pending_eq (h : x.Records s es a s') :
    s'.pending = s.pending ++ es.filterMap Event.unresolved? := by
  induction h with
  | bind _ _ ihx ihf => rw [ihf, ihx, List.filterMap_append, List.append_assoc]
  | declRef t name s => cases hf : s.scopes.find? name <;> simp [State.refer, hf, Event.unresolved?]
  | introduce kind span name s =>
    rw [Scopes.unresolved?_bindingEvents, List.append_nil]
    rfl
  | inScope _ ih =>
    rw [List.filterMap_append, ← List.append_assoc]
    exact ih.trans (List.append_nil _).symm
  | _ => exact (List.append_nil _).symm

end Lower.Records

/-- After an expression is added, it stands last and the others stand where they stood. -/
theorem Ast.expr?_addExpr (ast : Ast) (kind : ExprKind) (type : Option TypeId)
    (span : Option Span) (id : ExprId) :
    (ast.addExpr kind type span).2.expr? id =
      if id = ⟨ast.exprs.size⟩ then some { kind, type, span } else ast.expr? id := by
  obtain ⟨index⟩ := id
  simp [Ast.expr?, Ast.addExpr, Array.getElem?_push]

namespace Lower.Records

variable {α : Type} {x : Lower α} {s s' : State} {es : List Event} {a : α} {id : ExprId}
  {expr : Expr} {name : String} {target : Option DeclId}

/-- A reference that a journal tells of is in the syntax tree. -/
theorem expr?_of_referred (h : x.Records s es a s') (he : .referred id name target ∈ es) :
    ∃ expr, s'.ast.expr? id = some expr ∧ expr.kind = .declRef name target := by
  induction h with
  | bind hx hf ihx ihf =>
    rcases List.mem_append.mp he with he | he
    · obtain ⟨expr, hexpr, hk⟩ := ihx he
      exact ⟨expr, hf.precedes.exprs id expr hexpr, hk⟩
    · exact ihf he
  | declRef t other s =>
    obtain ⟨rfl, rfl, rfl⟩ : id = ⟨s.ast.exprs.size⟩ ∧ name = other ∧
        target = s.scopes.find? other := by simpa using he
    exact ⟨_, (s.ast.expr?_addExpr _ _ _ _).trans (if_pos rfl), rfl⟩
  | introduce kind span other s =>
    unfold Scopes.bindingEvents at he
    split at he <;> simp at he
  | inScope _ ih => exact ih (by simpa using he)
  | selfRef t s ht => simp at he
  | _ => cases he

/-- A reference in the syntax tree was there before, or the journal tells of it. -/
theorem event_of_expr? (h : x.Records s es a s') (he : s'.ast.expr? id = some expr)
    (hk : expr.kind = .declRef name target) :
    s.ast.expr? id = some expr ∨ .referred id name target ∈ es ∨
      ∃ t, isSelf t ∧ .selfReferred id t ∈ es ∧
        expr = ⟨.declRef (trim t.text) none, none, some t.span⟩ := by
  induction h with
  | bind hx hf ihx ihf =>
    rcases ihf he with he | he | ⟨t, ht, he, hexpr⟩
    · rcases ihx he with he | he | ⟨t, ht, he, hexpr⟩
      · exact .inl he
      · exact .inr (.inl (List.mem_append_left _ he))
      · exact .inr (.inr ⟨t, ht, List.mem_append_left _ he, hexpr⟩)
    · exact .inr (.inl (List.mem_append_right _ he))
    · exact .inr (.inr ⟨t, ht, List.mem_append_right _ he, hexpr⟩)
  | onAst f s decls size exprs => exact .inl (by simpa only [Ast.expr?, exprs] using he)
  | addExpr kind type span s plain =>
    rw [State.addExpr, Ast.expr?_addExpr] at he
    split at he
    · cases he
      exact absurd hk (plain name target)
    · exact .inl he
  | selfRef t s ht =>
    rw [State.addExpr, Ast.expr?_addExpr] at he
    split at he
    case isTrue hid =>
      cases he
      exact .inr (.inr ⟨t, ht, by simp [hid], rfl⟩)
    case isFalse => exact .inl he
  | declRef t other s =>
    rw [State.refer, Ast.expr?_addExpr] at he
    split at he
    case isTrue hid =>
      cases he
      obtain ⟨rfl, rfl⟩ : other = name ∧ s.scopes.find? other = target := by simpa using hk
      exact .inr (.inl (by simp [hid]))
    case isFalse => exact .inl he
  | inScope _ ih =>
    rcases ih he with he | he | ⟨t, ht, he, hexpr⟩
    · exact .inl he
    · exact .inr (.inl (List.mem_append_left _ he))
    · exact .inr (.inr ⟨t, ht, List.mem_append_left _ he, hexpr⟩)
  | _ => exact .inl he

end Lower.Records

/-! ### The final pass -/

/-- An expression as the final pass leaves it. -/
def Expr.forward (expr : Expr) (ast : Ast) (file : Scope) : Expr :=
  match expr.forwardTarget? file with
  | some target => expr.referTo target (ast.statedType? target)
  | none => expr

/-- What is resolved is not resolved again. -/
theorem Expr.forward_forward (expr : Expr) (ast : Ast) (file : Scope) :
    (expr.forward ast file).forward ast file = expr.forward ast file := by
  obtain ⟨kind, type, span⟩ := expr
  unfold forward
  cases h : forwardTarget? ⟨kind, type, span⟩ file with
  | none => simp only [h]
  | some target =>
    unfold forwardTarget? at h
    split at h
    case h_1 name hk =>
      obtain rfl : kind = .declRef name none := hk
      rfl
    case h_2 => cases h

namespace Ast

variable (ast : Ast) (file : Scope)

/-- Resolving a reference changes the arena of expressions alone. -/
theorem resolveForward_eq (id : ExprId) :
    ∃ exprs, exprs.size = ast.exprs.size ∧ ast.resolveForward file id = { ast with exprs } := by
  unfold resolveForward
  split
  · exact ⟨_, by simp, rfl⟩
  · exact ⟨ast.exprs, rfl, rfl⟩

/-- Resolving a reference changes this expression alone. -/
theorem expr?_resolveForward (id other : ExprId) :
    (ast.resolveForward file id).expr? other =
      if other = id then (ast.expr? id).map (·.forward ast file) else ast.expr? other := by
  rw [resolveForward]
  cases ht : (ast.expr? id).bind (·.forwardTarget? file) with
  | none =>
    have hsame : (ast.expr? id).map (·.forward ast file) = ast.expr? id := by
      cases he : ast.expr? id with
      | none => rfl
      | some expr =>
        rw [he, Option.bind_some] at ht
        rw [Option.map_some, Expr.forward, ht]
    rw [hsame]
    by_cases h : other = id
    · rw [h, if_pos rfl]
    · rw [if_neg h]
  | some target =>
    obtain ⟨expr, he, ht⟩ := Option.bind_eq_some_iff.mp ht
    have hexpr : ast.exprs[id.index]? = some expr := he
    rw [he, Option.map_some, Expr.forward, ht, expr?, Array.getElem?_modify]
    by_cases h : other = id
    · rw [if_pos h, h, if_pos rfl, hexpr, Option.map_some]
    · have hi : id.index ≠ other.index := fun hi => h (congrArg ExprId.mk hi.symm)
      rw [if_neg h, if_neg hi, expr?]

end Ast

namespace Lowering.State

/-- The final pass changes the arena of expressions alone. -/
theorem finish_eq (s : State) :
    ∃ exprs, exprs.size = s.ast.exprs.size ∧ s.finish = { s.ast with exprs } := by
  unfold finish
  generalize s.pending = ids
  generalize s.ast = ast
  induction ids generalizing ast with
  | nil => exact ⟨ast.exprs, rfl, rfl⟩
  | cons id ids ih =>
    obtain ⟨exprs, hs, he⟩ := ast.resolveForward_eq s.scopes.file id
    obtain ⟨exprs', hs', he'⟩ := ih (ast.resolveForward s.scopes.file id)
    rw [he] at hs' he'
    exact ⟨exprs', hs'.trans hs, by rw [List.foldl_cons, he, he']⟩

/-- The final pass resolves the pending references and leaves other expressions alone. -/
theorem expr?_finish (s : State) (id : ExprId) :
    s.finish.expr? id =
      if id ∈ s.pending then (s.ast.expr? id).map (·.forward s.ast s.scopes.file)
      else s.ast.expr? id := by
  unfold finish
  generalize s.pending = ids
  generalize s.ast = ast
  induction ids generalizing ast with
  | nil => simp
  | cons first ids ih =>
    obtain ⟨exprs, -, he⟩ := ast.resolveForward_eq s.scopes.file first
    -- The declarations are the same all the time.
    have hforward : (fun expr : Expr => expr.forward (ast.resolveForward s.scopes.file first)
        s.scopes.file) = (·.forward ast s.scopes.file) := by
      rw [he]
      rfl
    rw [List.foldl_cons, ih, hforward, Ast.expr?_resolveForward]
    by_cases hf : id = first
    · subst hf
      by_cases hm : id ∈ ids <;> simp [hm, Function.comp_def, Expr.forward_forward]
    · simp [hf]

end Lowering.State

end SwiftRelations
