import SwiftRelations.Proofs.Lowering.Journal

/-!
# Scopes

A step binds names in the innermost scope and does nothing else to the scopes; the scope that it is
made in is left as it was entered, but for these names.
-/

namespace SwiftRelations

open Text

namespace Lowering

/-! ### Scopes -/

namespace Scopes

variable {scopes scopes₁ scopes₂ : Scopes} {name : String} {decl : DeclId}

/-- The scope in which names are bound. -/
def innermost (scopes : Scopes) : Scope := scopes.nested.head?.getD scopes.file

/-- The scopes around the innermost one, that of the file last. -/
def outer (scopes : Scopes) : List Scope := (scopes.nested ++ [scopes.file]).tail

/-- The bindings of all scopes, those included that are hidden by others. -/
def bindings (scopes : Scopes) : List (String × DeclId) := scopes.nested.flatten ++ scopes.file

/-- Whether nothing was done to some scopes but to bind names in the innermost one. -/
structure Grows (before after : Scopes) : Prop where
  depth : after.nested.length = before.nested.length
  outer : after.outer = before.outer
  innermost : before.innermost <:+ after.innermost

/-- Nothing is done to scopes that stay as they are. -/
theorem Grows.refl (scopes : Scopes) : scopes.Grows scopes := ⟨rfl, rfl, List.suffix_refl _⟩

/-- Names may be bound twice in the innermost scope. -/
theorem Grows.trans (h : scopes.Grows scopes₁) (h' : scopes₁.Grows scopes₂) :
    scopes.Grows scopes₂ :=
  ⟨h'.depth.trans h.depth, h'.outer.trans h.outer, h.innermost.trans h'.innermost⟩

private theorem grows_bind (scopes : Scopes) (name : String) (decl : DeclId) :
    scopes.Grows (scopes.bind name decl) := by
  obtain ⟨nested, file⟩ := scopes
  unfold bind
  split
  case isTrue => exact .refl _
  case isFalse =>
    cases nested with
    | nil => exact ⟨rfl, rfl, List.suffix_cons _ _⟩
    | cons scope nested => exact ⟨rfl, rfl, List.suffix_cons _ _⟩

/-- When the scope is closed that was innermost, the others are as they were before it. -/
theorem Grows.leave (h : scopes.enter.Grows scopes₁) : scopes₁.leave = scopes := by
  obtain ⟨nested, file⟩ := scopes
  obtain ⟨nested₁, file₁⟩ := scopes₁
  cases nested₁ with
  | nil => simpa [enter] using h.depth
  | cons scope nested₁ =>
    obtain ⟨rfl, hf⟩ := List.append_inj' h.outer rfl
    cases List.singleton_inj.mp hf
    rfl

/-- A binding is made for the name of a declaration, if it has one. -/
theorem mem_bindings_bind {b : String × DeclId} (h : b ∈ (scopes.bind name decl).bindings) :
    b ∈ scopes.bindings ∨ b = (name, decl) ∧ name ≠ "" ∧ name ≠ "_" := by
  obtain ⟨nested, file⟩ := scopes
  unfold bind at h
  split at h
  case isTrue => exact .inl h
  case isFalse hname =>
    cases nested <;>
      simp only [bindings, List.flatten_nil, List.nil_append, List.flatten_cons, List.cons_append,
        List.mem_cons, List.append_assoc] at h ⊢ <;>
      exact h.symm.imp id fun h => ⟨h, not_or.mp hname⟩

/-- What a scope binds a name to is one of its bindings. -/
theorem mem_of_lookup {scope : Scope} (h : scope.lookup name = some decl) :
    (name, decl) ∈ scope := by
  obtain ⟨before, after, rfl, -⟩ := List.lookup_eq_some_iff.mp h
  simp

/-- A name is resolved to a declaration that is bound to it. -/
theorem mem_bindings_of_find? (h : scopes.find? name = some decl) :
    (name, decl) ∈ scopes.bindings := by
  rw [bindings, List.mem_append]
  unfold find? at h
  cases hn : scopes.nested.findSome? (·.lookup name) with
  | none => exact .inr (mem_of_lookup (by simpa [hn] using h))
  | some found =>
    obtain rfl : found = decl := by simpa [hn] using h
    obtain ⟨scope, hs, hd⟩ := List.exists_of_findSome?_eq_some hn
    exact .inl (List.mem_flatten.mpr ⟨scope, hs, mem_of_lookup hd⟩)

end Scopes

end Lowering

open Lowering

/-! ### Journals and scopes -/

namespace Lower.Records

variable {α : Type} {x : Lower α} {s s' : State} {es : List Event} {a : α}

/-- A step binds names in the innermost scope and leaves the others alone. -/
theorem grows (h : x.Records s es a s') : s.scopes.Grows s'.scopes := by
  induction h with
  | bind _ _ ihx ihf => exact ihx.trans ihf
  | introduce kind span name s => exact s.scopes.grows_bind name _
  | inScope _ ih =>
    rw [Scopes.Grows.leave ih]
    exact .refl _
  | _ => exact .refl _

/-- A step closes no scope that was open before it, and the scope of the file never. -/
theorem depth_lt (h : x.Records s es a s') {scope : ClosedScope} (hc : .closed scope ∈ es) :
    s.scopes.nested.length < scope.depth := by
  induction h with
  | bind hx _ ihx ihf =>
    rcases List.mem_append.mp hc with hc | hc
    · exact ihx hc
    · have hlt := ihf hc
      rwa [hx.grows.depth] at hlt
  | selfRef t s ht => simp at hc
  | declRef t name s => simp at hc
  | introduce kind span name s =>
    unfold Scopes.bindingEvents at hc
    split at hc <;> simp at hc
  | inScope hx ih =>
    rcases List.mem_append.mp hc with hc | hc
    · exact Nat.lt_of_succ_lt (ih hc)
    · cases List.mem_singleton.mp hc
      rw [hx.grows.depth]
      exact Nat.lt_succ_self _
  | _ => cases hc

end Lower.Records

end SwiftRelations
