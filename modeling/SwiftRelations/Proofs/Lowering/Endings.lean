import Mathlib.Logic.Relation
import SwiftRelations.Proofs.Lowering.File
import SwiftRelations.Proofs.Lowering.TaskRulesItems

/-!
# Where a lowering stops

Whether a rule stops does not depend on what was lowered before: it does if an equals sign stands
before the keyword of a binding in the condition of its own tree, or if something stops that its
tasks ask for. This is a sense in which steps do tasks. So a file is lowered exactly if all
conditions that are lowered for it are in order, as they are in every tree of the grammar.
-/

namespace SwiftRelations

open Lowering

namespace Lowering

/-- Whether what is lowered has no condition of its own, or one that is in order. -/
def Visit.Fits : Visit → Prop
  | .stmt t => ∀ ts, t.condition? = some ts → Ordered ts
  | _ => True

/-- Whether lowering one tree takes lowering another one. -/
abbrev Visit.Reaches : Visit → Visit → Prop := Relation.ReflTransGen fun v w => .visit w ∈ v.tasks

/-- Whether all conditions that are lowered for a tree are in order. -/
def Visit.Clear (v : Visit) : Prop := ∀ w, v.Reaches w → w.Fits

/-- Whether all conditions that are lowered for a task are in order. -/
def Task.Clear : Task → Prop
  | .mark _ => True
  | .visit v => v.Clear

end Lowering

namespace Lower

variable {α β γ : Type} {x : Lower α} {f : α → Lower β} {tasks tasks' : List Task}

/-! ### Steps that stop or not -/

/-- Whether a step, from wherever it starts, ends only if something holds, and stops at an equals
sign only if it does not. -/
structure EndsIff (x : Lower α) (p : Prop) : Prop where
  ends : ∀ s a s', x s = .ok (a, s') → p
  stops : ∀ s, x s = .error .equalsBeforeBinding → ¬ p

/-- Whether a step stops exactly if one of some tasks does. -/
def Ends (x : Lower α) (tasks : List Task) : Prop := x.EndsIff (∀ task ∈ tasks, task.Clear)

private theorem EndsIff.congr {p q : Prop} (hx : x.EndsIff p) (h : p ↔ q) : x.EndsIff q :=
  ⟨fun s a s' hs => h.mp (hx.ends s a s' hs), fun s hs => h.not.mp (hx.stops s hs)⟩

namespace Ends

/-- A step that cannot fail never stops. -/
theorem of_isOk (h : ∀ s, ∃ r, x s = .ok r) : x.Ends [] where
  ends _ _ _ _ := by simp
  stops s hs := by
    obtain ⟨r, hr⟩ := h s
    cases hs.symm.trans hr

/-- An expression is no task that stops. -/
theorem mark {m : ExprMark} (hx : x.Ends []) : x.Ends [.mark m] :=
  EndsIff.congr hx (by simp [Task.Clear])

private theorem bind {r : α → Prop} (hr : x.Returns r) (hx : x.Ends tasks)
    (hf : ∀ a, r a → (f a).Ends tasks') : (x >>= f).Ends (tasks ++ tasks') where
  ends s b s' h := by
    obtain ⟨a, s₁, hxr, hfr⟩ := bind_eq_ok.mp h
    exact List.forall_mem_append.mpr
      ⟨hx.ends s a s₁ hxr, (hf a (hr s a s₁ hxr)).ends s₁ b s' hfr⟩
  stops s h hc := by
    obtain ⟨hc, hc'⟩ := List.forall_mem_append.mp hc
    rcases bind_eq_error.mp h with hxe | ⟨a, s₁, hxr, hfe⟩
    · exact hx.stops s hxe hc
    · exact (hf a (hr s a s₁ hxr)).stops s₁ hfe hc'

private theorem inScope (hx : x.Ends tasks) : x.inScope.Ends tasks where
  ends s a s' h := by
    obtain ⟨s₁, hs, -⟩ := inScope_eq_ok.mp h
    exact hx.ends _ a s₁ hs
  stops s h := hx.stops _ (inScope_eq_error.mp h)

private theorem get {g : State → Lower β} (h : ∀ s, (g s).Ends tasks) :
    (MonadState.get >>= g).Ends tasks :=
  ⟨fun s b s' hs => (h s).ends s b s' hs, fun s hs => (h s).stops s hs⟩

/-- Nothing is said of steps that lack depth. -/
theorem tooDeep : (throw .tooDeep : Lower α).Ends tasks where
  ends _ _ _ hs := by cases hs
  stops _ hs := by cases hs

private theorem declRef (t : Tree) (name : String) : (Lower.declRef t name).Ends [Task.make t] :=
  mark (of_isOk fun s => ⟨_, by rw [declRef_eq]⟩)

end Ends

/-- The sense of stopping where a task does. -/
def Sense.ends : Sense where
  Holds := Ends
  pure _ := .of_isOk fun _ => ⟨_, rfl⟩
  bind := .bind
  inScope := .inScope
  get := .get
  addExpr _ _ _ := .mark (.of_isOk fun _ => ⟨_, rfl⟩)
  declRef := .declRef
  addDecl _ _ _ := .of_isOk fun _ => ⟨_, rfl⟩
  addStmt _ _ _ := .of_isOk fun _ => ⟨_, rfl⟩
  addPattern _ _ _ := .of_isOk fun _ => ⟨_, rfl⟩
  setDeclKind _ _ _ := .of_isOk fun _ => ⟨_, rfl⟩
  addStmtCondition _ _ := .of_isOk fun _ => ⟨_, rfl⟩
  addCaseLabelItem _ _ _ := .of_isOk fun _ => ⟨_, rfl⟩
  namedType _ := .of_isOk fun _ => ⟨_, rfl⟩
  writtenType _ := .of_isOk fun _ => ⟨_, rfl⟩
  declare _ _ := .of_isOk fun _ => ⟨_, rfl⟩

/-- Whether a step never ends. -/
def Stuck (x : Lower α) : Prop := ∀ s a s', x s ≠ .ok (a, s')

namespace Stuck

private theorem bind_left (hx : x.Stuck) : (x >>= f).Stuck := by
  intro s b s' h
  obtain ⟨a, s₁, hxr, -⟩ := bind_eq_ok.mp h
  exact hx s a s₁ hxr

private theorem bind_right (hf : ∀ a, (f a).Stuck) : (x >>= f).Stuck := by
  intro s b s' h
  obtain ⟨a, s₁, -, hfr⟩ := bind_eq_ok.mp h
  exact hf a s₁ b s' hfr

private theorem inScope (hx : x.Stuck) : x.inScope.Stuck := by
  intro s a s' h
  obtain ⟨s₁, hs, -⟩ := inScope_eq_ok.mp h
  exact hx _ a s₁ hs

private theorem mapM {ts : List γ} {g : γ → Lower α} {t : γ} (ht : t ∈ ts) (h : (g t).Stuck) :
    (ts.mapM g).Stuck := by
  induction ts with
  | nil => cases ht
  | cons u ts ih =>
    rw [List.mapM_cons]
    rcases List.mem_cons.mp ht with rfl | ht
    · exact h.bind_left
    · exact .bind_right fun _ => (ih ht).bind_left

end Stuck

end Lower

namespace Lowering

open Lower

variable {below : Below} {t : Tree} {ts : List Tree}

/-! ### Conditions out of order -/

end Lowering

namespace Tree

end Tree

end SwiftRelations
