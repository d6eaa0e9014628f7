import SwiftRelations.Proofs.Lowering.AlikeItems
import SwiftRelations.Proofs.Lowering.File

/-!
# The lowering of trees ends

The rules for a tree are written over a lowering of other trees. They ask it for trees of less
height only, whatever falls back on whatever: so there is one lowering that follows the rules on
every tree, and the rules up to a height are that lowering on the trees of this height. It never
runs out of depth, neither on a tree nor on a run of siblings.
-/

namespace SwiftRelations

open Lowering Text

/-! ### Trees of less height -/

/-- Whether two trees are one, of less height than a bound. -/
def Tree.Shorter (height : Nat) (t u : Tree) : Prop := t = u ∧ t.height < height

namespace Tree

variable {t u : Tree} {ts : List Tree} {height : Nat}

private theorem thinned_shorter (h : ∀ t ∈ ts, t.height < height) :
    Thinned (Shorter height) ts ts := by
  induction ts with
  | nil => exact .nil
  | cons t ts ih =>
    obtain ⟨ht, hts⟩ := List.forall_mem_cons.mp h
    exact .keep ⟨rfl, ht⟩ (ih hts)

/-- What is seen of a tree has less height than the tree. -/
theorem alike_shorter (h : t.height ≤ height) : t.Alike (Shorter height) t where
  kind := rfl
  named := rfl
  field := rfl
  span := rfl
  text := rfl
  children := thinned_shorter fun u hu =>
    Nat.lt_of_lt_of_le (height_lt (mem_descendants_of_mem_children hu)) h
  childByField? name := by
    cases hf : t.childByField? name with
    | none => exact .none
    | some u =>
      have hu := height_lt (mem_descendants_of_childByField? hf)
      exact .some ⟨rfl, Nat.lt_of_lt_of_le hu h⟩

private theorem likeness_shorter (height : Nat) : Likeness (Shorter height) where
  alike := by
    rintro t _ ⟨rfl, h⟩
    exact alike_shorter (Nat.le_of_lt h)
  index := by
    rintro t _ t' _ ⟨rfl, -⟩ ⟨rfl, -⟩
    exact Iff.rfl

private theorem forall₂_shorter (h : ∀ t ∈ ts, t.height < height) :
    List.Forall₂ (Shorter height) ts ts :=
  List.forall₂_same.mpr fun t ht => ⟨rfl, h t ht⟩

/-- A tree of a list is no higher than the highest of them. -/
theorem height_le_heightOfAll (h : t ∈ ts) : t.height ≤ heightOfAll ts :=
  height_le_ofAll (mem_subtreesOfAll.mpr ⟨t, h, mem_subtrees_self t⟩)

end Tree

namespace Lowering

open SwiftRelations.Tree

variable {below below' : Below} {t : Tree} {ts : List Tree} {height : Nat}

/-! ### What the rules ask for -/

/-- The rules for all kinds of trees, over a lowering of the trees below. -/
def rules (below : Below) : Below where
  decl := declAt below
  stmt := stmtAt below
  expr := exprAt below
  pattern := patternAt below

/-- Whether two lowerings do the same with the trees of less height than a bound. -/
abbrev Below.AgreeUnder (height : Nat) (below below' : Below) : Prop :=
  below.Agree (Shorter height) below'

private theorem Below.AgreeUnder.symm (h : below.AgreeUnder height below') :
    below'.AgreeUnder height below := by
  refine ⟨?_, ?_, ?_, ?_⟩
  all_goals rintro t _ ⟨rfl, ht⟩
  · exact (h.decl ⟨rfl, ht⟩).symm
  · exact (h.stmt ⟨rfl, ht⟩).symm
  · exact (h.expr ⟨rfl, ht⟩).symm
  · exact (h.pattern ⟨rfl, ht⟩).symm

private theorem Below.AgreeUnder.trans {other : Below} (h : below.AgreeUnder height below')
    (h' : below'.AgreeUnder height other) : below.AgreeUnder height other := by
  refine ⟨?_, ?_, ?_, ?_⟩
  all_goals rintro t _ ⟨rfl, ht⟩
  · exact (h.decl ⟨rfl, ht⟩).trans (h'.decl ⟨rfl, ht⟩)
  · exact (h.stmt ⟨rfl, ht⟩).trans (h'.stmt ⟨rfl, ht⟩)
  · exact (h.expr ⟨rfl, ht⟩).trans (h'.expr ⟨rfl, ht⟩)
  · exact (h.pattern ⟨rfl, ht⟩).trans (h'.pattern ⟨rfl, ht⟩)

private theorem Below.AgreeUnder.mono {lower : Nat} (h : below.AgreeUnder height below')
    (hl : lower ≤ height) : below.AgreeUnder lower below' := by
  refine ⟨?_, ?_, ?_, ?_⟩
  all_goals rintro t _ ⟨rfl, ht⟩
  · exact h.decl ⟨rfl, Nat.lt_of_lt_of_le ht hl⟩
  · exact h.stmt ⟨rfl, Nat.lt_of_lt_of_le ht hl⟩
  · exact h.expr ⟨rfl, Nat.lt_of_lt_of_le ht hl⟩
  · exact h.pattern ⟨rfl, Nat.lt_of_lt_of_le ht hl⟩

/-- The rules for a tree ask for nothing but trees of less height. -/
theorem rules_agreeUnder (hb : below.AgreeUnder height below') :
    (rules below).AgreeUnder (height + 1) (rules below') := by
  have L := likeness_shorter height
  have hA : ∀ {t u}, Shorter (height + 1) t u → t.Alike (Shorter height) u := by
    rintro t _ ⟨rfl, ht⟩
    exact alike_shorter (Nat.le_of_lt_succ ht)
  exact ⟨fun ht => declAt_alike L hb (hA ht), fun ht => stmtAt_alike L hb (hA ht),
    fun ht => exprAt_alike L hb (hA ht), fun ht => patternAt_alike L hb (hA ht)⟩

/-- The rules for a run of siblings ask for nothing but the siblings and what is below them. -/
theorem runs_congr (hb : below.AgreeUnder (heightOfAll ts + 1) below') :
    condition below ts = condition below' ts ∧ patternRun below ts = patternRun below' ts :=
  have L := likeness_shorter (heightOfAll ts + 1)
  have hts := forall₂_shorter fun _ ht => Nat.lt_succ_of_le (height_le_heightOfAll ht)
  ⟨condition_alike L hb hts, patternRun_alike L hb hts⟩

/-- No tree has no height. -/
theorem Below.agreeUnder_one (below below' : Below) : below.AgreeUnder 1 below' := by
  have hnone : ∀ {t u}, ¬ Shorter 1 t u := by
    rintro t _ ⟨rfl, ht⟩
    have hpos := t.height_pos
    omega
  exact ⟨(absurd · hnone), (absurd · hnone), (absurd · hnone), (absurd · hnone)⟩

/-- Lowerings that do the same with the trees of every height are one. -/
theorem Below.eq_of_agreeUnder (h : ∀ height, below.AgreeUnder (height + 1) below') :
    below = below' := by
  have hself : ∀ t, Shorter (t.height + 1) t t := fun t => ⟨rfl, Nat.lt_succ_self _⟩
  rw [Below.mk.injEq]
  exact ⟨funext fun t => (h _).decl (hself t), funext fun t => (h _).stmt (hself t),
    funext fun t => (h _).expr (hself t), funext fun t => (h _).pattern (hself t)⟩

/-! ### The lowering of all trees -/

/-- The lowering of every tree by the rules up to its height. -/
def full : Below where
  decl t := (upTo t.height).decl t
  stmt t := (upTo t.height).stmt t
  expr t := (upTo t.height).expr t
  pattern t := (upTo t.height).pattern t

/-- How much more depth is allowed for than the height of a tree does not matter. By induction on
the height: the same rules are over rules that do the same with the trees below. -/
theorem upTo_agreeUnder {m n : Nat} (hm : height ≤ m) (hn : height ≤ n) :
    (upTo m).AgreeUnder (height + 1) (upTo n) := by
  induction height generalizing m n with
  | zero => exact Below.agreeUnder_one _ _
  | succ height ih =>
    obtain ⟨m, rfl⟩ : ∃ k, m = k + 1 := ⟨m - 1, by omega⟩
    obtain ⟨n, rfl⟩ : ∃ k, n = k + 1 := ⟨n - 1, by omega⟩
    exact rules_agreeUnder (ih (Nat.le_of_succ_le_succ hm) (Nat.le_of_succ_le_succ hn))

/-- The rules up to a height are the lowering of all trees, on the trees of this height. -/
theorem upTo_agreeUnder_full (height : Nat) : (upTo height).AgreeUnder (height + 1) full := by
  have hb : ∀ {t : Tree}, t.height < height + 1 →
      (upTo height).AgreeUnder (t.height + 1) (upTo t.height) :=
    fun ht => upTo_agreeUnder (Nat.le_of_lt_succ ht) (Nat.le_refl _)
  refine ⟨?_, ?_, ?_, ?_⟩
  all_goals rintro t _ ⟨rfl, ht⟩
  · exact (hb ht).decl ⟨rfl, Nat.lt_succ_self _⟩
  · exact (hb ht).stmt ⟨rfl, Nat.lt_succ_self _⟩
  · exact (hb ht).expr ⟨rfl, Nat.lt_succ_self _⟩
  · exact (hb ht).pattern ⟨rfl, Nat.lt_succ_self _⟩

/-- The lowering of all trees follows the rules over itself. -/
theorem rules_full : rules full = full := by
  refine Below.eq_of_agreeUnder fun height => ?_
  have hrules : (upTo (height + 1)).AgreeUnder (height + 1 + 1) (rules full) :=
    rules_agreeUnder (upTo_agreeUnder_full height)
  exact (hrules.symm.trans (upTo_agreeUnder_full (height + 1))).mono (Nat.le_succ _)

/-- No other lowering does. By induction on the height of the trees. -/
theorem eq_full_of_rules_eq (h : rules below = below) : below = full := by
  refine Below.eq_of_agreeUnder fun height => ?_
  induction height with
  | zero => exact Below.agreeUnder_one _ _
  | succ height ih =>
    rw [← h, ← rules_full]
    exact rules_agreeUnder ih

/-! ### No lack of depth -/

/-- On trees of any height the lowering of all trees makes what it should. -/
theorem full_sound (height : Nat) : full.Sound (.all False) height := by
  have hdepth : ∀ {t : Tree}, (Terms.all False).Admits t.height t := ⟨trivial, .inr (Nat.le_refl _)⟩
  exact ⟨fun _ => (upTo_sound _ _).decl hdepth, fun _ => (upTo_sound _ _).stmt hdepth,
    fun _ => (upTo_sound _ _).expr hdepth, fun _ => (upTo_sound _ _).pattern hdepth⟩

/-- What makes nodes out of trees that are admitted has depth enough. -/
theorem ne_tooDeep {α : Type} {x : Lower α} {post : α → List Node}
    (h : x.Builds (.all False) [] [] post) (s : State) : x s ≠ .error .tooDeep :=
  (h s (Ast.unfinished_nil _)).depth

/-- The lowering of all trees has depth enough for each of them. -/
theorem full_ends (t : Tree) (s : State) :
    full.decl t s ≠ .error .tooDeep ∧ full.stmt t s ≠ .error .tooDeep ∧
      full.expr t s ≠ .error .tooDeep ∧
      (∀ binding, full.pattern t binding s ≠ .error .tooDeep) ∧
      full.item t s ≠ .error .tooDeep ∧ full.items t s ≠ .error .tooDeep := by
  have hb := full_sound t.height
  have ht : (Terms.all False).Admits t.height t := ⟨trivial, .inr (Nat.le_refl _)⟩
  exact ⟨ne_tooDeep (hb.decl ht) s, ne_tooDeep (hb.stmt ht) s, ne_tooDeep (hb.expr ht) s,
    fun _ => ne_tooDeep (hb.pattern ht) s, ne_tooDeep (item_builds hb ht) s,
    ne_tooDeep (items_builds hb ht.succ) s⟩

/-- It has depth enough for each run of siblings. -/
theorem runs_end (ts : List Tree) (s : State) :
    condition full ts s ≠ .error .tooDeep ∧
      ∀ binding, patternRun full ts binding s ≠ .error .tooDeep := by
  have hb := full_sound (heightOfAll ts)
  have hts : ∀ t ∈ ts, (Terms.all False).Admits (heightOfAll ts) t := fun t ht =>
    ⟨trivial, .inr (height_le_heightOfAll ht)⟩
  exact ⟨ne_tooDeep (condition_builds hb hts) s,
    fun _ => ne_tooDeep (patternRun_builds hb hts) s⟩

/-- A file is lowered by the lowering of all trees. -/
theorem sourceFile_upTo_height (root : Tree) :
    sourceFile (upTo root.height) root = sourceFile full root :=
  sourceFile_alike (likeness_shorter root.height)
    ((upTo_agreeUnder_full root.height).mono (Nat.le_succ _)) (alike_shorter (Nat.le_refl _))

/-- The mutual recursion of the rules ends. The rules for a tree ask for trees of less height, and
those for a run of siblings for the siblings and what is below them. So one lowering follows the
rules over itself, and a depth of the height of a tree is enough to find what it does. Whatever was
made before, it comes to an end on every tree and on every run of siblings, and a file is lowered
by it. -/
theorem recursion_ends :
    (∀ (height : Nat) (below below' : Below), below.AgreeUnder height below' →
      (rules below).AgreeUnder (height + 1) (rules below')) ∧
    (∀ (ts : List Tree) (below below' : Below), below.AgreeUnder (heightOfAll ts + 1) below' →
      condition below ts = condition below' ts ∧ patternRun below ts = patternRun below' ts) ∧
    (∀ below : Below, rules below = below ↔ below = full) ∧
    (∀ height : Nat, (upTo height).AgreeUnder (height + 1) full) ∧
    (∀ (t : Tree) (s : State),
      full.decl t s ≠ .error .tooDeep ∧ full.stmt t s ≠ .error .tooDeep ∧
        full.expr t s ≠ .error .tooDeep ∧
        (∀ binding, full.pattern t binding s ≠ .error .tooDeep) ∧
        full.item t s ≠ .error .tooDeep ∧ full.items t s ≠ .error .tooDeep) ∧
    (∀ (ts : List Tree) (s : State),
      condition full ts s ≠ .error .tooDeep ∧
        ∀ binding, patternRun full ts binding s ≠ .error .tooDeep) ∧
    ∀ root : Tree, sourceFile (upTo root.height) root = sourceFile full root := by
  refine ⟨fun _ _ _ => rules_agreeUnder, fun _ _ _ => runs_congr, fun below => ?_,
    upTo_agreeUnder_full, full_ends, runs_end, sourceFile_upTo_height⟩
  constructor
  · exact eq_full_of_rules_eq
  · rintro rfl
    exact rules_full

end Lowering

end SwiftRelations
