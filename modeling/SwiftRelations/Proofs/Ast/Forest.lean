import Mathlib.Algebra.BigOperators.Group.Finset.Basic
import Mathlib.Algebra.Order.BigOperators.Group.Finset
import Mathlib.Data.Multiset.Count
import Mathlib.Logic.Relation

/-!
# Forests

A forest is given by its nodes, the parts of each node, and the roots. Each node stands in exactly
one place: it is a root once or a part of one node once. A forest grows by nodes whose parts were
roots before, and this is the only way a file's nodes come about.
-/

namespace SwiftRelations

variable {κ : Type} [DecidableEq κ]

/-- Whether a node has another among its parts. -/
def PartOf (nodes : Finset κ) (parts : κ → Multiset κ) (parent child : κ) : Prop :=
  parent ∈ nodes ∧ child ∈ parts parent

/-- The parts of some nodes count a part of one of them. -/
theorem PartOf.one_le_sum {nodes : Finset κ} {parts : κ → Multiset κ} {p k : κ}
    (h : PartOf nodes parts p k) : 1 ≤ ∑ q ∈ nodes, (parts q).count k :=
  calc 1 ≤ (parts p).count k := Multiset.count_pos.mpr h.2
    _ ≤ ∑ q ∈ nodes, (parts q).count k :=
      Finset.single_le_sum (f := fun q => (parts q).count k) (fun _ _ => Nat.zero_le _) h.1

/-- Each node is a root once or a part of one node once, nothing else is a root or a part, and the
nodes are those that the roots are made of. -/
structure Forest (nodes : Finset κ) (parts : κ → Multiset κ) (roots : Multiset κ) : Prop where
  once : ∀ k, roots.count k + ∑ p ∈ nodes, (parts p).count k = if k ∈ nodes then 1 else 0
  reached : ∀ k ∈ nodes, ∃ root ∈ roots, Relation.ReflTransGen (PartOf nodes parts) root k

namespace Forest

variable {nodes : Finset κ} {parts parts' : κ → Multiset κ} {roots : Multiset κ} {k p q : κ}

/-- Without nodes there is nothing to reach. -/
theorem empty (parts : κ → Multiset κ) : Forest ∅ parts 0 where
  once k := by simp
  reached k hk := by simp at hk

/-- Only the parts of the nodes matter. -/
theorem congr (h : Forest nodes parts roots) (same : ∀ p ∈ nodes, parts' p = parts p) :
    Forest nodes parts' roots where
  once k := by
    rw [← h.once k, Finset.sum_congr rfl fun p hp => by rw [same p hp]]
  reached k hk := by
    obtain ⟨root, hr, hp⟩ := h.reached k hk
    refine ⟨root, hr, Relation.ReflTransGen.mono ?_ _ _ hp⟩
    rintro a b ⟨ha, hb⟩
    exact ⟨ha, by rwa [same a ha]⟩

/-- A new node takes some roots for its parts and is a root in their place. -/
theorem insert (h : Forest nodes parts (parts' k + roots)) (hk : k ∉ nodes)
    (same : ∀ p ∈ nodes, parts' p = parts p) :
    Forest (insert k nodes) parts' ({k} + roots) where
  once x := by
    have ho := h.once x
    rw [Multiset.count_add] at ho
    rw [Finset.sum_insert hk, Finset.sum_congr rfl fun p hp => by rw [same p hp],
      Multiset.count_add, Multiset.count_singleton]
    by_cases hx : x = k
    · subst hx
      simp only [hk, if_false] at ho
      simp only [if_true, Finset.mem_insert_self]
      omega
    · simp only [Finset.mem_insert, hx, if_false, false_or]
      omega
  reached x hx := by
    have lift : ∀ a b, PartOf nodes parts a b → PartOf (Insert.insert k nodes) parts' a b :=
      fun a b hab => ⟨Finset.mem_insert_of_mem hab.1, by rw [same a hab.1]; exact hab.2⟩
    rcases Finset.mem_insert.mp hx with rfl | hx
    · exact ⟨x, by simp, .refl⟩
    · obtain ⟨root, hr, hp⟩ := h.reached x hx
      have hp := Relation.ReflTransGen.mono lift _ _ hp
      rcases Multiset.mem_add.mp hr with hr | hr
      · exact ⟨k, by simp, .head ⟨Finset.mem_insert_self k nodes, hr⟩ hp⟩
      · exact ⟨root, Multiset.mem_add.mpr (.inr hr), hp⟩

/-- What is part of a node is a node. -/
theorem mem_of_part (h : Forest nodes parts roots) (hp : PartOf nodes parts p k) : k ∈ nodes := by
  by_contra hk
  have ho := h.once k
  rw [if_neg hk] at ho
  have hs := hp.one_le_sum
  omega

/-- A root is a node. -/
theorem mem_of_root (h : Forest nodes parts roots) (hk : k ∈ roots) : k ∈ nodes := by
  by_contra hn
  have ho := h.once k
  rw [if_neg hn] at ho
  have hc := Multiset.count_pos.mpr hk
  omega

/-- A root is not a part of a node. -/
theorem not_partOf_root (h : Forest nodes parts roots) (hk : k ∈ roots) :
    ¬ PartOf nodes parts p k := by
  intro hp
  have ho := h.once k
  rw [if_pos (h.mem_of_root hk)] at ho
  have hs := hp.one_le_sum
  have hr := Multiset.count_pos.mpr hk
  omega

/-- A node is part of at most one node. -/
theorem parent_unique (h : Forest nodes parts roots) (hp : PartOf nodes parts p k)
    (hq : PartOf nodes parts q k) : p = q := by
  by_contra hne
  have ho := h.once k
  rw [if_pos (h.mem_of_part hp), ← Finset.add_sum_erase _ _ hp.1] at ho
  have hother : PartOf (nodes.erase p) parts q k :=
    ⟨Finset.mem_erase.mpr ⟨Ne.symm hne, hq.1⟩, hq.2⟩
  have hs := hother.one_le_sum
  have hc := Multiset.count_pos.mpr hp.2
  omega

/-- No node is part of itself, through whatever nodes. A cycle could be entered neither at a root
nor from a node outside of it. -/
theorem acyclic (h : Forest nodes parts roots) (k : κ) :
    ¬ Relation.TransGen (PartOf nodes parts) k k := by
  intro hc
  obtain ⟨p, -, hp⟩ := Relation.TransGen.tail'_iff.mp hc
  obtain ⟨root, hr, hpath⟩ := h.reached k (h.mem_of_part hp)
  clear hp p
  induction hpath with
  | refl =>
    obtain ⟨p, -, hp⟩ := Relation.TransGen.tail'_iff.mp hc
    exact h.not_partOf_root hr hp
  | tail _ hab ih =>
    obtain ⟨p, hbp, hp⟩ := Relation.TransGen.tail'_iff.mp hc
    rw [h.parent_unique hp hab] at hbp
    exact ih (Relation.TransGen.head' hab hbp)

end Forest

end SwiftRelations
