import SwiftRelations.Facts.Fact

/-!
# Renaming the nodes of a fact

Facts are generic in what stands for a node. Giving their nodes otherwise keeps the relation and
the scalars, and acts on the subject and on the nodes mentioned alone.
-/

namespace SwiftRelations

variable {ν μ ξ : Type}

/-- Nodes are given otherwise one after the other. -/
theorem Value.map_map (f : ν → μ) (g : μ → ξ) (v : Value ν) : (v.map f).map g = v.map (g ∘ f) := by
  cases v <;> rfl

/-- The node of a renamed argument is the renamed node. -/
theorem Value.node?_map (f : ν → μ) (v : Value ν) : (v.map f).node? = v.node?.map f := by
  cases v <;> rfl

namespace Fact

/-- Facts are renamed in two steps or in one. -/
theorem map_map (f : ν → μ) (g : μ → ξ) (fact : Fact ν) :
    (fact.map f).map g = fact.map (g ∘ f) := by
  simp only [map, List.map_map, mk.injEq, true_and]
  apply List.map_congr_left
  intro v _
  exact v.map_map f g

/-- Only the names of the nodes that a fact mentions matter. -/
theorem map_congr {f g : ν → μ} {fact : Fact ν} (h : ∀ n ∈ fact.nodes, f n = g n) :
    fact.map f = fact.map g := by
  simp only [map, mk.injEq, true_and]
  apply List.map_congr_left
  intro v hv
  cases v with
  | node n => exact congrArg Value.node (h n (List.mem_filterMap.mpr ⟨_, hv, rfl⟩))
  | _ => rfl

/-- A renamed fact is about the renamed node. -/
theorem subject?_map (f : ν → μ) (fact : Fact ν) : (fact.map f).subject? = fact.subject?.map f := by
  obtain ⟨relation, args⟩ := fact
  cases args with
  | nil => rfl
  | cons v args => exact v.node?_map f

/-- A renamed fact mentions the renamed nodes. -/
theorem nodes_map (f : ν → μ) (fact : Fact ν) : (fact.map f).nodes = fact.nodes.map f := by
  simp only [nodes, map, List.filterMap_map, List.map_filterMap, Function.comp_def,
    Value.node?_map]

end Fact

end SwiftRelations
