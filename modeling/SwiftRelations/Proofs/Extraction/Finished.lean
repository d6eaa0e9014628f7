import SwiftRelations.Proofs.Data.List
import SwiftRelations.Proofs.Extraction.Payload
import SwiftRelations.Proofs.Extraction.Trace

/-!
# What a finished run has said

A run with no steps ahead has said of each node described what its description says, in the same
order, and nothing of any other node. Taken by their subjects, its facts are therefore the facts of
the descriptions, and the nodes described are those that can be reached.
-/

namespace SwiftRelations.Extraction

/-- The facts about a node are stated by the steps about it. -/
theorem filter_factsOf (steps : List Step) (key : NodeKey) :
    (factsOf steps).filter (·.subject? == some key) =
      factsOf (steps.filter (·.subject? == some key)) := by
  simp only [factsOf, List.filter_filterMap, List.filterMap_filter]
  apply List.filterMap_congr
  intro step _
  cases step with
  | emit fact => rfl
  | report other kind span => cases (Step.report other kind span).subject? == some key <;> rfl
  | _ => rfl

/-- Steps that go to nodes state no facts. -/
theorem factsOf_filter_target? (steps : List Step) :
    factsOf (steps.filter (·.target?.isNone)) = factsOf steps := by
  simp only [factsOf, List.filterMap_filter]
  apply List.filterMap_congr
  intro step _
  cases step <;> rfl

section

variable {ast : Ast} {options : ExtractionOptions} {asked order : List Node} {log : List Step}
  {run : Run} {node : Node}

/-- The facts about a node described are those of its description. -/
theorem Traced.filter_facts (h : Traced ast options asked order log run []) (hn : node ∈ order) :
    (factsOf log).filter (·.subject? == some node.key) = factsOf (describe ast options node) := by
  have hw := h.told.whole node hn
  rw [List.append_nil] at hw
  rw [filter_factsOf, hw, factsOf_filter_target?]

/-- Every fact is about a node described. -/
theorem Traced.exists_subject (h : Traced ast options asked order log run [])
    {fact : Fact NodeKey} (hf : fact ∈ factsOf log) :
    ∃ node ∈ order, fact.subject? = some node.key := by
  obtain ⟨step, hs, he⟩ := List.mem_filterMap.mp hf
  cases step <;> cases he
  exact h.told.subjects (.emit fact) (by simpa using hs) rfl

/-- A fact of the log mentions nodes described. -/
theorem Traced.mentioned (h : Traced ast options asked order log run []) {fact : Fact NodeKey}
    (hf : fact ∈ factsOf log) {key : NodeKey} (hk : key ∈ fact.nodes) :
    key ∈ order.map Node.key := by
  obtain ⟨step, hs, he⟩ := List.mem_filterMap.mp hf
  cases step <;> cases he
  exact h.logged.mentioned (.emit fact) hs key hk

/-- The facts are the facts of the descriptions, in some order. -/
theorem Traced.facts_perm (h : Traced ast options asked order log run []) :
    (factsOf log).Perm (order.flatMap fun node => factsOf (describe ast options node)) := by
  have hn : (order.map fun node => some node.key).Nodup := by
    rw [← Function.comp_def some Node.key, ← List.map_map]
    exact h.registered.nodup.map fun _ _ he => Option.some.inj he
  have hc : ∀ fact ∈ factsOf log, fact.subject? ∈ order.map fun node => some node.key := by
    intro fact hf
    obtain ⟨node, hm, hs⟩ := h.exists_subject hf
    exact List.mem_map.mpr ⟨node, hm, hs.symm⟩
  have hp := List.perm_flatMap_filter hn hc
  rw [List.flatMap_map] at hp
  rwa [List.flatMap_congr fun node hm => h.filter_facts hm] at hp

/-- Every node described is in the tree. -/
theorem Traced.hasNode (h : Traced ast options asked order log run []) (inRange : ast.InRange)
    (held : ∀ root ∈ asked, ast.HasNode root) (hn : node ∈ order) : ast.HasNode node :=
  (h.explored.reached node (Or.inl hn)).hasNode inRange held

/-- What can be reached has the key of a node described. -/
theorem Traced.described (h : Traced ast options asked order log run [])
    (paired : ast.PairsTypes asked) : node ∈ order ↔ ast.Reachable asked node := by
  refine ⟨fun hn => h.explored.reached node (Or.inl hn), ?_⟩
  have hd : ∀ {other}, ast.Reachable asked other → other.key ∈ order.map Node.key →
      other ∈ order := by
    intro other hr hk
    obtain ⟨same, hs, he⟩ := List.mem_map.mp hk
    rwa [← paired.eq_of_key (h.explored.reached same (Or.inl hs)) hr he]
  intro hr
  induction hr with
  | root hr =>
    exact hd (.root hr) ((h.explored.closed _ (Or.inl hr)).resolve_right List.not_mem_nil)
  | @child parent other hr hc ih =>
    exact hd (.child hr hc)
      ((h.explored.closed _ (Or.inr ⟨parent, ih, hc⟩)).resolve_right List.not_mem_nil)

end

end SwiftRelations.Extraction
