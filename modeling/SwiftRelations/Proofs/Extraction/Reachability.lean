import Mathlib.Data.List.Nodup
import Mathlib.Logic.Equiv.Defs
import SwiftRelations.Proofs.Extraction.Finished
import SwiftRelations.Proofs.Extraction.Requests

/-!
# A run says what can be reached

Which of its parents a node is first visited from depends on the order of the roots. What is said
does not: where each annotation is paired with one type, a fresh run labels the nodes that can be
reached from its roots, and states the facts of the description of each of them once. Two runs from
the same roots, in any order and however often repeated, differ in the labels and in the order of
the facts alone.
-/

namespace SwiftRelations.Extraction

variable {ast : Ast} {options : ExtractionOptions} {roots others asked order order' : List Node}
  {log log' : List Step} {run run' : Run}

/-- The nodes described are different. -/
theorem Traced.nodup (h : Traced ast options asked order log run []) : order.Nodup :=
  List.Nodup.of_map _ h.registered.nodup

/-- The labels given out are those of the nodes that can be reached. -/
theorem Traced.labelled_iff (h : Traced ast options asked order log run [])
    (paired : ast.PairsTypes asked) (key : NodeKey) :
    (run.registry.lookup key).isSome ↔ ∃ node, ast.Reachable asked node ∧ node.key = key := by
  rw [h.registered.labelled key, List.mem_map]
  simp only [h.described paired]

/-- With the owners of the labels for the labels, the facts are those of the log. -/
theorem Traced.owned (h : Traced ast options asked order log run []) :
    run.facts.toList.map (Fact.map run.registry.owner) = (factsOf log).map (Fact.map some) := by
  rw [h.logged.facts, List.map_map]
  apply List.map_congr_left
  intro fact hf
  rw [Function.comp_apply, Fact.map_map]
  apply Fact.map_congr
  intro key hk
  exact (h.registered.wf.inverse _ _).mp (h.registered.lookup_eq_some (h.mentioned hf hk))

/-- Runs that described the same nodes have the same facts but for the labels. -/
theorem Traced.log_perm (h : Traced ast options asked order log run [])
    (h' : Traced ast options others order' log' run' [])
    (same : ∀ node, node ∈ order ↔ node ∈ order') : (factsOf log).Perm (factsOf log') := by
  have ho : order.Perm order' := (List.perm_ext_iff_of_nodup h.nodup h'.nodup).mpr same
  have hd : (order.flatMap fun node => factsOf (describe ast options node)).Perm
      (order'.flatMap fun node => factsOf (describe ast options node)) := ho.flatMap_right _
  exact (h.facts_perm.trans hd).trans h'.facts_perm.symm

/-- The labels of runs that described the same nodes are translated into one another. -/
def translation (h : Traced ast options asked order log run [])
    (h' : Traced ast options others order' log' run' [])
    (same : ∀ node, node ∈ order ↔ node ∈ order') : Equiv.Perm Label :=
  have hs : run.registry.size = run'.registry.size := by
    rw [h.registered.counted, h'.registered.counted]
    exact ((List.perm_ext_iff_of_nodup h.nodup h'.nodup).mpr same).length_eq
  have hk : ∀ key, (run.registry.lookup key).isSome ↔ (run'.registry.lookup key).isSome := by
    intro key
    rw [h.registered.labelled, h'.registered.labelled]
    simp only [List.mem_map, same]
  { toFun := run.registry.translate run'.registry
    invFun := run'.registry.translate run.registry
    left_inv := h.registered.wf.translate_translate h'.registered.wf hs hk
    right_inv := h'.registered.wf.translate_translate h.registered.wf hs.symm
      fun key => (hk key).symm }

/-- Runs that described the same nodes have the same facts up to the translation of labels. -/
theorem Traced.facts_translated (h : Traced ast options asked order log run [])
    (h' : Traced ast options others order' log' run' [])
    (same : ∀ node, node ∈ order ↔ node ∈ order') :
    (run.facts.toList.map (Fact.map (translation h h' same))).Perm run'.facts.toList := by
  have ht : run.facts.toList.map (Fact.map (translation h h' same)) =
      (factsOf log).map (Fact.map run'.labelOf) := by
    rw [h.logged.facts, List.map_map]
    apply List.map_congr_left
    intro fact hf
    rw [Function.comp_apply, Fact.map_map]
    apply Fact.map_congr
    intro key hk
    obtain ⟨node, hn, rfl⟩ := List.mem_map.mp (h.mentioned hf hk)
    exact h.registered.wf.translate_of_lookup
      (h.registered.lookup_eq_some (List.mem_map_of_mem hn))
      (h'.registered.lookup_eq_some (List.mem_map_of_mem ((same node).mp hn)))
  rw [ht, h'.logged.facts]
  exact (h.log_perm h' same).map _

/-- From roots of a tree in which each annotation is paired with one type, a fresh run labels the
nodes that can be reached and states the facts of each of their descriptions once. From the same
roots, in another order or repeated, it states the same facts up to a renaming of labels. -/
theorem Run.extractAll_reachable (inRange : ast.InRange)
    (held : ∀ root ∈ roots, ast.HasNode root) (paired : ast.PairsTypes roots)
    (options : ExtractionOptions) :
    ∃ labels run, ({} : Run).extractAll ast options roots = .ok (labels, run) ∧
      (∀ key, (run.registry.lookup key).isSome ↔
        ∃ node, ast.Reachable roots node ∧ node.key = key) ∧
      (∃ nodes : List Node, (nodes.map Node.key).Nodup ∧
        (∀ node, node ∈ nodes ↔ ast.Reachable roots node) ∧
        (run.facts.toList.map (Fact.map run.registry.owner)).Perm
          (nodes.flatMap fun node => (factsOf (describe ast options node)).map (Fact.map some))) ∧
      ∀ others : List Node, (∀ node, node ∈ others ↔ node ∈ roots) →
        ∃ labels' run', ∃ ρ : Equiv.Perm Label,
          ({} : Run).extractAll ast options others = .ok (labels', run') ∧
            (run.facts.toList.map (Fact.map ρ)).Perm run'.facts.toList := by
  obtain ⟨order, log, run, hm, h⟩ := exists_traced inRange held options
  refine ⟨_, run, Run.extractAll_of_moves ast options Registry.wf_empty hm,
    h.labelled_iff paired, ⟨order, h.registered.nodup, fun node => h.described paired, ?_⟩, ?_⟩
  · rw [h.owned, ← List.map_flatMap]
    exact h.facts_perm.map _
  · intro others same
    have hr : ∀ node, ast.Reachable others node ↔ ast.Reachable roots node := fun node =>
      ⟨Ast.Reachable.mono fun root => (same root).mp,
        Ast.Reachable.mono fun root => (same root).mpr⟩
    have paired' : ast.PairsTypes others := fun m n hm hn =>
      paired m n ((hr m).mp hm) ((hr n).mp hn)
    obtain ⟨order', log', run', hm', h'⟩ :=
      exists_traced inRange (fun root ho => held root ((same root).mp ho)) options
    have hs : ∀ node, node ∈ order ↔ node ∈ order' := by
      intro node
      rw [h.described paired, h'.described paired', hr]
    exact ⟨_, run', translation h h' hs,
      Run.extractAll_of_moves ast options Registry.wf_empty hm', h.facts_translated h' hs⟩

/-- The annotation of a recursive function comes with one type. -/
theorem loop_pairsTypes : Ast.loop.PairsTypes [.decl ⟨0⟩, .expr ⟨0⟩, .decl ⟨0⟩] :=
  Ast.pairsTypes_of_closed
    [.decl ⟨0⟩, .stmt ⟨0⟩, .expr ⟨0⟩, .type ⟨0⟩, .writtenType ⟨⟨0⟩, some ⟨0⟩⟩]
    (by decide) (by decide) (by decide)

/-- The roots may be on a cycle, and one of them given twice. -/
theorem Run.extractAll_reachable_loop :
    Ast.loop.InRange ∧
      ∃ labels run, ({} : Run).extractAll Ast.loop {} [.decl ⟨0⟩, .expr ⟨0⟩, .decl ⟨0⟩] =
          .ok (labels, run) ∧
        (∀ key, (run.registry.lookup key).isSome ↔
          ∃ node, Ast.loop.Reachable [.decl ⟨0⟩, .expr ⟨0⟩, .decl ⟨0⟩] node ∧ node.key = key) ∧
        (∃ nodes : List Node, (nodes.map Node.key).Nodup ∧
          (∀ node, node ∈ nodes ↔
            Ast.loop.Reachable [.decl ⟨0⟩, .expr ⟨0⟩, .decl ⟨0⟩] node) ∧
          (run.facts.toList.map (Fact.map run.registry.owner)).Perm
            (nodes.flatMap fun node =>
              (factsOf (describe Ast.loop {} node)).map (Fact.map some))) ∧
        ∀ others : List Node,
          (∀ node, node ∈ others ↔ node ∈ [.decl ⟨0⟩, .expr ⟨0⟩, .decl ⟨0⟩]) →
          ∃ labels' run', ∃ ρ : Equiv.Perm Label,
            ({} : Run).extractAll Ast.loop {} others = .ok (labels', run') ∧
              (run.facts.toList.map (Fact.map ρ)).Perm run'.facts.toList :=
  ⟨by decide, Run.extractAll_reachable (by decide) (by decide) loop_pairsTypes {}⟩

end SwiftRelations.Extraction
