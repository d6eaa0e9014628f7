import SwiftRelations.Proofs.Extraction.Finished
import SwiftRelations.Proofs.Extraction.Requests

/-!
# Labels and their subjects

While a description is under way there are labels without a fact of their own: a node is labelled
before anything is said of it, and on a cycle it is mentioned before. Between two requests there
are none. The labels are those of the nodes described, and each of them is the subject of a fact.
-/

namespace SwiftRelations.Extraction

/-- The labels of a run are those of the nodes described and the subjects of its facts. -/
structure Run.Consistent (run : Run) : Prop where
  dispatched : ∀ key, (run.registry.lookup key).isSome ↔ run.dispatched.contains key = true
  headed : ∀ fact ∈ run.facts, ∃ label, fact.args.head? = some (.node label)
  described : ∀ fact ∈ run.facts, ∀ label ∈ fact.nodes,
    ∃ other ∈ run.facts, other.subject? = some label
  reported : ∀ diagnostic ∈ run.diagnostics,
    ∃ fact ∈ run.facts, fact.subject? = some diagnostic.label
  numbered : ∀ label : Label, (∃ fact ∈ run.facts, fact.subject? = some label) ↔
    1 ≤ label.number ∧ label.number ≤ run.output.labelCount

variable {ast : Ast} {options : ExtractionOptions} {asked order : List Node} {log : List Step}
  {run : Run}

/-- The facts of a run are those of its log, with labels for nodes. -/
theorem Traced.mem_facts (h : Traced ast options asked order log run []) {fact : Fact Label} :
    fact ∈ run.facts ↔ ∃ source ∈ factsOf log, source.map run.labelOf = fact := by
  rw [← Array.mem_toList_iff, h.logged.facts, List.mem_map]

/-- A fact has a subject when its first argument is a node. -/
theorem head?_of_subject? {ν : Type} {fact : Fact ν} {n : ν} (h : fact.subject? = some n) :
    fact.args.head? = some (.node n) := by
  obtain ⟨v, hv, hn⟩ := Option.bind_eq_some_iff.mp h
  cases v <;> cases hn
  exact hv

/-- The label of a node described is the subject of a fact. -/
theorem Traced.exists_fact (h : Traced ast options asked order log run []) (inRange : ast.InRange)
    (held : ∀ root ∈ asked, ast.HasNode root) {key : NodeKey} (hk : key ∈ order.map Node.key) :
    ∃ fact ∈ run.facts, fact.subject? = some (run.labelOf key) := by
  obtain ⟨node, hn, rfl⟩ := List.mem_map.mp hk
  obtain ⟨fact, hf⟩ := exists_fact_describe options (h.hasNode inRange held hn)
  rw [← h.filter_facts hn, List.mem_filter, beq_iff_eq] at hf
  refine ⟨fact.map run.labelOf, h.mem_facts.mpr ⟨fact, hf.1, rfl⟩, ?_⟩
  rw [Fact.subject?_map, hf.2, Option.map_some]

/-- The subjects of the facts are the labels of the nodes described. -/
theorem Traced.subject_iff (h : Traced ast options asked order log run []) (inRange : ast.InRange)
    (held : ∀ root ∈ asked, ast.HasNode root) (label : Label) :
    (∃ fact ∈ run.facts, fact.subject? = some label) ↔ (run.registry.owner label).isSome := by
  constructor
  · rintro ⟨fact, hf, hs⟩
    obtain ⟨source, hm, rfl⟩ := h.mem_facts.mp hf
    obtain ⟨node, hn, hsub⟩ := h.exists_subject hm
    rw [Fact.subject?_map, hsub, Option.map_some, Option.some.injEq] at hs
    have hl := h.registered.lookup_eq_some (List.mem_map_of_mem hn)
    rw [hs] at hl
    rw [(h.registered.wf.inverse _ _).mp hl, Option.isSome_some]
  · intro ho
    obtain ⟨key, hk⟩ := Option.isSome_iff_exists.mp ho
    have hl := (h.registered.wf.inverse _ _).mpr hk
    have hm := (h.registered.labelled key).mp (by rw [hl]; rfl)
    have hf := h.exists_fact inRange held hm
    rwa [Run.labelOf, hl, Option.getD_some] at hf

/-- A run with no steps ahead is consistent. -/
theorem Traced.consistent (h : Traced ast options asked order log run []) (inRange : ast.InRange)
    (held : ∀ root ∈ asked, ast.HasNode root) : run.Consistent where
  dispatched key := (h.registered.labelled key).trans (h.registered.marked key).symm
  headed fact hf := by
    obtain ⟨source, hm, rfl⟩ := h.mem_facts.mp hf
    obtain ⟨node, -, hs⟩ := h.exists_subject hm
    refine ⟨run.labelOf node.key, head?_of_subject? ?_⟩
    rw [Fact.subject?_map, hs, Option.map_some]
  described fact hf label hl := by
    obtain ⟨source, hm, rfl⟩ := h.mem_facts.mp hf
    rw [Fact.nodes_map] at hl
    obtain ⟨key, hk, rfl⟩ := List.mem_map.mp hl
    exact h.exists_fact inRange held (h.mentioned hm hk)
  reported diagnostic hd := by
    rw [← Array.mem_toList_iff, h.logged.diagnostics] at hd
    obtain ⟨step, hs, he⟩ := List.mem_filterMap.mp hd
    cases step <;> cases he
    case report key kind span =>
      exact h.exists_fact inRange held
        (h.logged.mentioned (.report key kind span) hs key (List.mem_singleton.mpr rfl))
  numbered label :=
    (h.subject_iff inRange held label).trans (h.registered.wf.owner_isSome_iff label)

/-- Any requests for nodes of a tree are answered, and leave a consistent run. -/
theorem Run.answerAll_consistent {requests : List Request} (inRange : ast.InRange)
    (held : ∀ node ∈ Extraction.asked requests, ast.HasNode node) (options : ExtractionOptions) :
    ∃ answers run, ({} : Run).answerAll ast options requests = .ok (answers, run) ∧
      run.Consistent := by
  obtain ⟨order, log, run, hm, h⟩ := exists_traced inRange held options
  obtain ⟨answers, ha⟩ := Run.answerAll_of_moves ast options hm
  exact ⟨answers, run, ha, h.consistent inRange held⟩

/-- The requests may be for a cycle, entered from its middle, and for an annotation with and
without its type. -/
theorem Run.answerAll_consistent_loop :
    Ast.loop.InRange ∧
      ∃ answers run, ({} : Run).answerAll Ast.loop {}
          [.lookup (.decl ⟨0⟩), .extract (.expr ⟨0⟩),
            .extractAll [.writtenType ⟨⟨0⟩, none⟩, .decl ⟨0⟩, .decl ⟨0⟩]] = .ok (answers, run) ∧
        run.Consistent :=
  ⟨by decide, Run.answerAll_consistent (by decide) (by decide) {}⟩

end SwiftRelations.Extraction
