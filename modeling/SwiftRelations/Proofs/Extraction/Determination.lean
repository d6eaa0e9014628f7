import SwiftRelations.Proofs.Extraction.Consistency
import SwiftRelations.Proofs.Extraction.Reading

/-!
# The facts determine the tree

Where each annotation is paired with one type, the facts of a run without locations tell what each
label stands for and what its node holds. So two runs that answer the same labels for their roots
and state the same facts went through trees that are the same, but for the places of their nodes
and for what cannot be reached.
-/

namespace SwiftRelations

/-- The facts about the node of a label. -/
def factsAbout (facts : List (Fact Label)) (label : Label) : List (Fact Label) :=
  facts.filter (·.subject? == some label)

/-- What a label stands for in some facts. -/
def nodeIn (facts : List (Fact Label)) (label : Label) : Node :=
  Node.read (factsAbout facts label) label

/-- What the node of a label holds in some facts. -/
def payloadIn (facts : List (Fact Label)) (label : Label) : Payload :=
  Payload.read (nodeIn facts) (factsAbout facts label)

namespace Extraction

/-- Options that ask for no locations. -/
def withoutLocations : ExtractionOptions := { emitLocations := false }

/-- Without locations a node is described by its content. -/
theorem describe_withoutLocations (ast : Ast) (node : Node) :
    describe ast withoutLocations node = content ast node := by
  rw [describe, locationSteps]
  cases ast.spanOf node <;> rfl

section

variable {ast : Ast} {options : ExtractionOptions} {asked roots order : List Node}
  {log : List Step} {run : Run} {m : Node}

/-- The facts about the label of a node are those of the node's description. -/
theorem Traced.factsAbout_eq (h : Traced ast options asked order log run []) (hm : m ∈ order) :
    factsAbout run.facts.toList (run.labelOf m.key) =
      said run.labelOf (describe ast options m) := by
  rw [factsAbout, h.logged.facts, List.filter_map, said, ← h.filter_facts hm]
  congr 1
  apply List.filter_congr
  intro fact hf
  obtain ⟨n, hn, hs⟩ := h.exists_subject hf
  have hi := h.registered.labelOf_inj (List.mem_map_of_mem hn) (List.mem_map_of_mem hm)
  rw [Function.comp_apply, Fact.subject?_map, hs, Option.map_some, Bool.eq_iff_iff, beq_iff_eq,
    beq_iff_eq, Option.some.injEq, Option.some.injEq]
  exact ⟨hi, congrArg run.labelOf⟩

/-- What a label stands for is told by the facts of the run. -/
theorem Traced.nodeIn_eq (h : Traced ast withoutLocations asked order log run [])
    (inRange : ast.InRange) (held : ∀ root ∈ asked, ast.HasNode root) (hm : m ∈ order) :
    nodeIn run.facts.toList (run.labelOf m.key) = m.relabel run.labelOf := by
  obtain ⟨payload, hp⟩ := (h.hasNode inRange held hm).exists_payload
  rw [nodeIn, h.factsAbout_eq hm, describe_withoutLocations, content_eq hp]
  exact read_node hp

/-- What the node of a label is and holds is told by the facts of the run. -/
theorem Traced.read (h : Traced ast withoutLocations asked order log run [])
    (inRange : ast.InRange) (held : ∀ root ∈ asked, ast.HasNode root)
    (paired : ast.PairsTypes asked) (hm : ast.Reachable asked m) {label : Label}
    (hl : run.registry.lookup m.key = some label) :
    nodeIn run.facts.toList label = m.relabel run.labelOf ∧
      ∃ payload, ast.payload? m = some payload ∧
        payload.relabel run.labelOf = payloadIn run.facts.toList label := by
  obtain rfl : run.labelOf m.key = label := by rw [Run.labelOf, hl, Option.getD_some]
  have hmo := (h.described paired).mpr hm
  obtain ⟨payload, hp⟩ := (h.hasNode inRange held hmo).exists_payload
  have hr : Reads (nodeIn run.facts.toList) run.labelOf (ast.references m) :=
    fun child hc => h.nodeIn_eq inRange held ((h.described paired).mpr (.child hm hc))
  refine ⟨h.nodeIn_eq inRange held hmo, payload, hp, ?_⟩
  rw [payloadIn, h.factsAbout_eq hmo, describe_withoutLocations, content_eq hp, read_payload hp hr]

/-- What the roots are is told by their labels and the facts of the run. -/
theorem Traced.map_relabel (h : Traced ast withoutLocations asked order log run [])
    (inRange : ast.InRange) (held : ∀ root ∈ asked, ast.HasNode root)
    (paired : ast.PairsTypes asked) :
    asked.map (·.relabel run.labelOf) =
      (asked.map fun root => run.labelOf root.key).map (nodeIn run.facts.toList) := by
  rw [List.map_map]
  apply List.map_congr_left
  intro root hr
  exact (h.nodeIn_eq inRange held ((h.described paired).mpr (.root hr))).symm

/-- The labels of the nodes that can be reached are the subjects of the facts. -/
theorem Traced.exists_label_iff (h : Traced ast options asked order log run [])
    (inRange : ast.InRange) (held : ∀ root ∈ asked, ast.HasNode root)
    (paired : ast.PairsTypes asked) (label : Label) :
    (∃ m, ast.Reachable asked m ∧ run.registry.lookup m.key = some label) ↔
      ∃ fact ∈ run.facts, fact.subject? = some label := by
  rw [h.subject_iff inRange held label]
  constructor
  · rintro ⟨m, -, hl⟩
    rw [(h.registered.wf.inverse _ _).mp hl, Option.isSome_some]
  · intro ho
    obtain ⟨key, hk⟩ := Option.isSome_iff_exists.mp ho
    have hl := (h.registered.wf.inverse _ _).mpr hk
    obtain ⟨m, hm, rfl⟩ := List.mem_map.mp ((h.registered.labelled key).mp (by rw [hl]; rfl))
    exact ⟨m, (h.described paired).mp hm, hl⟩

end

/-- A fresh run has a trace. -/
theorem Run.extractAll_traced {ast : Ast} {options : ExtractionOptions} {roots : List Node}
    (inRange : ast.InRange) (held : ∀ root ∈ roots, ast.HasNode root) {labels : List Label}
    {run : Run} (h : ({} : Run).extractAll ast options roots = .ok (labels, run)) :
    labels = roots.map (fun root => run.labelOf root.key) ∧
      ∃ order log, Traced ast options roots order log run [] := by
  obtain ⟨order, log, run', hm, ht⟩ := exists_traced inRange held options
  rw [Run.extractAll_of_moves ast options Registry.wf_empty hm] at h
  cases h
  exact ⟨rfl, order, log, ht⟩

section

variable {ast ast' : Ast} {roots roots' : List Node} {labels : List Label} {run run' : Run}

/-- Nodes of two trees are alike for the labels of two runs if they are of one category and hold
the same payload, with nodes of equal labels at the same positions. -/
structure Alike (ast ast' : Ast) (run run' : Run) (m n : Node) : Prop where
  category : m.category = n.category
  relabelled : m.relabel run.labelOf = n.relabel run'.labelOf
  payload : ∃ p q, ast.payload? m = some p ∧ ast'.payload? n = some q ∧
    p.relabel run.labelOf = q.relabel run'.labelOf

/-- Labels do not change the category of a node. -/
theorem category_relabel (f : NodeKey → Label) (m : Node) :
    (m.relabel f).category = m.category := by
  cases m <;> rfl

/-- Two runs without locations, over trees in which each annotation is paired with one type, that
answer the same labels and state the same facts: the roots are the same up to labels, every node
that can be reached in one tree has a node of its label in the other, and nodes of one label are
alike. -/
theorem Run.extractAll_determines (inRange : ast.InRange) (inRange' : ast'.InRange)
    (held : ∀ root ∈ roots, ast.HasNode root) (held' : ∀ root ∈ roots', ast'.HasNode root)
    (paired : ast.PairsTypes roots) (paired' : ast'.PairsTypes roots')
    (h : ({} : Run).extractAll ast withoutLocations roots = .ok (labels, run))
    (h' : ({} : Run).extractAll ast' withoutLocations roots' = .ok (labels, run'))
    (same : run.facts = run'.facts) :
    roots.map (·.relabel run.labelOf) = roots'.map (·.relabel run'.labelOf) ∧
      (∀ label, (∃ m, ast.Reachable roots m ∧ run.registry.lookup m.key = some label) ↔
        ∃ n, ast'.Reachable roots' n ∧ run'.registry.lookup n.key = some label) ∧
      ∀ m n label, ast.Reachable roots m → ast'.Reachable roots' n →
        run.registry.lookup m.key = some label → run'.registry.lookup n.key = some label →
        Alike ast ast' run run' m n := by
  obtain ⟨hl, order, log, ht⟩ := Run.extractAll_traced inRange held h
  obtain ⟨hl', order', log', ht'⟩ := Run.extractAll_traced inRange' held' h'
  refine ⟨?_, ?_, ?_⟩
  · rw [ht.map_relabel inRange held paired, ht'.map_relabel inRange' held' paired', ← hl, ← hl',
      same]
  · intro label
    rw [ht.exists_label_iff inRange held paired, ht'.exists_label_iff inRange' held' paired', same]
  · intro m n label hm hn hml hnl
    obtain ⟨hnode, p, hp, hpl⟩ := ht.read inRange held paired hm hml
    obtain ⟨hnode', q, hq, hql⟩ := ht'.read inRange' held' paired' hn hnl
    rw [← same] at hnode' hql
    have hr : m.relabel run.labelOf = n.relabel run'.labelOf := hnode.symm.trans hnode'
    refine ⟨?_, hr, p, q, hp, hq, hpl.trans hql.symm⟩
    rw [← category_relabel run.labelOf m, hr, category_relabel]

/-- The tree of `(nil, nil)` with one node for both elements, added before the tuple. -/
def pairAfter : Ast where
  exprs := #[{ kind := .nilLiteral, type := none, span := none },
    { kind := .tuple [⟨0⟩, ⟨0⟩], type := none, span := none }]

/-- The same tree with the tuple added first. -/
def pairBefore : Ast where
  exprs := #[{ kind := .tuple [⟨1⟩, ⟨1⟩], type := none, span := none },
    { kind := .nilLiteral, type := none, span := none }]

/-- The facts of `(nil, nil)` whose elements are one node, wherever the two nodes stand. -/
theorem extractAll_pair (ast : Ast) {i j : Nat} (hij : i ≠ j)
    (hi : ast.expr? ⟨i⟩ = some { kind := .tuple [⟨j⟩, ⟨j⟩], type := none, span := none })
    (hj : ast.expr? ⟨j⟩ = some { kind := .nilLiteral, type := none, span := none }) :
    ∃ run, ({} : Run).extractAll ast withoutLocations [.expr ⟨i⟩] = .ok ([⟨1⟩], run) ∧
      run.facts = #[⟨"tuple_exprs", [.node ⟨1⟩]⟩, ⟨"nil_literal_exprs", [.node ⟨2⟩]⟩,
        ⟨"tuple_expr_elements", [.node ⟨1⟩, .int 0, .node ⟨2⟩]⟩,
        ⟨"tuple_expr_elements", [.node ⟨1⟩, .int 1, .node ⟨2⟩]⟩] := by
  generalize hfacts : (#[_, _, _, _] : Array (Fact Label)) = facts
  have hholds : ∀ {k expr}, ast.expr? ⟨k⟩ = some expr → ast.Holds ⟨.expr, k⟩ :=
    fun h => (Array.getElem?_eq_some_iff.mp h).1
  have hdi : describe ast withoutLocations (.expr ⟨i⟩) =
      [about ⟨.expr, i⟩ "tuple_exprs" [], .visit (.expr ⟨j⟩),
        about ⟨.expr, i⟩ "tuple_expr_elements" [.int 0, .node ⟨.expr, j⟩], .visit (.expr ⟨j⟩),
        about ⟨.expr, i⟩ "tuple_expr_elements" [.int 1, .node ⟨.expr, j⟩]] := by
    rw [describe_withoutLocations, content, hi]
    rfl
  have hdj : describe ast withoutLocations (.expr ⟨j⟩) =
      [about ⟨.expr, j⟩ "nil_literal_exprs" []] := by
    rw [describe_withoutLocations, content, hj]
    rfl
  have hrun : (({} : Run).extractAll ast withoutLocations [.expr ⟨i⟩]).map
      (fun result => (result.1, result.2.facts)) = .ok ([⟨1⟩], facts) := by
    simp [← hfacts, Run.extractAll, Run.extract, walk, walk.visit, hdi, hdj, about, Node.key,
      hholds hi, hholds hj, hij, hij.symm, Registry.fetch, Registry.lookup, Registry.owner,
      Run.isFresh, Run.mark, Run.emit, Run.labelOf, Fact.map, Value.map, bind, Except.bind, pure,
      Except.pure, Except.map, Std.HashMap.getElem_insert, Std.HashMap.getElem?_insert]
  cases h : ({} : Run).extractAll ast withoutLocations [.expr ⟨i⟩] with
  | error collision => simp [h, Except.map] at hrun
  | ok result =>
    obtain ⟨labels, run⟩ := result
    simp only [h, Except.map, Except.ok.injEq, Prod.mk.injEq] at hrun
    exact ⟨run, by rw [hrun.1], hrun.2⟩

/-- The trees may keep their nodes at different places. -/
theorem Run.extractAll_determines_pair :
    pairAfter.InRange ∧ pairBefore.InRange ∧
      ∃ run run', ({} : Run).extractAll pairAfter withoutLocations [.expr ⟨1⟩] =
          .ok ([⟨1⟩], run) ∧
        ({} : Run).extractAll pairBefore withoutLocations [.expr ⟨0⟩] = .ok ([⟨1⟩], run') ∧
        run.facts = run'.facts ∧
        [Node.expr ⟨1⟩].map (·.relabel run.labelOf) = [Node.expr ⟨0⟩].map (·.relabel run'.labelOf) ∧
        (∀ label, (∃ m, pairAfter.Reachable [.expr ⟨1⟩] m ∧
            run.registry.lookup m.key = some label) ↔
          ∃ n, pairBefore.Reachable [.expr ⟨0⟩] n ∧
            run'.registry.lookup n.key = some label) ∧
        ∀ m n label, pairAfter.Reachable [.expr ⟨1⟩] m →
          pairBefore.Reachable [.expr ⟨0⟩] n →
          run.registry.lookup m.key = some label → run'.registry.lookup n.key = some label →
          Alike pairAfter pairBefore run run' m n := by
  obtain ⟨run, h, hf⟩ := extractAll_pair pairAfter (show 1 ≠ 0 by decide) rfl rfl
  obtain ⟨run', h', hf'⟩ := extractAll_pair pairBefore (show 0 ≠ 1 by decide) rfl rfl
  have hp : pairAfter.PairsTypes [.expr ⟨1⟩] :=
    Ast.pairsTypes_of_closed [.expr ⟨1⟩, .expr ⟨0⟩] (by decide) (by decide) (by decide)
  have hp' : pairBefore.PairsTypes [.expr ⟨0⟩] :=
    Ast.pairsTypes_of_closed [.expr ⟨0⟩, .expr ⟨1⟩] (by decide) (by decide) (by decide)
  have same : run.facts = run'.facts := hf.trans hf'.symm
  exact ⟨by decide, by decide, run, run', h, h', same,
    Run.extractAll_determines (by decide) (by decide) (by decide) (by decide) hp hp' h h' same⟩

end

end Extraction

end SwiftRelations
