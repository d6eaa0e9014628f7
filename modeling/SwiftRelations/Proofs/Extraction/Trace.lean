import Mathlib.Data.List.Basic
import SwiftRelations.Proofs.Extraction.Moves
import SwiftRelations.Proofs.Extraction.Steps
import SwiftRelations.Proofs.Facts.Renaming

/-!
# The trace of a run

What a run has done is told by two lists: the nodes whose descriptions have begun, in order, and
the log of what was said. `Traced` is the invariant of a run between two moves, with the steps
still ahead. Labels and marks are those of the listed nodes, the facts and diagnostics are those of
the log, what was said and what is still to be said of a listed node are its whole description, and
the listed nodes are closed under references but for the nodes that are still to be visited.
-/

namespace SwiftRelations.Extraction

/-- The diagnostic a step reports, with labels given to nodes. -/
def Step.diagnostic? (label : NodeKey → Label) : Step → Option Diagnostic
  | .report key kind span =>
    some { label := label key, category := key.category, kind,
           message := (Diagnostic.classify key.category kind).2,
           severity := (Diagnostic.classify key.category kind).1, span }
  | _ => none

/-- Labels and marks are those of the nodes described, each of them once. -/
structure Registered (order : List Node) (run : Run) : Prop where
  wf : run.registry.WF
  labelled : ∀ key, (run.registry.lookup key).isSome ↔ key ∈ order.map Node.key
  marked : ∀ key, run.dispatched.contains key = true ↔ key ∈ order.map Node.key
  nodup : (order.map Node.key).Nodup
  counted : run.registry.size = order.length

/-- The facts and diagnostics are those of the log, which mentions only nodes described. -/
structure Logged (order : List Node) (log : List Step) (run : Run) : Prop where
  facts : run.facts.toList = (factsOf log).map (Fact.map run.labelOf)
  diagnostics : run.diagnostics.toList = log.filterMap (Step.diagnostic? run.labelOf)
  mentioned : ∀ step ∈ log, ∀ key ∈ step.mentions, key ∈ order.map Node.key

/-- What was said and what is still to be said are the descriptions of the nodes described. -/
structure Told (ast : Ast) (options : ExtractionOptions) (order : List Node)
    (log steps : List Step) : Prop where
  said : ∀ step ∈ log, step.target? = none
  whole : ∀ node ∈ order,
    (log ++ steps).filter (·.subject? == some node.key) =
      (describe ast options node).filter (·.target?.isNone)
  subjects : ∀ step ∈ log ++ steps, step.target? = none →
    ∃ node ∈ order, step.subject? = some node.key
  grounded : Grounded (· ∈ order.map Node.key) steps

/-- The nodes described can be reached from those asked for, and are closed under references but
for the nodes still to be visited. -/
structure Explored (ast : Ast) (asked order : List Node) (steps : List Step) : Prop where
  reached : ∀ node, node ∈ order ∨ node ∈ targets steps → ast.Reachable asked node
  closed : ∀ node, (node ∈ asked ∨ ∃ parent ∈ order, node ∈ ast.references parent) →
    node.key ∈ order.map Node.key ∨ node ∈ targets steps

/-- The invariant of a run between two moves. -/
structure Traced (ast : Ast) (options : ExtractionOptions) (asked order : List Node)
    (log : List Step) (run : Run) (steps : List Step) : Prop where
  registered : Registered order run
  logged : Logged order log run
  told : Told ast options order log steps
  explored : Explored ast asked order steps

variable {ast : Ast} {options : ExtractionOptions} {asked order : List Node} {log : List Step}
  {run run' : Run} {steps steps' rest : List Step} {node : Node}

/-! ### Labels and marks -/

/-- A node is fresh when it was not described. -/
theorem Registered.isFresh_iff (h : Registered order run) (key : NodeKey) :
    run.isFresh key = true ↔ key ∉ order.map Node.key := by
  rw [← h.marked key, Run.isFresh, Bool.not_eq_true', Bool.eq_false_iff]

/-- A node that was not described has no label. -/
theorem Registered.lookup_eq_none (h : Registered order run) {key : NodeKey}
    (hk : key ∉ order.map Node.key) : run.registry.lookup key = none := by
  cases hl : run.registry.lookup key with
  | none => rfl
  | some label => exact absurd ((h.labelled key).mp (by rw [hl]; rfl)) hk

/-- A node described has the label that it is written with. -/
theorem Registered.lookup_eq_some (h : Registered order run) {key : NodeKey}
    (hk : key ∈ order.map Node.key) : run.registry.lookup key = some (run.labelOf key) := by
  obtain ⟨label, hl⟩ := Option.isSome_iff_exists.mp ((h.labelled key).mpr hk)
  simp only [Run.labelOf, hl, Option.getD_some]

/-- Nodes described that are written alike are the same. -/
theorem Registered.labelOf_inj (h : Registered order run) {key other : NodeKey}
    (hk : key ∈ order.map Node.key) (ho : other ∈ order.map Node.key)
    (he : run.labelOf key = run.labelOf other) : key = other := by
  have hl := h.lookup_eq_some hk
  rw [he] at hl
  exact h.wf.lookup_inj hl (h.lookup_eq_some ho)

/-- The run in which a node is given the next label and marked. -/
def Run.enter (run : Run) (key : NodeKey) : Run :=
  { run with registry := run.registry.add key, dispatched := run.dispatched.insert key }

/-- Fetching the label of a node that was not described, and marking it, enters it. -/
theorem Registered.mark_fetch (h : Registered order run) {key : NodeKey} {label : Label}
    {registry : Registry} (hk : key ∉ order.map Node.key)
    (hf : run.registry.fetch key = .ok (label, registry)) :
    Run.mark { run with registry } key = run.enter key := by
  rw [h.wf.fetch_of_lookup_none (h.lookup_eq_none hk)] at hf
  cases hf
  rfl

/-- Other nodes keep their labels when a node is entered. -/
theorem labelOf_enter {key other : NodeKey} (hk : key ≠ other) :
    (run.enter key).labelOf other = run.labelOf other := by
  simp only [Run.labelOf, Run.enter, Registry.lookup_add, hk, ite_false]

/-- A node that is entered joins the nodes described. -/
theorem Registered.enter (h : Registered order run) (hk : node.key ∉ order.map Node.key) :
    Registered (order ++ [node]) (run.enter node.key) where
  wf := h.wf.add (h.lookup_eq_none hk)
  labelled key := by
    rw [Run.enter, Registry.lookup_add]
    by_cases he : node.key = key
    · simp [he]
    · have hl := h.labelled key
      simp only [he, ite_false, hl, List.map_append, List.mem_append, List.map_cons, List.map_nil,
        List.mem_singleton, Ne.symm he, or_false]
  marked key := by
    have hm := h.marked key
    simp only [Run.enter, Std.HashSet.contains_insert, Bool.or_eq_true, beq_iff_eq, hm,
      List.map_append, List.mem_append, List.map_cons, List.map_nil, List.mem_singleton]
    rw [or_comm, eq_comm]
  nodup := by
    rw [List.map_append, List.map_cons, List.map_nil, List.nodup_append]
    refine ⟨h.nodup, by simp, ?_⟩
    intro key hm other ho
    rw [List.mem_singleton.mp ho]
    exact fun he => hk (he ▸ hm)
  counted := by
    have hn : run.registry.next + 1 = (run.enter node.key).registry.size + 1 :=
      (h.wf.add (h.lookup_eq_none hk)).counted
    rw [List.length_append, List.length_singleton, ← h.counted, ← h.wf.counted]
    omega

/-! ### Facts and diagnostics -/

/-- A fact stated is logged. -/
theorem Logged.emit (h : Logged order log run) (fact : Fact NodeKey)
    (hm : ∀ key ∈ fact.nodes, key ∈ order.map Node.key) :
    Logged order (log ++ [.emit fact]) (run.emit fact) where
  facts := by
    simp only [Run.emit, Array.toList_push, h.facts, factsOf, List.filterMap_append,
      List.map_append]
    rfl
  diagnostics := by
    simp only [List.filterMap_append]
    exact h.diagnostics.trans (List.append_nil _).symm
  mentioned step hs := by
    rcases List.mem_append.mp hs with hs | hs
    · exact h.mentioned step hs
    · rw [List.mem_singleton.mp hs]
      exact hm

/-- A node reported is logged. -/
theorem Logged.report (h : Logged order log run) {key : NodeKey} (kind : String)
    (span : Option Span) (hm : key ∈ order.map Node.key) :
    Logged order (log ++ [.report key kind span]) (run.report key kind span) where
  facts := by
    simp only [factsOf, List.filterMap_append, List.map_append]
    exact h.facts.trans (List.append_nil _).symm
  diagnostics := by
    simp only [Run.report, Array.toList_push, List.filterMap_append, h.diagnostics]
    rfl
  mentioned step hs := by
    rcases List.mem_append.mp hs with hs | hs
    · exact h.mentioned step hs
    · rw [List.mem_singleton.mp hs]
      intro other ho
      rwa [List.mem_singleton.mp ho]

/-- Two ways to label nodes report alike if they agree on what is mentioned. -/
theorem Step.diagnostic?_congr {f g : NodeKey → Label} {step : Step}
    (h : ∀ key ∈ step.mentions, f key = g key) : step.diagnostic? f = step.diagnostic? g := by
  cases step with
  | report key kind span => simp only [diagnostic?, h key (List.mem_singleton.mpr rfl)]
  | _ => rfl

/-- What was logged is not touched when a node is entered. -/
theorem Logged.enter (h : Logged order log run) (hk : node.key ∉ order.map Node.key) :
    Logged (order ++ [node]) log (run.enter node.key) where
  facts := by
    refine h.facts.trans (List.map_congr_left ?_)
    intro fact hf
    obtain ⟨step, hs, he⟩ := List.mem_filterMap.mp hf
    apply Fact.map_congr
    intro key hm
    have hme : key ∈ order.map Node.key := by
      apply h.mentioned step hs
      cases step <;> cases he
      exact hm
    have hne : node.key ≠ key := fun he => hk (he ▸ hme)
    exact (labelOf_enter hne).symm
  diagnostics := by
    refine h.diagnostics.trans (List.filterMap_congr ?_)
    intro step hs
    apply Step.diagnostic?_congr
    intro key hm
    have hne : node.key ≠ key := fun he => hk (he ▸ h.mentioned step hs key hm)
    exact (labelOf_enter hne).symm
  mentioned step hs key hm := by
    rw [List.map_append]
    exact List.mem_append_left _ (h.mentioned step hs key hm)

/-! ### Descriptions -/

/-- A step that says something is logged as it stands ahead. -/
theorem Told.say {step : Step} (h : Told ast options order log (step :: rest))
    (hs : step.target? = none) : Told ast options order (log ++ [step]) rest where
  said other ho := by
    rcases List.mem_append.mp ho with ho | ho
    · exact h.said other ho
    · rwa [List.mem_singleton.mp ho]
  whole node hn := by simpa using h.whole node hn
  subjects other ho := by
    apply h.subjects other
    simpa using ho
  grounded := by
    have hg := h.grounded.2
    simpa only [hs, Option.map_none, reduceCtorEq, or_false] using hg

/-- A step to a node described has nothing left to do. -/
theorem Told.skip {step : Step} (h : Told ast options order log (step :: rest))
    (hs : step.target? = some node) (hk : node.key ∈ order.map Node.key) :
    Told ast options order log rest where
  said := h.said
  whole other ho := by
    have hw := h.whole other ho
    cases step <;> cases hs <;> simpa [Step.subject?] using hw
  subjects other ho := by
    apply h.subjects other
    rcases List.mem_append.mp ho with ho | ho
    · exact List.mem_append_left _ ho
    · exact List.mem_append_right _ (List.mem_cons_of_mem _ ho)
  grounded := by
    apply h.grounded.2.mono
    rintro key (hk' | hk')
    · exact hk'
    · rw [hs, Option.map_some, Option.some.injEq] at hk'
      rwa [← hk']

/-- Going to a declaration that is referred to is visiting it. -/
theorem Told.refer {decl : DeclId} (h : Told ast options order log (.refer decl :: rest)) :
    Told ast options order log (.visit (.decl decl) :: rest) where
  said := h.said
  whole node hn := by simpa [Step.subject?] using h.whole node hn
  subjects step hs ht := by
    refine h.subjects step ?_ ht
    rcases List.mem_append.mp hs with hs | hs
    · exact List.mem_append_left _ hs
    · rcases List.mem_cons.mp hs with rfl | hs
      · cases ht
      · exact List.mem_append_right _ (List.mem_cons_of_mem _ hs)
  grounded := ⟨nofun, h.grounded.2⟩

/-- A step says something of its subject, or it goes to a node. -/
theorem Step.subject?_of_target? {step : Step} {node : Node} (h : step.target? = some node) :
    step.subject? = none := by
  cases step <;> cases h <;> rfl

/-- Of steps that concern one node, those about it are those that say something. -/
theorem Concerns.filter_self {key : NodeKey} (h : Concerns key steps) :
    steps.filter (·.subject? == some key) = steps.filter (·.target?.isNone) := by
  apply List.filter_congr
  intro step hs
  cases ht : step.target? with
  | none => simp [h step hs ht]
  | some node => simp [step.subject?_of_target? ht]

/-- Steps that concern one node are not about another. -/
theorem Concerns.filter_other {key other : NodeKey} (h : Concerns key steps) (hk : key ≠ other) :
    steps.filter (·.subject? == some other) = [] := by
  apply List.filter_eq_nil_iff.mpr
  intro step hs
  cases ht : step.target? with
  | none => simp [h step hs ht, hk]
  | some node => simp [step.subject?_of_target? ht]

/-- Nothing was said of a node before its description begins. -/
theorem Told.filter_eq_nil (h : Told ast options order log steps)
    (hk : node.key ∉ order.map Node.key) :
    (log ++ steps).filter (·.subject? == some node.key) = [] := by
  apply List.filter_eq_nil_iff.mpr
  intro step hs
  cases ht : step.target? with
  | none =>
    obtain ⟨other, ho, hsub⟩ := h.subjects step hs ht
    rw [hsub]
    intro he
    exact hk (List.mem_map.mpr ⟨other, ho, by simpa using he⟩)
  | some other => simp [step.subject?_of_target? ht]

/-- The description of a node that was not described is told from now on. -/
theorem Told.enter (h : Told ast options order log (.visit node :: rest))
    (hk : node.key ∉ order.map Node.key) :
    Told ast options (order ++ [node]) log (describe ast options node ++ rest) where
  said := h.said
  whole other ho := by
    have hc := concerns_describe ast options node
    simp only [List.filter_append]
    rcases List.mem_append.mp ho with ho | ho
    · have hne : node.key ≠ other.key := fun he => hk (he ▸ List.mem_map_of_mem ho)
      have hw := h.whole other ho
      rw [List.filter_append, List.filter_cons_of_neg (by simp [Step.subject?])] at hw
      rw [hc.filter_other hne, List.nil_append, hw]
    · obtain rfl := List.mem_singleton.mp ho
      have hn := h.filter_eq_nil hk
      rw [List.filter_append, List.append_eq_nil_iff,
        List.filter_cons_of_neg (by simp [Step.subject?])] at hn
      rw [hc.filter_self, hn.1, hn.2, List.nil_append, List.append_nil]
  subjects step hs ht := by
    have hold : step ∈ log ++ Step.visit node :: rest →
        ∃ other ∈ order ++ [node], step.subject? = some other.key := by
      intro hs
      obtain ⟨other, ho, hsub⟩ := h.subjects step hs ht
      exact ⟨other, List.mem_append_left _ ho, hsub⟩
    rcases List.mem_append.mp hs with hs | hs
    · exact hold (List.mem_append_left _ hs)
    · rcases List.mem_append.mp hs with hs | hs
      · refine ⟨node, by simp, concerns_describe ast options node step hs ht⟩
      · exact hold (List.mem_append_right _ (List.mem_cons_of_mem _ hs))
  grounded := by
    refine (grounded_describe ast options node (by simp)).append (h.grounded.2.mono ?_)
    rintro key (hk' | hk')
    · rw [List.map_append]
      exact List.mem_append_left _ hk'
    · simp only [target?_visit, Option.map_some, Option.some.injEq] at hk'
      simp [hk']

/-! ### References -/

/-- A step that says something goes nowhere. -/
theorem Explored.say {step : Step} (h : Explored ast asked order (step :: rest))
    (hs : step.target? = none) : Explored ast asked order rest where
  reached node hn := h.reached node (by simpa [hs] using hn)
  closed node hn := by simpa [hs] using h.closed node hn

/-- A step to a node described may be left out. -/
theorem Explored.skip {step : Step} (h : Explored ast asked order (step :: rest))
    (hs : step.target? = some node) (hk : node.key ∈ order.map Node.key) :
    Explored ast asked order rest where
  reached other ho := by
    apply h.reached other
    rw [targets_cons]
    exact ho.imp_right (List.mem_append_right _)
  closed other ho := by
    rcases h.closed other ho with hc | hc
    · exact Or.inl hc
    · rw [targets_cons, hs, Option.toList_some, List.singleton_append] at hc
      rcases List.mem_cons.mp hc with rfl | hc
      · exact Or.inl hk
      · exact Or.inr hc

/-- Going to a declaration that is referred to is visiting it. -/
theorem Explored.refer {decl : DeclId} (h : Explored ast asked order (.refer decl :: rest)) :
    Explored ast asked order (.visit (.decl decl) :: rest) :=
  ⟨h.reached, h.closed⟩

/-- The node that comes next can be reached. -/
theorem Explored.reachable (h : Explored ast asked order (.visit node :: rest)) :
    ast.Reachable asked node :=
  h.reached node (Or.inr (by simp))

/-- A node that is entered brings the nodes it refers to. -/
theorem Explored.enter (h : Explored ast asked order (.visit node :: rest)) :
    Explored ast asked (order ++ [node]) (describe ast options node ++ rest) where
  reached other ho := by
    simp only [List.mem_append, List.mem_singleton, targets_append, mem_targets_describe] at ho
    rcases ho with (ho | rfl) | (ho | ho)
    · exact h.reached other (Or.inl ho)
    · exact h.reachable
    · exact .child h.reachable ho
    · exact h.reached other (Or.inr (by simp [ho]))
  closed other ho := by
    simp only [List.map_append, List.mem_append, targets_append, mem_targets_describe]
    have hold : (other ∈ asked ∨ ∃ parent ∈ order, other ∈ ast.references parent) →
        (other.key ∈ order.map Node.key ∨ other.key ∈ [node].map Node.key) ∨
          other ∈ ast.references node ∨ other ∈ targets rest := by
      intro ho
      rcases h.closed other ho with hc | hc
      · exact Or.inl (Or.inl hc)
      · rw [targets_cons, target?_visit, Option.toList_some, List.singleton_append] at hc
        rcases List.mem_cons.mp hc with rfl | hc
        · exact Or.inl (Or.inr (by simp))
        · exact Or.inr (Or.inr hc)
    rcases ho with ho | ⟨parent, hp, ho⟩
    · exact hold (Or.inl ho)
    · rcases List.mem_append.mp hp with hp | hp
      · exact hold (Or.inr ⟨parent, hp, ho⟩)
      · rw [List.mem_singleton.mp hp] at ho
        exact Or.inr (Or.inl ho)

/-! ### Moves and walks -/

/-- A move keeps the invariant: the node it enters joins the nodes described, and what it says is
logged. -/
theorem Traced.move (inRange : ast.InRange) (held : ∀ root ∈ asked, ast.HasNode root)
    (h : Traced ast options asked order log run steps) {entered : Option Node}
    (hm : Move ast options run steps entered run' steps') :
    ∃ more, Traced ast options asked (order ++ entered.toList) (log ++ more) run' steps' := by
  obtain ⟨registered, logged, told, explored⟩ := h
  cases hm with
  | emit fact rest =>
    refine ⟨[.emit fact], ?_⟩
    rw [Option.toList_none, List.append_nil]
    exact ⟨⟨registered.wf, registered.labelled, registered.marked, registered.nodup,
      registered.counted⟩,
      logged.emit fact told.grounded.1, told.say rfl, explored.say rfl⟩
  | report key kind span rest =>
    refine ⟨[.report key kind span], ?_⟩
    rw [Option.toList_none, List.append_nil]
    exact ⟨⟨registered.wf, registered.labelled, registered.marked, registered.nodup,
      registered.counted⟩,
      logged.report kind span (told.grounded.1 key (List.mem_singleton.mpr rfl)), told.say rfl,
      explored.say rfl⟩
  | known rest hl =>
    have hk := (registered.labelled _).mp (by rw [hl]; rfl)
    refine ⟨[], ?_⟩
    rw [Option.toList_none, List.append_nil, List.append_nil]
    exact ⟨registered, logged, told.skip rfl hk, explored.skip rfl hk⟩
  | refer rest hl =>
    refine ⟨[], ?_⟩
    rw [Option.toList_none, List.append_nil, List.append_nil]
    exact ⟨registered, logged, told.refer, explored.refer⟩
  | @pass node label registry rest hf hp =>
    have hk : node.key ∈ order.map Node.key := by
      by_contra hk
      have holds := (explored.reachable.hasNode inRange held).1
      exact hp ⟨holds, (registered.isFresh_iff _).mpr hk⟩
    rw [Registry.fetch_of_lookup (registered.lookup_eq_some hk)] at hf
    cases hf
    refine ⟨[], ?_⟩
    rw [Option.toList_none, List.append_nil, List.append_nil]
    exact ⟨registered, logged, told.skip rfl hk, explored.skip rfl hk⟩
  | @enter node label registry rest hf holds fresh =>
    have hk := (registered.isFresh_iff _).mp fresh
    rw [registered.mark_fetch hk hf]
    refine ⟨[], ?_⟩
    rw [Option.toList_some, List.append_nil]
    exact ⟨registered.enter hk, logged.enter hk, told.enter hk, explored.enter⟩

/-- Moves keep the invariant. -/
theorem Traced.moves (inRange : ast.InRange) (held : ∀ root ∈ asked, ast.HasNode root)
    (h : Traced ast options asked order log run steps) {nodes : List Node}
    (hm : Moves ast options run steps nodes run' steps') :
    ∃ log', Traced ast options asked (order ++ nodes) log' run' steps' := by
  apply hm.keeps (P := fun run steps order => ∃ log, Traced ast options asked order log run steps)
    _ order ⟨log, h⟩
  rintro run run' steps steps' entered order ⟨log, h⟩ hm
  obtain ⟨more, h'⟩ := h.move inRange held hm
  exact ⟨log ++ more, h'⟩

/-- A fresh run that is to visit some nodes has described none. -/
theorem traced_empty (ast : Ast) (options : ExtractionOptions) (asked : List Node) :
    Traced ast options asked [] [] {} (asked.map .visit) := by
  have ht : targets (asked.map .visit) = asked := by
    simp [targets, List.filterMap_map, Function.comp_def]
  refine ⟨⟨Registry.wf_empty, ?_, ?_, by simp, by simp [Registry.size]⟩, ⟨rfl, rfl, by simp⟩,
    ⟨by simp, by simp, ?_, ?_⟩, ⟨?_, ?_⟩⟩
  · simp [Registry.lookup]
  · simp
  · intro step hs hn
    obtain ⟨node, -, rfl⟩ := List.mem_map.mp (by simpa using hs)
    cases hn
  · have hg : ∀ known : NodeKey → Prop, Grounded known (asked.map .visit) := by
      clear ht
      induction asked with
      | nil => exact fun _ => trivial
      | cons node asked ih => exact fun known => (grounded_visit_cons node _).mpr (ih _)
    exact hg _
  · intro node hn
    rw [ht] at hn
    exact .root (hn.resolve_left List.not_mem_nil)
  · intro node hn
    rw [ht]
    rcases hn with hn | ⟨parent, hp, -⟩
    · exact Or.inr hn
    · cases hp

/-- A fresh run that visits nodes of a tree ends, with a trace. -/
theorem exists_traced (inRange : ast.InRange) (held : ∀ root ∈ asked, ast.HasNode root)
    (options : ExtractionOptions) :
    ∃ order log run, Moves ast options {} (asked.map .visit) order run [] ∧
      Traced ast options asked order log run [] := by
  obtain ⟨order, run, hm⟩ :=
    exists_moves ast options {} (asked.map .visit) Registry.wf_empty
  obtain ⟨log, h⟩ := (traced_empty ast options asked).moves inRange held hm
  exact ⟨order, log, run, hm, h⟩

end SwiftRelations.Extraction
