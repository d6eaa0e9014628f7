import SwiftRelations.Proofs.Extraction.Determination

/-!
# Locations stand apart

Whether locations are asked for changes nothing but the locations. A run that states them and one
that does not go through the same nodes in lock step: with the locations left out, the steps ahead
of the one are those of the other, and so are its facts. Each node described that has a place has
one location, before anything else that is said of it.
-/

namespace SwiftRelations.Extraction

/-- Whether a fact is a location. -/
def isLocation {ν : Type} (fact : Fact ν) : Bool := fact.relation == "locations"

/-- Whether a step states a location. -/
def Step.isLocation : Step → Bool
  | .emit fact => Extraction.isLocation fact
  | _ => false

/-- Some steps without the locations they state. -/
def unlocatedSteps (steps : List Step) : List Step := steps.filter (!·.isLocation)

/-- A run without the locations it stated. -/
def Run.unlocated (run : Run) : Run := { run with facts := run.facts.filter (!isLocation ·) }

variable {ast : Ast} {options : ExtractionOptions}

/-! ### Lock step -/

@[simp]
private theorem unlocatedSteps_append (a b : List Step) :
    unlocatedSteps (a ++ b) = unlocatedSteps a ++ unlocatedSteps b :=
  List.filter_append ..

/-- A step that states no location stays. -/
theorem unlocatedSteps_cons {step : Step} (h : step.isLocation = false) (steps : List Step) :
    unlocatedSteps (step :: steps) = step :: unlocatedSteps steps :=
  List.filter_cons_of_pos (by rw [h]; rfl)

/-- No content of a node is a location. -/
theorem unlocated_content (ast : Ast) (node : Node) :
    unlocatedSteps (content ast node) = content ast node := by
  apply List.filter_eq_self.mpr
  intro step hs
  cases step with
  | emit fact =>
    cases hp : ast.payload? node with
    | none =>
      rw [content_of_payload?_eq_none hp] at hs
      cases hs
    | some payload =>
      rw [content_eq hp] at hs
      have hf : fact ∈ factsOf (payload.steps node.key (ast.spanOf node)) :=
        List.mem_filterMap.mpr ⟨_, hs, rfl⟩
      have hr := (tells_payload node.key (ast.spanOf node) payload).among fact hf
      have hn : fact.relation ≠ "locations" := fun he =>
        payload.locations_notMem_relations (he ▸ hr)
      simp [Step.isLocation, isLocation, hn]
  | _ => rfl

/-- Without its location a node is described as if none had been asked for. -/
theorem unlocated_describe (ast : Ast) (options : ExtractionOptions) (node : Node) :
    unlocatedSteps (describe ast options node) = describe ast withoutLocations node := by
  have hl : unlocatedSteps (locationSteps ast options node) = [] := by
    rcases locationSteps_cases ast options node with h | ⟨span, h⟩ <;> rw [h] <;> rfl
  rw [describe_withoutLocations, describe, unlocatedSteps_append, hl, List.nil_append,
    unlocated_content]

/-- Stating a fact states it, but for a location, in the run without locations as well. -/
theorem Run.unlocated_emit (run : Run) (fact : Fact NodeKey) :
    (run.emit fact).unlocated =
      if isLocation fact then run.unlocated else run.unlocated.emit fact := by
  have hl : isLocation (fact.map run.labelOf) = isLocation fact := rfl
  cases h : isLocation fact
  · simp [Run.unlocated, Run.emit, hl, h]
    rfl
  · simp [Run.unlocated, Run.emit, hl, h]

/-- A walk that states locations goes in lock step with the walk that does not. -/
theorem walk_unlocated (ast : Ast) (options : ExtractionOptions) (run : Run)
    (steps : List Step) :
    walk ast withoutLocations run.unlocated (unlocatedSteps steps) =
      (walk ast options run steps).map Run.unlocated := by
  apply walk.induct ast options
    (fun run node rest =>
      walk.visit ast withoutLocations run.unlocated node (unlocatedSteps rest) =
        (walk.visit ast options run node rest).map Run.unlocated)
    (fun run steps =>
      walk ast withoutLocations run.unlocated (unlocatedSteps steps) =
        (walk ast options run steps).map Run.unlocated)
  -- a visit that collides, one that describes its node, and one that only labels it
  · intro run node rest collision h
    have h' : run.unlocated.registry.fetch node.key = .error collision := h
    simp only [walk.visit, h, h']
    rfl
  · intro run node rest label registry h labelled fresh _ ih
    have h' : run.unlocated.registry.fetch node.key = .ok (label, registry) := h
    have fresh' : ast.Holds node.key ∧ run.unlocated.isFresh node.key = true := fresh
    rw [unlocatedSteps_append, unlocated_describe] at ih
    rw [walk.visit, walk.visit, h, h']
    simp only [dif_pos fresh, dif_pos fresh']
    exact ih
  · intro run node rest label registry h labelled hp ih
    have h' : run.unlocated.registry.fetch node.key = .ok (label, registry) := h
    have hp' : ¬(ast.Holds node.key ∧ run.unlocated.isFresh node.key = true) := hp
    rw [walk.visit, walk.visit, h, h']
    simp only [dif_neg hp, dif_neg hp']
    exact ih
  -- a list of steps, by the first of them
  · intro run
    rw [unlocatedSteps, List.filter_nil, walk, walk]
    rfl
  · intro run fact rest ih
    rw [Run.unlocated_emit] at ih
    rw [walk]
    cases hl : isLocation fact
    · have hs : (Step.emit fact).isLocation = false := hl
      rw [hl] at ih
      rw [unlocatedSteps_cons hs, walk]
      exact ih
    · rw [hl] at ih
      rw [unlocatedSteps, List.filter_cons_of_neg (by simp [Step.isLocation, hl])]
      exact ih
  · intro run key kind span rest ih
    rw [walk, ← ih, unlocatedSteps_cons rfl, walk]
    rfl
  · intro run decl rest label h ih
    have h' : run.unlocated.registry.lookup (Node.decl decl).key = some label := h
    rw [unlocatedSteps_cons rfl, walk, walk, h, h']
    exact ih
  · intro run decl rest h ih
    have h' : run.unlocated.registry.lookup (Node.decl decl).key = none := h
    rw [unlocatedSteps_cons rfl, walk, walk, h, h']
    exact ih
  · intro run node rest ih
    rw [unlocatedSteps_cons rfl, walk, walk]
    exact ih

/-! ### Requests -/

section

variable (ast options)

/-- Extracting a node answers the same label with and without locations. -/
theorem Run.extract_unlocated (run : Run) (node : Node) :
    run.unlocated.extract ast withoutLocations node =
      (run.extract ast options node).map fun result => (result.1, result.2.unlocated) := by
  have h : walk ast withoutLocations run.unlocated [.visit node] = _ :=
    walk_unlocated ast options run [.visit node]
  rw [Run.extract, Run.extract, h]
  cases walk ast options run [.visit node] <;> rfl

/-- Extracting nodes answers the same labels with and without locations. -/
theorem Run.extractAll_unlocated (run : Run) (nodes : List Node) :
    run.unlocated.extractAll ast withoutLocations nodes =
      (run.extractAll ast options nodes).map fun result => (result.1, result.2.unlocated) := by
  induction nodes generalizing run with
  | nil => rfl
  | cons node nodes ih =>
    rw [Run.extractAll, Run.extractAll, Run.extract_unlocated]
    cases run.extract ast options node with
    | error collision => rfl
    | ok result =>
      simp only [Except.map, bind, Except.bind, ih]
      cases result.2.extractAll ast options nodes <;> rfl

/-- A request has the same answer with and without locations. -/
theorem Run.answer_unlocated (run : Run) (request : Request) :
    run.unlocated.answer ast withoutLocations request =
      (run.answer ast options request).map fun result => (result.1, result.2.unlocated) := by
  cases request with
  | extract node =>
    rw [Run.answer, Run.answer, Run.extract_unlocated]
    cases run.extract ast options node <;> rfl
  | extractAll nodes =>
    rw [Run.answer, Run.answer, Run.extractAll_unlocated]
    cases run.extractAll ast options nodes <;> rfl
  | lookup node => rfl

/-- Requests have the same answers with and without locations. -/
theorem Run.answerAll_unlocated (run : Run) (requests : List Request) :
    run.unlocated.answerAll ast withoutLocations requests =
      (run.answerAll ast options requests).map fun result => (result.1, result.2.unlocated) := by
  induction requests generalizing run with
  | nil => rfl
  | cons request requests ih =>
    rw [Run.answerAll, Run.answerAll, Run.answer_unlocated]
    cases run.answer ast options request with
    | error collision => rfl
    | ok result =>
      simp only [Except.map, bind, Except.bind, ih]
      cases result.2.answerAll ast options requests <;> rfl

end

/-! ### The locations of a finished run -/

/-- The location of the node of a label. -/
def locationFact (label : Label) (span : Span) : Fact Label where
  relation := "locations"
  args := [.node label, .int span.startLine, .int span.startCol, .int span.endLine,
    .int span.endCol]

/-- Each node that has a label and a place has one location, stated before all else about it. There
are no other locations. -/
structure Run.Located (ast : Ast) (run : Run) : Prop where
  first : ∀ (node : Node) (label : Label), run.registry.lookup node.key = some label →
    ∃ others, factsAbout run.facts.toList label =
        (ast.spanOf node).toList.map (locationFact label) ++ others ∧
      ∀ fact ∈ others, isLocation fact = false
  only : ∀ fact ∈ run.facts.toList, isLocation fact = true →
    ∃ (node : Node) (label : Label) (span : Span), run.registry.lookup node.key = some label ∧
      ast.spanOf node = some span ∧ fact = locationFact label span

section

variable {ast : Ast} {asked order : List Node} {log : List Step} {run : Run} {node : Node}

/-- Options that ask for locations. -/
def withLocations : ExtractionOptions := { emitLocations := true }

/-- What is said of a node with locations is its location and what is said without. -/
theorem said_withLocations (f : NodeKey → Label) (ast : Ast) (node : Node) :
    said f (describe ast withLocations node) =
      (ast.spanOf node).toList.map (locationFact (f node.key)) ++ said f (content ast node) := by
  rw [describe, said_append, locationSteps]
  cases ast.spanOf node <;> rfl

/-- No location is said in the content of a node. -/
theorem isLocation_of_mem_said {f : NodeKey → Label} {fact : Fact Label}
    (h : fact ∈ said f (content ast node)) : isLocation fact = false := by
  obtain ⟨source, hs, rfl⟩ := List.mem_map.mp h
  obtain ⟨step, hm, he⟩ := List.mem_filterMap.mp hs
  rw [← unlocated_content] at hm
  have hl := (List.mem_filter.mp hm).2
  cases step <;> cases he
  rw [Bool.not_eq_true'] at hl
  exact hl

/-- A run with locations and no steps ahead has located the nodes described. -/
theorem Traced.located (h : Traced ast withLocations asked order log run []) :
    run.Located ast where
  first node label hl := by
    obtain ⟨same, hs, hk⟩ := List.mem_map.mp ((h.registered.labelled node.key).mp (by rw [hl]; rfl))
    have hf := h.factsAbout_eq hs
    rw [said_withLocations, hk, ast.spanOf_congr hk, Run.labelOf, hl, Option.getD_some] at hf
    exact ⟨_, hf, fun fact hm => isLocation_of_mem_said hm⟩
  only fact hm hl := by
    obtain ⟨source, hs, rfl⟩ := h.mem_facts.mp (Array.mem_toList_iff.mp hm)
    obtain ⟨node, hn, hsub⟩ := h.exists_subject hs
    have ha : source.map run.labelOf ∈ factsAbout run.facts.toList (run.labelOf node.key) := by
      refine List.mem_filter.mpr ⟨hm, ?_⟩
      rw [Fact.subject?_map, hsub, Option.map_some, beq_self_eq_true]
    rw [h.factsAbout_eq hn, said_withLocations] at ha
    rcases List.mem_append.mp ha with ha | ha
    · obtain ⟨span, hspan, he⟩ := List.mem_map.mp ha
      exact ⟨node, _, span, h.registered.lookup_eq_some (List.mem_map_of_mem hn),
        Option.mem_toList.mp hspan, he.symm⟩
    · rw [isLocation_of_mem_said ha] at hl
      cases hl

/-- Any requests for nodes of a tree have the same answers with and without locations. They leave
the same labels and diagnostics, and the same facts but for the locations; and with locations each
node that has a label and a place is located once, before all else that is said of it. -/
theorem Run.answerAll_located {requests : List Request} (inRange : ast.InRange)
    (held : ∀ node ∈ Extraction.asked requests, ast.HasNode node) :
    ∃ answers run run',
      ({} : Run).answerAll ast withLocations requests = .ok (answers, run) ∧
      ({} : Run).answerAll ast withoutLocations requests = .ok (answers, run') ∧
      run'.registry = run.registry ∧
      run'.output =
        { run.output with facts := run.output.facts.filter (!isLocation ·) } ∧
      run.Located ast := by
  obtain ⟨order, log, run, hm, h⟩ := exists_traced inRange held withLocations
  obtain ⟨answers, ha⟩ := Run.answerAll_of_moves ast withLocations hm
  have hu := Run.answerAll_unlocated ast withLocations {} requests
  rw [ha] at hu
  refine ⟨answers, run, run.unlocated, ha, hu, rfl, ?_, h.located⟩
  simp only [Run.output, Run.unlocated, Array.toList_filter]

/-- The tree of `(nil, nil)` with one node for both elements, each node at its place. -/
def placedPair : Ast where
  exprs := #[{ kind := .tuple [⟨1⟩, ⟨1⟩], type := none, span := some ⟨0, 10, 1, 1, 1, 11⟩ },
    { kind := .nilLiteral, type := none, span := some ⟨1, 4, 1, 2, 1, 5⟩ }]

/-- A node may be asked for before the node that it is a part of. -/
theorem Run.answerAll_located_placedPair :
    placedPair.InRange ∧
      ∃ answers run run',
        ({} : Run).answerAll placedPair withLocations
          [.lookup (.expr ⟨1⟩), .extractAll [.expr ⟨1⟩, .expr ⟨0⟩]] = .ok (answers, run) ∧
        ({} : Run).answerAll placedPair withoutLocations
          [.lookup (.expr ⟨1⟩), .extractAll [.expr ⟨1⟩, .expr ⟨0⟩]] = .ok (answers, run') ∧
        run'.registry = run.registry ∧
        run'.output =
          { run.output with facts := run.output.facts.filter (!isLocation ·) } ∧
        run.Located placedPair :=
  ⟨by decide, Run.answerAll_located (by decide) (by decide)⟩

end

end SwiftRelations.Extraction
