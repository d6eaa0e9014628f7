import SwiftRelations.Proofs.Extraction.Requests

/-!
# The shortcut for references

At a reference to a declaration the walk looks for a label first, and visits the declaration only
if it has none. A walk that visits the declaration in any case is the same walk. Every node that
was labelled was marked in the same breath, so a visit to a labelled declaration, finished or still
under way, changes nothing.
-/

namespace SwiftRelations.Extraction

/-- Going through a list of steps, where a reference is always a visit. -/
def walkEagerly (ast : Ast) (options : ExtractionOptions) (run : Run) :
    List Step → Except Collision Run
  | [] => .ok run
  | .emit fact :: rest => walkEagerly ast options (run.emit fact) rest
  | .report key kind span :: rest => walkEagerly ast options (run.report key kind span) rest
  | .refer decl :: rest => visit run (.decl decl) rest
  | .visit node :: rest => visit run node rest
termination_by steps => (run.remaining ast, steps.length, 0)
where
  /-- Visiting a node and going on with the steps after it. -/
  visit (run : Run) (node : Node) (rest : List Step) : Except Collision Run :=
    match run.registry.fetch node.key with
    | .error collision => .error collision
    | .ok (_, registry) =>
      let labelled : Run := { run with registry }
      if h : ast.Holds node.key ∧ run.isFresh node.key = true then
        have : (labelled.mark node.key).remaining ast < run.remaining ast :=
          @Run.remaining_mark_lt run ast node.key h.1 h.2
        walkEagerly ast options (labelled.mark node.key) (describe ast options node ++ rest)
      else walkEagerly ast options labelled rest
  termination_by (run.remaining ast, rest.length, 1)

/-! ### Requests to any walk -/

section

variable (go : Run → List Step → Except Collision Run)

/-- Visit a node by a walk: its label, and the run after it. -/
def Run.extractBy (run : Run) (node : Node) : Except Collision (Label × Run) := do
  let run ← go run [.visit node]
  return (run.labelOf node.key, run)

/-- Visit nodes in order by a walk: their labels, and the run after them. -/
def Run.extractAllBy (run : Run) : List Node → Except Collision (List Label × Run)
  | [] => .ok ([], run)
  | node :: nodes => do
    let (label, run) ← run.extractBy go node
    let (labels, run) ← run.extractAllBy nodes
    return (label :: labels, run)

/-- The answer to a request by a walk, and the run after it. -/
def Run.answerBy (run : Run) : Request → Except Collision (Answer × Run)
  | .extract node => do
    let (label, run) ← run.extractBy go node
    return (.label label, run)
  | .extractAll nodes => do
    let (labels, run) ← run.extractAllBy go nodes
    return (.labels labels, run)
  | .lookup node => .ok (.found (run.registry.lookup node.key), run)

/-- The answers to some requests by a walk, and the run after them. -/
def Run.answerAllBy (run : Run) : List Request → Except Collision (List Answer × Run)
  | [] => .ok ([], run)
  | request :: requests => do
    let (answer, run) ← run.answerBy go request
    let (answers, run) ← run.answerAllBy requests
    return (answer :: answers, run)

end

/-! ### Walks that do the same -/

section

variable {P : Run → Prop} {go go' : Run → List Step → Except Collision Run} {run : Run}

/-- From every run of some property two walks end in the same run, again of that property. -/
def Agree (P : Run → Prop) (go go' : Run → List Step → Except Collision Run) : Prop :=
  ∀ run steps, P run → ∃ run', go run steps = .ok run' ∧ go' run steps = .ok run' ∧ P run'

/-- Walks that do the same extract a node alike. -/
theorem Agree.extractBy (agree : Agree P go go') (node : Node) (hp : P run) :
    ∃ label run', run.extractBy go node = .ok (label, run') ∧
      run.extractBy go' node = .ok (label, run') ∧ P run' := by
  obtain ⟨run', h, h', hp'⟩ := agree run [.visit node] hp
  exact ⟨run'.labelOf node.key, run', by rw [Run.extractBy, h]; rfl,
    by rw [Run.extractBy, h']; rfl, hp'⟩

/-- Walks that do the same extract nodes alike. -/
theorem Agree.extractAllBy (agree : Agree P go go') (nodes : List Node) (hp : P run) :
    ∃ labels run', run.extractAllBy go nodes = .ok (labels, run') ∧
      run.extractAllBy go' nodes = .ok (labels, run') ∧ P run' := by
  induction nodes generalizing run with
  | nil => exact ⟨[], run, rfl, rfl, hp⟩
  | cons node nodes ih =>
    obtain ⟨label, run₁, h, h', hp₁⟩ := agree.extractBy node hp
    obtain ⟨labels, run₂, hs, hs', hp₂⟩ := ih hp₁
    refine ⟨label :: labels, run₂, ?_, ?_, hp₂⟩
    · simp only [Run.extractAllBy, h, hs, bind, Except.bind, pure, Except.pure]
    · simp only [Run.extractAllBy, h', hs', bind, Except.bind, pure, Except.pure]

/-- Walks that do the same answer a request alike. -/
theorem Agree.answerBy (agree : Agree P go go') (request : Request) (hp : P run) :
    ∃ answer run', run.answerBy go request = .ok (answer, run') ∧
      run.answerBy go' request = .ok (answer, run') ∧ P run' := by
  cases request with
  | extract node =>
    obtain ⟨label, run', h, h', hp'⟩ := agree.extractBy node hp
    exact ⟨.label label, run', by rw [Run.answerBy, h]; rfl, by rw [Run.answerBy, h']; rfl, hp'⟩
  | extractAll nodes =>
    obtain ⟨labels, run', h, h', hp'⟩ := agree.extractAllBy nodes hp
    exact ⟨.labels labels, run', by rw [Run.answerBy, h]; rfl, by rw [Run.answerBy, h']; rfl, hp'⟩
  | lookup node => exact ⟨.found (run.registry.lookup node.key), run, rfl, rfl, hp⟩

/-- Walks that do the same answer requests alike. -/
theorem Agree.answerAllBy (agree : Agree P go go') (requests : List Request) (hp : P run) :
    ∃ answers run', run.answerAllBy go requests = .ok (answers, run') ∧
      run.answerAllBy go' requests = .ok (answers, run') ∧ P run' := by
  induction requests generalizing run with
  | nil => exact ⟨[], run, rfl, rfl, hp⟩
  | cons request requests ih =>
    obtain ⟨answer, run₁, h, h', hp₁⟩ := agree.answerBy request hp
    obtain ⟨answers, run₂, hs, hs', hp₂⟩ := ih hp₁
    refine ⟨answer :: answers, run₂, ?_, ?_, hp₂⟩
    · simp only [Run.answerAllBy, h, hs, bind, Except.bind, pure, Except.pure]
    · simp only [Run.answerAllBy, h', hs', bind, Except.bind, pure, Except.pure]

end

variable {ast : Ast} {options : ExtractionOptions} {run run' : Run} {key : NodeKey}

/-- By the walk with the shortcut, nodes are extracted as they are extracted. -/
theorem Run.extractAllBy_walk (run : Run) (nodes : List Node) :
    run.extractAllBy (walk ast options) nodes = run.extractAll ast options nodes := by
  induction nodes generalizing run with
  | nil => rfl
  | cons node nodes ih =>
    simp only [Run.extractAllBy, Run.extractAll, ih]
    rfl

/-- By the walk with the shortcut, requests are answered as they are answered. -/
theorem Run.answerAllBy_walk (run : Run) (requests : List Request) :
    run.answerAllBy (walk ast options) requests = run.answerAll ast options requests := by
  induction requests generalizing run with
  | nil => rfl
  | cons request requests ih =>
    have h : run.answerBy (walk ast options) request = run.answer ast options request := by
      cases request with
      | extractAll nodes => rw [Run.answerBy, Run.answer, Run.extractAllBy_walk]
      | _ => rfl
    simp only [Run.answerAllBy, Run.answerAll, h, ih]

/-! ### Labelled nodes are marked -/

/-- Between two moves of a walk every node of the tree that has a label is marked. -/
structure Run.Settled (ast : Ast) (run : Run) : Prop where
  wf : run.registry.WF
  marked : ∀ key, (run.registry.lookup key).isSome → ast.Holds key → run.isFresh key = false

/-- A run that has given out no label is settled. -/
theorem Run.settled_empty (ast : Ast) : ({} : Run).Settled ast where
  wf := Registry.wf_empty
  marked key hl := by simp [Registry.lookup] at hl

/-- A move leaves a settled run settled. -/
theorem Move.settled {steps steps' : List Step} {entered : Option Node}
    (h : Move ast options run steps entered run' steps') (settled : run.Settled ast) :
    run'.Settled ast where
  wf := h.wf settled.wf
  marked key hl holds := by
    cases h with
    | @pass node _ _ rest h hp =>
      by_cases he : node.key = key
      · subst he
        exact Bool.eq_false_iff.mpr fun fresh => hp ⟨holds, fresh⟩
      · rw [Registry.lookup_fetch_of_ne h he] at hl
        exact settled.marked key hl holds
    | @enter node _ _ rest h _ _ =>
      by_cases he : node.key = key
      · simp [Run.isFresh, Run.mark, he]
      · have hl' : (run.registry.lookup key).isSome := by
          rw [← Registry.lookup_fetch_of_ne h he]
          exact hl
        have hm := settled.marked key hl' holds
        simp only [Run.isFresh, Bool.not_eq_eq_eq_not, Bool.not_false] at hm
        simp [Run.isFresh, Run.mark, hm]
    | _ => exact settled.marked key hl holds

/-! ### The walk without the shortcut -/

/-- In a settled run, a visit to a node that has a label goes on with the next steps. -/
theorem walkEagerly_visit_of_lookup (settled : run.Settled ast) {node : Node} {label : Label}
    (h : run.registry.lookup node.key = some label) (rest : List Step) :
    walkEagerly.visit ast options run node rest = walkEagerly ast options run rest := by
  have hp : ¬(ast.Holds node.key ∧ run.isFresh node.key = true) := by
    rintro ⟨holds, fresh⟩
    rw [settled.marked node.key (by rw [h]; rfl) holds] at fresh
    cases fresh
  rw [walkEagerly.visit, Registry.fetch_of_lookup h]
  exact dif_neg hp

/-- From a settled run, a move does not change where the walk without the shortcut ends. -/
theorem walkEagerly_of_move {steps steps' : List Step} {entered : Option Node}
    (settled : run.Settled ast) (h : Move ast options run steps entered run' steps') :
    walkEagerly ast options run steps = walkEagerly ast options run' steps' := by
  cases h with
  | emit => rw [walkEagerly]
  | report => rw [walkEagerly]
  | known rest h => rw [walkEagerly, walkEagerly_visit_of_lookup settled h]
  | refer rest h => rw [walkEagerly, walkEagerly]
  | pass rest h hp =>
    rw [walkEagerly, walkEagerly.visit, h]
    exact dif_neg hp
  | enter rest h holds fresh =>
    rw [walkEagerly, walkEagerly.visit, h]
    exact dif_pos ⟨holds, fresh⟩

/-- From a settled run, moves to the end of the steps are the walk without the shortcut, and leave
a settled run. -/
theorem walkEagerly_of_moves {steps : List Step} {nodes : List Node} (settled : run.Settled ast)
    (h : Moves ast options run steps nodes run' []) :
    walkEagerly ast options run steps = .ok run' ∧ run'.Settled ast := by
  generalize hs : ([] : List Step) = rest at h
  induction h with
  | refl => exact ⟨by rw [← hs, walkEagerly], settled⟩
  | head hm _ ih =>
    rw [walkEagerly_of_move settled hm]
    exact ih (hm.settled settled) hs

/-- From a settled run the two walks end in the same settled run. -/
theorem agree_walkEagerly (ast : Ast) (options : ExtractionOptions) :
    Agree (Run.Settled ast) (walk ast options) (walkEagerly ast options) := by
  intro run steps settled
  obtain ⟨nodes, run', hm⟩ := exists_moves ast options run steps settled.wf
  obtain ⟨he, hs⟩ := walkEagerly_of_moves settled hm
  exact ⟨run', walk_of_moves hm, he, hs⟩

/-- Any requests are answered, by both walks alike: with the same labels, and in the end with the
same labels given out, nodes marked, facts and diagnostics. -/
theorem Run.answerAll_eq_eagerly (ast : Ast) (options : ExtractionOptions)
    (requests : List Request) :
    ∃ answers run, ({} : Run).answerAll ast options requests = .ok (answers, run) ∧
      ({} : Run).answerAllBy (walkEagerly ast options) requests = .ok (answers, run) := by
  obtain ⟨answers, run, h, h', -⟩ :=
    (agree_walkEagerly ast options).answerAllBy requests (Run.settled_empty ast)
  rw [Run.answerAllBy_walk] at h
  exact ⟨answers, run, h, h'⟩

end SwiftRelations.Extraction
