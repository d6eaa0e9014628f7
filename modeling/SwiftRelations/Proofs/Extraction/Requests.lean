import SwiftRelations.Extraction.Output
import SwiftRelations.Proofs.Extraction.Trace

/-!
# Requests

A run is used by any sequence of requests: to extract a node, to extract several, or to look up the
label of one. What a sequence of requests leaves behind is what one walk leaves that visits the
nodes asked for, in order; so a run after any requests has a trace.
-/

namespace SwiftRelations.Extraction

/-- A request to a run. -/
inductive Request where
  | extract (node : Node)
  | extractAll (nodes : List Node)
  | lookup (node : Node)
  deriving Repr, Inhabited

/-- The answer to a request. -/
inductive Answer where
  | label (label : Label)
  | labels (labels : List Label)
  /-- The label of the node looked up, if it has one. -/
  | found (label : Option Label)
  deriving DecidableEq, Repr, Inhabited

/-- The nodes a request asks to extract. -/
def Request.nodes : Request → List Node
  | .extract node => [node]
  | .extractAll nodes => nodes
  | .lookup _ => []

/-- The nodes some requests ask to extract, in order. -/
def asked (requests : List Request) : List Node := requests.flatMap Request.nodes

/-- The answer to a request, and the run after it. -/
def Run.answer (ast : Ast) (options : ExtractionOptions) (run : Run) :
    Request → Except Collision (Answer × Run)
  | .extract node => do
    let (label, run) ← run.extract ast options node
    return (.label label, run)
  | .extractAll nodes => do
    let (labels, run) ← run.extractAll ast options nodes
    return (.labels labels, run)
  | .lookup node => .ok (.found (run.registry.lookup node.key), run)

/-- The answers to some requests, one after the other, and the run after them. -/
def Run.answerAll (ast : Ast) (options : ExtractionOptions) (run : Run) :
    List Request → Except Collision (List Answer × Run)
  | [] => .ok ([], run)
  | request :: requests => do
    let (answer, run) ← run.answer ast options request
    let (answers, run) ← run.answerAll ast options requests
    return (answer :: answers, run)

variable (ast : Ast) (options : ExtractionOptions)

/-- A walk through some steps and then others is one walk. -/
theorem walk_append (run : Run) (a b : List Step) :
    walk ast options run (a ++ b) = (walk ast options run a).bind (walk ast options · b) := by
  apply walk.induct ast options
    (fun run node rest =>
      walk.visit ast options run node (rest ++ b) =
        (walk.visit ast options run node rest).bind (walk ast options · b))
    (fun run a =>
      walk ast options run (a ++ b) = (walk ast options run a).bind (walk ast options · b))
  -- a visit that collides, one that describes its node, and one that only labels it
  · intro run node rest collision h
    simp only [walk.visit, h]
    rfl
  · intro run node rest label registry h labelled fresh _ ih
    rw [List.append_assoc] at ih
    rw [walk.visit, walk.visit, h]
    simp only [dif_pos fresh]
    exact ih
  · intro run node rest label registry h labelled hp ih
    rw [walk.visit, walk.visit, h]
    simp only [dif_neg hp]
    exact ih
  -- a list of steps, by the first of them
  · intro run
    rw [List.nil_append, walk]
    rfl
  · intro run fact rest ih
    rw [List.cons_append, walk, walk, ih]
  · intro run key kind span rest ih
    rw [List.cons_append, walk, walk, ih]
  · intro run decl rest label h ih
    rw [List.cons_append, walk, walk, h]
    exact ih
  · intro run decl rest h ih
    rw [List.cons_append, walk, walk, h]
    exact ih
  · intro run node rest ih
    rw [List.cons_append, walk, walk, ih]

/-- Extracting a node leaves what a visit to it leaves. -/
theorem Run.extract_state (run : Run) (node : Node) :
    (run.extract ast options node).map Prod.snd = walk ast options run [.visit node] := by
  rw [Run.extract]
  cases walk ast options run [.visit node] <;> rfl

/-- Extracting nodes leaves what visits to them leave. -/
theorem Run.extractAll_state (run : Run) (nodes : List Node) :
    (run.extractAll ast options nodes).map Prod.snd =
      walk ast options run (nodes.map .visit) := by
  induction nodes generalizing run with
  | nil =>
    rw [Run.extractAll, List.map_nil, walk]
    rfl
  | cons node nodes ih =>
    have hc : (node :: nodes).map Step.visit = [.visit node] ++ nodes.map .visit := rfl
    rw [hc, walk_append, ← run.extract_state, Run.extractAll]
    cases run.extract ast options node with
    | error collision => rfl
    | ok result =>
      have h := ih result.2
      change _ = walk ast options result.2 (nodes.map .visit)
      rw [← h]
      simp only [bind, Except.bind]
      cases result.2.extractAll ast options nodes <;> rfl

/-- A result whose state is known is a success. -/
theorem exists_eq_ok {α β : Type} {result : Except Collision (α × β)} {state : β}
    (h : result.map Prod.snd = .ok state) : ∃ answer, result = .ok (answer, state) := by
  cases result with
  | error collision => cases h
  | ok pair =>
    cases h
    exact ⟨pair.1, rfl⟩

/-- The labels answered are those that the nodes have in the end. -/
theorem Run.extractAll_labels {run run' : Run} (wf : run.registry.WF) {nodes : List Node}
    {labels : List Label} (h : run.extractAll ast options nodes = .ok (labels, run')) :
    labels = nodes.map fun node => run'.labelOf node.key := by
  induction nodes generalizing run labels with
  | nil =>
    cases h
    rfl
  | cons node nodes ih =>
    obtain ⟨_, run₁, hm⟩ := exists_moves ast options run [.visit node] wf
    obtain ⟨_, run₂, hs⟩ := exists_moves ast options run₁ (nodes.map .visit) (hm.wf wf)
    obtain ⟨more, hr⟩ :=
      exists_eq_ok ((run₁.extractAll_state ast options nodes).trans (walk_of_moves hs))
    rw [Run.extractAll, Run.extract, walk_of_moves hm] at h
    simp only [bind, Except.bind, pure, Except.pure, hr, Except.ok.injEq, Prod.mk.injEq] at h
    obtain ⟨rfl, rfl⟩ := h
    -- the label is answered before the other nodes are visited, and kept
    obtain ⟨label, hl⟩ := hm.lookup_visit
    have hl' := hs.lookup hl
    rw [List.map_cons, ← ih (hm.wf wf) hr]
    simp only [Run.labelOf, hl, hl']

/-- A walk to the end is a success of the extraction of the nodes it visits. -/
theorem Run.extractAll_of_moves {run run' : Run} (wf : run.registry.WF)
    {nodes entered : List Node}
    (h : Moves ast options run (nodes.map .visit) entered run' []) :
    run.extractAll ast options nodes =
      .ok (nodes.map fun node => run'.labelOf node.key, run') := by
  obtain ⟨labels, hr⟩ :=
    exists_eq_ok ((run.extractAll_state ast options nodes).trans (walk_of_moves h))
  rw [hr, ← Run.extractAll_labels ast options wf hr]

/-- A request leaves what visits to its nodes leave. -/
theorem Run.answer_state (run : Run) (request : Request) :
    (run.answer ast options request).map Prod.snd =
      walk ast options run (request.nodes.map .visit) := by
  cases request with
  | extract node =>
    rw [Request.nodes, List.map_cons, List.map_nil, ← run.extract_state, Run.answer]
    cases run.extract ast options node <;> rfl
  | extractAll nodes =>
    rw [Request.nodes, ← run.extractAll_state, Run.answer]
    cases run.extractAll ast options nodes <;> rfl
  | lookup node =>
    rw [Request.nodes, List.map_nil, walk]
    rfl

/-- Requests leave what visits to the nodes they ask for leave. -/
theorem Run.answerAll_state (run : Run) (requests : List Request) :
    (run.answerAll ast options requests).map Prod.snd =
      walk ast options run ((asked requests).map .visit) := by
  induction requests generalizing run with
  | nil =>
    rw [Run.answerAll, asked, List.flatMap_nil, List.map_nil, walk]
    rfl
  | cons request requests ih =>
    rw [asked, List.flatMap_cons, List.map_append, walk_append, ← run.answer_state,
      Run.answerAll]
    cases run.answer ast options request with
    | error collision => rfl
    | ok result =>
      have h := ih result.2
      change _ = walk ast options result.2 ((asked requests).map .visit)
      rw [← h]
      simp only [bind, Except.bind]
      cases result.2.answerAll ast options requests <;> rfl

/-- A walk to the end is a success of the requests whose nodes it visits. -/
theorem Run.answerAll_of_moves {run run' : Run} {requests : List Request} {nodes : List Node}
    (h : Moves ast options run ((asked requests).map .visit) nodes run' []) :
    ∃ answers, run.answerAll ast options requests = .ok (answers, run') :=
  exists_eq_ok ((run.answerAll_state ast options requests).trans (walk_of_moves h))

end SwiftRelations.Extraction
