import SwiftRelations.Extraction.Walk
import SwiftRelations.Proofs.Facts.Registry

/-!
# The moves of a walk

A walk is taken apart into single moves on a run and the steps still ahead of it: a stack on which
the rest of every description begun and not finished lies below the current one. A move that begins
the description of a node carries that node, so that a sequence of moves lists the nodes described,
in order. A walk with a well-formed registry ends and does what its moves do.
-/

namespace SwiftRelations.Extraction

/-- One move of a walk, with the node whose description it begins. -/
inductive Move (ast : Ast) (options : ExtractionOptions) :
    Run → List Step → Option Node → Run → List Step → Prop where
  | emit (run : Run) (fact : Fact NodeKey) (rest : List Step) :
      Move ast options run (.emit fact :: rest) none (run.emit fact) rest
  | report (run : Run) (key : NodeKey) (kind : String) (span : Option Span) (rest : List Step) :
      Move ast options run (.report key kind span :: rest) none (run.report key kind span) rest
  /-- The declaration referred to has a label. -/
  | known {run : Run} {decl : DeclId} {label : Label} (rest : List Step)
      (h : run.registry.lookup (Node.decl decl).key = some label) :
      Move ast options run (.refer decl :: rest) none run rest
  /-- The declaration referred to is visited. -/
  | refer {run : Run} {decl : DeclId} (rest : List Step)
      (h : run.registry.lookup (Node.decl decl).key = none) :
      Move ast options run (.refer decl :: rest) none run (.visit (.decl decl) :: rest)
  /-- The node is only labelled. -/
  | pass {run : Run} {node : Node} {label : Label} {registry : Registry} (rest : List Step)
      (h : run.registry.fetch node.key = .ok (label, registry))
      (hp : ¬(ast.Holds node.key ∧ run.isFresh node.key = true)) :
      Move ast options run (.visit node :: rest) none { run with registry } rest
  /-- The node is labelled and marked, and its description begins. -/
  | enter {run : Run} {node : Node} {label : Label} {registry : Registry} (rest : List Step)
      (h : run.registry.fetch node.key = .ok (label, registry)) (holds : ast.Holds node.key)
      (fresh : run.isFresh node.key = true) :
      Move ast options run (.visit node :: rest) (some node)
        (Run.mark { run with registry } node.key) (describe ast options node ++ rest)

/-- Some moves of a walk, with the nodes whose descriptions they begin, in order. -/
inductive Moves (ast : Ast) (options : ExtractionOptions) :
    Run → List Step → List Node → Run → List Step → Prop where
  | refl (run : Run) (steps : List Step) : Moves ast options run steps [] run steps
  | head {run run' run'' : Run} {steps steps' steps'' : List Step} {entered : Option Node}
      {nodes : List Node} (h : Move ast options run steps entered run' steps')
      (hs : Moves ast options run' steps' nodes run'' steps'') :
      Moves ast options run steps (entered.toList ++ nodes) run'' steps''

variable {ast : Ast} {options : ExtractionOptions} {run run' run'' : Run}
  {steps steps' steps'' : List Step}

/-- A move does not change where the walk ends. -/
theorem walk_of_move {entered : Option Node} (h : Move ast options run steps entered run' steps') :
    walk ast options run steps = walk ast options run' steps' := by
  cases h with
  | emit => rw [walk]
  | report => rw [walk]
  | known rest h => rw [walk, h]
  | refer rest h => rw [walk, h, walk]
  | pass rest h hp =>
    rw [walk, walk.visit, h]
    exact dif_neg hp
  | enter rest h holds fresh =>
    rw [walk, walk.visit, h]
    exact dif_pos ⟨holds, fresh⟩

/-- Moves to the end of the steps are the walk. -/
theorem walk_of_moves {nodes : List Node} (h : Moves ast options run steps nodes run' []) :
    walk ast options run steps = .ok run' := by
  generalize hs : ([] : List Step) = rest at h
  induction h with
  | refl => rw [← hs, walk]
  | head hm _ ih => rw [walk_of_move hm, ih hs]

/-- A walk that starts with a well-formed registry ends, and consists of moves. -/
theorem exists_moves (ast : Ast) (options : ExtractionOptions) (run : Run) (steps : List Step)
    (wf : run.registry.WF) : ∃ nodes run', Moves ast options run steps nodes run' [] := by
  revert wf
  apply walk.induct ast options
    (fun run node rest => run.registry.WF →
      ∃ nodes run', Moves ast options run (.visit node :: rest) nodes run' [])
    (fun run steps => run.registry.WF →
      ∃ nodes run', Moves ast options run steps nodes run' [])
  -- a visit that would collide, one that describes its node, and one that only labels it
  · intro run node rest collision h wf
    obtain ⟨_, _, hok⟩ := wf.fetch_ok node.key
    rw [h] at hok
    cases hok
  · intro run node rest label registry h labelled fresh _ ih wf
    obtain ⟨nodes, run', hm⟩ := ih (wf.fetch h)
    exact ⟨_, run', .head (.enter rest h fresh.1 fresh.2) hm⟩
  · intro run node rest label registry h labelled hp ih wf
    obtain ⟨nodes, run', hm⟩ := ih (wf.fetch h)
    exact ⟨_, run', .head (.pass rest h hp) hm⟩
  -- a list of steps, by the first of them
  · intro run _
    exact ⟨_, run, .refl run []⟩
  · intro run fact rest ih wf
    obtain ⟨nodes, run', hm⟩ := ih wf
    exact ⟨_, run', .head (.emit run fact rest) hm⟩
  · intro run key kind span rest ih wf
    obtain ⟨nodes, run', hm⟩ := ih wf
    exact ⟨_, run', .head (.report run key kind span rest) hm⟩
  · intro run decl rest label h ih wf
    obtain ⟨nodes, run', hm⟩ := ih wf
    exact ⟨_, run', .head (.known rest h) hm⟩
  · intro run decl rest h ih wf
    obtain ⟨nodes, run', hm⟩ := ih wf
    exact ⟨_, run', .head (.refer rest h) hm⟩
  · intro run node rest ih wf
    exact ih wf

/-- What every move keeps, moves keep: a property of a run, the steps ahead and the nodes whose
descriptions have begun. -/
theorem Moves.keeps {P : Run → List Step → List Node → Prop}
    (keep : ∀ {run run' steps steps' entered order}, P run steps order →
      Move ast options run steps entered run' steps' → P run' steps' (order ++ entered.toList))
    {nodes : List Node} (h : Moves ast options run steps nodes run' steps') (order : List Node)
    (hp : P run steps order) : P run' steps' (order ++ nodes) := by
  induction h generalizing order with
  | refl => simpa using hp
  | head hm _ ih =>
    rw [← List.append_assoc]
    exact ih _ (keep hp hm)

/-- A move keeps a registry well formed. -/
theorem Move.wf {entered : Option Node} (h : Move ast options run steps entered run' steps')
    (wf : run.registry.WF) : run'.registry.WF := by
  cases h with
  | pass rest h => exact wf.fetch h
  | enter rest h => exact wf.fetch h
  | _ => exact wf

/-- A node that has a label keeps it in a move. -/
theorem Move.lookup {entered : Option Node} (h : Move ast options run steps entered run' steps')
    {key : NodeKey} {label : Label} (hk : run.registry.lookup key = some label) :
    run'.registry.lookup key = some label := by
  cases h with
  | pass rest h => exact Registry.lookup_of_fetch h hk
  | enter rest h => exact Registry.lookup_of_fetch h hk
  | _ => exact hk

/-- Moves keep a registry well formed. -/
theorem Moves.wf {nodes : List Node} (h : Moves ast options run steps nodes run' steps')
    (wf : run.registry.WF) : run'.registry.WF :=
  h.keeps (P := fun run _ _ => run.registry.WF) (fun wf hm => hm.wf wf) [] wf

/-- A node that has a label keeps it. -/
theorem Moves.lookup {nodes : List Node} (h : Moves ast options run steps nodes run' steps')
    {key : NodeKey} {label : Label} (hk : run.registry.lookup key = some label) :
    run'.registry.lookup key = some label :=
  h.keeps (P := fun run _ _ => run.registry.lookup key = some label)
    (fun hk hm => hm.lookup hk) [] hk

/-- A node that was visited has a label. -/
theorem Moves.lookup_visit {node : Node} {rest : List Step} {nodes : List Node}
    (h : Moves ast options run (.visit node :: rest) nodes run' []) :
    ∃ label, run'.registry.lookup node.key = some label := by
  cases h with
  | head hm hs =>
    cases hm with
    | pass rest h => exact ⟨_, hs.lookup (Registry.lookup_fetch h)⟩
    | enter rest h => exact ⟨_, hs.lookup (Registry.lookup_fetch h)⟩

/-- A move is determined by the run and the steps ahead. -/
theorem Move.unique {entered entered' : Option Node}
    (h : Move ast options run steps entered run' steps')
    (h' : Move ast options run steps entered' run'' steps'') :
    entered = entered' ∧ run' = run'' ∧ steps' = steps'' := by
  cases h <;> cases h' <;> simp_all

/-- The nodes described on the way to the end of the steps are determined. -/
theorem Moves.unique {nodes nodes' : List Node}
    (h : Moves ast options run steps nodes run' [])
    (h' : Moves ast options run steps nodes' run'' []) : nodes = nodes' ∧ run' = run'' := by
  generalize hs : ([] : List Step) = rest at h
  induction h generalizing nodes' with
  | refl =>
    subst hs
    cases h' with
    | refl => exact ⟨rfl, rfl⟩
    | head hm => cases hm
  | head hm _ ih =>
    subst hs
    cases h' with
    | refl => cases hm
    | head hm' hs' =>
      obtain ⟨rfl, rfl, rfl⟩ := hm.unique hm'
      obtain ⟨rfl, rfl⟩ := ih hs' rfl
      exact ⟨rfl, rfl⟩

end SwiftRelations.Extraction
