import SwiftRelations.Extraction.Output
import SwiftRelations.Proofs.Extraction.Moves
import SwiftRelations.Proofs.Extraction.Steps

/-!
# Nested visits

A visit stays open while its node is described, and the visits to what the node refers to are made
inside it. `Visits` is the walk with these nested visits: it tells of each visit made which visits
were open around it. Since a node is marked before its description begins, no open visit is made
again inside itself, and there are never more visits than nodes. That bounds the depth and the
number of visits on every tree, whatever cycles it has.
-/

namespace SwiftRelations

/-- The number of nodes of a tree. -/
def Ast.size (ast : Ast) : Nat :=
  ast.decls.size + ast.stmts.size + ast.stmtConditions.size + ast.caseLabelItems.size +
    ast.exprs.size + ast.patterns.size + ast.types.size + ast.typeReprs.size

namespace Extraction

/-- Going through some steps inside the visits of `outer`, the innermost first. Each visit that is
made on the way is told as its node followed by the nodes of the visits open around it. -/
inductive Visits (ast : Ast) (options : ExtractionOptions) :
    List Node → Run → List Step → List (List Node) → Run → Prop where
  | done (outer : List Node) (run : Run) : Visits ast options outer run [] [] run
  /-- A move that begins no description. -/
  | move {outer : List Node} {run run' run'' : Run} {steps steps' : List Step}
      {made : List (List Node)} (h : Move ast options run steps none run' steps')
      (after : Visits ast options outer run' steps' made run'') :
      Visits ast options outer run steps made run''
  /-- A visit that describes its node: it is open until the description ends. -/
  | enter {outer : List Node} {run run' run'' run''' : Run} {node : Node} {rest : List Step}
      {inside afterwards : List (List Node)}
      (h : Move ast options run (.visit node :: rest) (some node) run'
        (describe ast options node ++ rest))
      (inner : Visits ast options (node :: outer) run' (describe ast options node) inside run'')
      (after : Visits ast options outer run'' rest afterwards run''') :
      Visits ast options outer run (.visit node :: rest)
        ((node :: outer) :: (inside ++ afterwards)) run'''

variable {ast : Ast} {options : ExtractionOptions} {outer : List Node} {run run' run'' : Run}
  {steps steps' : List Step} {made made' : List (List Node)}

/-! ### The walk -/

/-- A move does not look at what comes after the first step. -/
theorem Move.append {entered : Option Node} (h : Move ast options run steps entered run' steps')
    (more : List Step) : Move ast options run (steps ++ more) entered run' (steps' ++ more) := by
  cases h with
  | emit => exact .emit ..
  | report => exact .report ..
  | known rest h => exact .known _ h
  | refer rest h => exact .refer _ h
  | pass rest h hp => exact .pass _ h hp
  | enter rest h holds fresh =>
    rw [List.append_assoc]
    exact .enter _ h holds fresh

/-- The nested visits are those of the walk. -/
theorem Visits.walk_append (h : Visits ast options outer run steps made run')
    (more : List Step) :
    walk ast options run (steps ++ more) = walk ast options run' more := by
  induction h generalizing more with
  | done => rw [List.nil_append]
  | move h _ ih => rw [walk_of_move (h.append more), ih]
  | enter h _ _ inner after =>
    rw [walk_of_move (h.append more), List.append_assoc, inner, after]

/-- The visits made and the run they leave are determined. -/
theorem Visits.unique (h : Visits ast options outer run steps made run')
    (h' : Visits ast options outer run steps made' run'') : made = made' ∧ run' = run'' := by
  induction h generalizing made' run'' with
  | done =>
    cases h' with
    | done => exact ⟨rfl, rfl⟩
    | move hm => cases hm
  | move h _ ih =>
    cases h' with
    | done => cases h
    | move hm after =>
      obtain ⟨-, rfl, rfl⟩ := h.unique hm
      exact ih after
    | enter hm => cases (h.unique hm).1
  | enter h _ _ inner after =>
    cases h' with
    | move hm => cases (h.unique hm).1
    | enter hm inner' after' =>
      obtain ⟨-, rfl, -⟩ := h.unique hm
      obtain ⟨rfl, rfl⟩ := inner inner'
      obtain ⟨rfl, rfl⟩ := after after'
      exact ⟨rfl, rfl⟩

/-! ### The end of the walk -/

/-- A node that is marked is not fresh, and others stay as they are. -/
theorem Run.isFresh_mark (run : Run) (key other : NodeKey) :
    (run.mark key).isFresh other = (key != other && run.isFresh other) := by
  simp only [Run.isFresh, Run.mark, Std.HashSet.contains_insert, Bool.not_or, bne]

/-- Marking a node leaves no more to describe. -/
theorem Run.remaining_mark_le (run : Run) (ast : Ast) (key : NodeKey) :
    (run.mark key).remaining ast ≤ run.remaining ast := by
  apply List.countP_mono_left
  intro other _ h
  rw [Run.isFresh_mark, Bool.and_eq_true] at h
  exact h.2

/-- A move leaves no more to describe, and less if it begins a description. -/
theorem Move.remaining_le {entered : Option Node}
    (h : Move ast options run steps entered run' steps') :
    entered.toList.length + run'.remaining ast ≤ run.remaining ast := by
  cases h with
  | enter rest h holds fresh =>
    have hm := Run.remaining_mark_lt holds fresh
    simp only [Option.toList_some, List.length_singleton]
    exact Nat.one_add_le_iff.mpr hm
  | _ => exact Nat.le_of_eq (Nat.zero_add _)

/-- The nested visits leave no more to describe. -/
theorem Visits.remaining_le (h : Visits ast options outer run steps made run') :
    run'.remaining ast ≤ run.remaining ast := by
  induction h with
  | done => exact Nat.le_refl _
  | move h _ ih => exact Nat.le_trans ih (by simpa using h.remaining_le)
  | enter h _ _ inner after =>
    have hm := h.remaining_le
    simp only [Option.toList_some, List.length_singleton] at hm
    omega

/-- Nested visits keep a registry well formed. -/
theorem Visits.wf (h : Visits ast options outer run steps made run') (wf : run.registry.WF) :
    run'.registry.WF := by
  induction h with
  | done => exact wf
  | move h _ ih => exact ih (h.wf wf)
  | enter h _ _ inner after => exact after (inner (h.wf wf))

/-- With a well-formed registry the nested visits end. The induction is on the nodes that are left to
describe: an inner description leaves fewer, and the steps after it start with as many at most. -/
theorem exists_visits (ast : Ast) (options : ExtractionOptions) (outer : List Node) (run : Run)
    (steps : List Step) (wf : run.registry.WF) :
    ∃ made run', Visits ast options outer run steps made run' := by
  induction hn : run.remaining ast using Nat.strongRecOn generalizing outer run steps with
  | ind n ih =>
    induction steps generalizing run with
    | nil => exact ⟨[], run, .done outer run⟩
    | cons step rest afterwards =>
      -- a node is visited by a step of its own, or by a reference to a declaration without a label
      have hvisit : ∀ node, ∃ made run',
          Visits ast options outer run (.visit node :: rest) made run' := by
        intro node
        obtain ⟨label, registry, hf⟩ := wf.fetch_ok node.key
        by_cases hp : ast.Holds node.key ∧ run.isFresh node.key = true
        · have hm : Move ast options run (.visit node :: rest) (some node) _ _ :=
            .enter rest hf hp.1 hp.2
          have hlt : (Run.mark { run with registry } node.key).remaining ast < n :=
            hn ▸ Run.remaining_mark_lt hp.1 hp.2
          obtain ⟨inside, run₁, inner⟩ :=
            ih _ hlt (node :: outer) _ (describe ast options node) (hm.wf wf) rfl
          obtain ⟨made, run₂, after⟩ :=
            ih _ (Nat.lt_of_le_of_lt inner.remaining_le hlt) outer run₁ rest
              (inner.wf (hm.wf wf)) rfl
          exact ⟨_, _, .enter hm inner after⟩
        · have hm : Move ast options run (.visit node :: rest) none _ _ := .pass rest hf hp
          obtain ⟨made, run', after⟩ := afterwards { run with registry } (hm.wf wf) hn
          exact ⟨_, _, .move hm after⟩
      cases step with
      | emit fact =>
        obtain ⟨made, run', after⟩ := afterwards (run.emit fact) wf hn
        exact ⟨_, _, .move (.emit run fact rest) after⟩
      | report key kind span =>
        obtain ⟨made, run', after⟩ := afterwards (run.report key kind span) wf hn
        exact ⟨_, _, .move (.report run key kind span rest) after⟩
      | refer decl =>
        cases hl : run.registry.lookup (Node.decl decl).key with
        | some label =>
          obtain ⟨made, run', after⟩ := afterwards run wf hn
          exact ⟨_, _, .move (.known rest hl) after⟩
        | none =>
          obtain ⟨made, run', after⟩ := hvisit (.decl decl)
          exact ⟨_, _, .move (.refer rest hl) after⟩
      | visit node => exact hvisit node

/-! ### The states of a run -/

/-- The states that a run can be in: with the visits of `outer` open, the innermost first, and after
the visits of `visits`, the last first. A run may be written to, may be asked for labels and may
have nodes marked at any time; a visit marks its node and stays open until it is left. -/
inductive Reached (ast : Ast) : List Node → List (List Node) → Run → Prop where
  | fresh : Reached ast [] [] {}
  | write {outer : List Node} {visits : List (List Node)} {run : Run}
      (h : Reached ast outer visits run) (facts : Array (Fact Label))
      (diagnostics : Array Diagnostic) : Reached ast outer visits { run with facts, diagnostics }
  | fetch {outer : List Node} {visits : List (List Node)} {run : Run} {key : NodeKey}
      {label : Label} {registry : Registry} (h : Reached ast outer visits run)
      (hf : run.registry.fetch key = .ok (label, registry)) :
      Reached ast outer visits { run with registry }
  | mark {outer : List Node} {visits : List (List Node)} {run : Run}
      (h : Reached ast outer visits run) (key : NodeKey) : Reached ast outer visits (run.mark key)
  | enter {outer : List Node} {visits : List (List Node)} {run : Run} {node : Node}
      (h : Reached ast outer visits run) (held : ast.HasNode node)
      (fresh : run.isFresh node.key = true) :
      Reached ast (node :: outer) ((node :: outer) :: visits) (run.mark node.key)
  | leave {outer : List Node} {visits : List (List Node)} {run : Run} {node : Node}
      (h : Reached ast (node :: outer) visits run) : Reached ast outer visits run

/-- What holds in all states of a run: the visits open around a visit are of other nodes, and each
visit made leaves one node less to describe. -/
structure Orderly (ast : Ast) (outer : List Node) (visits : List (List Node)) (run : Run) :
    Prop where
  wf : run.registry.WF
  marked : ∀ node ∈ outer, run.isFresh node.key = false
  distinct : ∀ path ∈ outer :: visits, (path.map Node.key).Nodup
  held : ∀ path ∈ outer :: visits, ∀ node ∈ path, ast.HasNode node
  counted : visits.length + run.remaining ast ≤ ast.keys.length

variable {visits : List (List Node)} {node : Node}

/-- A visit that begins keeps the order. -/
theorem Orderly.enter (h : Orderly ast outer visits run) (held : ast.HasNode node)
    (fresh : run.isFresh node.key = true) :
    Orderly ast (node :: outer) ((node :: outer) :: visits) (run.mark node.key) where
  wf := h.wf
  marked other ho := by
    rw [Run.isFresh_mark]
    rcases List.mem_cons.mp ho with rfl | ho
    · rw [bne_self_eq_false, Bool.false_and]
    · rw [h.marked other ho, Bool.and_false]
  distinct := by
    have hn : ((node :: outer).map Node.key).Nodup := by
      rw [List.map_cons, List.nodup_cons]
      refine ⟨?_, h.distinct outer List.mem_cons_self⟩
      intro hm
      obtain ⟨other, ho, hk⟩ := List.mem_map.mp hm
      have hf := h.marked other ho
      rw [hk, fresh] at hf
      cases hf
    simp only [List.forall_mem_cons (a := node :: outer)]
    exact ⟨hn, hn, fun path hp => h.distinct path (List.mem_cons_of_mem _ hp)⟩
  held := by
    have hn : ∀ other ∈ node :: outer, ast.HasNode other := by
      simpa [held] using h.held outer List.mem_cons_self
    simp only [List.forall_mem_cons (a := node :: outer)]
    exact ⟨hn, hn, fun path hp => h.held path (List.mem_cons_of_mem _ hp)⟩
  counted := by
    have hm := Run.remaining_mark_lt held.1 fresh
    have hc := h.counted
    rw [List.length_cons]
    omega

/-- A visit that ends keeps the order. -/
theorem Orderly.leave (h : Orderly ast (node :: outer) visits run) :
    Orderly ast outer visits run where
  wf := h.wf
  marked other ho := h.marked other (List.mem_cons_of_mem _ ho)
  distinct path hp := by
    rcases List.mem_cons.mp hp with rfl | hp
    · exact (List.nodup_cons.mp (h.distinct _ List.mem_cons_self)).2
    · exact h.distinct path (List.mem_cons_of_mem _ hp)
  held path hp := by
    rcases List.mem_cons.mp hp with rfl | hp
    · exact fun other ho => h.held _ List.mem_cons_self other (List.mem_cons_of_mem _ ho)
    · exact h.held path (List.mem_cons_of_mem _ hp)
  counted := h.counted

/-- All states of a run are orderly. -/
theorem Reached.orderly (h : Reached ast outer visits run) : Orderly ast outer visits run := by
  induction h with
  | fresh =>
    refine ⟨Registry.wf_empty, by simp, by simp, by simp, ?_⟩
    rw [List.length_nil, Nat.zero_add]
    exact List.countP_le_length
  | write _ _ _ ih => exact ⟨ih.wf, ih.marked, ih.distinct, ih.held, ih.counted⟩
  | fetch _ hf ih => exact ⟨ih.wf.fetch hf, ih.marked, ih.distinct, ih.held, ih.counted⟩
  | @mark _ _ run _ key ih =>
    refine ⟨ih.wf, ?_, ih.distinct, ih.held, ?_⟩
    · intro node hn
      rw [Run.isFresh_mark, ih.marked node hn, Bool.and_false]
    · exact Nat.le_trans (Nat.add_le_add_left (run.remaining_mark_le ast key) _) ih.counted
  | enter _ held fresh ih => exact ih.enter held fresh
  | leave _ ih => exact ih.leave

/-- A move that begins no description leads to a state with the same visits. -/
theorem Reached.move (hr : Reached ast outer visits run)
    (h : Move ast options run steps none run' steps') : Reached ast outer visits run' := by
  cases h with
  | emit fact => exact hr.write (run.emit fact).facts run.diagnostics
  | report key kind span => exact hr.write run.facts (run.report key kind span).diagnostics
  | known => exact hr
  | refer => exact hr
  | pass rest hf => exact hr.fetch hf

/-- A move that begins no description leads to no new targets. -/
theorem Move.targets_subset (h : Move ast options run steps none run' steps') {node : Node}
    (hn : node ∈ targets steps') : node ∈ targets steps := by
  cases h with
  | refer => exact hn
  | _ =>
    rw [targets_cons]
    exact List.mem_append_right _ hn

/-- The nested visits lead from a state of a run to a state with these visits. -/
theorem Visits.reached (h : Visits ast options outer run steps made run') (inRange : ast.InRange)
    (held : ∀ node ∈ targets steps, ast.HasNode node) (hr : Reached ast outer visits run) :
    Reached ast outer (made.reverse ++ visits) run' := by
  induction h generalizing visits with
  | done => exact hr
  | move h _ ih => exact ih (fun node hn => held node (h.targets_subset hn)) (hr.move h)
  | @enter outer _ _ run₂ _ node rest inside afterwards h _ _ inner after =>
    rw [targets_cons, target?_visit, Option.toList_some, List.forall_mem_append,
      List.forall_mem_singleton] at held
    cases h with
    | enter _ hf _ fresh =>
      -- what is described inside the visit are references of a node of the tree
      have hi : Reached ast (node :: outer) (inside.reverse ++ (node :: outer) :: visits) run₂ :=
        inner (fun child hc => inRange node held.1 child ((mem_targets_describe ..).mp hc))
          ((hr.fetch hf).enter held.1 fresh)
      have ha := after held.2 hi.leave
      simpa using ha

/-- There are as many keys as nodes. -/
theorem length_keys (ast : Ast) : ast.keys.length = ast.size := by
  simp only [Ast.keys, Ast.keysOf, Category.all, List.flatMap_cons, List.flatMap_nil,
    List.length_append, List.length_map, List.length_range, List.length_nil, Ast.count, Ast.size]
  omega

/-- In every state of a run, extracting a node of the tree succeeds, whatever cycles the tree has.
The visits made on the way are determined. Of any visit of the run, the nodes of it and of the
visits open around it are different nodes of the tree; and the visits of the run are no more than
the nodes of the tree. -/
theorem Run.extract_ends (inRange : ast.InRange) (hr : Reached ast outer visits run)
    (held : ast.HasNode node) (options : ExtractionOptions) :
    ∃ label made run', run.extract ast options node = .ok (label, run') ∧
      (∀ made' run'', Visits ast options outer run [.visit node] made' run'' ↔
        made' = made ∧ run'' = run') ∧
      Reached ast outer (made.reverse ++ visits) run' ∧
      (∀ path ∈ made.reverse ++ visits,
        (path.map Node.key).Nodup ∧ ∀ other ∈ path, ast.HasNode other) ∧
      (made.reverse ++ visits).length ≤ ast.size := by
  obtain ⟨made, run', h⟩ := exists_visits ast options outer run [.visit node] hr.orderly.wf
  have hw : walk ast options run [.visit node] = .ok run' := by
    have ha := h.walk_append []
    rwa [List.append_nil, walk] at ha
  have hr' : Reached ast outer (made.reverse ++ visits) run' :=
    h.reached inRange (by simpa using held) hr
  have ho := hr'.orderly
  refine ⟨run'.labelOf node.key, made, run', by rw [Run.extract, hw]; rfl, ?_, hr', ?_, ?_⟩
  · intro made' run''
    constructor
    · exact fun h' => h'.unique h
    · rintro ⟨rfl, rfl⟩
      exact h
  · exact fun path hp => ⟨ho.distinct path (List.mem_cons_of_mem _ hp),
      ho.held path (List.mem_cons_of_mem _ hp)⟩
  · exact length_keys ast ▸ Nat.le_trans (Nat.le_add_right _ _) ho.counted

/-- A function that refers to itself, a tuple that is an element of itself, and a declaration that
is not modelled and lists the block it stands in. -/
def knot : Ast where
  decls := #[{ kind := .func "knot" [] none (some ⟨0⟩), span := none },
    { kind := .unknown "actor_declaration" [.stmt ⟨0⟩, .decl ⟨1⟩], span := none }]
  stmts := #[{ kind := .brace [.expr ⟨0⟩, .decl ⟨1⟩], span := none }]
  exprs := #[{ kind := .tuple [⟨0⟩, ⟨1⟩], type := none, span := none },
    { kind := .declRef "knot" (some ⟨0⟩), type := none, span := none }]

/-- The run inside the visit of the function. -/
def insideKnot : Run where
  registry := ({} : Registry).add (Node.decl ⟨0⟩).key
  dispatched := ({} : Std.HashSet NodeKey).insert (Node.decl ⟨0⟩).key

/-- The tree may be full of cycles, and the visit of an ancestor may still be open. -/
theorem Run.extract_ends_knot :
    knot.InRange ∧ Reached knot [.decl ⟨0⟩] [[.decl ⟨0⟩]] insideKnot ∧
      ∃ label made run', insideKnot.extract knot {} (.expr ⟨0⟩) = .ok (label, run') ∧
        (∀ made' run'', Visits knot {} [.decl ⟨0⟩] insideKnot [.visit (.expr ⟨0⟩)] made' run'' ↔
          made' = made ∧ run'' = run') ∧
        Reached knot [.decl ⟨0⟩] (made.reverse ++ [[.decl ⟨0⟩]]) run' ∧
        (∀ path ∈ made.reverse ++ [[.decl ⟨0⟩]],
          (path.map Node.key).Nodup ∧ ∀ other ∈ path, knot.HasNode other) ∧
        (made.reverse ++ [[Node.decl ⟨0⟩]]).length ≤ knot.size := by
  have hf : ({} : Registry).fetch (Node.decl ⟨0⟩).key =
      .ok (⟨1⟩, ({} : Registry).add (Node.decl ⟨0⟩).key) :=
    Registry.wf_empty.fetch_of_lookup_none (by simp [Registry.lookup])
  have hr : Reached knot [.decl ⟨0⟩] [[.decl ⟨0⟩]] insideKnot :=
    (Reached.fresh.fetch hf).enter (by decide) (by simp [Run.isFresh])
  exact ⟨by decide, hr, Run.extract_ends (by decide) hr (by decide) {}⟩

end Extraction

end SwiftRelations
