import SwiftRelations.Proofs.Lowering.Effect

/-!
# Rules for what a lowering builds

`Lower.Builds` says which nodes in hand a step takes and which it leaves. The nodes in hand are kept
in the order in which they were made, so that a rule which makes a node out of all of them ends with
a list of the node's own parts. What a step builds, the journal it writes, the types it names and
what it leaves alone are followed at once; there is one rule for each operation and for each way to
put steps together.
-/

namespace SwiftRelations

open Lowering Text

/-! ### What a step builds -/

/-- From a state a step leaves a syntax tree that stands in some relation to its result, and it
writes a journal on the way. It fails for the height of a tree only if trees may be too high. -/
structure Lower.Meets {α : Type} (terms : Terms) (s : State) (x : Lower α)
    (goal : α → Ast → Prop) : Prop where
  depth : x s = .error .tooDeep → terms.deep
  run : ∀ a s', x s = .ok (a, s') →
    ∃ es, x.Records s es a s' ∧ (∀ e ∈ es, e.Within terms) ∧ goal a s'.ast

/-- Whether a state is one that a lowering comes to: what it has linked agrees, its tree is
coherent, and the nodes in hand are in the tree. -/
structure Lowering.State.Ready (opened : List (DeclId × String)) (pre : List Node) (s : State) :
    Prop where
  linked : s.Linked
  coherent : s.ast.Coherent (hidden opened)
  hand : ∀ key ∈ loose pre, key ∈ s.ast.visible (hidden opened)

/-- From a state a step takes some nodes in hand and leaves others, which depend on its result. On
an assumption it keeps the tree up as well. -/
def Lower.BuildsFrom {α : Type} (terms : Terms) (opened : List (DeclId × String)) (assumed : Prop)
    (s : State) (x : Lower α) (pre : List Node) (post : α → List Node) : Prop :=
  x.Meets terms s fun a ast => Effect terms opened s.ast pre ast (post a) ∧
    (assumed → Ast.Upkeep (hidden opened) s.ast pre ast (post a))

/-- From each state in which some declarations are unfinished, a step takes some nodes in hand and
leaves others, and keeps the tree up if the state is ready. -/
def Lower.Builds {α : Type} (terms : Terms) (opened : List (DeclId × String)) (x : Lower α)
    (pre : List Node) (post : α → List Node) : Prop :=
  ∀ s : State, s.ast.Unfinished opened →
    x.BuildsFrom terms opened (s.Ready opened pre) s pre post

/-- Whether a property holds of the result of a step from a state and of the syntax tree it
leaves. -/
def Lower.Leaves {α : Type} (s : State) (x : Lower α) (p : α → Ast → Prop) : Prop :=
  ∀ a s', x s = .ok (a, s') → p a s'.ast

/-- Whether a property holds of the result of a step and the syntax tree it leaves, if the state it
starts from is ready. -/
def Lower.Ensures {α : Type} (opened : List (DeclId × String)) (pre : List Node) (x : Lower α)
    (p : α → Ast → Prop) : Prop :=
  ∀ s : State, s.ast.Unfinished opened → s.Ready opened pre → x.Leaves s p

namespace Lowering.State.Ready

variable {opened : List (DeclId × String)} {s s' : State} {pre rest : List Node}

/-- A step that does nothing keeps the tree up. -/
theorem refl (h : s.Ready opened pre) (hk : ∀ key ∈ loose rest, key ∈ loose pre) :
    Ast.Upkeep (hidden opened) s.ast pre s.ast rest :=
  .refl h.coherent h.hand hk

/-- Fewer nodes may be in hand. -/
theorem mono (h : s.Ready opened pre) (hk : ∀ key ∈ loose rest, key ∈ loose pre) :
    s.Ready opened rest :=
  ⟨h.linked, h.coherent, fun key hm => h.hand key (hk key hm)⟩

/-- The scopes do not matter, but that what they bind is declared. -/
theorem enter (h : s.Ready opened pre) :
    Ready opened pre { s with scopes := s.scopes.enter } :=
  ⟨⟨h.linked.bound, h.linked.agrees⟩, h.coherent, h.hand⟩

/-- What a step leaves is ready for the next one. -/
theorem next {α : Type} {x : Lower α} {es : List Event} {a : α} (h : s.Ready opened pre)
    (hrec : x.Records s es a s') (hup : Ast.Upkeep (hidden opened) s.ast pre s'.ast rest) :
    s'.Ready opened rest :=
  ⟨hrec.linked h.linked, hup.coherent, hup.hand⟩

end Lowering.State.Ready

namespace Lower

variable {α β γ : Type} {terms : Terms} {opened : List (DeclId × String)} {s s' : State}
  {x : Lower α} {f : α → Lower β} {pre rest : List Node} {mid : α → List Node}
  {post : β → List Node}

/-- Unfinished declarations stay so. -/
theorem Records.unfinished {es : List Event} {a : α} (h : x.Records s es a s')
    (hu : s.ast.Unfinished opened) : s'.ast.Unfinished opened :=
  fun p hp => h.precedes.header p.1 _ (hu p hp)

private theorem Meets.of_records {goal : α → Ast → Prop} {es : List Event} {a : α}
    (h : x.Records s es a s') (within : ∀ e ∈ es, e.Within terms) (hg : goal a s'.ast) :
    x.Meets terms s goal where
  depth he := by
    rw [h.run] at he
    cases he
  run b s₂ hr := by
    rw [h.run] at hr
    cases hr
    exact ⟨es, h, within, hg⟩

private theorem Meets.imp {goal goal' : α → Ast → Prop} (h : x.Meets terms s goal)
    (hg : ∀ a ast, goal a ast → goal' a ast) : x.Meets terms s goal' where
  depth := h.depth
  run a s' hr := by
    obtain ⟨es, hrec, within, ha⟩ := h.run a s' hr
    exact ⟨es, hrec, within, hg a s'.ast ha⟩

/-- Two steps stop if the first does, or the second after it. -/
theorem bind_eq_error {fault : Fault} : (x >>= f) s = .error fault ↔
    x s = .error fault ∨ ∃ a s', x s = .ok (a, s') ∧ f a s' = .error fault := by
  simp only [bind, StateT.bind, Except.bind]
  cases x s with
  | error => simp
  | ok result => simp [Prod.ext_iff, and_assoc]

private theorem Meets.bind {goal : α → Ast → Prop} {goal' : β → Ast → Prop}
    (hx : x.Meets terms s goal)
    (hf : ∀ a s' es, x.Records s es a s' → goal a s'.ast → (f a).Meets terms s' goal') :
    (x >>= f).Meets terms s goal' where
  depth he := by
    rcases bind_eq_error.mp he with he | ⟨a, s', hr, he⟩
    · exact hx.depth he
    · obtain ⟨es, hrec, -, ha⟩ := hx.run a s' hr
      exact (hf a s' es hrec ha).depth he
  run b s₂ hr := by
    obtain ⟨a, s₁, hxr, hfr⟩ := bind_eq_ok.mp hr
    obtain ⟨es, hrec, within, ha⟩ := hx.run a s₁ hxr
    obtain ⟨es', hrec', within', hb⟩ := (hf a s₁ es hrec ha).run b s₂ hfr
    refine ⟨es ++ es', hrec.bind hrec', fun e he => ?_, hb⟩
    rcases List.mem_append.mp he with he | he
    · exact within e he
    · exact within' e he

/-- A step stops in a scope of its own if it stops with the scope entered. -/
theorem inScope_eq_error {fault : Fault} : x.inScope s = .error fault ↔
    x { s with scopes := s.scopes.enter } = .error fault := by
  rw [inScope_run]
  cases x { s with scopes := s.scopes.enter } <;> simp [Except.bind]

private theorem Meets.inScope {goal : α → Ast → Prop}
    (h : x.Meets terms { s with scopes := s.scopes.enter } goal) : x.inScope.Meets terms s goal where
  depth he := h.depth (inScope_eq_error.mp he)
  run a s' hr := by
    obtain ⟨s₁, hx, rfl⟩ := inScope_eq_ok.mp hr
    obtain ⟨es, hrec, within, ha⟩ := h.run a s₁ hx
    refine ⟨_, .inScope hrec, fun e he => ?_, ha⟩
    rcases List.mem_append.mp he with he | he
    · exact within e he
    · rw [List.mem_singleton.mp he]
      trivial

section

variable {assumed assumed' : Prop}

private theorem BuildsFrom.mono (hx : x.BuildsFrom terms opened assumed s pre mid)
    (h : assumed' → assumed) : x.BuildsFrom terms opened assumed' s pre mid :=
  hx.imp fun _ _ goal => ⟨goal.1, fun ha => goal.2 (h ha)⟩

private theorem BuildsFrom.bind (hu : s.ast.Unfinished opened)
    (hx : x.BuildsFrom terms opened assumed s pre mid)
    (hf : ∀ a s' es, x.Records s es a s' →
      (assumed → Ast.Upkeep (hidden opened) s.ast pre s'.ast (mid a)) →
      (f a).BuildsFrom terms opened assumed s' (mid a) post) :
    (x >>= f).BuildsFrom terms opened assumed s pre post :=
  Meets.bind hx fun a s' es hrec goal => (hf a s' es hrec goal.2).imp fun _ _ goal' =>
    ⟨goal.1.trans goal'.1, fun h => (goal.2 h).trans hu.hidden_subset (goal'.2 h)⟩

private theorem BuildsFrom.pure {a : α} (h : Effect terms opened s.ast pre s.ast (mid a))
    (hup : assumed → Ast.Upkeep (hidden opened) s.ast pre s.ast (mid a)) :
    (Pure.pure a : Lower α).BuildsFrom terms opened assumed s pre mid :=
  .of_records (.pure a s) (by simp) ⟨h, hup⟩

end

/-- Types may be read off the tree. -/
theorem BuildsFrom.read {a : α} (hl : loose (mid a) = 0)
    (ht : s.ast.Typed → s.ast.types.Covers (mid a)) :
    (Pure.pure a : Lower α).BuildsFrom terms opened (s.Ready opened []) s [] mid :=
  .pure ⟨fun typed _ => ⟨typed, Nat.le_refl _, ht typed⟩, fun _ _ hg => by rwa [hl]⟩
    fun h => h.refl (by simp [hl])

namespace Builds

/-! ### Putting steps together -/

/-- A result without a step leaves what the nodes in hand may be taken for. -/
theorem pure {a : α} (h : terms.Yields pre (mid a)) :
    (Pure.pure a : Lower α).Builds terms opened pre mid :=
  fun _ _ => .pure (.refl h) fun hr => hr.refl h.keys

/-- A result that keeps the nodes in hand as they are. -/
theorem done (a : α) : (Pure.pure a : Lower α).Builds terms opened (mid a) mid :=
  pure (.refl _)

/-- A step that stops builds anything, if the height of a tree stops it only where trees may be too
high. -/
theorem throw {fault : Fault} (h : fault = .tooDeep → terms.deep) :
    (MonadExcept.throw fault : Lower α).Builds terms opened pre mid := by
  intro s _
  constructor
  · intro he
    cases he
    exact h rfl
  · intro a s' hr
    cases hr

/-- The second step takes what the first leaves. -/
theorem bind (hx : x.Builds terms opened pre mid)
    (hf : ∀ a, (f a).Builds terms opened (mid a) post) :
    (x >>= f).Builds terms opened pre post :=
  fun s hu => (hx s hu).bind hu fun a s' _ hrec hup =>
    (hf a s' (hrec.unfinished hu)).mono fun hr => hr.next hrec (hup hr)

/-- A step leaves alone what it does not take. -/
theorem frame (rest : List Node) (hx : x.Builds terms opened pre mid) :
    x.Builds terms opened (rest ++ pre) (fun a => rest ++ mid a) := by
  refine fun s hu => (hx s hu).imp fun _ _ goal => ⟨goal.1.frame rest, fun hr => ?_⟩
  have hpre := hr.mono (loose_subset (List.subset_append_right rest pre))
  have hrest := hr.mono (loose_subset (List.subset_append_left rest pre))
  exact (goal.2 hpre).frame hrest.hand

/-- A step may be given what can be taken for the nodes that it takes. -/
theorem weaken_pre (h : terms.Yields pre rest) (hx : x.Builds terms opened rest mid) :
    x.Builds terms opened pre mid :=
  fun s hu => (hx s hu).imp fun _ _ goal => ⟨(Effect.refl h).trans goal.1, fun hr =>
    (hr.refl h.keys).trans hu.hidden_subset (goal.2 (hr.mono h.keys))⟩

private theorem weaken_post {mid' : α → List Node} (hx : x.Builds terms opened pre mid)
    (h : ∀ a, terms.Yields (mid a) (mid' a)) : x.Builds terms opened pre mid' :=
  fun s hu => (hx s hu).imp fun a _ goal => ⟨goal.1.trans (.refl (h a)), fun hr =>
    have hup := goal.2 hr
    hup.trans hu.hidden_subset (.refl hup.coherent hup.hand (h a).keys)⟩

/-- A step leaves alone what it does not take, wherever that stands. -/
theorem frame_right (rest : List Node) (hx : x.Builds terms opened pre mid) :
    x.Builds terms opened (pre ++ rest) (fun a => mid a ++ rest) :=
  ((hx.frame rest).weaken_pre (.perm List.perm_append_comm)).weaken_post fun _ =>
    .perm List.perm_append_comm

/-- A step that needs no nodes leaves new ones after those in hand. -/
theorem after (rest : List Node) (hx : x.Builds terms opened [] mid) :
    x.Builds terms opened rest fun a => rest ++ mid a := by
  have h := hx.frame rest
  rwa [List.append_nil] at h

/-- A step that takes nothing leaves its nodes behind those in hand for the next step. -/
theorem seq (hx : x.Builds terms opened [] mid)
    (hf : ∀ a, (f a).Builds terms opened (pre ++ mid a) post) :
    (x >>= f).Builds terms opened pre post :=
  (hx.after pre).bind hf

/-! ### Reading -/

/-- A step may depend on the state. -/
theorem get {f : State → Lower β} (hf : ∀ s : State, s.ast.Unfinished opened →
    (f s).BuildsFrom terms opened (s.Ready opened pre) s pre post) :
    (MonadState.get >>= f).Builds terms opened pre post := by
  intro s hu
  have hg : (MonadState.get : Lower State).BuildsFrom terms opened (s.Ready opened pre) s pre
      fun _ => pre :=
    .of_records (.get s) (by simp) ⟨.refl (.refl pre), fun hr => hr.refl fun _ h => h⟩
  refine hg.bind hu fun a s' es hrec _ => ?_
  cases hrec.run
  exact hf s hu

/-- Types may be read off the tree. -/
theorem ofAst {f : Ast → α} (hl : ∀ a, loose (mid a) = 0)
    (hf : ∀ ast : Ast, ast.Typed → ast.types.Covers (mid (f ast))) :
    (Lower.ofAst f).Builds terms opened [] mid :=
  get fun s _ => .read (hl _) (hf s.ast)

/-! ### Making nodes -/

end Builds

section

variable {assumed : Prop}

/-- A node is made of the nodes in hand, if it fits in. -/
theorem BuildsFrom.add (hu : s.ast.Unfinished opened) {g : Ast → α × Ast} (entry : Ast.Entry)
    {node : α → Node} (hg : ∀ ast, (g ast).2 = ast.push entry)
    (hk : ∀ ast, (node (g ast).1).key = ast.place entry) (ht : ∀ a, (node a).types = [])
    (hc : entry.category ≠ .expr) (hr : assumed → s.Ready opened entry.nodes)
    (hb : assumed → ∀ binding ∈ entry.bindings, s.ast.Blind binding.1 binding.2) :
    (Lower.onAst g).BuildsFrom terms opened assumed s entry.nodes fun a => [node a] := by
  refine .of_records (.onAst g s ?_ ?_ ?_) (by simp) ?_
  · intro id decl hd
    rw [hg]
    cases entry with
    | decl other => exact State.decl?_push hd
    | _ => exact hd
  · rw [hg]
    cases entry <;> simp [Ast.push]
  · rw [hg]
    cases entry <;> first | rfl | exact absurd rfl hc
  · have hp : loose entry.nodes = loose entry.parts := by
      cases entry <;> first | rfl | exact absurd rfl hc
    rw [hg]
    refine ⟨.push entry hu.hidden_subset (hk s.ast) (ht _) (fun _ hcov => hcov) hp, fun ha => ?_⟩
    exact .push entry hu.hidden_subset (hr ha).coherent (hr ha).hand (hk s.ast) hp
      (Ast.links_of_bindings hc (hb ha))

/-- A declaration takes the nodes of its kind, if its patterns are not seen by their initializers.
-/
theorem BuildsFrom.addDecl (hu : s.ast.Unfinished opened) {kind : DeclKind} {span : Span}
    (hr : assumed → s.Ready opened kind.nodes)
    (hb : assumed → ∀ binding ∈ kind.bindings, s.ast.Blind binding.1 binding.2) :
    (Lower.addDecl kind span).BuildsFrom terms opened assumed s kind.nodes fun id => [.decl id] :=
  .add hu (.decl { kind, span := some span }) (fun _ => rfl) (fun _ => rfl) (fun _ => rfl)
    (by simp [Ast.Entry.category]) hr hb

/-- A condition takes the nodes of its elements, if their patterns are not seen by their
initializers. -/
theorem BuildsFrom.addStmtCondition (hu : s.ast.Unfinished opened)
    {elements : List ConditionElement} {span : Option Span}
    (hr : assumed → s.Ready opened (elements.flatMap ConditionElement.nodes))
    (hb : assumed → ∀ binding ∈ elements.filterMap ConditionElement.binding?,
      s.ast.Blind binding.1 binding.2) :
    (Lower.onAst (·.addStmtCondition elements span)).BuildsFrom terms opened assumed s
      (elements.flatMap ConditionElement.nodes) fun id => [.stmtCondition id] :=
  .add hu (.stmtCondition { elements, span }) (fun _ => rfl) (fun _ => rfl) (fun _ => rfl)
    (by simp [Ast.Entry.category]) hr hb

/-- An expression that is no reference is made, with its type. If it is a call, the type is the one
that the declaration called states. -/
theorem BuildsFrom.addExpr (hu : s.ast.Unfinished opened) {kind : ExprKind} {type : Option TypeId}
    {span : Span} (plain : ∀ name decl, kind ≠ .declRef name decl)
    (hr : assumed → s.Ready opened (kind.nodes ++ typeNodes type))
    (hcall : assumed → ∀ callee arguments, kind = .call callee arguments →
      s.ast.Calls (hidden opened) callee type) :
    (Lower.addExpr kind type span).BuildsFrom terms opened assumed s (kind.nodes ++ typeNodes type)
      fun id => [.expr id] := by
  have hp : kind.parts = kind.nodes := by
    cases kind with
    | declRef name decl => exact absurd rfl (plain name decl)
    | _ => rfl
  have hl : loose (kind.nodes ++ typeNodes type) =
      loose (Ast.Entry.parts (.expr { kind, type, span := some span })) := by
    rw [loose_append, loose_typeNodes, add_zero, Ast.Entry.parts, hp]
  refine .of_records (.addExpr kind type span s plain) (by simp) ⟨?_, fun ha => ?_⟩
  · exact Effect.push (.expr { kind, type, span := some span }) hu.hidden_subset rfl rfl
      (fun _ hc => hc) hl
  · refine .push (.expr { kind, type, span := some span }) hu.hidden_subset
      (hr ha).coherent (hr ha).hand rfl hl ⟨?_, ?_, by simp [Ast.Entry.bindings]⟩
    · rintro _ name d ⟨⟩ hk
      exact absurd hk (plain name (some d))
    · rintro _ callee arguments ⟨⟩ hk
      exact hcall ha callee arguments hk

end

namespace Builds

/-- A node is made of the nodes in hand that initializes nothing. -/
theorem add {g : Ast → α × Ast} (entry : Ast.Entry) {node : α → Node}
    (hg : ∀ ast, (g ast).2 = ast.push entry) (hk : ∀ ast, (node (g ast).1).key = ast.place entry)
    (ht : ∀ a, (node a).types = []) (hc : entry.category ≠ .expr) (hb : entry.bindings = []) :
    (Lower.onAst g).Builds terms opened entry.nodes fun a => [node a] :=
  fun _ hu => .add hu entry hg hk ht hc id fun _ => by simp [hb]

/-- A declaration that initializes nothing takes the nodes of its kind. -/
theorem addDecl {kind : DeclKind} {span : Span} (hb : kind.bindings = []) :
    (Lower.addDecl kind span).Builds terms opened kind.nodes fun id => [.decl id] :=
  fun _ hu => .addDecl hu id fun _ => by simp [hb]

/-- A statement takes the nodes of its kind. -/
theorem addStmt {kind : StmtKind} {span : Span} :
    (Lower.addStmt kind span).Builds terms opened kind.nodes fun id => [.stmt id] :=
  add (.stmt { kind, span := some span }) (fun _ => rfl) (fun _ => rfl) (fun _ => rfl)
    (by simp [Ast.Entry.category]) rfl

/-- A pattern takes the nodes of its kind. -/
theorem addPattern {kind : PatternKind} {span : Option Span} :
    (Lower.addPattern kind span).Builds terms opened kind.nodes fun id => [.pattern id] :=
  add (.pattern { kind, span }) (fun _ => rfl) (fun _ => rfl) (fun _ => rfl)
    (by simp [Ast.Entry.category]) rfl

/-- A case label item takes its pattern and its guard. -/
theorem addCaseLabelItem {pattern : PatternId} {guard : Option ExprId} {span : Option Span} :
    (Lower.onAst (·.addCaseLabelItem pattern guard span)).Builds terms opened
      (.pattern pattern :: (guard.map Node.expr).toList) fun id => [.caseLabelItem id] :=
  add (.caseLabelItem { pattern, guard, span }) (fun _ => rfl) (fun _ => rfl)
    (fun _ => rfl) (by simp [Ast.Entry.category]) rfl

/-- An expression that is neither a reference nor a call is made, with its type. -/
theorem addExpr {kind : ExprKind} {type : Option TypeId} {span : Span}
    (plain : (∀ name decl, kind ≠ .declRef name decl) ∧
      ∀ callee arguments, kind ≠ .call callee arguments) :
    (Lower.addExpr kind type span).Builds terms opened (kind.nodes ++ typeNodes type)
      fun id => [.expr id] :=
  fun _ hu => .addExpr hu plain.1 id fun _ callee arguments h => absurd h (plain.2 callee arguments)

/-- An expression without a type is made that is neither a reference nor a call. -/
theorem addUntyped {kind : ExprKind} {span : Span}
    (plain : (∀ name decl, kind ≠ .declRef name decl) ∧
      ∀ callee arguments, kind ≠ .call callee arguments) :
    (Lower.addExpr kind none span).Builds terms opened kind.nodes fun id => [.expr id] := by
  have h : (Lower.addExpr kind none span).Builds terms opened (kind.nodes ++ typeNodes none)
    fun id => [.expr id] := addExpr plain
  rwa [typeNodes, Option.map_none, Option.toList_none, List.append_nil] at h

/-- A reference is made of nothing. It may have the type its declaration states. -/
theorem declRef (t : Tree) (name : String) :
    (Lower.declRef t name).Builds terms opened [] fun id => [.expr id] := by
  intro s hu
  refine .of_records (.declRef t name s) (by simp [Event.Within]) ⟨?_, fun hr => ?_⟩
  · apply Effect.push (.expr ⟨.declRef name (s.scopes.find? name),
      (s.scopes.find? name).bind s.ast.statedType?, some t.span⟩) hu.hidden_subset rfl rfl
    · intro ht _
      refine TypeTable.Covers.append (.of_types_eq_nil ?_) ?_
      · cases s.scopes.find? name <;> simp [ExprKind.nodes, Node.types]
      · refine covers_typeNodes fun type hm => ?_
        obtain ⟨d, -, hd⟩ := Option.bind_eq_some_iff.mp hm
        exact ht.has_statedType? hd
    · rfl
  · refine .push (.expr ⟨.declRef name (s.scopes.find? name),
      (s.scopes.find? name).bind s.ast.statedType?, some t.span⟩) hu.hidden_subset hr.coherent
      hr.hand rfl rfl ⟨?_, ?_, by simp [Ast.Entry.bindings]⟩
    · -- What a name is bound to is in the tree.
      rintro _ other d ⟨⟩ hk
      obtain ⟨rfl, hd⟩ := ExprKind.declRef.inj hk
      obtain ⟨-, -, type, hh⟩ := hr.linked.bound _ (Scopes.mem_bindings_of_find? hd)
      obtain ⟨decl, hdecl, -⟩ := Option.map_eq_some_iff.mp hh
      exact Ast.decl_mem_structural.mpr ⟨decl, hdecl⟩
    · rintro _ callee arguments ⟨⟩ hk
      cases hk

/-- The expression for `self` or `super` is made of nothing. -/
theorem selfRef {t : Tree} (ht : terms.trees t) (hs : isSelf t) :
    (Lower.addExpr (.declRef (trim t.text) none) none t.span).Builds terms opened []
      fun id => [.expr id] := by
  intro s hu
  refine .of_records (.selfRef t s hs) (by simpa [Event.Within] using ht) ⟨?_, fun hr => ?_⟩
  · exact Effect.push (.expr ⟨.declRef (trim t.text) none, none, some t.span⟩)
      hu.hidden_subset rfl rfl (fun _ hc => hc) rfl
  · refine .push (.expr ⟨.declRef (trim t.text) none, none, some t.span⟩)
      hu.hidden_subset hr.coherent hr.hand rfl rfl ⟨?_, ?_, by simp [Ast.Entry.bindings]⟩
    · rintro _ name d ⟨⟩ hk
      cases hk
    · rintro _ callee arguments ⟨⟩ hk
      cases hk

/-! ### Types -/

/-- A type of an expression is one of the table. -/
theorem exprType? (id : ExprId) :
    (Lower.exprType? id).Builds terms opened [] typeNodes :=
  ofAst loose_typeNodes fun _ ht => covers_typeNodes fun _ h => ht.has_exprType? h

/-- Types that the table offers may be used. -/
theorem onTypes {g : Ast → TypeId × Ast} (types : TypeTable → TypeId × TypeTable)
    (hg : ∀ ast, g ast = ((types ast.types).1, { ast with types := (types ast.types).2 }))
    (ho : ∀ table : TypeTable, table.Closed → table.Offers [(types table).1] (types table).2) :
    (Lower.onAst g).Builds terms opened [] fun id => [.type id] := by
  intro s _
  refine .of_records (.onAst g s ?_ ?_ ?_) (by simp) ?_
  · intro id decl hd
    rwa [hg]
  · rw [hg]
  · rw [hg]
  · rw [hg]
    refine ⟨.types (ho s.ast.types), fun hr => ?_⟩
    have hoffers := ho s.ast.types hr.coherent.closed
    exact Ast.Upkeep.types hr.coherent hoffers.closed hoffers.finds [_]

/-- A nominal type comes with nothing in hand. -/
theorem namedType (name : String) :
    (Lower.namedType name).Builds terms opened [] fun id => [.type id] :=
  onTypes (·.named name) (fun _ => rfl) fun _ closed =>
    TypeTable.named_offers closed name

/-- An annotation comes with the type it resolves to. -/
theorem writtenType (t : Tree) :
    (Lower.writtenType t).Builds terms opened [] fun written => [.writtenType written] := by
  unfold Lower.writtenType
  extract_lets tree text
  refine (onTypes (·.resolve text) (fun _ => rfl) fun _ closed =>
    TypeTable.resolve_offers closed text).bind fun type => ?_
  have hr : (Lower.onAst (·.addTypeRepr text (some tree.span))).Builds terms opened []
      fun repr => [.writtenType ⟨repr, none⟩] :=
    add (.typeRepr { text, span := some tree.span }) (fun _ => rfl) (fun _ => rfl)
      (fun _ => rfl) (by simp [Ast.Entry.category]) rfl
  refine hr.seq fun repr => pure ⟨fun _ h => h, fun _ => rfl, fun table hc => ?_⟩
  simpa [TypeTable.Covers, Node.types] using hc

/-! ### Declarations -/

/-- A declaration is made and its name bound at once. -/
theorem introduce_bind {kind : DeclKind} {span : Span} {name : String} {f : DeclId → Lower β} :
    (Lower.addDecl kind span >>= fun d => Lower.declare name d >>= fun _ => f d) =
      Lower.introduce kind span name >>= f := by
  simp only [Lower.introduce, bind_assoc, pure_bind]

/-- A declaration is made and its name bound. -/
theorem introduced {kind : DeclKind} {span : Span} {name : String}
    (hn : kind.declaredName? = some name) :
    (Lower.introduce kind span name).Builds terms opened kind.nodes fun id => [.decl id] := by
  intro s hu
  refine .of_records (.introduce kind span name s hn) (fun e he => ?_) ⟨?_, fun hr => ?_⟩
  · rw [Scopes.bindingEvents] at he
    split at he
    · cases he
    · rw [List.mem_singleton.mp he]
      trivial
  · exact .push (.decl { kind, span := some span }) hu.hidden_subset rfl rfl
      (fun _ hc => hc) rfl
  · have hb : (Ast.Entry.decl { kind, span := some span }).bindings = [] :=
      DeclKind.bindings_of_declaredName? hn
    exact .push (.decl { kind, span := some span }) hu.hidden_subset hr.coherent hr.hand
      rfl rfl (Ast.links_of_bindings (by simp [Ast.Entry.category]) (by simp [hb]))

/-- A declaration is made and its name bound before anything else is. -/
theorem introduce {kind : DeclKind} {span : Span} {name : String} {f : DeclId → Lower β}
    (hn : kind.declaredName? = some name)
    (hf : ∀ d, (f d).Builds terms opened [.decl d] post) :
    (Lower.addDecl kind span >>= fun d => Lower.declare name d >>= fun _ => f d).Builds
      terms opened kind.nodes post := by
  rw [introduce_bind]
  exact (introduced hn).bind hf

/-- An unfinished declaration is replaced by another stage of it. -/
theorem setDeclKind {id : DeclId} {name : String} {kind : DeclKind} (hid : (id, name) ∈ opened)
    (hk : kind.header = (some name, none)) (known : kind.nodes ⊆ pre) :
    (Lower.setDeclKind id kind).Builds terms opened pre fun _ => pre := by
  intro s hu
  have hm : (Node.decl id).key ∈ hidden opened := by
    rw [hidden, List.mem_toFinset]
    exact List.mem_map_of_mem (f := fun p => (Node.decl p.1).key) hid
  refine .of_records (.setDeclKind id kind s (by rw [hk]; exact hu _ hid)) (by simp)
    ⟨⟨?_, ?_⟩, fun hr => ?_⟩
  · exact fun ht hc => ⟨ht.setDeclKind (hc.subset known), Nat.le_refl _, hc⟩
  · exact fun _ roots hg => hg.replace hm
  · exact .setDeclKind hr.coherent hr.hand hu.hidden_subset hm known
      (DeclKind.bindings_of_declaredName? (congrArg Prod.fst hk))

end Builds

/-- Whether a declaration was just made, is unfinished, and is not referred to as yet. -/
structure Begun (opened : List (DeclId × String)) (pre : List Node) (d : DeclId) (name : String)
    (kind : DeclKind) (s : State) : Prop where
  unfinished : s.ast.Unfinished ((d, name) :: opened)
  ready : s.Ready ((d, name) :: opened) pre
  unreferenced : s.ast.Unreferenced d
  stands : ∃ span, s.ast.decl? d = some { kind, span }
  shown : (Node.decl d).key ∉ hidden opened

/-- A scope may be opened for the parts of the declaration. -/
theorem Begun.enter {d : DeclId} {name : String} {kind : DeclKind}
    (h : Begun opened pre d name kind s) :
    Begun opened pre d name kind { s with scopes := s.scopes.enter } :=
  ⟨h.unfinished, h.ready.enter, h.unreferenced, h.stands, h.shown⟩

/-- The declaration made last is unfinished, if that is what it was made for. -/
theorem unfinished_cons_of_push {ast : Ast} {first : Decl} {name : String}
    (hs : s.ast = ast.push (.decl first)) (hu : s.ast.Unfinished opened)
    (hfirst : first.kind.header = (some name, none)) :
    s.ast.Unfinished ((⟨ast.decls.size⟩, name) :: opened) := by
  intro p hp
  rcases List.mem_cons.mp hp with rfl | hp
  · simp [hs, Ast.header?, Ast.decl?, Ast.push, hfirst]
  · exact hu p hp

/-- A declaration that is made of nodes in hand is begun when it is made. -/
theorem Begun.of_push {ast : Ast} {first : Decl} {name : String}
    (hs : s.ast = ast.push (.decl first)) (hu : ast.Unfinished opened)
    (hu' : s.ast.Unfinished opened) (hfirst : first.kind.header = (some name, none))
    (known : first.kind.nodes ⊆ pre) (hc : ast.Coherent (hidden opened))
    (hand : ∀ key ∈ loose pre, key ∈ ast.visible (hidden opened)) (linked : s.Linked) :
    Begun opened pre ⟨ast.decls.size⟩ name first.kind s := by
  have hhidden : hidden ((⟨ast.decls.size⟩, name) :: opened) =
      insert (ast.place (.decl first)) (hidden opened) := by
    simp [hidden, Node.key, Ast.place, Ast.Entry.category, Ast.count]
  have hnew := Ast.place_notMem_structural ast (.decl first)
  have hparts : ∀ key ∈ loose first.kind.nodes, key ∈ ast.visible (hidden opened) :=
    fun key hk => hand key (loose_subset known key hk)
  have hbindings := DeclKind.bindings_of_declaredName? (congrArg Prod.fst hfirst)
  refine ⟨unfinished_cons_of_push hs hu' hfirst, ⟨linked, ?_, fun key hk => ?_⟩, ?_,
    ⟨first.span, ?_⟩, ?_⟩
  · rw [hs, hhidden]
    exact hc.begin hparts hbindings
  · rw [hs, hhidden]
    refine (Ast.kept_push _ ast _).visible ?_
    rw [Ast.visible_insert hnew]
    exact hand key hk
  · rw [hs]
    exact hc.unreferenced hnew
  · simp [hs, Ast.decl?, Ast.push]
  · exact fun hm => hnew (hu.hidden_subset hm)

namespace Builds

/-- The declaration made last stands unfinished until it is given its parts. -/
theorem meets_complete {ast : Ast} {first : Decl} {name : String} {inner : Lower α}
    {close : α → Lower DeclId} {assumed : Prop} (kind : α → DeclKind)
    (hs : s.ast = ast.push (.decl first)) (hu : ast.Unfinished opened)
    (hu' : s.ast.Unfinished opened) (hfirst : first.kind.header = (some name, none))
    (known : first.kind.nodes ⊆ pre)
    (hready : assumed → ast.Coherent (hidden opened) ∧
      (∀ key ∈ loose pre, key ∈ ast.visible (hidden opened)) ∧ s.Linked)
    (hinner : inner.Builds terms ((⟨ast.decls.size⟩, name) :: opened) pre fun a => (kind a).nodes)
    (hcalled : Begun opened pre ⟨ast.decls.size⟩ name first.kind s →
      inner.Leaves s fun a ast' => ast'.Called ⟨ast.decls.size⟩ (kind a))
    (hclose : ∀ a, close a =
      Lower.setDeclKind ⟨ast.decls.size⟩ (kind a) >>= fun _ => Pure.pure ⟨ast.decls.size⟩)
    (hkind : ∀ a, (kind a).header = (some name, none)) :
    (inner >>= close).Meets terms s fun d ast' => Effect terms opened ast pre ast' [.decl d] ∧
      (assumed → Ast.Upkeep (hidden opened) ast pre ast' [.decl d]) := by
  have hu₂ := unfinished_cons_of_push hs hu' hfirst
  have hbegun (ha : assumed) : Begun opened pre ⟨ast.decls.size⟩ name first.kind s :=
    have ⟨hc, hand, linked⟩ := hready ha
    .of_push hs hu hu' hfirst known hc hand linked
  refine Meets.bind (hinner s hu₂) fun a s₃ es₃ hrec₃ goal => ?_
  have hu₃ := hrec₃.unfinished hu₂
  have hset : (Lower.setDeclKind ⟨ast.decls.size⟩ (kind a)).Meets terms s₃
      fun _ ast' => ast' = s₃.ast.setDeclKind ⟨ast.decls.size⟩ (kind a) := by
    refine .of_records (.setDeclKind _ _ s₃ ?_) (by simp) rfl
    rw [hkind]
    exact hu₃ _ List.mem_cons_self
  rw [hclose]
  refine hset.bind fun _ s₄ es₄ _ hast => .of_records (.pure _ s₄) (by simp) ⟨?_, fun ha => ?_⟩
  · rw [hast]
    have effect := goal.1
    rw [hs] at effect
    refine effect.define rfl hu.hidden_subset known (hu₃.hidden_subset ?_)
    simp [hidden]
  · rw [hast]
    have hup := goal.2 (hbegun ha).ready
    rw [hs] at hup
    refine Ast.Upkeep.define first hu.hidden_subset rfl
      (DeclKind.bindings_of_declaredName? (congrArg Prod.fst (hkind a)))
      (hcalled (hbegun ha) a s₃ hrec₃.run) ?_
    simpa [hidden] using hup

variable {first : DeclKind} {span : Span} {name : String} {inner : DeclId → Lower α}
  {close : DeclId → α → Lower DeclId}

/-- A declaration is made and its name bound before its parts are made. -/
theorem define (kind : α → DeclKind) (hfirst : first.header = (some name, none))
    (known : first.nodes ⊆ pre)
    (hinner : ∀ d, (inner d).Builds terms ((d, name) :: opened) pre fun a => (kind a).nodes)
    (hcalled : ∀ d s, Begun opened pre d name first s →
      (inner d).Leaves s fun a ast => ast.Called d (kind a))
    (hclose : ∀ d a, close d a = Lower.setDeclKind d (kind a) >>= fun _ => Pure.pure d)
    (hkind : ∀ a, (kind a).header = (some name, none)) :
    (Lower.addDecl first span >>= fun d => Lower.declare name d >>= fun _ =>
      inner d >>= close d).Builds terms opened pre fun d => [.decl d] := by
  rw [introduce_bind]
  intro s hu
  have hintroduced : (Lower.introduce first span name).Builds terms opened first.nodes
      fun id => [.decl id] := introduced (congrArg Prod.fst hfirst)
  refine Meets.bind (hintroduced s hu) fun d s₁ es hrec _ => ?_
  have hu₁ := hrec.unfinished hu
  cases hrec.run
  exact meets_complete kind rfl hu hu₁ hfirst known
    (fun hr => ⟨hr.coherent, hr.hand, hrec.linked hr.linked⟩) (hinner _) (hcalled _ _) (hclose _)
    hkind

/-- A declaration that binds no name is made before its parts are. -/
theorem defineUnbound (kind : α → DeclKind) (hfirst : first.header = (some name, none))
    (known : first.nodes ⊆ pre)
    (hinner : ∀ d, (inner d).Builds terms ((d, name) :: opened) pre fun a => (kind a).nodes)
    (hcalled : ∀ d s, Begun opened pre d name first s →
      (inner d).Leaves s fun a ast => ast.Called d (kind a))
    (hclose : ∀ d a, close d a = Lower.setDeclKind d (kind a) >>= fun _ => Pure.pure d)
    (hkind : ∀ a, (kind a).header = (some name, none)) :
    (Lower.addDecl first span >>= fun d => inner d >>= close d).Builds terms opened pre
      fun d => [.decl d] := by
  intro s hu
  have hadded : (Lower.addDecl first span).Builds terms opened first.nodes fun id => [.decl id] :=
    addDecl (DeclKind.bindings_of_declaredName? (congrArg Prod.fst hfirst))
  refine Meets.bind (hadded s hu) fun d s₁ es hrec _ => ?_
  have hu₁ := hrec.unfinished hu
  cases hrec.run
  exact meets_complete kind rfl hu hu₁ hfirst known
    (fun hr => ⟨hr.coherent, hr.hand, hrec.linked hr.linked⟩) (hinner _) (hcalled _ _) (hclose _)
    hkind

/-! ### Scopes and lists -/

/-- A step builds the same in a scope of its own. -/
theorem inScope (hx : x.Builds terms opened pre mid) : x.inScope.Builds terms opened pre mid :=
  fun s hu => Meets.inScope ((hx { s with scopes := s.scopes.enter } hu).mono fun hr => hr.enter)

/-- What the steps for the elements of a list take and leave, one after the other. -/
theorem mapM {xs : List γ} {take : γ → List Node} {g : γ → Lower α}
    (h : ∀ c ∈ xs, (g c).Builds terms opened (take c) mid) :
    (xs.mapM g).Builds terms opened (xs.flatMap take) (·.flatMap mid) := by
  induction xs with
  | nil =>
    rw [List.mapM_nil]
    exact pure (.refl [])
  | cons c xs ih =>
    rw [List.mapM_cons, List.flatMap_cons]
    refine ((h c (by simp)).frame_right _).bind fun a => ?_
    refine ((ih fun c hc => h c (by simp [hc])).frame (mid a)).bind fun as => ?_
    rw [← List.flatMap_cons]
    exact pure (.refl _)

/-- Each element of a list gives nodes and takes none. -/
theorem mapM_new {xs : List γ} {g : γ → Lower α}
    (h : ∀ c ∈ xs, (g c).Builds terms opened [] mid) :
    (xs.mapM g).Builds terms opened [] (·.flatMap mid) := by
  have hnil : xs.flatMap (fun _ => ([] : List Node)) = [] := by simp
  rw [← hnil]
  exact mapM h

/-- Each element of a list gives one node. -/
theorem mapM_map {xs : List γ} {g : γ → Lower α} {node : α → Node}
    (h : ∀ c ∈ xs, (g c).Builds terms opened [] fun a => [node a]) :
    (xs.mapM g).Builds terms opened [] (·.map node) := by
  simpa only [List.map_eq_flatMap] using mapM_new h

/-- What may be there gives one node, if it is. -/
theorem optionMapM {o : Option γ} {g : γ → Lower α} {node : α → Node}
    (h : ∀ c, o = some c → (g c).Builds terms opened [] fun a => [node a]) :
    (o.mapM g).Builds terms opened [] fun a => (a.map node).toList := by
  cases o with
  | none => exact pure (.refl [])
  | some c => exact (h c rfl).bind fun a => pure (.refl [node a])

/-- What is in hand between the elements of a list. -/
theorem foldlM {xs : List γ} {g : α → γ → Lower α}
    (h : ∀ a, ∀ c ∈ xs, (g a c).Builds terms opened (mid a) mid) (init : α) :
    (xs.foldlM g init).Builds terms opened (mid init) mid := by
  induction xs generalizing init with
  | nil => exact done init
  | cons c xs ih =>
    rw [List.foldlM_cons]
    exact (h init c (by simp)).bind fun a => ih (fun a c hc => h a c (by simp [hc])) a

end Builds

/-! ### Results -/

/-- Whether all results of a step have a property. -/
def Returns (x : Lower α) (p : α → Prop) : Prop := ∀ s a s', x s = .ok (a, s') → p a

/-- The only result without a step is the one returned. -/
theorem Returns.pure {p : α → Prop} {a : α} (h : p a) : (Pure.pure a : Lower α).Returns p := by
  intro s b s' hr
  cases hr
  exact h

/-- Any step returns something. -/
theorem Returns.any : x.Returns fun _ => True := fun _ _ _ _ => trivial

/-- The results of two steps are those of the second. -/
theorem Returns.bind {p : α → Prop} {q : β → Prop} (hx : x.Returns p)
    (hf : ∀ a, p a → (f a).Returns q) : (x >>= f).Returns q := by
  intro s b s' hr
  obtain ⟨a, s₁, ha, hr⟩ := bind_eq_ok.mp hr
  exact hf a (hx s a s₁ ha) s₁ b s' hr

/-- What is known of the results for the elements of a list is known of all results. -/
theorem Returns.mapM {p : α → Prop} {xs : List γ} {g : γ → Lower α}
    (h : ∀ c ∈ xs, (g c).Returns p) : (xs.mapM g).Returns fun as => ∀ a ∈ as, p a := by
  induction xs with
  | nil =>
    rw [List.mapM_nil]
    exact .pure (by simp)
  | cons c xs ih =>
    rw [List.mapM_cons]
    refine (h c List.mem_cons_self).bind fun a ha =>
      (ih fun c hc => h c (List.mem_cons_of_mem _ hc)).bind fun as has => .pure ?_
    exact List.forall_mem_cons.mpr ⟨ha, has⟩

/-- What may be there gives a result if it is there. -/
theorem Returns.optionMapM (o : Option γ) (g : γ → Lower α) :
    (o.mapM g).Returns fun a => a.isSome = o.isSome := by
  cases o with
  | none => exact Returns.pure (a := none) rfl
  | some c => exact Returns.bind (x := g c) .any fun a _ => Returns.pure (a := some a) rfl

/-- A step returns the same in a scope of its own. -/
theorem Returns.inScope {p : α → Prop} (h : x.Returns p) : x.inScope.Returns p := by
  intro s a s' hr
  obtain ⟨s₁, hr, -⟩ := inScope_eq_ok.mp hr
  exact h _ a s₁ hr

/-- What is known of all results of a step may be used after it. -/
theorem Builds.bind_of_returns {p : α → Prop} (hp : x.Returns p)
    (hx : x.Builds terms opened pre mid)
    (hf : ∀ a, p a → (f a).Builds terms opened (mid a) post) :
    (x >>= f).Builds terms opened pre post :=
  fun s hu => (hx s hu).bind hu fun a s' _ hrec hup =>
    (hf a (hp s a s' hrec.run) s' (hrec.unfinished hu)).mono fun hr => hr.next hrec (hup hr)

/-- A result without a step leaves the tree that is there. -/
theorem Leaves.pure {p : α → Ast → Prop} {a : α} (h : p a s.ast) :
    (Pure.pure a : Lower α).Leaves s p := by
  intro b s' hr
  cases hr
  exact h

/-- Two steps leave what the second does. -/
theorem Leaves.bind {p : β → Ast → Prop}
    (hf : ∀ a s', x s = .ok (a, s') → (f a).Leaves s' p) : (x >>= f).Leaves s p := by
  intro b s₂ hr
  obtain ⟨a, s₁, ha, hr⟩ := bind_eq_ok.mp hr
  exact hf a s₁ ha b s₂ hr

/-- A step leaves the same in a scope of its own. -/
theorem Leaves.inScope {p : α → Ast → Prop}
    (h : x.Leaves { s with scopes := s.scopes.enter } p) : x.inScope.Leaves s p := by
  intro a s' hr
  obtain ⟨s₁, hx, rfl⟩ := inScope_eq_ok.mp hr
  exact h a s₁ hx

/-- A step may depend on the state. -/
theorem Leaves.get {f : State → Lower β} {p : β → Ast → Prop} (hf : (f s).Leaves s p) :
    (MonadState.get >>= f).Leaves s p :=
  .bind fun _ _ hg => by cases hg; exact hf

/-- A step from a ready state keeps the tree up, and leaves a state that is ready. -/
theorem Builds.upkeep (hx : x.Builds terms opened pre mid) (hu : s.ast.Unfinished opened)
    (hr : s.Ready opened pre) {a : α} (h : x s = .ok (a, s')) :
    Ast.Upkeep (hidden opened) s.ast pre s'.ast (mid a) ∧ s'.ast.Unfinished opened ∧
      s'.Ready opened (mid a) := by
  obtain ⟨es, hrec, -, -, hup⟩ := (hx s hu).run a s' h
  exact ⟨hup hr, hrec.unfinished hu, hr.next hrec (hup hr)⟩

/-- The second step ensures it from what the first leaves. -/
theorem Ensures.bind {p : β → Ast → Prop} (hx : x.Builds terms opened pre mid)
    (hf : ∀ a, (f a).Ensures opened (mid a) p) : (x >>= f).Ensures opened pre p := by
  refine fun s hu hr => .bind fun a s' h => ?_
  obtain ⟨-, hu, hr⟩ := hx.upkeep hu hr h
  exact hf a s' hu hr

/-- What follows from what is ensured of a result is ensured of what is made of it. -/
theorem Ensures.map {p : α → Ast → Prop} {q : β → Ast → Prop} {g : α → β}
    (hx : x.Ensures opened pre p) (h : ∀ a ast, p a ast → q (g a) ast) :
    (x >>= fun a => Pure.pure (g a)).Ensures opened pre q :=
  fun s hu hr => .bind fun a s' ha => .pure (h a s'.ast (hx s hu hr a s' ha))

/-- What is ensured of the result of each element of a list, and lasts, is ensured of all
results. -/
theorem Ensures.mapM {p : α → Ast → Prop} {xs : List γ} {g : γ → Lower α}
    (hb : ∀ c ∈ xs, (g c).Builds terms opened [] mid) (hg : ∀ c ∈ xs, (g c).Ensures opened [] p)
    (lasts : ∀ a ast ast', ast.Coherent (hidden opened) → Ast.Kept (hidden opened) ast ast' →
      p a ast → p a ast') :
    (xs.mapM g).Ensures opened [] fun as ast => ∀ a ∈ as, p a ast := by
  induction xs with
  | nil =>
    rw [List.mapM_nil]
    exact fun s _ _ => .pure (by simp)
  | cons c xs ih =>
    have hbs : ∀ c ∈ xs, (g c).Builds terms opened [] mid := fun c hc => hb c (by simp [hc])
    rw [List.mapM_cons]
    refine fun s hu hr => .bind fun a s₁ ha => .bind fun as s₂ has => .pure ?_
    obtain ⟨-, hu₁, hr₁⟩ := (hb c (by simp)).upkeep hu hr ha
    have hr₁ : s₁.Ready opened [] := hr₁.mono (by simp)
    obtain ⟨hup, -, -⟩ := (Builds.mapM_new hbs).upkeep hu₁ hr₁ has
    intro b hm
    rcases List.mem_cons.mp hm with rfl | hm
    · exact lasts b _ _ hr₁.coherent hup.kept (hg c (by simp) s hu hr b s₁ ha)
    · exact ih hbs (fun c hc => hg c (by simp [hc])) s₁ hu₁ hr₁ as s₂ has b hm

/-- What makes a pattern brings in nothing that the values in hand refer to. -/
theorem Builds.initializes {x : Lower PatternId}
    (hx : x.Builds terms opened [] fun id => [.pattern id]) (pre : List Node) :
    x.Ensures opened pre fun id ast =>
      ∀ value, .expr value ∈ pre → ast.Initialized (hidden opened) (id, value) := by
  intro s hu hr id s' h value hv
  obtain ⟨hup, -, -⟩ := hx.upkeep hu (hr.mono (by simp)) h
  refine hup.initialized hr.coherent (hr.hand _ ?_) ?_
  · exact mem_loose.mpr ⟨⟨_, hv, rfl⟩, by simp [Node.key]⟩
  · exact mem_loose.mpr ⟨⟨_, List.mem_singleton_self _, rfl⟩, by simp [Node.key]⟩

/-- What is ensured by a step may be used after it. -/
theorem Builds.bind_of_ensures {p : α → Ast → Prop} (hp : x.Ensures opened pre p)
    (hx : x.Builds terms opened pre mid)
    (hf : ∀ a s, s.ast.Unfinished opened →
      (f a).BuildsFrom terms opened (s.Ready opened (mid a) ∧ p a s.ast) s (mid a) post) :
    (x >>= f).Builds terms opened pre post :=
  fun s hu => (hx s hu).bind hu fun a s' _ hrec hup =>
    (hf a s' (hrec.unfinished hu)).mono fun hr =>
      ⟨hr.next hrec (hup hr), hp s hu hr a s' hrec.run⟩

/-! ### What is called while it is unfinished -/

/-- Whether a step makes no expression. -/
def Quiet (x : Lower α) : Prop := ∀ s, x.Leaves s fun _ ast => ast.exprs = s.ast.exprs

namespace Quiet

/-- A result without a step makes no expression. -/
theorem pure (a : α) : (Pure.pure a : Lower α).Quiet := fun _ => .pure rfl

/-- Two steps make no expression if neither does. -/
theorem bind (hx : x.Quiet) (hf : ∀ a, (f a).Quiet) : (x >>= f).Quiet :=
  fun s => .bind fun a s₁ ha b s₂ hb => (hf a s₁ b s₂ hb).trans (hx s a s₁ ha)

/-- A step that changes the tree alone makes no expression if the change adds none. -/
theorem onAst {g : Ast → α × Ast} (hg : ∀ ast, (g ast).2.exprs = ast.exprs) :
    (Lower.onAst g).Quiet := by
  rintro s _ _ ⟨⟩
  exact hg s.ast

/-- Binding a name makes no expression. -/
theorem declare (name : String) (d : DeclId) : (Lower.declare name d).Quiet := by
  rintro s _ _ ⟨⟩
  rfl

/-- Another kind for a declaration makes no expression. -/
theorem setDeclKind (d : DeclId) (kind : DeclKind) : (Lower.setDeclKind d kind).Quiet := by
  rintro s _ _ ⟨⟩
  rfl

/-- The steps for a list make no expression if none does. -/
theorem mapM {g : γ → Lower α} (hg : ∀ c, (g c).Quiet) (xs : List γ) : (xs.mapM g).Quiet := by
  induction xs with
  | nil => exact pure []
  | cons c xs ih =>
    rw [List.mapM_cons]
    exact (hg c).bind fun a => ih.bind fun as => pure _

/-- The step for a value, if there is one, makes no expression if it does not. -/
theorem optionMapM {g : γ → Lower α} (hg : ∀ c, (g c).Quiet) (o : Option γ) :
    (o.mapM g).Quiet := by
  cases o with
  | none => exact pure none
  | some c => exact (hg c).bind fun a => pure _

/-- An annotation makes no expression. -/
theorem writtenType (t : Tree) : (Lower.writtenType t).Quiet :=
  (onAst fun _ => rfl).bind fun _ => (onAst fun _ => rfl).bind fun _ => pure _

/-- What is not referred to is not referred to after a step that makes no expression. -/
theorem unreferenced (hx : x.Quiet) {d : DeclId} (h : s.ast.Unreferenced d) :
    x.Leaves s fun _ ast => ast.Unreferenced d := by
  intro a s' hr id expr name he
  rw [Ast.expr?, hx s a s' hr] at he
  exact h id expr name he

end Quiet

/-- The calls of an unfinished declaration have the type that it states when the first of them is
made. While it is not referred to it may be taken for finished, and a step leaves alone what is
finished. -/
theorem Builds.called (hx : x.Builds terms opened [] mid) {d : DeclId} {decl : Decl} {name : String}
    (hu : s.ast.Unfinished ((d, name) :: opened)) (hr : s.Ready ((d, name) :: opened) [])
    (hd : s.ast.decl? d = some decl) (hn : (Node.decl d).key ∉ hidden opened)
    (unreferenced : s.ast.Unreferenced d) : x.Leaves s fun _ ast => ast.Called d decl.kind := by
  intro a s' hrun
  have hready : s.Ready opened [] := by
    refine ⟨hr.linked, Ast.Coherent.reveal ?_ hd (unreferenced.called decl.kind), by simp⟩
    simpa [hidden] using hr.coherent
  obtain ⟨hup, -, -⟩ := hx.upkeep (fun p hp => hu p (List.mem_cons_of_mem _ hp)) hready hrun
  exact hup.coherent.called (hup.kept.decl?_eq_some hn hd) hn

end Lower

/-! ### Lowering what stands below -/

/-- The lowering of the trees below makes one node of each admitted tree. -/
structure Lowering.Below.Sound (terms : Terms) (height : Nat) (below : Below) : Prop where
  decl : ∀ {opened : List (DeclId × String)} {t : Tree}, terms.Admits height t →
    (below.decl t).Builds terms opened [] fun id => [.decl id]
  stmt : ∀ {opened : List (DeclId × String)} {t : Tree}, terms.Admits height t →
    (below.stmt t).Builds terms opened [] fun id => [.stmt id]
  expr : ∀ {opened : List (DeclId × String)} {t : Tree}, terms.Admits height t →
    (below.expr t).Builds terms opened [] fun id => [.expr id]
  pattern : ∀ {opened : List (DeclId × String)} {t : Tree} {binding : Option Bool},
    terms.Admits height t → (below.pattern t binding).Builds terms opened [] fun id => [.pattern id]

end SwiftRelations
