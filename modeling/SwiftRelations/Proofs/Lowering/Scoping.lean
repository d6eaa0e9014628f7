import SwiftRelations.Proofs.Lowering.File
import SwiftRelations.Proofs.Lowering.References
import SwiftRelations.Proofs.Lowering.Scopes

/-!
# Lexical scoping

Lowering a tree binds names in the innermost scope and does nothing else to the scopes. What a
construct with a scope of its own declares is therefore bound nowhere once the scope is closed, and
no name is resolved to it from then on: a journal never refers to a declaration that was made in a
scope it tells to be closed.
-/

namespace SwiftRelations

open Lowering Text

/-! ### Constructs with a scope of their own -/

namespace Lower

variable {α β γ : Type} {x : Lower α} {f : α → Lower β}

/-- Whether a step that succeeds binds names in the innermost scope and leaves the others alone. -/
def Grows (x : Lower α) : Prop := ∀ s a s', x s = .ok (a, s') → s.scopes.Grows s'.scopes

/-- Whether a step that succeeds leaves all scopes alone. -/
def Keeps (x : Lower α) : Prop := ∀ s a s', x s = .ok (a, s') → s'.scopes = s.scopes

/-- The result of a step that binds no new name. -/
theorem Keeps.pure (a : α) : (Pure.pure a : Lower α).Keeps := by
  intro s b s' h
  cases h
  rfl

private theorem Keeps.onAst (g : Ast → α × Ast) : (Lower.onAst g).Keeps := by
  intro s b s' h
  cases h
  rfl

private theorem Keeps.setDeclKind (id : DeclId) (kind : DeclKind) :
    (Lower.setDeclKind id kind).Keeps := by
  intro s b s' h
  cases h
  rfl

private theorem Keeps.bind (hx : x.Keeps) (hf : ∀ a, (f a).Keeps) : (x >>= f).Keeps := by
  intro s b s' h
  obtain ⟨a, s₁, ha, hb⟩ := bind_eq_ok.mp h
  rw [hf a s₁ b s' hb, hx s a s₁ ha]

private theorem Keeps.mapM {cs : List γ} {g : γ → Lower α} (h : ∀ c, (g c).Keeps) :
    (cs.mapM g).Keeps := by
  induction cs with
  | nil =>
    rw [List.mapM_nil]
    exact .pure []
  | cons c cs ih =>
    rw [List.mapM_cons]
    exact (h c).bind fun a => ih.bind fun as => .pure (a :: as)

private theorem Keeps.writtenType (t : Tree) : (Lower.writtenType t).Keeps :=
  (Keeps.onAst _).bind fun _ => (Keeps.onAst _).bind fun _ => .pure _

private theorem Keeps.grows (hx : x.Keeps) : x.Grows := by
  intro s a s' h
  rw [hx s a s' h]
  exact .refl _

private theorem Grows.bind (hx : x.Grows) (hf : ∀ a, (f a).Grows) : (x >>= f).Grows := by
  intro s b s' h
  obtain ⟨a, s₁, ha, hb⟩ := bind_eq_ok.mp h
  exact (hx s a s₁ ha).trans (hf a s₁ b s' hb)

/-- What is declared in a scope of its own is bound nowhere outside of it. -/
theorem Grows.inScope (hx : x.Grows) : x.inScope.Keeps := by
  intro s a s' h
  obtain ⟨s₁, ha, rfl⟩ := inScope_eq_ok.mp h
  exact (hx _ a s₁ ha).leave

private theorem Builds.grows {terms : Terms} {pre : List Node} {post : α → List Node}
    (h : x.Builds terms [] pre post) : x.Grows := by
  intro s a s' hr
  obtain ⟨es, hrec, -⟩ := (h s fun p hp => by cases hp).run a s' hr
  exact hrec.grows

end Lower

/-- Nothing is asked of the trees to be lowered, if they may be too high. -/
theorem Terms.admits_all (height : Nat) (t : Tree) : (Terms.all True).Admits height t :=
  ⟨trivial, .inl trivial⟩

namespace Lowering

open Lower

variable {below : Below} {height : Nat}

/-- What the constructs with a scope of their own leave of the scopes: all is as before, but for
the name of a function or a type. -/
structure Below.Seals (below : Below) : Prop where
  function : ∀ t defaultName s d s', function below t defaultName s = .ok (d, s') →
    s'.scopes = s.scopes.bind ((fieldText? t "name").getD defaultName) d
  nominal : ∀ t defaultKind s d s', nominal below t defaultKind s = .ok (d, s') →
    s'.scopes =
      if nominalKind t defaultKind = .extensionType then s.scopes
      else s.scopes.bind ((fieldText? t "name").getD "") d
  closure : ∀ t, (closure below t).Keeps
  braced : ∀ brace after, (braced below brace after).Keeps
  /-- The condition and the block of a conditional or of a loop. -/
  guarded : ∀ parts, (guarded below parts).Keeps
  /-- The names of a loop over a sequence, whose block comes after the sequence. -/
  forStmt : ∀ t pieces s sequence s₁ id s', forPieces? t = some pieces →
    below.expr pieces.sequence s = .ok (sequence, s₁) → forStmt below t s = .ok (id, s') →
    s'.scopes = s₁.scopes
  switchCase : ∀ t, (switchCase below t).Keeps

private theorem elements_grows (hb : below.Sound (Terms.all True) height) (ts : List Tree) :
    (ts.mapM below.item).Grows := by
  have h : (ts.mapM below.item).Builds (Terms.all True) [] [] _ :=
    elements_builds hb fun u _ => Terms.admits_all height u
  exact h.grows

private theorem braced_keeps (hb : below.Sound (Terms.all True) height) (brace : Tree)
    (after : List Tree) : (braced below brace after).Keeps := by
  exact (elements_grows hb _).inScope.bind fun _ => (Keeps.onAst _).bind fun _ => .pure _

private theorem guarded_keeps (hb : below.Sound (Terms.all True) height) (parts : List Tree) :
    (guarded below parts).Keeps := by
  unfold guarded
  split
  case h_1 => exact .pure none
  case h_2 brace after h =>
    have hc : ∀ ts, (condition below ts).Builds (Terms.all True) [] [] _ := fun ts =>
      condition_builds hb fun u _ => Terms.admits_all height u
    exact ((hc _).grows.bind fun c =>
      (braced_keeps hb brace after).grows.bind fun r => (Keeps.pure _).grows).inScope

private theorem closure_keeps (hb : below.Sound (Terms.all True) height) (t : Tree) :
    (closure below t).Keeps := by
  have hp : ((closureParams t).mapM closureParam).Builds (Terms.all True) [] [] _ :=
    .mapM_map fun u _ => closureParam_builds u
  exact (hp.grows.bind fun params => (elements_grows hb _).bind fun elements =>
    (Keeps.pure _).grows).inScope.bind fun _ => (Keeps.onAst _).bind fun _ => .onAst _

private theorem switchCase_keeps (hb : below.Sound (Terms.all True) height) (t : Tree) :
    (switchCase below t).Keeps := by
  have hparts : (t.parts.foldlM (casePart below) {}).Builds (Terms.all True) [] [] _ :=
    caseParts_builds hb (fun u _ => Terms.admits_all height u) (.inl trivial)
  refine (Grows.inScope (hparts.grows.bind fun state => ?_)).bind fun r =>
    (Keeps.mapM fun _ => .onAst _).bind fun labels => .onAst _
  split
  · exact (Keeps.pure _).grows
  · exact ((Keeps.onAst _).bind fun body => .pure _).grows

private theorem forStmt_keeps (hb : below.Sound (Terms.all True) height) {t : Tree}
    {pieces : ForPieces} {s s₁ s' : State} {sequence : ExprId} {id : StmtId}
    (h : forPieces? t = some pieces) (hs : below.expr pieces.sequence s = .ok (sequence, s₁))
    (hr : forStmt below t s = .ok (id, s')) : s'.scopes = s₁.scopes := by
  simp only [forStmt, h] at hr
  obtain ⟨_, _, hs', hr⟩ := bind_eq_ok.mp hr
  cases hs.symm.trans hs'
  have hitem : (below.pattern pieces.item (some true)).Builds (Terms.all True) [] [] _ :=
    hb.pattern (Terms.admits_all height _)
  have hbody := braced_keeps hb pieces.brace pieces.body
  refine Keeps.bind (Grows.inScope (hitem.grows.bind fun pattern => ?_)) (fun r => .onAst _)
    s₁ id s' hr
  split
  · exact ((Keeps.writtenType _).bind fun _ => (Keeps.onAst _).bind fun _ =>
      hbody.bind fun _ => .pure _).grows
  · exact ((Keeps.pure _).bind fun _ => hbody.bind fun _ => .pure _).grows

/-- A declaration is made and its name bound before anything else is, and nothing is left of what
its parts bind. -/
theorem scopes_introduce {kind : DeclKind} {span : Span} {name : String}
    {f : DeclId → Lower DeclId} (hf : ∀ d, (f d).Keeps) (hd : ∀ d, (f d).Returns (· = d))
    {s s' : State} {d : DeclId}
    (hr : (Lower.addDecl kind span >>= fun d => Lower.declare name d >>= fun _ => f d) s =
      .ok (d, s')) : s'.scopes = s.scopes.bind name d := by
  obtain ⟨_, _, h₁, hr⟩ := bind_eq_ok.mp hr
  obtain ⟨_, _, h₂, hr⟩ := bind_eq_ok.mp hr
  cases h₁
  cases h₂
  rw [hf _ _ d s' hr, hd _ _ d s' hr]

private theorem function_scopes (hb : below.Sound (Terms.all True) height) {t : Tree}
    {defaultName : String} {s s' : State} {d : DeclId}
    (hr : function below t defaultName s = .ok (d, s')) :
    s'.scopes = s.scopes.bind ((fieldText? t "name").getD defaultName) d := by
  have hparams : ∀ ts : List Tree, (ts.mapM param).Builds (Terms.all True) [] [] _ := fun ts =>
    .mapM_map fun u _ => param_builds u
  have hresult : ∀ o : Option Tree, (o.mapM Lower.writtenType).Builds (Terms.all True) [] [] _ :=
    fun o => .optionMapM fun u _ => .writtenType u
  have hbody : ∀ o : Option Tree, (o.mapM (block below)).Builds (Terms.all True) [] [] _ :=
    fun o => .optionMapM fun u _ => block_builds hb (Terms.admits_all _ u)
  refine scopes_introduce (fun d => ?_) (fun d => ?_) hr
  · exact (Grows.inScope ((hparams _).grows.bind fun _ => (hresult _).grows.bind fun _ =>
      (Keeps.setDeclKind _ _).grows.bind fun _ => (hbody _).grows.bind fun _ =>
        (Keeps.pure _).grows)).bind fun _ => (Keeps.setDeclKind _ _).bind fun _ => .pure d
  · exact .bind .any fun _ _ => .bind .any fun _ _ => .pure rfl

private theorem nominal_scopes (hb : below.Sound (Terms.all True) height) {t : Tree}
    {defaultKind : NominalKind} {s s' : State} {d : DeclId}
    (hr : nominal below t defaultKind s = .ok (d, s')) :
    s'.scopes =
      if nominalKind t defaultKind = .extensionType then s.scopes
      else s.scopes.bind ((fieldText? t "name").getD "") d := by
  have hmembers : ((memberTrees t).mapM below.decl).Builds (Terms.all True) [] [] _ :=
    .mapM_map fun u _ => hb.decl (Terms.admits_all height u)
  have hclose : ∀ (d : DeclId) (kind : List DeclId → DeclKind),
      (((memberTrees t).mapM below.decl).inScope >>= fun members =>
        Lower.setDeclKind d (kind members) >>= fun _ => Pure.pure d).Keeps := fun d kind =>
    hmembers.grows.inScope.bind fun _ => (Keeps.setDeclKind _ _).bind fun _ => .pure d
  unfold nominal at hr
  obtain ⟨inherited, s₁, h₁, hr⟩ := bind_eq_ok.mp hr
  have hinherited := Keeps.mapM Keeps.writtenType s _ _ h₁
  split
  case isTrue hk =>
    simp only [hk, ne_eq, not_true, if_false] at hr
    rw [← hinherited]
    exact (Keeps.onAst _).bind (fun d => hclose d _) s₁ d s' hr
  case isFalse hk =>
    simp only [ne_eq, hk, not_false_iff, if_true] at hr
    rw [← hinherited]
    exact scopes_introduce (fun d => hclose d _)
      (fun d => .bind .any fun _ _ => .bind .any fun _ _ => .pure rfl) hr

/-- Whatever the height, what is declared in a scope of its own is not bound outside of it. -/
theorem seals_upTo (height : Nat) : (upTo height).Seals where
  function _ _ _ _ _ := function_scopes (upTo_sound _ height)
  nominal _ _ _ _ _ := nominal_scopes (upTo_sound _ height)
  closure := closure_keeps (upTo_sound _ height)
  braced := braced_keeps (upTo_sound _ height)
  guarded := guarded_keeps (upTo_sound _ height)
  forStmt _ _ _ _ _ _ _ := forStmt_keeps (upTo_sound _ height)
  switchCase := switchCase_keeps (upTo_sound _ height)

end Lowering

/-! ### Closed scopes -/

namespace Lowering

/-- Whether the second of two events does not refer to what was made in a scope that is closed by
the first. -/
def Event.Respects (first second : Event) : Prop :=
  ∀ scope ref name decl, first = .closed scope → second = .referred ref name (some decl) →
    ¬ scope.Made decl

/-- Whether the declarations that are bound have been made. -/
def State.Fresh (s : State) : Prop := ∀ b ∈ s.scopes.bindings, b.2.index < s.ast.decls.size

/-- What a step keeps to that has some journal. -/
structure Lexical (s : State) (es : List Event) (s' : State) : Prop where
  /-- What is bound was bound before or is made by the step. -/
  bound : ∀ b ∈ s'.scopes.bindings,
    b ∈ s.scopes.bindings ∨ s.ast.decls.size ≤ b.2.index ∧ b.2.index < s'.ast.decls.size
  /-- What is referred to was bound before or is made by the step. -/
  referred : ∀ ref name decl, .referred ref name (some decl) ∈ es →
    (∃ b ∈ s.scopes.bindings, b.2 = decl) ∨ s.ast.decls.size ≤ decl.index
  /-- What is closed was opened by the step. -/
  closed : ∀ scope, .closed scope ∈ es →
    s.ast.decls.size ≤ scope.first ∧ scope.last ≤ s'.ast.decls.size
  /-- What was made in a closed scope is not bound any more. -/
  sealed : ∀ scope, .closed scope ∈ es → ∀ b ∈ s'.scopes.bindings, ¬ scope.Made b.2
  respects : es.Pairwise Event.Respects

namespace Lexical

variable {s s₁ s₂ : State} {es es' : List Event}

/-- A step that closes no scope and refers to nothing. -/
theorem of_quiet
    (hb : ∀ b ∈ s₁.scopes.bindings,
      b ∈ s.scopes.bindings ∨ s.ast.decls.size ≤ b.2.index ∧ b.2.index < s₁.ast.decls.size)
    (closed : ∀ scope, .closed scope ∉ es)
    (referred : ∀ ref name decl, .referred ref name (some decl) ∉ es) : Lexical s es s₁ where
  bound := hb
  referred ref name decl h := absurd h (referred ref name decl)
  closed scope h := absurd h (closed scope)
  sealed scope h := absurd h (closed scope)
  respects := by
    refine List.pairwise_of_forall_mem_list fun first hf second hs scope _ _ _ h => ?_
    exact absurd (h ▸ hf) (closed scope)

/-- A step that leaves the scopes alone and writes nothing. -/
theorem of_scopes_eq (h : s₁.scopes = s.scopes) : Lexical s [] s₁ :=
  of_quiet (fun b hb => .inl (h ▸ hb)) (by simp) (by simp)

/-- What was bound is made before what comes later. -/
theorem fresh (h : Lexical s es s₁) (hs : s.Fresh) (hsize : s.ast.decls.size ≤ s₁.ast.decls.size) :
    s₁.Fresh := by
  intro b hb
  rcases h.bound b hb with hb | ⟨-, hb⟩
  · exact Nat.lt_of_lt_of_le (hs b hb) hsize
  · exact hb

/-- What a later step finds bound, or makes, was not made in a scope that was closed before. -/
theorem not_made (h : Lexical s es s₁) {scope : ClosedScope} (hc : .closed scope ∈ es)
    {decl : DeclId} (hd : (∃ b ∈ s₁.scopes.bindings, b.2 = decl) ∨ s₁.ast.decls.size ≤ decl.index) :
    ¬ scope.Made decl := by
  rcases hd with ⟨b, hb, rfl⟩ | hd
  · exact h.sealed scope hc b hb
  · have hlast := (h.closed scope hc).2
    rintro ⟨-, hlt⟩
    omega

private theorem append (h : Lexical s es s₁) (h' : Lexical s₁ es' s₂)
    (hsize : s.ast.decls.size ≤ s₁.ast.decls.size)
    (hsize' : s₁.ast.decls.size ≤ s₂.ast.decls.size) : Lexical s (es ++ es') s₂ where
  bound b hb := by
    rcases h'.bound b hb with hb | ⟨hb, hlt⟩
    · exact (h.bound b hb).imp id fun ⟨hb, hlt⟩ => ⟨hb, by omega⟩
    · exact .inr ⟨by omega, hlt⟩
  referred ref name decl hr := by
    rcases List.mem_append.mp hr with hr | hr
    · exact h.referred ref name decl hr
    · rcases h'.referred ref name decl hr with ⟨b, hb, rfl⟩ | hd
      · exact (h.bound b hb).imp (fun hb => ⟨b, hb, rfl⟩) And.left
      · exact .inr (by omega)
  closed scope hc := by
    rcases List.mem_append.mp hc with hc | hc
    · exact (h.closed scope hc).imp id fun hl => by omega
    · exact (h'.closed scope hc).imp (fun hf => by omega) id
  sealed scope hc b hb := by
    rcases List.mem_append.mp hc with hc | hc
    · exact h.not_made hc ((h'.bound b hb).imp (fun hb => ⟨b, hb, rfl⟩) And.left)
    · exact h'.sealed scope hc b hb
  respects := by
    refine List.pairwise_append.mpr ⟨h.respects, h'.respects, ?_⟩
    rintro _ hc _ hr scope ref name decl rfl rfl
    exact h.not_made hc (h'.referred ref name decl hr)

/-- A step that closes the scope it is made in. -/
theorem inScope (h : Lexical { s with scopes := s.scopes.enter } es s₁)
    (hg : s.scopes.enter.Grows s₁.scopes) (hs : s.Fresh) :
    Lexical s (es ++ [.closed ⟨s₁.scopes.nested.length, s.ast.decls.size, s₁.ast.decls.size⟩])
      { s₁ with scopes := s₁.scopes.leave } where
  bound b hb := by
    rw [hg.leave] at hb
    exact .inl hb
  referred ref name decl hr := by
    refine h.referred ref name decl ?_
    simpa using hr
  closed scope hc := by
    rcases List.mem_append.mp hc with hc | hc
    · exact h.closed scope hc
    · cases List.mem_singleton.mp hc
      exact ⟨Nat.le_refl _, Nat.le_refl _⟩
  sealed scope hc b hb := by
    -- What is bound outside was made before the scope was opened.
    rw [hg.leave] at hb
    have hlt := hs b hb
    have hfirst : s.ast.decls.size ≤ scope.first := by
      rcases List.mem_append.mp hc with hc | hc
      · exact (h.closed scope hc).1
      · cases List.mem_singleton.mp hc
        exact Nat.le_refl _
    rintro ⟨hle, -⟩
    omega
  respects := by
    refine List.pairwise_append.mpr ⟨h.respects, List.pairwise_singleton _ _, ?_⟩
    rintro _ - e he scope ref name decl - rfl
    cases List.mem_singleton.mp he

end Lexical

end Lowering

/-- What has a journal is lexical, if no declaration is bound that is not made yet. By induction on
the journal. -/
theorem Lower.Records.lexical {α : Type} {x : Lower α} {s s' : State} {es : List Event} {a : α}
    (h : x.Records s es a s') (hs : s.Fresh) : Lexical s es s' := by
  induction h with
  | pure a s => exact .of_scopes_eq rfl
  | bind hx hf ihx ihf =>
    have hsize := hx.precedes.decls
    have h := ihx hs
    exact h.append (ihf (h.fresh hs hsize)) hsize hf.precedes.decls
  | get s => exact .of_scopes_eq rfl
  | onAst f s decls size exprs => exact .of_scopes_eq rfl
  | addExpr kind type span s plain => exact .of_scopes_eq rfl
  | selfRef t s ht => exact .of_quiet (fun _ => .inl) (by simp) (by simp)
  | declRef t name s =>
    refine ⟨fun _ => .inl, fun ref other decl hr => ?_, by simp, by simp, by simp⟩
    cases hfind : s.scopes.find? name with
    | none => simp [hfind] at hr
    | some found =>
      obtain ⟨-, -, rfl⟩ : ref = ⟨s.ast.exprs.size⟩ ∧ other = name ∧ decl = found := by
        simpa [hfind] using hr
      exact .inl ⟨_, Scopes.mem_bindings_of_find? hfind, rfl⟩
  | introduce kind span name s named =>
    refine .of_quiet (fun b hb => ?_) ?_ ?_
    · refine (Scopes.mem_bindings_bind hb).imp id ?_
      rintro ⟨rfl, -⟩
      simp [State.introduce, Ast.addDecl]
    all_goals
      unfold Scopes.bindingEvents
      split <;> simp
  | setDeclKind id kind s same => exact .of_scopes_eq rfl
  | inScope hx ih => exact (ih hs).inScope hx.grows hs

/-! ### Scoping -/

/-- Whether a step that does not meet an equals sign in a wrong place succeeds, binds names in the
innermost scope, leaves the other scopes alone, and closes scopes only that it has opened. -/
def Lower.Scoped {α : Type} (x : Lower α) : Prop :=
  ∀ s, x s = .error .equalsBeforeBinding ∨
    ∃ a s' es, x s = .ok (a, s') ∧ x.Records s es a s' ∧ s.scopes.Grows s'.scopes ∧
      ∀ scope, .closed scope ∈ es → s.scopes.nested.length < scope.depth

/-- What builds nodes of trees that are not too high is scoped. -/
theorem Lower.Builds.scoped {α : Type} {x : Lower α} {pre : List Node} {post : α → List Node}
    (h : x.Builds (Terms.all False) [] pre post) : x.Scoped := by
  intro s
  have hm := h s fun p hp => by cases hp
  cases hx : x s with
  | error fault =>
    cases fault with
    | equalsBeforeBinding => exact .inl rfl
    | tooDeep => exact (hm.depth hx).elim
  | ok result =>
    obtain ⟨es, hrec, -⟩ := hm.run result.1 result.2 hx
    exact .inr ⟨result.1, result.2, es, rfl, hrec, hrec.grows, fun _ => hrec.depth_lt⟩

/-- A tree that is not too high is admitted. -/
theorem Terms.admits_of_height {height : Nat} {t : Tree} (h : t.height ≤ height) :
    (Terms.all False).Admits height t := ⟨trivial, .inr h⟩

/-- The file of an empty journal binds nothing. -/
theorem Lowering.State.fresh_empty : ({} : State).Fresh := fun b hb => by cases hb

/-- Scopes are never leaked. From any state, lowering a tree leaves all scopes alone but for names
that it binds in the innermost one, it closes no scope that was open before, and what is declared
in a construct with a scope of its own is not bound outside of it. In the lowering of a file, no
name is resolved to a declaration that was made in a scope closed by then. -/
theorem lexical_scoping :
    (∀ height : Nat,
      (∀ t : Tree, t.height ≤ height →
        ((upTo height).item t).Scoped ∧ ((upTo height).decl t).Scoped ∧
        ((upTo height).stmt t).Scoped ∧ ((upTo height).expr t).Scoped ∧
        ∀ binding, ((upTo height).pattern t binding).Scoped) ∧
      (∀ ts : List Tree, (∀ t ∈ ts, t.height ≤ height) → (condition (upTo height) ts).Scoped) ∧
      (upTo height).Seals) ∧
    ∀ (root : Tree) (hasParseErrors : Bool),
      (root.lower hasParseErrors = .error .equalsBeforeBinding ∨
        ∃ topLevel s es, (sourceFile (upTo root.height) root).Records {} es topLevel s ∧
          root.lower hasParseErrors = .ok { ast := s.finish, topLevel, hasParseErrors }) ∧
      ∀ topLevel s es, (sourceFile (upTo root.height) root).Records {} es topLevel s →
        (∀ scope, .closed scope ∈ es → 0 < scope.depth) ∧
        (∀ id expr name decl, s.ast.expr? id = some expr → expr.kind = .declRef name (some decl) →
          .referred id name (some decl) ∈ es) ∧
        es.Pairwise Event.Respects := by
  refine ⟨fun height => ⟨fun t ht => ?_, fun ts hts => ?_, seals_upTo height⟩,
    fun root hasParseErrors => ⟨?_, fun topLevel s es h => ⟨?_, ?_, ?_⟩⟩⟩
  · have hb := upTo_sound (Terms.all False) height
    have ht := Terms.admits_of_height ht
    exact ⟨(item_builds hb ht).scoped, (hb.decl ht).scoped, (hb.stmt ht).scoped,
      (hb.expr ht).scoped, fun binding => (hb.pattern ht).scoped⟩
  · exact (condition_builds (upTo_sound _ height) fun t ht =>
      Terms.admits_of_height (hts t ht)).scoped
  · have hroot : (Terms.all False).trees root := trivial
    refine (Tree.lower_records hroot id hasParseErrors).imp id ?_
    rintro ⟨topLevel, s, es, hrec, -, -, hlower⟩
    exact ⟨topLevel, s, es, hrec, hlower⟩
  · exact fun scope hc => h.depth_lt hc
  · intro id expr name decl he hk
    rcases h.event_of_expr? he hk with he | he | ⟨t, -, -, rfl⟩
    · simp [Ast.expr?] at he
    · exact he
    · simp at hk
  · exact (h.lexical State.fresh_empty).respects

end SwiftRelations
