import SwiftRelations.Proofs.Lowering.Decl

/-!
# What the lowering of a file builds

The rules for trees are sound at every height, and the lowering of a file leaves its top-level
declarations in hand, in order.
-/

namespace SwiftRelations.Lowering

open SwiftRelations.Lower

variable {terms : Terms} {opened : List (DeclId × String)} {height : Nat} {below : Below}
  {t : Tree}

/-- The rules for the trees up to a height make one node of each. By induction on the height: the
rules for a tree are sound over sound rules for the trees below it. -/
theorem upTo_sound (terms : Terms) (height : Nat) : (upTo height).Sound terms height := by
  induction height with
  | zero =>
    have hdeep : ∀ t, terms.Admits 0 t → terms.deep := by
      intro t ht
      have hpos := t.height_pos
      exact ht.height.resolve_right (by omega)
    exact ⟨fun ht => .throw fun _ => hdeep _ ht, fun ht => .throw fun _ => hdeep _ ht,
      fun ht => .throw fun _ => hdeep _ ht, fun ht => .throw fun _ => hdeep _ ht⟩
  | succ height ih =>
    exact ⟨fun ht => declAt_builds ih ht, fun ht => stmtAt_builds ih ht,
      fun ht => exprAt_builds ih ht, fun ht => patternAt_builds ih ht⟩

/-! ### Top-level declarations -/

/-- The nodes of the top-level declarations so far. -/
def TopLevel.nodes (top : TopLevel) : List Node :=
  top.decls.map .decl ++ top.script.map (·.2)

/-- Statements and expressions are wrapped into a declaration of their own. -/
theorem flush_builds (top : TopLevel) :
    top.flush.Builds terms opened top.nodes TopLevel.nodes := by
  unfold TopLevel.flush
  split
  case h_1 first _ last _ _ _ =>
    have hbody : ∀ span, (Lower.addStmt (.brace (top.script.reverse.map (·.2))) span).Builds terms
        opened top.nodes fun body => top.decls.map .decl ++ [.stmt body] := by
      intro span
      refine .weaken_pre (.perm ?_) (Builds.addStmt.frame _)
      exact ((List.reverse_perm _).symm.map _).append_left _
    refine (hbody _).bind fun body => ((Builds.addDecl rfl).frame _).bind fun decl =>
      .pure (.perm ?_)
    simp [TopLevel.nodes]
  case h_2 => exact .pure (.refl _)

/-- Nothing is left unwrapped. -/
theorem flush_returns (top : TopLevel) : top.flush.Returns fun top => top.script = [] := by
  unfold TopLevel.flush
  split
  case h_1 => exact .bind .any fun body _ => .bind .any fun decl _ => .pure rfl
  case h_2 h =>
    refine .pure ?_
    by_contra hne
    exact h _ _ _ _ (List.getLast?_eq_some_getLast hne) (List.head?_eq_some_head hne)

private theorem next_builds (hb : below.Sound terms height) (ht : terms.Admits height t)
    (top : TopLevel) :
    (TopLevel.next below top t).Builds terms opened top.nodes TopLevel.nodes := by
  unfold TopLevel.next
  refine (item_builds hb ht).seq fun node => ?_
  split
  case h_1 decl =>
    exact ((flush_builds top).frame_right _).bind fun top => .pure (.perm List.perm_append_comm)
  case h_2 other _ =>
    refine .pure (.perm ?_)
    rw [TopLevel.nodes, List.append_assoc]
    exact List.perm_append_comm.append_left _

/-- The lowering of a file leaves its top-level declarations in hand. -/
theorem sourceFile_builds (hb : below.Sound terms height) (ht : terms.Admits (height + 1) t) :
    (sourceFile below t).Builds terms opened [] (·.map .decl) := by
  refine (Builds.foldlM (fun top u hu => next_builds hb (admits_namedParts ht u hu) top) {}).bind
    fun top => ?_
  refine .bind_of_returns (flush_returns top) (flush_builds top) fun top h => .pure ?_
  rw [TopLevel.nodes, h, List.map_nil, List.append_nil]
  exact .perm ((List.reverse_perm _).symm.map _)

end SwiftRelations.Lowering

namespace SwiftRelations

open Lowering

variable {terms : Terms}

/-! ### Whole files -/

/-- All trees, from which nothing is asked. They may be too high or not. -/
def Terms.all (deep : Prop) : Terms where
  trees _ := True
  lossy := True
  deep
  below _ _ _ _ := trivial
  guards _ _ _ := .inl trivial

/-- A tree and those below it, from which nothing is asked. -/
def Terms.under (root : Tree) : Terms where
  trees t := t ∈ root.subtrees
  lossy := True
  deep := False
  below t u ht hu := by
    rw [Tree.mem_subtrees] at ht ⊢
    rcases ht with rfl | ht
    · exact .inr hu
    · exact .inr (Tree.descendants_trans ht hu)
  guards _ _ _ := .inl trivial

/-- A node of a tree that is written without places. -/
def Tree.bare (kind : String) (named : Bool) (text : String) (children : List Tree) : Tree :=
  .node { index := 0, kind, named, field := none, span := default, text, fieldAnswers := [] }
    children

/-- A lowering begins with nothing in hand and nothing unfinished. -/
theorem Lowering.State.Ready.empty : ({} : State).Ready [] [] :=
  ⟨.empty, Ast.coherent_empty, by simp⟩

/-- At the top level nothing is unfinished. -/
theorem Ast.unfinished_nil (ast : Ast) : ast.Unfinished [] := fun p hp => by cases hp

/-- The lowering of a file keeps its tree up. -/
theorem Lowering.sourceFile_upkeep {root : Tree} {topLevel : List DeclId} {s : State}
    (h : sourceFile (upTo root.height) root {} = .ok (topLevel, s)) :
    Ast.Upkeep ∅ {} [] s.ast (topLevel.map .decl) := by
  have hadmits : (Terms.all False).Admits (root.height + 1) root := ⟨trivial, .inr (Nat.le_succ _)⟩
  have hbuilds : (sourceFile (upTo root.height) root).Builds (.all False) [] [] (·.map .decl) :=
    sourceFile_builds (upTo_sound _ root.height) hadmits
  exact (hbuilds.upkeep (Ast.unfinished_nil _) .empty h).1

/-- A file is lowered with a journal, or not at all because of an equals sign in a wrong place. -/
theorem Tree.lower_records {root : Tree} (hr : terms.trees root) (hd : ¬ terms.deep)
    (hasParseErrors : Bool) :
    root.lower hasParseErrors = .error .equalsBeforeBinding ∨
    ∃ topLevel s es, (sourceFile (upTo root.height) root).Records {} es topLevel s ∧
      (∀ e ∈ es, e.Within terms) ∧ Effect terms [] {} [] s.ast (topLevel.map .decl) ∧
      root.lower hasParseErrors = .ok { ast := s.finish, topLevel, hasParseErrors } := by
  have hadmits : terms.Admits (root.height + 1) root := ⟨hr, .inr (Nat.le_succ _)⟩
  have h := sourceFile_builds (upTo_sound terms root.height) hadmits {} (Ast.unfinished_nil _)
  cases hrun : sourceFile (upTo root.height) root {} with
  | error fault =>
    cases fault with
    | equalsBeforeBinding => exact .inl (by simp [Tree.lower, StateT.run, hrun, bind, Except.bind])
    | tooDeep => exact absurd (h.depth hrun) hd
  | ok result =>
    obtain ⟨topLevel, s⟩ := result
    obtain ⟨es, hrec, within, effect, -⟩ := h.run topLevel s hrun
    refine .inr ⟨topLevel, s, es, hrec, within, effect, ?_⟩
    simp [Tree.lower, StateT.run, hrun, bind, Except.bind, pure, Except.pure]

/-- A lowered file is the outcome of a run of its rules. -/
theorem Tree.exists_run {root : Tree} {hasParseErrors : Bool} {file : LoweredFile}
    (h : root.lower hasParseErrors = .ok file) :
    ∃ topLevel s, sourceFile (upTo root.height) root {} = .ok (topLevel, s) ∧
      file = { ast := s.finish, topLevel, hasParseErrors } := by
  cases hrun : sourceFile (upTo root.height) root {} with
  | error fault => simp [lower, StateT.run, hrun, bind, Except.bind] at h
  | ok result =>
    refine ⟨result.1, result.2, rfl, ?_⟩
    simpa [lower, StateT.run, hrun, bind, Except.bind, pure, Except.pure] using h.symm

/-- A file is lowered, or not because of an equals sign in a wrong place. -/
theorem Tree.lower_ends (root : Tree) (hasParseErrors : Bool) :
    root.lower hasParseErrors = .error .equalsBeforeBinding ∨
      ∃ file, root.lower hasParseErrors = .ok file := by
  have hroot : (Terms.all False).trees root := trivial
  refine (lower_records hroot id hasParseErrors).imp id ?_
  rintro ⟨topLevel, s, es, -, -, -, h⟩
  exact ⟨_, h⟩

/-- The file that a lowering is evaluated to. -/
theorem Tree.lower_of_mem_toOption {root : Tree} {hasParseErrors : Bool} {file : LoweredFile}
    (h : file ∈ (root.lower hasParseErrors).toOption) : root.lower hasParseErrors = .ok file := by
  cases hr : root.lower hasParseErrors with
  | error fault =>
    rw [hr] at h
    cases h
  | ok found =>
    rw [hr] at h
    cases h
    rfl

end SwiftRelations
