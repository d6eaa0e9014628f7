import SwiftRelations.Proofs.Lowering.Pattern

/-!
# What the rules for statements build

Every rule makes one statement of the trees it lowers. Blocks and conditions are found among the
parts of a statement, and every list of trees that a rule cuts out of them holds parts of it.
-/

namespace SwiftRelations.Lowering

open SwiftRelations.Text SwiftRelations.Lower

variable {terms : Terms} {opened : List (DeclId × String)} {height : Nat} {below : Below}
  {t : Tree} {ts : List Tree}

private theorem unknownStmt_builds (hb : below.Sound terms height)
    (ht : terms.Admits (height + 1) t) :
    (unknownStmt below t).Builds terms opened [] fun id => [.stmt id] :=
  (items_builds hb ht).bind fun _ => .addStmt

/-- The parts of an admitted tree are admitted. -/
theorem admits_parts (ht : terms.Admits (height + 1) t) : ∀ u ∈ t.parts, terms.Admits height u :=
  fun _ hu => ht.below (Tree.mem_descendants_of_mem_parts hu)

/-! ### Blocks -/

/-- What a tree contributes to a block is admitted with it. -/
theorem admits_blockElements (ht : terms.Admits height t) :
    ∀ u ∈ blockElements t, terms.Admits height u := by
  intro u hu
  unfold blockElements at hu
  split at hu
  · exact ht.succ.below (Tree.mem_descendants_of_mem_namedParts hu)
  split at hu
  · rwa [List.mem_singleton.mp hu]
  · cases hu

/-- The elements of the statements in a block are admitted if the trees in the block are. -/
theorem admits_flatMap_blockElements (hts : ∀ u ∈ ts, terms.Admits height u) :
    ∀ u ∈ ts.flatMap blockElements, terms.Admits height u := by
  intro u hu
  obtain ⟨v, hv, hu⟩ := List.mem_flatMap.mp hu
  exact admits_blockElements (hts v hv) u hu

private theorem braced_builds (hb : below.Sound terms height) (brace : Tree)
    (hts : ∀ u ∈ ts, terms.Admits height u) :
    (braced below brace ts).Builds terms opened [] fun r => [.stmt r.1] := by
  have hinside : ∀ u ∈ ts.takeWhile (!closesBlock ·), terms.Admits height u := fun u hu =>
    hts u ((List.takeWhile_sublist _).subset hu)
  refine (elements_builds hb (admits_flatMap_blockElements hinside)).inScope.bind fun nodes => ?_
  exact Builds.addStmt.bind fun id => .pure (.refl _)

/-- After a block stand trees that stood after its opening. -/
theorem braced_returns (brace : Tree) : (braced below brace ts).Returns fun r => r.2 ⊆ ts := by
  refine .bind .any fun nodes _ => .bind .any fun id _ => .pure fun u hu => ?_
  exact (List.dropWhile_sublist _).subset ((List.drop_sublist 1 _).subset hu)

private theorem statementsBlock_builds (hb : below.Sound terms height)
    (ht : terms.Admits (height + 1) t) :
    (statementsBlock below t).Builds terms opened [] fun id => [.stmt id] :=
  (elements_builds hb (admits_flatMap_blockElements (admits_namedParts ht))).bind
    fun _ => .addStmt

/-- The trees from the brace of a block on are parts of the block. -/
theorem admits_after_brace (ht : terms.Admits (height + 1) t) {brace : Tree} {after : List Tree}
    (h : t.parts.dropWhile (!opensBlock ·) = brace :: after) :
    ∀ u ∈ after, terms.Admits height u :=
  fun u hu => admits_parts ht u (Tree.mem_of_dropWhile h hu)

/-- A block becomes a statement. -/
theorem block_builds (hb : below.Sound terms height) (ht : terms.Admits (height + 1) t) :
    (block below t).Builds terms opened [] fun id => [.stmt id] := by
  unfold block
  split
  case h_1 brace after h =>
    exact (braced_builds hb brace (admits_after_brace ht h)).bind fun r => .pure (.refl _)
  case h_2 => exact statementsBlock_builds hb ht

/-! ### Conditions -/

/-- The groups of a list are made of its elements, in their order. -/
theorem sublist_of_mem_splitAtKind {kind : String} {group : List Tree}
    (h : group ∈ splitAtKind kind ts) : group.Sublist ts := by
  induction ts generalizing group with
  | nil => simp_all [splitAtKind]
  | cons t ts ih =>
    rw [splitAtKind] at h
    split at h
    · rcases List.mem_cons.mp h with rfl | h
      · exact List.nil_sublist _
      · exact (ih h).cons t
    · split at h
      case h_1 first groups hs =>
        rw [hs] at ih
        rcases List.mem_cons.mp h with rfl | h
        · exact (ih List.mem_cons_self).cons_cons t
        · exact (ih (List.mem_cons_of_mem _ h)).cons t
      case h_2 =>
        rw [List.mem_singleton.mp h]
        exact (List.nil_sublist ts).cons_cons t

/-- The type under the optional type of an expression is in the table. -/
theorem unwrapped_builds (id : ExprId) :
    (Lower.ofAst fun ast => (ast.exprType? id).map (unwrappedType ast)).Builds terms opened []
      typeNodes := by
  refine .ofAst loose_typeNodes fun ast ht => covers_typeNodes fun type h => ?_
  obtain ⟨type, he, rfl⟩ := Option.map_eq_some_iff.mp h
  unfold unwrappedType
  split
  case h_1 base _ hbase => exact ht.closed.parts type _ hbase base (by simp [TypeKind.parts])
  case h_2 => exact ht.has_exprType? he

/-- The pattern of a binding uses up the annotation, and the variable it makes has the type of the
annotation or that of the value. -/
theorem optionalBinding_builds (hb : below.Sound terms height) {pattern : Tree}
    (hp : terms.Admits height pattern) (keyword : Tree) (isLet : Bool) (typeTree : Option Tree)
    (initializer : ExprId) :
    (optionalBinding below keyword isLet typeTree pattern initializer).Builds terms opened []
      fun id => [.pattern id] := by
  unfold optionalBinding
  refine (Builds.optionMapM fun u _ => .writtenType u).bind fun written => ?_
  extract_lets name last next
  have hnext : ∀ sub, (next sub).Builds terms opened
      ((written.map Node.writtenType).toList ++ [.pattern sub]) fun id => [.pattern id] := by
    intro sub
    cases written with
    | none => exact .addPattern
    | some written =>
      have htyped : (Lower.addPattern (.typed sub written) (some pattern.span) >>= last).Builds
          terms opened [.pattern sub, .writtenType written] fun id => [.pattern id] :=
        Builds.addPattern.bind fun id => .addPattern
      exact htyped.weaken_pre (.perm (.swap _ _ []))
  clear_value next name
  split
  case h_1 name =>
    refine (unwrapped_builds initializer).seq fun initType => ?_
    refine .weaken_pre (.retype (by simp) fun id h => ?_)
      (((newVariable_builds name isLet _).frame _).bind hnext)
    split at h
    case h_1 written => exact ⟨.writtenType written, by simp, by simp [Node.types, h]⟩
    case h_2 => exact ⟨.type id, by simp [h], by simp [Node.types]⟩
  case h_2 => exact (hb.pattern hp).seq hnext

/-- The pattern of a binding in a condition, whose first piece that may be one is a given tree. -/
def bindingPattern (below : Below) (keyword : Tree) (pieces : List Tree) (pattern : Tree)
    (initializer : ExprId) : Lower PatternId := do
  if startsWith (trimStart keyword.text) "case" then
    match ← patternRun below pieces none with
    | some id => return id
    | none => below.pattern pattern none
  else
    optionalBinding below keyword (startsWith (trimStart keyword.text) "let")
      (pieces.find? (·.kind == "type_annotation")) pattern initializer

/-- The value of a binding in a condition. -/
def bindingValue (below : Below) (value : List Tree) (pattern : Tree) : Lower ExprId :=
  match value.find? Tree.isOperand with
  | some init => below.expr init
  | none => Lower.declRef pattern (trim pattern.text)

/-- A binding is its value and, after that, its pattern. -/
theorem bindingElement_eq (below : Below) (keyword : Tree) (pieces value : List Tree) :
    bindingElement below keyword pieces value =
      match pieces.find? fun t => t.isOperand && t.kind != "type_annotation" with
      | none => return none
      | some pattern => do
        let initializer ← bindingValue below value pattern
        let id ← bindingPattern below keyword pieces pattern initializer
        return some (.pattern id initializer) := by
  unfold bindingElement
  cases pieces.find? fun t => t.isOperand && t.kind != "type_annotation" with
  | none => rfl
  | some pattern =>
    dsimp -zeta only
    extract_lets word next
    have hnext : next = fun initializer => do
        let id ← bindingPattern below keyword pieces pattern initializer
        return some (ConditionElement.pattern id initializer) := by
      funext initializer
      dsimp only [next]
      unfold bindingPattern
      split
      · rw [bind_assoc]
        congr 1
        funext sub
        cases sub <;> simp
      · rfl
    rw [hnext]
    unfold bindingValue
    cases value.find? Tree.isOperand <;> rfl

private theorem bindingValue_builds (hb : below.Sound terms height) {value : List Tree}
    (hv : ∀ u ∈ value, terms.Admits height u) (pattern : Tree) :
    (bindingValue below value pattern).Builds terms opened [] fun id => [.expr id] := by
  unfold bindingValue
  split
  case h_1 init hinit => exact hb.expr (hv init (List.mem_of_find?_eq_some hinit))
  case h_2 => exact .declRef pattern _

private theorem bindingPattern_builds (hb : below.Sound terms height) (keyword : Tree)
    {pieces : List Tree} (hp : ∀ u ∈ pieces, terms.Admits height u) {pattern : Tree}
    (hpattern : terms.Admits height pattern) (initializer : ExprId) :
    (bindingPattern below keyword pieces pattern initializer).Builds terms opened []
      fun id => [.pattern id] := by
  unfold bindingPattern
  split
  · refine (patternRun_builds hb hp).bind fun sub => ?_
    cases sub with
    | some sub => exact .pure (.refl _)
    | none => exact hb.pattern hpattern
  · exact optionalBinding_builds hb hpattern keyword _ _ initializer

/-- A binding takes its pattern and its value. -/
theorem bindingElement_builds (hb : below.Sound terms height) (keyword : Tree)
    {pieces value : List Tree} (hp : ∀ u ∈ pieces, terms.Admits height u)
    (hv : ∀ u ∈ value, terms.Admits height u) :
    (bindingElement below keyword pieces value).Builds terms opened []
      fun e => (e.map ConditionElement.nodes).getD [] := by
  rw [bindingElement_eq]
  split
  case h_1 => exact .pure (.refl _)
  case h_2 pattern hpattern =>
    have hpattern := hp pattern (List.mem_of_find?_eq_some hpattern)
    refine (bindingValue_builds hb hv pattern).bind fun init => ?_
    exact (bindingPattern_builds hb keyword hp hpattern init).seq fun id =>
      .pure (.perm (.swap _ _ []))

/-- The value of a binding is made first, so that it refers to nothing in the pattern. -/
theorem bindingElement_ensures (hb : below.Sound terms height) (keyword : Tree)
    {pieces value : List Tree} (hp : ∀ u ∈ pieces, terms.Admits height u)
    (hv : ∀ u ∈ value, terms.Admits height u) :
    (bindingElement below keyword pieces value).Ensures opened [] fun e ast =>
      ∀ binding, e.bind ConditionElement.binding? = some binding →
        ast.Initialized (hidden opened) binding := by
  rw [bindingElement_eq]
  split
  case h_1 => exact fun _ _ _ => .pure (by simp)
  case h_2 pattern hpattern =>
    have hpattern := hp pattern (List.mem_of_find?_eq_some hpattern)
    refine .bind (bindingValue_builds hb hv pattern) fun init => ?_
    refine ((bindingPattern_builds hb keyword hp hpattern init).initializes _).map ?_
    rintro id ast h _ ⟨⟩
    exact h init List.mem_cons_self

private theorem conditionElement_builds (hb : below.Sound terms height)
    (hts : ∀ u ∈ ts, terms.Admits height u) :
    (conditionElement below ts).Builds terms opened []
      fun e => (e.map ConditionElement.nodes).getD [] := by
  unfold conditionElement
  split
  case h_1 =>
    split
    case h_1 u hu =>
      exact (hb.expr (hts u (List.mem_of_find?_eq_some hu))).bind fun id => .pure (.refl _)
    case h_2 => exact .pure (.refl _)
  case h_2 keyword after h =>
    have hafter : ∀ u ∈ after, terms.Admits height u :=
      fun u hu => hts u (Tree.mem_of_dropWhile h hu)
    split
    · exact .throw (by simp)
    · refine bindingElement_builds hb keyword (fun u hu => hafter u ?_) fun u hu => hafter u ?_
      · exact (List.takeWhile_sublist _).subset hu
      · exact (List.dropWhile_sublist _).subset ((List.drop_sublist 1 _).subset hu)

private theorem conditionElement_ensures (hb : below.Sound terms height)
    (hts : ∀ u ∈ ts, terms.Admits height u) :
    (conditionElement below ts).Ensures opened [] fun e ast =>
      ∀ binding, e.bind ConditionElement.binding? = some binding →
        ast.Initialized (hidden opened) binding := by
  unfold conditionElement
  split
  case h_1 =>
    split
    case h_1 => exact fun _ _ _ => .bind fun _ _ _ => .pure (by simp [ConditionElement.binding?])
    case h_2 => exact fun _ _ _ => .pure (by simp)
  case h_2 keyword after h =>
    have hafter : ∀ u ∈ after, terms.Admits height u :=
      fun u hu => hts u (Tree.mem_of_dropWhile h hu)
    split
    · rintro _ _ _ _ _ ⟨⟩
    · refine bindingElement_ensures hb keyword (fun u hu => hafter u ?_) fun u hu => hafter u ?_
      · exact (List.takeWhile_sublist _).subset hu
      · exact (List.dropWhile_sublist _).subset ((List.drop_sublist 1 _).subset hu)

/-- The elements that are there are all that is in hand. -/
theorem flatMap_conditionElements (elements : List (Option ConditionElement)) :
    elements.flatMap (fun e => (e.map ConditionElement.nodes).getD []) =
      (elements.filterMap id).flatMap ConditionElement.nodes := by
  induction elements with
  | nil => rfl
  | cons e elements ih => cases e <;> simp [ih]

/-- The trees of a condition become a condition. -/
theorem condition_builds (hb : below.Sound terms height) (hts : ∀ u ∈ ts, terms.Admits height u) :
    (condition below ts).Builds terms opened [] fun id => [.stmtCondition id] := by
  have hgroup : ∀ group ∈ splitAtKind "," ts, ∀ u ∈ group, terms.Admits height u :=
    fun group hg u hu => hts u ((sublist_of_mem_splitAtKind hg).subset hu)
  have he : ∀ group ∈ splitAtKind "," ts, (conditionElement below group).Builds terms opened []
      fun e => (e.map ConditionElement.nodes).getD [] :=
    fun group hg => conditionElement_builds hb (hgroup group hg)
  refine .bind_of_ensures (.mapM he (fun group hg => conditionElement_ensures hb (hgroup group hg))
    fun e ast ast' hc hk h binding hm => hk.initialized hc (h binding hm)) (.mapM_new he)
      fun elements s hu => ?_
  rw [flatMap_conditionElements]
  refine .addStmtCondition hu And.left fun h binding hm => ?_
  obtain ⟨e, he, hm⟩ := List.mem_filterMap.mp hm
  obtain ⟨_, he, rfl⟩ := List.mem_filterMap.mp he
  exact (h.2 (some e) he binding hm).blind

/-! ### Conditionals and loops -/

private theorem elseBranch_builds (hb : below.Sound terms height)
    (hts : ∀ u ∈ ts, terms.Admits height u) :
    (elseBranch below ts).Builds terms opened [] fun id => (id.map Node.stmt).toList := by
  unfold elseBranch
  split
  case h_1 keyword t after =>
    have ht := hts t (by simp)
    have hafter : ∀ u ∈ after, terms.Admits height u := fun u hu => hts u (by simp [hu])
    split
    · exact .pure (.refl _)
    split
    · exact (hb.stmt ht).bind fun id => .pure (.refl _)
    split
    · exact (braced_builds hb t hafter).bind fun r => .pure (.refl _)
    · exact .pure (.refl _)
  case h_2 => exact .pure (.refl _)

/-- A condition with its block is in hand, if there is a block. -/
theorem guarded_builds (hb : below.Sound terms height) (hts : ∀ u ∈ ts, terms.Admits height u) :
    (guarded below ts).Builds terms opened []
      fun r => (r.map fun (c, body, _) => [.stmtCondition c, .stmt body]).getD [] := by
  unfold guarded
  split
  case h_1 => exact .pure (.refl _)
  case h_2 brace after h =>
    have hbefore : ∀ u ∈ (ts.takeWhile (!opensBlock ·)).drop 1, terms.Admits height u := fun u hu =>
      hts u ((List.takeWhile_sublist _).subset ((List.drop_sublist 1 _).subset hu))
    have hafter : ∀ u ∈ after, terms.Admits height u :=
      fun u hu => hts u (Tree.mem_of_dropWhile h hu)
    refine .inScope ((condition_builds hb hbefore).bind fun c => ?_)
    exact (braced_builds hb brace hafter).seq fun r => .pure (.refl _)

/-- After a condition with its block stand trees that stood after its opening. -/
theorem guarded_returns :
    (guarded below ts).Returns fun r => ∀ c body rest, r = some (c, body, rest) → rest ⊆ ts := by
  unfold guarded
  split
  case h_1 => exact .pure (by simp)
  case h_2 brace after h =>
    refine .inScope (.bind .any fun c _ => .bind (braced_returns brace) fun r hr => .pure ?_)
    intro c' body rest he u hu
    cases he
    exact Tree.mem_of_dropWhile h (hr hu)

private theorem ifStmt_builds (hb : below.Sound terms height) (ht : terms.Admits (height + 1) t) :
    (ifStmt below t).Builds terms opened [] fun id => [.stmt id] := by
  have hparts := admits_parts ht
  refine (guarded_builds hb hparts).bind_of_returns guarded_returns fun r hr => ?_
  cases r with
  | none => exact unknownStmt_builds hb ht
  | some r =>
    obtain ⟨c, thenBranch, rest⟩ := r
    have hrest : ∀ u ∈ rest, terms.Admits height u := fun u hu =>
      hparts u (hr c thenBranch rest rfl hu)
    exact (elseBranch_builds hb hrest).seq fun elseBranch => .addStmt

private theorem guardStmt_builds (hb : below.Sound terms height)
    (ht : terms.Admits (height + 1) t) :
    (guardStmt below t).Builds terms opened [] fun id => [.stmt id] := by
  unfold guardStmt
  extract_lets parts beforeBrace
  split
  case h_1 brace after h =>
    split
    · have hc : ∀ u ∈ (beforeBrace.takeWhile (·.kind != "else")).drop 1, terms.Admits height u := by
        intro u hu
        have hu := (List.takeWhile_sublist _).subset ((List.drop_sublist 1 _).subset hu)
        exact admits_parts ht u ((List.takeWhile_sublist _).subset hu)
      refine (condition_builds hb hc).bind fun c => ?_
      exact (braced_builds hb brace (admits_after_brace ht h)).seq fun r => .addStmt
    · exact unknownStmt_builds hb ht
  case h_2 => exact unknownStmt_builds hb ht

private theorem whileStmt_builds (hb : below.Sound terms height)
    (ht : terms.Admits (height + 1) t) :
    (whileStmt below t).Builds terms opened [] fun id => [.stmt id] := by
  refine (guarded_builds hb (admits_parts ht)).bind fun r => ?_
  cases r with
  | none => exact unknownStmt_builds hb ht
  | some r => exact .addStmt

/-- The condition at the end is one of the trees. -/
theorem mem_of_trailingCondition? {c : Tree} (hc : trailingCondition? ts = some c) : c ∈ ts := by
  unfold trailingCondition? at hc
  split at hc
  · have hm := List.mem_reverse.mp (List.mem_of_find?_eq_some hc)
    exact List.mem_reverse.mp ((List.takeWhile_sublist _).subset hm)
  · cases hc

private theorem repeatWhileStmt_builds (hb : below.Sound terms height)
    (ht : terms.Admits (height + 1) t) :
    (repeatWhileStmt below t).Builds terms opened [] fun id => [.stmt id] := by
  unfold repeatWhileStmt
  split
  case h_1 brace after c h hc =>
    have hc := mem_of_trailingCondition? hc
    refine (braced_builds hb brace (admits_after_brace ht h)).bind fun ⟨body, rest⟩ => ?_
    exact (hb.expr (admits_parts ht c hc)).seq fun id => .addStmt
  case h_2 => exact unknownStmt_builds hb ht

/-- Where the pieces of a loop over a sequence are found. -/
structure ForPieces.Found (pieces : ForPieces) (t : Tree) : Prop where
  item : t.childByField? "item" = some pieces.item ∨ pieces.item ∈ t.parts
  typeTree : ∀ u, pieces.typeTree = some u → u ∈ t.parts ∧ u.kind = "type_annotation"
  sequence : pieces.sequence ∈ t.descendants
  body : t.parts.dropWhile (!opensBlock ·) = pieces.brace :: pieces.body

/-- The pieces of a loop are found in its tree. -/
theorem found_forPieces? {pieces : ForPieces} (h : forPieces? t = some pieces) :
    pieces.Found t := by
  have hbefore : ∀ u ∈ t.parts.takeWhile (!opensBlock ·), u ∈ t.parts := fun u hu =>
    (List.takeWhile_sublist _).subset hu
  unfold forPieces? at h
  dsimp only at h
  split at h
  case h_2 => cases h
  case h_1 brace body hbrace =>
    simp only [bind, Option.bind_some] at h
    split at h
    case h_2 => cases h
    case h_1 first afterIn hin =>
      split at h
      case isTrue => cases h
      case isFalse =>
        obtain ⟨item, hitem, h⟩ := Option.bind_eq_some_iff.mp h
        obtain ⟨sequence, hsequence, h⟩ := Option.bind_eq_some_iff.mp h
        cases h
        have hnames : ∀ u ∈ ((t.parts.takeWhile (!opensBlock ·)).takeWhile
            (·.kind != "in")).drop 1, u ∈ t.parts := fun u hu =>
          hbefore u ((List.takeWhile_sublist _).subset ((List.drop_sublist 1 _).subset hu))
        refine ⟨?_, fun u hu => ⟨hnames u (List.mem_of_find?_eq_some hu), ?_⟩, ?_, hbrace⟩
        · cases hfield : t.childByField? "item" with
          | some u =>
            rw [hfield, Option.orElse_some] at hitem
            exact .inl hitem
          | none =>
            rw [hfield, Option.orElse_none] at hitem
            exact .inr (hnames item (List.mem_of_find?_eq_some hitem))
        · simpa using List.find?_some hu
        · refine Tree.mem_descendants_of_orElse hsequence fun h => ?_
          exact Tree.mem_descendants_of_mem_parts
            (hbefore sequence (Tree.mem_of_dropWhile hin (List.mem_of_find?_eq_some h)))

/-- The pieces of a loop over a sequence are below the loop. -/
theorem admits_forPieces (ht : terms.Admits (height + 1) t) {pieces : ForPieces}
    (h : forPieces? t = some pieces) :
    terms.Admits height pieces.item ∧ terms.Admits height pieces.sequence ∧
      ∀ u ∈ pieces.body, terms.Admits height u := by
  have found := found_forPieces? h
  refine ⟨?_, ht.below found.sequence, admits_after_brace ht found.body⟩
  rcases found.item with hitem | hitem
  · exact ht.below (Tree.mem_descendants_of_childByField? hitem)
  · exact admits_parts ht _ hitem

/-- The sequence of a loop is made before its pattern. -/
theorem forStmt_builds (hb : below.Sound terms height) (ht : terms.Admits (height + 1) t) :
    (forStmt below t).Builds terms opened [] fun id => [.stmt id] := by
  unfold forStmt
  split
  case h_1 => exact unknownStmt_builds hb ht
  case h_2 pieces h =>
    obtain ⟨hitem, hsequence, hbody⟩ := admits_forPieces ht h
    refine (hb.expr hsequence).bind fun sequence => ?_
    refine .seq (.inScope (?_ : Builds _ _ _ [] fun r => [.pattern r.1, .stmt r.2]))
      fun ⟨pattern, body⟩ => .weaken_pre (.perm (.swap _ _ _)) .addStmt
    refine (hb.pattern hitem).bind fun pattern => ?_
    extract_lets next
    have hnext : ∀ id, (next id).Builds terms opened [.pattern id]
        fun r => [.pattern r.1, .stmt r.2] := fun id =>
      (braced_builds hb pieces.brace hbody).seq fun ⟨body, rest⟩ => .pure (.refl _)
    clear_value next
    split
    case h_1 typeTree _ =>
      exact (Builds.writtenType typeTree).seq fun written => Builds.addPattern.bind hnext
    case h_2 => exact hnext pattern

/-! ### Switches -/

/-- The nodes of a label of a switch case. -/
def labelNodes (label : PatternId × Option ExprId × Span) : List Node :=
  .pattern label.1 :: (label.2.1.map Node.expr).toList

/-- The nodes that have been read of a switch case. -/
def CaseState.nodes (state : CaseState) : List Node :=
  state.labels.flatMap labelNodes ++ (state.body.map Node.stmt).toList

private theorem CaseState.body_withGuard (state : CaseState) (guard : ExprId) :
    (state.withGuard guard).body = state.body := by
  unfold withGuard
  split <;> rfl

/-- Whether what has been read of a switch case is what the flags tell. -/
structure CaseState.Fits (state : CaseState) (label body : Bool) : Prop where
  label : label = true → ∃ pattern span labels, state.labels = (pattern, none, span) :: labels
  body : body = false → state.body = none

/-- The body of a case is in hand, if it is not read twice. -/
theorem yields_body (state : CaseState) (id : StmtId) (h : terms.lossy ∨ state.body = none) :
    terms.Yields (state.nodes ++ [.stmt id])
      ({ state with body := some id } : CaseState).nodes := by
  rcases h with h | h
  · refine .drop h ?_
    simp [CaseState.nodes]
  · rw [CaseState.nodes, h]
    simpa [CaseState.nodes] using Terms.Yields.refl _

/-- The guard of a label is in hand, if the label has none. -/
theorem yields_guard (state : CaseState) (id : ExprId) (h : terms.lossy ∨
    ∃ pattern span labels, state.labels = (pattern, none, span) :: labels) :
    terms.Yields (state.nodes ++ [.expr id])
      { state.withGuard id with expectsGuard := false }.nodes := by
  obtain ⟨labels, body, expects⟩ := state
  cases labels with
  | nil =>
    rcases h with h | ⟨pattern, span, labels, h⟩
    · exact .drop h (List.subset_append_left _ _)
    · cases h
  | cons label labels =>
    obtain ⟨pattern, guard, span⟩ := label
    rcases h with h | ⟨_, _, _, h⟩
    · refine .drop h fun node hn => ?_
      simp only [CaseState.nodes, CaseState.withGuard, labelNodes, List.flatMap_cons,
        List.mem_append, List.mem_cons] at hn ⊢
      grind
    · cases h
      exact .perm (.cons _ List.perm_append_comm)

/-- Whether the parts to come fit what has been read of a switch case. -/
def CaseState.Awaits (terms : Terms) (state : CaseState) (ts : List Tree) : Prop :=
  terms.lossy ∨ ∃ label body, state.Fits label body ∧
    guardsFit label state.expectsGuard body ts = true

/-- A part of a switch case that fits what has been read adds its nodes. -/
theorem casePart_builds (hb : below.Sound terms height) (ht : terms.Admits height t)
    {state : CaseState} (h : state.Awaits terms (t :: ts)) :
    (casePart below state t).Builds terms opened state.nodes CaseState.nodes := by
  unfold casePart
  split
  case isTrue hk =>
    have hsub : terms.Admits height (t.namedParts.head?.getD t) := by
      cases hn : t.namedParts.head? with
      | none => exact ht
      | some u => exact admits_namedParts ht.succ u (List.mem_of_mem_head? hn)
    exact (hb.pattern hsub).seq fun pattern => .pure (.perm List.perm_append_comm)
  case isFalse hk =>
    split
    case isTrue => exact .pure (.refl _)
    case isFalse hw =>
      split
      case isTrue hs =>
        refine (statementsBlock_builds hb ht.succ).seq fun body => .pure (yields_body _ _ ?_)
        refine h.imp id fun ⟨label, body, hfit, hg⟩ => hfit.body ?_
        rw [guardsFit, if_neg hk, if_neg hw, if_pos hs, Bool.and_eq_true] at hg
        simpa using hg.1
      case isFalse hs =>
        split
        case isTrue he =>
          refine (hb.expr ht).seq fun guard => .pure (yields_guard _ _ ?_)
          refine h.imp id fun ⟨label, body, hfit, hg⟩ => hfit.label ?_
          rw [guardsFit, if_neg hk, if_neg hw, if_neg hs, if_pos he, Bool.and_eq_true] at hg
          exact hg.1
        case isFalse => exact .pure (.refl _)

/-- What has been read with a part fits the parts after it. -/
theorem casePart_returns {state : CaseState} (h : state.Awaits terms (t :: ts)) :
    (casePart below state t).Returns fun state => state.Awaits terms ts := by
  rcases h with h | ⟨label, body, hfit, hg⟩
  · exact fun _ _ _ _ => .inl h
  unfold casePart
  rw [guardsFit] at hg
  split at hg
  case isTrue hk =>
    rw [if_pos hk]
    exact .bind .any fun pattern _ => .pure
      (.inr ⟨true, body, ⟨fun _ => ⟨pattern, t.span, state.labels, rfl⟩, hfit.body⟩, hg⟩)
  case isFalse hk =>
    rw [if_neg hk]
    split at hg
    case isTrue hw =>
      rw [if_pos hw]
      exact .pure (.inr ⟨label, body, ⟨hfit.label, hfit.body⟩, hg⟩)
    case isFalse hw =>
      rw [if_neg hw]
      split at hg
      case isTrue hs =>
        rw [if_pos hs]
        rw [Bool.and_eq_true] at hg
        exact .bind .any fun _ _ => .pure (.inr ⟨label, true, ⟨hfit.label, by simp⟩, hg.2⟩)
      case isFalse hs =>
        rw [if_neg hs]
        split at hg
        case isTrue he =>
          rw [if_pos he]
          rw [Bool.and_eq_true] at hg
          refine .bind .any fun guard _ =>
            .pure (.inr ⟨false, body, ⟨by simp, fun hbody => ?_⟩, hg.2⟩)
          rw [← hfit.body hbody]
          exact state.body_withGuard guard
        case isFalse he =>
          rw [if_neg he]
          exact .pure (.inr ⟨label, body, hfit, hg⟩)

/-- The parts of a switch case leave its labels and its body in hand. -/
theorem caseParts_builds (hb : below.Sound terms height) {parts : List Tree}
    (hparts : ∀ u ∈ parts, terms.Admits height u) {state : CaseState}
    (h : state.Awaits terms parts) :
    (parts.foldlM (casePart below) state).Builds terms opened state.nodes CaseState.nodes := by
  induction parts generalizing state with
  | nil => exact .pure (.refl _)
  | cons t parts ih =>
    rw [List.foldlM_cons]
    refine (casePart_builds hb (hparts t List.mem_cons_self) h).bind_of_returns
      (casePart_returns h) fun state h => ?_
    exact ih (fun u hu => hparts u (List.mem_cons_of_mem t hu)) h

/-- A switch case is made of its labels and its body. -/
theorem switchCase_builds (hb : below.Sound terms height) (ht : terms.Admits height t)
    (hk : t.kind = "switch_entry") :
    (switchCase below t).Builds terms opened [] fun id => [.stmt id] := by
  unfold switchCase
  have hparts := admits_parts ht.succ
  have hawaits : ({} : CaseState).Awaits terms t.parts :=
    (terms.guards t ht.tree hk).imp id fun h => ⟨false, false, ⟨by simp, fun _ => rfl⟩, h⟩
  refine .seq (.inScope (?_ : Builds _ _ _ [] fun r => r.1.flatMap labelNodes ++ [.stmt r.2]))
    fun ⟨labels, body⟩ => ?_
  · refine (caseParts_builds hb hparts hawaits).bind fun state => ?_
    extract_lets next
    have hnext : ∀ body, (next body).Builds terms opened
        (state.labels.flatMap labelNodes ++ [.stmt body])
        fun r => r.1.flatMap labelNodes ++ [.stmt r.2] := fun body =>
      .pure (.perm (((List.reverse_perm _).symm.flatMap_right _).append_right _))
    clear_value next
    split
    case h_1 body h =>
      rw [CaseState.nodes, h]
      exact hnext body
    case h_2 h =>
      rw [CaseState.nodes, h]
      exact .bind (.frame _ .addStmt) hnext
  · have hitems : (labels.mapM fun (pattern, guard, span) =>
        Lower.onAst (·.addCaseLabelItem pattern guard (some span))).Builds terms opened
          (labels.flatMap labelNodes) fun ids => ids.flatMap fun id => [.caseLabelItem id] :=
      .mapM fun _ _ => .addCaseLabelItem
    simp only [← List.map_eq_flatMap] at hitems
    exact (hitems.frame_right [.stmt body]).bind fun ids => .addStmt

/-- What a switch is over is below it. -/
theorem mem_descendants_of_subject {subject : Tree}
    (h : ((t.childByField? "expr").orElse fun _ =>
      ((t.parts.takeWhile (!opensBlock ·)).drop 1).find? Tree.isOperand) = some subject) :
    subject ∈ t.descendants :=
  Tree.mem_descendants_of_orElse h fun h =>
    Tree.mem_descendants_of_mem_parts ((List.takeWhile_sublist _).subset
      ((List.drop_sublist 1 _).subset (List.mem_of_find?_eq_some h)))

private theorem switchStmt_builds (hb : below.Sound terms height)
    (ht : terms.Admits (height + 1) t) :
    (switchStmt below t).Builds terms opened [] fun id => [.stmt id] := by
  unfold switchStmt
  split
  case h_1 => exact unknownStmt_builds hb ht
  case h_2 brace after h =>
    extract_lets header
    split
    case h_1 => exact unknownStmt_builds hb ht
    case h_2 subject hs =>
      refine (hb.expr (ht.below (mem_descendants_of_subject hs))).bind fun subject => ?_
      refine (Builds.mapM_map fun u hu => ?_).seq fun cases => .addStmt
      obtain ⟨hu, hk⟩ := List.mem_filter.mp hu
      exact switchCase_builds hb (admits_after_brace ht h u hu) (by simpa using hk)

/-! ### Other statements -/

private theorem catchBlock_builds (hb : below.Sound terms height)
    (ht : terms.Admits (height + 1) t) :
    (catchBlock below t).Builds terms opened [] fun id => [.stmt id] := by
  unfold catchBlock
  split
  case h_1 brace after h =>
    exact (braced_builds hb brace (admits_after_brace ht h)).bind fun r => .pure (.refl _)
  case h_2 => exact .addStmt

private theorem doStmt_builds (hb : below.Sound terms height) (ht : terms.Admits (height + 1) t) :
    (doStmt below t).Builds terms opened [] fun id => [.stmt id] := by
  unfold doStmt
  split
  case h_1 => exact unknownStmt_builds hb ht
  case h_2 brace after h =>
    have hafter := admits_after_brace ht h
    refine (braced_builds hb brace hafter).bind fun r => ?_
    refine (Builds.mapM_map fun u hu => ?_).seq fun catches => .addStmt
    exact catchBlock_builds hb (hafter u (List.mem_filter.mp hu).1).succ

private theorem controlTransfer_builds (hb : below.Sound terms height)
    (ht : terms.Admits (height + 1) t) :
    (controlTransfer below t).Builds terms opened [] fun id => [.stmt id] := by
  unfold controlTransfer
  extract_lets keyword operand
  have hoperand : ∀ u, operand = some u → terms.Admits height u := fun u hu =>
    ht.below (Tree.mem_descendants_of_orElse hu fun h =>
      Tree.mem_descendants_of_mem_operands (List.mem_of_find?_eq_some h))
  clear_value keyword operand
  split
  · exact (Builds.optionMapM fun u hu => hb.expr (hoperand u hu)).bind fun result => .addStmt
  split
  · split
    case h_1 error => exact (hb.expr (hoperand error rfl)).bind fun id => .addStmt
    case h_2 => exact unknownStmt_builds hb ht
  split
  · exact .addStmt
  split
  · exact .addStmt
  · exact unknownStmt_builds hb ht

/-- Each kind of statement makes one statement. -/
theorem stmtAt_builds (hb : below.Sound terms height) (ht : terms.Admits (height + 1) t) :
    (stmtAt below t).Builds terms opened [] fun id => [.stmt id] := by
  unfold stmtAt
  split
  · exact ifStmt_builds hb ht
  · exact guardStmt_builds hb ht
  · exact whileStmt_builds hb ht
  · exact repeatWhileStmt_builds hb ht
  · exact forStmt_builds hb ht
  · exact switchStmt_builds hb ht
  · exact doStmt_builds hb ht
  · exact controlTransfer_builds hb ht
  · exact statementsBlock_builds hb ht
  · exact unknownStmt_builds hb ht

end SwiftRelations.Lowering
