import SwiftRelations.Proofs.Lowering.FormsPatterns

/-!
# Rules for statements and declarations form patterns well

Statements and declarations make patterns where they bind names. There the name and its type are
siblings, and so are the keyword before them and the value after them. A function and a nominal type
are replaced when their parts are made, by declarations that are no variables either.
-/

namespace SwiftRelations.Lowering

open SwiftRelations.Text SwiftRelations.Lower

variable {root : Tree} {height : Nat} {below : Below} {t : Tree} {ts : List Tree} {s : State}

/-! ### Blocks -/

private theorem unknownStmt_forms (hb : below.Forms root height)
    (ht : (Terms.under root).Admits (height + 1) t) : (unknownStmt below t).Forms root :=
  (items_forms hb ht).bind fun _ => .addStmt _ _

private theorem braced_forms (hb : below.Forms root height) (brace : Tree)
    (hts : ∀ u ∈ ts, (Terms.under root).Admits height u) : (braced below brace ts).Forms root := by
  have hinside : ∀ u ∈ ts.takeWhile (!closesBlock ·), (Terms.under root).Admits height u :=
    fun u hu => hts u ((List.takeWhile_sublist _).subset hu)
  exact (elements_forms hb (admits_flatMap_blockElements hinside)).inScope.bind fun _ =>
    (Forms.addStmt _ _).bind fun _ => .pure _

private theorem statementsBlock_forms (hb : below.Forms root height)
    (ht : (Terms.under root).Admits (height + 1) t) : (statementsBlock below t).Forms root :=
  (elements_forms hb (admits_flatMap_blockElements (admits_namedParts ht))).bind
    fun _ => .addStmt _ _

private theorem block_forms (hb : below.Forms root height)
    (ht : (Terms.under root).Admits (height + 1) t) : (block below t).Forms root := by
  unfold block
  split
  case h_1 brace after h =>
    exact (braced_forms hb brace (admits_after_brace ht h)).bind fun _ => .pure _
  case h_2 => exact statementsBlock_forms hb ht

/-! ### Names with a type beside them -/

/-- The tree of the name that a pattern is, if it is one, stands inside the pattern. -/
theorem span_within_of_name {pattern name : Tree} (hp : pattern.Placed)
    (h : (if pattern.kind == "simple_identifier" then some pattern
      else pattern.childByField? "bound_identifier") = some name) :
    name.span.Within pattern.span := by
  split at h
  · cases h
    exact .refl _
  · exact hp.within_of_mem_descendants (Tree.mem_descendants_of_childByField? h)

/-- A name that is lowered for a pattern fits what the pattern is lowered for. -/
theorem nameIn_fits {pattern name : Tree} (ht : (Terms.under root).Admits height pattern)
    (h : (if pattern.kind == "simple_identifier" then some pattern
      else pattern.childByField? "bound_identifier") = some name)
    (isLet : Bool) (type : Option TypeId) :
    (newVariable name isLet type).FormsFrom root s
      fun id ast => ast.Fits root id (some isLet) pattern.span :=
  (newVariable_fits name isLet type).imp fun _ _ _ hf =>
    hf.within fun hp => span_within_of_name (ht.placed hp) h

/-- The type that may stand beside a name stands where its annotation does. -/
theorem ascription_formsFrom {typeTree : Option Tree}
    (ht : ∀ u, typeTree = some u → (Terms.under root).Admits height u) :
    (typeTree.mapM Lower.writtenType).FormsFrom root s fun written ast =>
      ∀ w, written = some w → ∃ ascription, typeTree = some ascription ∧
        (root.Placed → ast.InSpan (.writtenType w) ascription.span) := by
  have hwritten : ∀ u, typeTree = some u → (Lower.writtenType u).FormsFrom root s fun w ast =>
      ∃ ascription, typeTree = some ascription ∧
        (root.Placed → ast.InSpan (.writtenType w) ascription.span) := fun u hu =>
    (writtenType_formsFrom (ht u hu).placed fun _ => .refl _).imp fun _ _ _ h => ⟨u, hu, h⟩
  exact .optionMapM hwritten

/-- A pattern with a type introduces what the pattern without it does. -/
theorem addTyped_fits {sub : PatternId} {written : WrittenType} {binding : Option Bool}
    {middle inner : Span} (hsub : s.ast.Fits root sub binding middle)
    (hs : root.Placed → s.ast.Spans root ⟨.typed sub written, some inner⟩) :
    (Lower.addPattern (.typed sub written) (some inner)).FormsFrom root s
      fun id ast => ast.Fits root id binding inner := by
  refine addPattern_fits (by simp) (fun id hid isLet hflag => ?_) (fun hp _ => hs hp)
    fun _ => ⟨inner, rfl, .refl _⟩
  obtain rfl : id = sub := by simpa [PatternKind.nodes] using hid
  exact hsub.uniform isLet hflag

/-- A pattern may stand around its type. -/
theorem spans_typed {ast : Ast} {sub : PatternId} {written : WrittenType} {outer : Span}
    (hsub : ast.InSpan (.pattern sub) outer) (htype : ast.InSpan (.writtenType written) outer) :
    ast.Spans root ⟨.typed sub written, some outer⟩ := by
  refine .parts rfl fun node hn => ?_
  simp only [PatternKind.nodes, List.mem_cons, List.not_mem_nil, or_false] at hn
  rcases hn with rfl | rfl
  · exact hsub
  · exact htype

/-- A pattern stands around its type if it reaches from its name to a type after that. -/
theorem spans_typed_cover {ast : Ast} {sub : PatternId} {written : WrittenType}
    {name ascription : Tree} (h : name.Precedes ascription)
    (hsub : ast.InSpan (.pattern sub) name.span)
    (htype : ast.InSpan (.writtenType written) ascription.span) :
    ast.Spans root ⟨.typed sub written, some (name.span.cover ascription.span)⟩ :=
  spans_typed (hsub.within h.within_cover.1) (htype.within h.within_cover.2)

/-! ### Conditions -/

/-- The kinds of the statements that have conditions. -/
abbrev conditional : List String := ["if_statement", "guard_statement", "while_statement"]

/-- The pattern of a binding in a condition has the place of the name, and stands around it. Only
with a type it does not stand around that. -/
theorem optionalBinding_forms (hb : below.Forms root height)
    (ht : (Terms.under root).Admits (height + 1) t) (hk : t.kind ∈ conditional)
    {keyword pattern : Tree} (hpair : [keyword, pattern].Sublist t.children) (isLet : Bool)
    {typeTree : Option Tree}
    (htype : ∀ u, typeTree = some u → u ∈ t.children ∧ u.kind = "type_annotation")
    (initializer : ExprId) :
    (optionalBinding below keyword isLet typeTree pattern initializer).Forms root := by
  have hchild {u : Tree} (hu : u ∈ t.children) : (Terms.under root).Admits height u :=
    ht.below (Tree.mem_descendants_of_mem_children hu)
  have hpattern := hchild (hpair.subset (List.mem_cons_of_mem _ List.mem_cons_self))
  intro s
  unfold optionalBinding
  refine (ascription_formsFrom fun u hu => hchild (htype u hu).1).bind
    fun written s₁ _ hwritten => ?_
  extract_lets name last next
  have hlast : ∀ sub (s' : State), s'.ast.Fits root sub (some isLet) pattern.span →
      (last sub).FormsFrom root s' fun _ _ => True := by
    intro sub s' hsub
    have hcover (hp : root.Placed) : keyword.Precedes pattern :=
      List.rel_of_pairwise_cons ((ht.placed hp).pairwise_precedes hpair) List.mem_cons_self
    have hbinding : (last sub).FormsFrom root s' fun id ast =>
        ast.Fits root id none (keyword.span.cover pattern.span) :=
      addPattern_fits_around rfl (hsub.within fun hp => (hcover hp).within_cover.2) fun _ => .refl _
    exact hbinding.forget
  have hnext : ∀ sub (s' : State), s₁.ast.Retains s'.ast →
      s'.ast.Fits root sub (some isLet) pattern.span →
      (next sub).FormsFrom root s' fun _ _ => True := by
    intro sub s' hret hsub
    cases written with
    | none => exact hlast sub s' hsub
    | some written =>
      obtain ⟨ascription, hascription, hinside⟩ := hwritten written rfl
      obtain ⟨hmem, hkind⟩ := htype ascription hascription
      refine (addTyped_fits hsub fun hp => ?_).bind fun sub s'' _ hsub => hlast sub s'' hsub
      exact .condition rfl ht.tree hk (hpair.subset (List.mem_cons_of_mem _ List.mem_cons_self))
        hmem hkind rfl (hsub.inside hp) ((hinside hp).writtenType hret)
  clear_value next
  have hname : name = (if pattern.kind == "simple_identifier" then some pattern
      else pattern.childByField? "bound_identifier") := rfl
  clear_value name
  cases name with
  | some name =>
    refine FormsFrom.bind (Forms.ofAst _ s₁) fun initType s₂ hret _ => ?_
    exact (nameIn_fits hpattern hname.symm isLet _).bind fun sub s₃ hret' hsub =>
      hnext sub s₃ (hret.trans hret') hsub
  | none => exact (hb.fits (some isLet) hpattern).bind hnext

private theorem bindingValue_forms (hb : below.Forms root height)
    (hts : ∀ u ∈ ts, (Terms.under root).Admits height u) (pattern : Tree) :
    (bindingValue below ts pattern).Forms root := by
  unfold bindingValue
  split
  case h_1 init hinit => exact hb.expr (hts init (List.mem_of_find?_eq_some hinit))
  case h_2 => exact .declRef pattern _

private theorem bindingElement_forms (hb : below.Forms root height)
    (ht : (Terms.under root).Admits (height + 1) t) (hk : t.kind ∈ conditional) {keyword : Tree}
    {pieces value : List Tree} (hpieces : (keyword :: pieces).Sublist t.children)
    (hvalue : value.Sublist t.children) :
    (bindingElement below keyword pieces value).Forms root := by
  rw [bindingElement_eq]
  split
  case h_1 => exact .pure _
  case h_2 pattern hpattern =>
    have hpattern := List.mem_of_find?_eq_some hpattern
    have hp := siblings_of_sublist ht ((List.sublist_cons_self keyword pieces).trans hpieces)
    refine (bindingValue_forms hb (siblings_of_sublist ht hvalue).admits pattern).bind
      fun initializer => Forms.bind ?_ fun _ => .pure _
    unfold bindingPattern
    split
    · refine (Forms.of_from fun _ => patternRun_fits hb hp).bind fun sub => ?_
      cases sub with
      | some sub => exact .pure _
      | none => exact hb.pattern none (hp.admits pattern hpattern)
    · refine optionalBinding_forms hb ht hk ?_ _ (fun u hu => ?_) initializer
      · exact ((List.singleton_sublist.mpr hpattern).cons_cons keyword).trans hpieces
      · have hmem := hpieces.subset (List.mem_cons_of_mem _ (List.mem_of_find?_eq_some hu))
        exact ⟨hmem, by simpa using List.find?_some hu⟩

private theorem conditionElement_forms (hb : below.Forms root height)
    (ht : (Terms.under root).Admits (height + 1) t) (hk : t.kind ∈ conditional)
    (hs : ts.Sublist t.children) : (conditionElement below ts).Forms root := by
  unfold conditionElement
  split
  case h_1 =>
    split
    case h_1 u hu =>
      have hadmits := (siblings_of_sublist ht hs).admits u (List.mem_of_find?_eq_some hu)
      exact (hb.expr hadmits).bind fun _ => .pure _
    case h_2 => exact .pure _
  case h_2 keyword after h =>
    have hafter : (keyword :: after).Sublist t.children :=
      (h ▸ List.dropWhile_sublist _ : (keyword :: after).Sublist ts).trans hs
    split
    · exact .throw _
    · refine bindingElement_forms hb ht hk ?_ ?_
      · exact ((List.takeWhile_sublist _).cons_cons keyword).trans hafter
      · exact ((List.drop_sublist 1 _).trans (List.dropWhile_sublist _)).trans
          ((List.sublist_cons_self keyword after).trans hafter)

private theorem condition_forms (hb : below.Forms root height)
    (ht : (Terms.under root).Admits (height + 1) t) (hk : t.kind ∈ conditional)
    (hs : ts.Sublist t.children) : (condition below ts).Forms root := by
  refine (Forms.mapM fun group hg => ?_).bind fun elements => ?_
  · exact conditionElement_forms hb ht hk ((sublist_of_mem_splitAtKind hg).trans hs)
  · exact .onAst (fun _ => rfl) (fun _ => rfl) fun _ => rfl

/-! ### Conditionals and loops -/

private theorem elseBranch_forms (hb : below.Forms root height)
    (hts : ∀ u ∈ ts, (Terms.under root).Admits height u) : (elseBranch below ts).Forms root := by
  unfold elseBranch
  split
  case h_1 keyword t after =>
    have ht := hts t (by simp)
    have hafter : ∀ u ∈ after, (Terms.under root).Admits height u := fun u hu =>
      hts u (by simp [hu])
    split
    · exact .pure _
    split
    · exact (hb.stmt ht).bind fun _ => .pure _
    split
    · exact (braced_forms hb t hafter).bind fun _ => .pure _
    · exact .pure _
  case h_2 => exact .pure _

private theorem guarded_forms (hb : below.Forms root height)
    (ht : (Terms.under root).Admits (height + 1) t) (hk : t.kind ∈ conditional) :
    (guarded below t.parts).Forms root := by
  unfold guarded
  split
  case h_1 => exact .pure _
  case h_2 brace after h =>
    have hbefore : ((t.parts.takeWhile (!opensBlock ·)).drop 1).Sublist t.children :=
      (List.drop_sublist 1 _).trans ((List.takeWhile_sublist _).trans List.filter_sublist)
    refine .inScope ((condition_forms hb ht hk hbefore).bind fun _ => ?_)
    exact (braced_forms hb brace (admits_after_brace ht h)).bind fun _ => .pure _

private theorem ifStmt_forms (hb : below.Forms root height)
    (ht : (Terms.under root).Admits (height + 1) t) (hk : t.kind ∈ conditional) :
    (ifStmt below t).Forms root := by
  refine (guarded_forms hb ht hk).bind_of_returns guarded_returns fun r hr => ?_
  cases r with
  | none => exact unknownStmt_forms hb ht
  | some r =>
    obtain ⟨c, thenBranch, rest⟩ := r
    have hrest : ∀ u ∈ rest, (Terms.under root).Admits height u := fun u hu =>
      admits_parts ht u (hr c thenBranch rest rfl hu)
    exact (elseBranch_forms hb hrest).bind fun _ => .addStmt _ _

private theorem guardStmt_forms (hb : below.Forms root height)
    (ht : (Terms.under root).Admits (height + 1) t) (hk : t.kind ∈ conditional) :
    (guardStmt below t).Forms root := by
  unfold guardStmt
  extract_lets parts beforeBrace
  split
  case h_1 brace after h =>
    split
    · have hc : ((beforeBrace.takeWhile (·.kind != "else")).drop 1).Sublist t.children :=
        (List.drop_sublist 1 _).trans ((List.takeWhile_sublist _).trans
          ((List.takeWhile_sublist _).trans List.filter_sublist))
      exact (condition_forms hb ht hk hc).bind fun _ =>
        (braced_forms hb brace (admits_after_brace ht h)).bind fun _ => .addStmt _ _
    · exact unknownStmt_forms hb ht
  case h_2 => exact unknownStmt_forms hb ht

private theorem whileStmt_forms (hb : below.Forms root height)
    (ht : (Terms.under root).Admits (height + 1) t) (hk : t.kind ∈ conditional) :
    (whileStmt below t).Forms root := by
  refine (guarded_forms hb ht hk).bind fun r => ?_
  cases r with
  | none => exact unknownStmt_forms hb ht
  | some r => exact .addStmt _ _

private theorem repeatWhileStmt_forms (hb : below.Forms root height)
    (ht : (Terms.under root).Admits (height + 1) t) : (repeatWhileStmt below t).Forms root := by
  unfold repeatWhileStmt
  split
  case h_1 brace after c h hc =>
    refine (braced_forms hb brace (admits_after_brace ht h)).bind fun _ => ?_
    exact (hb.expr (admits_parts ht c (mem_of_trailingCondition? hc))).bind fun _ => .addStmt _ _
  case h_2 => exact unknownStmt_forms hb ht

/-- The pattern of a loop and its type are children of the loop, so that one stands before the
other. -/
theorem forStmt_forms (hb : below.Forms root height)
    (ht : (Terms.under root).Admits (height + 1) t) (hk : t.kind = "for_statement") :
    (forStmt below t).Forms root := by
  unfold forStmt
  split
  case h_1 => exact unknownStmt_forms hb ht
  case h_2 pieces h =>
    obtain ⟨hitem, hsequence, hbody⟩ := admits_forPieces ht h
    refine (hb.expr hsequence).bind fun _ => Forms.bind (.inScope ?_) fun _ => .addStmt _ _
    intro s
    refine (hb.fits (some true) hitem).bind fun pattern s₁ _ hpattern => ?_
    extract_lets next
    have hnext : ∀ id, (next id).Forms root := fun _ =>
      (braced_forms hb pieces.brace hbody).bind fun _ => .pure _
    clear_value next
    split
    case h_2 => exact hnext pattern s₁
    case h_1 ascription hascription =>
      obtain ⟨hmem, hkind⟩ := (found_forPieces? h).typeTree ascription hascription
      have htype : (Terms.under root).Admits height ascription := admits_parts ht _ hmem
      have hmem := (List.mem_filter.mp hmem).1
      refine (writtenType_formsFrom htype.placed fun _ => .refl _).bind
        fun written s₂ hret hin => ?_
      have hpattern := hpattern.mono hret
      refine (addTyped_fits hpattern fun hp => ?_).bind fun id s₃ _ _ => hnext id s₃
      have hsub := hpattern.inside hp
      have hchild : pieces.item ∈ t.children := (found_forPieces? h).item.elim
        ((ht.placed hp).self.item _) fun h => (List.mem_filter.mp h).1
      rcases (ht.placed hp).precedes_or_precedes hchild hmem with hbefore | heq | hafter
      · exact spans_typed_cover hbefore hsub (hin hp)
      · rw [← heq] at hin ⊢
        exact spans_typed hsub (hin hp)
      · exact .loop rfl ht.tree hk hchild hmem hkind hafter rfl hsub (hin hp)

/-! ### Switches and other statements -/

private theorem casePart_forms (hb : below.Forms root height)
    (ht : (Terms.under root).Admits height t) (state : CaseState) :
    (casePart below state t).Forms root := by
  unfold casePart
  split
  · have hsub : (Terms.under root).Admits height (t.namedParts.head?.getD t) := by
      cases hn : t.namedParts.head? with
      | none => exact ht
      | some u => exact admits_namedParts ht.succ u (List.mem_of_mem_head? hn)
    exact (hb.pattern none hsub).bind fun _ => .pure _
  split
  · exact .pure _
  split
  · exact (statementsBlock_forms hb ht.succ).bind fun _ => .pure _
  split
  · exact (hb.expr ht).bind fun _ => .pure _
  · exact .pure _

private theorem switchCase_forms (hb : below.Forms root height)
    (ht : (Terms.under root).Admits height t) : (switchCase below t).Forms root := by
  have hparts := admits_parts ht.succ
  refine Forms.bind (.inScope (.bind
    (.foldlM (fun state u hu => casePart_forms hb (hparts u hu) state) _)
    fun state => ?_)) fun _ => ?_
  · cases state.body with
    | some body => exact (Forms.pure body).bind fun _ => .pure _
    | none => exact (Forms.addStmt _ _).bind fun _ => .pure _
  · refine (Forms.mapM fun label _ => ?_).bind fun _ => .addStmt _ _
    exact .onAst (fun _ => rfl) (fun _ => rfl) fun _ => rfl

private theorem switchStmt_forms (hb : below.Forms root height)
    (ht : (Terms.under root).Admits (height + 1) t) : (switchStmt below t).Forms root := by
  unfold switchStmt
  split
  case h_1 => exact unknownStmt_forms hb ht
  case h_2 brace after h =>
    extract_lets header
    split
    case h_1 => exact unknownStmt_forms hb ht
    case h_2 subject hs =>
      refine (hb.expr (ht.below (mem_descendants_of_subject hs))).bind fun _ =>
        (Forms.mapM fun u hu => ?_).bind fun _ => .addStmt _ _
      exact switchCase_forms hb (admits_after_brace ht h u (List.mem_filter.mp hu).1)

private theorem catchBlock_forms (hb : below.Forms root height)
    (ht : (Terms.under root).Admits (height + 1) t) : (catchBlock below t).Forms root := by
  unfold catchBlock
  split
  case h_1 brace after h =>
    exact (braced_forms hb brace (admits_after_brace ht h)).bind fun _ => .pure _
  case h_2 => exact .addStmt _ _

private theorem doStmt_forms (hb : below.Forms root height)
    (ht : (Terms.under root).Admits (height + 1) t) : (doStmt below t).Forms root := by
  unfold doStmt
  split
  case h_1 => exact unknownStmt_forms hb ht
  case h_2 brace after h =>
    have hafter := admits_after_brace ht h
    refine (braced_forms hb brace hafter).bind fun _ => ?_
    refine (Forms.mapM fun u hu => ?_).bind fun _ => .addStmt _ _
    exact catchBlock_forms hb (hafter u (List.mem_filter.mp hu).1).succ

private theorem controlTransfer_forms (hb : below.Forms root height)
    (ht : (Terms.under root).Admits (height + 1) t) : (controlTransfer below t).Forms root := by
  unfold controlTransfer
  extract_lets keyword operand
  have hoperand : ∀ u, operand = some u → (Terms.under root).Admits height u := fun u hu =>
    ht.below (Tree.mem_descendants_of_orElse hu fun h =>
      Tree.mem_descendants_of_mem_operands (List.mem_of_find?_eq_some h))
  clear_value keyword operand
  split
  · exact (Forms.optionMapM fun u hu => hb.expr (hoperand u hu)).bind fun _ => .addStmt _ _
  split
  · split
    case h_1 error => exact (hb.expr (hoperand error rfl)).bind fun _ => .addStmt _ _
    case h_2 => exact unknownStmt_forms hb ht
  split
  · exact .addStmt _ _
  split
  · exact .addStmt _ _
  · exact unknownStmt_forms hb ht

private theorem stmtAt_forms (hb : below.Forms root height)
    (ht : (Terms.under root).Admits (height + 1) t) : (stmtAt below t).Forms root := by
  unfold stmtAt
  split
  case h_1 hk => exact ifStmt_forms hb ht (by simp [hk])
  case h_2 hk => exact guardStmt_forms hb ht (by simp [hk])
  case h_3 hk => exact whileStmt_forms hb ht (by simp [hk])
  case h_4 => exact repeatWhileStmt_forms hb ht
  case h_5 hk => exact forStmt_forms hb ht hk
  case h_6 => exact switchStmt_forms hb ht
  case h_7 => exact doStmt_forms hb ht
  case h_8 => exact controlTransfer_forms hb ht
  case h_9 => exact statementsBlock_forms hb ht
  case h_10 => exact unknownStmt_forms hb ht

/-! ### Declarations -/

private theorem unknownDecl_forms (hb : below.Forms root height)
    (ht : (Terms.under root).Admits (height + 1) t) : (unknownDecl below t).Forms root :=
  (items_forms hb ht).bind fun _ => .addDecl rfl

private theorem param_forms (t : Tree) : (param t).Forms root :=
  (Forms.optionMapM fun u _ => .writtenType u).bind fun _ => (Forms.addDecl rfl).bind fun _ =>
    (Forms.declare _ _).bind fun _ => .pure _

/-- The signature of a function is given to it. -/
theorem signature_formsFrom (t : Tree) (name : String) {d : DeclId} (hd : s.ast.HasPlain d) :
    (signature t name d).FormsFrom root s fun _ _ => True := by
  refine FormsFrom.bind (Forms.mapM (fun u _ => param_forms u) s) fun params s₁ hret _ => ?_
  refine FormsFrom.bind (Forms.optionMapM (fun u _ => .writtenType u) s₁)
    fun result s₂ hret' _ => ?_
  exact (FormsFrom.setDeclKind (hret'.plain (hret.plain hd)) rfl).bind fun _ _ _ _ => .pure trivial

private theorem functionBody_forms (hb : below.Forms root height)
    (ht : (Terms.under root).Admits (height + 1) t) : (functionBody below t).Forms root :=
  .optionMapM fun _ hu => block_forms hb
    (ht.below (Tree.mem_descendants_of_orElse hu Tree.mem_descendants_of_part?)).succ

private theorem function_forms (hb : below.Forms root height)
    (ht : (Terms.under root).Admits (height + 1) t) (defaultName : String) :
    (function below t defaultName).Forms root := by
  rw [function_eq]
  extract_lets name
  intro s
  refine (FormsFrom.addDecl rfl).bind fun d s₁ _ hd => ?_
  refine FormsFrom.bind (Forms.declare name d s₁) fun _ s₂ hret _ => ?_
  have hd := hret.plain hd
  have hparts : ∀ s₃ : State, s₃.ast = s₂.ast → (do
      let r ← signature t name d
      return (r.1, r.2, ← functionBody below t) :
        Lower (List DeclId × Option WrittenType × Option StmtId)).FormsFrom root s₃
        fun _ _ => True := by
    intro s₃ hs₃
    refine (signature_formsFrom t name (hs₃ ▸ hd)).bind fun r s₄ _ _ => ?_
    exact FormsFrom.bind (functionBody_forms hb ht s₄) fun _ _ _ _ => .pure trivial
  refine FormsFrom.bind (.inScope hparts) fun r s₄ hret' _ => ?_
  exact (FormsFrom.setDeclKind (hret'.plain hd) rfl).bind fun _ _ _ _ => .pure trivial

private theorem nominal_forms (hb : below.Forms root height)
    (ht : (Terms.under root).Admits (height + 1) t) (defaultKind : NominalKind) :
    (nominal below t defaultKind).Forms root := by
  unfold nominal
  extract_lets kind name
  have hmembers : ((memberTrees t).mapM below.decl).inScope.Forms root :=
    .inScope (.mapM fun u hu => hb.decl (admits_memberTrees ht u hu))
  refine (Forms.mapM fun u _ => .writtenType u).bind fun inherited => ?_
  intro s
  refine (FormsFrom.addDecl rfl).bind fun d s₁ _ hd => ?_
  have hend : ∀ s₂ : State, s₂.ast.HasPlain d → (do
      let members ← Lower.inScope ((memberTrees t).mapM below.decl)
      Lower.setDeclKind d (.nominal kind name inherited members)
      return d : Lower DeclId).FormsFrom root s₂ fun _ _ => True := by
    intro s₂ hd
    refine FormsFrom.bind (hmembers s₂) fun members s₃ hret _ => ?_
    exact (FormsFrom.setDeclKind (hret.plain hd) rfl).bind fun _ _ _ _ => .pure trivial
  split
  · exact FormsFrom.bind (Forms.declare name d s₁) fun _ s₂ hret _ => hend s₂ (hret.plain hd)
  · exact hend s₁ hd

/-! ### Properties -/

/-- The name of an entry of a property comes before its type. -/
theorem sublist_foldl_next (ts : List Tree) : ∀ entry ∈ ts.foldl PropertyEntry.next [],
    (entry.name :: entry.typeTree.toList).Sublist ts := by
  induction ts using List.reverseRecOn with
  | nil => simp
  | append_singleton ts t ih =>
    rw [List.foldl_append]
    intro entry hm
    have hold : ∀ entry ∈ ts.foldl PropertyEntry.next [],
        (entry.name :: entry.typeTree.toList).Sublist (ts ++ [t]) := fun entry h =>
      (ih entry h).trans (List.sublist_append_left ts [t])
    generalize ts.foldl PropertyEntry.next [] = entries at ih hm hold
    simp only [List.foldl_cons, List.foldl_nil, PropertyEntry.next] at hm
    split at hm
    · rcases List.mem_cons.mp hm with rfl | hm
      · exact List.sublist_append_right ts [t]
      · exact hold entry hm
    · split at hm
      case h_1 => cases hm
      case h_2 first entries =>
        split at hm
        · rcases List.mem_cons.mp hm with rfl | hm
          · have hname := (ih first List.mem_cons_self).subset List.mem_cons_self
            exact (List.singleton_sublist.mpr hname).append (List.Sublist.refl [t])
          · exact hold entry (List.mem_cons_of_mem _ hm)
        split at hm
        · rcases List.mem_cons.mp hm with rfl | hm
          · exact hold first List.mem_cons_self
          · exact hold entry (List.mem_cons_of_mem _ hm)
        · exact hold entry hm

private theorem sublist_propertyEntries {entry : PropertyEntry} (h : entry ∈ propertyEntries t) :
    (entry.name :: entry.typeTree.toList).Sublist t.children := by
  unfold propertyEntries at h
  split at h
  · split at h
    case h_1 name hname =>
      rw [List.mem_singleton.mp h]
      have hname := List.mem_of_find?_eq_some hname
      exact List.singleton_sublist.mpr (List.mem_filter.mp (List.mem_filter.mp hname).1).1
    case h_2 => cases h
  · exact sublist_foldl_next t.children entry (List.mem_reverse.mp h)

/-- The pattern of an entry of a property stands around its name and its type. -/
theorem entryPattern_forms (hb : below.Forms root height)
    (ht : (Terms.under root).Admits (height + 1) t) (isLet : Bool) {entry : PropertyEntry}
    (hentry : (entry.name :: entry.typeTree.toList).Sublist t.children) (init : Option ExprId) :
    (entryPattern below isLet entry init).Forms root := by
  have hs := siblings_of_sublist ht hentry
  have hname := hs.admits _ List.mem_cons_self
  intro s
  unfold entryPattern
  refine (ascription_formsFrom fun u hu => hs.admits u (by simp [hu])).bind
    fun written s₁ _ hwritten => ?_
  refine FormsFrom.bind (Forms.ofAst _ s₁) fun initType s₂ hret₂ _ => ?_
  extract_lets type name next
  have hnext : ∀ sub (s' : State), s₁.ast.Retains s'.ast →
      s'.ast.Fits root sub (some isLet) entry.name.span →
      (next sub).FormsFrom root s' fun _ _ => True := by
    intro sub s' hret hsub
    dsimp only [next]
    split
    case h_1 written ascription hascription =>
      obtain ⟨_, he, hin⟩ := hwritten written rfl
      obtain rfl := Option.some.inj (hascription.symm.trans he)
      have hpair : [entry.name, ascription].Sublist t.children := by
        simpa [hascription] using hentry
      have hcover (hp : root.Placed) : entry.name.Precedes ascription :=
        List.rel_of_pairwise_cons ((ht.placed hp).pairwise_precedes hpair) List.mem_cons_self
      refine (addTyped_fits hsub fun hp => ?_).forget
      exact spans_typed_cover (hcover hp) (hsub.inside hp) ((hin hp).writtenType hret)
    case h_2 => exact .pure trivial
  clear_value next
  have hnameTree : name = (if entry.name.kind == "simple_identifier" then some entry.name
      else entry.name.childByField? "bound_identifier") := rfl
  clear_value name
  cases name with
  | some name =>
    exact (nameIn_fits hname hnameTree.symm isLet _).bind fun sub s₃ hret₃ hsub =>
      hnext sub s₃ (hret₂.trans hret₃) hsub
  | none =>
    exact (hb.fits (some isLet) hname).bind fun sub s₃ hret₃ hsub =>
      hnext sub s₃ (hret₂.trans hret₃) hsub

private theorem property_forms (hb : below.Forms root height)
    (ht : (Terms.under root).Admits (height + 1) t) : (property below t).Forms root := by
  refine (Forms.mapM fun entry he => ?_).bind fun _ => .addDecl rfl
  have hvalue := (admitted_propertyEntries ht he).value
  rw [propertyEntry_eq]
  refine (Forms.optionMapM fun u hu => hb.expr (hvalue u hu)).bind fun init => ?_
  exact (entryPattern_forms hb ht _ (sublist_propertyEntries he) init).bind fun _ => .pure _

private theorem declAt_forms (hb : below.Forms root height)
    (ht : (Terms.under root).Admits (height + 1) t) : (declAt below t).Forms root := by
  unfold declAt
  split
  case h_1 | h_11 => exact .addDecl rfl
  case h_2 | h_3 | h_4 | h_5 => exact function_forms hb ht _
  case h_6 | h_7 => exact nominal_forms hb ht _
  case h_8 | h_9 => exact property_forms hb ht
  case h_10 =>
    exact (Forms.optionMapM fun u _ => .writtenType u).bind fun _ => (Forms.addDecl rfl).bind
      fun _ => (Forms.declare _ _).bind fun _ => .pure _
  case h_12 => exact unknownDecl_forms hb ht

/-! ### Files -/

/-- The rules for the trees up to a height form patterns well, by induction on the height. -/
theorem upTo_forms (root : Tree) (height : Nat) : (upTo height).Forms root height := by
  induction height with
  | zero =>
    refine ⟨fun _ => .throw _, fun _ => .throw _, fun _ => .throw _, fun _ _ => ?_⟩
    intro _ a s' hr
    cases hr
  | succ height ih =>
    exact ⟨fun ht => declAt_forms ih ht, fun ht => stmtAt_forms ih ht,
      fun ht => exprAt_forms ih ht, fun binding ht => patternAt_fits ih ht binding⟩

private theorem flush_forms (top : TopLevel) : top.flush.Forms root := by
  unfold TopLevel.flush
  split
  · exact (Forms.addStmt _ _).bind fun _ => (Forms.addDecl rfl).bind fun _ => .pure _
  · exact .pure _

private theorem next_forms (hb : below.Forms root height) (ht : (Terms.under root).Admits height t)
    (top : TopLevel) : (top.next below t).Forms root := by
  refine (item_forms hb ht).bind fun node => ?_
  split
  · exact (flush_forms top).bind fun _ => .pure _
  · exact .pure _

private theorem sourceFile_forms (hb : below.Forms root height)
    (ht : (Terms.under root).Admits (height + 1) t) : (sourceFile below t).Forms root :=
  (Forms.foldlM (fun top u hu => next_forms hb (admits_namedParts ht u hu) top) _).bind
    fun top => (flush_forms top).bind fun _ => .pure _

end SwiftRelations.Lowering

namespace SwiftRelations

open Lowering

private theorem Ast.formed_empty (root : Tree) : ({} : Ast).Formed root := by
  refine ⟨⟨?_, ?_, ?_, ?_⟩, ?_⟩ <;> simp [Ast.pattern?, Ast.decl?]

/-- The patterns of a lowered file are well formed. -/
theorem Tree.formed_of_lower {root : Tree} {hasParseErrors : Bool} {file : LoweredFile}
    (h : root.lower hasParseErrors = .ok file) : file.ast.Formed root := by
  obtain ⟨topLevel, s, hrun, rfl⟩ := exists_run h
  have hadmits : (Terms.under root).Admits (root.height + 1) root :=
    ⟨mem_subtrees_self root, .inr (Nat.le_succ _)⟩
  obtain ⟨-, hs, -⟩ := sourceFile_forms (upTo_forms root root.height) hadmits {}
    (Ast.formed_empty root) topLevel s hrun
  -- The final pass changes expressions only.
  obtain ⟨exprs, -, he⟩ := s.finish_eq
  rw [he]
  exact hs.retain (.of_eq rfl rfl rfl) (fun _ => rfl) fun h _ => h

end SwiftRelations
