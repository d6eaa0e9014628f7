import SwiftRelations.Proofs.Lowering.Rules

/-!
# What the rules for expressions build

Every rule makes one expression of the trees it lowers, and leaves nothing else in hand.
-/

namespace SwiftRelations.Lowering

open SwiftRelations.Text SwiftRelations.Lower

variable {terms : Terms} {opened : List (DeclId × String)} {height : Nat} {below : Below}
  {t : Tree}

/-! ### Elements -/

/-- An element of a block is one node. -/
theorem item_builds (hb : below.Sound terms height) (ht : terms.Admits height t) :
    (below.item t).Builds terms opened [] fun node => [node] := by
  unfold Below.item
  split
  · exact (hb.decl ht).bind fun id => .pure (.refl _)
  split
  · exact (hb.stmt ht).bind fun id => .pure (.refl _)
  · exact (hb.expr ht).bind fun id => .pure (.refl _)

/-- The elements of a block are as many nodes. -/
theorem elements_builds (hb : below.Sound terms height) {ts : List Tree}
    (hts : ∀ u ∈ ts, terms.Admits height u) :
    (ts.mapM below.item).Builds terms opened [] fun nodes => nodes := by
  have h : (ts.mapM below.item).Builds terms opened [] (·.map id) :=
    .mapM_map fun u hu => item_builds hb (hts u hu)
  simpa only [List.map_id] using h

/-- The children of a tree without a model of its own are as many nodes. -/
theorem items_builds (hb : below.Sound terms height) (ht : terms.Admits (height + 1) t) :
    (below.items t).Builds terms opened [] fun nodes => nodes := by
  have h : (below.items t).Builds terms opened [] (·.map id) := by
    refine .mapM_map fun child hc => ?_
    have hd := Tree.mem_descendants_of_mem_namedParts (List.mem_filter.mp hc).1
    split
    · exact (Builds.writtenType child).bind fun written => .pure (.refl _)
    · exact item_builds hb (ht.below hd)
  simpa only [List.map_id] using h

private theorem unknownExpr_builds (hb : below.Sound terms height)
    (ht : terms.Admits (height + 1) t) :
    (unknownExpr below t).Builds terms opened [] fun id => [.expr id] :=
  (items_builds hb ht).bind fun _ => .addUntyped (by simp)

/-! ### Literals and operators -/

/-- A literal has no parts. -/
theorem literal_builds {kind : ExprKind} (typeName : String) (hk : kind.nodes = [])
    (plain : (∀ name decl, kind ≠ .declRef name decl) ∧
      ∀ callee arguments, kind ≠ .call callee arguments) :
    (literal t typeName kind).Builds terms opened [] fun id => [.expr id] := by
  refine (Builds.namedType typeName).bind fun type => ?_
  have h : (Lower.addExpr kind (some type) t.span).Builds terms opened
      (kind.nodes ++ typeNodes (some type)) fun id => [.expr id] := .addExpr plain
  rwa [hk] at h

private theorem binaryType_builds (kind : String) (lhs rhs : ExprId) :
    (binaryType kind lhs rhs).Builds terms opened [] typeNodes := by
  unfold binaryType
  split
  · exact (Builds.namedType "Bool").bind fun type => .pure (.refl _)
  split
  · refine (Builds.exprType? lhs).bind fun left => (Builds.exprType? rhs).seq fun right => ?_
    exact .pure (.common [] left right)
  split
  · exact Builds.exprType? rhs
  · exact .pure (.refl _)

private theorem binary_builds (hb : below.Sound terms height) (ht : terms.Admits (height + 1) t) :
    (binary below t).Builds terms opened [] fun id => [.expr id] := by
  simp only [binary]
  split
  case h_1 l r hl hr =>
    split
    · exact unknownExpr_builds hb ht
    have hl := ht.below (Tree.mem_descendants_of_field_or_first hl)
    have hr := ht.below (Tree.mem_descendants_of_field_or_last hr)
    refine (hb.expr hl).bind fun left => (hb.expr hr).seq fun right => ?_
    exact (binaryType_builds t.kind left right).seq fun type => .addExpr (by simp)
  case h_2 => exact unknownExpr_builds hb ht

private theorem unaryType_builds (op : String) (operand : ExprId) :
    (unaryType op operand).Builds terms opened [] typeNodes := by
  unfold unaryType
  split
  · exact (Builds.namedType "Bool").bind fun type => .pure (.refl _)
  split
  · exact Builds.exprType? operand
  · exact .pure (.refl _)

private theorem unary_builds (hb : below.Sound terms height) (ht : terms.Admits (height + 1) t) :
    (unary below t).Builds terms opened [] fun id => [.expr id] := by
  simp only [unary]
  split
  case h_1 => exact unknownExpr_builds hb ht
  case h_2 operand h =>
    have hd := ht.below (Tree.mem_descendants_of_field_or_last h)
    refine (hb.expr hd).bind fun id => ?_
    exact (unaryType_builds _ id).seq fun type => .addExpr (by simp)

/-! ### Calls and members -/

/-- The value of an argument is below it. -/
theorem mem_descendants_of_argument {label : Option String} {u : Tree}
    (h : (match t.operands with
      | label :: value :: _ =>
        if label.kind == "value_argument_label" then (some (trim label.text), some value)
        else (none, (t.childByField? "value").orElse fun _ => t.operands.getLast?)
      | _ => (none, (t.childByField? "value").orElse fun _ => t.operands.getLast?)) =
      (label, some u)) : u ∈ t.descendants := by
  split at h
  case h_1 first second rest hs =>
    split at h
    · cases h
      exact Tree.mem_descendants_of_mem_operands (by simp [hs])
    · exact Tree.mem_descendants_of_field_or_last (congrArg Prod.snd h)
  case h_2 => exact Tree.mem_descendants_of_field_or_last (congrArg Prod.snd h)

/-- What is left of an argument is its value. -/
theorem argument_builds (hb : below.Sound terms height) (ht : terms.Admits (height + 1) t) :
    (argument below t).Builds terms opened [] fun a => [.expr a.expr] := by
  unfold argument
  extract_lets parts
  split
  case h_1 label value h =>
    dsimp only
    split
    · exact (hb.expr (ht.below (mem_descendants_of_argument h))).bind fun _ => .pure (.refl _)
    · exact (unknownExpr_builds hb ht).bind fun _ => .pure (.refl _)

/-- The type of the call of a declaration is one that the declaration names. -/
theorem callTypeOf_builds {s : State} (hu : s.ast.Unfinished opened) {d : DeclId} {decl : Decl}
    (name : String) (hd : s.ast.decl? d = some decl) :
    (callTypeOf name decl.kind).BuildsFrom terms opened (s.Ready opened []) s [] typeNodes := by
  unfold callTypeOf
  split
  case h_1 params result body hk =>
    refine .read (loose_typeNodes _) fun ht => covers_typeNodes fun type h => ?_
    have hc := ht.covers_decl hd
    obtain ⟨written, hr, hw⟩ := Option.bind_eq_some_iff.mp h
    have hm : Node.writtenType written ∈ decl.kind.nodes := by simp [hk, DeclKind.nodes, hr]
    exact hc _ hm type (by simp [Node.types, hw])
  case h_2 =>
    split
    · exact Builds.pure (.refl []) s hu
    · exact (Builds.namedType name).bind (fun type => .pure (.refl _)) s hu
  case h_3 => exact Builds.pure (.refl []) s hu

private theorem callType_builds (callee : ExprId) :
    (callType callee).Builds terms opened [] typeNodes := by
  refine .get fun s hu => ?_
  dsimp only
  split
  · split
    case h_1 hd => exact callTypeOf_builds hu _ hd
    case h_2 => exact Builds.pure (.refl []) s hu
  · exact Builds.pure (.refl []) s hu

/-- The type of the call of a declaration is the one that the declaration states. -/
theorem callTypeOf_leaves (s : State) (name : String) (kind : DeclKind) :
    (callTypeOf name kind).Leaves s fun type ast =>
      kind.CallType ast.types name type ∧ ∃ types, ast = { s.ast with types } := by
  cases kind with
  | func => exact .pure ⟨rfl, _, rfl⟩
  | nominal sort =>
    rw [callTypeOf]
    split
    case isTrue hp => exact .pure ⟨by simp [DeclKind.CallType, hp], _, rfl⟩
    case isFalse hp =>
      refine .bind fun type s₁ h => ?_
      cases h
      refine .pure ⟨?_, _, rfl⟩
      rw [DeclKind.CallType, if_neg hp]
      exact ⟨rfl, s.ast.types.find?_named name⟩
  | _ => exact .pure ⟨rfl, _, rfl⟩

/-- The type of a call is the one that the declaration called states. -/
theorem callType_ensures (pre : List Node) (callee : ExprId) :
    (callType callee).Ensures opened pre fun type ast =>
      ast.Calls (hidden opened) callee type := by
  refine fun s _ _ => .get ?_
  dsimp only
  split
  case h_1 name d hcallee =>
    obtain ⟨expr, he, hk⟩ := Option.map_eq_some_iff.mp hcallee
    split
    case h_1 kind _ hd =>
      rintro type s' h
      obtain ⟨hfits, types, hast⟩ := callTypeOf_leaves s name kind type s' h
      rw [hast] at hfits ⊢
      refine ⟨fun other name' d' decl ho hk' _ hd' => ?_, fun other ho hn => ?_⟩
      · cases he.symm.trans ho
        cases hk.symm.trans hk'
        cases hd.symm.trans hd'
        exact hfits
      · cases he.symm.trans ho
        exact absurd hk (hn name d)
    case h_2 hnone =>
      refine .pure ⟨fun other name' d' decl ho hk' _ hd' => ?_, fun _ _ _ => rfl⟩
      cases he.symm.trans ho
      cases hk.symm.trans hk'
      exact absurd (hnone.symm.trans hd') (by simp)
  case h_2 hother =>
    refine .pure ⟨fun other name d decl ho hk _ _ => ?_, fun _ _ _ => rfl⟩
    exact absurd (by rw [ho, Option.map_some, hk]) (hother name d)

private theorem suffixArguments_builds (hb : below.Sound terms height)
    (ht : terms.Admits height t) :
    (suffixArguments below t).Builds terms opened [] (·.map (.expr ·.expr)) := by
  unfold suffixArguments
  split
  · refine .mapM_map fun u hu => ?_
    have hd := Tree.mem_descendants_of_mem_namedParts (List.mem_filter.mp hu).1
    exact argument_builds hb (ht.succ.below hd).succ
  · exact (hb.expr ht).bind fun _ => .pure (.refl _)

/-- What is called and the parts of the suffixes after it are below the call. -/
theorem admits_callParts (ht : terms.Admits (height + 1) t) {callee : Tree} {others : List Tree}
    (h : t.operands = callee :: others) : terms.Admits height callee ∧
      ∀ u ∈ (others.filter (·.kind == "call_suffix")).flatMap (·.namedParts),
        terms.Admits height u := by
  have hd : ∀ u ∈ callee :: others, u ∈ t.descendants := fun u hu =>
    Tree.mem_descendants_of_mem_operands (h ▸ hu)
  refine ⟨ht.below (hd callee List.mem_cons_self), fun u hu => ?_⟩
  obtain ⟨suffix, hs, hu⟩ := List.mem_flatMap.mp hu
  have hs := hd suffix (List.mem_cons_of_mem _ (List.mem_filter.mp hs).1)
  exact ht.below (Tree.descendants_trans hs (Tree.mem_descendants_of_mem_namedParts hu))

private theorem call_builds (hb : below.Sound terms height) (ht : terms.Admits (height + 1) t) :
    (call below t).Builds terms opened [] fun id => [.expr id] := by
  unfold call
  split
  case h_1 => exact unknownExpr_builds hb ht
  case h_2 callee others h =>
    obtain ⟨hcallee, hsuffix⟩ := admits_callParts ht h
    refine (hb.expr hcallee).bind fun callee => ?_
    refine (Builds.mapM_new fun u hu => suffixArguments_builds hb (hsuffix u hu)).seq
      fun arguments => ?_
    have hparts : ([.expr callee] ++ arguments.flatMap (·.map (.expr ·.expr)) : List Node) =
        ExprKind.nodes (.call callee arguments.flatten) := by
      simp [ExprKind.nodes, List.map_flatten, List.flatMap]
    rw [hparts]
    refine .bind_of_ensures (callType_ensures _ callee) ((callType_builds callee).after _)
      fun type s hu => .addExpr hu (by simp) And.left fun h _ _ hk => ?_
    cases hk
    exact h.2

private theorem memberRef_builds (hb : below.Sound terms height)
    (ht : terms.Admits (height + 1) t) :
    (memberRef below t).Builds terms opened [] fun id => [.expr id] := by
  simp only [memberRef]
  split
  case h_1 base member hbase hmember =>
    have hd := ht.below (Tree.mem_descendants_of_field_or_first hbase)
    exact (hb.expr hd).bind fun id => .addUntyped (by simp)
  case h_2 => exact unknownExpr_builds hb ht

/-! ### Lists of expressions -/

/-- Expressions are as many nodes. -/
theorem exprs_builds (hb : below.Sound terms height) {ts : List Tree}
    (hts : ∀ u ∈ ts, terms.Admits height u) :
    (ts.mapM below.expr).Builds terms opened [] (·.map .expr) :=
  .mapM_map fun u hu => hb.expr (hts u hu)

private theorem tuple_builds (hb : below.Sound terms height) (ht : terms.Admits (height + 1) t) :
    (tuple below t).Builds terms opened [] fun id => [.expr id] := by
  unfold tuple
  extract_lets values
  have hv : ∀ u ∈ values, terms.Admits height u := fun u hu =>
    ht.below (Tree.mem_descendants_of_fields_or_operands hu)
  clear_value values
  split
  · exact hb.expr (hv _ List.mem_cons_self)
  · exact (exprs_builds hb hv).bind fun _ => .addUntyped (by simp)

private theorem arrayLiteral_builds (hb : below.Sound terms height)
    (ht : terms.Admits (height + 1) t) :
    (arrayLiteral below t).Builds terms opened [] fun id => [.expr id] := by
  unfold arrayLiteral
  extract_lets elements
  have he : ∀ u ∈ elements, terms.Admits height u := fun u hu =>
    ht.below (Tree.mem_descendants_of_fields_or_operands hu)
  exact (exprs_builds hb he).bind fun _ => .addUntyped (by simp)

/-! ### Closures -/

/-- A parameter of a closure becomes a declaration. -/
theorem closureParam_builds (t : Tree) :
    (closureParam t).Builds terms opened [] fun id => [.decl id] := by
  unfold closureParam
  refine (Builds.optionMapM fun u _ => .writtenType u).bind fun written => ?_
  exact .introduce rfl fun d => .pure (.refl _)

/-- The elements of a closure's body are below the closure. -/
theorem mem_descendants_of_mem_closureElements {u : Tree} (hu : u ∈ closureElements t) :
    u ∈ t.descendants := by
  unfold closureElements at hu
  split at hu
  case h_1 statements h =>
    exact Tree.descendants_trans (Tree.mem_descendants_of_part? h)
      (Tree.mem_descendants_of_mem_namedParts hu)
  case h_2 => cases hu

private theorem closure_builds (hb : below.Sound terms height) (ht : terms.Admits (height + 1) t) :
    (closure below t).Builds terms opened [] fun id => [.expr id] := by
  have he : ∀ u ∈ closureElements t, terms.Admits height u := fun u hu =>
    ht.below (mem_descendants_of_mem_closureElements hu)
  have inside : (do
      let params ← (closureParams t).mapM closureParam
      let elements ← (closureElements t).mapM below.item
      return (params, elements) : Lower (List DeclId × List Node)).Builds terms opened []
        fun r => r.1.map .decl ++ r.2 := by
    refine (Builds.mapM_map fun u _ => closureParam_builds u).bind fun params => ?_
    exact (elements_builds hb he).seq fun elements => .pure (.refl _)
  refine inside.inScope.bind fun ⟨params, elements⟩ => ?_
  exact (Builds.addStmt.frame (params.map .decl)).bind fun body => .addUntyped (by simp)

/-! ### Assignments and choices -/

/-- The source of an assignment is lowered before its destination. -/
theorem assignment_builds (hb : below.Sound terms height) (ht : terms.Admits (height + 1) t) :
    (assignment below t).Builds terms opened [] fun id => [.expr id] := by
  simp only [assignment]
  split
  case h_1 dest source hdest hsource =>
    have hdest := ht.below (Tree.mem_descendants_of_field_or_first hdest)
    have hsource := ht.below (Tree.mem_descendants_of_field_or_last hsource)
    refine (hb.expr hsource).bind fun source => (hb.expr hdest).seq fun dest => ?_
    refine .weaken_pre (.perm (.swap _ _ [])) ?_
    split_ifs
    · exact .addUntyped (by simp)
    · exact .addUntyped (by simp)
  case h_2 => exact unknownExpr_builds hb ht

private theorem ternary_builds (hb : below.Sound terms height) (ht : terms.Admits (height + 1) t) :
    (ternary below t).Builds terms opened [] fun id => [.expr id] := by
  simp only [ternary]
  split
  case h_1 condition thenExpr elseExpr hcondition hthen helse =>
    have hcondition := ht.below (Tree.mem_descendants_of_field_or_nth hcondition)
    have hthen := ht.below (Tree.mem_descendants_of_field_or_nth hthen)
    have helse := ht.below (Tree.mem_descendants_of_field_or_nth helse)
    refine (hb.expr hcondition).bind fun condition => ?_
    refine (hb.expr hthen).seq fun thenExpr => (hb.expr helse).seq fun elseExpr => ?_
    refine (Builds.exprType? thenExpr).seq fun thenType => ?_
    refine (Builds.exprType? elseExpr).seq fun elseType => ?_
    exact .weaken_pre (.common _ thenType elseType) (.addExpr (by simp))
  case h_2 => exact unknownExpr_builds hb ht

private theorem lastOperand_builds (hb : below.Sound terms height)
    (ht : terms.Admits (height + 1) t) :
    (lastOperand below t).Builds terms opened [] fun id => [.expr id] := by
  unfold lastOperand
  split
  case h_1 operand h =>
    exact hb.expr (ht.below (Tree.mem_descendants_of_mem_operands (List.mem_of_getLast? h)))
  case h_2 => exact unknownExpr_builds hb ht

/-- Each kind of expression makes one expression. -/
theorem exprAt_builds (hb : below.Sound terms height) (ht : terms.Admits (height + 1) t) :
    (exprAt below t).Builds terms opened [] fun id => [.expr id] := by
  unfold exprAt
  extract_lets text
  split
  case h_1 | h_2 | h_3 | h_4 => exact literal_builds "Int" rfl (by simp)
  case h_5 => exact literal_builds "Double" rfl (by simp)
  case h_6 | h_7 | h_8 => exact literal_builds "String" rfl (by simp)
  case h_9 => exact literal_builds "Bool" rfl (by simp)
  case h_10 => exact .addUntyped (by simp)
  case h_11 => exact .declRef t text
  case h_12 hk | h_13 hk => exact .selfRef ht.tree (by simp [isSelf, hk])
  case h_14 => exact call_builds hb ht
  case h_15 | h_16 | h_17 | h_18 | h_19 | h_20 | h_21 | h_22 | h_23 | h_24 =>
    exact binary_builds hb ht
  case h_25 => exact unary_builds hb ht
  case h_26 => exact memberRef_builds hb ht
  case h_27 => exact tuple_builds hb ht
  case h_28 => exact arrayLiteral_builds hb ht
  case h_29 => exact closure_builds hb ht
  case h_30 => exact assignment_builds hb ht
  case h_31 => exact ternary_builds hb ht
  case h_32 | h_33 | h_34 => exact lastOperand_builds hb ht
  case h_35 => exact unknownExpr_builds hb ht

end SwiftRelations.Lowering
