import SwiftRelations.Proofs.Lowering.Alike

/-!
# Like items are lowered alike

The rules for statements, declarations and files do the same with like trees. A rule that reads on
after a block finds like trees there.
-/

namespace SwiftRelations.Lowering

open SwiftRelations.Text SwiftRelations.Lower List

variable {like : Tree → Tree → Prop} {below below' : Below} {t u : Tree} {ts us : List Tree}

/-! ### Statements -/

private theorem unknownStmt_alike (L : Tree.Likeness like) (hb : below.Agree like below')
    (h : t.Alike like u) : unknownStmt below t = unknownStmt below' u := by
  simp only [unknownStmt, items_alike L hb h, h.kind, h.span]

private theorem opensBlock_alike (L : Tree.Likeness like) (h : like t u) :
    opensBlock t = opensBlock u := by
  rw [opensBlock, opensBlock, L.kind h]

private theorem beforeBlock_alike (L : Tree.Likeness like) (h : Forall₂ like ts us) :
    Forall₂ like (ts.takeWhile (!opensBlock ·)) (us.takeWhile (!opensBlock ·)) :=
  h.takeWhile fun _ _ hab => by rw [opensBlock_alike L hab]

private theorem fromBlock_alike (L : Tree.Likeness like) (h : Forall₂ like ts us) :
    Forall₂ like (ts.dropWhile (!opensBlock ·)) (us.dropWhile (!opensBlock ·)) :=
  h.dropWhile fun _ _ hab => by rw [opensBlock_alike L hab]

private theorem blockElements_alike (L : Tree.Likeness like) (h : like t u) :
    Forall₂ like (blockElements t) (blockElements u) := by
  simp only [blockElements, L.kind h, L.isOperand h]
  split
  · exact (L.alike h).namedParts L
  split
  · exact .cons h .nil
  · exact .nil

private theorem blockItems_alike (L : Tree.Likeness like) (hb : below.Agree like below')
    (h : Forall₂ like ts us) :
    (ts.flatMap blockElements).mapM below.item = (us.flatMap blockElements).mapM below'.item :=
  elements_alike L hb (rel_flatMap h fun _ _ => blockElements_alike L)

/-- Like blocks are the same, and the trees after them are like. -/
theorem braced_alike {α : Type} (L : Tree.Likeness like) (hb : below.Agree like below')
    {brace brace' : Tree} (hbrace : like brace brace') (h : Forall₂ like ts us)
    {f g : StmtId × List Tree → Lower α}
    (hrest : ∀ body vs ws, Forall₂ like vs ws → f (body, vs) = g (body, ws)) :
    braced below brace ts >>= f = braced below' brace' us >>= g := by
  have hinside : Forall₂ like (ts.takeWhile (!closesBlock ·)) (us.takeWhile (!closesBlock ·)) :=
    h.takeWhile fun _ _ hab => by rw [closesBlock, closesBlock, L.kind hab]
  have hafter : Forall₂ like (ts.dropWhile (!closesBlock ·)) (us.dropWhile (!closesBlock ·)) :=
    h.dropWhile fun _ _ hab => by rw [closesBlock, closesBlock, L.kind hab]
  have hlast := L.span ((hafter.head?.orElse h.getLast?).getD hbrace)
  have hdrop := fun body => hrest body _ _ (forall₂_drop 1 hafter)
  simp only [braced, blockItems_alike L hb hinside, hlast, L.span hbrace, bind_assoc, pure_bind,
    hdrop]

private theorem statementsBlock_alike (L : Tree.Likeness like) (hb : below.Agree like below')
    (h : t.Alike like u) : statementsBlock below t = statementsBlock below' u := by
  simp only [statementsBlock, blockItems_alike L hb (h.namedParts L), h.span]

private theorem block_alike (L : Tree.Likeness like) (hb : below.Agree like below')
    (h : t.Alike like u) : block below t = block below' u := by
  have hblock := fromBlock_alike L (h.parts L)
  unfold block
  generalize t.parts.dropWhile _ = ts, u.parts.dropWhile _ = us at hblock
  cases hblock with
  | nil => exact statementsBlock_alike L hb h
  | cons hbrace hafter => exact braced_alike L hb hbrace hafter fun _ _ _ _ => rfl

private theorem splitAtKind_alike (L : Tree.Likeness like) (kind : String)
    (h : Forall₂ like ts us) :
    Forall₂ (Forall₂ like) (splitAtKind kind ts) (splitAtKind kind us) := by
  induction h with
  | nil => exact .cons .nil .nil
  | @cons t u ts us hab _ ih =>
    simp only [splitAtKind, L.kind hab]
    split
    · exact .cons .nil ih
    · generalize splitAtKind kind ts = groups, splitAtKind kind us = groups' at ih
      cases ih with
      | nil => exact .cons (.cons hab .nil) .nil
      | cons hgroup hgroups => exact .cons (.cons hab hgroup) hgroups

private theorem optionalBinding_alike (L : Tree.Likeness like) (hb : below.Agree like below')
    {keyword keyword' : Tree} (hkeyword : like keyword keyword') (isLet : Bool)
    {typeTree typeTree' : Option Tree} (htype : Option.Rel like typeTree typeTree')
    (h : like t u) :
    optionalBinding below keyword isLet typeTree t =
      optionalBinding below' keyword' isLet typeTree' u := by
  funext initializer
  have hwritten : typeTree.mapM Lower.writtenType = typeTree'.mapM Lower.writtenType :=
    htype.mapM_eq fun _ _ => writtenType_alike L
  have hname : Option.Rel like
      (if u.kind == "simple_identifier" then some t else t.childByField? "bound_identifier")
      (if u.kind == "simple_identifier" then some u else u.childByField? "bound_identifier") := by
    split
    · exact .some h
    · exact (L.alike h).childByField? _
  simp only [optionalBinding, L.kind h, hwritten, hb.pattern h, L.span h, L.span hkeyword]
  generalize (if u.kind == "simple_identifier" then some t else _) = a,
    (if u.kind == "simple_identifier" then some u else _) = b at hname
  cases hname with
  | none => rfl
  | some hab => simp only [newVariable_alike (L.alike hab)]

private theorem bindingElement_alike (L : Tree.Likeness like) (hb : below.Agree like below')
    (h : like t u) (hpieces : Forall₂ like ts us) {vs ws : List Tree}
    (hvalue : Forall₂ like vs ws) :
    bindingElement below t ts vs = bindingElement below' u us ws := by
  have hpattern : Option.Rel like (ts.find? fun t => t.isOperand && t.kind != "type_annotation")
      (us.find? fun t => t.isOperand && t.kind != "type_annotation") :=
    hpieces.find? fun _ _ hab => by rw [L.isOperand hab, L.kind hab]
  have htype : Option.Rel like (ts.find? (·.kind == "type_annotation"))
      (us.find? (·.kind == "type_annotation")) :=
    hpieces.find? fun _ _ hab => by rw [L.kind hab]
  have hinit := hvalue.find? fun _ _ => L.isOperand
  unfold bindingElement
  generalize ts.find? (fun t => t.isOperand && _) = a, us.find? (fun t => t.isOperand && _) = b
    at hpattern
  cases hpattern with
  | none => rfl
  | some hab =>
    simp only [L.text h, declRef_alike (L.span hab), L.text hab, patternRun_alike L hb hpieces,
      hb.pattern hab, optionalBinding_alike L hb h _ htype hab]
    generalize vs.find? _ = a, ws.find? _ = b at hinit
    cases hinit with
    | none => rfl
    | some hab => simp only [hb.expr hab]

private theorem conditionElement_alike (L : Tree.Likeness like) (hb : below.Agree like below')
    (h : Forall₂ like ts us) : conditionElement below ts = conditionElement below' us := by
  have hkeyword : ∀ a b, like a b → isBindingKeyword a = isBindingKeyword b := fun _ _ hab => by
    rw [isBindingKeyword, isBindingKeyword, L.kind hab]
  have hequals : ∀ a b, like a b → (a.kind == "=") = (b.kind == "=") := fun _ _ hab => by
    rw [L.kind hab]
  have hnotEquals : ∀ a b, like a b → (a.kind != "=") = (b.kind != "=") := fun _ _ hab => by
    rw [L.kind hab]
  have hbefore := (h.takeWhile (p := (!isBindingKeyword ·))
    fun _ _ hab => by rw [hkeyword _ _ hab]).any hequals
  have hafter := h.dropWhile (p := (!isBindingKeyword ·))
    fun _ _ hab => by rw [hkeyword _ _ hab]
  have hoperand := h.find? fun _ _ => L.isOperand
  simp only [conditionElement, hbefore]
  generalize ts.dropWhile _ = vs, us.dropWhile _ = ws at hafter
  cases hafter with
  | nil =>
    generalize ts.find? _ = a, us.find? _ = b at hoperand
    cases hoperand with
    | none => rfl
    | some hab => simp only [hb.expr hab]
  | cons hab hrest =>
    simp only [bindingElement_alike L hb hab (hrest.takeWhile hnotEquals)
      (forall₂_drop 1 (hrest.dropWhile hnotEquals))]

/-- Like lists of trees are the same conditions. -/
theorem condition_alike (L : Tree.Likeness like) (hb : below.Agree like below')
    (h : Forall₂ like ts us) : condition below ts = condition below' us := by
  have helements := (splitAtKind_alike L "," h).mapM_eq fun _ _ => conditionElement_alike L hb
  simp only [condition, helements, spanOfAll?_alike L h]

private theorem elseBranch_alike (L : Tree.Likeness like) (hb : below.Agree like below')
    (h : Forall₂ like ts us) : elseBranch below ts = elseBranch below' us := by
  cases h with
  | nil => rfl
  | cons hkeyword hrest =>
    cases hrest with
    | nil => rfl
    | @cons t u after after' hab hafter =>
      have hbraced : (do return some (← braced below t after).1) =
          (do return some (← braced below' u after').1) :=
        braced_alike L hb hab hafter fun _ _ _ _ => rfl
      simp only [elseBranch, L.kind hkeyword, L.kind hab, hb.stmt hab, opensBlock_alike L hab,
        hbraced]

/-- Like conditions and the blocks under them are the same, and the trees after them are like. -/
theorem guarded_alike {α : Type} (L : Tree.Likeness like) (hb : below.Agree like below')
    (h : Forall₂ like ts us) {f g : Option (StmtConditionId × StmtId × List Tree) → Lower α}
    (hnone : f none = g none)
    (hrest : ∀ condition body vs ws, Forall₂ like vs ws →
      f (some (condition, body, vs)) = g (some (condition, body, ws))) :
    guarded below ts >>= f = guarded below' us >>= g := by
  have hcondition := condition_alike L hb (forall₂_drop 1 (beforeBlock_alike L h))
  have hblock := fromBlock_alike L h
  simp only [guarded, hcondition]
  generalize ts.dropWhile _ = vs, us.dropWhile _ = ws at hblock
  cases hblock with
  | nil => simpa only [pure_bind] using hnone
  | cons hbrace hafter =>
    simp only [Lower.inScope, bind_assoc, pure_bind]
    refine bind_congr fun _ => bind_congr fun condition => ?_
    refine braced_alike L hb hbrace hafter fun body _ _ hvs => ?_
    simp only [hrest condition body _ _ hvs]

private theorem ifStmt_alike (L : Tree.Likeness like) (hb : below.Agree like below')
    (h : t.Alike like u) : ifStmt below t = ifStmt below' u := by
  refine guarded_alike L hb (h.parts L) (unknownStmt_alike L hb h) fun _ _ _ _ hrest => ?_
  simp only [elseBranch_alike L hb hrest, h.span]

private theorem whileStmt_alike (L : Tree.Likeness like) (hb : below.Agree like below')
    (h : t.Alike like u) : whileStmt below t = whileStmt below' u := by
  refine guarded_alike L hb (h.parts L) (unknownStmt_alike L hb h) fun _ _ _ _ _ => ?_
  simp only [h.span]

private theorem guardStmt_alike (L : Tree.Likeness like) (hb : below.Agree like below')
    (h : t.Alike like u) : guardStmt below t = guardStmt below' u := by
  have hbefore := beforeBlock_alike L (h.parts L)
  have helse := hbefore.any (p := (·.kind == "else"))
    fun _ _ hab => by rw [L.kind hab]
  have hcondition := condition_alike L hb (forall₂_drop 1 (hbefore.takeWhile
    (p := (·.kind != "else")) fun _ _ hab => by rw [L.kind hab]))
  have hblock := fromBlock_alike L (h.parts L)
  simp only [guardStmt, helse, hcondition, unknownStmt_alike L hb h, h.span]
  generalize t.parts.dropWhile _ = vs, u.parts.dropWhile _ = ws at hblock
  cases hblock with
  | nil => rfl
  | cons hbrace hafter =>
    dsimp only
    split
    · exact bind_congr fun condition => braced_alike L hb hbrace hafter fun _ _ _ _ => rfl
    · rfl

private theorem trailingCondition?_alike (L : Tree.Likeness like) (h : Forall₂ like ts us) :
    Option.Rel like (trailingCondition? ts) (trailingCondition? us) := by
  have hwhile := h.any (p := (·.kind == "while"))
    fun _ _ hab => by rw [L.kind hab]
  simp only [trailingCondition?, hwhile]
  split
  · exact (rel_reverse ((rel_reverse h).takeWhile fun _ _ hab => by rw [L.kind hab])).find?
      fun _ _ => L.isOperand
  · exact .none

private theorem repeatWhileStmt_alike (L : Tree.Likeness like) (hb : below.Agree like below')
    (h : t.Alike like u) : repeatWhileStmt below t = repeatWhileStmt below' u := by
  have hblock := fromBlock_alike L (h.parts L)
  have hcondition := trailingCondition?_alike L (h.parts L)
  unfold repeatWhileStmt
  generalize trailingCondition? t.parts = a, trailingCondition? u.parts = b at hcondition
  generalize t.parts.dropWhile _ = vs, u.parts.dropWhile _ = ws at hblock
  cases hblock with
  | nil => exact unknownStmt_alike L hb h
  | cons hbrace hafter =>
    cases hcondition with
    | none => exact unknownStmt_alike L hb h
    | some hab =>
      refine braced_alike L hb hbrace hafter fun _ _ _ _ => ?_
      simp only [hb.expr hab, h.span]

/-- Whether the pieces of two loops are like trees. -/
structure ForPieces.Alike (like : Tree → Tree → Prop) (p q : ForPieces) : Prop where
  item : like p.item q.item
  typeTree : Option.Rel like p.typeTree q.typeTree
  sequence : like p.sequence q.sequence
  brace : like p.brace q.brace
  body : Forall₂ like p.body q.body

private theorem forPieces?_alike (L : Tree.Likeness like) (h : t.Alike like u) :
    Option.Rel (ForPieces.Alike like) (forPieces? t) (forPieces? u) := by
  have hbefore := beforeBlock_alike L (h.parts L)
  have hblock := fromBlock_alike L (h.parts L)
  have hheader : Forall₂ like ((t.parts.takeWhile (!opensBlock ·)).takeWhile (·.kind != "in"))
      ((u.parts.takeWhile (!opensBlock ·)).takeWhile (·.kind != "in")) :=
    hbefore.takeWhile fun _ _ hab => by rw [L.kind hab]
  have hafterIn : Forall₂ like ((t.parts.takeWhile (!opensBlock ·)).dropWhile (·.kind != "in"))
      ((u.parts.takeWhile (!opensBlock ·)).dropWhile (·.kind != "in")) :=
    hbefore.dropWhile fun _ _ hab => by rw [L.kind hab]
  simp only [forPieces?, Option.bind_eq_bind]
  generalize (t.parts.takeWhile _).takeWhile _ = header,
    (u.parts.takeWhile _).takeWhile _ = header' at hheader
  generalize (t.parts.takeWhile _).dropWhile _ = vs, (u.parts.takeWhile _).dropWhile _ = ws
    at hafterIn
  generalize t.parts.dropWhile _ = block, u.parts.dropWhile _ = block' at hblock
  cases hblock with
  | nil => exact .none
  | cons hbrace hbody =>
    cases hafterIn with
    | nil => exact .none
    | cons _ hafterIn =>
      simp only [hheader.isEmpty, Option.bind_some]
      split
      · exact .none
      have hnames := forall₂_drop 1 hheader
      refine (h.field_or "item" (hnames.find? fun _ _ hab => by
        rw [L.named hab, L.kind hab])).bind fun _ _ hitem => ?_
      refine (h.field_or "collection" (hafterIn.find? fun _ _ => L.isOperand)).bind
        fun _ _ hsequence => ?_
      exact .some ⟨hitem, hnames.find? fun _ _ hab => by rw [L.kind hab], hsequence, hbrace, hbody⟩

private theorem forStmt_alike (L : Tree.Likeness like) (hb : below.Agree like below')
    (h : t.Alike like u) : forStmt below t = forStmt below' u := by
  have hpieces := forPieces?_alike L h
  unfold forStmt
  generalize forPieces? t = a, forPieces? u = b at hpieces
  cases hpieces with
  | none => exact unknownStmt_alike L hb h
  | @some p q hpieces =>
    -- What comes after the body is not read.
    have hbody : ∀ {α : Type} (f : StmtId × List Tree → Lower α),
        (∀ body vs ws, f (body, vs) = f (body, ws)) →
        braced below p.brace p.body >>= f = braced below' q.brace q.body >>= f :=
      fun f hf => braced_alike L hb hpieces.brace hpieces.body fun body vs ws _ => hf body vs ws
    have htype := hpieces.typeTree
    simp (disch := intros; rfl) only [hb.expr hpieces.sequence, hb.pattern hpieces.item,
      L.span hpieces.item, hbody, h.span]
    generalize p.typeTree = a, q.typeTree = b at htype
    cases htype with
    | none => rfl
    | some hab => simp only [writtenType_alike L hab, L.span hab]

private theorem casePart_alike (L : Tree.Likeness like) (hb : below.Agree like below')
    (h : like t u) (state : CaseState) : casePart below state t = casePart below' state u := by
  have hpattern := hb.pattern (((L.alike h).namedParts L).head?.getD h)
  simp only [casePart, L.kind h, L.span h, L.isOperand h, hb.expr h, hpattern,
    statementsBlock_alike L hb (L.alike h)]

private theorem switchCase_alike (L : Tree.Likeness like) (hb : below.Agree like below')
    (h : like t u) : switchCase below t = switchCase below' u := by
  have hparts := fun init => ((L.alike h).parts L).foldlM_eq
    (fun state _ _ hab => casePart_alike L hb hab state) init
  simp only [switchCase, hparts, L.span h]

private theorem switchStmt_alike (L : Tree.Likeness like) (hb : below.Agree like below')
    (h : t.Alike like u) : switchStmt below t = switchStmt below' u := by
  have hblock := fromBlock_alike L (h.parts L)
  have hsubject := h.field_or "expr" ((forall₂_drop 1 (beforeBlock_alike L (h.parts L))).find?
    fun _ _ => L.isOperand)
  unfold switchStmt
  generalize t.parts.dropWhile _ = vs, u.parts.dropWhile _ = ws at hblock
  cases hblock with
  | nil => exact unknownStmt_alike L hb h
  | cons _ hafter =>
    have hcases := (hafter.filter (p := (·.kind == "switch_entry"))
      fun _ _ hab => by rw [L.kind hab]).mapM_eq fun _ _ => switchCase_alike L hb
    simp only [hcases, h.span]
    generalize (t.childByField? "expr").orElse _ = a, (u.childByField? "expr").orElse _ = b
      at hsubject
    cases hsubject with
    | none => exact unknownStmt_alike L hb h
    | some hab => simp only [hb.expr hab]

private theorem catchBlock_alike (L : Tree.Likeness like) (hb : below.Agree like below')
    (h : like t u) : catchBlock below t = catchBlock below' u := by
  have hblock := fromBlock_alike L ((L.alike h).parts L)
  unfold catchBlock
  generalize t.parts.dropWhile _ = vs, u.parts.dropWhile _ = ws at hblock
  cases hblock with
  | nil => simp only [L.span h]
  | cons hbrace hafter => exact braced_alike L hb hbrace hafter fun _ _ _ _ => rfl

private theorem doStmt_alike (L : Tree.Likeness like) (hb : below.Agree like below')
    (h : t.Alike like u) : doStmt below t = doStmt below' u := by
  have hblock := fromBlock_alike L (h.parts L)
  unfold doStmt
  generalize t.parts.dropWhile _ = vs, u.parts.dropWhile _ = ws at hblock
  cases hblock with
  | nil => exact unknownStmt_alike L hb h
  | cons hbrace hafter =>
    have hcatches := (hafter.filter (p := (·.kind == "catch_block"))
      fun _ _ hab => by rw [L.kind hab]).mapM_eq fun _ _ => catchBlock_alike L hb
    refine braced_alike L hb hbrace hafter fun _ _ _ _ => ?_
    simp only [hcatches, h.span]

private theorem controlTransfer_alike (L : Tree.Likeness like) (hb : below.Agree like below')
    (h : t.Alike like u) : controlTransfer below t = controlTransfer below' u := by
  have hparts := h.parts L
  have hoperand : Option.Rel like
      ((t.childByField? "result").orElse fun _ => t.operands.find? (·.kind != "throw_keyword"))
      ((u.childByField? "result").orElse fun _ => u.operands.find? (·.kind != "throw_keyword")) :=
    h.field_or "result" ((h.operands L).find? fun _ _ hab => by rw [L.kind hab])
  have hresult := hoperand.mapM_eq fun _ _ => hb.expr
  simp only [controlTransfer, hresult, unknownStmt_alike L hb h, h.span]
  generalize (t.childByField? "result").orElse _ = a, (u.childByField? "result").orElse _ = b
    at hoperand
  generalize t.parts = vs, u.parts = ws at hparts
  cases hparts with
  | nil => rfl
  | cons hfirst _ =>
    simp only [L.text hfirst]
    cases hoperand with
    | none => rfl
    | some hab => simp only [hb.expr hab]

/-- Like trees make the same statement. -/
theorem stmtAt_alike (L : Tree.Likeness like) (hb : below.Agree like below') (h : t.Alike like u) :
    stmtAt below t = stmtAt below' u := by
  simp only [stmtAt, h.kind, ifStmt_alike L hb h, guardStmt_alike L hb h, whileStmt_alike L hb h,
    repeatWhileStmt_alike L hb h, forStmt_alike L hb h, switchStmt_alike L hb h,
    doStmt_alike L hb h, controlTransfer_alike L hb h, statementsBlock_alike L hb h,
    unknownStmt_alike L hb h]

/-! ### Declarations -/

private theorem unknownDecl_alike (L : Tree.Likeness like) (hb : below.Agree like below')
    (h : t.Alike like u) : unknownDecl below t = unknownDecl below' u := by
  simp only [unknownDecl, items_alike L hb h, h.kind, h.span]

private theorem fieldText?_alike (L : Tree.Likeness like) (h : t.Alike like u) (field : String) :
    fieldText? t field = fieldText? u field :=
  (h.childByField? field).map_eq fun _ _ hab => by rw [L.text hab]

private theorem importDecl_alike (L : Tree.Likeness like) (h : t.Alike like u) :
    importDecl t = importDecl u := by
  have hname := h.part? L "identifier"
  simp only [importDecl, h.text, h.span]
  generalize t.part? "identifier" = a, u.part? "identifier" = b at hname
  cases hname with
  | none => rfl
  | some hab => simp only [L.text hab]

private theorem param_alike (L : Tree.Likeness like) (h : like t u) : param t = param u := by
  have hA := L.alike h
  simp only [param, fieldText?_alike L hA, typeAmong_alike L (hA.namedParts L), hA.span]

private theorem function_alike (L : Tree.Likeness like) (hb : below.Agree like below')
    (h : t.Alike like u) : function below t = function below' u := by
  funext defaultName
  have hparams := ((h.namedParts L).filter (p := (·.kind == "parameter"))
    fun _ _ hab => by rw [L.kind hab]).mapM_eq fun _ _ => param_alike L
  have hresult := (h.childByField? "return_type").mapM_eq fun _ _ => writtenType_alike L
  have hbody := (h.field_or "body" (h.part? L "function_body")).mapM_eq
    fun _ _ hab => block_alike L hb (L.alike hab)
  simp only [function, fieldText?_alike L h, hparams, hresult, hbody, h.span]

private theorem nominalKind_alike (L : Tree.Likeness like) (h : t.Alike like u) :
    nominalKind t = nominalKind u := by
  funext defaultKind
  have hfield := h.childByField? "declaration_kind"
  have hword : t.parts.findSome? (NominalKind.ofWord? ·.kind) =
      u.parts.findSome? (NominalKind.ofWord? ·.kind) :=
    (h.parts L).findSome?_eq fun _ _ hab => by rw [L.kind hab]
  simp only [nominalKind, hword]
  generalize t.childByField? "declaration_kind" = a, u.childByField? "declaration_kind" = b
    at hfield
  cases hfield with
  | none => rfl
  | some hab => simp only [Option.bind_some, L.text hab]

private theorem inheritedTypes_alike (L : Tree.Likeness like) (h : t.Alike like u) :
    Forall₂ like (inheritedTypes t) (inheritedTypes u) := by
  have hspecifiers := (h.namedParts L).filter (p := (·.kind == "inheritance_specifier"))
    fun _ _ hab => by rw [L.kind hab]
  exact rel_map (R := like)
    (fun _ _ hab => ((L.alike hab).childByField? "inherits_from").getD hab) hspecifiers

private theorem memberTrees_alike (L : Tree.Likeness like) (h : t.Alike like u) :
    Forall₂ like (memberTrees t) (memberTrees u) := by
  have hbody := h.field_or "body" ((h.parts L).find?
    (p := (·.kind ∈ ["class_body", "enum_class_body", "protocol_body"]))
    fun _ _ hab => by rw [L.kind hab])
  unfold memberTrees
  generalize (t.childByField? "body").orElse _ = a, (u.childByField? "body").orElse _ = b at hbody
  cases hbody with
  | none => exact .nil
  | some hab => exact ((L.alike hab).namedParts L).filter fun _ _ hc => by rw [L.kind hc]

private theorem nominal_alike (L : Tree.Likeness like) (hb : below.Agree like below')
    (h : t.Alike like u) : nominal below t = nominal below' u := by
  funext defaultKind
  have hinherited := (inheritedTypes_alike L h).mapM_eq fun _ _ => writtenType_alike L
  have hmembers := (memberTrees_alike L h).mapM_eq fun _ _ => hb.decl
  simp only [nominal, nominalKind_alike L h, fieldText?_alike L h, hinherited, hmembers, h.span]

private theorem bindsConstants_alike (L : Tree.Likeness like) (h : t.Alike like u) :
    bindsConstants t = bindsConstants u := by
  have hkeyword := (h.parts L).find?
    (p := (·.kind ∈ ["value_binding_pattern", "let", "var"])) fun _ _ hab => by rw [L.kind hab]
  unfold bindsConstants
  generalize t.parts.find? _ = a, u.parts.find? _ = b at hkeyword
  cases hkeyword with
  | none => rfl
  | some hab => simp only [L.kind hab, L.text hab]

/-- Whether two entries of properties are of like trees. -/
structure PropertyEntry.Alike (like : Tree → Tree → Prop) (p q : PropertyEntry) : Prop where
  name : like p.name q.name
  typeTree : Option.Rel like p.typeTree q.typeTree
  value : Option.Rel like p.value q.value

private theorem PropertyEntry.next_alike (L : Tree.Likeness like) (h : like t u)
    {ps qs : List PropertyEntry} (hs : Forall₂ (PropertyEntry.Alike like) ps qs) :
    Forall₂ (PropertyEntry.Alike like) (PropertyEntry.next ps t) (PropertyEntry.next qs u) := by
  simp only [PropertyEntry.next, (L.alike h).field, L.kind h]
  split
  · exact .cons ⟨h, .none, .none⟩ hs
  cases hs with
  | nil => exact .nil
  | cons hentry hs =>
    dsimp only
    split
    · exact .cons { hentry with typeTree := .some h } hs
    split
    · exact .cons { hentry with value := .some h } hs
    · exact .cons hentry hs

/-- A comment without a field is no part of a property's entries. -/
theorem PropertyEntry.next_comment (comment : t.isComment) (field : t.head.field = none)
    (entries : List PropertyEntry) : PropertyEntry.next entries t = entries := by
  have hkind : t.kind ≠ "type_annotation" := by
    rintro hk
    simp [Tree.isComment, hk] at comment
  cases entries <;> simp [PropertyEntry.next, field, hkind]

private theorem PropertyEntry.foldl_alike (L : Tree.Likeness like) (h : Tree.Thinned like ts us)
    {ps qs : List PropertyEntry} (hs : Forall₂ (PropertyEntry.Alike like) ps qs) :
    Forall₂ (PropertyEntry.Alike like) (ts.foldl PropertyEntry.next ps)
      (us.foldl PropertyEntry.next qs) := by
  induction h generalizing ps qs with
  | nil => exact hs
  | keep hab _ ih => exact ih (PropertyEntry.next_alike L hab hs)
  | drop comment field _ ih =>
    rw [foldl_cons, PropertyEntry.next_comment comment field]
    exact ih hs

private theorem propertyEntries_alike (L : Tree.Likeness like) (h : t.Alike like u) :
    Forall₂ (PropertyEntry.Alike like) (propertyEntries t) (propertyEntries u) := by
  have hentries := PropertyEntry.foldl_alike L h.children .nil
  have hname := (h.namedParts L).find? (p := (·.kind ∈ ["pattern", "simple_identifier"]))
    fun _ _ hab => by rw [L.kind hab]
  unfold propertyEntries
  generalize t.children.foldl _ [] = ps, u.children.foldl _ [] = qs at hentries
  cases hentries with
  | nil =>
    generalize t.namedParts.find? _ = a, u.namedParts.find? _ = b at hname
    cases hname with
    | none => exact .nil
    | some hab => exact .cons ⟨hab, .none, .none⟩ .nil
  | cons hentry hentries => exact rel_reverse (.cons hentry hentries)

private theorem propertyEntry_alike (L : Tree.Likeness like) (hb : below.Agree like below')
    (isLet : Bool) {p q : PropertyEntry} (h : p.Alike like q) :
    propertyEntry below isLet p = propertyEntry below' isLet q := by
  have hinit := h.value.mapM_eq fun _ _ => hb.expr
  have hwritten := h.typeTree.mapM_eq fun _ _ => writtenType_alike L
  have htype := h.typeTree
  have hname : Option.Rel like
      (if q.name.kind == "simple_identifier" then some p.name
        else p.name.childByField? "bound_identifier")
      (if q.name.kind == "simple_identifier" then some q.name
        else q.name.childByField? "bound_identifier") := by
    split
    · exact .some h.name
    · exact (L.alike h.name).childByField? _
  simp only [propertyEntry, L.kind h.name, hinit, hwritten, hb.pattern h.name, L.span h.name]
  generalize (if q.name.kind == "simple_identifier" then some p.name else _) = a,
    (if q.name.kind == "simple_identifier" then some q.name else _) = b at hname
  generalize p.typeTree = c, q.typeTree = d at htype
  cases htype with
  | none =>
    cases hname with
    | none => rfl
    | some hname => simp only [newVariable_alike (L.alike hname)]
  | some htype =>
    have hspan := L.span htype
    cases hname with
    | none =>
      refine bind_congr fun init => bind_congr fun written => ?_
      cases written <;> simp only [hspan]
    | some hname =>
      simp only [newVariable_alike (L.alike hname)]
      refine bind_congr fun init => bind_congr fun written => ?_
      cases written <;> simp only [hspan]

private theorem property_alike (L : Tree.Likeness like) (hb : below.Agree like below')
    (h : t.Alike like u) : property below t = property below' u := by
  have hentries := (propertyEntries_alike L h).mapM_eq
    fun _ _ => propertyEntry_alike L hb (bindsConstants u)
  simp only [property, bindsConstants_alike L h, hentries, h.span]

private theorem typeAlias_alike (L : Tree.Likeness like) (h : t.Alike like u) :
    typeAlias t = typeAlias u := by
  have htypes := (h.namedParts L).filter (p := (isTypeKind ·.kind)) fun _ _ hab => by
    rw [L.kind hab]
  have htype := (h.field_or "value" htypes.getLast?).mapM_eq fun _ _ => writtenType_alike L
  simp only [typeAlias, fieldText?_alike L h, htype, h.span]

private theorem caseNames_alike (L : Tree.Likeness like) (h : t.Alike like u) :
    caseNames t = caseNames u := by
  have hnames := h.childrenByField L "name"
  unfold caseNames
  generalize t.childrenByField "name" = vs, u.childrenByField "name" = ws at hnames
  have htexts : ∀ vs ws, Forall₂ like vs ws → vs.map (trim ·.text) = ws.map (trim ·.text) :=
    fun _ _ hs => hs.map_eq fun _ _ hab => by rw [L.text hab]
  cases hnames with
  | nil => exact htexts _ _ ((h.namedParts L).filter fun _ _ hab => by rw [L.kind hab])
  | cons hab hrest => exact htexts _ _ (.cons hab hrest)

/-- Like trees make the same declaration. -/
theorem declAt_alike (L : Tree.Likeness like) (hb : below.Agree like below') (h : t.Alike like u) :
    declAt below t = declAt below' u := by
  simp only [declAt, h.kind, h.span, importDecl_alike L h, function_alike L hb h,
    nominal_alike L hb h, property_alike L hb h, typeAlias_alike L h, caseNames_alike L h,
    unknownDecl_alike L hb h]

/-- Like files are lowered alike. -/
theorem sourceFile_alike (L : Tree.Likeness like) (hb : below.Agree like below')
    (h : t.Alike like u) : sourceFile below t = sourceFile below' u := by
  have hnext := fun init => (h.namedParts L).foldlM_eq (f := TopLevel.next below)
    (g := TopLevel.next below') (fun top _ _ hab => by
      simp only [TopLevel.next, item_alike L hb hab, L.span hab]) init
  simp only [sourceFile, hnext]

end SwiftRelations.Lowering
