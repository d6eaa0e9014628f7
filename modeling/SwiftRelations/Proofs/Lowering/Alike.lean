import SwiftRelations.Lowering.File
import SwiftRelations.Proofs.Source.Likeness

/-!
# Like trees are lowered alike

No rule looks at a tree otherwise than through its kind, its text, its place and its parts. Over
lowerings that do the same with like trees, a rule therefore does the same with like trees. There is
one lemma for each rule, here for expressions and patterns.
-/

namespace SwiftRelations.Lowering

open SwiftRelations.Text SwiftRelations.Lower List

/-- Whether two lowerings do the same with like trees. -/
structure Below.Agree (like : Tree → Tree → Prop) (below below' : Below) : Prop where
  decl : ∀ {t u}, like t u → below.decl t = below'.decl u
  stmt : ∀ {t u}, like t u → below.stmt t = below'.stmt u
  expr : ∀ {t u}, like t u → below.expr t = below'.expr u
  pattern : ∀ {t u}, like t u → below.pattern t = below'.pattern u

variable {like : Tree → Tree → Prop} {below below' : Below} {t u : Tree} {ts us : List Tree}

/-! ### Elements -/

private theorem isTrivia_alike (h : t.Alike like u) : isTrivia t = isTrivia u := by
  rw [isTrivia, isTrivia, h.isComment, h.kind]

/-- An annotation is that of a like tree. -/
theorem writtenType_alike (L : Tree.Likeness like) (h : like t u) :
    Lower.writtenType t = Lower.writtenType u := by
  have hA := L.alike h
  have htype : like (((t.childByField? "type").orElse fun _ => t.namedParts.head?).getD t)
      (((u.childByField? "type").orElse fun _ => u.namedParts.head?).getD u) :=
    (hA.field_or "type" (hA.namedParts L).head?).getD h
  simp only [Lower.writtenType, hA.kind]
  split
  · rw [L.text htype, L.span htype]
  · rw [hA.text, hA.span]

/-- The first annotation among some trees is that of a like tree. -/
theorem typeAmong_alike (L : Tree.Likeness like) (h : Forall₂ like ts us) :
    (ts.find? (isTypeKind ·.kind)).mapM Lower.writtenType =
      (us.find? (isTypeKind ·.kind)).mapM Lower.writtenType :=
  (h.find? fun _ _ hab => by rw [L.kind hab]).mapM_eq fun _ _ => writtenType_alike L

/-- Like trees are the same items. -/
theorem item_alike (L : Tree.Likeness like) (hb : below.Agree like below') (h : like t u) :
    below.item t = below'.item u := by
  simp only [Below.item, L.kind h, hb.decl h, hb.stmt h, hb.expr h]

/-- What is kept of a tree of no known kind is kept of a like one. -/
theorem items_alike (L : Tree.Likeness like) (hb : below.Agree like below') (h : t.Alike like u) :
    below.items t = below'.items u := by
  refine ((h.namedParts L).filter fun _ _ hab => ?_).mapM_eq fun a b hab => ?_
  · rw [isTrivia_alike (L.alike hab)]
  · simp only [L.kind hab, writtenType_alike L hab, item_alike L hb hab]

/-- Of the tree of a name only its place is looked at. -/
theorem declRef_alike (h : t.span = u.span) (name : String) :
    Lower.declRef t name = Lower.declRef u name := by
  simp only [Lower.declRef, h]

/-! ### Expressions -/

private theorem unknownExpr_alike (L : Tree.Likeness like) (hb : below.Agree like below')
    (h : t.Alike like u) : unknownExpr below t = unknownExpr below' u := by
  simp only [unknownExpr, items_alike L hb h, h.kind, h.span]

private theorem literal_alike (h : t.Alike like u) (typeName : String) (kind : ExprKind) :
    literal t typeName kind = literal u typeName kind := by
  simp only [literal, h.span]

private theorem exprs_alike (hb : below.Agree like below') (h : Forall₂ like ts us) :
    ts.mapM below.expr = us.mapM below'.expr :=
  h.mapM_eq fun _ _ => hb.expr

private theorem argument_alike (L : Tree.Likeness like) (hb : below.Agree like below')
    (h : like t u) : argument below t = argument below' u := by
  have hA := L.alike h
  have hops := hA.operands L
  have hlast : Option.Rel like ((t.childByField? "value").orElse fun _ => t.operands.getLast?)
      ((u.childByField? "value").orElse fun _ => u.operands.getLast?) :=
    hA.field_or "value" hops.getLast?
  have hunknown := unknownExpr_alike L hb hA
  dsimp only [argument]
  generalize t.operands = ts, u.operands = us at hops hlast
  generalize (t.childByField? "value").orElse _ = a, (u.childByField? "value").orElse _ = b
    at hlast
  rcases hlast with hvalue | _ <;> rcases hops with _ | ⟨hlabel, _ | ⟨hsecond, -⟩⟩
  case some.nil | some.cons.nil => simp only [hb.expr hvalue]
  case none.nil | none.cons.nil => simp only [hunknown]
  case some.cons.cons =>
    simp only [L.kind hlabel, L.text hlabel]
    split_ifs
    · simp only [hb.expr hsecond]
    · simp only [hb.expr hvalue]
  case none.cons.cons =>
    simp only [L.kind hlabel, L.text hlabel]
    split_ifs
    · simp only [hb.expr hsecond]
    · simp only [hunknown]

private theorem suffixArguments_alike (L : Tree.Likeness like) (hb : below.Agree like below')
    (h : like t u) : suffixArguments below t = suffixArguments below' u := by
  have hargs : (t.namedParts.filter (·.kind == "value_argument")).mapM (argument below) =
      (u.namedParts.filter (·.kind == "value_argument")).mapM (argument below') :=
    (((L.alike h).namedParts L).filter fun _ _ hab => by rw [L.kind hab]).mapM_eq
      fun _ _ => argument_alike L hb
  simp only [suffixArguments, L.kind h, hargs, hb.expr h]

private theorem call_alike (L : Tree.Likeness like) (hb : below.Agree like below')
    (h : t.Alike like u) : call below t = call below' u := by
  have hops := h.operands L
  unfold call
  generalize t.operands = ts, u.operands = us at hops
  cases hops with
  | nil => exact unknownExpr_alike L hb h
  | @cons callee callee' others others' hcallee hothers =>
    have hsuffixes : Forall₂ like (others.filter (·.kind == "call_suffix"))
        (others'.filter (·.kind == "call_suffix")) :=
      hothers.filter fun _ _ hab => by rw [L.kind hab]
    have hargs := (rel_flatMap hsuffixes fun _ _ hab => (L.alike hab).namedParts L).mapM_eq
      fun _ _ => suffixArguments_alike L hb
    simp only [hb.expr hcallee, hargs, h.span]

private theorem binaryOperator_alike (L : Tree.Likeness like) (h : t.Alike like u) :
    binaryOperator t = binaryOperator u := by
  have hop := h.childByField? "op"
  have hfound : Option.Rel like (t.parts.find? (!·.isOperand)) (u.parts.find? (!·.isOperand)) :=
    (h.parts L).find? fun _ _ hab => by rw [L.isOperand hab]
  unfold binaryOperator
  generalize t.childByField? "op" = a, u.childByField? "op" = b at hop
  cases hop with
  | some hab => simp only [L.text hab]
  | none =>
    generalize t.parts.find? (!·.isOperand) = a, u.parts.find? (!·.isOperand) = b at hfound
    cases hfound with
    | some hab => simp only [L.text hab]
    | none => exact h.kind

private theorem binary_alike (L : Tree.Likeness like) (hb : below.Agree like below')
    (h : t.Alike like u) : binary below t = binary below' u := by
  have hlhs := h.field_or "lhs" (h.operands L).head?
  have hrhs := h.field_or "rhs" (h.operands L).getLast?
  simp only [binary]
  generalize (t.childByField? "lhs").orElse _ = l, (u.childByField? "lhs").orElse _ = l' at hlhs
  generalize (t.childByField? "rhs").orElse _ = r, (u.childByField? "rhs").orElse _ = r' at hrhs
  cases hlhs with
  | none => exact unknownExpr_alike L hb h
  | some hl =>
    cases hrhs with
    | none => exact unknownExpr_alike L hb h
    | some hr =>
      simp only [L.index hl hr, unknownExpr_alike L hb h, hb.expr hl, hb.expr hr, h.kind, h.span,
        binaryOperator_alike L h]

private theorem unary_alike (L : Tree.Likeness like) (hb : below.Agree like below')
    (h : t.Alike like u) : unary below t = unary below' u := by
  have htarget := h.field_or "target" (h.operands L).getLast?
  have hop := h.field_or "operation" (h.parts L).head?
  simp only [unary]
  generalize (t.childByField? "target").orElse _ = a, (u.childByField? "target").orElse _ = b
    at htarget
  cases htarget with
  | none => exact unknownExpr_alike L hb h
  | some hab =>
    generalize (t.childByField? "operation").orElse _ = o,
      (u.childByField? "operation").orElse _ = o' at hop
    cases hop with
    | none => simp only [hb.expr hab, h.span]
    | some hop => simp only [hb.expr hab, h.span, L.text hop]

private theorem memberName_alike (h : t.text = u.text) : memberName t = memberName u := by
  rw [memberName, memberName, h]

private theorem memberRef_alike (L : Tree.Likeness like) (hb : below.Agree like below')
    (h : t.Alike like u) : memberRef below t = memberRef below' u := by
  have hbase := h.field_or "target" (h.operands L).head?
  have hmember := h.field_or "suffix" (h.operands L).getLast?
  simp only [memberRef]
  generalize (t.childByField? "target").orElse _ = a, (u.childByField? "target").orElse _ = b
    at hbase
  generalize (t.childByField? "suffix").orElse _ = m, (u.childByField? "suffix").orElse _ = m'
    at hmember
  cases hbase with
  | none => exact unknownExpr_alike L hb h
  | some hab =>
    cases hmember with
    | none => exact unknownExpr_alike L hb h
    | some hm =>
      have hname := L.text (((L.alike hm).childByField? "suffix").getD hm)
      simp only [hb.expr hab, memberName_alike hname, h.span]

private theorem tuple_alike (L : Tree.Likeness like) (hb : below.Agree like below')
    (h : t.Alike like u) : tuple below t = tuple below' u := by
  have hname := h.childByField? "name"
  unfold tuple
  extract_lets values values'
  have hvalues : Forall₂ like values values' := by
    dsimp only [values, values']
    have hfields := h.childrenByField L "value"
    generalize t.childrenByField "value" = vs, u.childrenByField "value" = ws at hfields
    cases hfields with
    | nil => exact h.operands L
    | cons hab hrest => exact .cons hab hrest
  clear_value values values'
  generalize t.childByField? "name" = a, u.childByField? "name" = b at hname
  have hall := exprs_alike hb hvalues
  rcases hvalues with _ | ⟨hab, _ | ⟨_, _⟩⟩
  · simp only [hall, h.span]
  · cases hname with
    | none => exact hb.expr hab
    | some _ => simp only [hall, h.span]
  · simp only [hall, h.span]

private theorem arrayLiteral_alike (L : Tree.Likeness like) (hb : below.Agree like below')
    (h : t.Alike like u) : arrayLiteral below t = arrayLiteral below' u := by
  have helements := h.childrenByField L "element"
  unfold arrayLiteral
  generalize t.childrenByField "element" = ts, u.childrenByField "element" = us at helements
  cases helements with
  | nil => simp only [exprs_alike hb (h.operands L), h.span]
  | cons hab hrest => simp only [exprs_alike hb (.cons hab hrest), h.span]

private theorem closureParam_alike (L : Tree.Likeness like) (h : like t u) :
    closureParam t = closureParam u := by
  have hA := L.alike h
  have hname := L.text ((hA.childByField? "name").getD h)
  simp only [closureParam, hname, typeAmong_alike L (hA.namedParts L), hA.span]

private theorem closureParams_alike (L : Tree.Likeness like) (h : t.Alike like u) :
    Forall₂ like (closureParams t) (closureParams u) := by
  have hlist : Option.Rel like
      ((t.part? "lambda_function_type").bind (·.part? "lambda_function_type_parameters"))
      ((u.part? "lambda_function_type").bind (·.part? "lambda_function_type_parameters")) :=
    (h.part? L "lambda_function_type").bind fun _ _ hab => (L.alike hab).part? L _
  unfold closureParams
  generalize (t.part? "lambda_function_type").bind _ = a,
    (u.part? "lambda_function_type").bind _ = b at hlist
  cases hlist with
  | none => exact .nil
  | some hab => exact ((L.alike hab).namedParts L).filter fun _ _ hc => by rw [L.kind hc]

private theorem closureElements_alike (L : Tree.Likeness like) (h : t.Alike like u) :
    Forall₂ like (closureElements t) (closureElements u) := by
  have hstatements := h.part? L "statements"
  unfold closureElements
  generalize t.part? "statements" = a, u.part? "statements" = b at hstatements
  cases hstatements with
  | none => exact .nil
  | some hab => exact (L.alike hab).namedParts L

/-- The elements of like lists of trees are the same. -/
theorem elements_alike (L : Tree.Likeness like) (hb : below.Agree like below')
    (h : Forall₂ like ts us) : ts.mapM below.item = us.mapM below'.item :=
  h.mapM_eq fun _ _ => item_alike L hb

private theorem closure_alike (L : Tree.Likeness like) (hb : below.Agree like below')
    (h : t.Alike like u) : closure below t = closure below' u := by
  have hparams := (closureParams_alike L h).mapM_eq fun _ _ => closureParam_alike L
  simp only [closure, hparams, elements_alike L hb (closureElements_alike L h), h.span]

private theorem assignment_alike (L : Tree.Likeness like) (hb : below.Agree like below')
    (h : t.Alike like u) : assignment below t = assignment below' u := by
  have hdest := h.field_or "target" (h.operands L).head?
  have hsource := h.field_or "result" (h.operands L).getLast?
  have hop := h.childByField? "operator"
  simp only [assignment]
  generalize (t.childByField? "target").orElse _ = a, (u.childByField? "target").orElse _ = b
    at hdest
  generalize (t.childByField? "result").orElse _ = c, (u.childByField? "result").orElse _ = d
    at hsource
  generalize t.childByField? "operator" = o, u.childByField? "operator" = o' at hop
  cases hdest with
  | none => exact unknownExpr_alike L hb h
  | some hdest =>
    cases hsource with
    | none => exact unknownExpr_alike L hb h
    | some hsource =>
      cases hop with
      | none => simp only [hb.expr hdest, hb.expr hsource, h.span]
      | some hop => simp only [hb.expr hdest, hb.expr hsource, h.span, L.text hop]

private theorem ternary_alike (L : Tree.Likeness like) (hb : below.Agree like below')
    (h : t.Alike like u) : ternary below t = ternary below' u := by
  have hcondition := h.field_or "condition" ((h.operands L).getElem? 0)
  have hthen := h.field_or "if_true" ((h.operands L).getElem? 1)
  have helse := h.field_or "if_false" ((h.operands L).getElem? 2)
  simp only [ternary]
  generalize (t.childByField? "condition").orElse _ = a, (u.childByField? "condition").orElse _ = a'
    at hcondition
  generalize (t.childByField? "if_true").orElse _ = b, (u.childByField? "if_true").orElse _ = b'
    at hthen
  generalize (t.childByField? "if_false").orElse _ = c, (u.childByField? "if_false").orElse _ = c'
    at helse
  cases hcondition with
  | none => exact unknownExpr_alike L hb h
  | some ha =>
    cases hthen with
    | none => exact unknownExpr_alike L hb h
    | some hthen =>
      cases helse with
      | none => exact unknownExpr_alike L hb h
      | some helse => simp only [hb.expr ha, hb.expr hthen, hb.expr helse, h.span]

private theorem lastOperand_alike (L : Tree.Likeness like) (hb : below.Agree like below')
    (h : t.Alike like u) : lastOperand below t = lastOperand below' u := by
  have hlast := (h.operands L).getLast?
  unfold lastOperand
  generalize t.operands.getLast? = a, u.operands.getLast? = b at hlast
  cases hlast with
  | none => exact unknownExpr_alike L hb h
  | some hab => exact hb.expr hab

/-- Like trees make the same expression. -/
theorem exprAt_alike (L : Tree.Likeness like) (hb : below.Agree like below') (h : t.Alike like u) :
    exprAt below t = exprAt below' u := by
  simp only [exprAt, h.kind, h.text, h.span, literal_alike h, declRef_alike h.span,
    call_alike L hb h, binary_alike L hb h, unary_alike L hb h, memberRef_alike L hb h,
    tuple_alike L hb h, arrayLiteral_alike L hb h, closure_alike L hb h, assignment_alike L hb h,
    ternary_alike L hb h, lastOperand_alike L hb h, unknownExpr_alike L hb h]

/-! ### Patterns -/

/-- Like trees introduce the same variables. -/
theorem newVariable_alike (h : t.Alike like u) : newVariable t = newVariable u := by
  funext isLet type
  simp only [newVariable, h.text, h.span]

private theorem namePattern_alike (h : t.Alike like u) : namePattern t = namePattern u := by
  funext binding
  cases binding with
  | some isLet => simp only [namePattern, newVariable_alike h]
  | none => simp only [namePattern, declRef_alike h.span, h.text, h.span]

/-- Like lists of trees stand in the same place. -/
theorem spanOfAll?_alike (L : Tree.Likeness like) (h : Forall₂ like ts us) :
    spanOfAll? ts = spanOfAll? us := by
  have hfirst := h.head?
  have hlast := h.getLast?
  unfold spanOfAll?
  generalize ts.head? = a, us.head? = b at hfirst
  generalize ts.getLast? = c, us.getLast? = d at hlast
  cases hfirst with
  | none => rfl
  | some hab =>
    cases hlast with
    | none => rfl
    | some hcd => simp only [L.span hab, L.span hcd]

private theorem patterns_alike (hb : below.Agree like below') (h : Forall₂ like ts us)
    (binding : Option Bool) :
    ts.mapM (below.pattern · binding) = us.mapM (below'.pattern · binding) :=
  h.mapM_eq fun _ _ hab => by rw [hb.pattern hab]

private theorem payloadPattern_alike (L : Tree.Likeness like) (hb : below.Agree like below')
    (h : Forall₂ like ts us) (binding : Option Bool) :
    payloadPattern below binding ts = payloadPattern below' binding us := by
  have hspan := spanOfAll?_alike L h
  have hall := patterns_alike hb h binding
  cases h with
  | nil => rfl
  | cons hab hrest =>
    cases hrest with
    | nil => simp only [payloadPattern, hb.pattern hab]
    | cons _ _ => simp only [payloadPattern, hspan, hall]

private theorem casePattern_alike (L : Tree.Likeness like) (hb : below.Agree like below')
    (name : String) (h : Forall₂ like ts us) :
    casePattern below name ts = casePattern below' name us := by
  funext binding span
  simp only [casePattern, payloadPattern_alike L hb h binding]

/-- Whether two runs spell the same pattern over like trees. -/
inductive PatternRun.Alike (like : Tree → Tree → Prop) : PatternRun → PatternRun → Prop
  | binding (isLet : Bool) {sub sub' : PatternRun} (h : Alike like sub sub') (span : Option Span) :
    Alike like (.binding isLet sub span) (.binding isLet sub' span)
  | optionalSome {sub sub' : PatternRun} (h : Alike like sub sub') (span : Option Span) :
    Alike like (.optionalSome sub span) (.optionalSome sub' span)
  | isType {t u : Tree} (h : like t u) (span : Option Span) :
    Alike like (.isType t span) (.isType u span)
  | enumElement (name : String) {ts us : List Tree} (h : Forall₂ like ts us) (span : Option Span) :
    Alike like (.enumElement name ts span) (.enumElement name us span)
  | single {t u : Tree} (h : like t u) : Alike like (.single t) (.single u)

private theorem PatternRun.Alike.lower (L : Tree.Likeness like) (hb : below.Agree like below')
    {run run' : PatternRun} (h : run.Alike like run') : run.lower below = run'.lower below' := by
  funext binding
  induction h generalizing binding with
  | binding isLet _ span ih => simp only [PatternRun.lower, ih]
  | optionalSome _ span ih => simp only [PatternRun.lower, ih]
  | isType h span => simp only [PatternRun.lower, writtenType_alike L h]
  | enumElement name h span => simp only [PatternRun.lower, casePattern_alike L hb name h]
  | single h => simp only [PatternRun.lower, hb.pattern h]

private theorem afterDot?_alike (L : Tree.Likeness like) (h : Forall₂ like ts us)
    (span : Option Span) :
    Option.Rel (PatternRun.Alike like) (PatternRun.afterDot? ts span)
      (PatternRun.afterDot? us span) := by
  have hname : Forall₂ like (ts.dropWhile (·.kind != "simple_identifier"))
      (us.dropWhile (·.kind != "simple_identifier")) :=
    h.dropWhile fun _ _ hab => by rw [L.kind hab]
  unfold PatternRun.afterDot?
  generalize ts.dropWhile _ = vs, us.dropWhile _ = ws at hname
  cases hname with
  | nil => exact .none
  | cons hab hrest =>
    simp only [L.text hab]
    exact .some (.enumElement _ (hrest.filter fun _ _ hcd => by rw [L.kind hcd]) span)

/-- Like runs of pieces spell the same pattern. -/
theorem ofPieces?_alike (L : Tree.Likeness like) {ts us : List Tree} (h : Forall₂ like ts us) :
    Option.Rel (PatternRun.Alike like) (PatternRun.ofPieces? ts) (PatternRun.ofPieces? us) := by
  cases h with
  | nil => simp only [PatternRun.ofPieces?]; exact .none
  | @cons first first' rest rest' hfirst hrest =>
    have hpieces := Forall₂.cons hfirst hrest
    have hlast :
        (first :: rest).getLast?.map Tree.kind = (first' :: rest').getLast?.map Tree.kind :=
      hpieces.getLast?.map_eq fun _ _ => L.kind
    have hnamed := hpieces.filter fun _ _ => L.named
    have hdot : Forall₂ like ((first :: rest).dropWhile (·.kind != "."))
        ((first' :: rest').dropWhile (·.kind != ".")) :=
      hpieces.dropWhile fun _ _ hab => by rw [L.kind hab]
    rw [PatternRun.ofPieces?, PatternRun.ofPieces?]
    simp only [L.kind hfirst, L.text hfirst, spanOfAll?_alike L hpieces, hlast, hrest.isEmpty]
    split
    · exact (ofPieces?_alike L hrest).map fun _ _ hsub => .binding _ hsub _
    split
    · exact (ofPieces?_alike L hpieces.dropLast).map fun _ _ hsub => .optionalSome hsub _
    split
    · exact (hrest.find? fun _ _ hab => by rw [L.kind hab]).map fun _ _ hab => .isType hab _
    generalize dropWhile _ (first :: rest) = vs, dropWhile _ (first' :: rest') = ws at hdot
    cases hdot with
    | cons _ hafter => exact afterDot?_alike L hafter _
    | nil =>
      generalize filter _ (first :: rest) = vs, filter _ (first' :: rest') = ws at hnamed
      cases hnamed with
      | nil => exact .none
      | cons hab hrest =>
        cases hrest with
        | nil => exact .some (.single hab)
        | cons _ _ => exact .none
termination_by ts.length

/-- Like runs of siblings are lowered alike. -/
theorem patternRun_alike (L : Tree.Likeness like) (hb : below.Agree like below')
    (h : Forall₂ like ts us) : patternRun below ts = patternRun below' us := by
  have hpieces : Forall₂ like (ts.filter PatternRun.isPiece) (us.filter PatternRun.isPiece) :=
    h.filter fun _ _ hab => by
      rw [PatternRun.isPiece, PatternRun.isPiece, L.isComment hab, L.kind hab]
  have hrun := ofPieces?_alike L hpieces
  funext binding
  unfold patternRun PatternRun.ofSiblings?
  generalize PatternRun.ofPieces? (ts.filter _) = a, PatternRun.ofPieces? (us.filter _) = b at hrun
  cases hrun with
  | none => rfl
  | some h => simp only [h.lower L hb]

private theorem unknownPattern_alike (L : Tree.Likeness like) (hb : below.Agree like below')
    (h : t.Alike like u) : unknownPattern below t = unknownPattern below' u := by
  simp only [unknownPattern, items_alike L hb h, h.span]

private theorem otherPattern_alike (L : Tree.Likeness like) (hb : below.Agree like below')
    (h : t.Alike like u) : otherPattern below t = otherPattern below' u := by
  funext binding
  have hnamed := h.namedParts L
  simp only [otherPattern, h.kind, exprAt_alike L hb h, h.span]
  generalize t.namedParts = ts, u.namedParts = us at hnamed
  split
  · cases hnamed with
    | nil => exact unknownPattern_alike L hb h
    | cons hab hrest =>
      cases hrest with
      | nil => simp only [hb.pattern hab]
      | cons _ _ => exact unknownPattern_alike L hb h
  · rfl

private theorem partsAfterName_alike (L : Tree.Likeness like) (name : String)
    (h : Forall₂ like ts us) : Forall₂ like (partsAfterName name ts) (partsAfterName name us) :=
  forall₂_drop 1 (h.dropWhile fun _ _ hab => by rw [L.text hab])

private theorem unboundPattern_alike (L : Tree.Likeness like) (hb : below.Agree like below')
    (h : t.Alike like u) : unboundPattern below t = unboundPattern below' u := by
  funext binding
  have hnamed := h.namedParts L
  have htype : Option.Rel like
      (if startsWith (trim u.text) "is " then t.namedParts.find? (isTypeKind ·.kind) else none)
      (if startsWith (trim u.text) "is " then u.namedParts.find? (isTypeKind ·.kind)
        else none) := by
    split
    · exact hnamed.find? fun _ _ hab => by rw [L.kind hab]
    · exact .none
  have hpayload := fun name => casePattern_alike L hb name (partsAfterName_alike L name hnamed)
  have helements := patterns_alike hb hnamed binding
  have hother := otherPattern_alike L hb h
  simp only [unboundPattern, h.text, h.kind, h.span, hpayload, helements, hother]
  generalize (if startsWith (trim u.text) "is " then t.namedParts.find? _ else none) = a,
    (if startsWith (trim u.text) "is " then u.namedParts.find? _ else none) = b at htype
  generalize t.namedParts = ts, u.namedParts = us at hnamed
  cases htype with
  | some hab => simp only [writtenType_alike L hab]
  | none =>
    cases hnamed with
    | nil => simp only
    | cons hab hrest =>
      cases hrest with
      | nil => simp only [hb.pattern hab]
      | cons _ _ => simp only

private theorem bindingKeyword?_alike (L : Tree.Likeness like) (h : t.Alike like u) :
    bindingKeyword? t = bindingKeyword? u := by
  have hnamed := h.namedParts L
  simp only [bindingKeyword?, h.text]
  generalize t.namedParts = ts, u.namedParts = us at hnamed
  cases hnamed with
  | nil => rfl
  | cons hab _ => simp only [L.kind hab, L.text hab]

private theorem boundPattern_alike (L : Tree.Likeness like) (hb : below.Agree like below')
    (h : t.Alike like u) : boundPattern below t = boundPattern below' u := by
  funext isLet
  have hpieces : Forall₂ like
      (t.parts.filter fun c => c.kind != "value_binding_pattern" && c.kind != "case")
      (u.parts.filter fun c => c.kind != "value_binding_pattern" && c.kind != "case") :=
    (h.parts L).filter fun _ _ hab => by rw [L.kind hab]
  have hdot := hpieces.any (p := (·.kind == ".")) fun _ _ hab => by rw [L.kind hab]
  have hsub : Option.Rel like (t.namedParts.find? (·.kind != "value_binding_pattern"))
      (u.namedParts.find? (·.kind != "value_binding_pattern")) :=
    (h.namedParts L).find? fun _ _ hab => by rw [L.kind hab]
  simp only [boundPattern, hdot, patternRun_alike L hb hpieces]
  generalize t.namedParts.find? _ = a, u.namedParts.find? _ = b at hsub
  cases hsub with
  | none => rfl
  | some hab => simp only [hb.pattern hab]

private theorem compoundPattern_alike (L : Tree.Likeness like) (hb : below.Agree like below')
    (h : t.Alike like u) : compoundPattern below t = compoundPattern below' u := by
  funext binding
  simp only [compoundPattern, bindingKeyword?_alike L h, boundPattern_alike L hb h,
    unboundPattern_alike L hb h, h.span]

/-- Like trees make the same pattern. -/
theorem patternAt_alike (L : Tree.Likeness like) (hb : below.Agree like below')
    (h : t.Alike like u) : patternAt below t = patternAt below' u := by
  funext binding
  have hname := h.childByField? "bound_identifier"
  simp only [patternAt, namePattern_alike h, compoundPattern_alike L hb h, h.kind, h.text, h.span]
  generalize t.childByField? _ = a, u.childByField? _ = b at hname
  cases hname with
  | none => rfl
  | some hab => simp only [namePattern_alike (L.alike hab)]

end SwiftRelations.Lowering
