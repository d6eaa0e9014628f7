import SwiftRelations.Proofs.Ast.Patterns
import SwiftRelations.Proofs.Lowering.File

/-!
# Steps that form patterns

A step of a lowering keeps the patterns of its tree well formed: those that were there stay as they
are, and those it adds introduce what they should and stand where they should. There is one rule for
each operation and for each way to put steps together, and then one lemma for each rule of the
lowering; here those for expressions, which make patterns only further down.
-/

namespace SwiftRelations

open Lowering Text

namespace Lower

/-- Whether a step from a state keeps the patterns of a tree well formed, and leaves what may be
said of its result. -/
def FormsFrom {α : Type} (root : Tree) (s : State) (x : Lower α) (post : α → Ast → Prop) : Prop :=
  s.ast.Formed root → ∀ a s', x s = .ok (a, s') →
    s.ast.Retains s'.ast ∧ s'.ast.Formed root ∧ post a s'.ast

/-- Whether a step keeps the patterns of a tree well formed. -/
def Forms {α : Type} (root : Tree) (x : Lower α) : Prop :=
  ∀ s, x.FormsFrom root s fun _ _ => True

variable {α β γ : Type} {root : Tree} {s : State} {x : Lower α} {f : α → Lower β}

namespace FormsFrom

variable {mid : α → Ast → Prop} {post : β → Ast → Prop}

/-- A result without a step keeps patterns well formed. -/
theorem pure {a : α} (h : mid a s.ast) : (Pure.pure a : Lower α).FormsFrom root s mid := by
  intro hs b s' hr
  cases hr
  exact ⟨.refl _, hs, h⟩

/-- Two steps keep patterns well formed if each does, the second with what the first leaves. -/
theorem bind (hx : x.FormsFrom root s mid)
    (hf : ∀ a s', s.ast.Retains s'.ast → mid a s'.ast → (f a).FormsFrom root s' post) :
    (x >>= f).FormsFrom root s post := by
  intro hs b s₂ hr
  obtain ⟨a, s₁, hxr, hfr⟩ := bind_eq_ok.mp hr
  obtain ⟨hret, hs₁, ha⟩ := hx hs a s₁ hxr
  obtain ⟨hret', hs₂, hb⟩ := hf a s₁ hret ha hs₁ b s₂ hfr
  exact ⟨hret.trans hret', hs₂, hb⟩

/-- A step leaves what follows from what it leaves. -/
theorem imp {mid' : α → Ast → Prop} (hx : x.FormsFrom root s mid)
    (h : ∀ a ast, s.ast.Retains ast → mid a ast → mid' a ast) : x.FormsFrom root s mid' := by
  intro hs a s' hr
  obtain ⟨hret, hs', ha⟩ := hx hs a s' hr
  exact ⟨hret, hs', h a s'.ast hret ha⟩

/-- What a step leaves may be forgotten. -/
theorem forget (hx : x.FormsFrom root s mid) : x.FormsFrom root s fun _ _ => True :=
  hx.imp fun _ _ _ _ => trivial

/-- What is known of all results of a step is left by it. -/
theorem of_returns {p : α → Prop} (hx : x.FormsFrom root s mid) (hp : x.Returns p) :
    x.FormsFrom root s fun a ast => mid a ast ∧ p a := by
  intro hs a s' hr
  obtain ⟨hret, hs', ha⟩ := hx hs a s' hr
  exact ⟨hret, hs', ha, hp s a s' hr⟩

/-- A step keeps patterns well formed in a scope of its own. -/
theorem inScope (h : ∀ s' : State, s'.ast = s.ast → x.FormsFrom root s' mid) :
    x.inScope.FormsFrom root s mid := by
  intro hs a s' hr
  obtain ⟨s₁, hx, rfl⟩ := inScope_eq_ok.mp hr
  exact h { s with scopes := s.scopes.enter } rfl hs a s₁ hx

/-- Each step for the elements of a list leaves something that lasts. -/
theorem mapM {xs : List γ} {g : γ → Lower α}
    (h : ∀ c ∈ xs, ∀ s' : State, s.ast.Retains s'.ast → (g c).FormsFrom root s' mid)
    (lasts : ∀ a ast ast', ast.Retains ast' → mid a ast → mid a ast') :
    (xs.mapM g).FormsFrom root s fun as ast => ∀ a ∈ as, mid a ast := by
  induction xs generalizing s with
  | nil =>
    rw [List.mapM_nil]
    exact .pure (by simp)
  | cons c xs ih =>
    rw [List.mapM_cons]
    refine (h c List.mem_cons_self s (.refl _)).bind fun a s₁ hret ha => ?_
    refine (ih fun c hc s₂ hret' => h c (List.mem_cons_of_mem _ hc) s₂ (hret.trans hret')).bind
      fun as s₂ hret' has => .pure fun b hb => ?_
    rcases List.mem_cons.mp hb with rfl | hb
    · exact lasts b _ _ hret' ha
    · exact has b hb

/-- What a step leaves of its result is left of the option that holds it. -/
theorem toSome (hx : x.FormsFrom root s mid) :
    (x >>= fun a => Pure.pure (some a)).FormsFrom root s
      fun o ast => ∀ a, o = some a → mid a ast := by
  refine hx.bind fun a s' _ ha => .pure ?_
  rintro _ ⟨⟩
  exact ha

/-- A step that may be made leaves something if it is. -/
theorem optionMapM {o : Option γ} {g : γ → Lower α}
    (h : ∀ c, o = some c → (g c).FormsFrom root s mid) :
    (o.mapM g).FormsFrom root s fun a ast => ∀ b, a = some b → mid b ast := by
  cases o with
  | none => exact .pure (by simp)
  | some c => exact (h c rfl).toSome

/-- A declaration that is no variable is made. -/
theorem addDecl {kind : DeclKind} {span : Span} (hk : kind.isVar = false) :
    (Lower.addDecl kind span).FormsFrom root s fun id ast => ast.HasPlain id := by
  intro hs a s' hr
  cases hr
  refine ⟨.addDecl s.ast kind (some span), hs.addDecl hk, ⟨kind, some span⟩, ?_, hk⟩
  exact (s.ast.decl?_addDecl kind (some span) _).trans (if_pos rfl)

/-- A declaration that is no variable is replaced by one that is none. -/
theorem setDeclKind {id : DeclId} {kind : DeclKind} (hp : s.ast.HasPlain id)
    (hk : kind.isVar = false) :
    (Lower.setDeclKind id kind).FormsFrom root s fun _ _ => True := by
  intro hs a s' hr
  cases hr
  exact ⟨.setDeclKind hp hk, hs.setDeclKind hp hk, trivial⟩

end FormsFrom

namespace Forms

/-- A step keeps patterns well formed if it does from each state, whatever it leaves. -/
theorem of_from {mid : α → Ast → Prop} (h : ∀ s, x.FormsFrom root s mid) : x.Forms root :=
  fun s => (h s).forget

/-- A result without a step keeps patterns well formed. -/
theorem pure (a : α) : (Pure.pure a : Lower α).Forms root := fun _ => .pure trivial

/-- A fault keeps patterns well formed. -/
theorem throw (fault : Fault) : (MonadExcept.throw fault : Lower α).Forms root := by
  intro s _ a s' hr
  cases hr

/-- Two steps keep patterns well formed if each does. -/
theorem bind (hx : x.Forms root) (hf : ∀ a, (f a).Forms root) : (x >>= f).Forms root :=
  fun s => (hx s).bind fun a s' _ _ => hf a s'

/-- Steps in a row, where the second goes by what the first returns. -/
theorem bind_of_returns {p : α → Prop} (hp : x.Returns p) (hx : x.Forms root)
    (hf : ∀ a, p a → (f a).Forms root) : (x >>= f).Forms root :=
  fun s => ((hx s).of_returns hp).bind fun a s' _ ha => hf a ha.2 s'

/-- The steps for a list keep patterns well formed if each does. -/
theorem mapM {xs : List γ} {g : γ → Lower α} (h : ∀ c ∈ xs, (g c).Forms root) :
    (xs.mapM g).Forms root :=
  of_from fun _ => .mapM (fun c hc s' _ => h c hc s') fun _ _ _ _ => id

/-- The step for a value, if there is one, keeps patterns well formed if it does. -/
theorem optionMapM {o : Option γ} {g : γ → Lower α} (h : ∀ c, o = some c → (g c).Forms root) :
    (o.mapM g).Forms root :=
  of_from fun s => .optionMapM fun c hc => h c hc s

/-- Going through a list keeps patterns well formed if each step does. -/
theorem foldlM {xs : List γ} {g : α → γ → Lower α} (h : ∀ a, ∀ c ∈ xs, (g a c).Forms root)
    (init : α) : (xs.foldlM g init).Forms root := by
  induction xs generalizing init with
  | nil => exact .pure init
  | cons c xs ih =>
    rw [List.foldlM_cons]
    exact (h init c List.mem_cons_self).bind
      fun a => ih (fun a c hc => h a c (List.mem_cons_of_mem _ hc)) a

/-- A step keeps patterns well formed in a scope of its own. -/
theorem inScope (hx : x.Forms root) : x.inScope.Forms root :=
  fun _ => .inScope fun s' _ => hx s'

/-! ### Operations -/

private theorem get {g : State → Lower β} (h : ∀ s, (g s).Forms root) :
    (MonadState.get >>= g).Forms root := by
  intro s hs b s' hr
  exact h s s hs b s' hr

/-- Looking at the tree keeps patterns well formed. -/
theorem ofAst (g : Ast → α) : (Lower.ofAst g).Forms root := get fun _ => .pure _

private theorem exprType? (id : ExprId) : (Lower.exprType? id).Forms root := ofAst _

/-- What is no declaration, pattern or annotation may change. -/
theorem onAst {g : Ast → α × Ast} (hd : ∀ ast, (g ast).2.decls = ast.decls)
    (hp : ∀ ast, (g ast).2.patterns = ast.patterns)
    (ht : ∀ ast, (g ast).2.typeReprs = ast.typeReprs) : (Lower.onAst g).Forms root := by
  intro s hs a s' hr
  cases hr
  have hret : s.ast.Retains (g s.ast).2 := .of_eq (hd _) (hp _) (ht _)
  refine ⟨hret, hs.retain hret (fun _ => ?_) fun {id decl} h _ => ?_, trivial⟩
  · exact congrArg (·[_]?) (hp s.ast)
  · rwa [Ast.decl?, hd] at h

/-- Binding a name keeps patterns well formed. -/
theorem declare (name : String) (decl : DeclId) : (Lower.declare name decl).Forms root := by
  intro s hs a s' hr
  cases hr
  exact ⟨.refl _, hs, trivial⟩

/-- A new declaration that is no variable keeps patterns well formed. -/
theorem addDecl {kind : DeclKind} {span : Span} (hk : kind.isVar = false) :
    (Lower.addDecl kind span).Forms root :=
  of_from fun _ => .addDecl hk

/-- A new statement keeps patterns well formed. -/
theorem addStmt (kind : StmtKind) (span : Span) : (Lower.addStmt kind span).Forms root :=
  onAst (fun _ => rfl) (fun _ => rfl) fun _ => rfl

private theorem addExpr (kind : ExprKind) (type : Option TypeId) (span : Span) :
    (Lower.addExpr kind type span).Forms root :=
  onAst (fun _ => rfl) (fun _ => rfl) fun _ => rfl

private theorem namedType (name : String) : (Lower.namedType name).Forms root :=
  onAst (fun _ => rfl) (fun _ => rfl) fun _ => rfl

/-- A new reference keeps patterns well formed. -/
theorem declRef (t : Tree) (name : String) : (Lower.declRef t name).Forms root := by
  intro s hs a s' hr
  rw [declRef_eq] at hr
  cases hr
  have hret : ∀ exprs, s.ast.Retains { s.ast with exprs } := fun _ => .of_eq rfl rfl rfl
  exact ⟨hret _, hs.retain (hret _) (fun _ => rfl) fun h _ => h, trivial⟩

end Forms

/-- The tree of a type stands inside its annotation, and the type where its tree is. -/
theorem writtenType_formsFrom {t : Tree} {outer : Span} (ht : root.Placed → t.Placed)
    (hin : root.Placed → t.span.Within outer) :
    (writtenType t).FormsFrom root s fun written ast =>
      root.Placed → ast.InSpan (.writtenType written) outer := by
  unfold writtenType
  extract_lets tree text
  have htree : root.Placed → tree.span.Within outer := by
    intro hp
    refine Span.Within.trans ?_ (hin hp)
    dsimp only [tree]
    split
    case isTrue =>
      cases hfield : (t.childByField? "type").orElse fun _ => t.namedParts.head? with
      | none => exact .refl _
      | some u =>
        refine (ht hp).within_of_mem_descendants (Tree.mem_descendants_of_orElse hfield fun h => ?_)
        exact Tree.mem_descendants_of_mem_namedParts (List.mem_of_mem_head? h)
    case isFalse => exact .refl _
  clear_value tree
  intro hs a s' hr
  cases hr
  have hret : s.ast.Retains { s.ast with
      typeReprs := s.ast.typeReprs.push ⟨text, some tree.span⟩
      types := (s.ast.types.resolve text).2 } :=
    (Ast.Retains.addTypeRepr s.ast text (some tree.span)).trans (.of_eq rfl rfl rfl)
  refine ⟨hret, hs.retain hret (fun _ => rfl) fun h _ => h, fun hp => ⟨tree.span, ?_, htree hp⟩⟩
  simp [Ast.spanOf, Ast.typeRepr?]

/-- An annotation keeps patterns well formed. -/
theorem Forms.writtenType (t : Tree) : (Lower.writtenType t).Forms root := by
  intro s hs a s' hr
  cases hr
  have hret : ∀ repr types, s.ast.Retains { s.ast with
      typeReprs := s.ast.typeReprs.push repr, types } := fun repr _ =>
    (Ast.Retains.addTypeRepr s.ast repr.text repr.span).trans (.of_eq rfl rfl rfl)
  exact ⟨hret _ _, hs.retain (hret _ _) (fun _ => rfl) fun h _ => h, trivial⟩

end Lower

/-- An admitted tree is placed if the tree it is admitted under is. -/
theorem Terms.Admits.placed {root t : Tree} {height : Nat}
    (ht : (Terms.under root).Admits height t) (hp : root.Placed) : t.Placed :=
  hp.subtree ht.tree

namespace Lowering

open Lower

/-- The lowering of the trees below keeps patterns well formed. A pattern that is lowered fits the
flag and the tree it is lowered with. -/
structure Below.Forms (root : Tree) (height : Nat) (below : Below) : Prop where
  decl : ∀ {t : Tree}, (Terms.under root).Admits height t → (below.decl t).Forms root
  stmt : ∀ {t : Tree}, (Terms.under root).Admits height t → (below.stmt t).Forms root
  expr : ∀ {t : Tree}, (Terms.under root).Admits height t → (below.expr t).Forms root
  fits : ∀ {t : Tree} {s : State} (binding : Option Bool), (Terms.under root).Admits height t →
    (below.pattern t binding).FormsFrom root s fun id ast => ast.Fits root id binding t.span

variable {root : Tree} {height : Nat} {below : Below} {t : Tree}

/-- The lowering of a pattern below keeps patterns well formed. -/
theorem Below.Forms.pattern (hb : below.Forms root height) (binding : Option Bool)
    (ht : (Terms.under root).Admits height t) : (below.pattern t binding).Forms root :=
  .of_from fun _ => hb.fits binding ht

/-! ### Elements -/

/-- The lowering of an item keeps patterns well formed. -/
theorem item_forms (hb : below.Forms root height) (ht : (Terms.under root).Admits height t) :
    (below.item t).Forms root := by
  unfold Below.item
  split
  · exact (hb.decl ht).bind fun _ => .pure _
  split
  · exact (hb.stmt ht).bind fun _ => .pure _
  · exact (hb.expr ht).bind fun _ => .pure _

/-- The lowering of elements keeps patterns well formed. -/
theorem elements_forms (hb : below.Forms root height) {ts : List Tree}
    (hts : ∀ u ∈ ts, (Terms.under root).Admits height u) : (ts.mapM below.item).Forms root :=
  .mapM fun u hu => item_forms hb (hts u hu)

/-- Keeping the children of a tree of no known kind keeps patterns well formed. -/
theorem items_forms (hb : below.Forms root height) (ht : (Terms.under root).Admits (height + 1) t) :
    (below.items t).Forms root := by
  refine .mapM fun child hc => ?_
  have hd := Tree.mem_descendants_of_mem_namedParts (List.mem_filter.mp hc).1
  split
  · exact (Forms.writtenType child).bind fun _ => .pure _
  · exact item_forms hb (ht.below hd)

/-! ### Expressions -/

private theorem unknownExpr_forms (hb : below.Forms root height)
    (ht : (Terms.under root).Admits (height + 1) t) : (unknownExpr below t).Forms root :=
  (items_forms hb ht).bind fun _ => .addExpr _ _ _

private theorem literal_forms (typeName : String) (kind : ExprKind) :
    (literal t typeName kind).Forms root :=
  (Forms.namedType typeName).bind fun _ => .addExpr _ _ _

private theorem binaryType_forms (kind : String) (lhs rhs : ExprId) :
    (binaryType kind lhs rhs).Forms root := by
  unfold binaryType
  split
  · exact (Forms.namedType _).bind fun _ => .pure _
  split
  · exact (Forms.exprType? lhs).bind fun _ => (Forms.exprType? rhs).bind fun _ => .pure _
  split
  · exact .exprType? rhs
  · exact .pure _

private theorem binary_forms (hb : below.Forms root height)
    (ht : (Terms.under root).Admits (height + 1) t) : (binary below t).Forms root := by
  simp only [binary]
  split
  case h_1 lhs rhs hl hr =>
    split
    · exact unknownExpr_forms hb ht
    have hl := ht.below (Tree.mem_descendants_of_field_or_first hl)
    have hr := ht.below (Tree.mem_descendants_of_field_or_last hr)
    refine (hb.expr hl).bind fun left => (hb.expr hr).bind fun right => ?_
    exact (binaryType_forms _ left right).bind fun _ => .addExpr _ _ _
  case h_2 => exact unknownExpr_forms hb ht

private theorem unaryType_forms (op : String) (operand : ExprId) :
    (unaryType op operand).Forms root := by
  unfold unaryType
  split
  · exact (Forms.namedType _).bind fun _ => .pure _
  split
  · exact .exprType? operand
  · exact .pure _

private theorem unary_forms (hb : below.Forms root height)
    (ht : (Terms.under root).Admits (height + 1) t) : (unary below t).Forms root := by
  simp only [unary]
  split
  case h_1 => exact unknownExpr_forms hb ht
  case h_2 operand h =>
    have hd := ht.below (Tree.mem_descendants_of_field_or_last h)
    exact (hb.expr hd).bind fun id => (unaryType_forms _ id).bind fun _ => .addExpr _ _ _

private theorem argument_forms (hb : below.Forms root height)
    (ht : (Terms.under root).Admits (height + 1) t) : (argument below t).Forms root := by
  unfold argument
  extract_lets parts
  split
  case h_1 label value h =>
    dsimp only
    split
    · exact (hb.expr (ht.below (mem_descendants_of_argument h))).bind fun _ => .pure _
    · exact (unknownExpr_forms hb ht).bind fun _ => .pure _

private theorem suffixArguments_forms (hb : below.Forms root height)
    (ht : (Terms.under root).Admits height t) : (suffixArguments below t).Forms root := by
  unfold suffixArguments
  split
  · refine .mapM fun u hu => ?_
    have hd := Tree.mem_descendants_of_mem_namedParts (List.mem_filter.mp hu).1
    exact argument_forms hb (ht.succ.below hd).succ
  · exact (hb.expr ht).bind fun _ => .pure _

private theorem callType_forms (callee : ExprId) : (callType callee).Forms root := by
  refine .get fun s => ?_
  dsimp only
  split
  · split
    · unfold callTypeOf
      split
      · exact .pure _
      · split
        · exact .pure _
        · exact (Forms.namedType _).bind fun _ => .pure _
      · exact .pure _
    · exact .pure _
  · exact .pure _

private theorem call_forms (hb : below.Forms root height)
    (ht : (Terms.under root).Admits (height + 1) t) : (call below t).Forms root := by
  unfold call
  split
  case h_1 => exact unknownExpr_forms hb ht
  case h_2 callee others h =>
    obtain ⟨hcallee, hsuffix⟩ := admits_callParts ht h
    refine (hb.expr hcallee).bind fun callee => ?_
    refine (Forms.mapM fun u hu => suffixArguments_forms hb (hsuffix u hu)).bind fun _ => ?_
    exact (callType_forms callee).bind fun _ => .addExpr _ _ _

private theorem memberRef_forms (hb : below.Forms root height)
    (ht : (Terms.under root).Admits (height + 1) t) : (memberRef below t).Forms root := by
  simp only [memberRef]
  split
  case h_1 base member hbase hmember =>
    have hd := ht.below (Tree.mem_descendants_of_field_or_first hbase)
    exact (hb.expr hd).bind fun _ => .addExpr _ _ _
  case h_2 => exact unknownExpr_forms hb ht

private theorem exprs_form (hb : below.Forms root height) {ts : List Tree}
    (hts : ∀ u ∈ ts, (Terms.under root).Admits height u) : (ts.mapM below.expr).Forms root :=
  .mapM fun u hu => hb.expr (hts u hu)

private theorem tuple_forms (hb : below.Forms root height)
    (ht : (Terms.under root).Admits (height + 1) t) : (tuple below t).Forms root := by
  unfold tuple
  extract_lets values
  have hv : ∀ u ∈ values, (Terms.under root).Admits height u := fun u hu =>
    ht.below (Tree.mem_descendants_of_fields_or_operands hu)
  clear_value values
  split
  · exact hb.expr (hv _ List.mem_cons_self)
  · exact (exprs_form hb hv).bind fun _ => .addExpr _ _ _

private theorem arrayLiteral_forms (hb : below.Forms root height)
    (ht : (Terms.under root).Admits (height + 1) t) : (arrayLiteral below t).Forms root := by
  unfold arrayLiteral
  extract_lets elements
  have he : ∀ u ∈ elements, (Terms.under root).Admits height u := fun u hu =>
    ht.below (Tree.mem_descendants_of_fields_or_operands hu)
  exact (exprs_form hb he).bind fun _ => .addExpr _ _ _

private theorem closureParam_forms (t : Tree) : (closureParam t).Forms root :=
  (Forms.optionMapM fun u _ => .writtenType u).bind fun _ => (Forms.addDecl rfl).bind fun _ =>
    (Forms.declare _ _).bind fun _ => .pure _

private theorem closure_forms (hb : below.Forms root height)
    (ht : (Terms.under root).Admits (height + 1) t) : (closure below t).Forms root := by
  have he : ∀ u ∈ closureElements t, (Terms.under root).Admits height u := fun u hu =>
    ht.below (mem_descendants_of_mem_closureElements hu)
  refine Forms.bind (.inScope ?_) fun _ => (Forms.addStmt _ _).bind fun _ => .addExpr _ _ _
  exact (Forms.mapM fun u _ => closureParam_forms u).bind fun _ =>
    (elements_forms hb he).bind fun _ => .pure _

private theorem assignment_forms (hb : below.Forms root height)
    (ht : (Terms.under root).Admits (height + 1) t) : (assignment below t).Forms root := by
  simp only [assignment]
  split
  case h_1 dest source hdest hsource =>
    have hdest := ht.below (Tree.mem_descendants_of_field_or_first hdest)
    have hsource := ht.below (Tree.mem_descendants_of_field_or_last hsource)
    exact (hb.expr hsource).bind fun _ => (hb.expr hdest).bind fun _ => .addExpr _ _ _
  case h_2 => exact unknownExpr_forms hb ht

private theorem ternary_forms (hb : below.Forms root height)
    (ht : (Terms.under root).Admits (height + 1) t) : (ternary below t).Forms root := by
  simp only [ternary]
  split
  case h_1 condition thenExpr elseExpr hcondition hthen helse =>
    have hcondition := ht.below (Tree.mem_descendants_of_field_or_nth hcondition)
    have hthen := ht.below (Tree.mem_descendants_of_field_or_nth hthen)
    have helse := ht.below (Tree.mem_descendants_of_field_or_nth helse)
    refine (hb.expr hcondition).bind fun _ => (hb.expr hthen).bind fun _ =>
      (hb.expr helse).bind fun _ => ?_
    exact (Forms.exprType? _).bind fun _ => (Forms.exprType? _).bind fun _ => .addExpr _ _ _
  case h_2 => exact unknownExpr_forms hb ht

private theorem lastOperand_forms (hb : below.Forms root height)
    (ht : (Terms.under root).Admits (height + 1) t) : (lastOperand below t).Forms root := by
  unfold lastOperand
  split
  case h_1 operand h =>
    exact hb.expr (ht.below (Tree.mem_descendants_of_mem_operands (List.mem_of_getLast? h)))
  case h_2 => exact unknownExpr_forms hb ht

/-- The rule for expressions keeps patterns well formed. -/
theorem exprAt_forms (hb : below.Forms root height)
    (ht : (Terms.under root).Admits (height + 1) t) : (exprAt below t).Forms root := by
  unfold exprAt
  extract_lets text
  split
  case h_1 | h_2 | h_3 | h_4 | h_5 | h_6 | h_7 | h_8 | h_9 => exact literal_forms _ _
  case h_10 | h_12 | h_13 => exact .addExpr _ _ _
  case h_11 => exact .declRef t text
  case h_14 => exact call_forms hb ht
  case h_15 | h_16 | h_17 | h_18 | h_19 | h_20 | h_21 | h_22 | h_23 | h_24 =>
    exact binary_forms hb ht
  case h_25 => exact unary_forms hb ht
  case h_26 => exact memberRef_forms hb ht
  case h_27 => exact tuple_forms hb ht
  case h_28 => exact arrayLiteral_forms hb ht
  case h_29 => exact closure_forms hb ht
  case h_30 => exact assignment_forms hb ht
  case h_31 => exact ternary_forms hb ht
  case h_32 | h_33 | h_34 => exact lastOperand_forms hb ht
  case h_35 => exact unknownExpr_forms hb ht

end Lowering

end SwiftRelations
