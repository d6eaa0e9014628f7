import Mathlib.Data.List.TakeWhile
import SwiftRelations.Proofs.Lowering.TaskRules

/-!
# Rules for statements and declarations do their tasks

A statement or a declaration is made after its parts and is no expression itself, so that its tasks
are those of its parts. Where a rule gives up, its tree becomes an unknown statement over its
children. Only the rules for conditions may stop: they do where an equals sign stands before the
keyword of a binding, and there is no place where the pattern of the binding could be.
-/

namespace SwiftRelations

open SwiftRelations.Text SwiftRelations.Lower

/-! ### Conditions in order -/

namespace Lowering

/-- Whether an element of a condition is a binding with an equals sign before its keyword. -/
def EqualsFirst (group : List Tree) : Prop :=
  (∃ t ∈ group, isBindingKeyword t) ∧ ∃ t ∈ group.takeWhile (!isBindingKeyword ·), t.kind = "="

/-- Whether an equals sign comes first can be computed. -/
instance (group : List Tree) : Decidable (EqualsFirst group) := inferInstanceAs (Decidable (_ ∧ _))

/-- Whether no element of a condition has an equals sign before its keyword. -/
def Ordered (ts : List Tree) : Prop := ∀ group ∈ splitAtKind "," ts, ¬ EqualsFirst group

/-- Whether a condition is in order can be computed. -/
instance (ts : List Tree) : Decidable (Ordered ts) :=
  inferInstanceAs (Decidable (∀ group ∈ splitAtKind "," ts, ¬ EqualsFirst group))

end Lowering

open Lowering in
/-- The trees of the condition that a statement is lowered with, if it is. A statement without a
block is not, and neither is a guard without an `else` before its block. -/
def Tree.condition? (t : Tree) : Option (List Tree) :=
  let header := t.parts.takeWhile (!opensBlock ·)
  match t.parts.dropWhile (!opensBlock ·) with
  | [] => none
  | _ :: _ =>
    match t.kind with
    | "if_statement" | "while_statement" => some (header.drop 1)
    | "guard_statement" =>
      if header.any (·.kind == "else") then some ((header.takeWhile (·.kind != "else")).drop 1)
      else none
    | _ => none

open Lowering in
/-- Whether a sense allows for a condition: it is in order, or steps that stop do whatever they
should. -/
def Lower.Sense.Allows (sense : Sense) (ts : List Tree) : Prop :=
  Ordered ts ∨ ∀ (α : Type) (tasks : List Task),
    (throw .equalsBeforeBinding : Lower α).Does sense tasks

namespace Lowering

variable {sense : Sense} {below : Below} {t : Tree}

/-- The rule for an element of a condition looks for an equals sign in front of the keyword. -/
theorem equalsFirst_iff {group after : List Tree} {keyword : Tree}
    (h : group.dropWhile (!isBindingKeyword ·) = keyword :: after) :
    EqualsFirst group ↔ (group.takeWhile (!isBindingKeyword ·)).any (·.kind == "=") := by
  have hk : ∃ t ∈ group, isBindingKeyword t := by
    by_contra hnone
    have hnil : group.dropWhile (!isBindingKeyword ·) = [] :=
      List.dropWhile_eq_nil_iff.mpr fun t ht => by simpa using fun hk => hnone ⟨t, ht, hk⟩
    rw [h] at hnil
    cases hnil
  simp [EqualsFirst, hk]

/-- A statement that is not modelled is called what its tree is, which is no syntax error. -/
theorem unknownStmt_does (hb : below.Does sense) (ht : t.kind ≠ "ERROR") :
    (unknownStmt below t).Does sense (Task.items t) :=
  (items_does hb t).before fun _ => .addStmt_of_ne (by simpa [StmtKind.unmodelled?] using ht)

private theorem elementsOf_does (hb : below.Does sense) (ts : List Tree) :
    ((ts.flatMap blockElements).mapM below.item).Does sense (Task.elements ts) :=
  elements_does hb _

private theorem braced_does (hb : below.Does sense) (brace : Tree) (after : List Tree) :
    (braced below brace after).Does sense (Task.braced after) :=
  .before (.inScope (elementsOf_does hb _)) fun _ =>
    .before (.addStmt rfl) fun _ => .pure _

/-- What is read after a block is what stands after its closing brace. -/
theorem braced_rest (brace : Tree) (after : List Tree) :
    (braced below brace after).Returns fun r => r.2 = Task.afterBlock after :=
  Returns.any.bind fun _ _ => Returns.any.bind fun _ _ => Returns.pure rfl

private theorem statementsBlock_does (hb : below.Does sense) (t : Tree) :
    (statementsBlock below t).Does sense (Task.elements t.namedParts) :=
  .before (elementsOf_does hb _) fun _ => .addStmt rfl

private theorem block_does (hb : below.Does sense) (t : Tree) :
    (block below t).Does sense (Task.block t) := by
  unfold block Task.block
  cases t.parts.dropWhile (!opensBlock ·) with
  | nil => exact statementsBlock_does hb t
  | cons brace after => exact (braced_does hb brace after).before fun _ => .pure _

/-! ### Conditions -/

private theorem optionalBinding_does (hb : below.Does sense) (keyword : Tree) (isLet : Bool)
    (typeTree : Option Tree) (pattern : Tree) (initializer : ExprId) :
    (optionalBinding below keyword isLet typeTree pattern initializer).Does sense
      (Task.bindingPattern pattern isLet) := by
  unfold optionalBinding Task.bindingPattern
  refine .after (.optionMapM_quiet .writtenType) fun written => ?_
  extract_lets name last next
  have hnext : ∀ sub, (next sub).Does sense [] := by
    intro sub
    cases written with
    | none => exact .addPattern rfl
    | some written => exact .after (.addPattern rfl) fun _ => .addPattern rfl
  clear_value next name
  cases name with
  | some name =>
    exact .after (.ofAst _) fun _ => .after (newVariable_does name isLet _) hnext
  | none => exact (hb.pattern pattern (some isLet)).before hnext

private theorem bindingElement_does (hb : below.Does sense) (keyword : Tree)
    (pieces value : List Tree) :
    (bindingElement below keyword pieces value).Does sense
      (Task.bindingElement keyword pieces value) := by
  unfold bindingElement Task.bindingElement
  cases pieces.find? fun t => t.isOperand && t.kind != "type_annotation" with
  | none => exact .pure _
  | some pattern =>
    dsimp only
    cases value.find? Tree.isOperand
    case' some init => refine (hb.expr init).cons fun initializer => ?_
    case' none => refine (Does.declRef pattern _).cons fun initializer => ?_
    all_goals
      split
      · unfold patternRun
        cases PatternRun.ofSiblings? pieces with
        | some run =>
          simp only [bind_assoc, pure_bind]
          exact (patternRun_does hb run none).before fun _ => .pure _
        | none =>
          simp only [pure_bind]
          exact (hb.pattern pattern none).before fun _ => .pure _
      · exact (optionalBinding_does hb _ _ _ _ _).before fun _ => .pure _

private theorem conditionElement_does (hb : below.Does sense) {ts group : List Tree}
    (hc : sense.Allows ts) (hg : group ∈ splitAtKind "," ts) :
    (conditionElement below group).Does sense (Task.conditionElement group) := by
  unfold conditionElement Task.conditionElement
  cases hk : group.dropWhile (!isBindingKeyword ·) with
  | nil =>
    cases group.find? Tree.isOperand with
    | none => exact .pure _
    | some t => exact (hb.expr t).before fun _ => .pure _
  | cons keyword after =>
    dsimp only
    split
    case isTrue he =>
      exact hc.elim (fun ordered => absurd ((equalsFirst_iff hk).mpr he) (ordered group hg))
        fun h => h _ _
    case isFalse => exact bindingElement_does hb keyword _ _

private theorem condition_does (hb : below.Does sense) {ts : List Tree} (hc : sense.Allows ts) :
    (condition below ts).Does sense (Task.condition ts) :=
  .before (.mapM fun _ hg => conditionElement_does hb hc hg) fun _ => .addStmtCondition

private theorem elseBranch_does (hb : below.Does sense) (ts : List Tree) :
    (elseBranch below ts).Does sense (Task.elseBranch ts) := by
  rcases ts with _ | ⟨keyword, _ | ⟨t, after⟩⟩
  · exact .pure _
  · exact .pure _
  simp only [elseBranch, Task.elseBranch]
  split
  · exact .pure _
  split
  case isTrue ht =>
    refine (hb.stmt t ?_).before fun _ => .pure _
    rw [beq_iff_eq.mp ht]
    decide +kernel
  split
  · exact (braced_does hb t after).before fun _ => .pure _
  · exact .pure _

/-! ### Statements -/

private theorem guarded_does (hb : below.Does sense) (parts after : List Tree) {brace : Tree}
    (hc : sense.Allows ((parts.takeWhile (!opensBlock ·)).drop 1))
    (h : parts.dropWhile (!opensBlock ·) = brace :: after) :
    (guarded below parts).Does sense (Task.guarded parts after) := by
  unfold guarded
  rw [h]
  refine .inScope ((condition_does hb hc).bind fun _ => ?_)
  exact (braced_does hb brace after).before fun _ => .pure _

/-- What is read after a condition and its block is what stands after the closing brace. -/
theorem guarded_rest (parts after : List Tree) {brace : Tree}
    (h : parts.dropWhile (!opensBlock ·) = brace :: after) :
    (guarded below parts).Returns fun r =>
      ∃ condition body, r = some (condition, body, Task.afterBlock after) := by
  unfold guarded
  rw [h]
  refine Returns.inScope (Returns.any.bind fun condition _ => ?_)
  exact (braced_rest brace after).bind fun r hr => Returns.pure ⟨condition, r.1, by rw [hr]⟩

private theorem guarded_eq_none (parts : List Tree) (h : parts.dropWhile (!opensBlock ·) = []) :
    guarded below parts = pure none := by
  unfold guarded
  rw [h]

private theorem ifStmt_does (hb : below.Does sense) (hk : t.kind = "if_statement")
    (hc : ∀ ts, t.condition? = some ts → sense.Allows ts) :
    (ifStmt below t).Does sense (Task.ifStmt t) := by
  unfold ifStmt Task.ifStmt
  unfold Tree.condition? at hc
  cases h : t.parts.dropWhile (!opensBlock ·) with
  | nil =>
    rw [guarded_eq_none _ h, pure_bind]
    exact unknownStmt_does hb (by simp [hk])
  | cons brace after =>
    simp only [h, hk, Option.some.injEq, forall_eq'] at hc
    refine .bind_of_returns (guarded_rest t.parts after h) (guarded_does hb t.parts after hc h) ?_
    rintro _ ⟨condition, body, rfl⟩
    exact (elseBranch_does hb _).before fun _ => .addStmt rfl

private theorem guardStmt_does (hb : below.Does sense) (hk : t.kind = "guard_statement")
    (hc : ∀ ts, t.condition? = some ts → sense.Allows ts) :
    (guardStmt below t).Does sense (Task.guardStmt t) := by
  have ht : t.kind ≠ "ERROR" := by simp [hk]
  simp only [guardStmt, Task.guardStmt]
  unfold Tree.condition? at hc
  cases h : t.parts.dropWhile (!opensBlock ·) with
  | nil => exact unknownStmt_does hb ht
  | cons brace after =>
    simp only [h, hk] at hc
    dsimp only
    split
    case isTrue helse =>
      simp only [helse, if_true, Option.some.injEq, forall_eq'] at hc
      exact (condition_does hb hc).bind fun _ => (braced_does hb brace after).before fun _ =>
        .addStmt rfl
    case isFalse => exact unknownStmt_does hb ht

private theorem whileStmt_does (hb : below.Does sense) (hk : t.kind = "while_statement")
    (hc : ∀ ts, t.condition? = some ts → sense.Allows ts) :
    (whileStmt below t).Does sense (Task.whileStmt t) := by
  unfold whileStmt Task.whileStmt
  unfold Tree.condition? at hc
  cases h : t.parts.dropWhile (!opensBlock ·) with
  | nil =>
    rw [guarded_eq_none _ h, pure_bind]
    exact unknownStmt_does hb (by simp [hk])
  | cons brace after =>
    simp only [h, hk, Option.some.injEq, forall_eq'] at hc
    refine Does.of_eq (Does.bind_of_returns (guarded_rest t.parts after h)
      (guarded_does hb t.parts after hc h) ?_) (List.append_nil _)
    rintro _ ⟨condition, body, rfl⟩
    exact .addStmt rfl

private theorem repeatWhileStmt_does (hb : below.Does sense) (ht : t.kind ≠ "ERROR") :
    (repeatWhileStmt below t).Does sense (Task.repeatWhileStmt t) := by
  unfold repeatWhileStmt Task.repeatWhileStmt
  cases t.parts.dropWhile (!opensBlock ·) with
  | nil => exact unknownStmt_does hb ht
  | cons brace after =>
    cases trailingCondition? t.parts with
    | none => exact unknownStmt_does hb ht
    | some condition =>
      exact (braced_does hb brace after).bind fun _ => (hb.expr condition).before fun _ =>
        .addStmt rfl

private theorem forStmt_does (hb : below.Does sense) (ht : t.kind ≠ "ERROR") :
    (forStmt below t).Does sense (Task.forStmt t) := by
  unfold forStmt Task.forStmt
  cases forPieces? t with
  | none => exact unknownStmt_does hb ht
  | some pieces =>
    refine (hb.expr pieces.sequence).cons fun _ => .before (.inScope ?_) fun _ =>
      .addStmt rfl
    refine (hb.pattern pieces.item (some true)).bind fun pattern => ?_
    extract_lets next
    have hnext : ∀ pattern, (next pattern).Does sense (Task.braced pieces.body) :=
      fun _ => (braced_does hb _ _).before fun _ => .pure _
    clear_value next
    cases pieces.typeTree with
    | none => exact hnext pattern
    | some typeTree =>
      exact .after (.writtenType typeTree) fun _ => .after (.addPattern rfl) hnext

/-- The parts of a switch case are read one by one, a guard after its keyword. -/
theorem caseParts_does (hb : below.Does sense) (ts : List Tree) (state : CaseState) :
    (ts.foldlM (casePart below) state).Does sense
      (Task.caseParts state.expectsGuard ts) := by
  induction ts generalizing state with
  | nil => exact .pure state
  | cons t ts ih =>
    rw [List.foldlM_cons]
    unfold casePart Task.caseParts
    dsimp only
    by_cases hpattern : (t.kind == "switch_pattern") = true
    · simp only [hpattern, if_true, bind_assoc, pure_bind]
      exact (hb.pattern _ none).bind fun _ => ih _
    simp only [if_neg hpattern]
    by_cases hwhere : (t.kind == "where_keyword" || t.kind == "where") = true
    · simp only [hwhere, if_true, pure_bind]
      exact ih _
    simp only [if_neg hwhere]
    by_cases hbody : (t.kind == "statements") = true
    · simp only [hbody, if_true, bind_assoc, pure_bind]
      exact (statementsBlock_does hb t).bind fun _ => ih _
    simp only [if_neg hbody]
    by_cases hguard : (state.expectsGuard && t.isOperand) = true
    · simp only [hguard, if_true, bind_assoc, pure_bind]
      exact (hb.expr t).cons fun _ => ih _
    · simp only [if_neg hguard, pure_bind]
      exact ih _

private theorem switchCase_does (hb : below.Does sense) (t : Tree) :
    (switchCase below t).Does sense (Task.caseParts false t.parts) := by
  refine .before (.inScope (.before (caseParts_does hb t.parts {}) fun state => ?_)) fun _ => ?_
  · cases state.body with
    | some body => exact .after (.pure body) fun _ => .pure _
    | none => exact .after (.addStmt rfl) fun _ => .pure _
  · refine .after (.mapM_quiet fun label _ => ?_) fun _ => .addStmt rfl
    exact .addCaseLabelItem

private theorem switchStmt_does (hb : below.Does sense) (ht : t.kind ≠ "ERROR") :
    (switchStmt below t).Does sense (Task.switchStmt t) := by
  unfold switchStmt Task.switchStmt
  cases t.parts.dropWhile (!opensBlock ·) with
  | nil => exact unknownStmt_does hb ht
  | cons brace after =>
    dsimp only
    generalize (t.childByField? "expr").orElse _ = subject
    cases subject with
    | none => exact unknownStmt_does hb ht
    | some subject =>
      exact (hb.expr subject).cons fun _ => .before (.mapM fun u _ => switchCase_does hb u)
        fun _ => .addStmt rfl

private theorem catchBlock_does (hb : below.Does sense) (t : Tree) :
    (catchBlock below t).Does sense (Task.catchBlock t) := by
  unfold catchBlock Task.catchBlock
  cases t.parts.dropWhile (!opensBlock ·) with
  | nil => exact .addStmt rfl
  | cons brace after => exact (braced_does hb brace after).before fun _ => .pure _

private theorem doStmt_does (hb : below.Does sense) (ht : t.kind ≠ "ERROR") :
    (doStmt below t).Does sense (Task.doStmt t) := by
  unfold doStmt Task.doStmt
  cases t.parts.dropWhile (!opensBlock ·) with
  | nil => exact unknownStmt_does hb ht
  | cons brace after =>
    exact (braced_does hb brace after).bind fun _ =>
      .before (.mapM fun u _ => catchBlock_does hb u) fun _ =>
        .addStmt rfl

private theorem controlTransfer_does (hb : below.Does sense) (ht : t.kind ≠ "ERROR") :
    (controlTransfer below t).Does sense (Task.controlTransfer t) := by
  unfold controlTransfer
  extract_lets keyword operand
  change Does sense _ (Task.transfer keyword operand t)
  clear_value keyword operand
  unfold Task.transfer
  split
  · refine .before ?_ fun _ => .addStmt rfl
    cases operand with
    | some operand => exact (hb.expr operand).before fun _ => .pure _
    | none => exact .pure _
  split
  · cases operand with
    | some error => exact (hb.expr error).before fun _ => .addStmt rfl
    | none => exact unknownStmt_does hb ht
  split
  · exact .addStmt rfl
  split
  · exact .addStmt rfl
  · exact unknownStmt_does hb ht

/-- The rule for statements does the tasks listed for them, if their conditions are allowed. -/
theorem stmtAt_does (hb : below.Does sense) (hk : isStmtKind t.kind)
    (hc : ∀ ts, t.condition? = some ts → sense.Allows ts) :
    (stmtAt below t).Does sense (Task.stmt t) := by
  have ht : t.kind ≠ "ERROR" := by
    rintro hk'
    rw [hk'] at hk
    revert hk
    decide +kernel
  simp only [stmtAt, Task.stmt]
  generalize hkind : t.kind = kind
  split
  case h_1 => exact ifStmt_does hb hkind hc
  case h_2 => exact guardStmt_does hb hkind hc
  case h_3 => exact whileStmt_does hb hkind hc
  case h_4 => exact repeatWhileStmt_does hb ht
  case h_5 => exact forStmt_does hb ht
  case h_6 => exact switchStmt_does hb ht
  case h_7 => exact doStmt_does hb ht
  case h_8 => exact controlTransfer_does hb ht
  case h_9 => exact statementsBlock_does hb t
  case h_10 =>
    -- The kind is none of those above, and none that the table names.
    split <;> first | contradiction | exact unknownStmt_does hb ht

/-! ### Declarations -/

private theorem unknownDecl_does (hb : below.Does sense) (ht : t.kind ≠ "ERROR") :
    (unknownDecl below t).Does sense (Task.items t) :=
  (items_does hb t).before fun _ => .addDecl_of_ne (by simpa [DeclKind.unmodelled?] using ht)

private theorem param_does (t : Tree) : (param t).Does sense [] :=
  .after (.optionMapM_quiet .writtenType) fun _ => .after (.addDecl rfl)
    fun _ => .after (.declare _ _) fun _ => .pure _

private theorem function_does (hb : below.Does sense) (t : Tree) (defaultName : String) :
    (function below t defaultName).Does sense (Task.function t) := by
  refine .after (.addDecl rfl) fun decl =>
    .after (.declare _ _) fun _ => .before (.inScope ?_) fun _ =>
      .after (.setDeclKind rfl) fun _ => .pure _
  refine .after (.mapM_quiet fun u _ => param_does u) fun _ =>
    .after (.optionMapM_quiet .writtenType) fun _ =>
      .after (.setDeclKind rfl) fun _ => .before ?_ fun _ => .pure _
  exact .optionMapM fun body _ => block_does hb body

/-- The members of a nominal type are declarations. -/
theorem isDeclKind_of_mem_memberTrees {u : Tree} (hu : u ∈ memberTrees t) : isDeclKind u.kind := by
  unfold memberTrees at hu
  dsimp only at hu
  split at hu
  · exact (List.mem_filter.mp hu).2
  · cases hu

private theorem nominal_does (hb : below.Does sense) (t : Tree) (defaultKind : NominalKind) :
    (nominal below t defaultKind).Does sense (Task.nominal t) := by
  refine .after (.mapM_quiet fun u _ => .writtenType u) fun _ =>
    .after (.addDecl rfl) fun decl => ?_
  have hmembers : ((memberTrees t).mapM below.decl).Does sense (Task.nominal t) :=
    .mapM_visit fun u hu => hb.decl u (isDeclKind_of_mem_memberTrees hu)
  have hend : ∀ inherited : List WrittenType, (do
      let members ← Lower.inScope ((memberTrees t).mapM below.decl)
      Lower.setDeclKind decl (.nominal (nominalKind t defaultKind) ((fieldText? t "name").getD "")
        inherited members)
      return decl : Lower DeclId).Does sense (Task.nominal t) := fun inherited =>
    .before (.inScope hmembers) fun _ =>
      .after (.setDeclKind rfl) fun _ => .pure _
  split
  · exact .after (.declare _ _) fun _ => hend _
  · exact hend _

private theorem propertyEntry_does (hb : below.Does sense) (isLet : Bool) (entry : PropertyEntry) :
    (propertyEntry below isLet entry).Does sense (Task.propertyEntry isLet entry) := by
  unfold propertyEntry Task.propertyEntry Task.bindingPattern
  have hinit : (entry.value.mapM below.expr).Does sense
      (entry.value.toList.map (.visit <| .expr ·)) := by
    rw [List.map_eq_flatMap]
    exact .optionMapM fun u _ => hb.expr u
  refine hinit.bind fun init => .after (.optionMapM_quiet .writtenType) fun written =>
    .after (.ofAst _) fun initType => ?_
  extract_lets type name last next
  have hnext : ∀ pattern, (next pattern).Does sense [] := by
    intro pattern
    dsimp only [next]
    split
    · exact .after (.addPattern rfl) fun _ => .pure _
    · exact .pure _
  clear_value next name
  cases name with
  | some name => exact .after (newVariable_does name isLet _) hnext
  | none => exact (hb.pattern entry.name (some isLet)).before hnext

private theorem property_does (hb : below.Does sense) (t : Tree) :
    (property below t).Does sense (Task.property t) :=
  .before (.mapM fun entry _ => propertyEntry_does hb _ entry) fun _ =>
    .addDecl rfl

/-- The rule for declarations does the tasks listed for them. -/
theorem declAt_does (hb : below.Does sense) (hk : isDeclKind t.kind) :
    (declAt below t).Does sense (Task.decl t) := by
  have ht : t.kind ≠ "ERROR" := by
    rintro hk'
    rw [hk'] at hk
    revert hk
    decide +kernel
  simp only [declAt, Task.decl]
  generalize t.kind = kind
  split
  case h_1 => exact .addDecl rfl
  case h_2 | h_3 | h_4 | h_5 => exact function_does hb t _
  case h_6 | h_7 => exact nominal_does hb t _
  case h_8 | h_9 => exact property_does hb t
  case h_10 =>
    exact .after (.optionMapM_quiet .writtenType) fun _ =>
      .after (.addDecl rfl) fun _ => .after (.declare _ _) fun _ => .pure _
  case h_11 => exact .addDecl rfl
  case h_12 =>
    -- The kind is none of those above, and none that the table names.
    split <;> first | contradiction | exact unknownDecl_does hb ht

/-! ### Files -/

private theorem flush_does (top : TopLevel) : top.flush.Does sense [] := by
  unfold TopLevel.flush
  split
  · exact .after (.addStmt rfl) fun _ =>
      .after (.addDecl rfl) fun _ => .pure _
  · exact .pure _

private theorem next_does (hb : below.Does sense) (top : TopLevel) (t : Tree) :
    (top.next below t).Does sense [Task.item t] := by
  refine (item_does hb t).before fun node => ?_
  split
  · exact .after (flush_does top) fun _ => .pure _
  · exact .pure _

/-- Lowering a file does the tasks of its items. -/
theorem sourceFile_does (hb : below.Does sense) (root : Tree) :
    (sourceFile below root).Does sense (root.namedParts.map Task.item) := by
  have hitems : ∀ (ts : List Tree) (top : TopLevel),
      (ts.foldlM (TopLevel.next below) top).Does sense (ts.map Task.item) := by
    intro ts
    induction ts with
    | nil => exact fun top => .pure top
    | cons t ts ih =>
      intro top
      rw [List.foldlM_cons, List.map_cons]
      exact (next_does hb top t).bind ih
  exact (hitems _ _).before fun top => .after (flush_does top) fun _ => .pure _

end Lowering

end SwiftRelations
