import SwiftRelations.Proofs.Lowering.File

/-!
# Runs of siblings that are no pattern

A run of siblings may be lowered while it is being read: each keyword, suffix, test or case is
lowered as soon as the pieces behind it are, and the whole is given up where a piece is missing.
This comes to the same as reading the run before anything of it is lowered. So a run that is given
up has added nothing, bound nothing and left no reference behind, and what is tried in its place
starts from the state before it.

`patternInTurn` follows `pattern_run` in this, which `PatternRun` reads before it lowers.
-/

namespace SwiftRelations.Lowering

open SwiftRelations.Text

variable {below : Below} {binding : Option Bool} {ts : List Tree} {s s' : State}

/-! ### Reading and lowering in turn -/

/-- The pattern a run of siblings spells, lowered while the run is read. Every form is given up
where its own pieces are missing, or where what is inside it is given up. -/
def patternInTurn (below : Below) (ts : List Tree) (binding : Option Bool) :
    OptionT Lower PatternId :=
  match _hpieces : ts.filter PatternRun.isPiece with
  | [] => failure
  | first :: rest =>
    let pieces := first :: rest
    let span := spanOfAll? pieces
    if first.kind == "value_binding_pattern" then do
      let isLet := startsWith (trimStart first.text) "let"
      let sub ← patternInTurn below rest (some isLet)
      Lower.addPattern (.binding isLet sub) span
    else if !rest.isEmpty && (pieces.getLast?.map (·.kind)) == some "?" then do
      let sub ← patternInTurn below pieces.dropLast binding
      Lower.addPattern (.optionalSome sub) span
    else if first.kind == "is" then
      match rest.find? (isTypeKind ·.kind) with
      | some type => do
        let written ← Lower.writtenType type
        Lower.addPattern (.isType written) span
      | none => failure
    else
      match pieces.dropWhile (·.kind != ".") with
      | _ :: afterDot =>
        match afterDot.dropWhile (·.kind != "simple_identifier") with
        | name :: others =>
          casePattern below (trim name.text) (others.filter (·.kind == "pattern")) binding span
        | [] => failure
      | [] =>
        match pieces.filter (·.head.named) with
        | [t] => below.pattern t binding
        | _ => failure
termination_by ts.length
decreasing_by
  all_goals
    have hlength := (List.filter_sublist (p := PatternRun.isPiece) (l := ts)).length_le
    rw [_hpieces] at hlength
    simp only [List.length_cons, List.length_dropLast] at hlength ⊢
    omega

/-- A run of pieces is read as it stands. -/
theorem PatternRun.ofSiblings?_of_pieces (hts : ∀ t ∈ ts, isPiece t = true) :
    ofSiblings? ts = ofPieces? ts := by
  rw [ofSiblings?, List.filter_eq_self.mpr hts]

/-- A run that is read is lowered, and nothing else is done. -/
theorem patternRun_eq (below : Below) (ts : List Tree) (binding : Option Bool) :
    patternRun below ts binding = (PatternRun.ofSiblings? ts).mapM (·.lower below binding) := by
  unfold patternRun
  cases PatternRun.ofSiblings? ts with
  | none => rfl
  | some run => simp [Option.mapM_some]

/-- A form around what is inside it, each lowered while it is read. -/
theorem run_bind_of_read {x : OptionT Lower PatternId} {read : Option PatternRun}
    {inner : Option Bool} {form : PatternRun → PatternRun} {finish : PatternId → Lower PatternId}
    (hx : x.run = read.mapM (·.lower below inner))
    (hform : ∀ run, (form run).lower below binding = run.lower below inner >>= finish) :
    (x >>= fun sub => (liftM (finish sub) : OptionT Lower PatternId)).run =
      (read.map form).mapM (·.lower below binding) := by
  rw [OptionT.run_bind, hx]
  cases read with
  | none => simp [Option.elimM]
  | some run => simp [Option.elimM, Option.mapM_some, hform]

/-- A step that is done in any case. -/
theorem run_liftM_eq (x : Lower PatternId) {run : PatternRun} (h : run.lower below binding = x) :
    (liftM x : OptionT Lower PatternId).run = (some run).mapM (·.lower below binding) := by
  simp [Option.mapM_some, h]

/-- What is lowered while it is read is lowered as if it had been read before. By induction on the
number of siblings: what is inside a form is spelled by fewer of them. -/
theorem patternInTurn_run (below : Below) (ts : List Tree) (binding : Option Bool) :
    (patternInTurn below ts binding).run = patternRun below ts binding := by
  rw [patternRun_eq]
  induction hn : ts.length using Nat.strongRecOn generalizing ts binding with
  | ind n ih =>
    rw [patternInTurn]
    split
    case h_1 hpieces =>
      rw [PatternRun.ofSiblings?, hpieces, PatternRun.ofPieces?]
      rfl
    case h_2 first rest hpieces =>
      have hall : ∀ t ∈ first :: rest, PatternRun.isPiece t = true := by
        intro t ht
        rw [← hpieces] at ht
        exact (List.mem_filter.mp ht).2
      have hlength : (first :: rest).length ≤ n := by
        rw [← hpieces, ← hn]
        exact List.length_filter_le _ _
      -- What is inside the run is spelled by pieces of it.
      have hinner {inner : List Tree} (hs : inner.Sublist (first :: rest))
          (hl : inner.length < (first :: rest).length) (binding : Option Bool) :
          (patternInTurn below inner binding).run =
            (PatternRun.ofPieces? inner).mapM (·.lower below binding) := by
        rw [← PatternRun.ofSiblings?_of_pieces fun t ht => hall t (hs.subset ht)]
        exact ih _ (Nat.lt_of_lt_of_le hl hlength) inner binding rfl
      rw [PatternRun.ofSiblings?, hpieces, PatternRun.ofPieces?]
      dsimp only
      split
      case isTrue =>
        exact run_bind_of_read (hinner (List.sublist_cons_self _ _) (Nat.lt_succ_self _) _)
          fun _ => rfl
      split
      case isTrue =>
        exact run_bind_of_read (hinner (List.dropLast_sublist _) (by simp) _) fun _ => rfl
      split
      case isTrue =>
        cases rest.find? (isTypeKind ·.kind) with
        | none => rfl
        | some type => simp [PatternRun.lower, Option.mapM_some]
      cases (first :: rest).dropWhile (·.kind != ".") with
      | cons dot afterDot =>
        dsimp only [PatternRun.afterDot?]
        cases afterDot.dropWhile (·.kind != "simple_identifier") with
        | cons name others => exact run_liftM_eq _ rfl
        | nil => rfl
      | nil =>
        dsimp only
        generalize (first :: rest).filter (·.head.named) = named
        rcases named with _ | ⟨t, _ | ⟨second, others⟩⟩
        · rfl
        · exact run_liftM_eq _ rfl
        · rfl

/-! ### What a run that is given up leaves -/

/-- A run is given up exactly if it spells no pattern, and then the state is what it was. -/
theorem patternRun_eq_none_iff :
    patternRun below ts binding s = .ok (none, s') ↔ PatternRun.ofSiblings? ts = none ∧ s' = s := by
  unfold patternRun
  cases PatternRun.ofSiblings? ts with
  | none =>
    have hpure : (pure none : Lower (Option PatternId)) s = .ok (none, s) := rfl
    simp [hpure, eq_comm]
  | some run =>
    -- A run that is read either ends with a pattern or stops for a fault.
    simp only [bind, StateT.bind, Except.bind, reduceCtorEq, false_and, iff_false]
    cases run.lower below binding s with
    | ok result => exact nofun
    | error fault => simp

/-- A run that spells no pattern is a step that does nothing. -/
theorem patternRun_eq_pure (h : PatternRun.ofSiblings? ts = none) (below : Below)
    (binding : Option Bool) : patternRun below ts binding = pure none := by
  simp only [patternRun, h]

/-! ### What is tried in its place -/

/-- The siblings of a binding keyword. -/
def boundPieces (t : Tree) : List Tree :=
  t.parts.filter fun c => c.kind != "value_binding_pattern" && c.kind != "case"

/-- The pattern under a binding keyword whose siblings are no run: a part of the tree, or else what
the tree is without the keyword. -/
def plainBinding (below : Below) (t : Tree) (isLet : Bool) (binding : Option Bool) :
    Lower PatternId :=
  match t.namedParts.find? (·.kind != "value_binding_pattern") with
  | some part => do
    let sub ← below.pattern part (some isLet)
    Lower.addPattern (.binding isLet sub) (some t.span)
  | none => unboundPattern below t binding

/-- The pattern under a binding keyword is lowered without its siblings when they are no run. -/
theorem boundPattern_of_unread {t : Tree} (h : PatternRun.ofSiblings? (boundPieces t) = none)
    (below : Below) (isLet : Bool) :
    boundPattern below t isLet =
      (t.namedParts.find? (·.kind != "value_binding_pattern")).mapM
        (below.pattern · (some isLet)) := by
  have hrun : patternRun below (boundPieces t) (some isLet) = pure none := patternRun_eq_pure h _ _
  unfold boundPieces at hrun
  simp only [boundPattern, hrun, pure_bind, ite_self]
  cases t.namedParts.find? (·.kind != "value_binding_pattern") with
  | none => rfl
  | some sub => simp [Option.mapM_some]

/-- A pattern with a binding keyword is lowered once: the run of its siblings that spells none has
nothing to do with it. -/
theorem compoundPattern_of_unread {t : Tree} {isLet : Bool}
    (hkeyword : bindingKeyword? t = some isLet)
    (h : PatternRun.ofSiblings? (boundPieces t) = none) (below : Below) (binding : Option Bool) :
    compoundPattern below t binding = plainBinding below t isLet binding := by
  unfold compoundPattern plainBinding
  rw [hkeyword]
  dsimp only
  rw [boundPattern_of_unread h]
  cases t.namedParts.find? (·.kind != "value_binding_pattern") with
  | none => simp [Option.mapM_none]
  | some part => simp [Option.mapM_some]

/-- The pattern of a case in a condition is lowered once: as the run of its pieces, or else from
the piece that may be a pattern, in the state that the value left. -/
theorem bindingPattern_of_unread {keyword : Tree}
    (hkeyword : startsWith (trimStart keyword.text) "case" = true)
    (h : PatternRun.ofSiblings? ts = none) (below : Below) (pattern : Tree)
    (initializer : ExprId) :
    bindingPattern below keyword ts pattern initializer = below.pattern pattern none := by
  unfold bindingPattern
  rw [if_pos hkeyword, patternRun_eq_pure h, pure_bind]

/-- A run of siblings that is given up leaves no trace. It is given up in the same places when each
of its forms is lowered as soon as it is read. After that the syntax tree with its types, the
scopes and the pending references are what they were, and the same run is given up in every other
state and under every other keyword. So what is tried in its place, in a pattern and in a
condition, is all that is ever lowered for it. -/
theorem patternRun_traceless (below : Below) :
    (∀ ts binding, (patternInTurn below ts binding).run = patternRun below ts binding) ∧
    (∀ ts binding s s', patternRun below ts binding s = .ok (none, s') →
      s' = s ∧ ∀ other : Option Bool, patternRun below ts other = pure none) ∧
    (∀ t isLet binding s s', bindingKeyword? t = some isLet →
      patternRun below (boundPieces t) (some isLet) s = .ok (none, s') →
      compoundPattern below t binding s = plainBinding below t isLet binding s) ∧
    ∀ keyword pieces value pattern initializer s s₁ s₂,
      startsWith (trimStart keyword.text) "case" = true →
      (pieces.find? fun t => t.isOperand && t.kind != "type_annotation") = some pattern →
      bindingValue below value pattern s = .ok (initializer, s₁) →
      patternRun below pieces none s₁ = .ok (none, s₂) →
      bindingElement below keyword pieces value s =
        (do return some (.pattern (← below.pattern pattern none) initializer) :
          Lower (Option ConditionElement)) s₁ := by
  refine ⟨patternInTurn_run below, ?_, ?_, ?_⟩
  · intro ts binding s s' h
    obtain ⟨hnone, hs⟩ := patternRun_eq_none_iff.mp h
    exact ⟨hs, patternRun_eq_pure hnone below⟩
  · intro t isLet binding s s' hkeyword h
    have hnone := (patternRun_eq_none_iff.mp h).1
    rw [compoundPattern_of_unread hkeyword hnone]
  · intro keyword pieces value pattern initializer s s₁ s₂ hcase hpattern hvalue h
    have hnone := (patternRun_eq_none_iff.mp h).1
    rw [bindingElement_eq, hpattern]
    simp only [bind, StateT.bind, hvalue, Except.bind]
    rw [bindingPattern_of_unread hcase hnone]

/-- The tree of the pattern `let .(x)`, in which the case after the dot has no name. -/
def namelessCase : Tree :=
  .bare "pattern" true "let .(x)" [.bare "value_binding_pattern" true "let" [],
    .bare "." false "." [],
    .bare "pattern" true "x" [.bare "simple_identifier" true "x" []]]

/-- The siblings of the keyword are given up after the dot, and so are the pieces of the condition
`case .(x) = y`. Then the pattern `x` is lowered once: under the keyword there is one variable, and
the condition has one pattern, after its value. -/
theorem patternRun_traceless_namelessCase :
    let below := upTo 2
    let keyword := Tree.bare "case" false "case" []
    let value := [Tree.bare "simple_identifier" true "y" []]
    let pieces := boundPieces namelessCase
    (bindingKeyword? namelessCase = some true ∧
      patternRun below pieces (some true) {} = .ok (none, {}) ∧
      compoundPattern below namelessCase none {} = plainBinding below namelessCase true none {} ∧
      (compoundPattern below namelessCase none {}).toOption.map (·.2.ast.decls.size) = some 1) ∧
    ∃ pattern initializer s, startsWith (trimStart keyword.text) "case" = true ∧
      (pieces.find? fun t => t.isOperand && t.kind != "type_annotation") = some pattern ∧
      bindingValue below value pattern {} = .ok (initializer, s) ∧
      patternRun below pieces none s = .ok (none, s) ∧
      bindingElement below keyword pieces value {} =
        (do return some (.pattern (← below.pattern pattern none) initializer) :
          Lower (Option ConditionElement)) s := by
  intro below keyword value pieces
  have hnone : PatternRun.ofSiblings? pieces = none :=
    Option.isNone_iff_eq_none.mp (by decide +kernel)
  have hrun (binding : Option Bool) (s : State) :
      patternRun below pieces binding s = .ok (none, s) :=
    patternRun_eq_none_iff.mpr ⟨hnone, rfl⟩
  obtain ⟨-, -, hpattern, hcondition⟩ := patternRun_traceless below
  constructor
  · have hkeyword : bindingKeyword? namelessCase = some true := by decide +kernel
    exact ⟨hkeyword, hrun _ _, hpattern _ _ _ _ _ hkeyword (hrun _ _), by decide +kernel⟩
  · have hcase : startsWith (trimStart keyword.text) "case" = true := by decide +kernel
    obtain ⟨pattern, hfind⟩ : ∃ pattern,
        (pieces.find? fun t => t.isOperand && t.kind != "type_annotation") = some pattern :=
      Option.isSome_iff_exists.mp (by decide +kernel)
    have hvalue : bindingValue below value pattern {} = .ok (⟨0⟩, _) := rfl
    exact ⟨pattern, _, _, hcase, hfind, hvalue, hrun _ _,
      hcondition _ _ _ _ _ _ _ _ hcase hfind hvalue (hrun _ _)⟩

end SwiftRelations.Lowering
