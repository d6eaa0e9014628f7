import SwiftRelations.Proofs.Lowering.Expr

/-!
# What the rules for patterns build

A run of siblings is read before anything is lowered, and only trees of the run are. So a run that
is no pattern makes nothing, and each rule makes one pattern of what it lowers.
-/

namespace SwiftRelations.Lowering

open SwiftRelations.Text SwiftRelations.Lower

variable {terms : Terms} {opened : List (DeclId × String)} {height : Nat} {below : Below}
  {t : Tree} {binding : Option Bool}

/-! ### Names -/

/-- A variable is made with the type it is given. -/
theorem newVariable_builds (t : Tree) (isLet : Bool) (type : Option TypeId) :
    (newVariable t isLet type).Builds terms opened (typeNodes type) fun id => [.pattern id] :=
  .introduce rfl fun _ => .addPattern

private theorem namePattern_builds (t : Tree) (binding : Option Bool) :
    (namePattern t binding).Builds terms opened [] fun id => [.pattern id] := by
  cases binding with
  | some isLet => exact newVariable_builds t isLet none
  | none => exact (Builds.declRef t (trim t.text)).bind fun expr => .addPattern

/-! ### Cases of enumerations -/

/-- A payload is one pattern, if there is any. -/
theorem payloadPattern_builds (hb : below.Sound terms height) {ts : List Tree}
    (hts : ∀ u ∈ ts, terms.Admits height u) :
    (payloadPattern below binding ts).Builds terms opened []
      fun sub => (sub.map Node.pattern).toList := by
  unfold payloadPattern
  split
  · exact .pure (.refl _)
  · exact (hb.pattern (hts _ List.mem_cons_self)).bind fun id => .pure (.refl _)
  · refine (Builds.mapM_map fun u hu => hb.pattern (hts u hu)).bind fun elements => ?_
    exact Builds.addPattern.bind fun id => .pure (.refl _)

private theorem casePattern_builds (hb : below.Sound terms height) {name : String}
    {payload : List Tree} {span : Option Span} (hts : ∀ u ∈ payload, terms.Admits height u) :
    (casePattern below name payload binding span).Builds terms opened [] fun id => [.pattern id] :=
  (payloadPattern_builds hb hts).bind fun _ => .addPattern

/-! ### Runs of siblings -/

namespace PatternRun

/-- The trees of a run that are lowered. -/
def trees : PatternRun → List Tree
  | .binding _ sub _ => sub.trees
  | .optionalSome sub _ => sub.trees
  | .isType _ _ => []
  | .enumElement _ payload _ => payload
  | .single t => [t]

private theorem trees_afterDot? {ts : List Tree} {span : Option Span} {run : PatternRun}
    (h : afterDot? ts span = some run) : run.trees ⊆ ts := by
  unfold afterDot? at h
  split at h
  case h_1 name rest hd =>
    cases h
    exact fun u hu => Tree.mem_of_dropWhile hd (List.mem_filter.mp hu).1
  case h_2 => cases h

/-- Only pieces of a run are lowered. -/
theorem trees_ofPieces? {ts : List Tree} {run : PatternRun} (h : ofPieces? ts = some run) :
    run.trees ⊆ ts := by
  fun_induction ofPieces? ts generalizing run
  case case1 | case7 => cases h
  case case2 ih =>
    obtain ⟨sub, hs, rfl⟩ := Option.map_eq_some_iff.mp h
    exact fun u hu => List.mem_cons_of_mem _ (ih hs hu)
  case case3 first rest pieces _ _ _ ih =>
    obtain ⟨sub, hs, rfl⟩ := Option.map_eq_some_iff.mp h
    exact fun u hu => (List.dropLast_sublist pieces).subset (ih hs hu)
  case case4 =>
    obtain ⟨type, -, rfl⟩ := Option.map_eq_some_iff.mp h
    exact List.nil_subset _
  case case5 first rest pieces _ _ _ _ dot after hdot =>
    exact fun u hu => Tree.mem_of_dropWhile hdot (trees_afterDot? h hu)
  case case6 first rest pieces _ _ _ _ t hf =>
    cases h
    intro u hu
    have hm : u ∈ pieces.filter (·.head.named) := by
      rw [hf]
      exact hu
    exact (List.mem_filter.mp hm).1

private theorem trees_ofSiblings? {ts : List Tree} {run : PatternRun}
    (h : ofSiblings? ts = some run) : run.trees ⊆ ts :=
  fun _ hu => (List.mem_filter.mp (trees_ofPieces? h hu)).1

/-- A run makes one pattern. -/
theorem lower_builds (hb : below.Sound terms height) (run : PatternRun)
    (hts : ∀ u ∈ run.trees, terms.Admits height u) :
    (run.lower below binding).Builds terms opened [] fun id => [.pattern id] := by
  induction run generalizing binding with
  | binding isLet sub span ih => exact (ih hts).bind fun id => .addPattern
  | optionalSome sub span ih => exact (ih hts).bind fun id => .addPattern
  | isType type span => exact (Builds.writtenType type).bind fun written => .addPattern
  | enumElement name payload span => exact casePattern_builds hb hts
  | single t => exact hb.pattern (hts t List.mem_cons_self)

end PatternRun

/-- A run of siblings makes one pattern or nothing. -/
theorem patternRun_builds (hb : below.Sound terms height) {ts : List Tree}
    (hts : ∀ u ∈ ts, terms.Admits height u) :
    (patternRun below ts binding).Builds terms opened []
      fun sub => (sub.map Node.pattern).toList := by
  unfold patternRun
  split
  case h_1 run h =>
    have hr : ∀ u ∈ run.trees, terms.Admits height u := fun u hu =>
      hts u (PatternRun.trees_ofSiblings? h hu)
    exact (run.lower_builds hb hr).bind fun id => .pure (.refl _)
  case h_2 => exact .pure (.refl _)

/-! ### Patterns that are one tree -/

private theorem unknownPattern_builds (hb : below.Sound terms height)
    (ht : terms.Admits (height + 1) t) :
    (unknownPattern below t).Builds terms opened [] fun id => [.pattern id] :=
  (items_builds hb ht).bind fun _ => .addPattern

/-- The named parts of an admitted tree are admitted. -/
theorem admits_namedParts (ht : terms.Admits (height + 1) t) :
    ∀ u ∈ t.namedParts, terms.Admits height u :=
  fun _ hu => ht.below (Tree.mem_descendants_of_mem_namedParts hu)

private theorem otherPattern_builds (hb : below.Sound terms height)
    (ht : terms.Admits (height + 1) t) :
    (otherPattern below t binding).Builds terms opened [] fun id => [.pattern id] := by
  unfold otherPattern
  split
  · split
    case h_1 single h => exact hb.pattern (admits_namedParts ht _ (by simp [h]))
    case h_2 => exact unknownPattern_builds hb ht
  · exact (exprAt_builds hb ht).bind fun expr => .addPattern

private theorem unboundPattern_builds (hb : below.Sound terms height)
    (ht : terms.Admits (height + 1) t) :
    (unboundPattern below t binding).Builds terms opened [] fun id => [.pattern id] := by
  have hparts := admits_namedParts ht
  simp only [unboundPattern]
  split
  · exact (Builds.writtenType _).bind fun written => .addPattern
  · refine casePattern_builds hb fun u hu => hparts u ?_
    exact (List.dropWhile_sublist _).subset ((List.drop_sublist _ _).subset hu)
  · split
    · exact (Builds.mapM_map fun u hu => hb.pattern (hparts u hu)).bind fun _ => .addPattern
    · split
      case h_1 sub h =>
        split
        · exact (hb.pattern (hparts sub (by simp [h]))).bind fun id => .addPattern
        · exact otherPattern_builds hb ht
      case h_2 => exact otherPattern_builds hb ht

/-- What stands under a binding keyword is one pattern, if it is any. -/
theorem boundPattern_builds (hb : below.Sound terms height) (ht : terms.Admits (height + 1) t)
    (isLet : Bool) :
    (boundPattern below t isLet).Builds terms opened []
      fun sub => (sub.map Node.pattern).toList := by
  have hparts : ∀ u ∈ t.parts, terms.Admits height u := fun u hu =>
    ht.below (Tree.mem_descendants_of_mem_parts hu)
  unfold boundPattern
  extract_lets pieces next
  have hnext : ∀ run : Option PatternId, (next run).Builds terms opened
      (run.map Node.pattern).toList fun sub => (sub.map Node.pattern).toList := by
    intro run
    cases run with
    | some sub => exact .pure (.refl _)
    | none =>
      dsimp only [next]
      split
      case h_1 sub h =>
        have hs := admits_namedParts ht sub (List.mem_of_find?_eq_some h)
        exact (hb.pattern hs).bind fun id => .pure (.refl _)
      case h_2 => exact .pure (.refl _)
  split
  · exact (patternRun_builds hb fun u hu => hparts u (List.mem_filter.mp hu).1).bind hnext
  · exact hnext none

private theorem compoundPattern_builds (hb : below.Sound terms height)
    (ht : terms.Admits (height + 1) t) :
    (compoundPattern below t binding).Builds terms opened [] fun id => [.pattern id] := by
  unfold compoundPattern
  split
  case h_1 isLet _ =>
    refine (boundPattern_builds hb ht isLet).bind fun sub => ?_
    cases sub with
    | some sub => exact .addPattern
    | none => exact unboundPattern_builds hb ht
  case h_2 => exact unboundPattern_builds hb ht

/-- Each kind of pattern makes one pattern. -/
theorem patternAt_builds (hb : below.Sound terms height) (ht : terms.Admits (height + 1) t) :
    (patternAt below t binding).Builds terms opened [] fun id => [.pattern id] := by
  unfold patternAt
  split
  · exact namePattern_builds t binding
  split
  · exact .addPattern
  split
  · exact namePattern_builds _ _
  · exact compoundPattern_builds hb ht

end SwiftRelations.Lowering
