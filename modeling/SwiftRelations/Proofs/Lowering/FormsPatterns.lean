import SwiftRelations.Proofs.Lowering.Forms

/-!
# Rules for patterns form them well

A pattern that is lowered with a flag and for a tree fits both: the names in it introduce what the
flag says, and it stands inside the tree. The pieces of a pattern are siblings one after the other,
so that the span from the first of them to the last covers the patterns made of any.
-/

namespace SwiftRelations.Lowering

open SwiftRelations.Text SwiftRelations.Lower

variable {root : Tree} {height : Nat} {below : Below} {t : Tree} {ts us : List Tree}
  {outer : Span} {binding : Option Bool} {s : State}

/-! ### Siblings -/

/-- Whether some trees are admitted and stand one after the other inside a span, if the tree they
come from is placed. -/
structure Siblings (root : Tree) (height : Nat) (ts : List Tree) (outer : Span) : Prop where
  admits : ∀ u ∈ ts, (Terms.under root).Admits height u
  ordered : root.Placed → ts.Pairwise Tree.Precedes
  inside : root.Placed → ∀ u ∈ ts, u.span.Within outer

namespace Siblings

private theorem sublist (h : Siblings root height ts outer) (hs : us.Sublist ts) :
    Siblings root height us outer where
  admits u hu := h.admits u (hs.subset hu)
  ordered hp := (h.ordered hp).sublist hs
  inside hp _ hu := h.inside hp _ (hs.subset hu)

/-- The span from the first of some siblings to the last covers all of them, and what covers all
covers it. -/
theorem exists_spanOfAll? (h : Siblings root height ts outer) (hne : ts ≠ []) :
    ∃ span, spanOfAll? ts = some span ∧ Siblings root height ts span ∧
      (root.Placed → span.Within outer) := by
  obtain ⟨first, hfirst⟩ : ∃ first, ts.head? = some first := ⟨_, List.head?_eq_some_head hne⟩
  obtain ⟨last, hlast⟩ : ∃ last, ts.getLast? = some last := ⟨_, List.getLast?_eq_some_getLast hne⟩
  refine ⟨first.span.cover last.span, by rw [spanOfAll?, hfirst, hlast],
    ⟨h.admits, h.ordered, fun hp u hu => ⟨?_, ?_⟩⟩, fun hp => .cover ?_ ?_⟩
  · obtain ⟨rest, rfl⟩ := List.head?_eq_some_iff.mp hfirst
    rcases List.mem_cons.mp hu with rfl | hu
    · exact Nat.le_refl _
    · exact (List.rel_of_pairwise_cons (h.ordered hp) hu).start_le
  · obtain ⟨init, rfl⟩ := List.getLast?_eq_some_iff.mp hlast
    rcases List.mem_append.mp hu with hu | hu
    · have hpairs := (List.pairwise_append.mp (h.ordered hp)).2.2
      exact (hpairs u hu last List.mem_cons_self).end_le
    · rw [List.mem_singleton.mp hu]
      exact Nat.le_refl _
  · exact h.inside hp first (List.mem_of_mem_head? hfirst)
  · exact h.inside hp last (List.mem_of_getLast? hlast)

/-- A pattern among siblings stands inside what they stand inside. -/
theorem fits (h : Siblings root height ts outer) (hb : below.Forms root height)
    (binding : Option Bool) (ht : t ∈ ts) :
    (below.pattern t binding).FormsFrom root s fun id ast => ast.Fits root id binding outer :=
  (hb.fits binding (h.admits t ht)).imp fun _ _ _ hf => hf.within fun hp => h.inside hp t ht

end Siblings

/-- Children of a tree are siblings inside it. -/
theorem siblings_of_sublist (ht : (Terms.under root).Admits (height + 1) t)
    (hs : ts.Sublist t.children) : Siblings root height ts t.span where
  admits _ hu := ht.below (Tree.mem_descendants_of_mem_children (hs.subset hu))
  ordered hp := (ht.placed hp).pairwise_precedes hs
  inside hp _ hu := (ht.placed hp).self.inside _ (hs.subset hu)

/-! ### Making patterns -/

/-- A pattern that is no name fits a flag if its parts do, and stands where its span is. -/
theorem addPattern_fits {kind : PatternKind} {span : Option Span}
    (hk : ∀ name var, kind ≠ .named name var)
    (hu : ∀ id, .pattern id ∈ kind.nodes →
      ∀ isLet, kind.flagBelow binding = some isLet → s.ast.Uniform isLet id)
    (hs : root.Placed → kind.isComposed → s.ast.Spans root ⟨kind, span⟩)
    (hin : root.Placed → ∃ inner, span = some inner ∧ inner.Within outer) :
    (Lower.addPattern kind span).FormsFrom root s fun id ast => ast.Fits root id binding outer := by
  intro hformed a s' hr
  cases hr
  have hret : s.ast.Retains (s.ast.addPattern kind span).2 := .addPattern _ _ _
  have hnew : (s.ast.addPattern kind span).2.pattern? ⟨s.ast.patterns.size⟩ =
      some ⟨kind, span⟩ := (s.ast.pattern?_addPattern kind span _).trans (if_pos rfl)
  refine ⟨hret, hformed.addPattern hk ?_ hs, fun isLet hflag => ?_, fun hp => ?_⟩
  · rintro isLet sub rfl
    exact hu sub (by simp [PatternKind.nodes]) isLet rfl
  · by_cases hbinding : ∃ other sub, kind = .binding other sub
    · obtain ⟨other, sub, rfl⟩ := hbinding
      exact .binding hnew
    · have hbelow : kind.flagBelow binding = some isLet := by
        cases kind with
        | binding other sub => exact absurd ⟨other, sub, rfl⟩ hbinding
        | _ => exact hflag
      exact .other hnew hk fun sub hsub => (hu sub hsub isLet hbelow).mono hret
  · obtain ⟨inner, rfl, hw⟩ := hin hp
    exact ⟨inner, Option.bind_eq_some_iff.mpr ⟨_, hnew, rfl⟩, hw⟩

/-- A pattern that stands around its parts fits what they fit. -/
theorem addPattern_fits_parts {kind : PatternKind} {inner : Span}
    (hk : ∀ name var, kind ≠ .named name var)
    (hsub : ∀ id, .pattern id ∈ kind.nodes →
      s.ast.Fits root id (kind.flagBelow binding) inner)
    (htype : kind.isComposed → ∀ written, .writtenType written ∈ kind.nodes →
      root.Placed → s.ast.InSpan (.writtenType written) inner)
    (hin : root.Placed → inner.Within outer) :
    (Lower.addPattern kind (some inner)).FormsFrom root s
      fun id ast => ast.Fits root id binding outer := by
  refine addPattern_fits hk (fun id hid => (hsub id hid).uniform) (fun hp hc => ?_)
    fun hp => ⟨inner, rfl, hin hp⟩
  refine .parts rfl fun node hn => ?_
  rcases PatternKind.eq_of_mem_nodes hc hn with ⟨id, rfl⟩ | ⟨written, rfl⟩
  · exact (hsub id hn).inside hp
  · exact htype hc written hn hp

/-- A pattern without patterns in it fits any flag. -/
theorem addPattern_fits_leaf {kind : PatternKind} {inner : Span}
    (hk : ∀ name var, kind ≠ .named name var) (hn : ∀ id, .pattern id ∉ kind.nodes)
    (hc : kind.isComposed = false) (hin : root.Placed → inner.Within outer) :
    (Lower.addPattern kind (some inner)).FormsFrom root s
      fun id ast => ast.Fits root id binding outer :=
  addPattern_fits_parts hk (fun id hid => absurd hid (hn id)) (by simp [hc]) hin

/-- A pattern around one other stands where that one does. -/
theorem addPattern_fits_around {kind : PatternKind} {sub : PatternId} {inner : Span}
    (hn : kind.nodes = [.pattern sub])
    (hsub : s.ast.Fits root sub (kind.flagBelow binding) inner)
    (hin : root.Placed → inner.Within outer) :
    (Lower.addPattern kind (some inner)).FormsFrom root s
      fun id ast => ast.Fits root id binding outer := by
  refine addPattern_fits_parts ?_ (fun id hid => ?_) (by simp [hn]) hin
  · rintro name var rfl
    cases var <;> simp [PatternKind.nodes] at hn
  · obtain rfl : id = sub := by simpa [hn] using hid
    exact hsub

/-- A tuple stands around its elements. -/
theorem addTuple_fits {ids : List PatternId} {inner : Span}
    (hids : ∀ id ∈ ids, s.ast.Fits root id binding inner)
    (hin : root.Placed → inner.Within outer) :
    (Lower.addPattern (.tuple ids) (some inner)).FormsFrom root s
      fun id ast => ast.Fits root id binding outer :=
  addPattern_fits_parts (by simp) (by simpa [PatternKind.nodes, PatternKind.flagBelow] using hids)
    (by simp [PatternKind.nodes]) hin

/-! ### Names -/

/-- A variable is what its keyword says. -/
theorem newVariable_fits (t : Tree) (isLet : Bool) (type : Option TypeId) :
    (newVariable t isLet type).FormsFrom root s
      fun id ast => ast.Fits root id (some isLet) t.span := by
  intro hs a s' hr
  cases hr
  have hnew := s.ast.pattern?_addVariable (trim t.text) isLet type t.span ⟨s.ast.patterns.size⟩
  have hvar := s.ast.decl?_addVariable (trim t.text) isLet type t.span ⟨s.ast.decls.size⟩
  rw [if_pos rfl] at hnew hvar
  refine ⟨s.ast.retains_addVariable _ _ _ _, hs.addVariable, ?_, fun _ => ⟨t.span, ?_, .refl _⟩⟩
  · rintro _ ⟨⟩
    exact .named hnew hvar
  · exact Option.bind_eq_some_iff.mpr ⟨_, hnew, rfl⟩

private theorem namePattern_fits (t : Tree) (binding : Option Bool) :
    (namePattern t binding).FormsFrom root s fun id ast => ast.Fits root id binding t.span := by
  cases binding with
  | some isLet => exact newVariable_fits t isLet none
  | none =>
    refine FormsFrom.bind (Forms.declRef t _ s) fun expr s' _ _ => ?_
    exact addPattern_fits_leaf (by simp) (by simp [PatternKind.nodes]) rfl fun _ => .refl _

/-! ### Cases of enumerations -/

/-- Several siblings are lowered with one flag. -/
theorem patterns_fit (hb : below.Forms root height) (h : Siblings root height ts outer)
    (binding : Option Bool) :
    (ts.mapM (below.pattern · binding)).FormsFrom root s
      fun ids ast => ∀ id ∈ ids, ast.Fits root id binding outer := by
  exact .mapM (fun u hu s' _ => h.fits hb binding hu) fun _ _ _ hret hf => hf.mono hret

/-- The pattern for a payload stands inside what its trees stand inside. -/
theorem payloadPattern_fits (hb : below.Forms root height) (h : Siblings root height ts outer) :
    (payloadPattern below binding ts).FormsFrom root s
      fun sub ast => ∀ id, sub = some id → ast.Fits root id binding outer := by
  unfold payloadPattern
  split
  case h_1 => exact .pure (by simp)
  case h_2 single =>
    exact (h.fits hb binding List.mem_cons_self).toSome
  case h_3 hnil _ =>
    obtain ⟨span, hspan, hsiblings, hwithin⟩ := h.exists_spanOfAll? hnil
    refine (patterns_fit hb hsiblings binding).bind fun ids s' _ hids => ?_
    rw [hspan]
    exact (addTuple_fits hids hwithin).toSome

private theorem casePattern_fits (hb : below.Forms root height) (name : String) {inner : Span}
    (h : Siblings root height ts inner) (hin : root.Placed → inner.Within outer) :
    (casePattern below name ts binding (some inner)).FormsFrom root s
      fun id ast => ast.Fits root id binding outer := by
  refine (payloadPattern_fits hb h).bind fun sub s' _ hsub => ?_
  refine addPattern_fits_parts (by simp) ?_ ?_ hin
  · intro id hid
    exact hsub id (by simpa [PatternKind.nodes] using hid)
  · simp [PatternKind.nodes]

/-! ### Runs of siblings -/

namespace PatternRun

/-- Whether a run is made of pieces, and so is each run in it of some of them. -/
def Arranged : PatternRun → List Tree → Prop
  | .binding _ sub span, ts =>
    span = spanOfAll? ts ∧ ∃ us, us ≠ [] ∧ us.Sublist ts ∧ sub.Arranged us
  | .optionalSome sub span, ts =>
    span = spanOfAll? ts ∧ ∃ us, us ≠ [] ∧ us.Sublist ts ∧ sub.Arranged us
  | .isType _ span, ts => span = spanOfAll? ts
  | .enumElement _ payload span, ts => span = spanOfAll? ts ∧ payload.Sublist ts
  | .single t, ts => t ∈ ts

private theorem arranged_afterDot? {run : PatternRun} (hs : us.Sublist ts)
    (h : afterDot? us (spanOfAll? ts) = some run) : run.Arranged ts := by
  unfold afterDot? at h
  split at h
  case h_1 name rest hd =>
    cases h
    refine ⟨rfl, List.filter_sublist.trans (.trans ?_ hs)⟩
    exact ((List.sublist_cons_self name rest).trans (hd ▸ List.dropWhile_sublist _))
  case h_2 => cases h

private theorem ne_nil_of_ofPieces? {run : PatternRun} (h : ofPieces? ts = some run) : ts ≠ [] := by
  rintro rfl
  rw [ofPieces?] at h
  cases h

/-- The run that some pieces spell is made of them. -/
theorem arranged_ofPieces? {run : PatternRun} (h : ofPieces? ts = some run) : run.Arranged ts := by
  fun_induction ofPieces? ts generalizing run
  case case1 | case7 => cases h
  case case2 first rest pieces span _ ih =>
    obtain ⟨sub, hs, rfl⟩ := Option.map_eq_some_iff.mp h
    exact ⟨rfl, rest, ne_nil_of_ofPieces? hs, List.sublist_cons_self first rest, ih hs⟩
  case case3 first rest pieces span _ _ ih =>
    obtain ⟨sub, hs, rfl⟩ := Option.map_eq_some_iff.mp h
    exact ⟨rfl, _, ne_nil_of_ofPieces? hs, List.dropLast_sublist pieces, ih hs⟩
  case case4 =>
    obtain ⟨type, -, rfl⟩ := Option.map_eq_some_iff.mp h
    rfl
  case case5 first rest pieces span _ _ _ dot after hdot =>
    exact arranged_afterDot? ((List.sublist_cons_self dot after).trans
      (hdot ▸ List.dropWhile_sublist _)) h
  case case6 first rest pieces _ _ _ _ t hf =>
    cases h
    have hm : t ∈ pieces.filter (·.head.named) := by
      rw [hf]
      exact List.mem_cons_self
    exact (List.mem_filter.mp hm).1

/-- A run forms a pattern that stands inside what its pieces stand inside. By induction on the run:
the pieces of a run in it stand inside the span of its own. -/
theorem lower_fits (hb : below.Forms root height) (run : PatternRun)
    (h : Siblings root height ts outer) (hne : ts ≠ []) (ha : run.Arranged ts) :
    (run.lower below binding).FormsFrom root s fun id ast => ast.Fits root id binding outer := by
  induction run generalizing ts binding outer s with
  | binding isLet sub span ih =>
    obtain ⟨inner, hinner, hsiblings, hwithin⟩ := h.exists_spanOfAll? hne
    obtain ⟨rfl, us, hne, hus, ha⟩ := ha
    refine (ih (hsiblings.sublist hus) hne ha).bind fun id s' _ hid => ?_
    rw [hinner]
    exact addPattern_fits_around rfl hid hwithin
  | optionalSome sub span ih =>
    obtain ⟨inner, hinner, hsiblings, hwithin⟩ := h.exists_spanOfAll? hne
    obtain ⟨rfl, us, hne, hus, ha⟩ := ha
    refine (ih (hsiblings.sublist hus) hne ha).bind fun id s' _ hid => ?_
    rw [hinner]
    exact addPattern_fits_around rfl hid hwithin
  | isType type span =>
    obtain ⟨inner, hinner, -, hwithin⟩ := h.exists_spanOfAll? hne
    obtain rfl := ha
    refine (Forms.writtenType type s).bind fun written s' _ _ => ?_
    rw [hinner]
    exact addPattern_fits_leaf (by simp) (by simp [PatternKind.nodes]) rfl hwithin
  | enumElement name payload span =>
    obtain ⟨inner, hinner, hsiblings, hwithin⟩ := h.exists_spanOfAll? hne
    obtain ⟨rfl, hpayload⟩ := ha
    rw [hinner]
    exact casePattern_fits hb name (hsiblings.sublist hpayload) hwithin
  | single t => exact h.fits hb binding ha

end PatternRun

/-- A run of siblings forms a pattern or nothing. -/
theorem patternRun_fits (hb : below.Forms root height) (h : Siblings root height ts outer) :
    (patternRun below ts binding).FormsFrom root s
      fun sub ast => ∀ id, sub = some id → ast.Fits root id binding outer := by
  unfold patternRun PatternRun.ofSiblings?
  split
  case h_1 run hrun =>
    exact (run.lower_fits hb (h.sublist List.filter_sublist)
      (PatternRun.ne_nil_of_ofPieces? hrun) (PatternRun.arranged_ofPieces? hrun)).toSome
  case h_2 => exact .pure (by simp)

/-! ### Patterns that are one tree -/

/-- The named parts of a tree are siblings in it. -/
theorem siblings_namedParts (ht : (Terms.under root).Admits (height + 1) t) :
    Siblings root height t.namedParts t.span :=
  siblings_of_sublist ht (List.filter_sublist.trans List.filter_sublist)

/-- The children of a tree without a model of its own are no patterns. -/
theorem items_returns (t : Tree) :
    (below.items t).Returns fun nodes => ∀ id, .pattern id ∉ nodes := by
  have hitem : (below.items t).Returns fun nodes => ∀ node ∈ nodes, ∀ id, node ≠ .pattern id := by
    refine .mapM fun child _ => ?_
    split
    · exact .bind .any fun _ _ => .pure (by simp)
    · unfold Below.item
      split
      · exact .bind .any fun _ _ => .pure (by simp)
      split
      · exact .bind .any fun _ _ => .pure (by simp)
      · exact .bind .any fun _ _ => .pure (by simp)
  exact fun s nodes s' hr id hid => hitem s nodes s' hr _ hid id rfl

private theorem unknownPattern_fits (hb : below.Forms root height)
    (ht : (Terms.under root).Admits (height + 1) t) :
    (unknownPattern below t).FormsFrom root s
      fun id ast => ast.Fits root id binding t.span := by
  refine ((items_forms hb ht s).of_returns (items_returns t)).bind fun children s' _ hc => ?_
  exact addPattern_fits_leaf (by simp) hc.2 rfl fun _ => .refl _

private theorem otherPattern_fits (hb : below.Forms root height)
    (ht : (Terms.under root).Admits (height + 1) t) :
    (otherPattern below t binding).FormsFrom root s
      fun id ast => ast.Fits root id binding t.span := by
  unfold otherPattern
  split
  · split
    case h_1 single h =>
      have hsingle : single ∈ t.namedParts := by simp [h]
      exact (siblings_namedParts ht).fits hb binding hsingle
    case h_2 => exact unknownPattern_fits hb ht
  · refine (exprAt_forms hb ht s).bind fun expr s' _ _ => ?_
    exact addPattern_fits_leaf (by simp) (by simp [PatternKind.nodes]) rfl fun _ => .refl _

private theorem unboundPattern_fits (hb : below.Forms root height)
    (ht : (Terms.under root).Admits (height + 1) t) :
    (unboundPattern below t binding).FormsFrom root s
      fun id ast => ast.Fits root id binding t.span := by
  have hparts := siblings_namedParts ht
  simp only [unboundPattern]
  split
  case h_1 =>
    refine (Forms.writtenType _ s).bind fun written s' _ _ => ?_
    exact addPattern_fits_leaf (by simp) (by simp [PatternKind.nodes]) rfl fun _ => .refl _
  case h_2 =>
    refine casePattern_fits hb _ (hparts.sublist ?_) fun _ => .refl _
    exact (List.drop_sublist _ _).trans (List.dropWhile_sublist _)
  case h_3 =>
    split
    · refine (patterns_fit hb hparts binding).bind fun ids s' _ hids => ?_
      exact addTuple_fits hids fun _ => .refl _
    · split
      case h_1 sub h =>
        have hsub : sub ∈ t.namedParts := by simp [h]
        split
        · refine (hparts.fits hb binding hsub).bind fun id s' _ hid => ?_
          exact addPattern_fits_around rfl hid fun _ => .refl _
        · exact otherPattern_fits hb ht
      case h_2 => exact otherPattern_fits hb ht

/-- The pattern under a binding keyword introduces what the keyword says. -/
theorem boundPattern_fits (hb : below.Forms root height)
    (ht : (Terms.under root).Admits (height + 1) t) (isLet : Bool) :
    (boundPattern below t isLet).FormsFrom root s
      fun sub ast => ∀ id, sub = some id → ast.Fits root id (some isLet) t.span := by
  unfold boundPattern
  extract_lets pieces next
  have hpieces : Siblings root height pieces t.span :=
    siblings_of_sublist ht (List.filter_sublist.trans List.filter_sublist)
  have hnext : ∀ (run : Option PatternId) (s' : State),
      (∀ id, run = some id → s'.ast.Fits root id (some isLet) t.span) →
      (next run).FormsFrom root s'
        fun sub ast => ∀ id, sub = some id → ast.Fits root id (some isLet) t.span := by
    intro run s' hrun
    cases run with
    | some sub => exact .pure hrun
    | none =>
      dsimp only [next]
      split
      case h_1 sub h =>
        have hsub := List.mem_of_find?_eq_some h
        exact ((siblings_namedParts ht).fits hb (some isLet) hsub).toSome
      case h_2 => exact .pure (by simp)
  split
  · exact (patternRun_fits hb hpieces).bind fun run s' _ hrun => hnext run s' hrun
  · exact hnext none s (by simp)

private theorem compoundPattern_fits (hb : below.Forms root height)
    (ht : (Terms.under root).Admits (height + 1) t) :
    (compoundPattern below t binding).FormsFrom root s
      fun id ast => ast.Fits root id binding t.span := by
  unfold compoundPattern
  split
  case h_1 isLet _ =>
    refine (boundPattern_fits hb ht isLet).bind fun sub s' _ hsub => ?_
    cases sub with
    | some sub =>
      exact addPattern_fits_around rfl (hsub sub rfl) fun _ => .refl _
    | none => exact unboundPattern_fits hb ht
  case h_2 => exact unboundPattern_fits hb ht

/-- A pattern fits the flag and the tree that it is lowered with. -/
theorem patternAt_fits (hb : below.Forms root height)
    (ht : (Terms.under root).Admits (height + 1) t) (binding : Option Bool) :
    (patternAt below t binding).FormsFrom root s
      fun id ast => ast.Fits root id binding t.span := by
  unfold patternAt
  split
  · exact namePattern_fits t binding
  split
  · exact addPattern_fits_leaf (by simp) (by simp [PatternKind.nodes]) rfl fun _ => .refl _
  split
  case h_1 name hname =>
    refine (namePattern_fits name _).imp fun id ast _ hf => ⟨fun isLet hflag => ?_, fun hp => ?_⟩
    · exact hf.uniform isLet (by rw [hflag, Option.orElse_some])
    · exact (hf.inside hp).within ((ht.placed hp).within_of_mem_descendants
        (Tree.mem_descendants_of_childByField? hname))
  case h_2 => exact compoundPattern_fits hb ht

end SwiftRelations.Lowering
