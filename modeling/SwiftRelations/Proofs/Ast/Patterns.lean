import SwiftRelations.Data.List
import SwiftRelations.Proofs.Ast.References
import SwiftRelations.Proofs.Source.Placement

/-!
# Patterns and what they introduce

A named pattern introduces a variable of its own, and the names under a binding introduce what its
keyword says, up to the next binding. `Ast.Introduces` holds of a tree whose patterns do, and
`Ast.Spans` of a pattern that stands around its parts, or in one of two places where it does not.
Both last when the tree grows.
-/

namespace SwiftRelations

/-- Whether a kind of declarations is that of variables. -/
def DeclKind.isVar : DeclKind → Bool
  | .var .. => true
  | _ => false

/-- Whether the patterns of a kind are put together of others, or of another and an annotation. -/
def PatternKind.isComposed : PatternKind → Bool
  | .typed .. => true
  | .binding .. => true
  | .tuple _ => true
  | .optionalSome _ => true
  | .enumElement .. => true
  | _ => false

/-- The flag for the patterns in a pattern that is lowered with a flag. -/
def PatternKind.flagBelow (flag : Option Bool) : PatternKind → Option Bool
  | .binding isLet _ => some isLet
  | _ => flag

/-- A pattern is put together of patterns and annotations. -/
theorem PatternKind.eq_of_mem_nodes {kind : PatternKind} {node : Node} (hk : kind.isComposed)
    (hn : node ∈ kind.nodes) :
    (∃ id, node = .pattern id) ∨ ∃ written, node = .writtenType written := by
  cases kind with
  | typed sub written =>
    simp only [nodes, List.mem_cons, List.not_mem_nil, or_false] at hn
    exact hn.imp (⟨sub, ·⟩) (⟨written, ·⟩)
  | binding isLet sub => exact .inl ⟨sub, List.mem_singleton.mp hn⟩
  | optionalSome sub => exact .inl ⟨sub, List.mem_singleton.mp hn⟩
  | tuple elements =>
    obtain ⟨id, -, rfl⟩ := List.mem_map.mp hn
    exact .inl ⟨id, rfl⟩
  | enumElement name sub =>
    obtain ⟨id, -, rfl⟩ := Option.map_eq_some_iff.mp (Option.mem_toList.mp hn)
    exact .inl ⟨id, rfl⟩
  | _ => cases hk

namespace Ast

/-! ### What lasts when a tree grows -/

/-- Whether a declaration is one of the tree and no variable. -/
def HasPlain (ast : Ast) (id : DeclId) : Prop :=
  ∃ decl, ast.decl? id = some decl ∧ decl.kind.isVar = false

/-- Whether a tree has the patterns, the annotations and the variables of another, and no variable
in the place of another declaration. -/
structure Retains (ast ast' : Ast) : Prop where
  patterns : ∀ {id pattern}, ast.pattern? id = some pattern → ast'.pattern? id = some pattern
  reprs : ∀ {id repr}, ast.typeRepr? id = some repr → ast'.typeRepr? id = some repr
  vars : ∀ {id decl}, ast.decl? id = some decl → decl.kind.isVar → ast'.decl? id = some decl
  plain : ∀ {id}, ast.HasPlain id → ast'.HasPlain id

variable {ast ast' ast'' : Ast} {root : Tree}

namespace Retains

/-- A tree retains what it has. -/
theorem refl (ast : Ast) : ast.Retains ast := ⟨id, id, fun h _ => h, id⟩

/-- What is retained in two steps is retained. -/
theorem trans (h : ast.Retains ast') (h' : ast'.Retains ast'') : ast.Retains ast'' :=
  ⟨h'.patterns ∘ h.patterns, h'.reprs ∘ h.reprs, fun hd hv => h'.vars (h.vars hd hv) hv,
    h'.plain ∘ h.plain⟩

/-- What else a tree holds does not matter. -/
theorem of_eq (hd : ast'.decls = ast.decls) (hp : ast'.patterns = ast.patterns)
    (ht : ast'.typeReprs = ast.typeReprs) : ast.Retains ast' := by
  constructor <;> simp +contextual [HasPlain, decl?, pattern?, typeRepr?, hd, hp, ht]

/-- A declaration may be added. -/
theorem addDecl (ast : Ast) (kind : DeclKind) (span : Option Span) :
    ast.Retains (ast.addDecl kind span).2 := by
  have hlast : ∀ {id decl}, ast.decl? id = some decl →
      (ast.addDecl kind span).2.decl? id = some decl := fun h => Array.getElem?_push_of_eq_some h
  exact ⟨id, id, fun h _ => hlast h, fun ⟨decl, h, hk⟩ => ⟨decl, hlast h, hk⟩⟩

/-- A pattern may be added. -/
theorem addPattern (ast : Ast) (kind : PatternKind) (span : Option Span) :
    ast.Retains (ast.addPattern kind span).2 :=
  ⟨fun h => Array.getElem?_push_of_eq_some h, id, fun h _ => h, id⟩

/-- An annotation may be added. -/
theorem addTypeRepr (ast : Ast) (text : String) (span : Option Span) :
    ast.Retains (ast.addTypeRepr text span).2 :=
  ⟨id, fun h => Array.getElem?_push_of_eq_some h, fun h _ => h, id⟩

/-- A declaration that is no variable may be replaced by another one. -/
theorem setDeclKind {id : DeclId} {kind : DeclKind} (hp : ast.HasPlain id)
    (hk : kind.isVar = false) : ast.Retains (ast.setDeclKind id kind) := by
  have hother : ∀ {other}, other ≠ id →
      (ast.setDeclKind id kind).decl? other = ast.decl? other := by
    rintro ⟨i⟩ hne
    have hne : id.index ≠ i := fun he => hne (congrArg DeclId.mk he.symm)
    simp [Ast.setDeclKind, decl?, Array.getElem?_modify, hne]
  obtain ⟨decl, hd, hv⟩ := hp
  refine ⟨fun h => h, fun h => h, fun {other found} h hf => ?_, fun {other} h => ?_⟩
  · rw [hother ?_, h]
    rintro rfl
    rw [h] at hd
    cases hd
    rw [hv] at hf
    cases hf
  · by_cases he : other = id
    · subst he
      refine ⟨{ decl with kind }, ?_, hk⟩
      simp [Ast.setDeclKind, decl?, Array.getElem?_modify] at hd ⊢
      exact ⟨decl, hd, rfl⟩
    · rwa [HasPlain, hother he]

end Retains

/-! ### Names under bindings -/

/-- Whether a pattern is another or stands in it, and no binding stands around the one in the
other. -/
inductive Reaches (ast : Ast) : PatternId → PatternId → Prop where
  | refl (id : PatternId) : Reaches ast id id
  | step {id sub target : PatternId} {pattern : Pattern} (h : ast.pattern? id = some pattern)
      (hk : ∀ isLet sub, pattern.kind ≠ .binding isLet sub) (hs : .pattern sub ∈ pattern.kind.nodes)
      (ht : Reaches ast sub target) : Reaches ast id target

/-- Whether a pattern stands under a binding with a keyword, and no other binding between them. -/
def NearestBinding (ast : Ast) (id : PatternId) (isLet : Bool) : Prop :=
  ∃ outer sub span, ast.pattern? outer = some ⟨.binding isLet sub, span⟩ ∧ ast.Reaches sub id

/-- Whether all names in a pattern, those under other bindings apart, introduce what a keyword
says. -/
inductive Uniform (ast : Ast) (isLet : Bool) : PatternId → Prop where
  | binding {id sub : PatternId} {other : Bool} {span : Option Span}
      (h : ast.pattern? id = some ⟨.binding other sub, span⟩) : Uniform ast isLet id
  | named {id : PatternId} {name : String} {var : DeclId} {type : Option TypeId}
      {span : Option Span} (h : ast.pattern? id = some ⟨.named name (some var), span⟩)
      (hv : ast.decl? var = some ⟨.var name isLet type, span⟩) : Uniform ast isLet id
  | other {id : PatternId} {pattern : Pattern} (h : ast.pattern? id = some pattern)
      (hk : ∀ name var, pattern.kind ≠ .named name var)
      (hs : ∀ sub, .pattern sub ∈ pattern.kind.nodes → Uniform ast isLet sub) :
      Uniform ast isLet id

/-- A pattern whose names introduce what a keyword says stays so. -/
theorem Uniform.mono {isLet : Bool} {id : PatternId} (h : ast.Uniform isLet id)
    (hr : ast.Retains ast') : ast'.Uniform isLet id := by
  induction h with
  | binding h => exact .binding (hr.patterns h)
  | named h hv => exact .named (hr.patterns h) (hr.vars hv rfl)
  | other h hk _ ih => exact .other (hr.patterns h) hk ih

/-- The names that a uniform pattern reaches introduce what its keyword says. By induction on the
way to the name. -/
theorem Uniform.eq_of_reaches {isLet other : Bool} {id target : PatternId} {name name' : String}
    {var : DeclId} {type : Option TypeId} {span span' : Option Span} (h : ast.Uniform isLet id)
    (hr : ast.Reaches id target) (ht : ast.pattern? target = some ⟨.named name (some var), span⟩)
    (hv : ast.decl? var = some ⟨.var name' other type, span'⟩) : other = isLet := by
  induction hr with
  | refl id =>
    cases h with
    | binding h => simp [ht] at h
    | named h hv' =>
      rw [ht] at h
      cases h
      rw [hv] at hv'
      cases hv'
      rfl
    | other h hk =>
      rw [ht] at h
      cases h
      exact absurd rfl (hk _ _)
  | step hp hk hs _ ih =>
    cases h with
    | binding h =>
      rw [hp] at h
      cases h
      exact absurd rfl (hk _ _)
    | named h _ =>
      rw [hp] at h
      cases h
      simp [PatternKind.nodes] at hs
    | other h _ hu =>
      rw [hp] at h
      cases h
      exact ih (hu _ hs) ht

/-- Whether each named pattern of a tree introduces a variable of its own, all variables are
introduced by one, and the names under a binding introduce what its keyword says. -/
structure Introduces (ast : Ast) : Prop where
  var : ∀ {id name var? span}, ast.pattern? id = some ⟨.named name var?, span⟩ →
    ∃ var isLet type, var? = some var ∧ ast.decl? var = some ⟨.var name isLet type, span⟩
  unique : ∀ {id id' name name' var span span'},
    ast.pattern? id = some ⟨.named name (some var), span⟩ →
    ast.pattern? id' = some ⟨.named name' (some var), span'⟩ → id' = id
  named : ∀ {var name isLet type span}, ast.decl? var = some ⟨.var name isLet type, span⟩ →
    ∃ id, ast.pattern? id = some ⟨.named name (some var), span⟩
  uniform : ∀ {id isLet sub span}, ast.pattern? id = some ⟨.binding isLet sub, span⟩ →
    ast.Uniform isLet sub

/-! ### Spans of patterns -/

/-- Whether a node stands inside a span. -/
def InSpan (ast : Ast) (node : Node) (outer : Span) : Prop :=
  ∃ inner, ast.spanOf node = some inner ∧ inner.Within outer

/-- Whether a pattern stands around its parts. It need not where the type of a name stands beside it
in the source and not in the same tree: in a condition it has the place of the name, and in a loop
the place from the name to the type, also when the type stands first. -/
inductive Spans (root : Tree) (ast : Ast) (pattern : Pattern) : Prop where
  | parts {outer : Span} (span : pattern.span = some outer)
      (inside : ∀ node ∈ pattern.kind.nodes, ast.InSpan node outer)
  | condition {sub : PatternId} {written : WrittenType} {t name ascription : Tree}
      (kind : pattern.kind = .typed sub written) (below : t ∈ root.subtrees)
      (statement : t.kind ∈ ["if_statement", "guard_statement", "while_statement"])
      (name_mem : name ∈ t.children) (ascription_mem : ascription ∈ t.children)
      (ascription_kind : ascription.kind = "type_annotation")
      (span : pattern.span = some name.span) (sub_inside : ast.InSpan (.pattern sub) name.span)
      (type_inside : ast.InSpan (.writtenType written) ascription.span)
  | loop {sub : PatternId} {written : WrittenType} {t item ascription : Tree}
      (kind : pattern.kind = .typed sub written) (below : t ∈ root.subtrees)
      (statement : t.kind = "for_statement") (item_mem : item ∈ t.children)
      (ascription_mem : ascription ∈ t.children)
      (ascription_kind : ascription.kind = "type_annotation") (reversed : ascription.Precedes item)
      (span : pattern.span = some (item.span.cover ascription.span))
      (sub_inside : ast.InSpan (.pattern sub) item.span)
      (type_inside : ast.InSpan (.writtenType written) ascription.span)

/-- What is in a span is in a wider one. -/
theorem InSpan.within {node : Node} {middle outer : Span} (h : ast.InSpan node middle)
    (hw : middle.Within outer) : ast.InSpan node outer := by
  obtain ⟨inner, hs, hi⟩ := h
  exact ⟨inner, hs, hi.trans hw⟩

private theorem InSpan.pattern {id : PatternId} {outer : Span} (h : ast.InSpan (.pattern id) outer)
    (hr : ast.Retains ast') : ast'.InSpan (.pattern id) outer := by
  obtain ⟨inner, hs, hi⟩ := h
  obtain ⟨pattern, hp, hs⟩ := Option.bind_eq_some_iff.mp hs
  exact ⟨inner, Option.bind_eq_some_iff.mpr ⟨pattern, hr.patterns hp, hs⟩, hi⟩

/-- An annotation in a span stays there. -/
theorem InSpan.writtenType {written : WrittenType} {outer : Span}
    (h : ast.InSpan (.writtenType written) outer) (hr : ast.Retains ast') :
    ast'.InSpan (.writtenType written) outer := by
  obtain ⟨inner, hs, hi⟩ := h
  obtain ⟨repr, ht, hs⟩ := Option.bind_eq_some_iff.mp hs
  exact ⟨inner, Option.bind_eq_some_iff.mpr ⟨repr, hr.reprs ht, hs⟩, hi⟩

private theorem Spans.mono {pattern : Pattern} (hk : pattern.kind.isComposed)
    (h : ast.Spans root pattern) (hr : ast.Retains ast') : ast'.Spans root pattern := by
  cases h with
  | parts span inside =>
    refine .parts span fun node hn => ?_
    rcases PatternKind.eq_of_mem_nodes hk hn with ⟨id, rfl⟩ | ⟨written, rfl⟩
    · exact (inside _ hn).pattern hr
    · exact (inside _ hn).writtenType hr
  | condition kind below statement hname hascription hkind span hsub htype =>
    exact .condition kind below statement hname hascription hkind span (hsub.pattern hr)
      (htype.writtenType hr)
  | loop kind below statement hitem hascription hkind reversed span hsub htype =>
    exact .loop kind below statement hitem hascription hkind reversed span (hsub.pattern hr)
      (htype.writtenType hr)

/-! ### Well-formed patterns -/

/-- Whether the patterns of a tree introduce what they should, and stand where they should if the
tree they come from is placed. -/
structure Formed (root : Tree) (ast : Ast) : Prop where
  introduces : ast.Introduces
  spans : root.Placed → ∀ {id pattern}, ast.pattern? id = some pattern →
    pattern.kind.isComposed → ast.Spans root pattern

/-- Nothing is said of trees that grow by other nodes than patterns and variables. -/
theorem Formed.retain (h : ast.Formed root) (hr : ast.Retains ast')
    (hp : ∀ id, ast'.pattern? id = ast.pattern? id)
    (hv : ∀ {id decl}, ast'.decl? id = some decl → decl.kind.isVar → ast.decl? id = some decl) :
    ast'.Formed root where
  introduces := by
    refine ⟨fun hn => ?_, fun hn hn' => ?_, fun hd => ?_, fun hb => ?_⟩
    · rw [hp] at hn
      obtain ⟨var, isLet, type, rfl, hd⟩ := h.introduces.var hn
      exact ⟨var, isLet, type, rfl, hr.vars hd rfl⟩
    · rw [hp] at hn hn'
      exact h.introduces.unique hn hn'
    · obtain ⟨id, hn⟩ := h.introduces.named (hv hd rfl)
      exact ⟨id, hr.patterns hn⟩
    · rw [hp] at hb
      exact (h.introduces.uniform hb).mono hr
  spans placed id pattern hpattern hk := by
    rw [hp] at hpattern
    exact (h.spans placed hpattern hk).mono hk hr

/-- A declaration of a tree with another at its end. -/
theorem decl?_addDecl (ast : Ast) (kind : DeclKind) (span : Option Span) (id : DeclId) :
    (ast.addDecl kind span).2.decl? id =
      if id = ⟨ast.decls.size⟩ then some ⟨kind, span⟩ else ast.decl? id := by
  obtain ⟨i⟩ := id
  simp [addDecl, decl?, Array.getElem?_push]

/-- A declaration that is no variable may be added. -/
theorem Formed.addDecl {kind : DeclKind} {span : Option Span} (h : ast.Formed root)
    (hk : kind.isVar = false) : (ast.addDecl kind span).2.Formed root := by
  refine h.retain (.addDecl ast kind span) (fun _ => rfl) fun {id decl} hd hv => ?_
  rw [decl?_addDecl] at hd
  split at hd
  · cases hd
    rw [hk] at hv
    cases hv
  · exact hd

/-- A declaration that is no variable may be replaced by another one. -/
theorem Formed.setDeclKind {id : DeclId} {kind : DeclKind} (h : ast.Formed root)
    (hp : ast.HasPlain id) (hk : kind.isVar = false) : (ast.setDeclKind id kind).Formed root := by
  refine h.retain (.setDeclKind hp hk) (fun _ => rfl) fun {other decl} hd hv => ?_
  simp only [decl?, Ast.setDeclKind, Array.getElem?_modify] at hd ⊢
  split at hd
  · obtain ⟨_, -, rfl⟩ := Option.map_eq_some_iff.mp hd
    rw [hk] at hv
    cases hv
  · exact hd

/-- A pattern of a tree with another at its end. -/
theorem pattern?_addPattern (ast : Ast) (kind : PatternKind) (span : Option Span) (id : PatternId) :
    (ast.addPattern kind span).2.pattern? id =
      if id = ⟨ast.patterns.size⟩ then some ⟨kind, span⟩ else ast.pattern? id := by
  obtain ⟨i⟩ := id
  simp [addPattern, pattern?, Array.getElem?_push]

/-- A pattern that is no name may be added. -/
theorem Formed.addPattern {kind : PatternKind} {span : Option Span} (h : ast.Formed root)
    (hk : ∀ name var, kind ≠ .named name var)
    (hu : ∀ isLet sub, kind = .binding isLet sub → ast.Uniform isLet sub)
    (hs : root.Placed → kind.isComposed → ast.Spans root ⟨kind, span⟩) :
    (ast.addPattern kind span).2.Formed root where
  introduces := by
    have hr := Retains.addPattern ast kind span
    have hnamed : ∀ {id name var span'},
        (ast.addPattern kind span).2.pattern? id = some ⟨.named name var, span'⟩ →
        ast.pattern? id = some ⟨.named name var, span'⟩ := by
      intro id name var span' hn
      rw [pattern?_addPattern] at hn
      split at hn
      · cases hn
        exact absurd rfl (hk name var)
      · exact hn
    refine ⟨fun hn => ?_, fun hn hn' => ?_, fun hd => ?_, fun {id isLet sub span'} hb => ?_⟩
    · obtain ⟨var, isLet, type, rfl, hd⟩ := h.introduces.var (hnamed hn)
      exact ⟨var, isLet, type, rfl, hd⟩
    · exact h.introduces.unique (hnamed hn) (hnamed hn')
    · obtain ⟨id, hn⟩ := h.introduces.named hd
      exact ⟨id, hr.patterns hn⟩
    · rw [pattern?_addPattern] at hb
      split at hb
      · cases hb
        exact (hu isLet sub rfl).mono hr
      · exact (h.introduces.uniform hb).mono hr
  spans placed id pattern hpattern hc := by
    have hr := Retains.addPattern ast kind span
    rw [pattern?_addPattern] at hpattern
    split at hpattern
    · cases hpattern
      exact (hs placed hc).mono hc hr
    · exact (h.spans placed hpattern hc).mono hc hr

/-- The tree with a new variable and the pattern that names it. -/
def addVariable (ast : Ast) (name : String) (isLet : Bool) (type : Option TypeId) (span : Span) :
    Ast :=
  ((ast.addDecl (.var name isLet type) (some span)).2.addPattern
    (.named name (some ⟨ast.decls.size⟩)) (some span)).2

section

variable (ast : Ast) (name : String) (isLet : Bool) (type : Option TypeId) (span : Span)

/-- A variable that is added adds the pattern that names it, and no other. -/
theorem pattern?_addVariable (id : PatternId) :
    (ast.addVariable name isLet type span).pattern? id =
      if id = ⟨ast.patterns.size⟩ then some ⟨.named name (some ⟨ast.decls.size⟩), some span⟩
      else ast.pattern? id :=
  pattern?_addPattern (ast.addDecl (.var name isLet type) (some span)).2 _ _ id

/-- A variable that is added is the only new declaration. -/
theorem decl?_addVariable (id : DeclId) :
    (ast.addVariable name isLet type span).decl? id =
      if id = ⟨ast.decls.size⟩ then some ⟨.var name isLet type, some span⟩ else ast.decl? id := by
  obtain ⟨i⟩ := id
  simp [addVariable, addPattern, addDecl, decl?, Array.getElem?_push]

/-- A variable that is added changes nothing that is there. -/
theorem retains_addVariable : ast.Retains (ast.addVariable name isLet type span) :=
  (Retains.addDecl ast _ _).trans (Retains.addPattern _ _ _)

end

/-- A new variable belongs to the pattern that is made with it, and to no other: those before name
variables of the tree. -/
theorem Formed.addVariable {name : String} {isLet : Bool} {type : Option TypeId} {span : Span}
    (h : ast.Formed root) : (ast.addVariable name isLet type span).Formed root where
  introduces := by
    have hr := ast.retains_addVariable name isLet type span
    have hfresh : ast.decl? ⟨ast.decls.size⟩ = none := by simp [decl?]
    have hold : ∀ {id name' span'},
        ast.pattern? id ≠ some ⟨.named name' (some ⟨ast.decls.size⟩), span'⟩ := by
      intro id name' span' hn
      obtain ⟨var, _, _, hvar, hd⟩ := h.introduces.var hn
      cases hvar
      rw [hfresh] at hd
      cases hd
    refine ⟨fun hn => ?_, fun {id id' name name' var span span'} hn hn' => ?_, fun hd => ?_,
      fun hb => ?_⟩
    · rw [pattern?_addVariable] at hn
      split at hn
      · cases hn
        exact ⟨_, isLet, type, rfl, by simp [decl?_addVariable]⟩
      · obtain ⟨var, isLet, type, rfl, hd⟩ := h.introduces.var hn
        exact ⟨var, isLet, type, rfl, hr.vars hd rfl⟩
    · rw [pattern?_addVariable] at hn hn'
      split at hn <;> split at hn'
      case isTrue.isTrue he he' => rw [he, he']
      case isTrue.isFalse =>
        cases hn
        exact absurd hn' hold
      case isFalse.isTrue =>
        cases hn'
        exact absurd hn hold
      case isFalse.isFalse => exact h.introduces.unique hn hn'
    · rw [decl?_addVariable] at hd
      split at hd
      case isTrue he =>
        cases hd
        exact ⟨⟨ast.patterns.size⟩, by simp [pattern?_addVariable, he]⟩
      case isFalse =>
        obtain ⟨id, hn⟩ := h.introduces.named hd
        exact ⟨id, hr.patterns hn⟩
    · rw [pattern?_addVariable] at hb
      split at hb
      · cases hb
      · exact (h.introduces.uniform hb).mono hr
  spans placed id pattern hpattern hc := by
    have hr := ast.retains_addVariable name isLet type span
    rw [pattern?_addVariable] at hpattern
    split at hpattern
    · cases hpattern
      cases hc
    · exact (h.spans placed hpattern hc).mono hc hr

/-- Whether the names in a pattern introduce what a flag says, if it says something, and the pattern
stands inside a span if the tree it comes from is placed. -/
structure Fits (root : Tree) (ast : Ast) (id : PatternId) (flag : Option Bool) (outer : Span) :
    Prop where
  uniform : ∀ isLet, flag = some isLet → ast.Uniform isLet id
  inside : root.Placed → ast.InSpan (.pattern id) outer

/-- A pattern that fits stays so while the tree retains what it has. -/
theorem Fits.mono {id : PatternId} {flag : Option Bool} {outer : Span}
    (h : ast.Fits root id flag outer) (hr : ast.Retains ast') : ast'.Fits root id flag outer :=
  ⟨fun isLet hf => (h.uniform isLet hf).mono hr, fun hp => (h.inside hp).pattern hr⟩

/-- A pattern that fits a span fits a wider one. -/
theorem Fits.within {id : PatternId} {flag : Option Bool} {middle outer : Span}
    (h : ast.Fits root id flag middle) (hw : root.Placed → middle.Within outer) :
    ast.Fits root id flag outer :=
  ⟨h.uniform, fun hp => (h.inside hp).within (hw hp)⟩

end Ast

end SwiftRelations
