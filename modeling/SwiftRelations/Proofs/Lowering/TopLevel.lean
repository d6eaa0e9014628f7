import SwiftRelations.Proofs.Lowering.File
import SwiftRelations.Proofs.Lowering.References

/-!
# The top level of a file

The top-level declarations of a file are its declarations and, between them, one declaration for
each run of other items. What is gathered so far is a list of such parts and the run after the last
one, and each item of the file is in one of them. `Gathered` is the invariant of the fold over the
items.
-/

namespace SwiftRelations

/-! ### Top-level code -/

namespace Ast

/-- Whether a declaration is one of top-level code. -/
def IsCode (ast : Ast) (d : DeclId) : Prop :=
  ∃ body span, ast.decl? d = some { kind := .topLevelCode body, span }

/-- What a top-level declaration stands for: the elements of its brace if it is one of top-level
code, and else itself. -/
def unwrap (ast : Ast) (d : DeclId) : List Node :=
  match ast.decl? d with
  | some { kind := .topLevelCode body, .. } =>
    match ast.stmt? body with
    | some { kind := .brace elements, .. } => elements
    | _ => []
  | _ => [.decl d]

end Ast

namespace Lowering

open Lower

/-- An item of a file: a tree, and the node that it is lowered to. -/
structure Item where
  tree : Tree
  node : Node

/-- A part of the top level: a declaration, or top-level code that is made of a run of items. -/
inductive Part where
  | item (tree : Tree) (decl : DeclId)
  | code (run : List Item) (decl : DeclId)

namespace Part

/-- The top-level declaration for a part. -/
def decl : Part → DeclId
  | item _ decl => decl
  | code _ decl => decl

/-- The items that a part is made of. -/
def items : Part → List Item
  | item tree decl => [⟨tree, .decl decl⟩]
  | code run _ => run

/-- Whether two parts are not both of top-level code. -/
def Apart : Part → Part → Prop
  | code .., code .. => False
  | _, _ => True

/-- Whether a part is what a syntax tree holds for it. Top-level code is made of at least one item,
and of no declaration, and goes from the start of the first tree of its run to the end of the
last. -/
def Stands (ast : Ast) : Part → Prop
  | item _ decl => (∃ d, ast.decl? decl = some d) ∧ ¬ ast.IsCode decl
  | code run decl => run ≠ [] ∧ (∀ item ∈ run, ∀ d, item.node ≠ .decl d) ∧ ∃ body,
      ast.decl? decl = some { kind := .topLevelCode body, span := spanOfAll? (run.map Item.tree) } ∧
      ast.stmt? body =
        some { kind := .brace (run.map Item.node), span := spanOfAll? (run.map Item.tree) }

end Part

variable {below : Below} {s s₁ s₂ : State} {items items' : List Item} {ast ast' : Ast} {part : Part}

/-- From one state to another the items of a file are lowered, one after the other. In between,
runs of them may be wrapped. -/
inductive Lowers (below : Below) : State → List Item → State → Prop
  | done (s : State) : Lowers below s [] s
  | item {s s₁ s₂ : State} {t : Tree} {node : Node} {items : List Item} :
    below.item t s = .ok (node, s₁) → Lowers below s₁ items s₂ →
      Lowers below s (⟨t, node⟩ :: items) s₂
  | wrap {s s₁ s₂ : State} {top top' : TopLevel} {items : List Item} :
    top.flush s = .ok (top', s₁) → Lowers below s₁ items s₂ → Lowers below s items s₂

private theorem Lowers.append (h : Lowers below s items s₁) (h' : Lowers below s₁ items' s₂) :
    Lowers below s (items ++ items') s₂ := by
  induction h with
  | done s => exact h'
  | item hitem _ ih => exact .item hitem (ih h')
  | wrap hflush _ ih => exact .wrap hflush (ih h')

/-- What stands in a tree stands in it for good. -/
theorem Part.Stands.kept (h : part.Stands ast) (hk : Ast.Kept ∅ ast ast') : part.Stands ast' := by
  cases part with
  | item tree d =>
    obtain ⟨⟨decl, hd⟩, hcode⟩ := h
    have hd' := hk.decl?_eq_some (by simp) hd
    refine ⟨⟨decl, hd'⟩, ?_⟩
    rintro ⟨body, span, hcode'⟩
    cases hd'.symm.trans hcode'
    exact hcode ⟨body, span, hd⟩
  | code run d =>
    obtain ⟨hne, hnodes, body, hd, hbody⟩ := h
    exact ⟨hne, hnodes, body, hk.decl?_eq_some (by simp) hd, hk.stmt?_eq_some (by simp) hbody⟩

/-! ### What the rules make -/

/-- A declaration that is made is one of top-level code only if it is made as one. -/
theorem not_isCode_addDecl {kind : DeclKind} {span : Span} (h : ∀ body, kind ≠ .topLevelCode body) :
    (Lower.addDecl kind span).Leaves s fun d ast => ¬ ast.IsCode d := by
  rintro _ _ ⟨⟩ ⟨body, span, hd⟩
  simp only [Ast.decl?, Array.getElem?_push_size, Option.some.injEq,
    Decl.mk.injEq] at hd
  exact h body hd.1

/-- A declaration whose kind is replaced is one of top-level code only if that is its kind. -/
theorem not_isCode_setDeclKind {d : DeclId} {kind : DeclKind}
    (h : ∀ body, kind ≠ .topLevelCode body) :
    (Lower.setDeclKind d kind >>= fun _ => Pure.pure d).Leaves s fun d ast => ¬ ast.IsCode d := by
  rintro _ _ ⟨⟩ ⟨body, span, hd⟩
  obtain ⟨decl, -, hk⟩ := Option.map_eq_some_iff.mp ((s.ast.decl?_setDeclKind d kind).symm.trans hd)
  exact h body (congrArg Decl.kind hk)

/-- The rules for declarations make no top-level code. -/
theorem declAt_not_isCode (below : Below) (t : Tree) (s : State) :
    (declAt below t).Leaves s fun d ast => ¬ ast.IsCode d := by
  unfold declAt
  split
  case h_1 => exact not_isCode_addDecl (by simp)
  case h_2 | h_3 | h_4 | h_5 =>
    exact .bind fun d _ _ => .bind fun _ _ _ => .bind fun r _ _ => not_isCode_setDeclKind (by simp)
  case h_6 | h_7 =>
    refine .bind fun inherited _ _ => .bind fun d _ _ => ?_
    split
    · exact .bind fun _ _ _ => .bind fun members _ _ => not_isCode_setDeclKind (by simp)
    · exact .bind fun members _ _ => not_isCode_setDeclKind (by simp)
  case h_8 | h_9 => exact .bind fun entries _ _ => not_isCode_addDecl (by simp)
  case h_10 =>
    refine .bind fun written _ _ => .bind fun d _ hd => .bind fun _ _ hdeclare => .pure ?_
    have hcode := not_isCode_addDecl (fun body h => by cases h) d _ hd
    cases hdeclare
    exact hcode
  case h_11 => exact not_isCode_addDecl (by simp)
  case h_12 => exact .bind fun children _ _ => not_isCode_addDecl (by simp)

private theorem upTo_not_isCode (height : Nat) (t : Tree) (s : State) :
    ((upTo height).decl t).Leaves s fun d ast => ¬ ast.IsCode d := by
  cases height with
  | zero => rintro _ _ ⟨⟩
  | succ height => exact declAt_not_isCode _ t s

/-- A part is top-level code in the syntax tree only if it is a run of items. -/
theorem Part.Stands.apart {other : Part} (h : part.Stands ast) (h' : other.Stands ast)
    (hd : part.Apart other) : ¬ (ast.IsCode part.decl ∧ ast.IsCode other.decl) := by
  rintro ⟨hcode, hcode'⟩
  cases part with
  | item => exact h.2 hcode
  | code =>
    cases other with
    | item => exact h'.2 hcode'
    | code => exact hd

/-- A part stands for its items. -/
theorem Part.Stands.unwrap (h : part.Stands ast) :
    ast.unwrap part.decl = part.items.map Item.node := by
  cases part with
  | item tree d =>
    unfold Ast.unwrap
    split
    case h_1 body span hd => exact absurd ⟨body, span, hd⟩ h.2
    case h_2 => rfl
  | code run d =>
    obtain ⟨-, -, body, hd, hbody⟩ := h
    simp only [Ast.unwrap, Part.decl, hd, hbody, Part.items]

/-- The final pass leaves the top level alone. -/
theorem Part.Stands.finish (h : part.Stands s.ast) : part.Stands s.finish := by
  obtain ⟨exprs, -, he⟩ := s.finish_eq
  rw [he]
  cases part <;> exact h

/-- Only no trees have no span. -/
theorem spanOfAll?_eq_none {ts : List Tree} : spanOfAll? ts = none ↔ ts = [] := by
  cases ts with
  | nil => simp [spanOfAll?]
  | cons t ts => simp [spanOfAll?, List.getLast?_cons]

/-- What is wrapped is the run of items that was read last, with its span. -/
theorem flush_eq {top : TopLevel} {run : List Item}
    (hscript : top.script.reverse = run.map fun item => (item.tree.span, item.node)) :
    top.flush = match spanOfAll? (run.map Item.tree) with
      | some span => do
        let body ← Lower.addStmt (.brace (run.map Item.node)) span
        let decl ← Lower.addDecl (.topLevelCode body) span
        return { decls := decl :: top.decls, script := [] }
      | none => return top := by
  have hnodes : top.script.reverse.map (·.2) = run.map Item.node := by
    rw [hscript, List.map_map]
    rfl
  have hfirst : top.script.getLast? = run.head?.map fun item => (item.tree.span, item.node) := by
    rw [← List.head?_reverse, hscript, List.head?_map]
  have hlast : top.script.head? = run.getLast?.map fun item => (item.tree.span, item.node) := by
    rw [← List.getLast?_reverse, hscript, List.getLast?_map]
  unfold TopLevel.flush spanOfAll?
  rw [hnodes, hfirst, hlast, List.head?_map, List.getLast?_map]
  cases run.head? <;> cases run.getLast? <;> rfl

/-- The wrapping of a run makes one part of it, if there is anything to wrap. -/
theorem flush_ok {top top' : TopLevel} {run : List Item} (h : top.flush s = .ok (top', s₁))
    (hscript : top.script.reverse = run.map fun item => (item.tree.span, item.node))
    (hnodes : ∀ item ∈ run, ∀ d, item.node ≠ .decl d) :
    ∃ wrapped : Option Part, wrapped.toList.flatMap Part.items = run ∧
      (∀ part ∈ wrapped.toList, part.Stands s₁.ast) ∧
      top'.decls.reverse = top.decls.reverse ++ wrapped.toList.map Part.decl ∧
      top'.script = [] := by
  rw [flush_eq hscript] at h
  cases hspan : spanOfAll? (run.map Item.tree) with
  | none =>
    obtain rfl := List.map_eq_nil_iff.mp (spanOfAll?_eq_none.mp hspan)
    rw [hspan] at h
    cases h
    exact ⟨none, rfl, by simp, by simp, by simpa using hscript⟩
  | some span =>
    have hne : run ≠ [] := by
      rintro rfl
      cases hspan
    rw [hspan] at h
    cases h
    refine ⟨some (.code run ⟨s.ast.decls.size⟩), by simp [Part.items], fun part hpart => ?_,
      by simp [Part.decl], rfl⟩
    rw [Option.toList_some, List.mem_singleton] at hpart
    subst hpart
    refine ⟨hne, hnodes, ⟨s.ast.stmts.size⟩, ?_, ?_⟩
    · rw [hspan]
      simp [Ast.decl?]
    · rw [hspan]
      simp [Ast.stmt?]

/-- An item that is a declaration was lowered as one. -/
theorem decl_of_item {t : Tree} {d : DeclId} (h : below.item t s = .ok (.decl d, s₁)) :
    below.decl t s = .ok (d, s₁) := by
  unfold Below.item at h
  split at h
  · obtain ⟨_, _, hdecl, h⟩ := bind_eq_ok.mp h
    cases h
    exact hdecl
  · split at h <;> obtain ⟨_, _, -, h⟩ := bind_eq_ok.mp h <;> cases h

/-- A declaration in hand is one of the tree. -/
theorem State.Ready.exists_decl {opened : List (DeclId × String)} {pre : List Node} {d : DeclId}
    (h : s.Ready opened pre) (hd : .decl d ∈ pre) : ∃ decl, s.ast.decl? d = some decl := by
  have hm := h.hand _ (mem_loose.mpr ⟨⟨_, hd, rfl⟩, by simp [Node.key]⟩)
  exact Ast.decl_mem_structural.mp (Ast.mem_visible.mp hm).1

/-! ### What is gathered -/

/-- What the items of a file are gathered to, up to some item: the parts so far, and the run of
items after the last declaration. -/
structure Gathered (below : Below) (ts : List Tree) (top : TopLevel) (s : State)
    (parts : List Part) (run : List Item) : Prop where
  lowered : Lowers below {} (parts.flatMap Part.items ++ run) s
  trees : (parts.flatMap Part.items ++ run).map Item.tree = ts
  decls : top.decls.reverse = parts.map Part.decl
  script : top.script.reverse = run.map fun item => (item.tree.span, item.node)
  nodes : ∀ item ∈ run, ∀ d, item.node ≠ .decl d
  stands : ∀ part ∈ parts, part.Stands s.ast
  apart : parts.IsChain Part.Apart
  /-- Code comes only before a declaration, so that a run after the last part is apart from it. -/
  last : ∀ part ∈ parts.getLast?, ∀ other, part.Apart other
  ready : s.Ready [] top.nodes

/-- A declaration stands apart from everything. -/
theorem Part.apart_item (part : Part) (t : Tree) (d : DeclId) : part.Apart (.item t d) := by
  cases part <;> trivial

private theorem Gathered.empty (below : Below) : Gathered below [] {} {} [] [] where
  lowered := .done {}
  trees := rfl
  decls := rfl
  script := rfl
  nodes := by simp
  stands := by simp
  apart := .nil
  last := by simp
  ready := .empty

section

variable {terms : Terms} {height : Nat} {ts : List Tree} {t : Tree} {top top' : TopLevel}
  {parts : List Part} {run : List Item}

/-- The next item belongs to the run, unless it is a declaration. -/
theorem Gathered.push (h : Gathered below ts top s parts run) {node : Node}
    (hitem : below.item t s = .ok (node, s₁)) (hn : ∀ d, node ≠ .decl d)
    (hkept : Ast.Kept ∅ s.ast s₁.ast) (hready : s₁.Ready [] (top.nodes ++ [node])) :
    Gathered below (ts ++ [t]) { top with script := (t.span, node) :: top.script } s₁ parts
      (run ++ [⟨t, node⟩]) where
  lowered := by
    rw [← List.append_assoc]
    exact h.lowered.append (.item hitem (.done s₁))
  trees := by rw [← List.append_assoc, List.map_append, h.trees]; rfl
  decls := h.decls
  script := by rw [List.reverse_cons, h.script, List.map_append]; rfl
  nodes item hm := by
    rcases List.mem_append.mp hm with hm | hm
    · exact h.nodes item hm
    · rw [List.mem_singleton.mp hm]
      exact hn
  stands part hp := (h.stands part hp).kept hkept
  apart := h.apart
  last := h.last
  ready := hready.mono (loose_subset fun n hn => by
    simp only [TopLevel.nodes, List.map_cons, List.mem_append, List.mem_cons] at hn ⊢
    tauto)

/-- The wrapping of the run leaves nothing that is no part. -/
theorem Gathered.flush (h : Gathered below ts top s parts run) (hkept : Ast.Kept ∅ s.ast s₁.ast)
    (hflush : top.flush s₁ = .ok (top', s₂)) (hkept' : Ast.Kept ∅ s₁.ast s₂.ast) :
    ∃ parts' : List Part, parts'.flatMap Part.items = parts.flatMap Part.items ++ run ∧
      top'.decls.reverse = parts'.map Part.decl ∧ top'.script = [] ∧
      (∀ part ∈ parts', part.Stands s₂.ast) ∧ parts'.IsChain Part.Apart := by
  obtain ⟨wrapped, hrun, hstands, hdecls, hscript⟩ := flush_ok hflush h.script h.nodes
  refine ⟨parts ++ wrapped.toList, by rw [List.flatMap_append, hrun],
    by rw [hdecls, h.decls, List.map_append], hscript, fun part hpart => ?_, ?_⟩
  · rcases List.mem_append.mp hpart with hpart | hpart
    · exact (h.stands part hpart).kept (hkept.trans hkept')
    · exact hstands part hpart
  · have htail : wrapped.toList.IsChain Part.Apart := by cases wrapped <;> simp
    exact h.apart.append htail fun part hpart other _ => h.last part hpart other

/-- A declaration ends the run, and is a part of its own. -/
theorem Gathered.close (h : Gathered below ts top s parts run) {d : DeclId}
    (hitem : below.item t s = .ok (.decl d, s₁)) (hstands : (Part.item t d).Stands s₁.ast)
    (hflush : top.flush s₁ = .ok (top', s₂)) (hkept : Ast.Kept ∅ s.ast s₁.ast)
    (hkept' : Ast.Kept ∅ s₁.ast s₂.ast) (hready : s₂.Ready [] (top'.nodes ++ [.decl d])) :
    ∃ parts', Gathered below (ts ++ [t]) { top' with decls := d :: top'.decls } s₂ parts' [] := by
  obtain ⟨parts', hitems, hdecls, hscript, hparts, hapart⟩ := h.flush hkept hflush hkept'
  have hitems : (parts' ++ [Part.item t d]).flatMap Part.items ++ [] =
      parts.flatMap Part.items ++ run ++ [⟨t, .decl d⟩] := by
    simp [Part.items, hitems]
  refine ⟨parts' ++ [.item t d], ?_, ?_, by simp [hdecls, Part.decl], by simp [hscript], by simp,
    fun part hpart => ?_, ?_, fun part hpart other => ?_, ?_⟩
  · rw [hitems]
    exact h.lowered.append (.item hitem (.wrap hflush (.done s₂)))
  · rw [hitems, List.map_append, h.trees]
    rfl
  · rcases List.mem_append.mp hpart with hpart | hpart
    · exact hparts part hpart
    · rw [List.mem_singleton.mp hpart]
      exact hstands.kept hkept'
  · refine hapart.append (.singleton _) fun part _ other hother => ?_
    cases hother
    exact part.apart_item t d
  · rw [List.getLast?_concat, Option.mem_some_iff] at hpart
    rw [← hpart]
    trivial
  · refine hready.mono (loose_subset fun n hn => ?_)
    simp only [TopLevel.nodes, List.map_cons, List.mem_append, List.mem_cons] at hn ⊢
    tauto

/-- The next item is gathered. -/
theorem Gathered.next (h : Gathered below ts top s parts run) (hb : below.Sound terms height)
    (ht : terms.Admits height t) (hcode : ∀ t s, (below.decl t).Leaves s fun d ast => ¬ ast.IsCode d)
    (hnext : TopLevel.next below top t s = .ok (top', s₁)) :
    ∃ parts' run', Gathered below (ts ++ [t]) top' s₁ parts' run' := by
  obtain ⟨node, s₂, hitem, hnext⟩ := bind_eq_ok.mp hnext
  have hbuilds : (below.item t).Builds terms [] top.nodes fun node => top.nodes ++ [node] :=
    (item_builds hb ht).after top.nodes
  obtain ⟨hup, hu, hready⟩ := hbuilds.upkeep (Ast.unfinished_nil _) h.ready hitem
  split at hnext
  case h_1 d =>
    obtain ⟨top₁, s₃, hflush, hnext⟩ := bind_eq_ok.mp hnext
    cases hnext
    have hflushed : top.flush.Builds terms [] (top.nodes ++ [.decl d])
        fun top' => top'.nodes ++ [.decl d] := (flush_builds top).frame_right _
    obtain ⟨hup', -, hready'⟩ := hflushed.upkeep hu hready hflush
    have hstands : (Part.item t d).Stands s₂.ast :=
      ⟨hready.exists_decl (by simp), hcode t s d s₂ (decl_of_item hitem)⟩
    obtain ⟨parts', h'⟩ := h.close hitem hstands hflush hup.kept hup'.kept hready'
    exact ⟨parts', [], h'⟩
  case h_2 hother =>
    cases hnext
    exact ⟨parts, _, h.push hitem hother hup.kept hready⟩

/-- The items of a file are gathered one after the other. -/
theorem Gathered.foldlM (h : Gathered below ts top s parts run) (hb : below.Sound terms height)
    (hcode : ∀ t s, (below.decl t).Leaves s fun d ast => ¬ ast.IsCode d) {us : List Tree}
    (hus : ∀ u ∈ us, terms.Admits height u)
    (hfold : us.foldlM (TopLevel.next below) top s = .ok (top', s₁)) :
    ∃ parts' run', Gathered below (ts ++ us) top' s₁ parts' run' := by
  induction us generalizing ts top s parts run with
  | nil =>
    cases hfold
    exact ⟨parts, run, by rwa [List.append_nil]⟩
  | cons u us ih =>
    rw [List.foldlM_cons] at hfold
    obtain ⟨top₁, s₂, hnext, hfold⟩ := bind_eq_ok.mp hfold
    obtain ⟨parts₁, run₁, h₁⟩ := h.next hb (hus u List.mem_cons_self) hcode hnext
    rw [List.append_cons]
    exact ih h₁ (fun v hv => hus v (List.mem_cons_of_mem _ hv)) hfold

/-- The items of a file are gathered to parts of which nothing is left over. -/
theorem sourceFile_parts (hb : below.Sound terms height) (ht : terms.Admits (height + 1) t)
    (hcode : ∀ t s, (below.decl t).Leaves s fun d ast => ¬ ast.IsCode d) {topLevel : List DeclId}
    (h : sourceFile below t {} = .ok (topLevel, s)) :
    ∃ parts : List Part, Lowers below {} (parts.flatMap Part.items) s ∧
      (parts.flatMap Part.items).map Item.tree = t.namedParts ∧ topLevel = parts.map Part.decl ∧
      (∀ part ∈ parts, part.Stands s.ast) ∧ parts.IsChain Part.Apart := by
  obtain ⟨top, s₁, hfold, h⟩ := bind_eq_ok.mp h
  obtain ⟨top', s₂, hflush, h⟩ := bind_eq_ok.mp h
  cases h
  obtain ⟨parts, run, h⟩ := (Gathered.empty below).foldlM hb hcode (admits_namedParts ht) hfold
  have hbuilds : top.flush.Builds terms [] top.nodes TopLevel.nodes := flush_builds top
  obtain ⟨hup, -, -⟩ := hbuilds.upkeep (Ast.unfinished_nil _) h.ready hflush
  obtain ⟨parts', hitems, hdecls, -, hstands, hapart⟩ := h.flush (.refl ∅ s₁.ast) hflush hup.kept
  refine ⟨parts', ?_, ?_, hdecls, hstands, hapart⟩
  · rw [hitems, ← List.append_nil (_ ++ run)]
    exact h.lowered.append (.wrap hflush (.done s))
  · rw [hitems, h.trees, List.nil_append]

end

end Lowering

open Lowering

/-- The top level of a lowered file is cut into parts: each declaration of the file is one, and so
is each run of other items between them, which is wrapped into a declaration of top-level code. The
parts hold the items that are lowered from the named children of the root, each once and in order.
No two declarations of top-level code follow each other. -/
theorem Tree.lower_topLevel (root : Tree) (hasParseErrors : Bool) :
    root.lower hasParseErrors = .error .equalsBeforeBinding ∨
    ∃ (file : LoweredFile) (s : State) (parts : List Part),
      root.lower hasParseErrors = .ok file ∧ file.ast = s.finish ∧
      sourceFile (upTo root.height) root {} = .ok (file.topLevel, s) ∧
      Lowers (upTo root.height) {} (parts.flatMap Part.items) s ∧
      (parts.flatMap Part.items).map Item.tree = root.namedParts ∧
      file.topLevel = parts.map Part.decl ∧ (∀ part ∈ parts, part.Stands file.ast) ∧
      file.topLevel.flatMap file.ast.unwrap = (parts.flatMap Part.items).map Item.node ∧
      file.topLevel.IsChain fun d d' => ¬ (file.ast.IsCode d ∧ file.ast.IsCode d') := by
  refine (root.lower_ends hasParseErrors).imp id ?_
  rintro ⟨file, hfile⟩
  obtain ⟨topLevel, s, hrun, rfl⟩ := exists_run hfile
  have hadmits : (Terms.all False).Admits (root.height + 1) root := ⟨trivial, .inr (Nat.le_succ _)⟩
  obtain ⟨parts, hlowers, htrees, rfl, hstands, hapart⟩ :=
    sourceFile_parts (upTo_sound _ root.height) hadmits (upTo_not_isCode root.height) hrun
  have hstands : ∀ part ∈ parts, part.Stands s.finish := fun part hp => (hstands part hp).finish
  refine ⟨_, s, parts, hfile, rfl, hrun, hlowers, htrees, rfl, hstands, ?_, ?_⟩
  · rw [List.flatMap_map, List.map_flatMap]
    exact List.flatMap_congr fun part hp => (hstands part hp).unwrap
  · rw [List.isChain_map]
    exact hapart.imp_of_mem_imp fun part other hp ho hd =>
      (hstands part hp).apart (hstands other ho) hd

end SwiftRelations
