import SwiftRelations.Proofs.Ast.Upkeep
import SwiftRelations.Proofs.Lowering.Linking
import SwiftRelations.Proofs.Source.Descendants

/-!
# What a step of a lowering does to the syntax tree

While a file is lowered, the nodes that have been made and stand nowhere yet are in hand. A step
takes some of them and leaves others in their stead: `Effect` says that the nodes in hand stay the
roots of a forest, and that the types they come with stay known. What may be asked of the trees that
are lowered, and what may go wrong with them, are the terms on which this holds.
-/

namespace SwiftRelations

open Lowering Text

/-! ### Types in hand -/

/-- The nodes of a type that may be known. -/
abbrev typeNodes (type : Option TypeId) : List Node := (type.map Node.type).toList

/-- The node of a type, if there is one, has no key that counts. -/
@[simp]
theorem loose_typeNodes (type : Option TypeId) : loose (typeNodes type) = 0 := by
  cases type <;> rfl

/-- A table has the node of a type if it has the type. -/
theorem covers_typeNodes {table : TypeTable} {type : Option TypeId}
    (h : ∀ id, type = some id → table.Has id) : table.Covers (typeNodes type) := by
  intro node hn id hi
  obtain ⟨other, ho, rfl⟩ : ∃ other, type = some other ∧ Node.type other = node := by
    simpa [typeNodes] using hn
  obtain rfl : id = other := by simpa [Node.types] using hi
  exact h id ho

/-! ### What is asked of the trees -/

/-- Whether the guards of a switch case fit its labels, from some part on: a guard comes after a
label without one, and there is one body at most. The flags tell whether the last label is without
a guard, whether the keyword of a guard was read and its expression was not, and whether the body
was read. -/
def guardsFit (label expects body : Bool) : List Tree → Bool
  | [] => true
  | t :: ts =>
    if t.kind == "switch_pattern" then guardsFit true expects body ts
    else if t.kind == "where_keyword" || t.kind == "where" then guardsFit label true body ts
    else if t.kind == "statements" then !body && guardsFit label expects true ts
    else if expects && t.isOperand then label && guardsFit false false body ts
    else guardsFit label expects body ts

/-- The trees that are lowered, and what may go wrong with them. -/
structure Terms where
  trees : Tree → Prop
  /-- Whether nodes may be dropped that were made. -/
  lossy : Prop
  /-- Whether trees may be higher than is allowed for. -/
  deep : Prop
  below : ∀ t u, trees t → u ∈ t.descendants → trees u
  guards : ∀ t, trees t → t.kind = "switch_entry" → lossy ∨ guardsFit false false false t.parts

namespace Terms

variable {terms : Terms} {a b c : List Node} {height : Nat} {t u : Tree}

/-- Whether a tree is one of those that are lowered, and no higher than allowed. -/
structure Admits (terms : Terms) (height : Nat) (t : Tree) : Prop where
  tree : terms.trees t
  height : terms.deep ∨ t.height ≤ height

/-- The trees below an admitted one are admitted to a lesser height. -/
theorem Admits.below (h : terms.Admits (height + 1) t) (hu : u ∈ t.descendants) :
    terms.Admits height u where
  tree := terms.below t u h.tree hu
  height := by
    refine h.height.imp id fun hh => ?_
    have hlt := Tree.height_lt hu
    omega

/-- What is admitted to a height is admitted to a greater one. -/
theorem Admits.succ (h : terms.Admits height t) : terms.Admits (height + 1) t where
  tree := h.tree
  height := h.height.imp id Nat.le_succ_of_le

/-- Whether some nodes in hand may be taken for others: they are the same apart from types, and
the others come with no further types. -/
structure Yields (terms : Terms) (a b : List Node) : Prop where
  keys : ∀ key ∈ loose b, key ∈ loose a
  loose : ¬ terms.lossy → loose a = loose b
  types : ∀ table : TypeTable, table.Covers a → table.Covers b

/-- Nodes in hand may be taken for themselves. -/
theorem Yields.refl (a : List Node) : terms.Yields a a :=
  ⟨fun _ h => h, fun _ => rfl, fun _ h => h⟩

/-- The order of the nodes in hand does not matter. -/
theorem Yields.perm (h : a.Perm b) : terms.Yields a b :=
  ⟨loose_subset h.symm.subset, fun _ => loose_perm h, fun _ hc => hc.subset h.symm.subset⟩

/-- Types in hand may be forgotten. -/
theorem Yields.forget {types : List Node} (ht : SwiftRelations.loose types = 0) :
    terms.Yields (a ++ types) a :=
  ⟨loose_subset (List.subset_append_left a types), fun _ => by simp [ht], fun _ hc => hc.left⟩

/-- Types in hand may be left for a type that comes with what is in hand. -/
theorem Yields.retype {types : List Node} {type : Option TypeId}
    (ht : SwiftRelations.loose types = 0)
    (h : ∀ id, type = some id → ∃ node ∈ a ++ types, id ∈ node.types) :
    terms.Yields (a ++ types) (a ++ typeNodes type) where
  keys := by simp [ht]
  loose _ := by simp [ht]
  types table hc := by
    refine hc.left.append (covers_typeNodes fun id hid => ?_)
    obtain ⟨node, hn, hm⟩ := h id hid
    exact hc node hn id hm

/-- Of two types in hand the one they have in common may be kept. -/
theorem Yields.common (a : List Node) (left right : Option TypeId) :
    terms.Yields (a ++ typeNodes left ++ typeNodes right)
      (a ++ typeNodes (if left = right then left else none)) := by
  rw [List.append_assoc]
  refine .retype (by simp) fun id h => ⟨.type id, ?_, by simp [Node.types]⟩
  split at h
  · simp [h]
  · cases h

/-- Where nodes may be dropped, any of them may be. -/
theorem Yields.drop (h : terms.lossy) (hs : b ⊆ a) : terms.Yields a b :=
  ⟨loose_subset hs, fun hn => absurd h hn, fun _ hc => hc.subset hs⟩

end Terms

/-! ### Types that the tree names -/

/-- The type a declaration states is that of a node it names. -/
theorem DeclKind.exists_of_statedType? {kind : DeclKind} {type : TypeId}
    (h : kind.statedType? = some type) : ∃ node ∈ kind.nodes, type ∈ node.types := by
  unfold statedType? at h
  split at h
  case h_1 name isLet _ =>
    subst h
    exact ⟨.type type, by simp [nodes], by simp [Node.types]⟩
  case h_2 name externalName written =>
    exact ⟨.writtenType written, by simp [nodes], by simp [Node.types, h]⟩
  case h_3 => cases h

namespace Ast.Typed

variable {ast : Ast} {type : TypeId}

/-- The types of a declaration are in the table. -/
theorem covers_decl (h : ast.Typed) {d : DeclId} {decl : Decl} (hd : ast.decl? d = some decl) :
    ast.types.Covers decl.kind.nodes := by
  have hd : ast.decls[d.index]? = some decl := hd
  exact h.covers (Node.decl d).key (.decl decl) (by simp [entryAt?, Node.key, hd])

/-- The type a declaration states is in the table. -/
theorem has_statedType? (h : ast.Typed) {d : DeclId} (hd : ast.statedType? d = some type) :
    ast.types.Has type := by
  obtain ⟨decl, hdecl, hk⟩ := Option.bind_eq_some_iff.mp hd
  obtain ⟨node, hn, hm⟩ := DeclKind.exists_of_statedType? hk
  exact h.covers_decl hdecl node hn type hm

/-- The type of an expression is in the table. -/
theorem has_exprType? (h : ast.Typed) {id : ExprId} (he : ast.exprType? id = some type) :
    ast.types.Has type := by
  obtain ⟨expr, hexpr, ht⟩ := Option.bind_eq_some_iff.mp he
  have hexpr : ast.exprs[id.index]? = some expr := hexpr
  have hc := h.covers (Node.expr id).key (.expr expr) (by simp [entryAt?, Node.key, hexpr])
  exact hc (.type type) (by simp [Ast.Entry.nodes, ht]) type (by simp [Node.types])

end Ast.Typed

/-! ### What a step does to the syntax tree -/

/-- Whether some declarations have their names and state no types as yet. -/
def Ast.Unfinished (ast : Ast) (opened : List (DeclId × String)) : Prop :=
  ∀ p ∈ opened, ast.header? p.1 = some (some p.2, none)

/-- The keys of unfinished declarations. -/
def hidden (opened : List (DeclId × String)) : Finset NodeKey :=
  (opened.map fun p => (Node.decl p.1).key).toFinset

/-- Where nothing is unfinished nothing is hidden. -/
theorem hidden_nil : hidden [] = ∅ := rfl

/-- What a step does to the syntax tree that takes some nodes in hand and leaves others: the types
stay known, and the nodes in hand stay the roots of a forest. -/
structure Effect (terms : Terms) (opened : List (DeclId × String)) (ast : Ast) (pre : List Node)
    (ast' : Ast) (post : List Node) : Prop where
  typed : ast.Typed → ast.types.Covers pre →
    ast'.Typed ∧ ast.types.size ≤ ast'.types.size ∧ ast'.types.Covers post
  grown : ¬ terms.lossy → ∀ roots, ast.Grown (hidden opened) (loose pre + roots) →
    ast'.Grown (hidden opened) (loose post + roots)

/-- Whether an event is one of the lowering of trees that are lowered. -/
def Lowering.Event.Within (terms : Terms) : Event → Prop
  | .selfReferred _ t => terms.trees t
  | _ => True

section Effects

variable {terms : Terms} {opened : List (DeclId × String)} {ast ast₁ ast₂ : Ast}
  {pre mid post : List Node}

/-- An unfinished declaration is one of the tree. -/
theorem Ast.Unfinished.hidden_subset (h : ast.Unfinished opened) :
    hidden opened ⊆ ast.structural := by
  intro key hk
  simp only [hidden, List.mem_toFinset, List.mem_map] at hk
  obtain ⟨p, hp, rfl⟩ := hk
  obtain ⟨decl, hd, -⟩ := Option.map_eq_some_iff.mp (h p hp)
  have hd : ast.decls[p.1.index]? = some decl := hd
  simp [Ast.mem_structural, Ast.entryAt?, Node.key, hd]

/-- A step that changes nothing may leave the nodes in hand for others. -/
theorem Effect.refl (h : terms.Yields pre post) : Effect terms opened ast pre ast post where
  typed ht hc := ⟨ht, Nat.le_refl _, h.types _ hc⟩
  grown hl roots hg := by rwa [← h.loose hl]

/-- What two steps do one after the other. -/
theorem Effect.trans (h : Effect terms opened ast pre ast₁ mid)
    (h' : Effect terms opened ast₁ mid ast₂ post) : Effect terms opened ast pre ast₂ post where
  typed ht hc := by
    obtain ⟨ht, hs, hc⟩ := h.typed ht hc
    obtain ⟨ht, hs', hc⟩ := h'.typed ht hc
    exact ⟨ht, Nat.le_trans hs hs', hc⟩
  grown hl roots hg := h'.grown hl roots (h.grown hl roots hg)

/-- A step leaves alone what it does not take. -/
theorem Effect.frame (h : Effect terms opened ast pre ast₁ post) (rest : List Node) :
    Effect terms opened ast (rest ++ pre) ast₁ (rest ++ post) where
  typed ht hc := by
    obtain ⟨ht, hs, hp⟩ := h.typed ht hc.right
    exact ⟨ht, hs, (hc.left.mono hs).append hp⟩
  grown hl roots hg := by
    have hg' := h.grown hl (loose rest + roots)
    rw [loose_append, add_comm (loose rest), add_assoc] at hg ⊢
    exact hg' hg

/-- A node is made whose parts are the nodes in hand. -/
theorem Effect.push (entry : Ast.Entry) {node : Node} (held : hidden opened ⊆ ast.structural)
    (hk : node.key = ast.place entry) (ht : node.types = [])
    (known : ast.Typed → ast.types.Covers pre → ast.types.Covers entry.nodes)
    (hp : loose pre = loose entry.parts) :
    Effect terms opened ast pre (ast.push entry) [node] where
  typed hast hc := by
    refine ⟨hast.push (known hast hc), ?_, .of_types_eq_nil (by simpa using ht)⟩
    cases entry <;> exact Nat.le_refl _
  grown _ roots hg := by
    have hc : node.category ≠ .type := by
      rw [Node.category, hk]
      cases entry <;> simp [Ast.place, Ast.Entry.category]
    rw [loose_of_category hc, hk]
    rw [hp] at hg
    exact hg.push held

/-- The types may grow by types that are offered. -/
theorem Effect.types {types : TypeTable} {ids : List TypeId}
    (h : ast.types.Closed → ast.types.Offers ids types) :
    Effect terms opened ast [] { ast with types } (ids.map .type) where
  typed ht _ := by
    obtain ⟨closed, hs, has⟩ := h ht.closed
    refine ⟨ht.types closed hs, hs, ?_⟩
    intro node hn type hm
    obtain ⟨id, hi, rfl⟩ := List.mem_map.mp hn
    obtain rfl : type = id := by simpa [Node.types] using hm
    exact has type hi
  grown _ roots hg := by
    rw [loose_types]
    exact hg.types types

/-- A declaration is made, is unfinished while its parts are made, and is given them. -/
theorem Effect.define {d : DeclId} {decl : Decl} {name : String} {kind : DeclKind}
    (hd : (Node.decl d).key = ast.place (.decl decl)) (held : hidden opened ⊆ ast.structural)
    (known : decl.kind.nodes ⊆ pre) (hk : (Node.decl d).key ∈ ast₁.structural)
    (h : Effect terms ((d, name) :: opened) (ast.push (.decl decl)) pre ast₁ kind.nodes) :
    Effect terms opened ast pre (ast₁.setDeclKind d kind) [.decl d] where
  typed ht hc := by
    have hpush : (ast.push (.decl decl)).Typed := ht.push (hc.subset known)
    obtain ⟨ht₁, hs, hc₁⟩ := h.typed hpush hc
    exact ⟨ht₁.setDeclKind hc₁, hs, .of_types_eq_nil (by simp [Node.types])⟩
  grown hl roots hg := by
    have hfresh : (Node.decl d).key ∉ hidden opened := fun hm =>
      Ast.place_notMem_structural ast (.decl decl) (hd ▸ held hm)
    have hopen := hg.open (.decl decl)
    rw [← hd, show insert (Node.decl d).key (hidden opened) = hidden ((d, name) :: opened) by
      simp [hidden]] at hopen
    have hinner := h.grown hl roots hopen
    rw [hidden, List.map_cons, List.toFinset_cons] at hinner
    rw [loose_of_category (by simp [Node.category, Node.key])]
    exact hinner.close hk hfresh

end Effects

end SwiftRelations
