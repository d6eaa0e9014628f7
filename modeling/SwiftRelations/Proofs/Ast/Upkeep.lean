import SwiftRelations.Proofs.Ast.Coherence

/-!
# Upkeep of a syntax tree

A step in the growth of a tree leaves alone what is there, makes nodes of those in hand and of new
ones, and leaves a coherent tree. There is one lemma for each way to grow, and steps add up.
-/

namespace SwiftRelations

namespace Ast

/-- What a step does to a coherent tree that takes some nodes in hand and leaves others: it leaves
alone what is there, makes nodes of those in hand and of new ones, and leaves a coherent tree. -/
structure Upkeep (hidden : Finset NodeKey) (ast : Ast) (pre : List Node) (ast' : Ast)
    (post : List Node) : Prop where
  kept : Kept hidden ast ast'
  fresh : ∀ parent ∉ ast.structural, ∀ key ∈ ast'.partKeys parent,
    key ∈ loose pre ∨ key ∉ ast.structural
  made : ∀ key ∈ loose post, key ∈ loose pre ∨ key ∉ ast.structural
  coherent : ast'.Coherent hidden
  hand : ∀ key ∈ loose post, key ∈ ast'.visible hidden

variable {ast ast₁ ast₂ : Ast} {hidden : Finset NodeKey} {pre mid post : List Node}

namespace Upkeep

/-- A step that does nothing, and may leave fewer nodes. -/
theorem refl (hc : ast.Coherent hidden) (hand : ∀ key ∈ loose pre, key ∈ ast.visible hidden)
    (hp : ∀ key ∈ loose post, key ∈ loose pre) : Upkeep hidden ast pre ast post where
  kept := .refl hidden ast
  fresh parent hn key hk := by
    obtain ⟨entry, he, -⟩ := exists_entry_of_mem_partKeys hk
    exact absurd (mem_structural.mpr (by rw [he]; rfl)) hn
  made key hk := .inl (hp key hk)
  coherent := hc
  hand key hk := hand key (hp key hk)

/-- What two steps keep up is kept up by both. -/
theorem trans (held : hidden ⊆ ast.structural) (h : Upkeep hidden ast pre ast₁ mid)
    (h' : Upkeep hidden ast₁ mid ast₂ post) : Upkeep hidden ast pre ast₂ post where
  kept := h.kept.trans h'.kept
  fresh parent hn key hk := by
    by_cases hp : parent ∈ ast₁.structural
    · -- What the first step made is not hidden, so that the second leaves it alone.
      have hv : parent ∈ ast₁.visible hidden := mem_visible.mpr ⟨hp, fun hh => hn (held hh)⟩
      rw [h'.kept.partKeys hv] at hk
      exact h.fresh parent hn key hk
    · rcases h'.fresh parent hp key hk with hm | hm
      · exact h.made key hm
      · exact .inr fun hs => hm (h.kept.held hs)
  made key hk := by
    rcases h'.made key hk with hm | hm
    · exact h.made key hm
    · exact .inr fun hs => hm (h.kept.held hs)
  coherent := h'.coherent
  hand := h'.hand

/-- A step leaves alone what it does not take. -/
theorem frame (h : Upkeep hidden ast pre ast₁ post) {rest : List Node}
    (hand : ∀ key ∈ loose rest, key ∈ ast.visible hidden) :
    Upkeep hidden ast (rest ++ pre) ast₁ (rest ++ post) where
  kept := h.kept
  fresh parent hn key hk := by
    rw [loose_append, Multiset.mem_add]
    exact (h.fresh parent hn key hk).imp .inr id
  made key hk := by
    rw [loose_append, Multiset.mem_add] at hk ⊢
    rcases hk with hk | hk
    · exact .inl (.inl hk)
    · exact (h.made key hk).imp .inr id
  coherent := h.coherent
  hand key hk := by
    rw [loose_append, Multiset.mem_add] at hk
    rcases hk with hk | hk
    · exact h.kept.visible (hand key hk)
    · exact h.hand key hk

/-- A node is made of the nodes in hand. -/
theorem push (entry : Entry) (held : hidden ⊆ ast.structural) (hc : ast.Coherent hidden)
    (hand : ∀ key ∈ loose pre, key ∈ ast.visible hidden) {node : Node}
    (hk : node.key = ast.place entry) (hp : loose pre = loose entry.parts)
    (hl : ast.Links hidden entry) : Upkeep hidden ast pre (ast.push entry) [node] where
  kept := kept_push hidden ast entry
  fresh parent hn key hkey := by
    by_cases hplace : parent = ast.place entry
    · rw [hplace, partKeys_place, ← hp] at hkey
      exact .inl hkey
    · rw [partKeys, entryAt?_push, if_neg hplace] at hkey
      exact (Upkeep.refl hc hand fun _ h => h).fresh parent hn key hkey
  made key hkey := by
    rw [eq_of_mem_loose_singleton hkey, hk]
    exact .inr (place_notMem_structural ast entry)
  coherent := hc.push (fun key hm => hand key (hp ▸ hm)) hl
  hand key hkey := by
    rw [eq_of_mem_loose_singleton hkey, hk]
    exact place_mem_visible held entry

/-- The types may grow. -/
theorem types (hc : ast.Coherent hidden) {types : TypeTable} (closed : types.Closed)
    (finds : ∀ name type, ast.types.find? name = some type → types.find? name = some type)
    (ids : List TypeId) : Upkeep hidden ast [] { ast with types } (ids.map .type) := by
  have hs : structural { ast with types } = ast.structural := by
    ext key
    rw [mem_structural, entryAt?_types, mem_structural]
  have hkept : Kept hidden ast { ast with types } :=
    ⟨fun key _ => entryAt?_types ast types key, hs.symm.subset, finds⟩
  have hnone : Upkeep hidden ast [] ast [] := .refl hc (by simp) fun _ h => h
  refine ⟨hkept, fun parent hn key hk => ?_, ?_, hkept.coherent hc closed fun _ _ => .inl, ?_⟩
  · exact hnone.fresh parent hn key hk
  · simp [loose_types]
  · simp [loose_types]

/-- A hidden declaration is replaced by one that is made of nodes in hand. -/
theorem setDeclKind (hc : ast.Coherent hidden)
    (hand : ∀ key ∈ loose pre, key ∈ ast.visible hidden) (held : hidden ⊆ ast.structural)
    {id : DeclId} {kind : DeclKind} (hid : (Node.decl id).key ∈ hidden) (known : kind.nodes ⊆ pre)
    (hb : kind.bindings = []) : Upkeep hidden ast pre (ast.setDeclKind id kind) pre where
  kept := kept_setDeclKind ast hid kind
  fresh parent hn key hk := by
    have hne : parent ≠ (Node.decl id).key := fun he => hn (held (he ▸ hid))
    rw [partKeys_setDeclKind_of_ne hne] at hk
    exact (Upkeep.refl hc hand fun _ h => h).fresh parent hn key hk
  made _ hk := .inl hk
  coherent := hc.setDeclKind hid (fun key hk => hand key (loose_subset known key hk)) hb
  hand key hk := (kept_setDeclKind ast hid kind).visible (hand key hk)

/-- A declaration is made, is hidden while its parts are made, and is given them. -/
theorem define (decl : Decl) {d : DeclId} {kind : DeclKind} (held : hidden ⊆ ast.structural)
    (hd : (Node.decl d).key = ast.place (.decl decl)) (hb : kind.bindings = [])
    (called : ast₁.Called d kind)
    (h : Upkeep (insert (Node.decl d).key hidden) (ast.push (.decl decl)) pre ast₁ kind.nodes) :
    Upkeep hidden ast pre (ast₁.setDeclKind d kind) [.decl d] := by
  have hnew : (Node.decl d).key ∉ ast.structural := hd ▸ place_notMem_structural ast (.decl decl)
  have hpush : (ast.push (.decl decl)).structural = insert (Node.decl d).key ast.structural := by
    rw [structural_push, hd]
  have old {key : NodeKey} (h : key ∉ (ast.push (.decl decl)).structural) : key ∉ ast.structural :=
    fun hs => h (hpush ▸ Finset.mem_insert_of_mem hs)
  have hid : (Node.decl d).key ∈ insert (Node.decl d).key hidden := Finset.mem_insert_self _ _
  obtain ⟨found, hfound⟩ : ∃ found, ast₁.decl? d = some found :=
    decl_mem_structural.mp (h.kept.held (hpush ▸ Finset.mem_insert_self _ _))
  have hclosed : (ast₁.setDeclKind d kind).decl? d = some { found with kind } := by
    rw [decl?_setDeclKind, hfound, Option.map_some]
  have hfilled := h.kept.trans (kept_setDeclKind ast₁ hid kind)
  have hkept := ((kept_push _ ast (.decl decl)).trans hfilled).of_insert hnew
  refine ⟨hkept, fun parent hn key hk => ?_, fun key hk => ?_, ?_, fun key hk => ?_⟩
  · by_cases hparent : parent = (Node.decl d).key
    · rw [hparent, partKeys_of_entryAt? (by rw [entryAt?_decl, hclosed]; rfl)] at hk
      exact (h.made key hk).imp id old
    · rw [partKeys_setDeclKind_of_ne hparent] at hk
      refine (h.fresh parent ?_ key hk).imp id old
      rw [hpush, Finset.mem_insert, not_or]
      exact ⟨hparent, hn⟩
  · rw [eq_of_mem_loose_singleton hk]
    exact .inr hnew
  · exact (h.coherent.setDeclKind hid h.hand hb).reveal hclosed called
  · rw [eq_of_mem_loose_singleton hk, mem_visible]
    exact ⟨decl_mem_structural.mpr ⟨_, hclosed⟩, fun hh => hnew (held hh)⟩

section

variable (h : Upkeep hidden ast [] ast₁ post) {key other : NodeKey}

include h

/-- What is inside a node that was made of nothing in hand is new. -/
theorem inside_new (hk : key ∈ loose post) (hi : ast₁.Inside key other) :
    other ∉ ast.structural := by
  induction hi with
  | refl => exact (h.made key hk).resolve_left (by simp)
  | tail _ hp ih => exact (h.fresh _ ih _ hp).resolve_left (by simp)

/-- A pattern that was made after its initializer brings in nothing that the initializer refers
to. -/
theorem initialized (hc : ast.Coherent hidden) {p : PatternId} {e : ExprId}
    (he : (Node.expr e).key ∈ ast.visible hidden) (hp : (Node.pattern p).key ∈ loose post) :
    ast₁.Initialized hidden (p, e) where
  pattern := h.hand _ hp
  initializer := h.kept.visible he
  blind id expr name d hie hip hexpr hk := by
    have hie := h.kept.inside hc he hie
    rw [h.kept.expr? (hc.inside he hie)] at hexpr
    exact h.inside_new hp hip
      ((hc.links _ _ (entryAt?_of_expr? hexpr)).refers expr name d rfl hk)

end

end Upkeep

end Ast

end SwiftRelations
