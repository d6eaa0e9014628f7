import SwiftRelations.Proofs.Ast.Growth

/-!
# Coherence of a syntax tree

What is made while a tree grows is never changed again, apart from the declarations that are
unfinished and hidden until then. So what holds of the inside of a node, once it is made, holds for
good: that no reference in an initializer is to a declaration in its pattern, and that the type of a
call is the one that the declaration it calls states. `Ast.Coherent` is the invariant of a tree that
grows, and `Ast.Kept` says what the growth leaves alone.
-/

namespace SwiftRelations

/-! ### What is said of a tree -/

/-- The patterns that a declaration initializes, with their initializers. -/
def DeclKind.bindings : DeclKind → List (PatternId × ExprId)
  | .patternBinding entries => entries.filterMap fun entry => entry.init.map (entry.pattern, ·)
  | _ => []

/-- The pattern that an element of a condition initializes, with its initializer. -/
def ConditionElement.binding? : ConditionElement → Option (PatternId × ExprId)
  | .boolean _ => none
  | .pattern bound initializer => some (bound, initializer)

/-- The patterns that an entry initializes, with their initializers. -/
def Ast.Entry.bindings : Entry → List (PatternId × ExprId)
  | .decl d => d.kind.bindings
  | .stmtCondition c => c.elements.filterMap ConditionElement.binding?
  | _ => []

/-- Whether a type is the one a declaration states for calls of it by a name: the result of a
function, and for a nominal type but a protocol the type that is known by the name. -/
def DeclKind.CallType (kind : DeclKind) (types : TypeTable) (name : String) (type : Option TypeId) :
    Prop :=
  match kind with
  | .func _ _ result _ => type = result.bind (·.type)
  | .nominal sort .. =>
    if sort = .protocolType then type = none else type.isSome ∧ types.find? name = type
  | _ => type = none

/-- A declaration that has a name initializes nothing. -/
theorem DeclKind.bindings_of_declaredName? {kind : DeclKind} {name : String}
    (hn : kind.declaredName? = some name) : kind.bindings = [] := by
  cases kind with
  | patternBinding entries => cases hn
  | _ => rfl

/-- The type of a call stays right while the table of types grows. -/
theorem DeclKind.CallType.mono {kind : DeclKind} {types types' : TypeTable} {name : String}
    {type : Option TypeId} (h : kind.CallType types name type)
    (finds : ∀ name type, types.find? name = some type → types'.find? name = some type) :
    kind.CallType types' name type := by
  cases kind with
  | nominal sort =>
    unfold CallType at h ⊢
    by_cases hp : sort = .protocolType
    · simpa [hp] using h
    · simp only [hp, if_false] at h ⊢
      obtain ⟨id, rfl⟩ := Option.isSome_iff_exists.mp h.1
      exact ⟨h.1, finds name id h.2⟩
  | _ => exact h

namespace Ast

/-- The keys of the nodes that are not hidden, types apart. -/
def visible (ast : Ast) (hidden : Finset NodeKey) : Finset NodeKey := ast.structural \ hidden

/-- Whether a node is another or is made of it, through whatever nodes. -/
def Inside (ast : Ast) : NodeKey → NodeKey → Prop :=
  Relation.ReflTransGen fun parent child => child ∈ ast.partKeys parent

/-- Whether no reference inside an initializer is to a declaration inside its pattern. -/
def Blind (ast : Ast) (pattern : PatternId) (initializer : ExprId) : Prop :=
  ∀ id expr name d, ast.Inside (Node.expr initializer).key (Node.expr id).key →
    ast.Inside (Node.pattern pattern).key (Node.decl d).key →
    ast.expr? id = some expr → expr.kind ≠ .declRef name (some d)

/-- Whether a pattern and its initializer are visible, and no reference inside the initializer is to
a declaration inside the pattern. -/
structure Initialized (ast : Ast) (hidden : Finset NodeKey) (binding : PatternId × ExprId) :
    Prop where
  pattern : (Node.pattern binding.1).key ∈ ast.visible hidden
  initializer : (Node.expr binding.2).key ∈ ast.visible hidden
  blind : ast.Blind binding.1 binding.2

/-- Whether a call has the type that the declaration it calls states, unless that is hidden, and
none if it calls no declaration that is known. -/
structure Calls (ast : Ast) (hidden : Finset NodeKey) (callee : ExprId) (type : Option TypeId) :
    Prop where
  known : ∀ expr name d decl, ast.expr? callee = some expr → expr.kind = .declRef name (some d) →
    (Node.decl d).key ∉ hidden → ast.decl? d = some decl → decl.kind.CallType ast.types name type
  unknown : ∀ expr, ast.expr? callee = some expr →
    (∀ name d, expr.kind ≠ .declRef name (some d)) → type = none

/-- Whether the calls of a declaration have the type that a kind of declaration states for them. -/
def Called (ast : Ast) (d : DeclId) (kind : DeclKind) : Prop :=
  ∀ id expr callee arguments target name, ast.expr? id = some expr →
    expr.kind = .call callee arguments → ast.expr? callee = some target →
    target.kind = .declRef name (some d) → kind.CallType ast.types name expr.type

/-- Whether no reference is to a declaration. -/
def Unreferenced (ast : Ast) (d : DeclId) : Prop :=
  ∀ id expr name, ast.expr? id = some expr → expr.kind ≠ .declRef name (some d)

/-- Whether an entry fits in with the entries it is linked to. -/
structure Links (ast : Ast) (hidden : Finset NodeKey) (entry : Entry) : Prop where
  refers : ∀ expr name d, entry = .expr expr → expr.kind = .declRef name (some d) →
    (Node.decl d).key ∈ ast.structural
  calls : ∀ expr callee arguments, entry = .expr expr → expr.kind = .call callee arguments →
    ast.Calls hidden callee expr.type
  blind : ∀ binding ∈ entry.bindings, ast.Blind binding.1 binding.2

/-- Whether the nodes are made of visible nodes, and fit in with each other. -/
structure Coherent (ast : Ast) (hidden : Finset NodeKey) : Prop where
  closed : ast.types.Closed
  parts : ∀ parent, ∀ key ∈ ast.partKeys parent, key ∈ ast.visible hidden
  links : ∀ key entry, ast.entryAt? key = some entry → ast.Links hidden entry

/-- What is kept of a tree: the nodes that are not hidden, and the names of the types. -/
structure Kept (hidden : Finset NodeKey) (ast ast' : Ast) : Prop where
  entry : ∀ key ∈ ast.visible hidden, ast'.entryAt? key = ast.entryAt? key
  held : ast.structural ⊆ ast'.structural
  finds : ∀ name type, ast.types.find? name = some type → ast'.types.find? name = some type

end Ast

/-! ### Keys in hand -/

/-- The structural keys of some nodes are their keys, types apart. -/
theorem mem_loose {nodes : List Node} {key : NodeKey} :
    key ∈ loose nodes ↔ (∃ node ∈ nodes, node.key = key) ∧ key.category ≠ .type := by
  simp [loose]

/-- The key in hand of a single node is its own. -/
theorem eq_of_mem_loose_singleton {node : Node} {key : NodeKey} (h : key ∈ loose [node]) :
    key = node.key := by
  obtain ⟨⟨other, hm, rfl⟩, -⟩ := mem_loose.mp h
  rw [List.mem_singleton.mp hm]

/-- More nodes have more structural keys. -/
theorem loose_subset {a b : List Node} (h : b ⊆ a) : ∀ key ∈ loose b, key ∈ loose a := by
  intro key hk
  obtain ⟨⟨node, hn, hkey⟩, hc⟩ := mem_loose.mp hk
  exact mem_loose.mpr ⟨⟨node, h hn, hkey⟩, hc⟩

namespace Ast

variable {ast ast₁ ast₂ : Ast} {hidden : Finset NodeKey} {entry : Entry} {key other : NodeKey}
  {pre mid post : List Node}

/-- A key is visible if it is one of the tree and not hidden. -/
theorem mem_visible : key ∈ ast.visible hidden ↔ key ∈ ast.structural ∧ key ∉ hidden :=
  Finset.mem_sdiff

/-- A node that has an entry is visible, if it is not hidden. -/
theorem mem_visible_of_entryAt? (he : ast.entryAt? key = some entry) (hn : key ∉ hidden) :
    key ∈ ast.visible hidden :=
  mem_visible.mpr ⟨mem_structural.mpr (by rw [he]; rfl), hn⟩

/-- What an entry is made of is in the parts of its place. -/
theorem partKeys_of_entryAt? (h : ast.entryAt? key = some entry) :
    ast.partKeys key = loose entry.parts := by
  rw [partKeys, h, Option.map_some, Option.getD_some]

/-- What has parts has an entry. -/
theorem exists_entry_of_mem_partKeys (h : other ∈ ast.partKeys key) :
    ∃ entry, ast.entryAt? key = some entry ∧ other ∈ loose entry.parts := by
  cases he : ast.entryAt? key with
  | none => simp [partKeys, he] at h
  | some entry => exact ⟨entry, rfl, by rwa [partKeys_of_entryAt? he] at h⟩

/-- An entry is made of the patterns it initializes and their initializers. -/
theorem Entry.mem_parts_of_binding {binding : PatternId × ExprId} (h : binding ∈ entry.bindings) :
    (Node.pattern binding.1).key ∈ loose entry.parts ∧
      (Node.expr binding.2).key ∈ loose entry.parts := by
  have hn : Node.pattern binding.1 ∈ entry.parts ∧ Node.expr binding.2 ∈ entry.parts := by
    cases entry with
    | decl decl =>
      cases hk : decl.kind <;> simp only [bindings, DeclKind.bindings, hk, List.not_mem_nil] at h
      case patternBinding entries =>
        obtain ⟨e, he, hb⟩ := List.mem_filterMap.mp h
        obtain ⟨init, hi, rfl⟩ := Option.map_eq_some_iff.mp hb
        simp only [parts, nodes, hk, DeclKind.nodes, List.mem_flatMap]
        exact ⟨⟨e, he, by simp⟩, ⟨e, he, by simp [hi]⟩⟩
    | stmtCondition condition =>
      obtain ⟨e, he, hb⟩ := List.mem_filterMap.mp h
      simp only [parts, nodes, List.mem_flatMap]
      cases e <;> cases hb
      exact ⟨⟨_, he, by simp [ConditionElement.nodes]⟩, ⟨_, he, by simp [ConditionElement.nodes]⟩⟩
    | _ => cases h
  exact ⟨mem_loose.mpr ⟨⟨_, hn.1, rfl⟩, by simp [Node.key]⟩,
    mem_loose.mpr ⟨⟨_, hn.2, rfl⟩, by simp [Node.key]⟩⟩

/-- A call is made of its callee. -/
theorem Entry.mem_parts_of_call {expr : Expr} {callee : ExprId} {arguments : List Argument}
    (h : expr.kind = .call callee arguments) :
    (Node.expr callee).key ∈ loose (Entry.parts (.expr expr)) :=
  mem_loose.mpr ⟨⟨.expr callee, by simp [parts, ExprKind.parts, h, ExprKind.nodes], rfl⟩,
    by simp [Node.key]⟩

/-- An expression stands in the arena of expressions. -/
theorem entryAt?_expr (ast : Ast) (id : ExprId) :
    ast.entryAt? (Node.expr id).key = (ast.expr? id).map .expr := rfl

/-- A declaration stands in the arena of declarations. -/
theorem entryAt?_decl (ast : Ast) (id : DeclId) :
    ast.entryAt? (Node.decl id).key = (ast.decl? id).map .decl := rfl

/-- A statement stands in the arena of statements. -/
theorem entryAt?_stmt (ast : Ast) (id : StmtId) :
    ast.entryAt? (Node.stmt id).key = (ast.stmt? id).map .stmt := rfl

/-- The place of an expression is held exactly if the expression is there. -/
theorem expr_mem_structural {id : ExprId} :
    (Node.expr id).key ∈ ast.structural ↔ ∃ expr, ast.expr? id = some expr := by
  rw [mem_structural, entryAt?_expr, Option.isSome_map, Option.isSome_iff_exists]

/-- The place of a declaration is held exactly if the declaration is there. -/
theorem decl_mem_structural {id : DeclId} :
    (Node.decl id).key ∈ ast.structural ↔ ∃ decl, ast.decl? id = some decl := by
  rw [mem_structural, entryAt?_decl, Option.isSome_map, Option.isSome_iff_exists]

/-- The entry of an expression is found under its key. -/
theorem entryAt?_of_expr? {id : ExprId} {expr : Expr} (h : ast.expr? id = some expr) :
    ast.entryAt? (Node.expr id).key = some (.expr expr) := by
  rw [entryAt?_expr, h, Option.map_some]

/-- An entry of an expression stands in the arena of expressions. -/
theorem expr?_of_entryAt? {expr : Expr} (h : ast.entryAt? key = some (.expr expr)) :
    ast.expr? ⟨key.index⟩ = some expr := by
  obtain ⟨category, index⟩ := key
  cases category with
  | expr => simpa [entryAt?, expr?] using h
  | _ => simp [entryAt?] at h

/-! ### What is kept -/

namespace Kept

/-- A tree is kept by itself. -/
theorem refl (hidden : Finset NodeKey) (ast : Ast) : Kept hidden ast ast :=
  ⟨fun _ _ => rfl, Finset.Subset.refl _, fun _ _ h => h⟩

/-- What is visible stays visible. -/
theorem visible (h : Kept hidden ast ast₁) (hk : key ∈ ast.visible hidden) :
    key ∈ ast₁.visible hidden := by
  rw [mem_visible] at hk ⊢
  exact ⟨h.held hk.1, hk.2⟩

/-- What is kept in two steps is kept. -/
theorem trans (h : Kept hidden ast ast₁) (h' : Kept hidden ast₁ ast₂) : Kept hidden ast ast₂ where
  entry key hk := (h'.entry key (h.visible hk)).trans (h.entry key hk)
  held := h.held.trans h'.held
  finds name type hf := h'.finds name type (h.finds name type hf)

/-- A visible node keeps its parts. -/
theorem partKeys (h : Kept hidden ast ast₁) (hk : key ∈ ast.visible hidden) :
    ast₁.partKeys key = ast.partKeys key := by
  rw [Ast.partKeys, h.entry key hk, Ast.partKeys]

/-- A visible expression stays as it is. -/
theorem expr? (h : Kept hidden ast ast₁) {id : ExprId}
    (hk : (Node.expr id).key ∈ ast.visible hidden) : ast₁.expr? id = ast.expr? id := by
  have he := h.entry _ hk
  rw [entryAt?_expr, entryAt?_expr] at he
  exact Option.map_injective (fun _ _ => Entry.expr.inj) he

private theorem decl? (h : Kept hidden ast ast₁) {id : DeclId}
    (hk : (Node.decl id).key ∈ ast.visible hidden) : ast₁.decl? id = ast.decl? id := by
  have he := h.entry _ hk
  rw [entryAt?_decl, entryAt?_decl] at he
  exact Option.map_injective (fun _ _ => Entry.decl.inj) he

/-- A declaration that is not hidden stays as it is. -/
theorem decl?_eq_some (h : Kept hidden ast ast₁) {id : DeclId} {decl : Decl}
    (hn : (Node.decl id).key ∉ hidden) (hd : ast.decl? id = some decl) :
    ast₁.decl? id = some decl := by
  rw [h.decl? (mem_visible_of_entryAt? (by rw [entryAt?_decl, hd]; rfl) hn), hd]

/-- A statement that is not hidden stays as it is. -/
theorem stmt?_eq_some (h : Kept hidden ast ast₁) {id : StmtId} {stmt : Stmt}
    (hn : (Node.stmt id).key ∉ hidden) (hs : ast.stmt? id = some stmt) :
    ast₁.stmt? id = some stmt := by
  have he := h.entry _ (mem_visible_of_entryAt? (by rw [entryAt?_stmt, hs]; rfl) hn)
  rw [entryAt?_stmt, entryAt?_stmt, hs] at he
  exact Option.map_injective (fun _ _ => Entry.stmt.inj) he

end Kept

/-- What is inside a visible node is visible. -/
theorem Coherent.inside (hc : ast.Coherent hidden) (hk : key ∈ ast.visible hidden)
    (h : ast.Inside key other) : other ∈ ast.visible hidden := by
  obtain rfl | ⟨parent, -, hp⟩ := h.cases_tail
  · exact hk
  · exact hc.parts _ _ hp

namespace Kept

variable (h : Kept hidden ast ast₁) (hc : ast.Coherent hidden)

include h hc

/-- Nothing is put inside a visible node. -/
theorem inside (hk : key ∈ ast.visible hidden) (hi : ast₁.Inside key other) :
    ast.Inside key other := by
  induction hi with
  | refl => exact .refl
  | tail _ hp ih =>
    rw [h.partKeys (hc.inside hk ih)] at hp
    exact .tail ih hp

/-- What an initializer does not refer to it does not refer to later. -/
theorem blind {p : PatternId} {e : ExprId} (hp : (Node.pattern p).key ∈ ast.visible hidden)
    (he : (Node.expr e).key ∈ ast.visible hidden) (hb : ast.Blind p e) : ast₁.Blind p e := by
  intro id expr name d hie hip hexpr
  have hie := h.inside hc he hie
  rw [h.expr? (hc.inside he hie)] at hexpr
  exact hb id expr name d hie (h.inside hc hp hip) hexpr

/-- A binding that is initialized stays so. -/
theorem initialized {binding : PatternId × ExprId} (hi : ast.Initialized hidden binding) :
    ast₁.Initialized hidden binding where
  pattern := h.visible hi.pattern
  initializer := h.visible hi.initializer
  blind := h.blind hc hi.pattern hi.initializer hi.blind

/-- A call keeps the type it has. -/
theorem calls {callee : ExprId} {type : Option TypeId}
    (hk : (Node.expr callee).key ∈ ast.visible hidden) (hcall : ast.Calls hidden callee type) :
    ast₁.Calls hidden callee type where
  known expr name d decl he hkind hd hdecl := by
    rw [h.expr? hk] at he
    have held := (hc.links _ _ (entryAt?_of_expr? he)).refers expr name d rfl hkind
    rw [h.decl? (mem_visible.mpr ⟨held, hd⟩)] at hdecl
    exact (hcall.known expr name d decl he hkind hd hdecl).mono h.finds
  unknown expr he := by
    rw [h.expr? hk] at he
    exact hcall.unknown expr he

/-- What an entry is linked to is kept, if it is made of visible nodes. -/
theorem links (hp : ∀ key ∈ loose entry.parts, key ∈ ast.visible hidden)
    (hl : ast.Links hidden entry) : ast₁.Links hidden entry where
  refers expr name d he hk := h.held (hl.refers expr name d he hk)
  calls expr callee arguments he hk := by
    refine h.calls hc (hp _ ?_) (hl.calls expr callee arguments he hk)
    subst he
    exact Entry.mem_parts_of_call hk
  blind binding hb := by
    have hm := Entry.mem_parts_of_binding hb
    exact h.blind hc (hp _ hm.1) (hp _ hm.2) (hl.blind binding hb)

/-- A tree stays coherent if what is new in it is made of visible nodes and fits in. -/
theorem coherent (closed : ast₁.types.Closed)
    (new : ∀ key entry, ast₁.entryAt? key = some entry → ast.entryAt? key = some entry ∨
      (∀ part ∈ loose entry.parts, part ∈ ast₁.visible hidden) ∧ ast₁.Links hidden entry) :
    ast₁.Coherent hidden where
  closed := closed
  parts parent key hp := by
    obtain ⟨entry, he, hm⟩ := exists_entry_of_mem_partKeys hp
    rcases new parent entry he with hold | ⟨hparts, -⟩
    · exact h.visible (hc.parts parent key (by rwa [partKeys_of_entryAt? hold]))
    · exact hparts key hm
  links key entry he := by
    rcases new key entry he with hold | ⟨-, hl⟩
    · refine h.links hc (fun part hm => ?_) (hc.links key entry hold)
      exact hc.parts key part (by rwa [partKeys_of_entryAt? hold])
    · exact hl

end Kept

/-- An entry that is no expression is linked to nothing but what it initializes. -/
theorem links_of_bindings (hc : entry.category ≠ .expr)
    (hb : ∀ binding ∈ entry.bindings, ast.Blind binding.1 binding.2) : ast.Links hidden entry where
  refers expr _ _ he := by
    subst he
    exact absurd rfl hc
  calls expr _ _ he := by
    subst he
    exact absurd rfl hc
  blind := hb

/-- A declaration that is not in the tree is not referred to. -/
theorem Coherent.unreferenced (hc : ast.Coherent hidden) {d : DeclId}
    (hd : (Node.decl d).key ∉ ast.structural) : ast.Unreferenced d :=
  fun _ expr name he hk => hd ((hc.links _ _ (entryAt?_of_expr? he)).refers expr name d rfl hk)

/-- What is called is an expression of the tree. -/
theorem Coherent.exists_callee (hc : ast.Coherent hidden) {id callee : ExprId} {expr : Expr}
    {arguments : List Argument} (he : ast.expr? id = some expr)
    (hk : expr.kind = .call callee arguments) : ∃ target, ast.expr? callee = some target := by
  have hm := Entry.mem_parts_of_call hk
  rw [← partKeys_of_entryAt? (entryAt?_of_expr? he)] at hm
  exact expr_mem_structural.mp (mem_visible.mp (hc.parts _ _ hm)).1

/-- What is not referred to is not called. -/
theorem Unreferenced.called {d : DeclId} (h : ast.Unreferenced d) (kind : DeclKind) :
    ast.Called d kind :=
  fun _ _ callee _ target name _ _ ht hkind => absurd hkind (h callee target name ht)

/-- The calls of a declaration that is not hidden have the type that it states. -/
theorem Coherent.called (hc : ast.Coherent hidden) {d : DeclId} {decl : Decl}
    (hd : ast.decl? d = some decl) (hn : (Node.decl d).key ∉ hidden) : ast.Called d decl.kind :=
  fun _ expr callee arguments target name he hk ht hkind =>
    ((hc.links _ _ (entryAt?_of_expr? he)).calls expr callee arguments rfl hk).known target name d
      decl ht hkind hn hd

/-! ### Growth -/

/-- A tree without nodes is coherent. -/
theorem coherent_empty : ({} : Ast).Coherent ∅ where
  closed := TypeTable.closed_empty
  parts parent key h := by
    obtain ⟨entry, he, -⟩ := exists_entry_of_mem_partKeys h
    obtain ⟨category, index⟩ := parent
    cases category <;> simp [entryAt?] at he
  links key entry he := by
    obtain ⟨category, index⟩ := key
    cases category <;> simp [entryAt?] at he

private theorem types_push (ast : Ast) (entry : Entry) : (ast.push entry).types = ast.types := by
  cases entry <;> rfl

/-- An entry that is added changes no other. -/
theorem kept_push (hidden : Finset NodeKey) (ast : Ast) (entry : Entry) :
    Kept hidden ast (ast.push entry) where
  entry key hk := by
    rw [entryAt?_push, if_neg]
    rintro rfl
    exact place_notMem_structural ast entry (mem_visible.mp hk).1
  held := by
    rw [structural_push]
    exact Finset.subset_insert _ _
  finds name type h := by rwa [types_push]

/-- An entry may be added that is made of visible nodes and fits in. -/
theorem Coherent.push (hc : ast.Coherent hidden)
    (parts : ∀ key ∈ loose entry.parts, key ∈ ast.visible hidden) (hl : ast.Links hidden entry) :
    (ast.push entry).Coherent hidden := by
  have hkept := kept_push hidden ast entry
  refine hkept.coherent hc (by rw [types_push]; exact hc.closed) fun key other he => ?_
  rw [entryAt?_push] at he
  split at he
  · cases he
    exact .inr ⟨fun part hm => hkept.visible (parts part hm), hkept.links hc parts hl⟩
  · exact .inl he

/-- A new node is visible. -/
theorem place_mem_visible (held : hidden ⊆ ast.structural) (entry : Entry) :
    ast.place entry ∈ (ast.push entry).visible hidden := by
  rw [mem_visible, structural_push]
  exact ⟨Finset.mem_insert_self _ _, fun h => place_notMem_structural ast entry (held h)⟩

/-- A declaration whose kind is replaced has that kind. -/
theorem decl?_setDeclKind (ast : Ast) (id : DeclId) (kind : DeclKind) :
    (ast.setDeclKind id kind).decl? id = (ast.decl? id).map ({ · with kind }) := by
  have h := entryAt?_setDeclKind ast id kind (Node.decl id).key
  rw [if_pos rfl, entryAt?_decl] at h
  exact Option.map_injective (fun _ _ => Entry.decl.inj) (h.trans (Option.map_map ..).symm)

/-- A hidden declaration may get another kind. -/
theorem kept_setDeclKind (ast : Ast) {id : DeclId} (hid : (Node.decl id).key ∈ hidden)
    (kind : DeclKind) :
    Kept hidden ast (ast.setDeclKind id kind) where
  entry key hk := by
    rw [entryAt?_setDeclKind, if_neg]
    rintro rfl
    exact (mem_visible.mp hk).2 hid
  held := by rw [structural_setDeclKind]
  finds name type h := h

/-- A hidden declaration may be replaced by one that is made of visible nodes. -/
theorem Coherent.setDeclKind (hc : ast.Coherent hidden) {id : DeclId} {kind : DeclKind}
    (hid : (Node.decl id).key ∈ hidden)
    (parts : ∀ key ∈ loose kind.nodes, key ∈ ast.visible hidden) (hb : kind.bindings = []) :
    (ast.setDeclKind id kind).Coherent hidden := by
  have hkept := kept_setDeclKind ast hid kind
  refine hkept.coherent hc hc.closed fun key other he => ?_
  rw [entryAt?_setDeclKind] at he
  split at he
  · obtain ⟨decl, -, rfl⟩ := Option.map_eq_some_iff.mp he
    refine .inr ⟨fun part hm => hkept.visible (parts part hm), ?_, ?_, ?_⟩
    · simp
    · simp
    · simp [Entry.bindings, hb]
  · exact .inl he

private theorem Links.mono {hidden' : Finset NodeKey} (hl : ast.Links hidden entry)
    (h : hidden ⊆ hidden') : ast.Links hidden' entry where
  refers := hl.refers
  calls expr callee arguments he hk :=
    have hcall := hl.calls expr callee arguments he hk
    ⟨fun target name d decl ht hkind hd =>
      hcall.known target name d decl ht hkind fun hm => hd (h hm), hcall.unknown⟩
  blind := hl.blind

/-- Hiding a key that is not in the tree hides nothing. -/
theorem visible_insert (hk : key ∉ ast.structural) :
    ast.visible (insert key hidden) = ast.visible hidden := by
  rw [visible, Finset.sdiff_insert, visible, Finset.erase_eq_of_notMem]
  exact fun hm => hk (mem_visible.mp hm).1

/-- To hide a node that is not there yet takes away nothing that is kept. -/
theorem Kept.of_insert (h : Kept (insert key hidden) ast ast₁) (hk : key ∉ ast.structural) :
    Kept hidden ast ast₁ where
  entry other ho := h.entry other (by rwa [visible_insert hk])
  held := h.held
  finds := h.finds

/-- A node may be hidden that is not there yet. -/
theorem Coherent.open (hc : ast.Coherent hidden) (hk : key ∉ ast.structural) :
    ast.Coherent (insert key hidden) where
  closed := hc.closed
  parts := by
    rw [visible_insert hk]
    exact hc.parts
  links other entry he := (hc.links other entry he).mono (Finset.subset_insert _ _)

/-- A declaration may be added that is hidden and made of visible nodes. -/
theorem Coherent.begin (hc : ast.Coherent hidden) {decl : Decl}
    (parts : ∀ key ∈ loose decl.kind.nodes, key ∈ ast.visible hidden)
    (hb : decl.kind.bindings = []) :
    (ast.push (.decl decl)).Coherent (insert (ast.place (.decl decl)) hidden) := by
  have hnew := place_notMem_structural ast (.decl decl)
  refine (hc.open hnew).push ?_ ⟨by simp, by simp, by simp [Entry.bindings, hb]⟩
  rw [visible_insert hnew]
  exact parts

/-- A hidden declaration may be revealed when the calls of it fit. -/
theorem Coherent.reveal {d : DeclId} {decl : Decl}
    (hc : ast.Coherent (insert (Node.decl d).key hidden)) (hd : ast.decl? d = some decl)
    (called : ast.Called d decl.kind) : ast.Coherent hidden where
  closed := hc.closed
  parts parent key hp := by
    have hv := hc.parts parent key hp
    rw [mem_visible] at hv ⊢
    exact ⟨hv.1, fun hm => hv.2 (Finset.mem_insert_of_mem hm)⟩
  links key entry he := by
    have hl := hc.links key entry he
    refine ⟨hl.refers, fun expr callee arguments hexpr hk => ⟨?_, ?_⟩, hl.blind⟩
    · intro target name other found ht hkind hn hother
      by_cases hsame : other = d
      · subst hsame
        cases hd.symm.trans hother
        subst hexpr
        exact called ⟨key.index⟩ expr callee arguments target name
          (expr?_of_entryAt? he) hk ht hkind
      · refine (hl.calls expr callee arguments hexpr hk).known target name other found ht hkind ?_
          hother
        rw [Finset.mem_insert, not_or]
        exact ⟨fun hkey => hsame (by cases other; cases d; simpa [Node.key] using hkey), hn⟩
    · exact (hl.calls expr callee arguments hexpr hk).unknown

end Ast

end SwiftRelations
