import Mathlib.Data.Finset.SDiff
import SwiftRelations.Extraction.Walk
import SwiftRelations.Proofs.Ast.Forest
import SwiftRelations.Proofs.Ast.References
import SwiftRelations.Proofs.Types.Growth

/-!
# Growth of a syntax tree

The arenas of a tree are read through one function from keys to entries, and grow by one entry at a
time. What an entry is made of are the nodes it names, types and the target of a reference apart.
While a declaration is unfinished its parts are not counted as its own, so that it may be replaced
at will until it is given its parts for good.
-/

namespace SwiftRelations

/-- The nodes an expression is made of. A reference is not made of the declaration it names. -/
def ExprKind.parts : ExprKind → List Node
  | .declRef .. => []
  | kind => kind.nodes

/-- What an arena holds at one place. -/
inductive Ast.Entry where
  | decl (decl : Decl)
  | stmt (stmt : Stmt)
  | stmtCondition (condition : StmtCondition)
  | caseLabelItem (item : CaseLabelItem)
  | expr (expr : Expr)
  | pattern (pattern : Pattern)
  | typeRepr (repr : TypeRepr)

namespace Ast.Entry

/-- The category of the nodes with such an entry. -/
def category : Entry → Category
  | .decl _ => .decl
  | .stmt _ => .stmt
  | .stmtCondition _ => .stmtCondition
  | .caseLabelItem _ => .caseLabelItem
  | .expr _ => .expr
  | .pattern _ => .pattern
  | .typeRepr _ => .typeRepr

/-- All nodes an entry names. -/
def nodes : Entry → List Node
  | .decl d => d.kind.nodes
  | .stmt s => s.kind.nodes
  | .stmtCondition c => c.elements.flatMap ConditionElement.nodes
  | .caseLabelItem item => .pattern item.pattern :: (item.guard.map Node.expr).toList
  | .expr e => e.kind.nodes ++ (e.type.map Node.type).toList
  | .pattern p => p.kind.nodes
  | .typeRepr _ => []

/-- The nodes an entry is made of. -/
def parts : Entry → List Node
  | .expr e => e.kind.parts
  | entry => entry.nodes

end Ast.Entry

/-- The keys of some nodes, types left out. -/
def loose (nodes : List Node) : Multiset NodeKey :=
  ((nodes.map Node.key).filter (·.category ≠ .type) : List NodeKey)

/-- No nodes have no structural keys. -/
@[simp]
theorem loose_nil : loose [] = 0 := rfl

/-- The structural keys of nodes are added up. -/
@[simp]
theorem loose_append (a b : List Node) : loose (a ++ b) = loose a + loose b := by
  simp [loose]

private theorem loose_cons (node : Node) (nodes : List Node) :
    loose (node :: nodes) = loose [node] + loose nodes :=
  loose_append [node] nodes

private theorem loose_type (id : TypeId) : loose [.type id] = 0 := rfl

/-- A node that is no type has its key. -/
theorem loose_of_category {node : Node} (h : node.category ≠ .type) :
    loose [node] = {node.key} := by
  have hk : node.key.category ≠ .type := h
  simp [loose, hk]

/-- The order of the nodes does not matter for their keys. -/
theorem loose_perm {a b : List Node} (h : a.Perm b) : loose a = loose b :=
  Multiset.coe_eq_coe.mpr ((h.map _).filter _)

/-- Nodes that are types are nothing to keep. -/
theorem loose_types (ids : List TypeId) : loose (ids.map .type) = 0 := by
  induction ids with
  | nil => rfl
  | cons id ids ih => rw [List.map_cons, loose_cons, ih, loose_type, add_zero]

/-- The types a node comes with. -/
def Node.types : Node → List TypeId
  | .type id => [id]
  | .writtenType written => written.type.toList
  | _ => []

/-- Whether the types some nodes come with are types of the table. -/
def TypeTable.Covers (table : TypeTable) (nodes : List Node) : Prop :=
  ∀ node ∈ nodes, ∀ type ∈ node.types, table.Has type

namespace TypeTable.Covers

variable {table table' : TypeTable} {a b : List Node}

/-- A table that grows still has the types that it had. -/
theorem mono (h : table.Covers a) (hs : table.size ≤ table'.size) : table'.Covers a :=
  fun node hn type ht => (h node hn type ht).mono hs

/-- A table that has the types among some nodes has those among fewer. -/
theorem subset (h : table.Covers b) (hs : a ⊆ b) : table.Covers a :=
  fun node hn => h node (hs hn)

/-- A table has the types among the nodes of two lists if it has those of each. -/
theorem append (ha : table.Covers a) (hb : table.Covers b) : table.Covers (a ++ b) := by
  intro node hn
  rcases List.mem_append.mp hn with hn | hn
  · exact ha node hn
  · exact hb node hn

/-- A table that has the types of two lists has those of the first. -/
theorem left (h : table.Covers (a ++ b)) : table.Covers a := h.subset (List.subset_append_left a b)

/-- A table that has the types of two lists has those of the second. -/
theorem right (h : table.Covers (a ++ b)) : table.Covers b :=
  h.subset (List.subset_append_right a b)

/-- Nodes without types are covered. -/
theorem of_types_eq_nil (h : ∀ node ∈ a, node.types = []) : table.Covers a := by
  intro node hn type ht
  rw [h node hn] at ht
  cases ht

end TypeTable.Covers

namespace Ast

variable {ast : Ast} {entry : Entry} {key : NodeKey} {hidden : Finset NodeKey}
  {roots : Multiset NodeKey}

/-! ### Entries -/

/-- What stands at a place, if it is a place of an arena. -/
def entryAt? (ast : Ast) (key : NodeKey) : Option Entry :=
  match key.category with
  | .decl => ast.decls[key.index]?.map .decl
  | .stmt => ast.stmts[key.index]?.map .stmt
  | .stmtCondition => ast.stmtConditions[key.index]?.map .stmtCondition
  | .caseLabelItem => ast.caseLabelItems[key.index]?.map .caseLabelItem
  | .expr => ast.exprs[key.index]?.map .expr
  | .pattern => ast.patterns[key.index]?.map .pattern
  | .typeRepr => ast.typeReprs[key.index]?.map .typeRepr
  | .type => none

/-- The tree with an entry at the end of its arena. -/
def push (ast : Ast) : Entry → Ast
  | .decl decl => { ast with decls := ast.decls.push decl }
  | .stmt stmt => { ast with stmts := ast.stmts.push stmt }
  | .stmtCondition condition =>
    { ast with stmtConditions := ast.stmtConditions.push condition }
  | .caseLabelItem item => { ast with caseLabelItems := ast.caseLabelItems.push item }
  | .expr expr => { ast with exprs := ast.exprs.push expr }
  | .pattern pattern => { ast with patterns := ast.patterns.push pattern }
  | .typeRepr repr => { ast with typeReprs := ast.typeReprs.push repr }

/-- Where an entry will stand that is added to the tree. -/
def place (ast : Ast) (entry : Entry) : NodeKey := ⟨entry.category, ast.count entry.category⟩

/-- There is an entry at each place that is not one of a type. -/
theorem isSome_entryAt? : (ast.entryAt? key).isSome ↔ ast.Holds key ∧ key.category ≠ .type := by
  obtain ⟨category, index⟩ := key
  cases category <;> simp [entryAt?, Holds, count]

/-- The place of a new entry is free. -/
theorem entryAt?_place (ast : Ast) (entry : Entry) : ast.entryAt? (ast.place entry) = none := by
  cases entry <;> simp [entryAt?, place, Entry.category, count]

/-- A new entry stands at its place, and the others where they stood. -/
theorem entryAt?_push (ast : Ast) (entry : Entry) (key : NodeKey) :
    (ast.push entry).entryAt? key =
      if key = ast.place entry then some entry else ast.entryAt? key := by
  obtain ⟨category, index⟩ := key
  cases entry <;> cases category <;>
    simp only [entryAt?, push, place, Entry.category, count, NodeKey.mk.injEq, reduceCtorEq,
      false_and, true_and, if_false, Array.getElem?_push] <;>
    split <;> rfl

/-- The entries do not depend on the types. -/
theorem entryAt?_types (ast : Ast) (types : TypeTable) (key : NodeKey) :
    entryAt? { ast with types } key = ast.entryAt? key := rfl

/-- Replacing the kind of a declaration changes its entry alone. -/
theorem entryAt?_setDeclKind (ast : Ast) (id : DeclId) (kind : DeclKind) (key : NodeKey) :
    (ast.setDeclKind id kind).entryAt? key =
      if key = (Node.decl id).key then (ast.decl? id).map fun decl => .decl { decl with kind }
      else ast.entryAt? key := by
  obtain ⟨category, index⟩ := key
  cases category <;>
    simp only [entryAt?, setDeclKind, Node.key, NodeKey.mk.injEq, reduceCtorEq, false_and,
      true_and, if_false, Array.getElem?_modify, decl?]
  by_cases h : index = id.index
  · subst h
    simp [Function.comp_def]
  · simp [h, Ne.symm h]

/-- What a node refers to is read off its entry, types and annotations apart. -/
theorem references_eq {node : Node} (ht : node.category ≠ .type) (hr : node.category ≠ .typeRepr) :
    ast.references node = ((ast.entryAt? node.key).map Entry.nodes).getD [] := by
  cases node with
  | type id => exact absurd rfl ht
  | writtenType written => exact absurd rfl hr
  | decl id =>
    cases h : ast.decls[id.index]? <;>
      simp [references, entryAt?, Node.key, decl?, h, Entry.nodes]
  | stmt id =>
    cases h : ast.stmts[id.index]? <;>
      simp [references, entryAt?, Node.key, stmt?, h, Entry.nodes]
  | stmtCondition id =>
    cases h : ast.stmtConditions[id.index]? <;>
      simp [references, entryAt?, Node.key, stmtCondition?, h, Entry.nodes]
  | caseLabelItem id =>
    cases h : ast.caseLabelItems[id.index]? <;>
      simp [references, entryAt?, Node.key, caseLabelItem?, h, Entry.nodes]
  | expr id =>
    cases h : ast.exprs[id.index]? <;>
      simp [references, entryAt?, Node.key, expr?, h, Entry.nodes]
  | pattern id =>
    cases h : ast.patterns[id.index]? <;>
      simp [references, entryAt?, Node.key, pattern?, h, Entry.nodes]

/-! ### Types -/

/-- The type table is closed, and all types that entries name are in it. -/
structure Typed (ast : Ast) : Prop where
  closed : ast.types.Closed
  covers : ∀ key entry, ast.entryAt? key = some entry → ast.types.Covers entry.nodes

/-- A tree without nodes names no types. -/
theorem typed_empty : ({} : Ast).Typed where
  closed := TypeTable.closed_empty
  covers key entry h := by
    obtain ⟨category, index⟩ := key
    cases category <;> simp [entryAt?] at h

/-- An entry that names known types may be added. -/
theorem Typed.push (h : ast.Typed) (known : ast.types.Covers entry.nodes) :
    (ast.push entry).Typed := by
  have ht : (ast.push entry).types = ast.types := by cases entry <;> rfl
  refine ⟨ht ▸ h.closed, fun key other he => ?_⟩
  rw [ht]
  rw [entryAt?_push] at he
  split at he
  · cases he
    exact known
  · exact h.covers key other he

/-- The types may grow. -/
theorem Typed.types (h : ast.Typed) {types : TypeTable} (closed : types.Closed)
    (hs : ast.types.size ≤ types.size) : Typed { ast with types } :=
  ⟨closed, fun key entry he => (h.covers key entry he).mono hs⟩

/-- A declaration may be replaced by one that names known types. -/
theorem Typed.setDeclKind (h : ast.Typed) {id : DeclId} {kind : DeclKind}
    (known : ast.types.Covers kind.nodes) : (ast.setDeclKind id kind).Typed := by
  refine ⟨h.closed, fun key entry he => ?_⟩
  rw [entryAt?_setDeclKind] at he
  split at he
  · obtain ⟨decl, -, rfl⟩ := Option.map_eq_some_iff.mp he
    exact known
  · exact h.covers key entry he

/-! ### Structure -/

/-- The keys of all nodes that are no types. -/
def structural (ast : Ast) : Finset NodeKey :=
  (ast.keys.filter (·.category ≠ .type)).toFinset

/-- The structural keys are those under which there is an entry. -/
theorem mem_structural : key ∈ ast.structural ↔ (ast.entryAt? key).isSome := by
  simp [structural, isSome_entryAt?, mem_keys]

/-- The place of the next entry is free. -/
theorem place_notMem_structural (ast : Ast) (entry : Entry) :
    ast.place entry ∉ ast.structural := by
  simp [mem_structural, entryAt?_place]

/-- An entry that is added adds the key of its place. -/
theorem structural_push (ast : Ast) (entry : Entry) :
    (ast.push entry).structural = insert (ast.place entry) ast.structural := by
  ext key
  rw [mem_structural, entryAt?_push, Finset.mem_insert, mem_structural]
  split <;> simp_all

/-- Another kind for a declaration adds and removes no keys. -/
theorem structural_setDeclKind (ast : Ast) (id : DeclId) (kind : DeclKind) :
    (ast.setDeclKind id kind).structural = ast.structural := by
  ext key
  rw [mem_structural, entryAt?_setDeclKind, mem_structural]
  split
  case isTrue h => simp [h, entryAt?, Node.key, decl?]
  case isFalse => rfl

/-- The keys of the nodes that a node is made of. -/
def partKeys (ast : Ast) (key : NodeKey) : Multiset NodeKey :=
  loose (((ast.entryAt? key).map Entry.parts).getD [])

/-- The nodes that are not hidden are a forest with some roots. -/
def Grown (ast : Ast) (hidden : Finset NodeKey) (roots : Multiset NodeKey) : Prop :=
  Forest (ast.structural \ hidden) ast.partKeys roots

/-- A tree without nodes is a forest without roots. -/
theorem grown_empty : ({} : Ast).Grown ∅ 0 := by
  have h : ({} : Ast).structural = ∅ := by
    ext key
    obtain ⟨category, index⟩ := key
    cases category <;> simp [mem_structural, entryAt?]
  rw [Grown, h, Finset.empty_sdiff]
  exact Forest.empty _

private theorem partKeys_push_of_mem (hk : key ∈ ast.structural) :
    (ast.push entry).partKeys key = ast.partKeys key := by
  have hne : key ≠ ast.place entry := fun he => place_notMem_structural ast entry (he ▸ hk)
  rw [partKeys, entryAt?_push, if_neg hne, partKeys]

/-- The entry added last has the parts it was added with. -/
theorem partKeys_place (ast : Ast) (entry : Entry) :
    (ast.push entry).partKeys (ast.place entry) = loose entry.parts := by
  rw [partKeys, entryAt?_push, if_pos rfl, Option.map_some, Option.getD_some]

/-- Another kind for a declaration changes the parts of no other node. -/
theorem partKeys_setDeclKind_of_ne {id : DeclId} {kind : DeclKind}
    (hk : key ≠ (Node.decl id).key) :
    (ast.setDeclKind id kind).partKeys key = ast.partKeys key := by
  rw [partKeys, entryAt?_setDeclKind, if_neg hk, partKeys]

/-- A node may be added whose parts are roots. -/
theorem Grown.push (h : ast.Grown hidden (loose entry.parts + roots))
    (held : hidden ⊆ ast.structural) :
    (ast.push entry).Grown hidden ({ast.place entry} + roots) := by
  have hp := place_notMem_structural ast entry
  rw [Grown, structural_push, Finset.insert_sdiff_of_notMem _ fun hm => hp (held hm)]
  refine Forest.insert (?_ : Forest _ ast.partKeys _) ?_ ?_
  · rwa [partKeys_place]
  · exact fun hm => hp (Finset.mem_sdiff.mp hm).1
  · exact fun key hk => partKeys_push_of_mem (Finset.mem_sdiff.mp hk).1

/-- A node may be added that stays hidden. -/
theorem Grown.open (h : ast.Grown hidden roots) (entry : Entry) :
    (ast.push entry).Grown (insert (ast.place entry) hidden) roots := by
  have hp := place_notMem_structural ast entry
  have hs : insert (ast.place entry) ast.structural \ insert (ast.place entry) hidden =
      ast.structural \ hidden := by
    ext key
    simp only [Finset.mem_sdiff, Finset.mem_insert]
    constructor
    · rintro ⟨hk | hk, hn⟩
      · exact absurd (.inl hk) hn
      · exact ⟨hk, fun hh => hn (.inr hh)⟩
    · rintro ⟨hk, hn⟩
      refine ⟨.inr hk, ?_⟩
      rintro (rfl | hh)
      · exact hp hk
      · exact hn hh
  rw [Grown, structural_push, hs]
  exact h.congr fun key hk => partKeys_push_of_mem (Finset.mem_sdiff.mp hk).1

/-- A hidden declaration may be replaced. -/
theorem Grown.replace (h : ast.Grown hidden roots) {id : DeclId} {kind : DeclKind}
    (hid : (Node.decl id).key ∈ hidden) : (ast.setDeclKind id kind).Grown hidden roots := by
  rw [Grown, structural_setDeclKind]
  refine h.congr fun key hk => partKeys_setDeclKind_of_ne ?_
  rintro rfl
  exact (Finset.mem_sdiff.mp hk).2 hid

/-- A hidden declaration may be given its parts. -/
theorem Grown.close {id : DeclId} {kind : DeclKind}
    (h : ast.Grown (insert (Node.decl id).key hidden) (loose kind.nodes + roots))
    (held : (Node.decl id).key ∈ ast.structural) (hid : (Node.decl id).key ∉ hidden) :
    (ast.setDeclKind id kind).Grown hidden ({(Node.decl id).key} + roots) := by
  have hs : ast.structural \ hidden =
      insert (Node.decl id).key (ast.structural \ insert (Node.decl id).key hidden) := by
    rw [Finset.sdiff_insert, Finset.insert_erase]
    exact Finset.mem_sdiff.mpr ⟨held, hid⟩
  have hd : (ast.setDeclKind id kind).partKeys (Node.decl id).key = loose kind.nodes := by
    obtain ⟨entry, he⟩ := Option.isSome_iff_exists.mp (mem_structural.mp held)
    obtain ⟨decl, hd, -⟩ := Option.map_eq_some_iff.mp he
    rw [partKeys, entryAt?_setDeclKind, if_pos rfl, decl?]
    simp only [Node.key] at hd
    rw [hd]
    rfl
  rw [Grown, structural_setDeclKind, hs]
  refine Forest.insert (?_ : Forest _ ast.partKeys _) ?_ ?_
  · rwa [hd]
  · simp
  · intro key hk
    apply partKeys_setDeclKind_of_ne
    rintro rfl
    simp at hk

/-- Types have no part in the structure. -/
theorem Grown.types (h : ast.Grown hidden roots) (types : TypeTable) :
    Grown { ast with types } hidden roots := by
  have hs : structural { ast with types } = ast.structural := by
    ext key
    rw [mem_structural, entryAt?_types, mem_structural]
  rw [Grown, hs]
  exact h

end Ast

end SwiftRelations
