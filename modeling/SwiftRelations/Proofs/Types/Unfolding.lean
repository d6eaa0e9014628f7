import SwiftRelations.Data.List
import SwiftRelations.Proofs.Types.Consistency

/-!
# Types written out

A type of a table refers to its parts by their places. Written out, it is a tree that has the parts
themselves, and no longer depends on the table: a table that grows leaves it as it is. The canonical
name of a type is a function of its tree.
-/

namespace SwiftRelations

open SwiftRelations.Text SwiftRelations.Types

/-- A type with its parts in it. -/
inductive TypeTree where
  | nominal (name : String) (args : List TypeTree)
  | optional (base : TypeTree)
  | array (element : TypeTree)
  | dictionary (key value : TypeTree)
  | tuple (elements : List TypeTree)
  | function (params : List TypeTree) (result : TypeTree)
  | unknown (text : String)
  deriving Repr, Inhabited

namespace TypeTree

/-- Whether a tree is that of a function type. -/
def isFunction : TypeTree → Bool
  | .function .. => true
  | _ => false

mutual

/-- The canonical name of a tree. -/
def name : TypeTree → String
  | .nominal name [] => name
  | .nominal name (arg :: args) => name ++ "<" ++ ", ".intercalate (namesOfAll (arg :: args)) ++ ">"
  | .optional base => if base.isFunction then "(" ++ name base ++ ")?" else name base ++ "?"
  | .array element => "[" ++ name element ++ "]"
  | .dictionary key value => "[" ++ name key ++ ": " ++ name value ++ "]"
  | .tuple elements => "(" ++ ", ".intercalate (namesOfAll elements) ++ ")"
  | .function params result =>
    "(" ++ ", ".intercalate (namesOfAll params) ++ ") -> " ++ name result
  | .unknown text => trim text

/-- The canonical names of some trees. -/
def namesOfAll : List TypeTree → List String
  | [] => []
  | tree :: trees => name tree :: namesOfAll trees

end

/-- The names of a list of trees are those of each. -/
theorem namesOfAll_eq_map (trees : List TypeTree) : namesOfAll trees = trees.map name := by
  induction trees with
  | nil => rfl
  | cons tree trees ih => rw [namesOfAll, ih, List.map_cons]

end TypeTree

mutual

/-- The tree of the type with a given shape. -/
def Types.Shape.tree : Shape → TypeTree
  | .named name args => .nominal name (treesOfAll args)
  | .optional base => .optional base.tree
  | .array element => .array element.tree
  | .dictionary key value => .dictionary key.tree value.tree
  | .tuple elements => .tuple (treesOfAll elements)
  | .function params result => .function (treesOfAll params) result.tree

/-- The trees of the types with given shapes. -/
def Types.Shape.treesOfAll : List Shape → List TypeTree
  | [] => []
  | shape :: shapes => shape.tree :: treesOfAll shapes

end

/-- The trees of a list of shapes are those of each. -/
theorem Types.Shape.treesOfAll_eq_map (shapes : List Shape) :
    treesOfAll shapes = shapes.map tree := by
  induction shapes with
  | nil => rfl
  | cons shape shapes ih => rw [treesOfAll, ih, List.map_cons]

/-- The tree of a kind of type, given the trees of the parts. -/
def TypeKind.tree? (part : TypeId → Option TypeTree) : TypeKind → Option TypeTree
  | .nominal name args => (args.mapM part).map (.nominal name)
  | .optional base => (part base).map .optional
  | .array element => (part element).map .array
  | .dictionary key value => do return .dictionary (← part key) (← part value)
  | .tuple elements => (elements.mapM part).map .tuple
  | .function params result => do return .function (← params.mapM part) (← part result)
  | .unknown text => some (.unknown text)

namespace TypeTable

/-- The tree of the type at a place, as long as it is not higher than `depth`. -/
def unfold (table : TypeTable) : Nat → TypeId → Option TypeTree
  | 0, _ => none
  | depth + 1, id => (table.get? id).bind fun entry => entry.kind.tree? (table.unfold depth)

/-- The tree of the type at a place. The parts of a type stand before it, so that its place bounds
its height. -/
def tree? (table : TypeTable) (id : TypeId) : Option TypeTree := table.unfold (id.index + 1) id

end TypeTable

/-! ### Trees of parts -/

section Parts

variable {kind : TypeKind} {part part' : TypeId → Option TypeTree} {tree : TypeTree}

private theorem TypeKind.tree?_dictionary {key value : TypeId} :
    (TypeKind.dictionary key value).tree? part = some tree ↔
      ∃ first second, part key = some first ∧ part value = some second ∧
        .dictionary first second = tree := by
  simp [TypeKind.tree?, Option.bind_eq_some_iff]

private theorem TypeKind.tree?_function {params : List TypeId} {result : TypeId} :
    (TypeKind.function params result).tree? part = some tree ↔
      ∃ trees last, params.mapM part = some trees ∧ part result = some last ∧
        .function trees last = tree := by
  simp [TypeKind.tree?, Option.bind_eq_some_iff]

/-- The tree of a kind of type depends only on the trees of its parts. -/
theorem TypeKind.tree?_congr (h : ∀ id ∈ kind.parts, part id = part' id) :
    kind.tree? part = kind.tree? part' := by
  cases kind with
  | nominal name args =>
    have hargs : args.mapM part = args.mapM part' := List.mapM_congr h
    rw [tree?, tree?, hargs]
  | optional base => rw [tree?, tree?, h base (List.mem_singleton_self base)]
  | array element => rw [tree?, tree?, h element (List.mem_singleton_self element)]
  | dictionary key value =>
    have hvalue := h value (List.mem_cons_of_mem key (List.mem_singleton_self value))
    rw [tree?, tree?, h key List.mem_cons_self, hvalue]
  | tuple elements =>
    have helements : elements.mapM part = elements.mapM part' := List.mapM_congr h
    rw [tree?, tree?, helements]
  | function params result =>
    have hparams := List.mapM_congr fun id hid => h id (List.mem_append_left [result] hid)
    have hresult := h result (List.mem_append_right params (List.mem_singleton_self result))
    rw [tree?, tree?, hparams, hresult]
  | unknown text => rfl

/-- The parts of a kind of type that has a tree have trees. -/
theorem TypeKind.exists_tree (h : kind.tree? part = some tree) :
    ∀ id ∈ kind.parts, ∃ tree, part id = some tree := by
  cases kind with
  | nominal name args =>
    obtain ⟨trees, ht, -⟩ := Option.map_eq_some_iff.mp h
    exact List.exists_of_map_eq_map_some (List.mapM_eq_some_iff.mp ht)
  | optional base =>
    obtain ⟨tree, ht, -⟩ := Option.map_eq_some_iff.mp h
    simpa [parts] using ⟨tree, ht⟩
  | array element =>
    obtain ⟨tree, ht, -⟩ := Option.map_eq_some_iff.mp h
    simpa [parts] using ⟨tree, ht⟩
  | dictionary key value =>
    obtain ⟨first, second, hf, hl, -⟩ := tree?_dictionary.mp h
    simpa [parts] using ⟨⟨first, hf⟩, second, hl⟩
  | tuple elements =>
    obtain ⟨trees, ht, -⟩ := Option.map_eq_some_iff.mp h
    exact List.exists_of_map_eq_map_some (List.mapM_eq_some_iff.mp ht)
  | function params result =>
    obtain ⟨trees, last, ht, hl, -⟩ := tree?_function.mp h
    have hparams := List.exists_of_map_eq_map_some (List.mapM_eq_some_iff.mp ht)
    simpa [parts, or_imp, forall_and] using ⟨hparams, last, hl⟩
  | unknown text => simp [parts]

/-- The trees of kinds of types are functions where the types are. -/
theorem TypeTable.isFunction_eq {table : TypeTable} {id : TypeId} {entry : TypeEntry}
    (he : table.get? id = some entry) (h : entry.kind.tree? part = some tree) :
    table.isFunction id = tree.isFunction := by
  obtain ⟨kind, name⟩ := entry
  rw [TypeTable.isFunction, he]
  cases kind with
  | nominal name args =>
    obtain ⟨trees, -, rfl⟩ := Option.map_eq_some_iff.mp h
    rfl
  | optional base =>
    obtain ⟨base, -, rfl⟩ := Option.map_eq_some_iff.mp h
    rfl
  | array element =>
    obtain ⟨element, -, rfl⟩ := Option.map_eq_some_iff.mp h
    rfl
  | dictionary key value =>
    obtain ⟨first, second, -, -, rfl⟩ := TypeKind.tree?_dictionary.mp h
    rfl
  | tuple elements =>
    obtain ⟨trees, -, rfl⟩ := Option.map_eq_some_iff.mp h
    rfl
  | function params result =>
    obtain ⟨trees, last, -, -, rfl⟩ := TypeKind.tree?_function.mp h
    rfl
  | unknown text =>
    cases h
    rfl

/-- Whether a place has the name of a tree, and is that of a function where the tree is one. -/
structure TypeTable.Spells (table : TypeTable) (id : TypeId) (tree : TypeTree) : Prop where
  name : table.nameOf id = tree.name
  isFunction : table.isFunction id = tree.isFunction

/-- The names of types are those of their trees. -/
theorem TypeTable.namesOf_eq {table : TypeTable} {ids : List TypeId} {trees : List TypeTree}
    (hs : ∀ id ∈ ids, ∀ tree, part id = some tree → table.Spells id tree)
    (h : ids.mapM part = some trees) :
    table.namesOf ids = ", ".intercalate (TypeTree.namesOfAll trees) := by
  have hnames := List.map_eq_of_mapM_eq_some (fun id hid tree ht => (hs id hid tree ht).name) h
  rw [TypeTable.namesOf, hnames, TypeTree.namesOfAll_eq_map]

/-- The canonical name of a type is the name of its tree. -/
theorem TypeTable.canonicalName_eq {table : TypeTable}
    (hs : ∀ id ∈ kind.parts, ∀ tree, part id = some tree → table.Spells id tree)
    (h : kind.tree? part = some tree) : table.canonicalName kind = tree.name := by
  cases kind with
  | nominal name args =>
    obtain ⟨trees, ht, rfl⟩ := Option.map_eq_some_iff.mp h
    have hnames : table.namesOf args = _ := TypeTable.namesOf_eq hs ht
    have hlength := congrArg List.length (List.mapM_eq_some_iff.mp ht)
    cases args with
    | nil =>
      cases trees with
      | nil => rfl
      | cons tree trees => simp at hlength
    | cons arg args =>
      cases trees with
      | nil => simp at hlength
      | cons tree trees =>
        rw [TypeTable.canonicalName, TypeTree.name, hnames]
        exact List.cons_ne_nil arg args
  | optional base =>
    obtain ⟨tree, ht, rfl⟩ := Option.map_eq_some_iff.mp h
    have hbase := hs base (List.mem_singleton_self base) tree ht
    rw [TypeTable.canonicalName, TypeTree.name, hbase.name, hbase.isFunction]
  | array element =>
    obtain ⟨tree, ht, rfl⟩ := Option.map_eq_some_iff.mp h
    have helement := hs element (List.mem_singleton_self element) tree ht
    rw [TypeTable.canonicalName, TypeTree.name, helement.name]
  | dictionary key value =>
    obtain ⟨first, second, hf, hl, rfl⟩ := TypeKind.tree?_dictionary.mp h
    have hkey := hs key List.mem_cons_self first hf
    have hvalue := hs value (List.mem_cons_of_mem key (List.mem_singleton_self value)) second hl
    rw [TypeTable.canonicalName, TypeTree.name, hkey.name, hvalue.name]
  | tuple elements =>
    obtain ⟨trees, ht, rfl⟩ := Option.map_eq_some_iff.mp h
    have hnames : table.namesOf elements = _ := TypeTable.namesOf_eq hs ht
    rw [TypeTable.canonicalName, TypeTree.name, hnames]
  | function params result =>
    obtain ⟨trees, last, ht, hl, rfl⟩ := TypeKind.tree?_function.mp h
    have hparams := TypeTable.namesOf_eq (fun id hid => hs id (List.mem_append_left _ hid)) ht
    have hresult := hs result (List.mem_append_right _ (List.mem_singleton_self result)) last hl
    rw [TypeTable.canonicalName, TypeTree.name, hparams, hresult.name]
  | unknown text =>
    cases h
    rfl

end Parts

/-! ### Trees of a table -/

namespace TypeTable

variable {table table' : TypeTable} {id : TypeId} {entry : TypeEntry} {tree : TypeTree}

/-- A place with a tree is that of a type. -/
theorem has_of_tree? (h : table.tree? id = some tree) : table.Has id := by
  rw [tree?, unfold] at h
  obtain ⟨entry, he, -⟩ := Option.bind_eq_some_iff.mp h
  exact has_iff.mpr ⟨entry, he⟩

/-- Every depth that is not too small gives the same tree. -/
theorem Consistent.unfold_eq (h : table.Consistent) {depth depth' : Nat} (hd : id.index < depth)
    (hd' : id.index < depth') : table.unfold depth id = table.unfold depth' id := by
  induction depth generalizing depth' id with
  | zero => exact absurd hd (Nat.not_lt_zero _)
  | succ depth ih =>
    obtain ⟨depth', rfl⟩ := Nat.exists_eq_add_one_of_ne_zero (Nat.ne_zero_of_lt hd')
    rw [unfold, unfold]
    cases he : table.get? id with
    | none => rfl
    | some entry =>
      refine TypeKind.tree?_congr fun part hp => ?_
      have hlt := h.ordered id entry he part hp
      exact ih (by omega) (by omega)

/-- The tree of a type is made of the trees of its parts. -/
theorem Consistent.tree?_eq (h : table.Consistent) (id : TypeId) :
    table.tree? id = (table.get? id).bind fun entry => entry.kind.tree? table.tree? := by
  rw [tree?, unfold]
  cases he : table.get? id with
  | none => rfl
  | some entry =>
    exact TypeKind.tree?_congr fun part hp =>
      h.unfold_eq (h.ordered id entry he part hp) (Nat.lt_succ_self _)

/-- A type keeps its tree when the table grows. -/
theorem Extends.tree? (h : table.Extends table') (closed : table.Closed) (hid : table.Has id) :
    table'.tree? id = table.tree? id := by
  have hunfold (depth : Nat) :
      ∀ id, table.Has id → table'.unfold depth id = table.unfold depth id := by
    induction depth with
    | zero => exact fun _ _ => rfl
    | succ depth ih =>
      intro id hid
      obtain ⟨entry, he⟩ := has_iff.mp hid
      rw [unfold, unfold, he, h id entry he]
      exact TypeKind.tree?_congr fun part hp => ih part (closed.parts id entry he part hp)
  exact hunfold _ id hid

/-- The name of a type is that of its tree. -/
theorem Consistent.spells (h : table.Consistent) (ht : table.tree? id = some tree) :
    table.Spells id tree := by
  induction hn : id.index using Nat.strongRecOn generalizing id tree with
  | _ n ih =>
    rw [h.tree?_eq] at ht
    obtain ⟨entry, he, ht⟩ := Option.bind_eq_some_iff.mp ht
    refine ⟨?_, isFunction_eq he ht⟩
    have hname : table.nameOf id = entry.name := by rw [nameOf, he]
    rw [hname, h.canonical id entry he]
    refine canonicalName_eq (fun part hp tree ht => ?_) ht
    exact ih part.index (hn ▸ h.ordered id entry he part hp) ht rfl

/-- Types whose trees have the same name are the same. -/
theorem Consistent.eq_of_name (h : table.Consistent) {other : TypeId} {tree' : TypeTree}
    (ht : table.tree? id = some tree) (ho : table.tree? other = some tree')
    (hname : tree.name = tree'.name) : id = other := by
  apply h.distinct (has_of_tree? ht) (has_of_tree? ho)
  rw [(h.spells ht).name, (h.spells ho).name, hname]

end TypeTable

end SwiftRelations
