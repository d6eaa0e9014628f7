import SwiftRelations.Source.Tree

/-!
# Trees below a tree

Whatever way a tree is asked for its parts, by position, by kind or by field, it answers with trees
below it: they are less high, and what is below them is below it.
-/

namespace SwiftRelations.Tree

variable {t u v : Tree} {ts : List Tree}

/-- The trees of a list and those below them are the subtrees of its members. -/
theorem mem_subtreesOfAll : u ∈ subtreesOfAll ts ↔ ∃ t ∈ ts, u ∈ t.subtrees := by
  induction ts with
  | nil => simp [subtreesOfAll]
  | cons t ts ih => simp [subtreesOfAll, ih]

/-- The subtrees of a tree are the tree and those below it. -/
theorem mem_subtrees : u ∈ t.subtrees ↔ u = t ∨ u ∈ t.descendants := by
  obtain ⟨head, children⟩ := t
  rw [subtrees, List.mem_cons]
  rfl

/-- A tree is one of its subtrees. -/
theorem mem_subtrees_self (t : Tree) : t ∈ t.subtrees := mem_subtrees.mpr (.inl rfl)

/-- What is below a tree is its children and what is below them. -/
theorem mem_descendants : u ∈ t.descendants ↔ ∃ c ∈ t.children, u ∈ c.subtrees :=
  mem_subtreesOfAll

mutual

/-- The subtrees of a subtree are subtrees. -/
theorem subtrees_subset {t u : Tree} (h : u ∈ t.subtrees) : u.subtrees ⊆ t.subtrees := by
  obtain ⟨head, children⟩ := t
  rcases mem_subtrees.mp h with rfl | h
  · exact List.Subset.refl _
  · rw [subtrees]
    exact List.subset_cons_of_subset _ (subtreesOfAll_subset h)

/-- The subtrees of a subtree are subtrees, for those of a list. -/
theorem subtreesOfAll_subset {ts : List Tree} {u : Tree} (h : u ∈ subtreesOfAll ts) :
    u.subtrees ⊆ subtreesOfAll ts := by
  cases ts with
  | nil => cases h
  | cons t ts =>
    rw [subtreesOfAll] at h ⊢
    rcases List.mem_append.mp h with h | h
    · exact List.subset_append_of_subset_left _ (subtrees_subset h)
    · exact List.subset_append_of_subset_right _ (subtreesOfAll_subset h)

end

/-- What is below a tree below another is below that one. -/
theorem descendants_trans (h : u ∈ t.descendants) (hv : v ∈ u.descendants) :
    v ∈ t.descendants :=
  subtreesOfAll_subset h (mem_subtrees.mpr (.inr hv))

/-- Every tree has a height. -/
theorem height_pos (t : Tree) : 0 < t.height := by
  obtain ⟨head, children⟩ := t
  rw [height]
  exact Nat.succ_pos _

mutual

/-- A subtree is no higher than its tree. -/
theorem height_le {t u : Tree} (h : u ∈ t.subtrees) : u.height ≤ t.height := by
  obtain ⟨head, children⟩ := t
  rcases mem_subtrees.mp h with rfl | h
  · exact Nat.le_refl _
  · rw [height]
    exact Nat.le_succ_of_le (height_le_ofAll h)

/-- A subtree of a tree of a list is no higher than the highest of them. -/
theorem height_le_ofAll {ts : List Tree} {u : Tree} (h : u ∈ subtreesOfAll ts) :
    u.height ≤ heightOfAll ts := by
  cases ts with
  | nil => cases h
  | cons t ts =>
    rw [subtreesOfAll] at h
    rw [heightOfAll]
    rcases List.mem_append.mp h with h | h
    · exact Nat.le_trans (height_le h) (Nat.le_max_left _ _)
    · exact Nat.le_trans (height_le_ofAll h) (Nat.le_max_right _ _)

end

/-- A tree below another is less high. -/
theorem height_lt (h : u ∈ t.descendants) : u.height < t.height := by
  obtain ⟨head, children⟩ := t
  rw [height]
  exact Nat.lt_succ_of_le (height_le_ofAll h)

/-! ### The parts of a tree -/

/-- The children of a tree are below it. -/
theorem mem_descendants_of_mem_children (h : u ∈ t.children) : u ∈ t.descendants :=
  mem_descendants.mpr ⟨u, h, mem_subtrees_self u⟩

/-- The parts of a tree are below it. -/
theorem mem_descendants_of_mem_parts (h : u ∈ t.parts) : u ∈ t.descendants :=
  mem_descendants_of_mem_children (List.mem_filter.mp h).1

/-- The named parts of a tree are below it. -/
theorem mem_descendants_of_mem_namedParts (h : u ∈ t.namedParts) : u ∈ t.descendants :=
  mem_descendants_of_mem_parts (List.mem_filter.mp h).1

/-- The operands of a tree are below it. -/
theorem mem_descendants_of_mem_operands (h : u ∈ t.operands) : u ∈ t.descendants :=
  mem_descendants_of_mem_parts (List.mem_filter.mp h).1

/-- The part of a kind is below its tree. -/
theorem mem_descendants_of_part? {kind : String} (h : t.part? kind = some u) :
    u ∈ t.descendants :=
  mem_descendants_of_mem_parts (List.mem_of_find?_eq_some h)

private theorem mem_descendants_of_mem_childrenByField {name : String}
    (h : u ∈ t.childrenByField name) : u ∈ t.descendants :=
  mem_descendants_of_mem_children (List.mem_filter.mp h).1

/-- A field is answered by a tree below. -/
theorem mem_descendants_of_childByField? {name : String} (h : t.childByField? name = some u) :
    u ∈ t.descendants := by
  unfold childByField? at h
  split at h
  · cases h
  · exact List.mem_of_find?_eq_some h
  · exact mem_descendants_of_mem_children (List.mem_of_find?_eq_some h)

/-- A field that is not answered may have a part of the tree in its place. -/
theorem mem_descendants_of_orElse {name : String} {other : Option Tree}
    (h : ((t.childByField? name).orElse fun _ => other) = some u)
    (ho : other = some u → u ∈ t.descendants) : u ∈ t.descendants := by
  cases hf : t.childByField? name with
  | none =>
    rw [hf] at h
    exact ho h
  | some v =>
    rw [hf] at h
    cases h
    exact mem_descendants_of_childByField? hf

/-- What answers a field, or the first operand in its stead, is below the tree. -/
theorem mem_descendants_of_field_or_first {name : String}
    (h : ((t.childByField? name).orElse fun _ => t.operands.head?) = some u) :
    u ∈ t.descendants :=
  mem_descendants_of_orElse h fun h => mem_descendants_of_mem_operands (List.mem_of_mem_head? h)

/-- What answers a field, or the last operand in its stead, is below the tree. -/
theorem mem_descendants_of_field_or_last {name : String}
    (h : ((t.childByField? name).orElse fun _ => t.operands.getLast?) = some u) :
    u ∈ t.descendants :=
  mem_descendants_of_orElse h fun h => mem_descendants_of_mem_operands (List.mem_of_getLast? h)

/-- What answers a field, or one of the operands in its stead, is below the tree. -/
theorem mem_descendants_of_field_or_nth {name : String} {i : Nat}
    (h : ((t.childByField? name).orElse fun _ => t.operands[i]?) = some u) :
    u ∈ t.descendants :=
  mem_descendants_of_orElse h fun h => mem_descendants_of_mem_operands (List.mem_of_getElem? h)

/-- The children of a field, or else the operands, are below the tree. -/
theorem mem_descendants_of_fields_or_operands {name : String}
    (h : u ∈ match t.childrenByField name with
      | [] => t.operands
      | values => values) : u ∈ t.descendants := by
  split at h
  · exact mem_descendants_of_mem_operands h
  · exact mem_descendants_of_mem_childrenByField h

/-- What stands after the first element of the rest of a list is in the list. -/
theorem mem_of_dropWhile {p : Tree → Bool} {ts after : List Tree}
    (h : ts.dropWhile p = t :: after) (hu : u ∈ after) : u ∈ ts := by
  have hm : u ∈ ts.dropWhile p := by
    rw [h]
    exact List.mem_cons_of_mem t hu
  exact (List.dropWhile_sublist p).subset hm

end SwiftRelations.Tree
