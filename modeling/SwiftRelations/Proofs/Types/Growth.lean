import SwiftRelations.Types.Table

/-!
# Growth of the type table

Interning gives a place of the table it leaves, and no place is ever given up. A table is closed
when every type in it is made of types in it and every name it knows is that of a type in it;
interning a type made of known types keeps it so.
-/

namespace SwiftRelations

namespace TypeTable

/-- Whether a place is that of a type of the table. -/
def Has (table : TypeTable) (id : TypeId) : Prop := id.index < table.size

/-- Every type of the table is made of types of the table, and so is every name. -/
structure Closed (table : TypeTable) : Prop where
  parts : ∀ id entry, table.get? id = some entry → ∀ part ∈ entry.kind.parts, table.Has part
  found : ∀ name id, table.find? name = some id → table.Has id

/-- What interning leaves: a closed table that has lost no place and no name, and has the places
`ids`. -/
structure Offers (table : TypeTable) (ids : List TypeId) (table' : TypeTable) : Prop where
  closed : table'.Closed
  le : table.size ≤ table'.size
  has : ∀ id ∈ ids, table'.Has id
  finds : ∀ name id, table.find? name = some id → table'.find? name = some id

variable {table table' table'' : TypeTable} {ids ids' : List TypeId}

/-- A table that grows still has the places that it had. -/
theorem Has.mono {id : TypeId} (h : table.Has id) (hs : table.size ≤ table'.size) :
    table'.Has id :=
  Nat.lt_of_lt_of_le h hs

/-- A table without types is closed. -/
theorem closed_empty : ({} : TypeTable).Closed where
  parts id entry h := by simp [get?] at h
  found name id h := by simp [find?] at h

/-- The places offered first are still offered after more growth. -/
theorem Offers.trans (h : table.Offers ids table') (h' : table'.Offers ids' table'') :
    table.Offers (ids ++ ids') table'' where
  closed := h'.closed
  le := Nat.le_trans h.le h'.le
  has id hm := by
    rcases List.mem_append.mp hm with hm | hm
    · exact (h.has id hm).mono h'.le
    · exact h'.has id hm
  finds name id hf := h'.finds name id (h.finds name id hf)

/-- A new type is the last one. -/
theorem size_add (table : TypeTable) (entry : TypeEntry) :
    (table.add entry).size = table.size + 1 := by
  simp [size, add]

/-- A new type stands behind all others. -/
theorem get?_add (table : TypeTable) (entry : TypeEntry) (id : TypeId) :
    (table.add entry).get? id = if id.index = table.size then some entry else table.get? id := by
  simp only [get?, add, size, Array.getElem?_push]
  rfl

/-- A new type is found by its name. -/
theorem find?_add (table : TypeTable) (entry : TypeEntry) (name : String) :
    (table.add entry).find? name =
      if entry.name = name then some ⟨table.size⟩ else table.find? name := by
  simp [find?, add, Std.HashMap.getElem?_insert]

/-- A type made of known types may join a closed table. -/
theorem Closed.add (closed : table.Closed) {entry : TypeEntry}
    (known : ∀ part ∈ entry.kind.parts, table.Has part) : (table.add entry).Closed where
  parts id other h part hp := by
    have hs : table.size ≤ (table.add entry).size := by simp [size_add]
    rw [get?_add] at h
    split at h
    · cases h
      exact (known part hp).mono hs
    · exact (closed.parts id other h part hp).mono hs
  found name id h := by
    rw [find?_add] at h
    split at h
    · cases h
      simp [Has, size_add]
    · exact (closed.found name id h).mono (by simp [size_add])

/-- Interning a type made of known types offers its place. -/
theorem intern_offers (closed : table.Closed) {kind : TypeKind}
    (known : ∀ part ∈ kind.parts, table.Has part) :
    table.Offers [(table.intern kind).1] (table.intern kind).2 := by
  simp only [intern]
  split
  case h_1 id h =>
    exact ⟨closed, Nat.le_refl _, by simpa using closed.found _ _ h, fun _ _ hf => hf⟩
  case h_2 hn =>
    refine ⟨closed.add known, by simp [size_add], by simp [Has, size_add], fun name id hf => ?_⟩
    rw [find?_add, if_neg, hf]
    rintro rfl
    rw [hn] at hf
    cases hf

/-- The nominal type of a name is found by that name. -/
theorem find?_named (table : TypeTable) (name : String) :
    (table.named name).2.find? name = some (table.named name).1 := by
  simp only [named, intern, canonicalName]
  split
  case h_1 id h => exact h
  case h_2 => rw [find?_add, if_pos rfl]

/-- The nominal type of a name is made of no other types. -/
theorem named_offers (closed : table.Closed) (name : String) :
    table.Offers [(table.named name).1] (table.named name).2 :=
  intern_offers closed (by simp [TypeKind.parts])

/-- Interning a type made of the places offered so far offers its place. -/
theorem Offers.intern (h : table.Offers ids table') {kind : TypeKind} (hk : kind.parts ⊆ ids) :
    table.Offers [(table'.intern kind).1] (table'.intern kind).2 := by
  have ho := h.trans (intern_offers h.closed fun part hp => h.has part (hk hp))
  exact ⟨ho.closed, ho.le, fun id hm => ho.has id (List.mem_append_right ids hm), ho.finds⟩

mutual

/-- Interning a shape offers its place. -/
theorem internShape_offers {table : TypeTable} (closed : table.Closed) (shape : Types.Shape) :
    table.Offers [(table.internShape shape).1] (table.internShape shape).2 := by
  cases shape with
  | named name args =>
    rw [internShape]
    exact (internShapes_offers closed args).intern (List.Subset.refl _)
  | optional base =>
    rw [internShape]
    exact (internShape_offers closed base).intern (List.Subset.refl _)
  | array element =>
    rw [internShape]
    exact (internShape_offers closed element).intern (List.Subset.refl _)
  | dictionary key value =>
    rw [internShape]
    have hk := internShape_offers closed key
    exact (hk.trans (internShape_offers hk.closed value)).intern (List.Subset.refl _)
  | tuple elements =>
    rw [internShape]
    exact (internShapes_offers closed elements).intern (List.Subset.refl _)
  | function params result =>
    rw [internShape]
    have hp := internShapes_offers closed params
    exact (hp.trans (internShape_offers hp.closed result)).intern (List.Subset.refl _)

/-- Interning shapes offers their places. -/
theorem internShapes_offers {table : TypeTable} (closed : table.Closed)
    (shapes : List Types.Shape) :
    table.Offers (table.internShapes shapes).1 (table.internShapes shapes).2 := by
  cases shapes with
  | nil =>
    rw [internShapes]
    exact ⟨closed, Nat.le_refl _, by simp, fun _ _ hf => hf⟩
  | cons shape shapes =>
    rw [internShapes]
    have hs := internShape_offers closed shape
    exact hs.trans (internShapes_offers hs.closed shapes)

end

/-- The type that a text spells has a place. -/
theorem resolve_offers (closed : table.Closed) (text : String) :
    table.Offers [(table.resolve text).1] (table.resolve text).2 := by
  rw [resolve]
  split
  · exact internShape_offers closed _
  · exact intern_offers closed (by simp [TypeKind.parts])

end TypeTable

end SwiftRelations
