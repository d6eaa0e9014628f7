import SwiftRelations.Proofs.Types.Growth

/-!
# Consistency of the type table

A table answers any sequence of requests: to intern a type made of types it has, to intern the type
of a name or of a text, or to look a name up. After each of them the index and the entries are
inverse to each other, the name of every type is its canonical name, its parts stand before it, and
no type that was there before has changed.
-/

namespace SwiftRelations

open SwiftRelations.Types

/-- A request to a table of types. -/
inductive TypeRequest where
  | intern (kind : TypeKind)
  | named (name : String)
  | resolve (text : String)
  | find (name : String)
  deriving DecidableEq, Repr, Inhabited

/-- The types a request refers to by their places. -/
def TypeRequest.parts : TypeRequest → List TypeId
  | .intern kind => kind.parts
  | _ => []

namespace TypeTable

/-- The answer to a request, and the table after it. -/
def answer (table : TypeTable) : TypeRequest → Option TypeId × TypeTable
  | .intern kind => ((table.intern kind).1, (table.intern kind).2)
  | .named name => ((table.named name).1, (table.named name).2)
  | .resolve text => ((table.resolve text).1, (table.resolve text).2)
  | .find name => (table.find? name, table)

/-- The answers to some requests, one after the other, and the table after them. -/
def answerAll (table : TypeTable) : List TypeRequest → List (Option TypeId) × TypeTable
  | [] => ([], table)
  | request :: requests =>
    let (id, table) := table.answer request
    let (ids, table) := table.answerAll requests
    (id :: ids, table)

/-- Whether every request refers to types that the table has by then. Those are the places it has
answered with, and the parts of the types there. -/
def Admits (table : TypeTable) : List TypeRequest → Prop
  | [] => True
  | request :: requests =>
    (∀ part ∈ request.parts, table.Has part) ∧ (table.answer request).2.Admits requests

/-- Whether no type of the first table is another one in the second. -/
def Extends (table table' : TypeTable) : Prop :=
  ∀ id entry, table.get? id = some entry → table'.get? id = some entry

/-- What holds of every table that was empty once. -/
structure Consistent (table : TypeTable) : Prop where
  /-- The parts of a type stand before it. -/
  ordered : ∀ id entry, table.get? id = some entry →
    ∀ part ∈ entry.kind.parts, part.index < id.index
  /-- The name of a type is its canonical name. -/
  canonical : ∀ id entry, table.get? id = some entry → entry.name = table.canonicalName entry.kind
  /-- A name is found exactly where a type has it. -/
  found : ∀ name id, table.find? name = some id ↔
    ∃ entry, table.get? id = some entry ∧ entry.name = name

variable {table table' table'' : TypeTable} {id : TypeId} {entry : TypeEntry}

/-! ### Growing -/

/-- The empty table has no types. -/
theorem size_empty : ({} : TypeTable).size = 0 := rfl

/-- The empty table has no type of any name. -/
theorem find?_empty (name : String) : ({} : TypeTable).find? name = none := by simp [find?]

/-- A table extends itself. -/
theorem Extends.refl (table : TypeTable) : table.Extends table := fun _ _ h => h

/-- What extends a table that extends another extends the other. -/
theorem Extends.trans (h : table.Extends table') (h' : table'.Extends table'') :
    table.Extends table'' :=
  fun id entry he => h' id entry (h id entry he)

/-- A table has a place if there is an entry at it. -/
theorem has_iff : table.Has id ↔ ∃ entry, table.get? id = some entry :=
  ⟨fun h => ⟨table.entries[id.index], Array.getElem?_eq_getElem h⟩,
    fun ⟨_, h⟩ => (Array.getElem?_eq_some_iff.mp h).1⟩

/-- A new type stands where there was none. -/
theorem extends_add (table : TypeTable) (entry : TypeEntry) : table.Extends (table.add entry) := by
  intro id other h
  have hlt : id.index < table.size := has_iff.mpr ⟨other, h⟩
  rw [get?_add, if_neg (Nat.ne_of_lt hlt), h]

/-- What a table has at the place of a type stays there when the table grows. -/
theorem Extends.get? (h : table.Extends table') (hid : table.Has id) :
    table'.get? id = table.get? id := by
  obtain ⟨entry, he⟩ := has_iff.mp hid
  rw [he, h id entry he]

/-- The canonical name of a type made of known types stays when the table grows. -/
theorem Extends.canonicalName (h : table.Extends table') {kind : TypeKind}
    (known : ∀ part ∈ kind.parts, table.Has part) :
    table'.canonicalName kind = table.canonicalName kind := by
  have hname : ∀ part ∈ kind.parts, table'.nameOf part = table.nameOf part := fun part hp => by
    rw [nameOf, nameOf, h.get? (known part hp)]
  have hfun : ∀ part ∈ kind.parts, table'.isFunction part = table.isFunction part :=
    fun part hp => by rw [isFunction, isFunction, h.get? (known part hp)]
  have hnames : ∀ ids ⊆ kind.parts, table'.namesOf ids = table.namesOf ids := fun ids hs => by
    rw [namesOf, namesOf, List.map_congr_left fun id hid => hname id (hs hid)]
  cases kind with
  | nominal name args =>
    cases args with
    | nil => rfl
    | cons arg args =>
      simp only [TypeTable.canonicalName, hnames (arg :: args) (List.Subset.refl _)]
  | optional base =>
    have hb := List.mem_singleton_self base
    simp only [TypeTable.canonicalName, hname base hb, hfun base hb]
  | array element =>
    simp only [TypeTable.canonicalName, hname element (List.mem_singleton_self element)]
  | dictionary key value =>
    simp only [TypeTable.canonicalName, hname key (List.mem_cons_self),
      hname value (List.mem_cons_of_mem _ (List.mem_singleton_self value))]
  | tuple elements => simp only [TypeTable.canonicalName, hnames elements (List.Subset.refl _)]
  | function params result =>
    simp only [TypeTable.canonicalName, hnames params (List.subset_append_left _ _),
      hname result (List.mem_append_right _ (List.mem_singleton_self result))]
  | unknown text => rfl

/-! ### What consistency gives -/

namespace Consistent

/-- The empty table is consistent. -/
theorem empty : ({} : TypeTable).Consistent where
  ordered id entry h := by simp [get?] at h
  canonical id entry h := by simp [get?] at h
  found name id := by simp [find?_empty, get?]

/-- Every type of a consistent table is made of types of the table. -/
theorem closed (h : table.Consistent) : table.Closed where
  parts id entry he part hp :=
    Nat.lt_trans (h.ordered id entry he part hp) (has_iff.mpr ⟨entry, he⟩)
  found name id hf := by
    obtain ⟨entry, he, -⟩ := (h.found name id).mp hf
    exact has_iff.mpr ⟨entry, he⟩

/-- No two types have the same name. -/
theorem distinct (h : table.Consistent) {id other : TypeId} (hid : table.Has id)
    (hother : table.Has other) (hname : table.nameOf id = table.nameOf other) : id = other := by
  obtain ⟨entry, he⟩ := has_iff.mp hid
  obtain ⟨entry', he'⟩ := has_iff.mp hother
  simp only [nameOf, he, he'] at hname
  have hf := (h.found entry.name id).mpr ⟨entry, he, rfl⟩
  have hf' := (h.found entry.name other).mpr ⟨entry', he', hname.symm⟩
  exact Option.some.inj (hf.symm.trans hf')

/-- The places that a consistent table knows by a name are those below its size. -/
theorem dense (h : table.Consistent) (id : TypeId) :
    (∃ name, table.find? name = some id) ↔ id.index < table.size := by
  constructor
  · rintro ⟨name, hf⟩
    exact h.closed.found name id hf
  · intro hid
    obtain ⟨entry, he⟩ := has_iff.mp hid
    exact ⟨entry.name, (h.found entry.name id).mpr ⟨entry, he, rfl⟩⟩

/-- A type with a new canonical name that is made of known types may join a consistent table. -/
theorem add (h : table.Consistent) (known : ∀ part ∈ entry.kind.parts, table.Has part)
    (canonical : entry.name = table.canonicalName entry.kind)
    (unknown : table.find? entry.name = none) : (table.add entry).Consistent where
  ordered id other he part hp := by
    rw [get?_add] at he
    split at he
    case isTrue hid =>
      cases he
      rw [hid]
      exact known part hp
    case isFalse => exact h.ordered id other he part hp
  canonical id other he := by
    rw [get?_add] at he
    split at he
    case isTrue =>
      cases he
      rw [(extends_add table entry).canonicalName known, canonical]
    case isFalse =>
      rw [(extends_add table entry).canonicalName (h.closed.parts id other he),
        h.canonical id other he]
  found name id := by
    rw [find?_add, get?_add]
    split
    case isTrue hname =>
      constructor
      · rintro ⟨rfl⟩
        exact ⟨entry, if_pos rfl, hname⟩
      · rintro ⟨other, he, ho⟩
        split at he
        case isTrue hid => rw [← hid]
        case isFalse =>
          have hf := (h.found name id).mpr ⟨other, he, ho⟩
          rw [← hname, unknown] at hf
          cases hf
    case isFalse hname =>
      rw [h.found]
      constructor
      · rintro ⟨other, he, ho⟩
        exact ⟨other, by rw [← get?_add, extends_add table entry id other he], ho⟩
      · rintro ⟨other, he, ho⟩
        split at he
        case isTrue =>
          cases he
          exact absurd ho hname
        case isFalse => exact ⟨other, he, ho⟩

/-- Interning a type made of known types keeps a table consistent and its types as they are. -/
theorem intern (h : table.Consistent) {kind : TypeKind}
    (known : ∀ part ∈ kind.parts, table.Has part) :
    (table.intern kind).2.Consistent ∧ table.Extends (table.intern kind).2 := by
  simp only [TypeTable.intern]
  split
  case h_1 => exact ⟨h, .refl table⟩
  case h_2 hnone => exact ⟨h.add known rfl hnone, extends_add table _⟩

end Consistent

/-! ### Interning many types -/

/-- Whether a property of tables is kept when a type made of known types is interned. -/
def KeptByIntern (motive : TypeTable → Prop) : Prop :=
  ∀ table kind, motive table → table.Closed → (∀ part ∈ kind.parts, table.Has part) →
    motive (table.intern kind).2

variable {motive : TypeTable → Prop}

mutual

/-- What interning one type keeps is kept when a shape is interned. -/
theorem internShape_induction (kept : KeptByIntern motive) {table : TypeTable} (h : motive table)
    (closed : table.Closed) (shape : Shape) : motive (table.internShape shape).2 := by
  cases shape with
  | named name args =>
    rw [internShape]
    have ho := internShapes_offers closed args
    exact kept _ _ (internShapes_induction kept h closed args) ho.closed ho.has
  | optional base =>
    rw [internShape]
    have ho := internShape_offers closed base
    exact kept _ _ (internShape_induction kept h closed base) ho.closed ho.has
  | array element =>
    rw [internShape]
    have ho := internShape_offers closed element
    exact kept _ _ (internShape_induction kept h closed element) ho.closed ho.has
  | dictionary key value =>
    rw [internShape]
    have hk := internShape_offers closed key
    have ho := hk.trans (internShape_offers hk.closed value)
    have hmk := internShape_induction kept h closed key
    have hm := internShape_induction kept hmk hk.closed value
    exact kept _ _ hm ho.closed ho.has
  | tuple elements =>
    rw [internShape]
    have ho := internShapes_offers closed elements
    exact kept _ _ (internShapes_induction kept h closed elements) ho.closed ho.has
  | function params result =>
    rw [internShape]
    have hp := internShapes_offers closed params
    have ho := hp.trans (internShape_offers hp.closed result)
    have hms := internShapes_induction kept h closed params
    have hm := internShape_induction kept hms hp.closed result
    exact kept _ _ hm ho.closed ho.has

/-- What interning one type keeps is kept when shapes are interned. -/
theorem internShapes_induction (kept : KeptByIntern motive) {table : TypeTable} (h : motive table)
    (closed : table.Closed) (shapes : List Shape) : motive (table.internShapes shapes).2 := by
  cases shapes with
  | nil => exact h
  | cons shape shapes =>
    rw [internShapes]
    have ho := internShape_offers closed shape
    exact internShapes_induction kept (internShape_induction kept h closed shape) ho.closed shapes

end

/-- What interning one type keeps is kept by any request. -/
theorem answer_induction (kept : KeptByIntern motive) (h : motive table) (closed : table.Closed)
    (request : TypeRequest) (known : ∀ part ∈ request.parts, table.Has part) :
    motive (table.answer request).2 := by
  cases request with
  | intern kind => exact kept table kind h closed known
  | named name => exact kept table _ h closed (by simp [TypeKind.parts])
  | resolve text =>
    simp only [answer, resolve]
    split
    · exact internShape_induction kept h closed _
    · exact kept table _ h closed (by simp [TypeKind.parts])
  | find name => exact h

/-! ### Requests -/

/-- A request keeps a table consistent and its types as they are, and is answered with a type that
the table then has. -/
theorem Consistent.answer (h : table.Consistent) {request : TypeRequest}
    (known : ∀ part ∈ request.parts, table.Has part) :
    (table.answer request).2.Consistent ∧ table.Extends (table.answer request).2 ∧
      ∀ id, (table.answer request).1 = some id → (table.answer request).2.Has id := by
  have hkept : (table.answer request).2.Consistent ∧ table.Extends (table.answer request).2 := by
    have kept : KeptByIntern fun table' => table'.Consistent ∧ table.Extends table' := by
      intro table' kind hm _ hk
      obtain ⟨hc, he⟩ := hm.1.intern hk
      exact ⟨hc, hm.2.trans he⟩
    exact answer_induction kept ⟨h, .refl table⟩ h.closed request known
  refine ⟨hkept.1, hkept.2, fun id hid => ?_⟩
  cases request with
  | intern kind =>
    cases hid
    exact (intern_offers h.closed known).has _ (List.mem_singleton_self _)
  | named name =>
    cases hid
    exact (named_offers h.closed name).has _ (List.mem_singleton_self _)
  | resolve text =>
    cases hid
    exact (resolve_offers h.closed text).has _ (List.mem_singleton_self _)
  | find name => exact h.closed.found name id hid

/-- Any requests keep a table consistent and its types as they are, and are answered with types
that the table then has. -/
theorem Consistent.answerAll (h : table.Consistent) {requests : List TypeRequest}
    (hadmits : table.Admits requests) :
    (table.answerAll requests).2.Consistent ∧ table.Extends (table.answerAll requests).2 ∧
      ∀ id, some id ∈ (table.answerAll requests).1 → (table.answerAll requests).2.Has id := by
  induction requests generalizing table with
  | nil => exact ⟨h, .refl table, by simp [TypeTable.answerAll]⟩
  | cons request requests ih =>
    obtain ⟨hc, he, hhas⟩ := h.answer hadmits.1
    obtain ⟨hcs, hes, hhass⟩ := ih hc hadmits.2
    refine ⟨hcs, he.trans hes, fun id hid => ?_⟩
    rcases List.mem_cons.mp hid with hid | hid
    · obtain ⟨entry, hentry⟩ := has_iff.mp (hhas id hid.symm)
      exact has_iff.mpr ⟨entry, hes id entry hentry⟩
    · exact hhass id hid

private theorem answerAll_append (table : TypeTable) (before after : List TypeRequest) :
    (table.answerAll (before ++ after)).2 = ((table.answerAll before).2.answerAll after).2 := by
  induction before generalizing table with
  | nil => rfl
  | cons request before ih => exact ih (table.answer request).2

private theorem Admits.append {before after : List TypeRequest}
    (h : table.Admits (before ++ after)) :
    table.Admits before ∧ (table.answerAll before).2.Admits after := by
  induction before generalizing table with
  | nil => exact ⟨trivial, h⟩
  | cons request before ih =>
    obtain ⟨hb, ha⟩ := ih h.2
    exact ⟨⟨h.1, hb⟩, ha⟩

/-- After any requests, each of which refers to types there are by then, the places of types are
those below the number of types, no two types have the same name, the parts of a type stand before
it, its name is its canonical name, and a name is found exactly where a type has it. No type has
changed on the way, and every answer is the place of a type. -/
theorem answers_consistent {requests : List TypeRequest}
    (h : ({} : TypeTable).Admits requests) :
    let table := (({} : TypeTable).answerAll requests).2
    (∀ id, (∃ name, table.find? name = some id) ↔ id.index < table.size) ∧
    (∀ id other, table.Has id → table.Has other → table.nameOf id = table.nameOf other →
      id = other) ∧
    (∀ id entry, table.get? id = some entry →
      (∀ part ∈ entry.kind.parts, part.index < id.index) ∧
        entry.name = table.canonicalName entry.kind) ∧
    (∀ name id, table.find? name = some id ↔
      ∃ entry, table.get? id = some entry ∧ entry.name = name) ∧
    (∀ before after, requests = before ++ after →
      (({} : TypeTable).answerAll before).2.Extends table) ∧
    ∀ id, some id ∈ (({} : TypeTable).answerAll requests).1 → table.Has id := by
  obtain ⟨hc, -, hhas⟩ := Consistent.empty.answerAll h
  refine ⟨hc.dense, fun _ _ => hc.distinct,
    fun id entry he => ⟨hc.ordered id entry he, hc.canonical id entry he⟩, hc.found, ?_, hhas⟩
  rintro before after rfl
  obtain ⟨hb, ha⟩ := h.append
  rw [answerAll_append]
  exact ((Consistent.empty.answerAll hb).1.answerAll ha).2.1

/-- The requests may intern a function over two types that earlier requests were answered with, and
ask for one of these again by a text. -/
theorem answers_consistent_function :
    let requests : List TypeRequest := [.named "Int", .intern (.optional ⟨0⟩), .find "Int?",
      .intern (.function [⟨0⟩, ⟨1⟩] ⟨1⟩), .resolve "Optional<Int>"]
    ({} : TypeTable).Admits requests ∧
      ∀ id, some id ∈ (({} : TypeTable).answerAll requests).1 →
        (({} : TypeTable).answerAll requests).2.Has id := by
  have h : ({} : TypeTable).Admits [.named "Int", .intern (.optional ⟨0⟩), .find "Int?",
      .intern (.function [⟨0⟩, ⟨1⟩] ⟨1⟩), .resolve "Optional<Int>"] := by
    simp [Admits, TypeRequest.parts, TypeKind.parts, answer, named, intern, find?_empty, find?_add,
      size_empty, size_add, canonicalName, nameOf, isFunction, get?_add, Has]
  exact ⟨h, (answers_consistent h).2.2.2.2.2⟩

end TypeTable

end SwiftRelations
