import SwiftRelations.Proofs.Types.Spelling

/-!
# Identity of types

Types are found by their names only. Among trees of which no two have the same name, a name is as
good as the tree: a request for the type of a tree is answered with the place of that tree, whatever
the table has been asked for before, and two requests with the same place exactly when the trees
are equal. The trees that texts stand for are such trees.
-/

namespace SwiftRelations

open SwiftRelations.Text SwiftRelations.Types

/-- Whether no two of some trees have the same name. -/
def TypeTree.Apart (P : TypeTree → Prop) : Prop :=
  ∀ tree other, P tree → P other → tree.name = other.name → tree = other

/-- Whether some text stands for a tree. -/
def TypeTree.Spoken (tree : TypeTree) : Prop := ∃ text, tree = .ofText text

/-- What a text stands for is known by its name. -/
theorem TypeTree.Spoken.ofText_name {tree : TypeTree} (h : tree.Spoken) :
    ofText tree.name = tree := by
  obtain ⟨text, rfl⟩ := h
  exact TypeTree.ofText_name text

/-- No two trees that texts stand for have the same name. -/
theorem TypeTree.apart_spoken : Apart Spoken := by
  intro tree other h ho hname
  rw [← h.ofText_name, hname, ho.ofText_name]

/-- The tree that a request is for, unless it refers to places or is only a question. -/
def TypeRequest.tree? : TypeRequest → Option TypeTree
  | .named name => some (.nominal name [])
  | .resolve text => some (.ofText text)
  | _ => none

namespace TypeTable

/-- Whether a table is consistent and all its types have trees among some. -/
structure Within (P : TypeTree → Prop) (table : TypeTable) : Prop where
  consistent : table.Consistent
  trees : ∀ id, table.Has id → ∃ tree, table.tree? id = some tree ∧ P tree

/-- What requests for some trees leave of a table: one that has kept its types and has the trees at
the places `ids`. -/
structure Yields (P : TypeTree → Prop) (table : TypeTable) (ids : List TypeId)
    (trees : List TypeTree) (table' : TypeTable) : Prop where
  within : table'.Within P
  grown : table.Extends table'
  trees : ids.map table'.tree? = trees.map some

variable {P : TypeTree → Prop} {table table' table'' : TypeTable} {id : TypeId} {ids : List TypeId}
  {tree : TypeTree} {trees : List TypeTree}

/-- The empty table has no types but those allowed. -/
theorem within_empty : ({} : TypeTable).Within P where
  consistent := .empty
  trees _ h := absurd h (Nat.not_lt_zero _)

/-- Trees keep their places when the table grows. -/
theorem Yields.stays (h : table.Yields P ids trees table') (he : table'.Extends table'') :
    ids.map table''.tree? = trees.map some := by
  rw [← h.trees]
  refine List.map_congr_left fun id hid => ?_
  obtain ⟨tree, ht⟩ := List.exists_of_map_eq_map_some h.trees id hid
  exact he.tree? h.within.consistent.closed (has_of_tree? ht)

/-- The trees yielded first are still there after more requests. -/
theorem Yields.trans {ids' : List TypeId} {trees' : List TypeTree}
    (h : table.Yields P ids trees table') (h' : table'.Yields P ids' trees' table'') :
    table.Yields P (ids ++ ids') (trees ++ trees') table'' where
  within := h'.within
  grown := h.grown.trans h'.grown
  trees := by rw [List.map_append, List.map_append, h.stays h'.grown, h'.trees]

private theorem Yields.tree? (h : table.Yields P [id] [tree] table') :
    table'.tree? id = some tree := by
  simpa using h.trees

section Interning

variable (apart : TypeTree.Apart P) (read : ∀ text, P (.ofText text))

include apart

/-- Interning a type whose tree is among those of the table gives the place of the tree. -/
theorem Within.intern (h : table.Within P) {kind : TypeKind}
    (hk : kind.tree? table.tree? = some tree) (hp : P tree) :
    table.Yields P [(table.intern kind).1] [tree] (table.intern kind).2 := by
  have known : ∀ part ∈ kind.parts, table.Has part := fun part hpart =>
    have ⟨_, ht⟩ := TypeKind.exists_tree hk part hpart
    has_of_tree? ht
  have hname : table.canonicalName kind = tree.name :=
    canonicalName_eq (fun _ _ _ ht => h.consistent.spells ht) hk
  obtain ⟨hc, he⟩ := h.consistent.intern known
  simp only [TypeTable.intern] at hc he ⊢
  split
  case h_1 id hf =>
    -- The type found has the name of the tree, and so the tree.
    obtain ⟨entry, hentry, hen⟩ := (h.consistent.found _ id).mp hf
    obtain ⟨other, ho, hpo⟩ := h.trees id (has_iff.mpr ⟨entry, hentry⟩)
    have hon : other.name = tree.name := by
      rw [← (h.consistent.spells ho).name, nameOf, hentry, ← hname]
      exact hen
    rw [apart other tree hpo hp hon] at ho
    exact ⟨h, .refl table, by simp [ho]⟩
  case h_2 hf =>
    simp only [hf] at hc he
    have htree : (table.add ⟨kind, table.canonicalName kind⟩).tree? ⟨table.size⟩ = some tree := by
      rw [hc.tree?_eq, get?_add, if_pos rfl, Option.bind_some, ← hk]
      exact TypeKind.tree?_congr fun part hp => he.tree? h.consistent.closed (known part hp)
    refine ⟨⟨hc, fun id hid => ?_⟩, he, by simp [htree]⟩
    rw [Has, size_add] at hid
    rcases Nat.lt_or_eq_of_le (Nat.le_of_lt_succ hid) with hid | hid
    · rw [he.tree? h.consistent.closed hid]
      exact h.trees id hid
    · obtain ⟨index⟩ := id
      obtain rfl : index = table.size := hid
      exact ⟨tree, htree, hp⟩

/-- Interning a type made of the trees yielded so far gives the place of its tree. -/
theorem Yields.intern (h : table.Yields P ids trees table') {kind : TypeKind}
    (hk : kind.tree? table'.tree? = some tree) (hp : P tree) :
    table.Yields P [(table'.intern kind).1] [tree] (table'.intern kind).2 :=
  have ho := h.within.intern apart hk hp
  ⟨ho.within, h.grown.trans ho.grown, ho.trees⟩

omit apart in
/-- Interning shapes gives the places of their trees if interning each of them does. -/
theorem internShapes_yields {shapes : List Shape}
    (hshapes : ∀ shape ∈ shapes, ∀ table : TypeTable, table.Within P →
      table.Yields P [(table.internShape shape).1] [shape.tree] (table.internShape shape).2)
    (h : table.Within P) :
    table.Yields P (table.internShapes shapes).1 (Shape.treesOfAll shapes)
      (table.internShapes shapes).2 := by
  induction shapes generalizing table with
  | nil => exact ⟨h, .refl table, rfl⟩
  | cons shape shapes ih =>
    obtain ⟨hshape, hrest⟩ := List.forall_mem_cons.mp hshapes
    have ho := hshape table h
    have hos := ih hrest ho.within
    rw [internShapes, Shape.treesOfAll]
    exact ho.trans hos

include read

/-- Interning a normal shape gives the place of its tree. -/
theorem internShape_yields {shape : Shape} (hnormal : shape.Normal) (h : table.Within P) :
    table.Yields P [(table.internShape shape).1] [shape.tree] (table.internShape shape).2 := by
  have hp {shape : Shape} (hn : shape.Normal) : P shape.tree :=
    TypeTree.ofText_name_tree hn ▸ read shape.tree.name
  induction hnormal generalizing table with
  | named isName type short parts ih =>
    have ho := internShapes_yields (fun arg ha table => ih arg ha) h
    rw [internShape]
    refine ho.intern apart ?_ (hp (.named isName type short parts))
    rw [TypeKind.tree?, List.mapM_eq_some_iff.mpr ho.trees]
    rfl
  | optional part ih =>
    have ho := ih h
    rw [internShape]
    refine ho.intern apart ?_ (hp (.optional part))
    rw [TypeKind.tree?, ho.tree?]
    rfl
  | array part ih =>
    have ho := ih h
    rw [internShape]
    refine ho.intern apart ?_ (hp (.array part))
    rw [TypeKind.tree?, ho.tree?]
    rfl
  | dictionary first second ihk ihv =>
    have hk := ihk h
    have hv := ihv hk.within
    have hkey := (List.cons.inj (hk.stays hv.grown)).1
    rw [internShape]
    refine (hk.trans hv).intern apart ?_ (hp (.dictionary first second))
    rw [TypeKind.tree?, hkey, hv.tree?]
    rfl
  | tuple several parts ih =>
    have ho := internShapes_yields (fun element he table => ih element he) h
    rw [internShape]
    refine ho.intern apart ?_ (hp (.tuple several parts))
    rw [TypeKind.tree?, List.mapM_eq_some_iff.mpr ho.trees]
    rfl
  | function parts last ihs ih =>
    have hs := internShapes_yields (fun param hp table => ihs param hp) h
    have hr := ih hs.within
    have hparams := List.mapM_eq_some_iff.mpr (hs.stays hr.grown)
    rw [internShape]
    refine (hs.trans hr).intern apart ?_ (hp (.function parts last))
    rw [TypeKind.tree?, hparams, hr.tree?]
    rfl

/-- The answer to a request for a tree is its place. -/
theorem answer_yields (h : table.Within P) {request : TypeRequest} (hr : request.tree? = some tree)
    (hp : P tree) : ∃ id, (table.answer request).1 = some id ∧
      table.Yields P [id] [tree] (table.answer request).2 := by
  cases request with
  | intern kind => cases hr
  | named name =>
    obtain rfl := Option.some.inj hr
    exact ⟨_, rfl, h.intern apart rfl hp⟩
  | resolve text =>
    obtain rfl := Option.some.inj hr
    refine ⟨_, rfl, ?_⟩
    simp only [answer, resolve]
    cases hs : Shape.ofText? text with
    | some shape =>
      rw [TypeTree.ofText_of_some hs]
      exact internShape_yields apart read (Shape.normal_of_ofText? hs) h
    | none =>
      rw [TypeTree.ofText_of_none hs] at hp ⊢
      exact h.intern apart rfl hp
  | find name => cases hr

/-- The answers to requests for trees are their places. -/
theorem answerAll_yields (h : table.Within P) {requests : List TypeRequest}
    (hr : requests.map TypeRequest.tree? = trees.map some) (hp : ∀ tree ∈ trees, P tree) :
    ∃ ids, (table.answerAll requests).1 = ids.map some ∧
      table.Yields P ids trees (table.answerAll requests).2 := by
  induction requests generalizing table trees with
  | nil =>
    obtain rfl : trees = [] := by simpa using hr.symm
    exact ⟨[], rfl, h, .refl table, rfl⟩
  | cons request requests ih =>
    cases trees with
    | nil => cases hr
    | cons tree trees =>
      obtain ⟨hr, hrs⟩ := List.cons.inj hr
      obtain ⟨hp, hps⟩ := List.forall_mem_cons.mp hp
      obtain ⟨id, hid, ho⟩ := answer_yields apart read h hr hp
      obtain ⟨ids, hids, hos⟩ := ih ho.within hrs hps
      exact ⟨id :: ids, congrArg₂ List.cons hid hids, ho.trans hos⟩

end Interning

/-! ### Texts -/

/-- The table after the types of some texts were asked for. -/
def resolved (texts : List String) : TypeTable :=
  (({} : TypeTable).answerAll (texts.map .resolve)).2

/-- The canonical name that the type of a shape has once the table is asked for it. -/
def nameFor (table : TypeTable) (shape : Shape) : String :=
  (table.internShape shape).2.nameOf (table.internShape shape).1

/-- Texts are answered with the places of the trees they stand for. -/
theorem resolved_yields (texts : List String) :
    ∃ ids, (({} : TypeTable).answerAll (texts.map .resolve)).1 = ids.map some ∧
      ({} : TypeTable).Yields TypeTree.Spoken ids (texts.map .ofText) (resolved texts) := by
  have htrees : (texts.map TypeRequest.resolve).map TypeRequest.tree? =
      (texts.map TypeTree.ofText).map some := by
    rw [List.map_map, List.map_map]
    rfl
  refine answerAll_yields TypeTree.apart_spoken (fun text => ⟨text, rfl⟩) within_empty htrees ?_
  rintro tree ht
  obtain ⟨text, -, rfl⟩ := List.mem_map.mp ht
  exact ⟨text, rfl⟩

/-- Among texts only, the name of the type of a shape does not depend on the texts before. -/
theorem nameFor_resolved {shape : Shape} (h : shape.Normal) (texts : List String) :
    (resolved texts).nameFor shape = shape.tree.name := by
  obtain ⟨ids, -, hyields⟩ := resolved_yields texts
  have ho := internShape_yields TypeTree.apart_spoken (fun text => ⟨text, rfl⟩) h hyields.within
  exact (ho.within.consistent.spells ho.tree?).name

/-- The canonical name of the type of a shape that a text spells reads back: it spells the shape,
whatever texts were resolved before. So shapes that are read have different names. -/
theorem nameFor_readsBack {text : String} {shape : Shape} (h : Shape.ofText? text = some shape)
    (texts : List String) :
    Shape.ofText? ((resolved texts).nameFor shape) = some shape ∧
      ∀ texts' text' shape', Shape.ofText? text' = some shape' →
        (resolved texts').nameFor shape' = (resolved texts).nameFor shape → shape' = shape := by
  have hread {text : String} {shape : Shape} (h : Shape.ofText? text = some shape)
      (texts : List String) : Shape.ofText? ((resolved texts).nameFor shape) = some shape := by
    have hnormal := Shape.normal_of_ofText? h
    rw [nameFor_resolved hnormal, hnormal.ofText?_name]
  refine ⟨hread h texts, fun texts' text' shape' h' hname => ?_⟩
  have hback := hread h' texts'
  rw [hname, hread h texts] at hback
  exact (Option.some.inj hback).symm

/-- The name of an optional function keeps its parentheses, without which it would be that of a
function with an optional result. -/
theorem nameFor_readsBack_optionalFunction :
    let optional : Shape := .optional (.function [.named "Int" []] (.tuple []))
    let function : Shape := .function [.named "Int" []] (.optional (.tuple []))
    Shape.ofText? "Optional<(Int) -> Void>" = some optional ∧
      Shape.ofText? ((resolved ["Int?", "a b"]).nameFor optional) = some optional ∧
      Shape.ofText? "(Int) -> Void?" = some function ∧
      (resolved []).nameFor function ≠ (resolved ["Int?", "a b"]).nameFor optional := by
  have hscan : Token.scan "Optional<(Int) -> Void>".toList =
      [.name "Optional", .mark '<', .mark '(', .name "Int", .mark ')', .arrow, .name "Void",
        .mark '>'] := by
    decide +kernel
  have hscan' : Token.scan "(Int) -> Void?".toList =
      [.mark '(', .name "Int", .mark ')', .arrow, .name "Void", .mark '?'] := by decide +kernel
  have h : Shape.ofText? "Optional<(Int) -> Void>" =
      some (.optional (.function [.named "Int" []] (.tuple []))) := by
    rw [Shape.ofText?, hscan]
    rfl
  have h' : Shape.ofText? "(Int) -> Void?" =
      some (.function [.named "Int" []] (.optional (.tuple []))) := by
    rw [Shape.ofText?, hscan']
    rfl
  obtain ⟨hback, hinj⟩ := nameFor_readsBack h ["Int?", "a b"]
  refine ⟨h, hback, h', fun hname => ?_⟩
  cases hinj [] _ _ h' hname

/-- Types are equal exactly when the texts that asked for them stand for the same: both spell one
shape, or neither spells any and they differ in white space only. The type of a text is always that
of its shape, or the unknown type of the text, and stays so whatever is asked for later. -/
theorem resolve_eq_iff (texts : List String) :
    ∀ (i : Nat) text, texts[i]? = some text →
      ∃ id, (({} : TypeTable).answerAll (texts.map .resolve)).1[i]? = some (some id) ∧
        (∀ later, (resolved texts).Admits later →
          ((resolved texts).answerAll later).2.tree? id = some (.ofText text)) ∧
        ∀ (j : Nat) other id', texts[j]? = some other →
          (({} : TypeTable).answerAll (texts.map .resolve)).1[j]? = some (some id') →
          (id = id' ↔
            (∃ shape, Shape.ofText? text = some shape ∧ Shape.ofText? other = some shape) ∨
              (Shape.ofText? text = none ∧ Shape.ofText? other = none ∧
                squeeze text = squeeze other)) := by
  obtain ⟨ids, hids, hyields⟩ := resolved_yields texts
  have hconsistent := hyields.within.consistent
  have htree {i : Nat} {text : String} {id : TypeId} (ht : texts[i]? = some text)
      (hid : ids[i]? = some id) : (resolved texts).tree? id = some (.ofText text) := by
    have hi := congrArg (·[i]?) hyields.trees
    simpa [ht, hid] using hi
  intro i text ht
  have hlength : i < ids.length := by
    have hl : ids.length = texts.length := by simpa using congrArg List.length hyields.trees
    rw [hl]
    exact (List.getElem?_eq_some_iff.mp ht).1
  have hid : ids[i]? = some ids[i] := List.getElem?_eq_getElem hlength
  refine ⟨ids[i], by simp [hids, hid], fun later hlater => ?_, fun j other id' ho hj => ?_⟩
  · have hgrown := (hconsistent.answerAll hlater).2.1
    rw [hgrown.tree? hconsistent.closed (has_of_tree? (htree ht hid)), htree ht hid]
  · have hid' : ids[j]? = some id' := by simpa [hids] using hj
    rw [← TypeTree.ofText_eq_iff]
    constructor
    · intro heq
      have ho' := htree ho hid'
      rw [← heq, htree ht hid] at ho'
      exact Option.some.inj ho'
    · intro heq
      exact hconsistent.eq_of_name (htree ht hid) (htree ho hid') (by rw [heq])

/-- Two spellings of an optional are answered with one place, and a text that spells no type with
another. -/
theorem resolve_eq_iff_optional :
    let texts := ["Optional<Int>", "a  b", "Int?"]
    let answers := (({} : TypeTable).answerAll (texts.map .resolve)).1
    ∃ id other, answers[0]? = some (some id) ∧ answers[1]? = some (some other) ∧
      answers[2]? = some (some id) ∧ id ≠ other ∧
      (resolved texts).tree? id = some (.optional (.nominal "Int" [])) ∧
      (resolved texts).tree? other = some (.unknown "a b") := by
  intro texts answers
  have hscan : Token.scan "Optional<Int>".toList =
      [.name "Optional", .mark '<', .name "Int", .mark '>'] := by decide +kernel
  have hscan' : Token.scan "Int?".toList = [.name "Int", .mark '?'] := by decide +kernel
  have hlong : Shape.ofText? "Optional<Int>" = some (.optional (.named "Int" [])) := by
    rw [Shape.ofText?, hscan]
    rfl
  have hshort : Shape.ofText? "Int?" = some (.optional (.named "Int" [])) := by
    rw [Shape.ofText?, hscan']
    rfl
  have hnone : Shape.ofText? "a  b" = none := by decide +kernel
  have hsqueeze : squeeze "a  b" = "a b" := by decide +kernel
  obtain ⟨id, hid, htree, heq⟩ := resolve_eq_iff texts 0 "Optional<Int>" rfl
  obtain ⟨other, hother, htree', -⟩ := resolve_eq_iff texts 1 "a  b" rfl
  obtain ⟨id', hid', -, -⟩ := resolve_eq_iff texts 2 "Int?" rfl
  obtain rfl : id = id' := (heq 2 _ _ rfl hid').mpr (.inl ⟨_, hlong, hshort⟩)
  have hne : id ≠ other := fun h => by
    have hsame := (heq 1 _ _ rfl hother).mp h
    simp [hlong, hnone] at hsame
  refine ⟨id, other, hid, hother, hid', hne, ?_, ?_⟩
  · have ht := htree [] trivial
    rwa [TypeTree.ofText_of_some hlong] at ht
  · have ht := htree' [] trivial
    rwa [TypeTree.ofText_of_none hnone, hsqueeze] at ht

end TypeTable

end SwiftRelations
