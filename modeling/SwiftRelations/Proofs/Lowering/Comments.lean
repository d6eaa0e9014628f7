import SwiftRelations.Proofs.Lowering.AlikeItems
import SwiftRelations.Proofs.Source.Descendants

/-!
# Comments are transparent

A comment may stand between any two tokens. The lowering of a file does not tell whether it is
there: leaving comments out, and numbering the nodes that are left anew, gives a tree that looks
alike, and so the same lowered file.
-/

namespace SwiftRelations

open List

/-- What a node holds when the nodes of the tree are numbered anew. -/
def TreeHead.renumber (place : Nat → Nat) (head : TreeHead) : TreeHead :=
  { head with
    index := place head.index
    fieldAnswers := head.fieldAnswers.map fun (name, answer) => (name, answer.map place) }

/-- What is looked up in a list whose second components are changed is changed. -/
theorem lookup_map_snd {α β γ : Type} [BEq α] (f : β → γ) (xs : List (α × β)) (a : α) :
    (xs.map fun (x, y) => (x, f y)).lookup a = (xs.lookup a).map f := by
  induction xs with
  | nil => rfl
  | cons x xs ih =>
    rw [map_cons, lookup_cons, lookup_cons, ih]
    cases a == x.1 <;> rfl

namespace Tree

mutual

/-- A tree without some of the trees below it, its nodes numbered anew. -/
def erase (doomed : Tree → Bool) (place : Nat → Nat) : Tree → Tree
  | .node head children => .node (head.renumber place) (eraseAll doomed place children)

/-- The trees of a list that are not left out, each without some of the trees below it. -/
def eraseAll (doomed : Tree → Bool) (place : Nat → Nat) : List Tree → List Tree
  | [] => []
  | t :: ts =>
    if doomed t then eraseAll doomed place ts
    else erase doomed place t :: eraseAll doomed place ts

end

/-- Whether the trees to leave out are comments below the root that no lookup needs. -/
structure Erasable (root : Tree) (doomed : Tree → Bool) : Prop where
  comment : ∀ t ∈ root.descendants, doomed t → t.isComment
  field : ∀ t ∈ root.descendants, doomed t → t.head.field = none
  /-- What is left out is no answer to a lookup of a field, but perhaps to one that is left out with
  it. -/
  answer : ∀ v ∈ root.subtrees, ∀ name u, v.childByField? name = some u →
    ∀ t ∈ root.descendants, doomed t → u ∈ t.subtrees → v ∈ t.subtrees

section

variable {doomed : Tree → Bool} {place : Nat → Nat} {root t u : Tree} {ts : List Tree}

@[simp] private theorem head_erase (t : Tree) :
    (t.erase doomed place).head = t.head.renumber place := by
  cases t
  rw [erase]
  rfl

@[simp] private theorem children_erase (t : Tree) :
    (t.erase doomed place).children = eraseAll doomed place t.children := by
  cases t
  rw [erase]
  rfl

/-! ### Lookups in what is left -/

mutual

/-- What is below a tree when something is left out was below it before. -/
theorem mem_subtrees_erase {t u : Tree} (h : u ∈ (t.erase doomed place).subtrees) :
    ∃ v ∈ t.subtrees, u = v.erase doomed place := by
  obtain ⟨head, children⟩ := t
  rcases mem_subtrees.mp h with rfl | h
  · exact ⟨_, mem_subtrees_self _, rfl⟩
  · rw [descendants, children_erase] at h
    obtain ⟨v, hv, rfl⟩ := mem_subtreesOfAll_eraseAll h
    exact ⟨v, mem_subtrees.mpr (.inr hv), rfl⟩

/-- What is in or below the trees that are left was there before. -/
theorem mem_subtreesOfAll_eraseAll {ts : List Tree} {u : Tree}
    (h : u ∈ subtreesOfAll (eraseAll doomed place ts)) :
    ∃ v ∈ subtreesOfAll ts, u = v.erase doomed place := by
  cases ts with
  | nil => simp [eraseAll, subtreesOfAll] at h
  | cons t ts =>
    rw [eraseAll] at h
    rw [subtreesOfAll]
    split at h
    · obtain ⟨v, hv, rfl⟩ := mem_subtreesOfAll_eraseAll h
      exact ⟨v, mem_append_right _ hv, rfl⟩
    · rw [subtreesOfAll] at h
      rcases mem_append.mp h with h | h
      · obtain ⟨v, hv, rfl⟩ := mem_subtrees_erase h
        exact ⟨v, mem_append_left _ hv, rfl⟩
      · obtain ⟨v, hv, rfl⟩ := mem_subtreesOfAll_eraseAll h
        exact ⟨v, mem_append_right _ hv, rfl⟩

end

/-- The node of a number is not found where it was not before. -/
theorem find?_erase_none (hplace : place.Injective) {index : Nat} {vs ws : List Tree}
    (hsub : ∀ u ∈ ws, ∃ v ∈ vs, u = v.erase doomed place)
    (h : vs.find? (·.head.index == index) = none) :
    ws.find? (·.head.index == place index) = none := by
  refine find?_eq_none.mpr fun u hu heq => ?_
  obtain ⟨v, hv, rfl⟩ := hsub u hu
  refine find?_eq_none.mp h v hv ?_
  simpa [TreeHead.renumber, hplace.eq_iff] using heq

mutual

/-- The node of a number is found among what is left, if nothing that holds it is left out. -/
theorem find?_subtrees_erase (hplace : place.Injective) {t u : Tree} {index : Nat}
    (h : t.subtrees.find? (·.head.index == index) = some u)
    (hkept : ∀ s ∈ t.subtrees, doomed s → u ∉ s.subtrees) :
    (t.erase doomed place).subtrees.find? (·.head.index == place index) =
      some (u.erase doomed place) := by
  obtain ⟨head, children⟩ := t
  rw [subtrees] at h hkept
  rw [erase, subtrees]
  by_cases hindex : head.index = index
  · rw [find?_cons_of_pos (by simpa [Tree.head] using hindex)] at h
    cases h
    rw [find?_cons_of_pos (by simp [Tree.head, TreeHead.renumber, hindex]), erase]
  · rw [find?_cons_of_neg (by simpa [Tree.head] using hindex)] at h
    rw [find?_cons_of_neg (by simpa [Tree.head, TreeHead.renumber, hplace.eq_iff] using hindex)]
    exact find?_subtreesOfAll_eraseAll hplace h fun s hs => hkept s (mem_cons_of_mem _ hs)

private theorem find?_subtreesOfAll_eraseAll (hplace : place.Injective) {ts : List Tree} {u : Tree}
    {index : Nat} (h : (subtreesOfAll ts).find? (·.head.index == index) = some u)
    (hkept : ∀ s ∈ subtreesOfAll ts, doomed s → u ∉ s.subtrees) :
    (subtreesOfAll (eraseAll doomed place ts)).find? (·.head.index == place index) =
      some (u.erase doomed place) := by
  cases ts with
  | nil => simp [subtreesOfAll] at h
  | cons t ts =>
    rw [subtreesOfAll] at h hkept
    rw [find?_append] at h
    rw [eraseAll]
    cases hfirst : t.subtrees.find? (·.head.index == index) with
    | some v =>
      rw [hfirst] at h
      cases h
      have ht : ¬ doomed t := fun ht => hkept t (mem_append_left _ (mem_subtrees_self t)) ht
        (mem_of_find?_eq_some hfirst)
      rw [if_neg ht, subtreesOfAll, find?_append, find?_subtrees_erase hplace hfirst fun s hs =>
        hkept s (mem_append_left _ hs)]
      rfl
    | none =>
      rw [hfirst] at h
      have hrest := find?_subtreesOfAll_eraseAll hplace h fun s hs =>
        hkept s (mem_append_right _ hs)
      split
      · exact hrest
      · rw [subtreesOfAll, find?_append,
          find?_erase_none hplace (fun _ => mem_subtrees_erase) hfirst]
        exact hrest

end

/-- The first child of a field is left, if what is left out has no field. -/
theorem find?_field_eraseAll (name : String) (h : ∀ t ∈ ts, doomed t → t.head.field = none) :
    (eraseAll doomed place ts).find? (·.head.field == some name) =
      (ts.find? (·.head.field == some name)).map (erase doomed place) := by
  induction ts with
  | nil => rfl
  | cons t ts ih =>
    have hts := ih fun s hs => h s (mem_cons_of_mem t hs)
    rw [eraseAll, find?_cons]
    by_cases ht : doomed t
    · rw [if_pos ht, h t mem_cons_self ht]
      exact hts
    · rw [if_neg ht, find?_cons, head_erase, TreeHead.renumber]
      cases t.head.field == some name
      · exact hts
      · rfl

/-- A field is answered by what is left of what answered it before. -/
theorem childByField?_erase (h : root.Erasable doomed) (hplace : place.Injective)
    (ht : t ∈ root.subtrees) (name : String) :
    (t.erase doomed place).childByField? name =
      (t.childByField? name).map (erase doomed place) := by
  have hbelow : ∀ s ∈ t.descendants, s ∈ root.descendants := fun s hs =>
    (mem_subtrees.mp ht).elim (fun he => he ▸ hs) fun ht => descendants_trans ht hs
  have hkept : ∀ u, t.childByField? name = some u → ∀ s ∈ t.descendants, doomed s →
      u ∉ s.subtrees := fun u hu s hs hdoomed hus =>
    absurd (height_le (h.answer t ht name u hu s (hbelow s hs) hdoomed hus))
      (Nat.not_le_of_gt (height_lt hs))
  have hlookup : (t.erase doomed place).head.fieldAnswers.lookup name =
      (t.head.fieldAnswers.lookup name).map (·.map place) := by
    rw [head_erase]
    exact lookup_map_snd _ _ name
  unfold childByField? at hkept ⊢
  rw [hlookup]
  cases hanswer : t.head.fieldAnswers.lookup name with
  | none =>
    simp only [Option.map_none, children_erase]
    exact find?_field_eraseAll name fun s hs =>
      h.field s (hbelow s (mem_descendants_of_mem_children hs))
  | some answer =>
    cases answer with
    | none => rfl
    | some index =>
      simp only [hanswer] at hkept
      simp only [Option.map_some, descendants, children_erase]
      cases hfound : (subtreesOfAll t.children).find? (·.head.index == index) with
      | none => exact find?_erase_none hplace (fun _ => mem_subtreesOfAll_eraseAll) hfound
      | some u => exact find?_subtreesOfAll_eraseAll hplace hfound (hkept u hfound)

/-- Whether a tree is what is left of another that stands in a file, both up to some height. -/
def Remains (root : Tree) (doomed : Tree → Bool) (place : Nat → Nat) (n m : Nat) (t u : Tree) :
    Prop :=
  t ∈ root.subtrees ∧ u = t.erase doomed place ∧ t.height ≤ n ∧ u.height ≤ m

/-- What is left of the children of a node are some of them, but for comments. -/
theorem thinned_eraseAll {like : Tree → Tree → Prop}
    (hlike : ∀ t ∈ ts, ¬ doomed t → like t (t.erase doomed place))
    (hcomment : ∀ t ∈ ts, doomed t → t.isComment)
    (hfield : ∀ t ∈ ts, doomed t → t.head.field = none) :
    Thinned like ts (eraseAll doomed place ts) := by
  induction ts with
  | nil => exact .nil
  | cons t ts ih =>
    have hts := ih (fun s hs => hlike s (mem_cons_of_mem t hs))
      (fun s hs => hcomment s (mem_cons_of_mem t hs)) fun s hs => hfield s (mem_cons_of_mem t hs)
    rw [eraseAll]
    split
    case isTrue ht => exact .drop (hcomment t mem_cons_self ht) (hfield t mem_cons_self ht) hts
    case isFalse ht => exact .keep (hlike t mem_cons_self ht) hts

/-- What is left of a child is a child of what is left. -/
theorem mem_eraseAll (ht : t ∈ ts) (hkept : ¬ doomed t) :
    t.erase doomed place ∈ eraseAll doomed place ts := by
  induction ht with
  | head ts => rw [eraseAll, if_neg hkept]; exact mem_cons_self
  | tail s _ ih =>
    rw [eraseAll]
    split
    · exact ih
    · exact mem_cons_of_mem _ ih

/-- What is left of a tree looks like it. -/
theorem alike_erase (h : root.Erasable doomed) (hplace : place.Injective) (ht : t ∈ root.subtrees)
    {n m : Nat} (hn : t.height ≤ n + 1) (hm : (t.erase doomed place).height ≤ m + 1) :
    t.Alike (Remains root doomed place n m) (t.erase doomed place) := by
  have hroot : ∀ s ∈ t.descendants, s ∈ root.descendants := fun s hs =>
    (mem_subtrees.mp ht).elim (fun he => he ▸ hs) fun ht => descendants_trans ht hs
  -- What is below is less high, on both sides.
  have hbelow : ∀ s ∈ t.descendants, s.erase doomed place ∈ (t.erase doomed place).descendants →
      Remains root doomed place n m s (s.erase doomed place) := fun s hs hs' =>
    ⟨mem_subtrees.mpr (.inr (hroot s hs)), rfl,
      Nat.le_of_lt_succ (Nat.lt_of_lt_of_le (height_lt hs) hn),
      Nat.le_of_lt_succ (Nat.lt_of_lt_of_le (height_lt hs') hm)⟩
  have hhead : (t.erase doomed place).head = t.head.renumber place := head_erase t
  refine ⟨?_, ?_, ?_, ?_, ?_, ?_, fun name => ?_⟩
  iterate 5 simp only [kind, span, text, hhead, TreeHead.renumber]
  · rw [children_erase]
    refine thinned_eraseAll (fun s hs hkept => ?_)
      (fun s hs => h.comment s (hroot s (mem_descendants_of_mem_children hs)))
      fun s hs => h.field s (hroot s (mem_descendants_of_mem_children hs))
    refine hbelow s (mem_descendants_of_mem_children hs) (mem_descendants_of_mem_children ?_)
    rw [children_erase]
    exact mem_eraseAll hs hkept
  · have hanswer := childByField?_erase h hplace ht name
    cases hu : t.childByField? name with
    | none =>
      rw [hanswer, hu]
      exact .none
    | some u =>
      rw [hu] at hanswer
      rw [hanswer]
      exact .some (hbelow u (mem_descendants_of_childByField? hu)
        (mem_descendants_of_childByField? hanswer))

private theorem likeness_remains (h : root.Erasable doomed) (hplace : place.Injective) (n m : Nat) :
    Likeness (Remains root doomed place n m) where
  alike := by
    rintro t _ ⟨ht, rfl, hn, hm⟩
    exact alike_erase h hplace ht (Nat.le_succ_of_le hn) (Nat.le_succ_of_le hm)
  index := by
    rintro t _ t' _ ⟨-, rfl, -⟩ ⟨-, rfl, -⟩
    simp [TreeHead.renumber, hplace.eq_iff]

end

end Tree

namespace Lowering

open SwiftRelations.Tree

variable {doomed : Tree → Bool} {place : Nat → Nat} {root : Tree}

/-- A height has no part in what is made of trees that are not higher: what is left of a tree is
lowered as the tree is. -/
theorem upTo_agree (h : root.Erasable doomed) (hplace : place.Injective) (n m : Nat) :
    (upTo n).Agree (Remains root doomed place n m) (upTo m) := by
  have hpos : ∀ t : Tree, ¬ t.height ≤ 0 := fun t => Nat.not_le_of_gt t.height_pos
  induction n generalizing m with
  | zero =>
    constructor <;> exact fun hu => absurd hu.2.2.1 (hpos _)
  | succ n ih =>
    cases m with
    | zero =>
      constructor <;> exact fun hu => absurd hu.2.2.2 (hpos _)
    | succ m =>
      have L := likeness_remains h hplace n m
      have halike : ∀ {t u : Tree}, Remains root doomed place (n + 1) (m + 1) t u →
          t.Alike (Remains root doomed place n m) u := by
        rintro t _ ⟨ht, rfl, hn, hm⟩
        exact alike_erase h hplace ht hn hm
      exact ⟨fun hu => declAt_alike L (ih m) (halike hu),
        fun hu => stmtAt_alike L (ih m) (halike hu),
        fun hu => exprAt_alike L (ih m) (halike hu),
        fun hu => patternAt_alike L (ih m) (halike hu)⟩

end Lowering

namespace Tree

variable {doomed : Tree → Bool} {root : Tree}

/-- A file is lowered alike whatever comments are left out of it. -/
theorem lower_erase (root : Tree) (doomed : Tree → Bool) (place : Nat → Nat)
    (h : root.Erasable doomed) (hplace : place.Injective) (hasParseErrors : Bool) :
    (root.erase doomed place).lower hasParseErrors = root.lower hasParseErrors := by
  have halike := alike_erase h hplace (mem_subtrees_self root) (Nat.le_succ root.height)
    (Nat.le_succ (root.erase doomed place).height)
  have hfile := Lowering.sourceFile_alike (likeness_remains h hplace _ _)
    (Lowering.upTo_agree h hplace _ _) halike
  rw [lower, lower, hfile]

/-- Comments with nothing below them can be left out if they have no field and no lookup is recorded
to be answered by one. -/
theorem Erasable.of_leaves
    (hleaf : ∀ t ∈ root.descendants, doomed t →
      t.isComment ∧ t.head.field = none ∧ t.children.isEmpty)
    (hanswer : ∀ v ∈ root.subtrees, ∀ answer ∈ v.head.fieldAnswers, ∀ t ∈ root.descendants,
      doomed t → answer.2 ≠ some t.head.index) : root.Erasable doomed where
  comment t ht hdoomed := (hleaf t ht hdoomed).1
  field t ht hdoomed := (hleaf t ht hdoomed).2.1
  answer v hv name u hu t ht hdoomed hut := by
    -- The answer would be the comment itself.
    obtain ⟨-, hfield, hempty⟩ := hleaf t ht hdoomed
    have hut : u = t := by
      refine (mem_subtrees.mp hut).resolve_right fun h => ?_
      rw [descendants, isEmpty_iff.mp hempty] at h
      cases h
    subst hut
    unfold childByField? at hu
    split at hu
    · cases hu
    · rename_i index hlookup
      obtain ⟨before, after, hlist, -⟩ := lookup_eq_some_iff.mp hlookup
      have hmem : (name, some index) ∈ v.head.fieldAnswers := by simp [hlist]
      have hindex : u.head.index = index := by simpa using find?_some hu
      exact absurd (congrArg some hindex.symm) (hanswer v hv _ hmem u ht hdoomed)
    · have hname : u.head.field = some name := by simpa using find?_some hu
      rw [hfield] at hname
      cases hname

/-- The tree of the declaration `let a /* one */ = 1`, whose value is the answer to a lookup that is
recorded. -/
def commentedBinding : Tree :=
  node ⟨0, "source_file", true, none, ⟨0, 19, 1, 1, 1, 20⟩, "let a /* one */ = 1", []⟩ [
    node ⟨1, "property_declaration", true, none, ⟨0, 19, 1, 1, 1, 20⟩, "let a /* one */ = 1",
      [("value", some 6)]⟩ [
      node ⟨2, "let", false, none, ⟨0, 3, 1, 1, 1, 4⟩, "let", []⟩ [],
      node ⟨3, "simple_identifier", true, some "name", ⟨4, 5, 1, 5, 1, 6⟩, "a", []⟩ [],
      node ⟨4, "multiline_comment", true, none, ⟨6, 15, 1, 7, 1, 16⟩, "/* one */", []⟩ [],
      node ⟨5, "=", false, none, ⟨16, 17, 1, 17, 1, 18⟩, "=", []⟩ [],
      node ⟨6, "integer_literal", true, some "value", ⟨18, 19, 1, 19, 1, 20⟩, "1", []⟩ []]]

/-- The numbers of the nodes when the node of number 4 of 7 is left out. -/
def withoutFourth (index : Nat) : Nat :=
  if index ≤ 3 ∨ 7 ≤ index then index else if index = 4 then 6 else index - 1

/-- A declaration is lowered alike without the comment in it. -/
theorem lower_erase_commentedBinding :
    commentedBinding.Erasable isComment ∧ withoutFourth.Injective ∧
      (commentedBinding.erase isComment withoutFourth).lower false =
        commentedBinding.lower false := by
  have herasable : commentedBinding.Erasable isComment :=
    .of_leaves (by decide +kernel) (by decide +kernel)
  have hplace : withoutFourth.Injective := fun i j h => by
    simp only [withoutFourth] at h
    split_ifs at h <;> omega
  exact ⟨herasable, hplace,
    lower_erase commentedBinding isComment withoutFourth herasable hplace false⟩

end Tree

end SwiftRelations
