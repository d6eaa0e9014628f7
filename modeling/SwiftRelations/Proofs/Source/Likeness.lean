import SwiftRelations.Proofs.Data.List
import SwiftRelations.Source.Tree

/-!
# Trees that look alike

A tree is looked at through its kind, its text, its place in the file, and its parts. Two trees look
alike if nothing of this tells them apart: their parts are as many, in the same order, and look
alike again. Comments among the children, and the numbers of the nodes, are not looked at, except
that two parts are or are not one node.
-/

namespace SwiftRelations

open List

namespace Tree

/-! ### Likeness -/

/-- Whether some children are others without comments that have no field, and what is left looks
alike. -/
inductive Thinned (like : Tree → Tree → Prop) : List Tree → List Tree → Prop
  | nil : Thinned like [] []
  | keep {t u : Tree} {ts us : List Tree} (h : like t u) (hs : Thinned like ts us) :
    Thinned like (t :: ts) (u :: us)
  | drop {t : Tree} {ts us : List Tree} (comment : t.isComment) (field : t.head.field = none)
    (hs : Thinned like ts us) : Thinned like (t :: ts) us

/-- Whether two trees look alike to those who compare the trees below them by a relation. -/
structure Alike (like : Tree → Tree → Prop) (t u : Tree) : Prop where
  kind : t.kind = u.kind
  named : t.head.named = u.head.named
  field : t.head.field = u.head.field
  span : t.span = u.span
  text : t.text = u.text
  children : Thinned like t.children u.children
  childByField? : ∀ name, Option.Rel like (t.childByField? name) (u.childByField? name)

/-- Whether a relation is a likeness: trees that it relates look alike, all the way down, and two of
them are one node where their counterparts are. -/
structure Likeness (like : Tree → Tree → Prop) : Prop where
  alike : ∀ {t u : Tree}, like t u → t.Alike like u
  index : ∀ {t u t' u' : Tree}, like t u → like t' u' →
    (t.head.index = t'.head.index ↔ u.head.index = u'.head.index)

section

variable {like : Tree → Tree → Prop} {t u : Tree}

/-- What is seen of a tree without its parts is seen of a like one. -/
theorem Likeness.kind (L : Likeness like) (h : like t u) : t.kind = u.kind := (L.alike h).kind

/-- Like trees have the same text. -/
theorem Likeness.text (L : Likeness like) (h : like t u) : t.text = u.text := (L.alike h).text

/-- Like trees stand in the same place. -/
theorem Likeness.span (L : Likeness like) (h : like t u) : t.span = u.span := (L.alike h).span

/-- Like trees are both named, or neither is. -/
theorem Likeness.named (L : Likeness like) (h : like t u) : t.head.named = u.head.named :=
  (L.alike h).named

/-- Trees that look alike are both comments, or neither is. -/
theorem Alike.isComment (h : t.Alike like u) : t.isComment = u.isComment := by
  rw [Tree.isComment, Tree.isComment, h.kind]

private theorem Alike.isOperand (h : t.Alike like u) : t.isOperand = u.isOperand := by
  rw [Tree.isOperand, Tree.isOperand, h.isComment, h.named, h.kind]

/-- Like trees are both comments, or neither is. -/
theorem Likeness.isComment (L : Likeness like) (h : like t u) : t.isComment = u.isComment :=
  (L.alike h).isComment

/-- Like trees are both operands, or neither is. -/
theorem Likeness.isOperand (L : Likeness like) (h : like t u) : t.isOperand = u.isOperand :=
  (L.alike h).isOperand

namespace Alike

/-! ### The parts of like trees -/

/-- Comments that are left out are not among the parts. -/
theorem parts (L : Likeness like) (h : t.Alike like u) : Forall₂ like t.parts u.parts := by
  have hthin : ∀ {ts us : List Tree}, Thinned like ts us →
      Forall₂ like (ts.filter (!·.isComment)) (us.filter (!·.isComment)) := by
    intro ts us hs
    induction hs with
    | nil => exact .nil
    | @keep t u ts us htu _ ih =>
      rw [filter_cons, filter_cons, L.isComment htu]
      split
      · exact .cons htu ih
      · exact ih
    | drop comment _ _ ih => simpa [comment] using ih
  exact hthin h.children

/-- The named parts of trees that look alike are alike. -/
theorem namedParts (L : Likeness like) (h : t.Alike like u) :
    Forall₂ like t.namedParts u.namedParts :=
  (h.parts L).filter fun _ _ => L.named

/-- The operands of trees that look alike are alike. -/
theorem operands (L : Likeness like) (h : t.Alike like u) : Forall₂ like t.operands u.operands :=
  (h.parts L).filter fun _ _ => L.isOperand

/-- The parts of a kind of trees that look alike are alike. -/
theorem part? (L : Likeness like) (h : t.Alike like u) (kind : String) :
    Option.Rel like (t.part? kind) (u.part? kind) :=
  (h.parts L).find? fun _ _ hab => by rw [L.kind hab]

/-- Comments that are left out have no field. -/
theorem childrenByField (L : Likeness like) (h : t.Alike like u) (name : String) :
    Forall₂ like (t.childrenByField name) (u.childrenByField name) := by
  have hthin : ∀ {ts us : List Tree}, Thinned like ts us → Forall₂ like
      (ts.filter (·.head.field == some name)) (us.filter (·.head.field == some name)) := by
    intro ts us hs
    induction hs with
    | nil => exact .nil
    | @keep t u ts us htu _ ih =>
      rw [filter_cons, filter_cons, (L.alike htu).field]
      split
      · exact .cons htu ih
      · exact ih
    | drop _ field _ ih => simpa [field] using ih
  exact hthin h.children

/-- A field that is not answered may have something else in its place. -/
theorem field_or {a b : Option Tree} (h : t.Alike like u) (name : String)
    (hab : Option.Rel like a b) :
    Option.Rel like ((t.childByField? name).orElse fun _ => a)
      ((u.childByField? name).orElse fun _ => b) :=
  (h.childByField? name).orElse hab

end Alike

end

end Tree

end SwiftRelations
