import SwiftRelations.Proofs.Source.Descendants

/-!
# Where trees stand

A tree is well placed if its children lie inside it, in source order and without overlap. Where all
subtrees of a tree are, whatever is below a tree lies inside it, and the span from the first of some
siblings to the last covers all of them.
-/

namespace SwiftRelations

/-- Whether a span starts no earlier than another and ends no later. -/
structure Span.Within (inner outer : Span) : Prop where
  start_le : outer.startByte ≤ inner.startByte
  end_le : inner.endByte ≤ outer.endByte

namespace Span.Within

variable {inner middle outer first last : Span}

/-- A span is inside itself. -/
theorem refl (span : Span) : span.Within span := ⟨Nat.le_refl _, Nat.le_refl _⟩

/-- A span inside one that is inside another is inside the other. -/
theorem trans (h : inner.Within middle) (h' : middle.Within outer) : inner.Within outer :=
  ⟨Nat.le_trans h'.start_le h.start_le, Nat.le_trans h.end_le h'.end_le⟩

/-- What covers two spans covers the span from the one to the other. -/
theorem cover (hf : first.Within outer) (hl : last.Within outer) :
    (first.cover last).Within outer :=
  ⟨hf.start_le, hl.end_le⟩

end Span.Within

/-- Whether a span is inside another can be computed. -/
instance (inner outer : Span) : Decidable (inner.Within outer) :=
  decidable_of_iff (outer.startByte ≤ inner.startByte ∧ inner.endByte ≤ outer.endByte)
    ⟨fun h => ⟨h.1, h.2⟩, fun h => ⟨h.start_le, h.end_le⟩⟩

namespace Tree

/-- Whether a tree stands before another, which it does not overlap. -/
structure Precedes (t u : Tree) : Prop where
  start_le : t.span.startByte ≤ u.span.startByte
  apart : t.span.endByte ≤ u.span.startByte
  end_le : t.span.endByte ≤ u.span.endByte

/-- Whether a tree precedes another can be computed. -/
instance (t u : Tree) : Decidable (t.Precedes u) :=
  decidable_of_iff (t.span.startByte ≤ u.span.startByte ∧ t.span.endByte ≤ u.span.startByte ∧
      t.span.endByte ≤ u.span.endByte)
    ⟨fun h => ⟨h.1, h.2.1, h.2.2⟩, fun h => ⟨h.start_le, h.apart, h.end_le⟩⟩

/-- The span from a tree to one that stands after it covers both. -/
theorem Precedes.within_cover {t u : Tree} (h : t.Precedes u) :
    t.span.Within (t.span.cover u.span) ∧ u.span.Within (t.span.cover u.span) :=
  ⟨⟨Nat.le_refl _, h.end_le⟩, ⟨h.start_le, Nat.le_refl _⟩⟩

/-- Whether the children of a tree stand inside it, one after the other. The field of the item of a
loop, which alone the span of a pattern hangs on, is answered by a child. -/
structure WellPlaced (t : Tree) : Prop where
  inside : ∀ c ∈ t.children, c.span.Within t.span
  ordered : t.children.Pairwise Precedes
  item : ∀ c, t.childByField? "item" = some c → c ∈ t.children

/-- Whether all subtrees of a tree are well placed. -/
def Placed (root : Tree) : Prop := ∀ t ∈ root.subtrees, t.WellPlaced

variable {t u : Tree} {ts us : List Tree}

/-- A field that no answer is stated for is answered by a child. -/
theorem mem_children_of_childByField? {name : String} (hn : t.head.fieldAnswers = [])
    (h : t.childByField? name = some u) : u ∈ t.children := by
  rw [childByField?, hn] at h
  exact List.mem_of_find?_eq_some h

namespace Placed

/-- The subtrees of a placed tree are placed. -/
theorem subtree (h : t.Placed) (hu : u ∈ t.subtrees) : u.Placed :=
  fun v hv => h v (subtrees_subset hu hv)

/-- A placed tree is well placed itself. -/
theorem self (h : t.Placed) : t.WellPlaced := h t (mem_subtrees_self t)

/-- What is below a placed tree lies inside it. By induction on the height of the tree. -/
theorem within_of_mem_descendants {t u : Tree} (h : t.Placed) (hu : u ∈ t.descendants) :
    u.span.Within t.span := by
  obtain ⟨c, hc, hu⟩ := mem_descendants.mp hu
  have hd := mem_descendants_of_mem_children hc
  have hin := h.self.inside c hc
  rcases mem_subtrees.mp hu with rfl | hu
  · exact hin
  · have hlt := height_lt hd
    have hcu := (h.subtree (mem_subtrees.mpr (.inr hd))).within_of_mem_descendants hu
    exact hcu.trans hin
termination_by t.height

/-- Some of the children of a placed tree stand one after the other. -/
theorem pairwise_precedes (h : t.Placed) (hs : ts.Sublist t.children) : ts.Pairwise Precedes :=
  h.self.ordered.sublist hs

/-- Two children of a placed tree are the same, or one precedes the other. -/
theorem precedes_or_precedes {c d : Tree} (h : t.Placed) (hc : c ∈ t.children)
    (hd : d ∈ t.children) : c.Precedes d ∨ c = d ∨ d.Precedes c := by
  have hpairs := List.pairwise_iff_getElem.mp h.self.ordered
  obtain ⟨i, hi, rfl⟩ := List.getElem_of_mem hc
  obtain ⟨j, hj, rfl⟩ := List.getElem_of_mem hd
  rcases Nat.lt_trichotomy i j with hij | rfl | hij
  · exact .inl (hpairs i j hi hj hij)
  · exact .inr (.inl rfl)
  · exact .inr (.inr (hpairs j i hj hi hij))

end Placed

end Tree

end SwiftRelations
