import SwiftRelations.Facts.Label

/-!
# The label registry

The two maps of a registry are inverse to each other, and the labels given out are those from one
up to the number of labels. A registry of which this holds never meets a collision.
-/

namespace SwiftRelations

namespace Registry

/-- The maps are inverse, and the labels given out are the numbers from one to the count. -/
structure WF (r : Registry) : Prop where
  inverse : ∀ (key : NodeKey) (label : Label),
    r.lookup key = some label ↔ r.owner label = some key
  dense : ∀ label : Label, (r.owner label).isSome ↔ 1 ≤ label.number ∧ label.number < r.next
  counted : r.next = r.size + 1

/-- The registry with the next label given to a node. -/
def add (r : Registry) (key : NodeKey) : Registry where
  labels := r.labels.insert key ⟨r.next⟩
  owners := r.owners.insert ⟨r.next⟩ key
  next := r.next + 1

/-- A new label is that of the node it was given to. -/
theorem lookup_add (r : Registry) (key other : NodeKey) :
    (r.add key).lookup other = if key = other then some ⟨r.next⟩ else r.lookup other := by
  simp only [lookup, add, Std.HashMap.getElem?_insert, beq_iff_eq]

/-- The owner of the new label is the node it was given to. -/
theorem owner_add (r : Registry) (key : NodeKey) (label : Label) :
    (r.add key).owner label = if ⟨r.next⟩ = label then some key else r.owner label := by
  simp only [owner, add, Std.HashMap.getElem?_insert, beq_iff_eq]

/-- A node that has a label keeps it and the registry. -/
theorem fetch_of_lookup {r : Registry} {key : NodeKey} {label : Label}
    (h : r.lookup key = some label) : r.fetch key = .ok (label, r) := by
  simp only [fetch, h]

/-- The label after the last one belongs to no node. -/
theorem WF.owner_next {r : Registry} (wf : r.WF) : r.owner ⟨r.next⟩ = none := by
  cases h : r.owner ⟨r.next⟩ with
  | none => rfl
  | some key =>
    have hs := (wf.dense ⟨r.next⟩).mp (by rw [h]; rfl)
    exact absurd hs.2 (Nat.lt_irrefl _)

/-- No node has the label after the last one. -/
theorem WF.lookup_ne_next {r : Registry} (wf : r.WF) (key : NodeKey) :
    r.lookup key ≠ some ⟨r.next⟩ := by
  intro h
  have ho := (wf.inverse key ⟨r.next⟩).mp h
  rw [wf.owner_next] at ho
  cases ho

/-- A node without a label is given the next one: there is no collision. -/
theorem WF.fetch_of_lookup_none {r : Registry} (wf : r.WF) {key : NodeKey}
    (h : r.lookup key = none) : r.fetch key = .ok (⟨r.next⟩, r.add key) := by
  simp only [fetch, h, wf.owner_next]
  rfl

/-- Fetching from a well-formed registry succeeds. -/
theorem WF.fetch_ok {r : Registry} (wf : r.WF) (key : NodeKey) :
    ∃ label r', r.fetch key = .ok (label, r') := by
  cases h : r.lookup key with
  | some label => exact ⟨label, r, fetch_of_lookup h⟩
  | none => exact ⟨⟨r.next⟩, r.add key, wf.fetch_of_lookup_none h⟩

/-- An empty registry is well formed. -/
theorem wf_empty : ({} : Registry).WF where
  inverse := by simp [lookup, owner]
  dense := by
    intro label
    simp only [owner, Std.HashMap.getElem?_empty, Option.isSome_none, Bool.false_eq_true,
      false_iff]
    omega
  counted := by simp [size]

/-- Giving the next label to a node without one keeps a registry well formed. -/
theorem WF.add {r : Registry} (wf : r.WF) {key : NodeKey} (h : r.lookup key = none) :
    (r.add key).WF where
  inverse := by
    intro other label
    rw [lookup_add, owner_add]
    by_cases hk : key = other
    · subst hk
      by_cases hl : (⟨r.next⟩ : Label) = label
      · simp [hl]
      · have hn : r.owner label ≠ some key := by
          intro ho
          have := (wf.inverse key label).mpr ho
          rw [h] at this
          cases this
        simp [hl, hn]
    · by_cases hl : (⟨r.next⟩ : Label) = label
      · subst hl
        simp [hk, wf.lookup_ne_next other]
      · simpa [hk, hl] using wf.inverse other label
  dense := by
    intro label
    rw [owner_add]
    have hd := wf.dense label
    have hc := wf.counted
    by_cases hl : (⟨r.next⟩ : Label) = label
    · subst hl
      simp only [ite_true, Option.isSome_some, Registry.add, true_iff]
      omega
    · have hne : label.number ≠ r.next := fun he => hl (by cases label; simp_all)
      simp only [hl, ite_false, hd, Registry.add]
      omega
  counted := by
    have hm : key ∉ r.labels := by
      rw [← Std.HashMap.isSome_getElem?_iff_mem]
      simp only [lookup] at h
      simp [h]
    simp only [Registry.add, size, Std.HashMap.size_insert, hm, ite_false]
    have := wf.counted
    simp only [size] at this
    omega

/-- What a fetch leaves behind is well formed. -/
theorem WF.fetch {r r' : Registry} (wf : r.WF) {key : NodeKey} {label : Label}
    (h : r.fetch key = .ok (label, r')) : r'.WF := by
  cases hl : r.lookup key with
  | some known =>
    rw [fetch_of_lookup hl] at h
    cases h
    exact wf
  | none =>
    rw [wf.fetch_of_lookup_none hl] at h
    cases h
    exact wf.add hl

/-- What had a label before a fetch has it afterwards. -/
theorem lookup_of_fetch {r r' : Registry} {key other : NodeKey} {label known : Label}
    (h : r.fetch key = .ok (label, r')) (hk : r.lookup other = some known) :
    r'.lookup other = some known := by
  simp only [fetch] at h
  split at h
  · cases h
    exact hk
  · rename_i hn
    split at h
    · cases h
    · cases h
      have hne : key ≠ other := by
        rintro rfl
        rw [hn] at hk
        cases hk
      simpa only [lookup, Std.HashMap.getElem?_insert, beq_iff_eq, hne, ite_false] using hk

/-- A fetch leaves the label of any other node. -/
theorem lookup_fetch_of_ne {r r' : Registry} {key other : NodeKey} {label : Label}
    (h : r.fetch key = .ok (label, r')) (hne : key ≠ other) : r'.lookup other = r.lookup other := by
  simp only [fetch] at h
  split at h
  · cases h
    rfl
  · split at h
    · cases h
    · cases h
      simp only [lookup, Std.HashMap.getElem?_insert, beq_iff_eq, hne, ite_false]

/-- A fetch gives the label that the node has afterwards. -/
theorem lookup_fetch {r r' : Registry} {key : NodeKey} {label : Label}
    (h : r.fetch key = .ok (label, r')) : r'.lookup key = some label := by
  simp only [fetch] at h
  split at h
  · cases h
    assumption
  · split at h
    · cases h
    · cases h
      simp [lookup]

/-- The labels given out are exactly those from one to their number. -/
theorem WF.owner_isSome_iff {r : Registry} (wf : r.WF) (label : Label) :
    (r.owner label).isSome ↔ 1 ≤ label.number ∧ label.number ≤ r.size := by
  rw [wf.dense, wf.counted]
  omega

/-- Two nodes of one label are the same node. -/
theorem WF.lookup_inj {r : Registry} (wf : r.WF) {key other : NodeKey} {label : Label}
    (hk : r.lookup key = some label) (ho : r.lookup other = some label) : key = other := by
  have h := (wf.inverse key label).mp hk
  rw [(wf.inverse other label).mp ho] at h
  exact (Option.some.inj h).symm

/-- The label that another registry gives to the node of a label. A label that no node has is
given to itself. -/
def translate (r r' : Registry) (label : Label) : Label :=
  ((r.owner label).bind r'.lookup).getD label

/-- The label of a node is translated to the label of that node. -/
theorem WF.translate_of_lookup {r r' : Registry} (wf : r.WF) {key : NodeKey} {label label' : Label}
    (h : r.lookup key = some label) (h' : r'.lookup key = some label') :
    r.translate r' label = label' := by
  rw [translate, (wf.inverse key label).mp h, Option.bind_some, h', Option.getD_some]

/-- Translating there and back gives a label again, if both registries label the same nodes. -/
theorem WF.translate_translate {r r' : Registry} (wf : r.WF) (wf' : r'.WF)
    (hs : r.size = r'.size)
    (hk : ∀ key, (r.lookup key).isSome ↔ (r'.lookup key).isSome) (label : Label) :
    r'.translate r (r.translate r' label) = label := by
  cases ho : r.owner label with
  | some key =>
    have hl := (wf.inverse key label).mpr ho
    obtain ⟨label', hl'⟩ := Option.isSome_iff_exists.mp ((hk key).mp (by rw [hl]; rfl))
    rw [wf.translate_of_lookup hl hl', wf'.translate_of_lookup hl' hl]
  | none =>
    have hn : r'.owner label = none := by
      have hiff := (wf.owner_isSome_iff label).trans (hs ▸ (wf'.owner_isSome_iff label).symm)
      simpa [ho] using hiff
    simp only [translate, ho, hn, Option.bind_none, Option.getD_none]

end Registry

end SwiftRelations
