import SwiftRelations.Proofs.Facts.Registry
import Mathlib.Data.List.Perm.Subperm

/-!
# Requests to a registry

A registry is asked for labels of nodes, for the nodes of labels, and for the number of its labels.
After any requests it is no more than the list of the nodes that labels were fetched for, in the
order of their first fetch: the label of a node is its place in that list, counted from one. No
fetch meets a collision on the way.
-/

namespace SwiftRelations.Registry

/-- A request to a registry. -/
inductive Request where
  | fetch (key : NodeKey)
  | lookup (key : NodeKey)
  | owner (label : Label)
  | size
  | isEmpty
  deriving Repr, Inhabited

/-- The answer to a request. -/
inductive Answer where
  | label (label : Label)
  /-- The label of the node looked up, if it has one. -/
  | found (label : Option Label)
  | owner (key : Option NodeKey)
  | size (count : Nat)
  | isEmpty (empty : Bool)
  deriving DecidableEq, Repr, Inhabited

/-- The answer to a request, and the registry after it. -/
def answer (r : Registry) : Request → Except Collision (Answer × Registry)
  | .fetch key => do
    let (label, r) ← r.fetch key
    return (.label label, r)
  | .lookup key => .ok (.found (r.lookup key), r)
  | .owner label => .ok (.owner (r.owner label), r)
  | .size => .ok (.size r.size, r)
  | .isEmpty => .ok (.isEmpty r.labels.isEmpty, r)

/-- The answers to some requests, one after the other, and the registry after them. -/
def answerAll (r : Registry) : List Request → Except Collision (List Answer × Registry)
  | [] => .ok ([], r)
  | request :: requests => do
    let (answer, r) ← r.answer request
    let (answers, r) ← r.answerAll requests
    return (answer :: answers, r)

/-- The node a request fetches a label for. -/
def Request.fetched? : Request → Option NodeKey
  | .fetch key => some key
  | _ => none

/-- The nodes that labels are fetched for, in the order of their first fetch. -/
def fetchOrder (requests : List Request) : List NodeKey :=
  (requests.filterMap Request.fetched?).eraseDups

/-- The answer of a registry that has given labels to the nodes of a list, in their order. -/
def Request.answerOf (order : List NodeKey) : Request → Answer
  | .fetch key => .label ⟨order.idxOf key + 1⟩
  | .lookup key => .found (if key ∈ order then some ⟨order.idxOf key + 1⟩ else none)
  | .owner ⟨number⟩ => .owner (if number = 0 then none else order[number - 1]?)
  | .size => .size order.length
  | .isEmpty => .isEmpty order.isEmpty

/-! ### The order of the labels -/

/-- Whether a registry has given labels to the nodes of a list and to no others, in their order. -/
structure Orders (r : Registry) (order : List NodeKey) : Prop where
  wf : r.WF
  nodup : order.Nodup
  size : r.size = order.length
  owner : ∀ i, r.owner ⟨i + 1⟩ = order[i]?

namespace Orders

variable {r : Registry} {order : List NodeKey} {key : NodeKey}

/-- An empty registry has given no labels. -/
theorem empty : ({} : Registry).Orders [] where
  wf := wf_empty
  nodup := List.nodup_nil
  size := by simp [Registry.size]
  owner := by simp [Registry.owner]

/-- The node of a label is the one at its place. -/
theorem owner_eq (h : r.Orders order) (number : Nat) :
    r.owner ⟨number⟩ = if number = 0 then none else order[number - 1]? := by
  cases number with
  | zero =>
    have hd := h.wf.dense ⟨0⟩
    simpa using hd
  | succ i => rw [if_neg (Nat.succ_ne_zero i), h.owner, Nat.succ_sub_one]

/-- The label of a node is its place. -/
theorem lookup_eq (h : r.Orders order) (key : NodeKey) :
    r.lookup key = if key ∈ order then some ⟨order.idxOf key + 1⟩ else none := by
  split
  case isTrue hk =>
    rw [h.wf.inverse, h.owner, List.getElem?_idxOf hk]
  case isFalse hk =>
    rw [Option.eq_none_iff_forall_ne_some]
    rintro ⟨number⟩ hl
    rw [h.wf.inverse, h.owner_eq] at hl
    split at hl
    · cases hl
    · exact hk (List.mem_of_getElem? hl)

/-- A node without a label is given a place after the others. -/
theorem add (h : r.Orders order) (hk : key ∉ order) : (r.add key).Orders (order ++ [key]) := by
  have hnone : r.lookup key = none := by rw [h.lookup_eq, if_neg hk]
  have wf := h.wf.add hnone
  have hnext : r.next = order.length + 1 := by rw [h.wf.counted, h.size]
  refine ⟨wf, ?_, ?_, fun i => ?_⟩
  · rw [List.nodup_append]
    refine ⟨h.nodup, by simp, fun other ho last hl => ?_⟩
    rintro rfl
    exact hk (List.mem_singleton.mp hl ▸ ho)
  · have hc := wf.counted
    rw [List.length_append, List.length_singleton]
    simp only [Registry.add] at hc ⊢
    omega
  · rw [owner_add, hnext, h.owner, List.getElem?_append]
    rcases Nat.lt_trichotomy i order.length with hi | rfl | hi
    · simp [hi, Nat.ne_of_gt hi]
    · simp
    · have hlast : ¬ i < order.length := by omega
      have hne : ¬ order.length = i := by omega
      have hpos : i - order.length ≠ 0 := by omega
      simp [hlast, hne, hpos]

/-- A registry without a label is empty. -/
theorem isEmpty (h : r.Orders order) : r.labels.isEmpty = order.isEmpty := by
  rw [Std.HashMap.isEmpty_eq_size_eq_zero]
  have hs := h.size
  rw [Registry.size] at hs
  cases order <;> simp [hs]

end Orders

/-! ### Answers -/

variable {r : Registry} {keys : List NodeKey} {request : Request}

/-- A node that is fetched again has its place already, and one that is not is the last. -/
theorem eraseDups_append_singleton (keys : List NodeKey) (key : NodeKey) :
    (keys ++ [key]).eraseDups =
      if key ∈ keys.eraseDups then keys.eraseDups else keys.eraseDups ++ [key] := by
  rw [List.eraseDups_append]
  by_cases hk : key ∈ keys <;> simp [List.removeAll, List.eraseDups_cons, hk]

/-- A request is answered from the order of the labels that it leaves. -/
theorem answer_of_orders (h : r.Orders keys.eraseDups) (request : Request) :
    ∃ r', r.answer request =
        .ok (request.answerOf (keys ++ request.fetched?.toList).eraseDups, r') ∧
      r'.Orders (keys ++ request.fetched?.toList).eraseDups ∧
      (∀ key label, r.lookup key = some label → r'.lookup key = some label) ∧
      (request.fetched? = none → r' = r) := by
  cases request with
  | fetch key =>
    rw [Request.fetched?, Option.toList_some, eraseDups_append_singleton]
    by_cases hk : key ∈ keys.eraseDups
    · have hl : r.lookup key = some ⟨keys.eraseDups.idxOf key + 1⟩ := by
        rw [h.lookup_eq, if_pos hk]
      refine ⟨r, ?_, by rwa [if_pos hk], fun _ _ => id, by simp⟩
      rw [if_pos hk, answer, fetch_of_lookup hl]
      rfl
    · have hl : r.lookup key = none := by rw [h.lookup_eq, if_neg hk]
      have hf := h.wf.fetch_of_lookup_none hl
      refine ⟨r.add key, ?_, by rw [if_neg hk]; exact h.add hk,
        fun _ _ => lookup_of_fetch hf, by simp⟩
      have hnext : r.next = keys.eraseDups.length + 1 := by rw [h.wf.counted, h.size]
      rw [if_neg hk, answer, hf, Request.answerOf, List.idxOf_append_of_notMem hk, hnext]
      simp [bind, Except.bind, pure, Except.pure]
  | lookup key =>
    simp only [Request.fetched?, Option.toList_none, List.append_nil]
    exact ⟨r, by rw [answer, h.lookup_eq, Request.answerOf], h, fun _ _ => id, fun _ => rfl⟩
  | owner label =>
    simp only [Request.fetched?, Option.toList_none, List.append_nil]
    exact ⟨r, by rw [answer, h.owner_eq, Request.answerOf], h, fun _ _ => id, fun _ => rfl⟩
  | size =>
    simp only [Request.fetched?, Option.toList_none, List.append_nil]
    exact ⟨r, by rw [answer, h.size, Request.answerOf], h, fun _ _ => id, fun _ => rfl⟩
  | isEmpty =>
    simp only [Request.fetched?, Option.toList_none, List.append_nil]
    exact ⟨r, by rw [answer, h.isEmpty, Request.answerOf], h, fun _ _ => id, fun _ => rfl⟩

/-- Requests one after the other are answered one after the other. -/
theorem answerAll_append {before after : List Request} {answers more : List Answer}
    {r₁ r₂ : Registry} (hb : r.answerAll before = .ok (answers, r₁))
    (ha : r₁.answerAll after = .ok (more, r₂)) :
    r.answerAll (before ++ after) = .ok (answers ++ more, r₂) := by
  induction before generalizing r answers with
  | nil =>
    cases hb
    exact ha
  | cons request before ih =>
    simp only [answerAll, bind, Except.bind, pure, Except.pure] at hb
    split at hb
    · cases hb
    case h_2 first hfirst =>
      split at hb
      · cases hb
      case h_2 others hothers =>
        cases hb
        simp [answerAll, hfirst, ih hothers, bind, Except.bind, pure, Except.pure]

/-- Requests are answered from the order of the labels, which they only append to. -/
theorem answerAll_of_orders (keys : List NodeKey) (h : r.Orders keys.eraseDups)
    (requests : List Request) :
    ∃ answers r', r.answerAll requests = .ok (answers, r') ∧
      r'.Orders (keys ++ requests.filterMap Request.fetched?).eraseDups ∧
      (∀ key label, r.lookup key = some label → r'.lookup key = some label) ∧
      ((∀ request ∈ requests, request.fetched? = none) → r' = r) ∧
      ∀ before request after, requests = before ++ request :: after →
        answers[before.length]? = some (request.answerOf
          (keys ++ (before ++ [request]).filterMap Request.fetched?).eraseDups) := by
  induction requests generalizing r keys with
  | nil =>
    refine ⟨[], r, rfl, by simpa using h, fun _ _ => id, fun _ => rfl, ?_⟩
    intro before request after he
    simp at he
  | cons first requests ih =>
    obtain ⟨r₁, ha, h₁, kept₁, same₁⟩ := answer_of_orders h first
    obtain ⟨answers, r₂, has, h₂, kept₂, same₂, each⟩ := ih _ h₁
    have hcons : ∀ others : List Request, keys ++ (first :: others).filterMap Request.fetched? =
        keys ++ first.fetched?.toList ++ others.filterMap Request.fetched? := by
      intro others
      cases hf : first.fetched? <;> simp [hf]
    refine ⟨first.answerOf (keys ++ first.fetched?.toList).eraseDups :: answers, r₂, ?_,
      by rwa [hcons], fun key label hl => kept₂ _ _ (kept₁ _ _ hl), fun hnone => ?_, ?_⟩
    · simp only [answerAll, ha, has, bind, Except.bind, pure, Except.pure]
    · obtain ⟨hfirst, hothers⟩ := List.forall_mem_cons.mp hnone
      rw [same₂ hothers, same₁ hfirst]
    · intro before request after he
      cases before with
      | nil =>
        obtain ⟨rfl, rfl⟩ := List.cons.inj he
        rw [List.nil_append, hcons]
        simp
      | cons _ before =>
        obtain ⟨rfl, rfl⟩ := List.cons.inj he
        rw [List.cons_append, hcons]
        exact each before request after rfl

/-! ### The number of labels -/

/-- There are no more nodes than categories and places for them. -/
theorem length_le_of_index_lt {order : List NodeKey} {places : Nat} (hn : order.Nodup)
    (hi : ∀ key ∈ order, key.index < places) : order.length ≤ 8 * places := by
  have hsub : order ⊆ Category.all.flatMap fun category =>
      (List.range places).map (NodeKey.mk category) := by
    intro key hk
    refine List.mem_flatMap.mpr ⟨key.category, by cases key.category <;> decide, ?_⟩
    exact List.mem_map.mpr ⟨key.index, List.mem_range.mpr (hi key hk), rfl⟩
  have hle := (hn.subperm hsub).length_le
  simp only [Category.all, List.flatMap_cons, List.flatMap_nil, List.length_append, List.length_map,
    List.length_range, List.length_nil] at hle
  omega

/-- Whatever is asked of a fresh registry, no fetch meets a collision, and all is answered from the
order in which the nodes were first fetched. The nodes and the labels are inverse to each other, the
labels are those from one to their number, in that order, and the next one follows. A node keeps its
label, and only a fetch changes the registry. If places of nodes have 32 bits, 64 bits are enough
for the number of the next label. -/
theorem answerAll_inverse (requests : List Request) :
    ∃ answers r, ({} : Registry).answerAll requests = .ok (answers, r) ∧
      (∀ before request after, requests = before ++ request :: after →
        answers[before.length]? = some (request.answerOf (fetchOrder (before ++ [request])))) ∧
      (∀ key label, r.lookup key = some label ↔ r.owner label = some key) ∧
      (∀ label, (r.owner label).isSome ↔ 1 ≤ label.number ∧ label.number ≤ r.size) ∧
      (∀ i, r.owner ⟨i + 1⟩ = (fetchOrder requests)[i]?) ∧
      r.next = r.size + 1 ∧
      (∀ before after, requests = before ++ after →
        ∃ answers₀ r₀, ({} : Registry).answerAll before = .ok (answers₀, r₀) ∧
          (∀ key label, r₀.lookup key = some label → r.lookup key = some label) ∧
          ((∀ request ∈ after, request.fetched? = none) → r = r₀)) ∧
      ((∀ key ∈ fetchOrder requests, key.index < UInt32.size) → r.next < UInt64.size) := by
  obtain ⟨answers, r, hr, h, -, -, each⟩ := answerAll_of_orders [] Orders.empty requests
  refine ⟨answers, r, hr, each, h.wf.inverse, h.wf.owner_isSome_iff, h.owner, h.wf.counted, ?_, ?_⟩
  · rintro before after rfl
    obtain ⟨answers₀, r₀, hr₀, h₀, -⟩ := answerAll_of_orders [] Orders.empty before
    obtain ⟨more, r₁, hr₁, -, kept, same, -⟩ := answerAll_of_orders _ h₀ after
    cases hr.symm.trans (answerAll_append hr₀ hr₁)
    exact ⟨answers₀, r₀, hr₀, kept, same⟩
  · intro hi
    have hle := length_le_of_index_lt h.nodup hi
    rw [h.wf.counted, h.size]
    simp only [UInt32.size, UInt64.size] at hle ⊢
    omega

/-- Of two nodes that are asked for and fetched again and again, the one fetched first has the first
label, and both have small numbers. -/
theorem answerAll_inverse_twoKeys :
    let requests : List Request := [.lookup ⟨.typeRepr, 0⟩, .fetch ⟨.expr, 7⟩,
      .fetch ⟨.typeRepr, 0⟩, .owner ⟨2⟩, .fetch ⟨.expr, 7⟩, .size]
    (∀ key ∈ fetchOrder requests, key.index < UInt32.size) ∧
      ∃ answers r, ({} : Registry).answerAll requests = .ok (answers, r) ∧ r.next < UInt64.size := by
  have hi : ∀ key ∈ fetchOrder [.lookup ⟨.typeRepr, 0⟩, .fetch ⟨.expr, 7⟩, .fetch ⟨.typeRepr, 0⟩,
      .owner ⟨2⟩, .fetch ⟨.expr, 7⟩, .size], key.index < UInt32.size := by
    decide
  obtain ⟨answers, r, hr, -, -, -, -, -, -, hnext⟩ := answerAll_inverse _
  exact ⟨hi, answers, r, hr, hnext hi⟩

end SwiftRelations.Registry
