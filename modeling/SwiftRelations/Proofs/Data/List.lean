import Mathlib.Data.List.Dedup
import Mathlib.Data.List.DropRight
import Mathlib.Data.List.Forall2
import Mathlib.Data.List.Nodup
import Mathlib.Data.List.Perm.Basic
import SwiftRelations.Data.List

/-!
# Lists in parts and in step

More general facts about lists: how they are made of their members of each key, where they end, and
what two lists have in common whose members are related one by one. The same is said of optional
values.
-/

namespace List

variable {α κ : Type}

/-! ### Parts of lists -/

/-- A list is made of its members of each key. -/
theorem perm_flatMap_filter [BEq κ] [LawfulBEq κ] {s : α → κ} {keys : List κ} (nodup : keys.Nodup)
    {l : List α} (covered : ∀ a ∈ l, s a ∈ keys) :
    l.Perm (keys.flatMap fun k => l.filter (s · == k)) := by
  induction keys generalizing l with
  | nil =>
    cases l with
    | nil => exact .refl []
    | cons a l => cases covered a mem_cons_self
  | cons k keys ih =>
    obtain ⟨hk, hn⟩ := nodup_cons.mp nodup
    have hr : ∀ a ∈ l.filter (!s · == k), s a ∈ keys := by
      intro a ha
      obtain ⟨ha, hne⟩ := mem_filter.mp ha
      exact (mem_cons.mp (covered a ha)).resolve_left (by simpa using hne)
    have hf : (keys.flatMap fun other => (l.filter (!s · == k)).filter (s · == other)) =
        keys.flatMap fun other => l.filter (s · == other) := by
      simp only [filter_filter]
      apply flatMap_congr
      intro other ho
      apply filter_congr
      intro a _
      have hne : other ≠ k := fun he => hk (he ▸ ho)
      rw [Bool.and_eq_left_iff_imp]
      intro he
      simp [eq_of_beq he, hne]
    rw [flatMap_cons, ← hf]
    exact (filter_append_perm (s · == k) l).symm.trans ((ih hn hr).append_left _)

/-- A list without repetitions is as long as another one without its repetitions, if they have the
same members. -/
theorem length_eq_length_dedup [DecidableEq α] {l m : List α} (hn : l.Nodup)
    (h : ∀ a, a ∈ l ↔ a ∈ m) : l.length = m.dedup.length := by
  apply Perm.length_eq
  rw [perm_ext_iff_of_nodup hn m.nodup_dedup]
  intro a
  rw [h, mem_dedup]

/-- Of two lists the second is what passes a test at the end, if all of it passes and the last
member of the first does not. -/
theorem rtakeWhile_append {p : α → Bool} {a b : List α} (ha : ∀ x ∈ a.getLast?, p x = false)
    (hb : ∀ x ∈ b, p x = true) : (a ++ b).rdropWhile p = a ∧ (a ++ b).rtakeWhile p = b := by
  induction b using reverseRecOn with
  | nil =>
    rw [append_nil, rdropWhile_eq_self_iff, rtakeWhile_eq_nil_iff]
    have hl : ∀ hne : a ≠ [], ¬p (a.getLast hne) = true := by
      intro hne
      rw [ha _ (getLast?_eq_some_getLast hne)]
      exact Bool.false_ne_true
    exact ⟨hl, hl⟩
  | append_singleton b x ih =>
    have hx : p x = true := hb x (by simp)
    obtain ⟨hd, ht⟩ := ih fun y hy => hb y (mem_append_left _ hy)
    rw [← append_assoc, rdropWhile_concat_pos p _ x hx, rtakeWhile_concat_pos p _ x hx, hd, ht]
    exact ⟨rfl, rfl⟩

end List

/-! ### Lists in step -/

namespace List.Forall₂

variable {α γ σ : Type} {r : α → α → Prop} {p : α → Bool} {as bs : List α}

/-- Two lists in step are searched in step. -/
theorem find? (h : Forall₂ r as bs) (hp : ∀ a b, r a b → p a = p b) :
    Option.Rel r (as.find? p) (bs.find? p) := by
  induction h with
  | nil => exact .none
  | @cons a b as bs hab _ ih =>
    rw [find?_cons, find?_cons, hp a b hab]
    cases p b
    · exact ih
    · exact .some hab

/-- What passes a test is in step. -/
theorem filter (h : Forall₂ r as bs) (hp : ∀ a b, r a b → p a = p b) :
    Forall₂ r (as.filter p) (bs.filter p) :=
  rel_filter (fun a b hab => Bool.eq_iff_iff.mp (hp a b hab)) h

/-- What passes a test at the beginning is in step. -/
theorem takeWhile (h : Forall₂ r as bs) (hp : ∀ a b, r a b → p a = p b) :
    Forall₂ r (as.takeWhile p) (bs.takeWhile p) := by
  induction h with
  | nil => exact .nil
  | @cons a b as bs hab _ ih =>
    rw [takeWhile_cons, takeWhile_cons, hp a b hab]
    split
    · exact .cons hab ih
    · exact .nil

/-- What follows those that pass a test at the beginning is in step. -/
theorem dropWhile (h : Forall₂ r as bs) (hp : ∀ a b, r a b → p a = p b) :
    Forall₂ r (as.dropWhile p) (bs.dropWhile p) := by
  induction h with
  | nil => exact .nil
  | @cons a b as bs hab hs ih =>
    rw [dropWhile_cons, dropWhile_cons, hp a b hab]
    split
    · exact ih
    · exact .cons hab hs

/-- One of two lists in step has a member that passes a test if the other has. -/
theorem any (h : Forall₂ r as bs) (hp : ∀ a b, r a b → p a = p b) : as.any p = bs.any p := by
  induction h with
  | nil => rfl
  | @cons a b as bs hab _ ih => rw [any_cons, any_cons, hp a b hab, ih]

/-- One of two lists in step is empty if the other is. -/
theorem isEmpty (h : Forall₂ r as bs) : as.isEmpty = bs.isEmpty := by
  cases h <;> rfl

/-- The first members of two lists in step are related. -/
theorem head? (h : Forall₂ r as bs) : Option.Rel r as.head? bs.head? := by
  cases h with
  | nil => exact .none
  | cons hab _ => exact .some hab

/-- The last members of two lists in step are related. -/
theorem getLast? (h : Forall₂ r as bs) : Option.Rel r as.getLast? bs.getLast? := by
  rw [getLast?_eq_head?_reverse, getLast?_eq_head?_reverse]
  exact head? (rel_reverse h)

/-- The members at one place of two lists in step are related. -/
theorem getElem? (h : Forall₂ r as bs) (i : Nat) : Option.Rel r as[i]? bs[i]? := by
  rw [← head?_drop, ← head?_drop]
  exact head? (forall₂_drop i h)

/-- Two lists in step are so without their last members. -/
theorem dropLast (h : Forall₂ r as bs) : Forall₂ r as.dropLast bs.dropLast := by
  rw [dropLast_eq_take, dropLast_eq_take, h.length_eq]
  exact forall₂_take _ h

/-- The same is made of two lists in step if it is of related members. -/
theorem map_eq {f : α → γ} (h : Forall₂ r as bs) (hf : ∀ a b, r a b → f a = f b) :
    as.map f = bs.map f := by
  induction h with
  | nil => rfl
  | @cons a b as bs hab _ ih => rw [map_cons, map_cons, hf a b hab, ih]

/-- The same is found in two lists in step if it is at related members. -/
theorem findSome?_eq {f : α → Option γ} (h : Forall₂ r as bs)
    (hf : ∀ a b, r a b → f a = f b) : as.findSome? f = bs.findSome? f := by
  induction h with
  | nil => rfl
  | @cons a b as bs hab _ ih => rw [findSome?_cons, findSome?_cons, hf a b hab, ih]

/-- The same is done for the members of two lists in step. -/
theorem mapM_eq {m : Type → Type} [Monad m] [LawfulMonad m] {f g : α → m γ}
    (h : Forall₂ r as bs) (hfg : ∀ a b, r a b → f a = g b) : as.mapM f = bs.mapM g := by
  induction h with
  | nil => rfl
  | @cons a b as bs hab _ ih => rw [mapM_cons, mapM_cons, hfg a b hab, ih]

/-- Going through two lists in step does the same. -/
theorem foldlM_eq {m : Type → Type} [Monad m] {f g : σ → α → m σ}
    (h : Forall₂ r as bs) (hfg : ∀ s a b, r a b → f s a = g s b) (init : σ) :
    as.foldlM f init = bs.foldlM g init := by
  induction h generalizing init with
  | nil => rfl
  | @cons a b as bs hab _ ih =>
    rw [foldlM_cons, foldlM_cons, hfg init a b hab]
    exact bind_congr ih

end List.Forall₂

/-! ### Optional values in step -/

namespace Option.Rel

variable {α β γ δ : Type} {r : α → β → Prop} {a c : Option α} {b d : Option β}

/-- Values in step, or what stands in for them, are in step. -/
theorem orElse (h : Rel r a b) (h' : Rel r c d) :
    Rel r (a.orElse fun _ => c) (b.orElse fun _ => d) := by
  cases h with
  | none => exact h'
  | some hab => exact .some hab

/-- Values in step, or related ones in their stead, are related. -/
theorem getD {x : α} {y : β} (h : Rel r a b) (hxy : r x y) : r (a.getD x) (b.getD y) := by
  cases h with
  | none => exact hxy
  | some hab => exact hab

/-- What values in step lead to is in step if it is for related values. -/
theorem bind {r' : γ → δ → Prop} {f : α → Option γ} {g : β → Option δ} (h : Rel r a b)
    (hfg : ∀ x y, r x y → Rel r' (f x) (g y)) : Rel r' (a.bind f) (b.bind g) := by
  cases h with
  | none => exact .none
  | some hab => exact hfg _ _ hab

/-- What is made of values in step is in step if related values are made of related ones. -/
theorem map {r' : γ → δ → Prop} {f : α → γ} {g : β → δ} (h : Rel r a b)
    (hfg : ∀ x y, r x y → r' (f x) (g y)) : Rel r' (a.map f) (b.map g) := by
  cases h with
  | none => exact .none
  | some hab => exact .some (hfg _ _ hab)

/-- The same is made of values in step if it is of related ones. -/
theorem map_eq {f : α → γ} {g : β → γ} (h : Rel r a b) (hfg : ∀ x y, r x y → f x = g y) :
    a.map f = b.map g := by
  cases h with
  | none => rfl
  | some hab => rw [Option.map_some, Option.map_some, hfg _ _ hab]

/-- The same is done for values in step if it is for related ones. -/
theorem mapM_eq {m : Type → Type} [Monad m] {f : α → m γ} {g : β → m γ} (h : Rel r a b)
    (hfg : ∀ x y, r x y → f x = g y) : a.mapM f = b.mapM g := by
  cases h with
  | none => rfl
  | some hab => simp [hfg _ _ hab]

end Option.Rel
