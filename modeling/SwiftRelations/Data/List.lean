/-!
# Lists

General facts about lists, for which the library has no lemma: counting, numbering, reading each
member, and putting together with separators. They say nothing of the program.
-/

namespace List

variable {α β γ : Type}

/-! ### Counting and numbering -/

/-- A stricter test that rejects a member which the laxer one accepts counts fewer. -/
theorem countP_lt_countP {p q : α → Bool} {l : List α} (weaker : ∀ x ∈ l, p x = true → q x = true)
    {a : α} (mem : a ∈ l) (hp : p a = false) (hq : q a = true) : l.countP p < l.countP q := by
  induction l with
  | nil => simp at mem
  | cons b l ih =>
    have le : l.countP p ≤ l.countP q :=
      countP_mono_left fun x hx => weaker x (mem_cons_of_mem _ hx)
    rcases mem_cons.1 mem with rfl | mem
    · simp only [countP_cons, hp, hq]
      simp
      omega
    · have := ih (fun x hx => weaker x (mem_cons_of_mem _ hx)) mem
      have hb := weaker b mem_cons_self
      simp only [countP_cons]
      by_cases h : p b = true
      · simp [h, hb h]
        omega
      · simp [h]
        omega

/-- Numbers given in order are different. -/
theorem pairwise_snd_lt_zipIdx (l : List α) (k : Nat) :
    (l.zipIdx k).Pairwise fun a b => a.2 < b.2 := by
  have h : ((l.zipIdx k).map Prod.snd).Pairwise (· < ·) := by
    rw [zipIdx_map_snd]
    exact pairwise_lt_range'
  exact pairwise_map.mp h

/-- What is made of each numbered member without its number is made of the members. -/
theorem map_zipIdx_eq_map (l : List α) (k : Nat) {g : α × Nat → β} {h : α → β}
    (hg : ∀ a i, (a, i) ∈ l.zipIdx k → g (a, i) = h a) : (l.zipIdx k).map g = l.map h := by
  have he : l.map h = ((l.zipIdx k).map Prod.fst).map h := by rw [zipIdx_map_fst]
  rw [he, map_map]
  apply map_congr_left
  rintro ⟨a, i⟩ hm
  exact hg a i hm

/-- The members of one key are related if they are in the list of all members of that key. -/
theorem pairwise_of_pairwise_filter {κ : Type} [BEq κ] [LawfulBEq κ] {r : α → α → Prop} {s : α → κ}
    {l : List α} (h : ∀ a ∈ l, (l.filter (s · == s a)).Pairwise r) :
    l.Pairwise fun a b => s a = s b → r a b := by
  induction l with
  | nil => exact Pairwise.nil
  | cons a l ih =>
    refine pairwise_cons.mpr ⟨?_, ih ?_⟩
    · intro b hb he
      have ha := h a mem_cons_self
      rw [filter_cons_of_pos (by simp), pairwise_cons] at ha
      exact ha.1 b (mem_filter.mpr ⟨hb, by simp [he]⟩)
    · intro b hb
      exact (h b (mem_cons_of_mem a hb)).sublist ((sublist_cons_self a l).filter _)

/-! ### Reading each member -/

section

variable {f g : α → Option β} {as : List α} {bs : List β}

/-- Members that are read alike are read alike as a whole. -/
theorem mapM_congr (h : ∀ a ∈ as, f a = g a) : as.mapM f = as.mapM g := by
  induction as with
  | nil => rfl
  | cons a as ih =>
    obtain ⟨ha, has⟩ := forall_mem_cons.mp h
    rw [mapM_cons, mapM_cons, ha, ih has]

/-- A list is read if each of its members is. -/
theorem mapM_eq_some_iff : as.mapM f = some bs ↔ as.map f = bs.map some := by
  induction as generalizing bs with
  | nil => cases bs <;> simp
  | cons a as ih =>
    rw [mapM_cons]
    cases bs with
    | nil => cases f a <;> cases as.mapM f <;> simp
    | cons b bs =>
      rw [map_cons, map_cons, cons.injEq, ← ih]
      cases f a <;> cases as.mapM f <;> simp

/-- What is made of the members and of what they are read as is the same for the lists if it is for
each member. -/
theorem map_eq_of_mapM_eq_some {p : α → γ} {q : β → γ}
    (hpq : ∀ a ∈ as, ∀ b, f a = some b → p a = q b) (h : as.mapM f = some bs) :
    as.map p = bs.map q := by
  rw [mapM_eq_some_iff] at h
  induction as generalizing bs with
  | nil => cases bs <;> simp_all
  | cons a as ih =>
    obtain ⟨ha, has⟩ := forall_mem_cons.mp hpq
    cases bs with
    | nil => cases h
    | cons b bs =>
      obtain ⟨hb, hbs⟩ := cons.inj h
      rw [map_cons, map_cons, ha b hb, ih has hbs]

/-- Each member of a list that is read is read. -/
theorem exists_of_map_eq_map_some (h : as.map f = bs.map some) : ∀ a ∈ as, ∃ b, f a = some b := by
  intro a ha
  have hmem := mem_map_of_mem (f := f) ha
  rw [h] at hmem
  obtain ⟨b, -, hb⟩ := mem_map.mp hmem
  exact ⟨b, hb.symm⟩

/-- What is written for each member is read as a whole if it is read for each. -/
theorem mapM_map_eq_some {write : γ → α} {h : γ → β} {l : List γ}
    (hf : ∀ c ∈ l, f (write c) = some (h c)) : (l.map write).mapM f = some (l.map h) := by
  rw [mapM_eq_some_iff, map_map, map_map]
  exact map_congr_left hf

end

/-! ### Places and separators -/

/-- From the place of a member on a list begins with it. -/
theorem drop_eq_cons_of_getElem? {l : List α} {i : Nat} {a : α} (h : l[i]? = some a) :
    l.drop i = a :: l.drop (i + 1) := by
  obtain ⟨hlt, rfl⟩ := getElem?_eq_some_iff.mp h
  exact drop_eq_getElem_cons hlt

/-- Text between separators is put together from two parts. -/
theorem intercalate_append {sep : List α} {a b : List (List α)} (ha : a ≠ []) (hb : b ≠ []) :
    sep.intercalate (a ++ b) = sep.intercalate a ++ sep ++ sep.intercalate b := by
  induction a with
  | nil => exact absurd rfl ha
  | cons x a ih =>
    cases a with
    | nil => rw [singleton_append, intercalate_cons_of_ne_nil hb, intercalate_singleton]
    | cons y a =>
      rw [cons_append, intercalate_cons_of_ne_nil (by simp), ih (by simp),
        intercalate_cons_cons]
      simp only [append_assoc]

end List

/-- Each text but the first follows a separator. -/
theorem String.toList_intercalate_cons (sep first : String) (rest : List String) :
    (sep.intercalate (first :: rest)).toList =
      first.toList ++ rest.flatMap fun s => sep.toList ++ s.toList := by
  induction rest generalizing first with
  | nil => simp
  | cons second rest ih => simp [intercalate_cons_cons, ih]

/-- The members of an array stay in their places when another is added. -/
theorem Array.getElem?_push_of_eq_some {α : Type} {xs : Array α} {i : Nat} {a b : α}
    (h : xs[i]? = some a) : (xs.push b)[i]? = some a := by
  obtain ⟨hi, -⟩ := getElem?_eq_some_iff.mp h
  rw [getElem?_push, if_neg (Nat.ne_of_lt hi), h]
