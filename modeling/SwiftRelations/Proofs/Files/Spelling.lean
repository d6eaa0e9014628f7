import SwiftRelations.Project.Basic

/-!
# Spellings of a path

Paths without idle parts that have the same key below a base are one path, or a relative path and
the absolute path that it stands for. Idle parts of the base, which only the former goes through,
lead nowhere: both paths lead to the same file, and are shown as the same text.
-/

namespace SwiftRelations

namespace Path

variable {base p q : Path} {outer inner : List String}

/-- Whether a path has parts, none of which is empty or a dot. -/
def IsPlain (p : Path) : Prop := p.parts ≠ [] ∧ ∀ part ∈ p.parts, isIdle part = false

/-- Whether a path is plain can be computed. -/
instance (p : Path) : Decidable p.IsPlain :=
  inferInstanceAs (Decidable (p.parts ≠ [] ∧ ∀ part ∈ p.parts, isIdle part = false))

/-- The components among some parts. -/
def componentsOf (parts : List String) : List String := parts.filter (!isIdle ·)

/-- Parts that are not idle are components. -/
theorem componentsOf_eq_self {parts : List String} (h : ∀ part ∈ parts, isIdle part = false) :
    componentsOf parts = parts := by
  rw [componentsOf, List.filter_eq_self]
  intro part hm
  rw [h part hm]
  rfl

/-- The components of a base are not idle. -/
theorem isIdle_of_mem_components {part : String} (h : part ∈ base.components) :
    isIdle part = false := by
  simpa using (List.mem_filter.mp h).2

/-- What is joined to a base comes behind parts that lead where the base does. -/
theorem exists_parts_join (base : Path) (h : p.isAbsolute = false) :
    ∃ outer, base.join p = { base with parts := outer ++ p.parts } ∧
      componentsOf outer = base.components := by
  rw [join, h]
  refine ⟨_, rfl, ?_⟩
  split
  · -- the empty part that a slash at the end makes is idle
    rename_i hl
    obtain ⟨front, hf⟩ := List.getLast?_eq_some_iff.mp hl
    have hi : isIdle "" = true := rfl
    rw [components, hf, List.dropLast_concat, componentsOf, List.filter_append]
    simp [hi]
  · rfl

/-- An absolute path is not joined to anything. -/
theorem join_of_isAbsolute (base : Path) (h : p.isAbsolute = true) : base.join p = p := by
  rw [join, if_pos h]

/-- A path with a component is not empty. -/
theorem isEmpty_eq_false (h : ∃ part ∈ p.parts, isIdle part = false) : p.isEmpty = false := by
  obtain ⟨part, hm, hi⟩ := h
  have hne : part ≠ "" := by
    rintro rfl
    exact absurd hi (by decide)
  have ha : p.parts.all (· = "") = false := by
    rw [List.all_eq_false]
    exact ⟨part, hm, by simpa using hne⟩
  rw [isEmpty, ha, Bool.and_false, Bool.false_and]

/-! ### Texts -/

/-- Components are found at the start of parts that have them, and what is left has no more than
idle parts before what follows. -/
theorem exists_dropComponents_eq (outer inner : List String) :
    ∃ idle, (∀ part ∈ idle, isIdle part = true) ∧
      dropComponents (componentsOf outer) (outer ++ inner) = some (idle ++ inner) := by
  induction outer with
  | nil => exact ⟨[], by simp, by rw [componentsOf, List.filter_nil, dropComponents]⟩
  | cons part outer ih =>
    obtain ⟨idle, hidle, hd⟩ := ih
    cases hi : isIdle part with
    | false =>
      have hc : componentsOf (part :: outer) = part :: componentsOf outer :=
        List.filter_cons_of_pos (by simp [hi])
      refine ⟨idle, hidle, ?_⟩
      rw [hc, List.cons_append, dropComponents, if_neg (by simp [hi]), if_pos rfl, hd]
    | true =>
      have hc : componentsOf (part :: outer) = componentsOf outer :=
        List.filter_cons_of_neg (by simp [hi])
      rw [hc, List.cons_append]
      cases he : componentsOf outer with
      | nil =>
        rw [he, dropComponents] at hd
        -- nothing is looked for any more, so this part stays too
        have hs : outer ++ inner = idle ++ inner := Option.some.inj hd
        refine ⟨part :: idle, List.forall_mem_cons.mpr ⟨hi, hidle⟩, ?_⟩
        rw [dropComponents, hs, List.cons_append]
      | cons component components =>
        refine ⟨idle, hidle, ?_⟩
        rw [dropComponents, if_pos hi, ← he, hd]

/-- Idle parts before parts that are not idle are trimmed. -/
theorem trimmed_append {idle : List String} (hidle : ∀ part ∈ idle, isIdle part = true)
    (hi : inner ≠ []) (h : ∀ part ∈ inner, isIdle part = false) :
    trimmed (idle ++ inner) = inner := by
  have stays : ∀ {parts : List String}, parts ≠ [] → (∀ part ∈ parts, isIdle part = false) →
      parts.dropWhile isIdle = parts := by
    intro parts hne hp
    cases parts with
    | nil => exact absurd rfl hne
    | cons part parts => exact List.dropWhile_cons_of_neg (by simp [hp part List.mem_cons_self])
  have hr : inner.reverse.dropWhile isIdle = inner.reverse :=
    stays (by simpa using hi) (by simpa using h)
  rw [trimmed, List.dropWhile_append_of_pos hidle, stays hi h, hr, List.reverse_reverse]

/-- A path is shown as what follows the base, whatever idle parts stand in what it shares with the
base. -/
theorem relativeText_eq (hp : p.parts = outer ++ inner)
    (ho : componentsOf outer = base.components) (hne : inner ≠ [])
    (hi : ∀ part ∈ inner, isIdle part = false) (ha : p.isAbsolute = base.isAbsolute)
    (hd : p.isDotted = base.isDotted) : p.relativeText base = "/".intercalate inner := by
  obtain ⟨idle, hidle, hdrop⟩ := exists_dropComponents_eq outer inner
  rw [relativeText, if_pos ⟨ha, hd⟩, ← ho, hp, hdrop]
  simp only [trimmed_append hidle hne hi]

end Path

/-! ### Files -/

namespace Disk

variable {disk : Disk} {p q : Path} {outer outer' inner : List String}

/-- An idle part before another leads nowhere. -/
theorem step_of_isIdle {place : List String} {idle : String} (h : Path.isIdle idle = true)
    (part : String) : (disk.step place idle >>= (disk.step · part)) = disk.step place part := by
  cases hg : disk.get? place with
  | none => simp [step, hg, bind, Except.bind]
  | some entry =>
    cases entry with
    | file content => simp [step, hg, bind, Except.bind]
    | directory entries =>
      have hs : disk.step place idle = .ok place := by simp [step, hg, h]
      rw [hs]
      rfl

/-- Idle parts before others lead nowhere. -/
theorem foldlM_step_append (disk : Disk) (place outer : List String) (h : inner ≠ []) :
    (outer ++ inner).foldlM disk.step place =
      (Path.componentsOf outer ++ inner).foldlM disk.step place := by
  induction outer generalizing place with
  | nil => rfl
  | cons part outer ih =>
    rw [List.cons_append, List.foldlM_cons]
    cases hi : Path.isIdle part with
    | false =>
      have hc : Path.componentsOf (part :: outer) = part :: Path.componentsOf outer :=
        List.filter_cons_of_pos (by simp [hi])
      rw [hc, List.cons_append, List.foldlM_cons]
      exact congrArg (disk.step place part >>= ·) (funext fun place => ih place)
    | true =>
      have hc : Path.componentsOf (part :: outer) = Path.componentsOf outer :=
        List.filter_cons_of_neg (by simp [hi])
      rw [hc, ← ih]
      cases hr : outer ++ inner with
      | nil => exact absurd (List.append_eq_nil_iff.mp hr).2 h
      | cons next rest => rw [List.foldlM_cons, ← step_of_isIdle hi next, bind_assoc]; rfl

/-- Paths that differ in idle parts before the last part lead to the same place. -/
theorem locate_eq (ha : p.isAbsolute = q.isAbsolute) (hp : p.parts = outer ++ inner)
    (hq : q.parts = outer' ++ inner) (ho : Path.componentsOf outer = Path.componentsOf outer')
    (hne : inner ≠ []) (hi : ∀ part ∈ inner, Path.isIdle part = false) :
    disk.locate p = disk.locate q := by
  obtain ⟨part, hm⟩ := List.exists_mem_of_ne_nil inner hne
  have ep : p.isEmpty = false :=
    Path.isEmpty_eq_false ⟨part, hp ▸ List.mem_append_right _ hm, hi part hm⟩
  have eq : q.isEmpty = false :=
    Path.isEmpty_eq_false ⟨part, hq ▸ List.mem_append_right _ hm, hi part hm⟩
  have hs : disk.start p = disk.start q := by rw [start, start, ha]
  rw [locate, locate, if_neg (by simp [ep]), if_neg (by simp [eq]), hs, hp, hq,
    foldlM_step_append disk _ outer hne, foldlM_step_append disk _ outer' hne, ho]

/-- What is read depends only on the place that a path leads to. -/
theorem read_eq (h : disk.locate p = disk.locate q) : disk.read p = disk.read q := by
  simp only [read, file, entry, h]

end Disk

/-! ### Outputs -/

namespace Project

variable {project : Project} {disk : Disk} {p q : Path}

/-- A file has the same output under paths that lead to the same place and are shown alike. -/
theorem output_congr (hr : disk.read (project.absolute p) = disk.read (project.absolute q))
    (ht : (project.absolute p).relativeText project.base =
      (project.absolute q).relativeText project.base) :
    project.output disk p = project.output disk q := by
  simp only [output, hr, ht]

/-- A relative path and the absolute path that it stands for have the same output. -/
theorem output_eq_of_isAbsolute (hp : p.IsPlain) (hq : q.IsPlain) (rel : p.isAbsolute = false)
    (abs : q.isAbsolute = true) (h : project.key p = project.key q) :
    project.output disk p = project.output disk q := by
  obtain ⟨outer, hj, ho⟩ := Path.exists_parts_join project.base rel
  have hj' : project.absolute q = q := Path.join_of_isAbsolute _ abs
  have hb : project.base.isAbsolute = true := by
    have ha := congrArg Path.Key.isAbsolute h
    rw [key, key, hj', absolute, hj] at ha
    exact ha.trans abs
  have hparts : (project.absolute p).parts = outer ++ p.parts := by rw [absolute, hj]
  have hparts' : (project.absolute q).parts = project.base.components ++ p.parts := by
    have hc : Path.componentsOf (outer ++ p.parts) = Path.componentsOf q.parts := by
      have hc := congrArg Path.Key.components h
      rw [key, key, hj', absolute, hj] at hc
      exact hc
    rw [hj', ← Path.componentsOf_eq_self hq.2, ← hc, Path.componentsOf, List.filter_append,
      ← Path.componentsOf, ← Path.componentsOf, ho, Path.componentsOf_eq_self hp.2]
  have hbase : Path.componentsOf project.base.components = project.base.components :=
    Path.componentsOf_eq_self fun _ hm => Path.isIdle_of_mem_components hm
  have habs : (project.absolute p).isAbsolute = true := by rw [absolute, hj, hb]
  have habs' : (project.absolute q).isAbsolute = true := by rw [hj', abs]
  have hdotted : ∀ {r : Path}, r.isAbsolute = true → r.isDotted = false := by
    intro r hr
    rw [Path.isDotted, hr, Bool.not_true, Bool.false_and]
  apply output_congr
  · apply Disk.read_eq
    exact Disk.locate_eq (habs.trans habs'.symm) hparts hparts' (ho.trans hbase.symm) hp.1 hp.2
  · rw [Path.relativeText_eq hparts ho hp.1 hp.2 (habs.trans hb.symm)
        ((hdotted habs).trans (hdotted hb).symm),
      Path.relativeText_eq hparts' hbase hp.1 hp.2 (habs'.trans hb.symm)
        ((hdotted habs').trans (hdotted hb).symm)]

/-- Paths without idle parts that have the same key have the same output. -/
theorem output_eq_of_key_eq (hp : p.IsPlain) (hq : q.IsPlain)
    (h : project.key p = project.key q) : project.output disk p = project.output disk q := by
  have hc : Path.componentsOf (project.absolute p).parts =
      Path.componentsOf (project.absolute q).parts := congrArg Path.Key.components h
  have same : p.isAbsolute = q.isAbsolute → p.parts = q.parts → p = q := by
    intro ha hparts
    cases p
    cases q
    rw [Path.mk.injEq]
    exact ⟨ha, hparts⟩
  cases ha : p.isAbsolute with
  | true =>
    cases ha' : q.isAbsolute with
    | true =>
      rw [absolute, absolute, Path.join_of_isAbsolute _ ha, Path.join_of_isAbsolute _ ha',
        Path.componentsOf_eq_self hp.2, Path.componentsOf_eq_self hq.2] at hc
      rw [same (ha.trans ha'.symm) hc]
    | false => exact (output_eq_of_isAbsolute hq hp ha' ha h.symm).symm
  | false =>
    cases ha' : q.isAbsolute with
    | true => exact output_eq_of_isAbsolute hp hq ha ha' h
    | false =>
      obtain ⟨outer, hj, ho⟩ := Path.exists_parts_join project.base ha
      obtain ⟨outer', hj', ho'⟩ := Path.exists_parts_join project.base ha'
      rw [absolute, absolute, hj, hj'] at hc
      simp only [Path.componentsOf, List.filter_append] at hc
      rw [← Path.componentsOf, ← Path.componentsOf, ← Path.componentsOf, ← Path.componentsOf, ho,
        ho', Path.componentsOf_eq_self hp.2, Path.componentsOf_eq_self hq.2] at hc
      rw [same (ha.trans ha'.symm) (List.append_cancel_left hc)]

end Project

end SwiftRelations
