import SwiftRelations.Project.Batch
import SwiftRelations.Proofs.Project.Cache

/-!
# Files extracted side by side

Whatever order the files of a batch take their steps in, each has the result it would have alone:
what another file keeps meanwhile is the output that this one would have. A file is done after three
steps of its own, so each schedule that is followed by three rounds ends the batch.
-/

namespace SwiftRelations

open Project

variable {disk : Disk} {fresh project : Project} {asked listed : Set Path} {p : Path}
  {paths : List Path}

namespace Progress

/-- What a file has come to so far is what it comes to alone. -/
def Agrees (result : Result) : Progress → Prop
  | .waiting => True
  | .missed => True
  | .extracted output => result = .ok output
  | .done r => r = result

/-- The number of steps that a file has left at most. -/
def left : Progress → Nat
  | .waiting => 3
  | .missed => 2
  | .extracted _ => 1
  | .done _ => 0

/-- A step leaves fewer steps. -/
theorem left_next (disk : Disk) (project : Project) (p : Path) (progress : Progress) :
    (progress.next disk project p).1.left ≤ progress.left - 1 := by
  cases progress with
  | waiting => cases h : project.known? p <;> simp [next, h, left]
  | missed => cases h : project.output disk p <;> simp [next, h, left]
  | extracted output => simp [next, left]
  | done result => simp [next, left]

/-- A file with no steps left is done. -/
theorem eq_done_of_left_eq_zero {progress : Progress} (h : progress.left = 0) :
    ∃ result, progress = .done result := by
  cases progress with
  | done result => exact ⟨result, rfl⟩
  | _ => cases h

/-- A step of a file agrees with what it comes to alone, and the project knows no more than the
file, which it knows if the file is done. -/
theorem Agrees.next {progress : Progress} (agrees : progress.Agrees (fresh.output disk p))
    (h : Knows disk fresh project asked listed) (hp : p.IsPlain)
    (hdone : progress.left = 0 → p ∈ asked) :
    (progress.next disk project p).1.Agrees (fresh.output disk p) ∧
      ∃ known, asked ⊆ known ∧ known ⊆ insert p asked ∧
        ((progress.next disk project p).1.left = 0 → p ∈ known) ∧
        Knows disk fresh (progress.next disk project p).2 known listed := by
  have stays : asked ⊆ insert p asked := Set.subset_insert p asked
  cases progress with
  | waiting =>
    rw [Progress.next]
    cases hk : project.known? p with
    | some output =>
      obtain ⟨ho, hknows⟩ := h.hit hp hk
      exact ⟨ho.symm, insert p asked, stays, subset_rfl, fun _ => Set.mem_insert p asked, hknows⟩
    | none => exact ⟨trivial, asked, subset_rfl, stays, nofun, h⟩
  | missed =>
    rw [Progress.next, h.output_eq]
    cases ho : fresh.output disk p with
    | ok output => exact ⟨rfl, asked, subset_rfl, stays, nofun, h⟩
    | error fault =>
      exact ⟨rfl, insert p asked, stays, subset_rfl, fun _ => Set.mem_insert p asked,
        h.miss hp ho⟩
  | extracted output =>
    exact ⟨agrees.symm, insert p asked, stays, subset_rfl, fun _ => Set.mem_insert p asked,
      h.keep hp agrees⟩
  | done result => exact ⟨agrees, asked, subset_rfl, stays, fun _ => hdone rfl, h⟩

end Progress

namespace Batch

variable {batch : Batch}

/-! ### Invariant -/

/-- The files of a batch agree with what they come to alone, and its project knows those that are
done, and no file that is not of the batch. -/
structure Agrees (disk : Disk) (fresh : Project) (asked listed : Set Path) (paths : List Path)
    (batch : Batch) : Prop where
  files : batch.files.map Prod.fst = paths
  progress : ∀ file ∈ batch.files, file.2.Agrees (fresh.output disk file.1)
  known : ∃ known, asked ⊆ known ∧ known ⊆ asked ∪ {p | p ∈ paths} ∧
    (∀ file ∈ batch.files, file.2.left = 0 → file.1 ∈ known) ∧
    Knows disk fresh batch.project known listed

/-- The step of a file leaves the other files as they are. -/
theorem files_step (disk : Disk) (batch : Batch) (i : Nat) :
    (batch.step disk i).files = match batch.files[i]? with
      | none => batch.files
      | some (p, progress) =>
        batch.files.set i (p, (progress.next disk batch.project p).1) := by
  rw [step]
  cases batch.files[i]? <;> rfl

/-- A batch agrees before its first step. -/
theorem Agrees.start (h : Knows disk fresh project asked listed) (paths : List Path) :
    Agrees disk fresh asked listed paths (start project paths) where
  files := by simp [Batch.start, Function.comp_def]
  progress := by
    intro file hf
    obtain ⟨p, -, rfl⟩ := List.mem_map.mp hf
    trivial
  known := by
    refine ⟨asked, subset_rfl, Set.subset_union_left, ?_, h⟩
    intro file hf hleft
    obtain ⟨p, -, rfl⟩ := List.mem_map.mp hf
    cases hleft

/-- A batch agrees after the step of any of its files. -/
theorem Agrees.step (h : Agrees disk fresh asked listed paths batch)
    (hp : ∀ p ∈ paths, p.IsPlain) (i : Nat) :
    Agrees disk fresh asked listed paths (batch.step disk i) := by
  cases hi : batch.files[i]? with
  | none =>
    have hs : batch.step disk i = batch := by rw [Batch.step, hi]
    rw [hs]
    exact h
  | some file =>
    obtain ⟨p, progress⟩ := file
    have hm : (p, progress) ∈ batch.files := List.mem_of_getElem? hi
    have hpaths : p ∈ paths := h.files ▸ List.mem_map_of_mem hm
    obtain ⟨known, hsub, hsup, hdone, hk⟩ := h.known
    obtain ⟨hagrees, known', hsub', hsup', hdone', hk'⟩ :=
      (h.progress _ hm).next hk (hp p hpaths) (hdone _ hm)
    have hfiles : (batch.step disk i).files =
        batch.files.set i (p, (progress.next disk batch.project p).1) := by rw [files_step, hi]
    have hproject : (batch.step disk i).project = (progress.next disk batch.project p).2 := by
      rw [Batch.step, hi]
    refine ⟨?_, ?_, known', hsub.trans hsub', ?_, ?_, hproject ▸ hk'⟩
    · rw [hfiles, List.map_set, h.files]
      apply List.ext_getElem?
      intro j
      rw [List.getElem?_set]
      split
      · -- the file has the path it had
        rename_i hij
        subst hij
        have hpi : paths[i]? = some p := by rw [← h.files, List.getElem?_map, hi]; rfl
        rw [hpi, if_pos (List.getElem?_eq_some_iff.mp hpi).1]
      · rfl
    · intro file hf
      rcases List.mem_or_eq_of_mem_set (hfiles ▸ hf) with hf | rfl
      · exact h.progress file hf
      · exact hagrees
    · intro q hq
      rcases hsup' hq with rfl | hq
      · exact .inr hpaths
      · exact hsup hq
    · intro file hf hleft
      rcases List.mem_or_eq_of_mem_set (hfiles ▸ hf) with hf | rfl
      · exact hsub' (hdone file hf hleft)
      · exact hdone' hleft

/-- A batch agrees after any steps of its files. -/
theorem Agrees.run (h : Agrees disk fresh asked listed paths batch) (hp : ∀ p ∈ paths, p.IsPlain)
    (schedule : List Nat) : Agrees disk fresh asked listed paths (batch.run disk schedule) := by
  induction schedule generalizing batch with
  | nil => exact h
  | cons i schedule ih => exact ih (h.step hp i)

/-! ### End -/

/-- A file has as many steps less as it took. -/
theorem left_run (disk : Disk) (schedule : List Nat) {i : Nat} {file : Path × Progress}
    (h : (batch.run disk schedule).files[i]? = some file) :
    ∃ before, batch.files[i]? = some before ∧ file.2.left ≤ before.2.left - schedule.count i := by
  induction schedule generalizing batch with
  | nil => exact ⟨file, h, Nat.le_refl _⟩
  | cons j schedule ih =>
    obtain ⟨between, hb, hleft⟩ := ih h
    rw [files_step] at hb
    cases hj : batch.files[j]? with
    | none =>
      rw [hj] at hb
      have hne : j ≠ i := by
        rintro rfl
        rw [hj] at hb
        cases hb
      refine ⟨between, hb, ?_⟩
      rwa [List.count_cons_of_ne hne]
    | some other =>
      obtain ⟨p, progress⟩ := other
      rw [hj] at hb
      simp only [List.getElem?_set] at hb
      by_cases hij : j = i
      · subst hij
        rw [if_pos rfl, if_pos (List.getElem?_eq_some_iff.mp hj).1, Option.some.injEq] at hb
        subst hb
        have hn := progress.left_next disk batch.project p
        refine ⟨_, hj, ?_⟩
        rw [List.count_cons_self]
        simp only at hleft ⊢
        omega
      · rw [if_neg hij] at hb
        refine ⟨between, hb, ?_⟩
        rwa [List.count_cons_of_ne hij]

/-- Rounds give each file three steps. -/
theorem count_rounds {count i : Nat} (h : i < count) : (rounds count).count i = 3 := by
  simp [rounds, List.count_range, h]

/-- A batch that is followed by rounds has come to what its files come to alone, and its project
knows all of them. -/
theorem run_rounds (h : Knows disk fresh project asked listed) (hp : ∀ p ∈ paths, p.IsPlain)
    (schedule : List Nat) :
    let batch := (start project paths).run disk (schedule ++ rounds paths.length)
    batch.results = fresh.resultsOf disk paths ∧
      Knows disk fresh batch.project (asked ∪ {p | p ∈ paths}) listed := by
  intro batch
  have hagrees : Agrees disk fresh asked listed paths batch := (Agrees.start h paths).run hp _
  -- each file had three steps, and has taken three
  have hleft : ∀ file ∈ batch.files, file.2.left = 0 := by
    intro file hf
    obtain ⟨i, hi⟩ := List.mem_iff_getElem?.mp hf
    obtain ⟨before, hb, hl⟩ := left_run disk _ hi
    rw [Batch.start, List.getElem?_map, Option.map_eq_some_iff] at hb
    obtain ⟨p, hpi, rfl⟩ := hb
    have hc := count_rounds (List.getElem?_eq_some_iff.mp hpi).1
    rw [List.count_append, hc] at hl
    have h3 : Progress.waiting.left = 3 := rfl
    simp only [h3] at hl
    omega
  obtain ⟨known, hsub, hsup, hdone, hk⟩ := hagrees.known
  constructor
  · rw [results, resultsOf, ← hagrees.files, List.map_map, ← List.filterMap_eq_map]
    apply List.filterMap_congr
    intro file hf
    obtain ⟨result, hr⟩ := Progress.eq_done_of_left_eq_zero (hleft file hf)
    have ha := hagrees.progress file hf
    rw [hr] at ha
    simp only [hr, Progress.result?, Option.map_some, Function.comp_apply]
    rw [← ha]
  · have hall : known = asked ∪ {p | p ∈ paths} := by
      apply hsup.antisymm
      rintro q (hq | hq)
      · exact hsub hq
      · rw [Set.mem_ofPred_eq, ← hagrees.files] at hq
        obtain ⟨file, hf, rfl⟩ := List.mem_map.mp hq
        exact hdone file hf (hleft file hf)
    exact hall ▸ hk

end Batch

namespace Project.Knows

/-- A batch whose files are extracted side by side has the outputs of one whose files are extracted
one by one, and its files are known afterwards. -/
theorem extractParallel (h : Knows disk fresh project asked listed)
    (hp : ∀ p ∈ paths, p.IsPlain) (schedule : List Nat) :
    (project.extractParallel disk schedule paths).1 = listing (fresh.resultsOf disk paths) ∧
      Knows disk fresh (project.extractParallel disk schedule paths).2
        (asked ∪ {p | p ∈ paths}) (listed ∪ {p | p ∈ paths}) := by
  obtain ⟨hr, hk⟩ := Batch.run_rounds h hp schedule
  rw [Project.extractParallel]
  simp only [hr, true_and]
  exact hk.failEach paths

end Project.Knows

end SwiftRelations
