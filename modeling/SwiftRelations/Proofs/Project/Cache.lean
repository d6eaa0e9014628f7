import Mathlib.Data.Set.Insert
import SwiftRelations.Proofs.Data.List
import SwiftRelations.Proofs.Files.Spelling

/-!
# What a project knows

A project that was asked for some files knows the outputs of those that can be extracted, and
remembers the others that were asked for in batches. What it knows does not change what it answers:
each file has the output it would have in a project of which nothing is known yet.
-/

namespace SwiftRelations.Project

/-- Files that are added to others one after the other. -/
theorem union_cons (files : Set Path) (p : Path) (paths : List Path) :
    files ∪ {q | q ∈ p :: paths} = insert p files ∪ {q | q ∈ paths} := by
  ext q
  simp only [List.mem_cons, Set.mem_union, Set.mem_ofPred_eq, Set.mem_insert_iff]
  tauto

/-- Files that are added to others in two parts. -/
theorem union_append (files : Set Path) (front back : List Path) :
    files ∪ {q | q ∈ front ++ back} = files ∪ {q | q ∈ front} ∪ {q | q ∈ back} := by
  ext q
  simp only [List.mem_append, Set.mem_union, Set.mem_ofPred_eq, or_assoc]

/-- A project with the base and the options of another knows what it was asked for, if `asked` are
the files that were extracted and `listed` those whose failure was to be remembered. -/
structure Knows (disk : Disk) (fresh project : Project) (asked listed : Set Path) : Prop where
  base : project.base = fresh.base
  options : project.options = fresh.options
  plain : ∀ p ∈ asked, p.IsPlain
  cache : ∀ key output, project.cache[key]? = some output ↔
    ∃ p ∈ asked, fresh.key p = key ∧ fresh.output disk p = .ok output
  failed : ∀ key, key ∈ project.failed ↔
    ∃ p ∈ listed, fresh.key p = key ∧ (fresh.output disk p).isOk = false

variable {disk : Disk} {fresh project : Project} {asked listed : Set Path} {p : Path}
  {paths : List Path} {output : Output}

namespace Knows

/-- Nothing is known of a new project. -/
theorem new (disk : Disk) (base : Path) (options : ExtractionOptions) :
    Knows disk { base, options } { base, options } ∅ ∅ where
  base := rfl
  options := rfl
  plain := by simp
  cache := by simp
  failed := by simp

variable (h : Knows disk fresh project asked listed)

include h

/-- What is known changes no key. -/
theorem key_eq (p : Path) : project.key p = fresh.key p := by
  rw [key, key, absolute, absolute, h.base]

/-- What is known changes no output. -/
theorem output_eq (p : Path) : project.output disk p = fresh.output disk p := by
  simp only [output, absolute, h.base, h.options]

/-- A known output is that of the file, also under another path than it was asked for. -/
theorem output_eq_of_known (hp : p.IsPlain) (hk : project.known? p = some output) :
    fresh.output disk p = .ok output := by
  rw [known?, h.key_eq] at hk
  obtain ⟨q, hq, hkey, ho⟩ := (h.cache _ _).mp hk
  rw [← ho]
  exact output_eq_of_key_eq hp (h.plain q hq) hkey.symm

/-- Nothing is learnt of a file that cannot be extracted, or whose output is known. -/
theorem insert_of_known (hp : p.IsPlain)
    (hk : ∀ output, fresh.output disk p = .ok output → project.known? p = some output) :
    Knows disk fresh project (insert p asked) listed where
  base := h.base
  options := h.options
  plain := Set.forall_mem_insert.mpr ⟨hp, h.plain⟩
  cache := by
    intro key output
    rw [Set.exists_mem_insert, h.cache]
    constructor
    · exact .inr
    · rintro (⟨rfl, ho⟩ | hq)
      · exact (h.cache _ _).mp (h.key_eq p ▸ hk output ho)
      · exact hq
  failed := h.failed

/-- A file whose output is known has that output, and nothing is learnt of it. -/
theorem hit (hp : p.IsPlain) (hk : project.known? p = some output) :
    fresh.output disk p = .ok output ∧ Knows disk fresh project (insert p asked) listed := by
  have ho := h.output_eq_of_known hp hk
  refine ⟨ho, h.insert_of_known hp fun output' ho' => ?_⟩
  rw [hk, ← Except.ok.inj (ho.symm.trans ho')]

/-- Nothing is learnt of a file that cannot be extracted. -/
theorem miss {fault : ProjectFault} (hp : p.IsPlain) (ho : fresh.output disk p = .error fault) :
    Knows disk fresh project (insert p asked) listed := by
  apply h.insert_of_known hp
  intro output ho'
  rw [ho] at ho'
  cases ho'

/-- Keeping the output of a file. -/
theorem keep (hp : p.IsPlain) (ho : fresh.output disk p = .ok output) :
    Knows disk fresh (project.keep p output) (insert p asked) listed where
  base := h.base
  options := h.options
  plain := Set.forall_mem_insert.mpr ⟨hp, h.plain⟩
  cache := by
    intro key output'
    rw [Set.exists_mem_insert, Project.keep, Std.HashMap.getElem?_insert, h.key_eq]
    by_cases hk : fresh.key p = key
    · subst hk
      rw [if_pos BEq.rfl]
      constructor
      · intro he
        exact .inl ⟨rfl, Option.some.inj he ▸ ho⟩
      · -- any other path with the key has the same output
        have same : ∀ q, q.IsPlain → fresh.key q = fresh.key p → fresh.output disk q = .ok output' →
            some output = some output' := by
          intro q hq hkey ho'
          rw [output_eq_of_key_eq hq hp hkey, ho] at ho'
          exact congrArg some (Except.ok.inj ho')
        rintro (⟨-, ho'⟩ | ⟨q, hq, hkey, ho'⟩)
        · exact same p hp rfl ho'
        · exact same q (h.plain q hq) hkey ho'
    · rw [if_neg (by simpa using hk), h.cache]
      constructor
      · exact .inr
      · rintro (⟨hkey, -⟩ | hq)
        · exact absurd hkey hk
        · exact hq
  failed := h.failed

/-- A file that can be extracted is not to be remembered. -/
theorem insert_of_isOk (ho : (fresh.output disk p).isOk = true) :
    Knows disk fresh project asked (insert p listed) where
  base := h.base
  options := h.options
  plain := h.plain
  cache := h.cache
  failed := by
    intro key
    rw [Set.exists_mem_insert, h.failed, ho]
    simp

/-- Remembering a file that cannot be extracted. -/
theorem fail (ho : (fresh.output disk p).isOk = false) :
    Knows disk fresh (project.fail p) asked (insert p listed) where
  base := h.base
  options := h.options
  plain := h.plain
  cache := h.cache
  failed := by
    intro key
    rw [Set.exists_mem_insert, Project.fail, Std.HashSet.mem_insert, h.failed, h.key_eq, ho,
      beq_iff_eq]
    simp

/-! ### Batches one by one -/

/-- A file has the result it would have alone, and is known afterwards. -/
theorem extract (hp : p.IsPlain) :
    (project.extract disk p).1 = fresh.output disk p ∧
      Knows disk fresh (project.extract disk p).2 (insert p asked) listed := by
  rw [Project.extract]
  cases hk : project.known? p with
  | some output =>
    obtain ⟨ho, hknows⟩ := h.hit hp hk
    exact ⟨ho.symm, hknows⟩
  | none =>
    rw [h.output_eq]
    cases ho : fresh.output disk p with
    | ok output => exact ⟨rfl, h.keep hp ho⟩
    | error fault => exact ⟨rfl, h.miss hp ho⟩

end Knows

/-- Each file with the result it has alone. -/
def resultsOf (fresh : Project) (disk : Disk) (paths : List Path) : List (Path × Result) :=
  paths.map fun p => (p, fresh.output disk p)

namespace Knows

/-- Files have the results they would have alone, and are known afterwards. -/
theorem extractEach (h : Knows disk fresh project asked listed) (hp : ∀ p ∈ paths, p.IsPlain) :
    (project.extractEach disk paths).1 = fresh.resultsOf disk paths ∧
      Knows disk fresh (project.extractEach disk paths).2 (asked ∪ {p | p ∈ paths}) listed := by
  induction paths generalizing project asked with
  | nil => simpa [Project.extractEach, resultsOf] using h
  | cons p paths ih =>
    obtain ⟨hp, hps⟩ := List.forall_mem_cons.mp hp
    obtain ⟨hr, hk⟩ := h.extract hp
    obtain ⟨hrs, hks⟩ := ih hk hps
    rw [Project.extractEach, union_cons]
    simp only [hr, hrs]
    exact ⟨rfl, hks⟩

/-- The files of a batch that cannot be extracted are remembered. -/
theorem failEach (h : Knows disk fresh project asked listed) (paths : List Path) :
    Knows disk fresh (project.failEach (fresh.resultsOf disk paths)) asked
      (listed ∪ {p | p ∈ paths}) := by
  induction paths generalizing project listed with
  | nil => simpa [Project.failEach, resultsOf] using h
  | cons p paths ih =>
    rw [resultsOf, List.map_cons, Project.failEach, List.foldl_cons, union_cons]
    cases ho : (fresh.output disk p).isOk with
    | true =>
      simp only [ho, if_true]
      exact ih (h.insert_of_isOk ho)
    | false =>
      simp only [ho, Bool.false_eq_true, if_false]
      exact ih (h.fail ho)

/-- A batch has the outputs of its files that can be extracted, and its files are known
afterwards. -/
theorem extractAll (h : Knows disk fresh project asked listed) (hp : ∀ p ∈ paths, p.IsPlain) :
    (project.extractAll disk paths).1 = listing (fresh.resultsOf disk paths) ∧
      Knows disk fresh (project.extractAll disk paths).2 (asked ∪ {p | p ∈ paths})
        (listed ∪ {p | p ∈ paths}) := by
  obtain ⟨hr, hk⟩ := h.extractEach hp
  rw [Project.extractAll]
  simp only [hr, true_and]
  exact hk.failEach paths

end Knows

/-! ### Listings -/

/-- A listing is sorted by path. -/
theorem pairwise_listing (results : List (Path × Result)) :
    (listing results).Pairwise (·.path ≤ ·.path) := by
  have ht : ∀ a b c : Output, decide (a.path ≤ b.path) = true → decide (b.path ≤ c.path) = true →
      decide (a.path ≤ c.path) = true := by
    intro a b c hab hbc
    exact decide_eq_true (String.le_trans (of_decide_eq_true hab) (of_decide_eq_true hbc))
  have hl : ∀ a b : Output, (decide (a.path ≤ b.path) || decide (b.path ≤ a.path)) = true := by
    intro a b
    rw [Bool.or_eq_true, decide_eq_true_iff, decide_eq_true_iff]
    exact String.le_total _ _
  rw [listing]
  exact (List.pairwise_mergeSort ht hl _).imp of_decide_eq_true

/-- A listing has the outputs of the files that can be extracted, each as often as it is listed. -/
theorem listing_perm (fresh : Project) (disk : Disk) (paths : List Path) :
    (listing (fresh.resultsOf disk paths)).Perm
      (paths.filterMap fun p => (fresh.output disk p).toOption) := by
  rw [listing, resultsOf, List.filterMap_map]
  exact List.mergeSort_perm _ _

/-! ### Counts -/

/-- The keys of the files that can be extracted, or of those that cannot. -/
def keysWhere (fresh : Project) (disk : Disk) (ok : Bool) (paths : List Path) : List Path.Key :=
  (paths.filter fun p => (fresh.output disk p).isOk == ok).map fresh.key

/-- A key is among those of some files if one of them has it. -/
theorem mem_keysWhere {ok : Bool} {key : Path.Key} : key ∈ fresh.keysWhere disk ok paths ↔
    ∃ p ∈ paths, fresh.key p = key ∧ (fresh.output disk p).isOk = ok := by
  simp only [keysWhere, List.mem_map, List.mem_filter, beq_iff_eq]
  constructor
  · rintro ⟨p, ⟨hp, ho⟩, hk⟩
    exact ⟨p, hp, hk, ho⟩
  · rintro ⟨p, hp, hk, ho⟩
    exact ⟨p, ⟨hp, ho⟩, hk⟩

namespace Knows

/-- The outputs that are kept are as many as the keys of the files that can be extracted. -/
theorem cachedCount_eq (h : Knows disk fresh project {p | p ∈ paths} listed) :
    project.cachedCount = (fresh.keysWhere disk true paths).dedup.length := by
  rw [cachedCount, ← Std.HashMap.length_keys]
  apply List.length_eq_length_dedup Std.HashMap.nodup_keys
  intro key
  rw [Std.HashMap.mem_keys, Std.HashMap.mem_iff_isSome_getElem?, Option.isSome_iff_exists,
    mem_keysWhere]
  constructor
  · rintro ⟨output, hk⟩
    obtain ⟨p, hp, hkey, ho⟩ := (h.cache _ _).mp hk
    exact ⟨p, hp, hkey, by rw [ho]; rfl⟩
  · rintro ⟨p, hp, hkey, ho⟩
    cases hr : fresh.output disk p with
    | ok output => exact ⟨output, (h.cache _ _).mpr ⟨p, hp, hkey, hr⟩⟩
    | error fault =>
      rw [hr] at ho
      cases ho

/-- The files that are remembered are as many as the keys of those that cannot be extracted. -/
theorem failedCount_eq (h : Knows disk fresh project asked {p | p ∈ paths}) :
    project.failedCount = (fresh.keysWhere disk false paths).dedup.length := by
  rw [failedCount, ← Std.HashSet.length_toList]
  apply List.length_eq_length_dedup
  · exact Std.HashSet.distinct_toList.imp fun hne => by simpa using hne
  · intro key
    rw [Std.HashSet.mem_toList, h.failed, mem_keysWhere]
    rfl

end Knows

end SwiftRelations.Project
