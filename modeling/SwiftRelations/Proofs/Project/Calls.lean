import SwiftRelations.Proofs.Extraction.Success
import SwiftRelations.Proofs.Project.Interleaving

/-!
# Calls on one project

A project that is called many times, for single files and for batches whose files are extracted one
by one or side by side, gives each call the answer of a new project that is called once. At the end
it keeps the outputs of the files that can be extracted, and remembers those of batches that cannot.
-/

namespace SwiftRelations

/-- A call on a project. -/
inductive Project.Call where
  | file (p : Path)
  | files (paths : List Path)
  /-- A batch whose files are extracted side by side, with the places of those whose steps come
  first. -/
  | parallel (schedule : List Nat) (paths : List Path)
  deriving Inhabited

/-- The answer to a call on a project. -/
inductive Project.Answer where
  | file (result : Result)
  | files (outputs : List Output)
  deriving Inhabited

namespace Project

namespace Call

/-- The files that a call asks for. -/
def paths : Call → List Path
  | .file p => [p]
  | .files paths => paths
  | .parallel _ paths => paths

/-- The files whose failure a call has remembered. -/
def listed : Call → List Path
  | .file _ => []
  | .files paths => paths
  | .parallel _ paths => paths

/-- The call with its files extracted one by one. -/
def sequential : Call → Call
  | .file p => .file p
  | .files paths => .files paths
  | .parallel _ paths => .files paths

end Call

/-- The answer to a call, and the project after it. -/
def answer (project : Project) (disk : Disk) : Call → Answer × Project
  | .file p => (project.extract disk p).map .file id
  | .files paths => (project.extractAll disk paths).map .files id
  | .parallel schedule paths => (project.extractParallel disk schedule paths).map .files id

/-- The answers to calls one after the other, and the project after them. -/
def answerAll (project : Project) (disk : Disk) : List Call → List Answer × Project
  | [] => ([], project)
  | call :: calls =>
    let (answer, project) := project.answer disk call
    let (answers, project) := project.answerAll disk calls
    (answer :: answers, project)

/-- Whether a file can be read and extracted: it may be read, there is a tree for what it holds, and
the tree can be lowered. -/
def CanExtract (project : Project) (disk : Disk) (p : Path) : Prop :=
  ∃ content file lowered, disk.read (project.absolute p) = .ok content ∧
    content.parse? = some file ∧ file.tree.lower file.hasErrors = .ok lowered

/-- Whether an answer is the one that a new project gives to a call alone, and one to a batch is
sorted by path and has the outputs of the files that can be extracted, each as often as it is
listed. -/
structure Answer.Fits (fresh : Project) (disk : Disk) (call : Call) (answer : Answer) : Prop where
  alone : answer = (fresh.answer disk call.sequential).1
  sorted : ∀ outputs, answer = .files outputs → outputs.Pairwise (·.path ≤ ·.path)
  exact : ∀ outputs, answer = .files outputs →
    outputs.Perm (call.paths.filterMap fun p => (fresh.output disk p).toOption)

variable {disk : Disk} {fresh project : Project} {asked listed : Set Path} {p : Path}
  {paths : List Path}

/-- The output of a file that is read is that of its tree. -/
theorem output_of_read {content : FileContent}
    (hr : disk.read (project.absolute p) = .ok content) :
    project.output disk p =
      let shown := (project.absolute p).relativeText project.base
      match content.parse? with
      | none => .error (.unparsed shown)
      | some file => (file.extract shown project.options).mapError .unextractable := by
  simp only [output, hr, Except.mapError, bind, Except.bind]
  cases content.parse? <;> rfl

/-- A file that is not read has no output. -/
theorem output_of_unread {fault : FileFault}
    (hr : disk.read (project.absolute p) = .error fault) :
    project.output disk p = .error (.unreadable fault) := by
  simp only [output, hr, Except.mapError, bind, Except.bind]

/-- A tree has an output if it can be lowered. -/
theorem isOk_extract_iff (file : ParsedFile) (path : String) (options : ExtractionOptions) :
    (file.extract path options).isOk = true ↔
      ∃ lowered, file.tree.lower file.hasErrors = .ok lowered := by
  have he := file.extract_eq path options
  split at he
  · rename_i fault hl
    rw [he, hl]
    constructor <;> nofun
  · rename_i lowered hl
    obtain ⟨output, ho, -⟩ := he
    rw [ho, hl]
    exact ⟨fun _ => ⟨lowered, rfl⟩, fun _ => rfl⟩

/-- A file has an output if it can be extracted. -/
theorem isOk_output_iff (project : Project) (disk : Disk) (p : Path) :
    (project.output disk p).isOk = true ↔ project.CanExtract disk p := by
  rw [CanExtract]
  cases hr : disk.read (project.absolute p) with
  | error fault =>
    rw [output_of_unread hr]
    constructor
    · nofun
    · rintro ⟨_, _, _, ⟨⟩, -⟩
  | ok content =>
    rw [output_of_read hr]
    cases hp : content.parse? with
    | none =>
      constructor
      · nofun
      · rintro ⟨content', _, _, hc, hp', -⟩
        rw [← Except.ok.inj hc, hp] at hp'
        cases hp'
    | some file =>
      have hm : ∀ {result : Except ExtractionError Output},
          (result.mapError ProjectFault.unextractable).isOk = result.isOk := by
        rintro (_ | _) <;> rfl
      simp only [hm, isOk_extract_iff]
      constructor
      · rintro ⟨lowered, hl⟩
        exact ⟨content, file, lowered, rfl, hp, hl⟩
      · rintro ⟨content', file', lowered, hc, hp', hl⟩
        rw [← Except.ok.inj hc, hp] at hp'
        exact ⟨lowered, Option.some.inj hp' ▸ hl⟩

/-- The answer to a call as the outputs of its files make it up. -/
def answerOf (fresh : Project) (disk : Disk) : Call → Answer
  | .file p => .file (fresh.output disk p)
  | .files paths => .files (listing (fresh.resultsOf disk paths))
  | .parallel _ paths => .files (listing (fresh.resultsOf disk paths))

/-- A call is answered by the outputs of its files, which are known afterwards. -/
theorem Knows.answer (h : Knows disk fresh project asked listed) (call : Call)
    (hp : ∀ p ∈ call.paths, p.IsPlain) :
    (project.answer disk call).1 = fresh.answerOf disk call ∧
      Knows disk fresh (project.answer disk call).2 (asked ∪ {p | p ∈ call.paths})
        (listed ∪ {p | p ∈ call.listed}) := by
  cases call with
  | file p =>
    obtain ⟨hr, hk⟩ := h.extract (hp p List.mem_cons_self)
    have ha : asked ∪ {q | q ∈ [p]} = insert p asked := by
      ext q
      simp [or_comm]
    refine ⟨congrArg Answer.file hr, ?_⟩
    simpa [Project.answer, Call.paths, Call.listed, ha] using hk
  | files paths =>
    obtain ⟨ho, hk⟩ := h.extractAll hp
    exact ⟨congrArg Answer.files ho, hk⟩
  | parallel schedule paths =>
    obtain ⟨ho, hk⟩ := h.extractParallel hp schedule
    exact ⟨congrArg Answer.files ho, hk⟩

/-- Calls are answered by the outputs of their files, which are known afterwards. -/
theorem Knows.answerAll (h : Knows disk fresh project asked listed) {calls : List Call}
    (hp : ∀ call ∈ calls, ∀ p ∈ call.paths, p.IsPlain) :
    (project.answerAll disk calls).1 = calls.map (fresh.answerOf disk) ∧
      Knows disk fresh (project.answerAll disk calls).2
        (asked ∪ {p | p ∈ calls.flatMap Call.paths})
        (listed ∪ {p | p ∈ calls.flatMap Call.listed}) := by
  induction calls generalizing project asked listed with
  | nil => simpa [Project.answerAll] using h
  | cons call calls ih =>
    obtain ⟨hcall, hcalls⟩ := List.forall_mem_cons.mp hp
    obtain ⟨ha, hk⟩ := h.answer call hcall
    obtain ⟨has, hks⟩ := ih hk hcalls
    rw [Project.answerAll, List.flatMap_cons, List.flatMap_cons, union_append, union_append]
    simp only [ha, has, List.map_cons, true_and]
    exact hks

/-- The answer to a batch is the listing of its files. -/
theorem eq_listing_of_answerOf {call : Call} {outputs : List Output}
    (h : fresh.answerOf disk call = .files outputs) :
    outputs = listing (fresh.resultsOf disk call.paths) := by
  cases call with
  | file p => cases h
  | files paths => exact (Answer.files.inj h).symm
  | parallel schedule paths => exact (Answer.files.inj h).symm

/-- The outputs of the files of a call make up an answer that fits. -/
theorem Answer.fits_answerOf (base : Path) (options : ExtractionOptions) (disk : Disk)
    {call : Call} (hp : ∀ p ∈ call.paths, p.IsPlain) :
    Answer.Fits { base, options } disk call (answerOf { base, options } disk call) where
  alone := by
    have hs : call.sequential.paths = call.paths := by cases call <;> rfl
    have he := ((Knows.new disk base options).answer call.sequential (hs ▸ hp)).1
    rw [he]
    cases call <;> rfl
  sorted := by
    intro outputs h
    rw [eq_listing_of_answerOf h]
    exact pairwise_listing _
  exact := by
    intro outputs h
    rw [eq_listing_of_answerOf h]
    exact listing_perm _ disk call.paths

/-! ### Pieces of a batch -/

/-- The pieces of a list make up the list. -/
theorem flatten_chunks {α : Type} (size : Nat) (l : List α) : (chunks size l).flatten = l := by
  induction l using chunks.induct size with
  | case1 => rw [chunks, List.flatten_nil]
  | case2 a l ih =>
    rw [chunks, List.flatten_cons, ih, List.cons_append, List.take_append_drop]

/-- The files of pieces that are extracted before are known. -/
theorem Knows.foldl {extract : Project → List Path → List Output × Project}
    (he : ∀ {project : Project} {asked listed : Set Path} {paths : List Path},
      Knows disk fresh project asked listed → (∀ p ∈ paths, p.IsPlain) →
        Knows disk fresh (extract project paths).2 (asked ∪ {p | p ∈ paths})
          (listed ∪ {p | p ∈ paths}))
    (h : Knows disk fresh project asked listed) {pieces : List (List Path)}
    (hp : ∀ p ∈ pieces.flatten, p.IsPlain) :
    Knows disk fresh (pieces.foldl (fun project piece => (extract project piece).2) project)
      (asked ∪ {p | p ∈ pieces.flatten}) (listed ∪ {p | p ∈ pieces.flatten}) := by
  induction pieces generalizing project asked listed with
  | nil => simpa using h
  | cons piece pieces ih =>
    rw [List.flatten_cons] at hp
    rw [List.foldl_cons, List.flatten_cons, union_append, union_append]
    apply ih
    · exact he h fun p hm => hp p (List.mem_append_left _ hm)
    · exact fun p hm => hp p (List.mem_append_right _ hm)

/-- The files of a project have the outputs of one batch, whether they are extracted side by side or
one by one, and in pieces before or not, and are known afterwards. -/
theorem Knows.extractListed (h : Knows disk fresh project asked listed)
    (hp : ∀ p ∈ paths, p.IsPlain) (schedule : List Path → List Nat)
    (parallel showProgress : Bool) :
    (project.extractListed disk schedule parallel showProgress paths).1 =
        listing (fresh.resultsOf disk paths) ∧
      Knows disk fresh (project.extractListed disk schedule parallel showProgress paths).2
        (asked ∪ {p | p ∈ paths}) (listed ∪ {p | p ∈ paths}) := by
  rw [Project.extractListed]
  have he : ∀ {project : Project} {asked listed : Set Path} {paths : List Path},
      Knows disk fresh project asked listed → (∀ p ∈ paths, p.IsPlain) →
        let result := if parallel then project.extractParallel disk (schedule paths) paths
          else project.extractAll disk paths
        result.1 = listing (fresh.resultsOf disk paths) ∧
          Knows disk fresh result.2 (asked ∪ {p | p ∈ paths}) (listed ∪ {p | p ∈ paths}) := by
    intro project asked listed paths h hp
    cases parallel with
    | true => exact h.extractParallel hp (schedule paths)
    | false => exact h.extractAll hp
  cases showProgress with
  | false => exact he h hp
  | true =>
    have hflat : ∀ p ∈ (chunks chunkSize paths).flatten, p.IsPlain := by rwa [flatten_chunks]
    have hpieces := h.foldl (fun h hp => (he h hp).2) hflat
    rw [flatten_chunks] at hpieces
    have hall := hpieces.extractAll hp
    simp only [Set.union_assoc, Set.union_self] at hall
    exact hall

/-- Each call on a project is answered as by a new project that is called once, with the files
extracted one by one; the answer to a batch is sorted by path and has the outputs of the files that
can be extracted, each as often as it is listed. At the end the project keeps as many outputs as
there are absolute paths that were asked for and can be extracted, and remembers as many files as
there are those that were asked for in batches and cannot. Extracting the files in pieces first, and
then as a whole, comes to the same as extracting them once. -/
theorem answerAll_alone (base : Path) (options : ExtractionOptions) (disk : Disk)
    {calls : List Call} (plain : ∀ call ∈ calls, ∀ p ∈ call.paths, p.IsPlain) :
    let fresh : Project := { base, options }
    let project := (fresh.answerAll disk calls).2
    List.Forall₂ (Answer.Fits fresh disk) calls (fresh.answerAll disk calls).1 ∧
      project.cachedCount = (fresh.keysWhere disk true (calls.flatMap Call.paths)).dedup.length ∧
      project.failedCount = (fresh.keysWhere disk false (calls.flatMap Call.listed)).dedup.length ∧
      (∀ p, (fresh.output disk p).isOk = true ↔ fresh.CanExtract disk p) ∧
      ∀ paths : List Path, (∀ p ∈ paths, p.IsPlain) →
        ∀ (schedule : List Path → List Nat) (parallel showProgress : Bool),
          let listed := fresh.extractListed disk schedule parallel showProgress paths
          let once := fresh.extractAll disk paths
          listed.1 = once.1 ∧ listed.2.cachedCount = once.2.cachedCount ∧
            listed.2.failedCount = once.2.failedCount := by
  intro fresh project
  have new := Knows.new disk base options
  obtain ⟨hanswers, hknows⟩ := new.answerAll plain
  rw [Set.empty_union, Set.empty_union] at hknows
  refine ⟨?_, hknows.cachedCount_eq, hknows.failedCount_eq, isOk_output_iff fresh disk, ?_⟩
  · rw [hanswers, List.forall₂_map_right_iff, List.forall₂_same]
    exact fun call hc => Answer.fits_answerOf base options disk (plain call hc)
  · intro paths hp schedule parallel showProgress listed once
    obtain ⟨hlisted, hk⟩ := new.extractListed hp schedule parallel showProgress
    obtain ⟨honce, hk'⟩ := new.extractAll hp
    rw [Set.empty_union] at hk hk'
    exact ⟨hlisted.trans honce.symm, hk.cachedCount_eq.trans hk'.cachedCount_eq.symm,
      hk.failedCount_eq.trans hk'.failedCount_eq.symm⟩

/-- A disk with a file, and one that may not be read. -/
def lockedDisk : Disk where
  root := .directory [("app", .directory [
    ("main.swift", .file { bytes := "x".toUTF8 }),
    ("locked.swift", .file { bytes := "y".toUTF8, isReadable := false })])]
  current := []

/-- Calls for both files and for one that is not there, with two spellings of the first. -/
def mixedCalls : List Call :=
  [.parallel [1, 0, 0, 1] [⟨false, ["main.swift"]⟩, ⟨true, ["app", "main.swift"]⟩,
      ⟨false, ["locked.swift"]⟩, ⟨false, ["main.swift"]⟩],
    .file ⟨false, ["none.swift"]⟩,
    .files [⟨true, ["app", "locked.swift"]⟩, ⟨false, ["..", "app", "main.swift"]⟩]]

/-- Calls for files in two spellings below a base that is written with a dot. -/
theorem answerAll_alone_mixedCalls :
    (∀ call ∈ mixedCalls, ∀ p ∈ call.paths, p.IsPlain) ∧
    let fresh : Project := { base := ⟨true, [".", "app", ""]⟩, options := {} }
    let project := (fresh.answerAll lockedDisk mixedCalls).2
    List.Forall₂ (Answer.Fits fresh lockedDisk) mixedCalls
        (fresh.answerAll lockedDisk mixedCalls).1 ∧
      project.cachedCount =
        (fresh.keysWhere lockedDisk true (mixedCalls.flatMap Call.paths)).dedup.length ∧
      project.failedCount =
        (fresh.keysWhere lockedDisk false (mixedCalls.flatMap Call.listed)).dedup.length ∧
      (∀ p, (fresh.output lockedDisk p).isOk = true ↔ fresh.CanExtract lockedDisk p) ∧
      ∀ paths : List Path, (∀ p ∈ paths, p.IsPlain) →
        ∀ (schedule : List Path → List Nat) (parallel showProgress : Bool),
          let listed := fresh.extractListed lockedDisk schedule parallel showProgress paths
          let once := fresh.extractAll lockedDisk paths
          listed.1 = once.1 ∧ listed.2.cachedCount = once.2.cachedCount ∧
            listed.2.failedCount = once.2.failedCount := by
  have plain : ∀ call ∈ mixedCalls, ∀ p ∈ call.paths, p.IsPlain := by decide
  exact ⟨plain, answerAll_alone ⟨true, [".", "app", ""]⟩ {} lockedDisk plain⟩

end Project

end SwiftRelations
