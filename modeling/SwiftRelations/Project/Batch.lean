import SwiftRelations.Project.Basic

/-!
# Batches

The files of a batch may be extracted side by side, over one project. Each takes three steps: it
asks whether its output is known, extracts what is not, and keeps what it extracted. The steps of
different files mix in any order, so a file may be extracted although another spelling of it is
being extracted already.

It follows `extract_files_parallel` of `Extractor`, and `extract_all` that calls it.
-/

namespace SwiftRelations

open Project

/-- How far a file of a batch has come. -/
inductive Progress where
  | waiting
  /-- The output of the file was not known. -/
  | missed
  /-- The file was extracted, and the output is not kept yet. -/
  | extracted (output : Output)
  | done (result : Result)
  deriving Inhabited

namespace Progress

/-- The next step of a file over a project. -/
def next (disk : Disk) (project : Project) (p : Path) : Progress → Progress × Project
  | .waiting =>
    match project.known? p with
    | some output => (.done (.ok output), project)
    | none => (.missed, project)
  | .missed =>
    match project.output disk p with
    | .ok output => (.extracted output, project)
    | .error fault => (.done (.error fault), project)
  | .extracted output => (.done (.ok output), project.keep p output)
  | .done result => (.done result, project)

/-- The result of a file that is done. -/
def result? : Progress → Option Result
  | .done result => some result
  | _ => none

end Progress

/-- A batch of files that are extracted side by side over a project. -/
structure Batch where
  project : Project
  files : List (Path × Progress)
  deriving Inhabited

namespace Batch

/-- A batch before its first step. -/
def start (project : Project) (paths : List Path) : Batch :=
  { project, files := paths.map (·, .waiting) }

/-- The batch after the next step of one of its files. -/
def step (disk : Disk) (batch : Batch) (i : Nat) : Batch :=
  match batch.files[i]? with
  | none => batch
  | some (p, progress) =>
    let (progress, project) := progress.next disk batch.project p
    { project, files := batch.files.set i (p, progress) }

/-- The batch after some steps, each of the file at some place. -/
def run (disk : Disk) (batch : Batch) (schedule : List Nat) : Batch :=
  schedule.foldl (step disk) batch

/-- The results of the files that are done. -/
def results (batch : Batch) : List (Path × Result) :=
  batch.files.filterMap fun (p, progress) => progress.result?.map (p, ·)

/-- As many rounds of steps as a file has steps. -/
def rounds (count : Nat) : List Nat := (List.replicate 3 (List.range count)).flatten

end Batch

namespace Project

/-- The outputs of a batch of files that are extracted side by side, and the project after it. The
schedule says whose steps come first, by the places of the files; what it leaves to do is done in
rounds. -/
def extractParallel (project : Project) (disk : Disk) (schedule : List Nat) (paths : List Path) :
    List Output × Project :=
  let batch := (Batch.start project paths).run disk (schedule ++ Batch.rounds paths.length)
  (listing batch.results, batch.project.failEach batch.results)

/-- A list in pieces of some size, the last of which may be smaller. -/
def chunks {α : Type} (size : Nat) : List α → List (List α)
  | [] => []
  | a :: l => (a :: l.take (size - 1)) :: chunks size (l.drop (size - 1))
termination_by l => l.length
decreasing_by
  simp only [List.length_cons, List.length_drop]
  omega

/-- The number of files after which progress is shown. -/
def chunkSize : Nat := 16

/-- The outputs of all files of a project, which are extracted side by side or one by one. Where
progress is shown they are extracted in pieces before, and the outputs are those that are known. -/
def extractListed (project : Project) (disk : Disk) (schedule : List Path → List Nat)
    (parallel showProgress : Bool) (paths : List Path) : List Output × Project :=
  let extract := fun (project : Project) paths =>
    if parallel then project.extractParallel disk (schedule paths) paths
    else project.extractAll disk paths
  if showProgress then
    ((chunks chunkSize paths).foldl (fun project chunk => (extract project chunk).2)
      project).extractAll disk paths
  else extract project paths

end Project

end SwiftRelations
