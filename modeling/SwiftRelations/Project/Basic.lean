import Std.Data.HashMap
import Std.Data.HashSet
import SwiftRelations.Files.Disk
import SwiftRelations.Source.Word

/-!
# Projects

The extraction of the files of one project. What was extracted once is kept under its absolute path
and never extracted again; the files of a batch that could not be extracted are remembered.

It follows `Extractor`, with `extract_file`, `extract_files`, `absolute`, `relative`, `cached_count`
and `failed_count`.
-/

namespace SwiftRelations

/-- What stops the extraction of a file. -/
inductive ProjectFault where
  | unreadable (fault : FileFault)
  /-- There is no tree for the file, and it needs one. -/
  | unparsed (path : String)
  | unextractable (error : ExtractionError)
  deriving DecidableEq, Repr, Inhabited

/-- The message for a fault. -/
def ProjectFault.message : ProjectFault → String
  | .unreadable fault => fault.message
  | .unparsed path => "failed to parse " ++ path
  | .unextractable (.lowering _) => "lowering failed"
  | .unextractable (.labelling collision) => collision.message

/-- A file as the grammar reads it: as it has been read, or as a file of at most one word. -/
def FileContent.parse? (content : FileContent) : Option ParsedFile :=
  content.parsed.or (Source.ofBytes content.bytes).wordTree?

/-- A project and what is known of its files. -/
structure Project where
  /-- The directory of the project. -/
  base : Path
  options : ExtractionOptions
  /-- The outputs so far, each under what tells the absolute path of its file from others. -/
  cache : Std.HashMap Path.Key Output := {}
  /-- The files of batches that could not be extracted. -/
  failed : Std.HashSet Path.Key := {}
  deriving Inhabited

/-- The result of extracting a file of a project. -/
abbrev Project.Result := Except ProjectFault Output

namespace Project

/-- The absolute path of a file. -/
def absolute (project : Project) (p : Path) : Path := project.base.join p

/-- What tells the absolute path of a file from others. -/
def key (project : Project) (p : Path) : Path.Key := (project.absolute p).key

/-- The output of a file, regardless of what is known. -/
def output (project : Project) (disk : Disk) (p : Path) : Result := do
  let path := project.absolute p
  let shown := path.relativeText project.base
  let content ← (disk.read path).mapError .unreadable
  match content.parse? with
  | none => throw (.unparsed shown)
  | some file => (file.extract shown project.options).mapError .unextractable

/-- The output that is known of a file. -/
def known? (project : Project) (p : Path) : Option Output := project.cache[project.key p]?

/-- Keep the output of a file. -/
def keep (project : Project) (p : Path) (output : Output) : Project :=
  { project with cache := project.cache.insert (project.key p) output }

/-- Remember a file that could not be extracted. -/
def fail (project : Project) (p : Path) : Project :=
  { project with failed := project.failed.insert (project.key p) }

/-- The output of a file, and the project after it. -/
def extract (project : Project) (disk : Disk) (p : Path) : Result × Project :=
  match project.known? p with
  | some output => (.ok output, project)
  | none =>
    match project.output disk p with
    | .ok output => (.ok output, project.keep p output)
    | .error fault => (.error fault, project)

/-- The results of files in the order given, each with its file, and the project after them. -/
def extractEach (project : Project) (disk : Disk) : List Path → List (Path × Result) × Project
  | [] => ([], project)
  | p :: paths =>
    let (result, project) := project.extract disk p
    let (results, project) := project.extractEach disk paths
    ((p, result) :: results, project)

/-- Remember the files that could not be extracted among the results of a batch. -/
def failEach (project : Project) (results : List (Path × Result)) : Project :=
  results.foldl (fun project (p, result) => if result.isOk then project else project.fail p) project

/-- The outputs among the results of a batch, sorted by path. -/
def listing (results : List (Path × Result)) : List Output :=
  (results.filterMap (·.2.toOption)).mergeSort (·.path ≤ ·.path)

/-- The outputs of a batch of files sorted by path, and the project after it. Files that cannot be
extracted are left out and remembered. -/
def extractAll (project : Project) (disk : Disk) (paths : List Path) : List Output × Project :=
  let (results, project) := project.extractEach disk paths
  (listing results, project.failEach results)

/-- The number of outputs that are kept. -/
def cachedCount (project : Project) : Nat := project.cache.size

/-- The number of files of batches that could not be extracted. -/
def failedCount (project : Project) : Nat := project.failed.size

end Project

end SwiftRelations
