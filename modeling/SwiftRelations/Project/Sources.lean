import SwiftRelations.Config.Basic
import SwiftRelations.Files.Disk
import SwiftRelations.Text.Blank

/-!
# The sources of a project

The Swift files below a directory that are to be extracted. Directories of build products and of
dependencies are not entered and, unless they are asked for, neither are those of tests; the root
itself is entered whatever it is called.

It follows `collect_files` and `is_test_file`. The walk of directories is the documented behaviour
of the library walkdir.
-/

namespace SwiftRelations

/-- The directories that hold build products and dependencies. -/
def skippedDirectories : List String := [".build", "Pods", "Carthage", "DerivedData"]

/-- The directories that hold tests. -/
def testDirectories : List String := ["Tests", "tests", "UITests", "testdata"]

/-- Whether the directories of some name are entered. -/
def entersDirectory (includeTests : Bool) (name : String) : Bool :=
  !Text.startsWith name "." && !skippedDirectories.contains name &&
    (includeTests || !testDirectories.contains name)

/-- Whether a file name is that of a test. -/
def isTestFile (name : String) : Bool :=
  Text.endsWith (FileName.stem name) "Tests" || Text.endsWith (FileName.stem name) "Test"

/-- Whether a file is extracted by its name. -/
def isSourceFile (includeTests : Bool) (name : String) : Bool :=
  FileName.extension? name = some "swift" && (includeTests || !isTestFile name)

mutual

/-- The files at or below an entry, each by the names that lead to it. Directories below the entry
are entered if `enters` says so. -/
def Entry.files (enters : String → Bool) : Entry → List (List String)
  | .file _ => [[]]
  | .directory entries => filesOfEntries enters entries

/-- The files at or below the entries of a directory. -/
def filesOfEntries (enters : String → Bool) : List (String × Entry) → List (List String)
  | [] => []
  | (name, .file content) :: entries =>
    (Entry.files enters (.file content)).map (name :: ·) ++ filesOfEntries enters entries
  | (name, .directory inner) :: entries =>
    (if enters name then (Entry.files enters (.directory inner)).map (name :: ·) else []) ++
      filesOfEntries enters entries

end

/-- Whether one list of names comes before another or equals it: the first names that differ decide
by the order of their characters, and a list comes before those that it begins. -/
def precedes : List String → List String → Bool
  | [], _ => true
  | _ :: _, [] => false
  | a :: as, b :: bs => a < b || (a == b && precedes as bs)

/-- What stops the collection of sources. -/
inductive CollectionFault where
  | config (fault : Config.Fault)
  | unreadable (root : Path) (fault : FileFault)
  deriving DecidableEq, Repr, Inhabited

/-- The message for a fault. -/
def CollectionFault.message : CollectionFault → String
  | .config fault => fault.message
  | .unreadable root fault =>
    "IO error for operation on " ++ root.text ++ ": " ++ fault.message

/-- Whether the file that names lead to from the root is a source. The root itself may be a file. -/
def isSource (config : Config) (patterns : List (List Glob.Piece)) (root : Path)
    (names : List String) : Bool :=
  let name := (root.components ++ names).getLast?.getD ""
  isSourceFile config.includeTestFiles name &&
    !Config.anyMatches patterns ("/".intercalate names)

/-- The sources below a root, in order. -/
def Disk.sources (disk : Disk) (config : Config) (root : Path) :
    Except CollectionFault (List Path) := do
  let patterns ← config.exclusions.mapError .config
  let entry ← (disk.entry root).mapError (.unreadable root)
  let files := entry.files (entersDirectory config.includeTestFiles)
  let sources := files.filter (isSource config patterns root)
  return (sources.mergeSort precedes).map fun names =>
    if names.isEmpty then root else root.join { isAbsolute := false, parts := names }

end SwiftRelations
