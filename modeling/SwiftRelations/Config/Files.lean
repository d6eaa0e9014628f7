import SwiftRelations.Config.Reading
import SwiftRelations.Files.Disk

/-!
# Configuration files

The configuration of a directory is in a file of a fixed name, unless another file is given. Without
a file it has the defaults.

It follows `discover`, `load` and `parse_file` of `Config`.
-/

namespace SwiftRelations.Config

/-- The names of configuration files, the preferred first. -/
def fileNames : List String := ["swiftfacts.yaml", ".swiftfacts.yaml"]

/-- The configuration file of a directory, if it has one. -/
def discover? (disk : Disk) (directory : Path) : Option Path :=
  (fileNames.map fun name => directory.join (Path.ofText name)).find? disk.exists?

/-- What is wrong with a configuration file. -/
inductive FileCause where
  | unreadable (fault : FileFault)
  | invalid (fault : Yaml.Fault)
  deriving Repr, Inhabited

/-- A configuration file that cannot be used. -/
structure LoadFault where
  path : Path
  cause : FileCause
  deriving Repr, Inhabited

/-- The message for a file that cannot be used. -/
def LoadFault.message (fault : LoadFault) : String :=
  "invalid config " ++ fault.path.text ++ ": " ++
    match fault.cause with
    | .unreadable cause => cause.message
    | .invalid cause => cause.message

/-- The configuration in a file. -/
def ofFile (disk : Disk) (path : Path) : Except LoadFault Config := do
  let text ← (disk.readText path).mapError fun fault => ⟨path, .unreadable fault⟩
  (ofText text).mapError fun fault => ⟨path, .invalid fault⟩

/-- The configuration in a file, if one is given, or else that of a directory. -/
def load (disk : Disk) (path : Option Path) (directory : Path) : Except LoadFault Config :=
  match path.or (discover? disk directory) with
  | some path => ofFile disk path
  | none => .ok {}

/-- The lines of the configuration file that a new project gets. -/
def templateLines : List String := [
  "# swiftfacts configuration",
  "version: \"1\"",
  "name: \"my-project\"",
  "",
  "# Extract facts from test sources too (XCTest targets, *Tests.swift)",
  "include_test_files: false",
  "",
  "# Glob patterns for paths to skip, relative to the extraction root",
  "excluded_paths:",
  "  - \"**/.build/**\"",
  "  - \"**/Generated/**\"",
  "",
  "# Emit a `locations` fact for every node with a source position",
  "emit_locations: true",
  "",
  "# Extract files on all cores",
  "parallel: true",
  "",
  "# Report format: pretty, json or trap",
  "output: pretty"]

/-- The configuration file that a new project gets. -/
def template : String := String.join (templateLines.map (· ++ "\n"))

end SwiftRelations.Config
