import SwiftRelations.Command.Arguments
import SwiftRelations.Config.Files
import SwiftRelations.Project.Batch
import SwiftRelations.Project.Sources
import SwiftRelations.Report.Summary

/-!
# Commands

What a command does to the disk, what it prints, and the code it exits with.

The commands follow `run_extract`, with `extract_all` and `exit_code`, and `run_init`.
-/

namespace SwiftRelations.Command

/-- The result of a command. -/
structure Outcome where
  disk : Disk
  exitCode : Nat
  stdout : String := ""
  stderr : String := ""
  deriving Inhabited

/-- A command that fails with a message. -/
def failed (disk : Disk) (message : String) : Outcome :=
  { disk, exitCode := 2, stderr := "Error: " ++ message ++ "\n" }

/-- A configuration with what the command line overrides. -/
def override (request : ExtractRequest) (config : Config) : Config :=
  { config with
    output := request.format.getD config.output
    emitLocations := config.emitLocations && !request.noLocations
    parallel := config.parallel && !request.sequential }

/-- The report in the format that a configuration asks for. -/
def report (config : Config) (root : String) (configPath : Option String)
    (outputs : List Output) : String :=
  match Format.ofWord? config.output with
  | some .json => Report.json outputs
  | some .trap => Report.trap outputs
  | _ => Report.pretty false root configPath outputs

/-- The exit code for some outputs, when some files could not be extracted. -/
def exitCode (outputs : List Output) (failures : Nat) : Nat :=
  if failures > 0 then 2 else if outputs.all (·.isClean) then 0 else 1

/-- What is extracted for the place that a path leads to: the directory that paths are shown
relative to, and the files. -/
def selection (disk : Disk) (config : Config) (place : List String) :
    Except CollectionFault (Path × List Path) := do
  let path := Path.ofComponents place
  if disk.isDirectory path then return (path, ← disk.sources config path)
  else return (Path.ofComponents place.dropLast, [path])

/-- Extract some files and report on them. -/
def extractFiles (disk : Disk) (request : ExtractRequest) (config : Config)
    (configPath : Option Path) (base : Path) (files : List Path) : Outcome :=
  let project : Project := { base, options := config.extractionOptions }
  let showProgress := config.output = "pretty" && request.output.isNone && files.length > 1
  let (outputs, project) :=
    project.extractListed disk (fun _ => []) config.parallel showProgress files
  let text := report config request.path (configPath.map (·.text)) outputs
  let failures := project.failedCount
  let outcome : Outcome := {
    disk
    exitCode := exitCode outputs failures
    stderr :=
      if failures > 0 then
        "Error: " ++ toString failures ++ " file(s) could not be extracted\n"
      else "" }
  match request.output with
  | none => { outcome with stdout := text }
  | some output =>
    match disk.write (Path.ofText output) { bytes := text.toUTF8 } with
    | .error fault => failed disk fault.message
    | .ok disk => { outcome with disk }

/-- Extract a file, or the sources below a directory. -/
def runExtract (disk : Disk) (request : ExtractRequest) : Outcome :=
  let current := Path.ofComponents disk.current
  let configPath := (request.config.map Path.ofText).or (Config.discover? disk current)
  match Config.load disk configPath current with
  | .error fault => failed disk fault.message
  | .ok config =>
    let config := override request config
    match config.fault?, disk.locate (Path.ofText request.path) with
    | some fault, _ => failed disk ("invalid config: " ++ fault.message)
    | none, .error fault =>
      failed disk ("cannot access path " ++ Text.quotedPath request.path ++ ": " ++ fault.message)
    | none, .ok place =>
      match selection disk config place with
      | .error fault => failed disk fault.message
      | .ok (_, []) =>
        { disk, exitCode := 0, stderr := "Warning: no Swift files to extract\n" }
      | .ok (base, files) => extractFiles disk request config configPath base files

/-- What is printed after a configuration file was written. -/
def nextSteps (output : String) : String :=
  "Created " ++ output ++ "\n\nNext steps:\n  1. Edit " ++ output ++
    " to customize for your project\n  2. Run: swiftfacts extract . --config " ++ output ++ "\n"

/-- The disk with the directories around a new file, and what went wrong. -/
def makeParents (disk : Disk) (p : Path) : Disk × Option FileFault :=
  match p.parent? with
  | some parent =>
    if parent.isEmpty || parent.text = "." then (disk, none) else disk.makeDirectories parent
  | none => (disk, none)

/-- Write a configuration file, unless there is one. -/
def runInit (disk : Disk) (output : String) : Outcome :=
  let path := Path.ofText output
  if disk.exists? path then
    { disk, exitCode := 2,
      stderr := "Error: file already exists: " ++ output ++
        "\nRemove it or use --output to specify a different path\n" }
  else
    match makeParents disk path with
    | (disk, some fault) => failed disk ("failed to create directory: " ++ fault.message)
    | (disk, none) =>
      match disk.write path { bytes := Config.template.toUTF8 } with
      | .error fault => failed disk ("failed to write config: " ++ fault.message)
      | .ok disk => { disk, exitCode := 0, stdout := nextSteps output }

/-- Carry out a command. -/
def Request.run (disk : Disk) : Request → Outcome
  | .extract request => runExtract disk request
  | .init output => runInit disk output

end SwiftRelations.Command
