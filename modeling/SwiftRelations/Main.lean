import SwiftRelations.Command.Run
import SwiftRelations.Source.Listing

/-!
# The command line

Reads the working directory, carries out a command, and writes the file that the command writes. The
tree of a file `a.swift` is read from its listing in `a.swift.tree`. Paths that lead out of the
working directory find nothing there.

It stands around `Request.run` as `main` does, but that the parser is left out.
-/

namespace SwiftRelations.Main

/-- The ending of the name of a listing. -/
def listingEnding : String := ".tree"

/-- The usage of the program. -/
def usage : String :=
  "Usage: swiftfacts extract <PATH> [-c <CONFIG>] [-f <FORMAT>] [-o <OUTPUT>] [--no-locations]\n" ++
  "                          [--sequential]\n" ++
  "       swiftfacts init [-o <OUTPUT>]\n"

/-- A file with the tree that a listing gives it. -/
def withListing (listings : List (String × String)) (name : String) (bytes : ByteArray) :
    FileContent where
  bytes := bytes
  parsed := (listings.lookup (name ++ listingEnding)).bind (Source.ofBytes bytes).listedTree?

/-- A directory of files and directories. -/
def directoryOf (files : List (String × ByteArray)) (directories : List (String × Entry)) :
    Entry :=
  let listings := files.filterMap fun (name, bytes) =>
    if Text.endsWith name listingEnding then (String.fromUTF8? bytes).map (name, ·) else none
  .directory <| directories ++
    files.map fun (name, bytes) => (name, .file (withListing listings name bytes))

/-- The directory at a path of the system. -/
partial def readDirectory (path : String) : IO Entry := do
  let mut files : List (String × ByteArray) := []
  let mut directories : List (String × Entry) := []
  let directory : IO.FS.DirEntry := { root := path, fileName := "" }
  for entry in ← directory.root.readDir do
    if ← entry.path.isDir then
      directories := (entry.fileName, ← readDirectory entry.path.toString) :: directories
    else
      files := (entry.fileName, ← IO.FS.readBinFile entry.path) :: files
  return directoryOf files directories

/-- The path of the file that a command writes. -/
def written? : Command.Request → Option String
  | .extract request => request.output
  | .init output => some output

/-- Write the file that a command wrote to a disk. -/
def save (disk : Disk) (path : String) : IO Unit := do
  if let .ok content := disk.read (Path.ofText path) then
    if let some parent := (Path.ofText path).parent? then
      if !parent.isEmpty then IO.FS.createDirAll parent.text
    IO.FS.writeBinFile path content.bytes

end SwiftRelations.Main

open SwiftRelations in
/-- Carry out the command that the arguments ask for. -/
def main (arguments : List String) : IO UInt32 := do
  match Command.Request.ofArguments arguments with
  | .error .version =>
    IO.println ("swiftfacts " ++ Report.version)
    return 0
  | .error refusal =>
    if refusal.exitCode = 0 then IO.print Main.usage else IO.eprint Main.usage
    return UInt32.ofNat refusal.exitCode
  | .ok request =>
    let directory := toString (← IO.currentDir)
    let current := (Path.ofText directory).components
    let entry ← Main.readDirectory directory
    let disk : Disk := { root := (Entry.directory []).set (some entry) current, current }
    let outcome := request.run disk
    IO.print outcome.stdout
    IO.eprint outcome.stderr
    if let some path := Main.written? request then Main.save outcome.disk path
    return UInt32.ofNat outcome.exitCode
