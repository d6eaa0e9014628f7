import SwiftRelations.Extraction.Output
import SwiftRelations.Files.Path

/-!
# Files

A disk is a tree of directories and files, together with the directory in which paths begin. A path
leads from entry to entry: each of its parts needs a directory, and two dots lead back to the
directory around it.

The file system is no part of the program: this is the documented behaviour of what it calls, the
reading, writing and making of files and directories, with the messages of the faults.
-/

namespace SwiftRelations

/-- What a file holds: its bytes, and what the Swift grammar makes of them. -/
structure FileContent where
  bytes : ByteArray
  /-- The file as the grammar reads it, if it has been read. -/
  parsed : Option ParsedFile := none
  /-- Whether the file may be read. -/
  isReadable : Bool := true
  deriving Inhabited

/-- A file or a directory. -/
inductive Entry where
  | file (content : FileContent)
  | directory (entries : List (String × Entry))
  deriving Inhabited

/-- What can be wrong with a path. -/
inductive FileFault where
  | notFound
  | exists
  | notDirectory
  | isDirectory
  | denied
  | notText
  deriving DecidableEq, Repr, Inhabited

/-- The message for a fault. -/
def FileFault.message : FileFault → String
  | .notFound => "No such file or directory (os error 2)"
  | .exists => "File exists (os error 17)"
  | .notDirectory => "Not a directory (os error 20)"
  | .isDirectory => "Is a directory (os error 21)"
  | .denied => "Permission denied (os error 13)"
  | .notText => "stream did not contain valid UTF-8"

namespace Entry

/-- The entry that names lead to. -/
def get? (entry : Entry) : List String → Option Entry
  | [] => some entry
  | name :: names =>
    match entry with
    | .file _ => none
    | .directory entries =>
      match entries.lookup name with
      | some inner => inner.get? names
      | none => none

/-- Entries with the entry called `name` replaced, added or, for `none`, removed. -/
def put (entries : List (String × Entry)) (name : String) (new : Option Entry) :
    List (String × Entry) :=
  match entries with
  | [] => (new.map (name, ·)).toList
  | (other, entry) :: entries =>
    if other = name then (new.map (name, ·)).toList ++ entries
    else (other, entry) :: put entries name new

/-- An entry in which names lead to `new`, or to nothing. Directories on the way are made. -/
def set (new : Option Entry) : List String → Entry → Entry
  | [], entry => new.getD entry
  | [name], .directory entries => .directory (put entries name new)
  | [name], .file _ => .directory (put [] name new)
  | name :: names, .directory entries =>
    let inner := (entries.lookup name).getD (.directory [])
    .directory (put entries name (some (inner.set new names)))
  | name :: names, .file _ => .directory (put [] name (some ((Entry.directory []).set new names)))

end Entry

/-- Files, and the directory in which relative paths begin. -/
structure Disk where
  root : Entry
  current : List String
  deriving Inhabited

namespace Disk

/-- The entry at a place, which is given by the names that lead to it from the root. -/
def get? (disk : Disk) (place : List String) : Option Entry := disk.root.get? place

/-- The place that a part of a path leads to from another. -/
def step (disk : Disk) (place : List String) (part : String) : Except FileFault (List String) :=
  match disk.get? place with
  | none => .error .notFound
  | some (.file _) => .error .notDirectory
  | some (.directory entries) =>
    if Path.isIdle part then .ok place
    else if part = ".." then .ok place.dropLast
    else if (entries.lookup part).isSome then .ok (place ++ [part])
    else .error .notFound

/-- The place where a path begins. -/
def start (disk : Disk) (p : Path) : List String := if p.isAbsolute then [] else disk.current

/-- The place that a path leads to. -/
def locate (disk : Disk) (p : Path) : Except FileFault (List String) :=
  if p.isEmpty then .error .notFound else p.parts.foldlM disk.step (disk.start p)

/-- The entry that a path leads to. -/
def entry (disk : Disk) (p : Path) : Except FileFault Entry := do
  match disk.get? (← disk.locate p) with
  | some entry => return entry
  | none => throw .notFound

/-- Whether a path leads anywhere. -/
def exists? (disk : Disk) (p : Path) : Bool := (disk.entry p).isOk

/-- The file that a path leads to. -/
def file (disk : Disk) (p : Path) : Except FileFault FileContent := do
  match ← disk.entry p with
  | .file content => return content
  | .directory _ => throw .isDirectory

/-- What the file that a path leads to holds, if it may be read. -/
def read (disk : Disk) (p : Path) : Except FileFault FileContent := do
  let content ← disk.file p
  if content.isReadable then return content else throw .denied

/-- The text of the file that a path leads to. -/
def readText (disk : Disk) (p : Path) : Except FileFault String := do
  match String.fromUTF8? (← disk.read p).bytes with
  | some text => return text
  | none => throw .notText

/-- The place of the directory around the last part of a path, and the entries there. -/
def around (disk : Disk) (p : Path) : Except FileFault (List String × List (String × Entry)) := do
  if p.isEmpty then throw .notFound
  let place ← p.splitLast.1.foldlM disk.step (disk.start p)
  match disk.get? place with
  | some (.directory entries) => return (place, entries)
  | some (.file _) => throw .notDirectory
  | none => throw .notFound

/-- The disk with an entry at a place, or with none. -/
def set (disk : Disk) (place : List String) (new : Option Entry) : Disk :=
  { disk with root := disk.root.set new place }

/-- Whether a name is that of no entry of its own. -/
def isDots (name : String) : Bool := Path.isIdle name || name = ".."

/-- The disk with a file at the end of a path. The directory around it must exist, and nothing but
a file may be overwritten. -/
def write (disk : Disk) (p : Path) (content : FileContent) : Except FileFault Disk := do
  let (place, entries) ← disk.around p
  let (_, name, endsInSlash) := p.splitLast
  match entries.lookup name with
  | some (.directory _) => throw .isDirectory
  | _ =>
    if isDots name || endsInSlash then throw .isDirectory
    return disk.set (place ++ [name]) (some (.file content))

/-- The disk without the file that a path leads to. -/
def remove (disk : Disk) (p : Path) : Except FileFault Disk := do
  let _ ← disk.file p
  return disk.set (← disk.locate p) none

/-- The disk with a new directory at the end of a path. -/
def makeDirectory (disk : Disk) (p : Path) : Except FileFault Disk := do
  let (place, entries) ← disk.around p
  let name := p.splitLast.2.1
  if isDots name || (entries.lookup name).isSome then throw .exists
  return disk.set (place ++ [name]) (some (.directory []))

/-- Whether a path leads to a directory. -/
def isDirectory (disk : Disk) (p : Path) : Bool :=
  match disk.entry p with
  | .ok (.directory _) => true
  | _ => false

/-- A path and the paths around it, innermost first. The fuel bounds the number of components. -/
def ancestors : Nat → Path → List Path
  | 0, _ => []
  | fuel + 1, p =>
    if p.isEmpty then []
    else
      match p.parent? with
      | none => []
      | some parent => p :: ancestors fuel parent

/-- The disk with a new directory at the end of a path, unless there is a directory already. -/
def ensureDirectory (disk : Disk) (p : Path) : Except FileFault Disk :=
  match disk.makeDirectory p with
  | .error fault => if disk.isDirectory p then .ok disk else .error fault
  | result => result

/-- The disk with directories at the end of some paths, innermost first, and what went wrong. Where
a directory cannot be made for want of the directory around it, that one is made before. -/
def ensureAll (disk : Disk) : List Path → Disk × Option FileFault
  | [] => (disk, none)
  | p :: outer =>
    match disk.ensureDirectory p with
    | .ok disk => (disk, none)
    | .error .notFound =>
      match disk.ensureAll outer with
      | (disk, some fault) => (disk, some fault)
      | (disk, none) =>
        match disk.ensureDirectory p with
        | .ok disk => (disk, none)
        | .error fault => (disk, some fault)
    | .error fault => (disk, some fault)

/-- The disk with a directory at the end of a path, and directories on the way, and what went
wrong. -/
def makeDirectories (disk : Disk) (p : Path) : Disk × Option FileFault :=
  disk.ensureAll (ancestors (p.parts.length + 1) p)

end Disk

end SwiftRelations
