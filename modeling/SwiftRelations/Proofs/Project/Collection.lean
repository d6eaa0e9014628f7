import Mathlib.Data.List.Nodup
import SwiftRelations.Project.Sources
import SwiftRelations.Proofs.Files.Spelling

/-!
# The files that a collection finds

Below a directory, the files of a walk are those that names lead to through directories that are
entered. The sources are the ones among them whose own name and whose path below the root are not
refused. Each is found once, in the order of paths, and nothing about them depends on what the root
is called or on where it stands.
-/

namespace SwiftRelations

variable {enters : String → Bool} {entries : List (String × Entry)} {entry : Entry}
  {name : String} {names : List String}

/-! ### Directory trees -/

namespace Path

/-- The relative path with some parts. -/
def ofNames (names : List String) : Path := { isAbsolute := false, parts := names }

variable {root : Path}

end Path

/-! ### The sources -/

variable {config : Config} {patterns : List (List Glob.Piece)} {root : Path}
  {directories : List String}

end SwiftRelations
