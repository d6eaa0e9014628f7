/-!
# Paths

A path is a text whose parts stand between slashes. The parts are kept as they are written, empty
ones and dots too, so that a path is shown as it was given; its components are the parts that say
where it leads.

Paths are no part of the program: this is the documented behaviour of the path type that it uses,
with its `components`, `join`, `parent`, `extension` and `file_stem`.
-/

namespace SwiftRelations

/-- A path. -/
structure Path where
  isAbsolute : Bool
  /-- What stands between the slashes, after the first slash of an absolute path. -/
  parts : List String
  deriving DecidableEq, Repr, Inhabited

namespace Path

/-- The path that a text writes. -/
def ofText (text : String) : Path :=
  match text.splitOn "/" with
  | "" :: part :: parts => { isAbsolute := true, parts := part :: parts }
  | parts => { isAbsolute := false, parts }

/-- The text of a path. -/
def text (p : Path) : String :=
  (if p.isAbsolute then "/" else "") ++ "/".intercalate p.parts

/-- The absolute path with some components. -/
def ofComponents (components : List String) : Path := { isAbsolute := true, parts := components }

/-- Whether a part leads nowhere. -/
def isIdle (part : String) : Bool := part = "" || part = "."

/-- The parts of a path that say where it leads. -/
def components (p : Path) : List String := p.parts.filter (!isIdle ·)

/-- Whether a relative path begins with a dot, the one idle part that tells it from others. -/
def isDotted (p : Path) : Bool := !p.isAbsolute && p.parts.head? = some "."

/-- What tells a path from others, however idle parts are strewn into it. -/
structure Key where
  isAbsolute : Bool
  isDotted : Bool
  components : List String
  deriving DecidableEq, Hashable, Repr, Inhabited

/-- What tells a path from others. -/
def key (p : Path) : Key :=
  { isAbsolute := p.isAbsolute, isDotted := p.isDotted, components := p.components }

/-- Whether a path is the empty text. -/
def isEmpty (p : Path) : Bool := !p.isAbsolute && p.parts.all (· = "") && p.parts.length ≤ 1

/-- A path taken relative to another. -/
def join (base p : Path) : Path :=
  if p.isAbsolute then p
  else
    let parts := if base.parts.getLast? = some "" then base.parts.dropLast else base.parts
    { base with parts := parts ++ p.parts }

/-- Parts without the idle ones at their end. The dot that begins a relative path stays. -/
def trimEnd (p : Path) (parts : List String) : List String :=
  match parts with
  | [] => []
  | first :: rest =>
    let rest := (rest.reverse.dropWhile isIdle).reverse
    if rest.isEmpty && (first = "" || (p.isAbsolute && first = ".")) then [] else first :: rest

/-- The path without its last component, if it has one. -/
def parent? (p : Path) : Option Path :=
  match p.trimEnd p.parts with
  | [] => none
  | parts =>
    let parts := p.trimEnd parts.dropLast
    some { p with parts := if parts.isEmpty then [""] else parts }

/-- The parts before the last that is not empty, that one, and whether a slash follows it. -/
def splitLast (p : Path) : List String × String × Bool :=
  let parts := (p.parts.reverse.dropWhile (· = "")).reverse
  (parts.dropLast, parts.getLast?.getD "", decide (parts.length < p.parts.length))

/-- What is left of parts after components, if they begin with them. -/
def dropComponents : List String → List String → Option (List String)
  | [], parts => some parts
  | _ :: _, [] => none
  | component :: components, part :: parts =>
    if isIdle part then dropComponents (component :: components) parts
    else if part = component then dropComponents components parts
    else none

/-- Parts without the idle ones at their start and at their end. -/
def trimmed (parts : List String) : List String :=
  ((parts.dropWhile isIdle).reverse.dropWhile isIdle).reverse

/-- The text of a path as seen from a base: what follows the base, or the whole path if it does not
lie below. -/
def relativeText (p base : Path) : String :=
  if p.isAbsolute = base.isAbsolute ∧ p.isDotted = base.isDotted then
    match dropComponents base.components p.parts with
    | some parts => "/".intercalate (trimmed parts)
    | none => p.text
  else p.text

end Path

/-! ## File names -/

namespace FileName

/-- A file name before and after its last dot. A name whose only dot is its first character has no
extension. -/
def split (name : String) : String × Option String :=
  let afterDot := name.toList.reverse.takeWhile (· ≠ '.')
  let before := name.toList.take (name.length - afterDot.length - 1)
  if before.isEmpty || afterDot.length = name.length then (name, none)
  else (String.ofList before, some (String.ofList afterDot.reverse))

/-- The part of a file name after its last dot. -/
def extension? (name : String) : Option String := (split name).2

/-- The part of a file name before its last dot. -/
def stem (name : String) : String := (split name).1

end FileName

end SwiftRelations
