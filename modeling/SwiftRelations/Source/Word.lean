import SwiftRelations.Extraction.Output
import SwiftRelations.Text.Letter

/-!
# Files of a single word

The trees of files that come with none, as far as they are known without a parser: of those that
are blank, and of those that hold one name or one number and nothing else. This is an assumption
about the grammar of the parser, which is no part of this library: that it takes the characters of
`beginsName` and `continuesName` for those of names, and the words listed here for no names. It only
stands in where a tree is not given, and nothing that is proved relies on it.
-/

namespace SwiftRelations.Source

/-- The words that are no names. -/
def reservedWords : List String := [
  "Any", "Self", "as", "associatedtype", "await", "break", "case", "catch", "class", "continue",
  "default", "defer", "deinit", "do", "else", "enum", "extension", "fallthrough", "false",
  "fileprivate", "for", "func", "guard", "if", "import", "in", "init", "inout", "internal", "is",
  "let", "nil", "operator", "precedencegroup", "private", "protocol", "public", "repeat",
  "rethrows", "return", "self", "static", "struct", "subscript", "super", "switch", "throw", "throws", "true",
  "try", "typealias", "var", "where", "while"]

/-- The kind of tree node that a word makes up, if it is a name or a number. -/
def wordKind? : List Char → Option String
  | [] => none
  | c :: cs =>
    if (c :: cs).all Char.isDigit then some "integer_literal"
    else if Text.beginsName c && cs.all Text.continuesName &&
        !reservedWords.contains (String.ofList (c :: cs)) then some "simple_identifier"
    else none

/-- Whether a byte is white space. -/
def isBlankByte (b : UInt8) : Bool := b = 0x20 || (9 ≤ b && b ≤ 13)

/-- The number of bytes of white space that a list begins with. -/
def blankLength (bytes : List UInt8) : Nat := (bytes.takeWhile isBlankByte).length

/-- A node of a listing that has no field name. -/
def bareRow (kind : String) (start stop childCount : Nat) : TreeRow :=
  { kind, named := true, start, stop, field := none, childCount }

/-- The listing of a file of at most one word. -/
def wordRows? (source : Source) : Option (List TreeRow) :=
  let bytes := source.bytes.toList
  let size := bytes.length
  let start := blankLength bytes
  let stop := size - blankLength bytes.reverse
  if start = size then some [bareRow "source_file" size size 0]
  else
    (wordKind? (source.text start stop).toList).map fun kind =>
      [bareRow "source_file" start size 1, bareRow kind start stop 0]

/-- The tree of a file of at most one word. -/
def wordTree? (source : Source) : Option ParsedFile := do
  let rows ← source.wordRows?
  let tree ← Tree.ofRows? source rows
  return { tree, hasErrors := false }

end SwiftRelations.Source
