import SwiftRelations.Extraction.Output

/-!
# Tree listings

The listing of a tree as a text, one line for each node in preorder. The fields of a line stand
between tabs: the kind, `named` or `token`, the first byte and the byte after the last, the field
name in the parent or nothing, and the number of children. More fields name the descendants that
answer for fields: a field name, the sign of equality, and a place in the listing or nothing. A line
`errors` in front says that the tree has errors.

The program has no such listings: they stand for its parser.
-/

namespace SwiftRelations.Source

/-- A field name and the descendant that answers for it. -/
def readAnswer? (text : String) : Option (String × Option Nat) :=
  match text.splitOn "=" with
  | [name, ""] => some (name, none)
  | [name, index] => index.toNat?.map fun n => (name, some n)
  | _ => none

/-- A line of a listing. -/
def readRow? (line : String) : Option TreeRow :=
  match line.splitOn "\t" with
  | kind :: named :: start :: stop :: field :: childCount :: answers => do
    return {
      kind
      named := named = "named"
      start := ← start.toNat?
      stop := ← stop.toNat?
      field := if field.isEmpty then none else some field
      childCount := ← childCount.toNat?
      fieldAnswers := ← answers.mapM readAnswer? }
  | _ => none

/-- The tree of a file by its listing. -/
def listedTree? (source : Source) (listing : String) : Option ParsedFile := do
  let lines := (listing.splitOn "\n").filter (!·.isEmpty)
  let hasErrors := lines.head? = some "errors"
  let rows ← (if hasErrors then lines.drop 1 else lines).mapM readRow?
  let tree ← Tree.ofRows? source rows
  return { tree, hasErrors }

end SwiftRelations.Source
