import SwiftRelations.Extraction.Walk
import SwiftRelations.Lowering.File

/-!
# Extraction of a file

The facts of a file are those of its top-level declarations and all they refer to, in source order.

It follows `extract_lowered` and `extract_source`, with `ExtractionOutput` and its `is_clean`.
-/

namespace SwiftRelations

namespace Extraction

/-- Visit a node: its label, and the run after it. -/
def Run.extract (ast : Ast) (options : ExtractionOptions) (run : Run) (node : Node) :
    Except Collision (Label × Run) := do
  let run ← walk ast options run [.visit node]
  return (run.labelOf node.key, run)

/-- Visit nodes in order: their labels, and the run after them. -/
def Run.extractAll (ast : Ast) (options : ExtractionOptions) (run : Run) :
    List Node → Except Collision (List Label × Run)
  | [] => .ok ([], run)
  | node :: nodes => do
    let (label, run) ← run.extract ast options node
    let (labels, run) ← run.extractAll ast options nodes
    return (label :: labels, run)

end Extraction

/-- The result of extracting one file. -/
structure Output where
  /-- The path of the file, as it is shown. -/
  path : String := ""
  facts : List (Fact Label)
  diagnostics : List Diagnostic
  /-- The number of labels given out. -/
  labelCount : Nat
  hasParseErrors : Bool := false
  deriving Repr, Inhabited

/-- Whether nothing had to be reported. -/
def Output.isClean (output : Output) : Bool :=
  output.diagnostics.isEmpty && !output.hasParseErrors

/-- The result of a run. -/
def Extraction.Run.output (run : Extraction.Run) : Output where
  facts := run.facts.toList
  diagnostics := run.diagnostics.toList
  labelCount := run.registry.size

/-- The result of extracting a lowered file: its top-level declarations are the roots. -/
def LoweredFile.extract (file : LoweredFile) (options : ExtractionOptions) :
    Except Collision Output := do
  let (_, run) ← ({} : Extraction.Run).extractAll file.ast options (file.topLevel.map .decl)
  return { run.output with hasParseErrors := file.hasParseErrors }

/-- What can stop the extraction of a file that could be read. -/
inductive ExtractionError where
  | lowering (fault : Lowering.Fault)
  | labelling (collision : Collision)
  deriving DecidableEq, Repr, Inhabited

/-- A file as it is given to the extraction: its bytes are those of a concrete syntax tree. -/
structure ParsedFile where
  tree : Tree
  /-- Whether the tree has an error or a missing node. -/
  hasErrors : Bool
  deriving Inhabited

/-- The result of extracting a file that is shown under a path. -/
def ParsedFile.extract (file : ParsedFile) (path : String) (options : ExtractionOptions) :
    Except ExtractionError Output := do
  let lowered ← (file.tree.lower file.hasErrors).mapError .lowering
  let output ← (lowered.extract options).mapError .labelling
  return { output with path }

end SwiftRelations
