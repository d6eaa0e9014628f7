import SwiftRelations.Extraction.Output

/-!
# Reports for programs

Two forms of the same outputs: trap, one line for each fact under a comment line for each file, and
JSON, with the diagnostics too.

They follow `write_trap` and `write_json`, with `JsonReport` and `JsonFile`.
-/

namespace SwiftRelations

open SwiftRelations.Text

namespace Report

/-- The version that reports name. -/
def version : String := "0.1.0"

/-- The trap lines of a file. -/
def trapLines (output : Output) : List String :=
  ("// " ++ output.path) :: output.facts.map (·.trap)

/-- The trap report, one file after another. -/
def trap (outputs : List Output) : String :=
  String.join ((outputs.flatMap trapLines).map (· ++ "\n"))

/-- The JSON form of a span. -/
def spanJson (span : Span) : Json :=
  .object [("start_byte", .int span.startByte), ("end_byte", .int span.endByte),
    ("start_line", .int span.startLine), ("start_col", .int span.startCol),
    ("end_line", .int span.endLine), ("end_col", .int span.endCol)]

/-- The JSON form of a diagnostic. One without a span has no such field. -/
def diagnosticJson (d : Diagnostic) : Json :=
  .object ([("label", .string d.label.text), ("category", .string d.category.word),
    ("kind", .string d.kind), ("message", .string d.message),
    ("severity", .string d.severity.word)] ++
    match d.span with
    | some span => [("span", spanJson span)]
    | none => [])

/-- The JSON form of the output of a file. -/
def outputJson (output : Output) : Json :=
  .object [("path", .string output.path), ("labels", .int output.labelCount),
    ("has_parse_errors", .bool output.hasParseErrors),
    ("facts", .array (output.facts.map (·.toJson))),
    ("diagnostics", .array (output.diagnostics.map diagnosticJson))]

/-- The JSON report. -/
def json (outputs : List Output) : String :=
  (Json.object [("version", .string version), ("files", .array (outputs.map outputJson))]).pretty ++
    "\n"

end Report

end SwiftRelations
