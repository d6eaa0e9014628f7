import SwiftRelations.Report.Lines

/-!
# The report for readers

A summary of a run for a terminal: a line for each file with the number of its facts and labels, a
line for each diagnostic, and totals. It may be coloured.

It follows `write_pretty`, `write_file_summary`, `write_severity_tag` and `write_totals`. The
colours are the documented behaviour of the library colored.
-/

namespace SwiftRelations.Report

/-- The styles of a coloured text. -/
inductive Style where
  | bold
  | dimmed
  | red
  | green
  | yellow
  | blue
  /-- Cyan and bold. -/
  | title
  deriving DecidableEq, Repr, Inhabited

/-- The control sequence that ends a style. -/
def reset : String := "\x1b[0m"

/-- The control sequence that begins a style. -/
def Style.start : Style → String
  | .bold => "\x1b[1m"
  | .dimmed => "\x1b[2m"
  | .red => "\x1b[31m"
  | .green => "\x1b[32m"
  | .yellow => "\x1b[33m"
  | .blue => "\x1b[34m"
  | .title => "\x1b[1;36m"

/-- A text in a style, if colours are wanted. Where the text itself ends all styles, the style
begins anew. -/
def paint (color : Bool) (style : Style) (text : String) : String :=
  if color then style.start ++ text.replace reset (reset ++ style.start) ++ reset else text

/-- The mark of a file: whether it has syntax errors, or else diagnostics. -/
def statusMark (color : Bool) (output : Output) : String :=
  if output.hasParseErrors then paint color .red "✗"
  else if output.diagnostics.isEmpty then paint color .green "✓"
  else paint color .yellow "!"

/-- The tag of a severity. All tags are of one width. -/
def severityTag (color : Bool) : Severity → String
  | .error => paint color .red "ERROR"
  | .warning => paint color .yellow "WARN "
  | .info => paint color .blue "INFO "

/-- The line of a diagnostic. -/
def diagnosticLine (color : Bool) (path : String) (d : Diagnostic) : String :=
  let place := match d.span with
    | some span => ":" ++ toString span.startLine
    | none => ""
  "      " ++ severityTag color d.severity ++ " " ++ path ++ paint color .dimmed place ++ "  " ++
    d.message ++ " " ++ paint color .dimmed d.label.text ++ "\n"

/-- The lines of a file. -/
def fileLines (color : Bool) (output : Output) : String :=
  let counts :=
    toString output.facts.length ++ " facts, " ++ toString output.labelCount ++ " labels"
  "  " ++ statusMark color output ++ " " ++ paint color .blue output.path ++ "  " ++
    paint color .dimmed counts ++ "\n" ++
    String.join (output.diagnostics.map (diagnosticLine color output.path))

/-- The number of diagnostics of each severity that has any, gravest first. -/
def severityCounts (outputs : List Output) : List (Severity × Nat) :=
  let all := outputs.flatMap (·.diagnostics)
  [Severity.error, .warning, .info].filterMap fun severity =>
    let count := all.countP (·.severity = severity)
    if count = 0 then none else some (severity, count)

/-- The lines of the totals. -/
def totalLines (color : Bool) (outputs : List Output) : String :=
  let facts := outputs.foldl (fun n output => n + output.facts.length) 0
  let labels := outputs.foldl (fun n output => n + output.labelCount) 0
  let counts := severityCounts outputs
  "\n  " ++ paint color .bold "Extracted" ++ " " ++ toString outputs.length ++ " files, " ++
    toString facts ++ " facts, " ++ toString labels ++ " labels\n" ++
    if counts.isEmpty then ""
    else
      "  " ++ paint color .bold "Diagnostics" ++ " " ++
        ", ".intercalate (counts.map fun (severity, count) =>
          toString count ++ " " ++ severity.word) ++ "\n"

/-- The report for readers of what was found under `root`. -/
def pretty (color : Bool) (root : String) (configPath : Option String) (outputs : List Output) :
    String :=
  "\n  " ++ paint color .title "swiftfacts" ++ " v" ++ version ++ "\n\n  " ++
    paint color .dimmed "Extracting: " ++ root ++ "\n  " ++
    paint color .dimmed "Config:     " ++ configPath.getD "(defaults)" ++ "\n\n" ++
    String.join (outputs.map (fileLines color)) ++ totalLines color outputs ++ "\n"

end SwiftRelations.Report
