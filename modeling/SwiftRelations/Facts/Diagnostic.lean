import SwiftRelations.Facts.Label
import SwiftRelations.Source.Span

/-!
# Diagnostics

A diagnostic reports a node that is not modelled: a syntax error, a type that could not be
resolved, or a construct without facts of its own.

It follows `Severity` and `Diagnostic` with its `classify`, and the way in which each is shown.
-/

namespace SwiftRelations

/-- How grave a diagnostic is. -/
inductive Severity where
  | error
  | warning
  | info
  deriving DecidableEq, Repr, Inhabited

/-- The word for a severity. -/
def Severity.word : Severity → String
  | .error => "error"
  | .warning => "warning"
  | .info => "info"

/-- A report on one node. -/
structure Diagnostic where
  label : Label
  category : Category
  /-- The word for the kind of the node, such as `dictionary_literal` or `ERROR`. -/
  kind : String
  message : String
  severity : Severity
  span : Option Span
  deriving DecidableEq, Repr, Inhabited

namespace Diagnostic

/-- How grave it is that a node of some kind is not modelled, and what is said of it. -/
def classify (category : Category) (kind : String) : Severity × String :=
  if kind = "ERROR" then (.error, "syntax error")
  else if category = .type then (.info, "type `" ++ kind ++ "` could not be resolved")
  else (.warning, "unsupported " ++ category.word ++ " `" ++ kind ++ "`")

/-- The line that shows a diagnostic. -/
def text (d : Diagnostic) : String :=
  let place := match d.span with
    | some span => toString span.startLine ++ ":" ++ toString span.startCol
    | none => "-"
  place ++ ": " ++ d.severity.word ++ " [" ++ d.label.text ++ "] " ++ d.message

end Diagnostic

end SwiftRelations
