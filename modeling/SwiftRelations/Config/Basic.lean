import SwiftRelations.Extraction.Output
import SwiftRelations.Glob.Match
import SwiftRelations.Text.Quoted

/-!
# Configurations

What a project may choose: which files are extracted, and how their facts are reported. The output
format and the patterns for excluded paths are texts that need not be valid; `Config.fault?` finds
the first that is not.

It follows `Config` with its defaults, `validate`, `excluded_matcher`, `is_path_excluded` and
`visitor_options`.
-/

namespace SwiftRelations

/-- The forms of a report. -/
inductive Format where
  | pretty
  | json
  | trap
  deriving DecidableEq, Repr, Inhabited

/-- The word for a format. -/
def Format.word : Format → String
  | .pretty => "pretty"
  | .json => "json"
  | .trap => "trap"

/-- All formats. -/
def Format.all : List Format := [.pretty, .json, .trap]

/-- The format that a word stands for. -/
def Format.ofWord? (word : String) : Option Format := Format.all.find? (·.word = word)

/-- A configuration. -/
structure Config where
  version : String := ""
  name : String := ""
  /-- Whether test files are extracted too. -/
  includeTestFiles : Bool := false
  /-- Patterns for the paths that are not extracted. -/
  excludedPaths : List String := []
  /-- Whether places are facts. -/
  emitLocations : Bool := true
  parallel : Bool := true
  /-- The word for the format of the report. -/
  output : String := "pretty"
  deriving DecidableEq, Repr, Inhabited

namespace Config

/-- What makes a configuration unusable. -/
inductive Fault where
  | unknownOutput (output : String)
  | badPattern (pattern : String) (fault : Glob.Fault)
  deriving DecidableEq, Repr, Inhabited

/-- The message for a fault. -/
def Fault.message : Fault → String
  | .unknownOutput output =>
    "invalid output " ++ Text.quoted output ++ ", must be one of " ++
      ", ".intercalate (Format.all.map (·.word))
  | .badPattern pattern fault =>
    "invalid excluded_paths pattern " ++ Text.quoted pattern ++ ": " ++ fault.message pattern

/-- The patterns for excluded paths, or the first that is not one. -/
def exclusions (config : Config) : Except Fault (List (List Glob.Piece)) :=
  config.excludedPaths.mapM fun pattern =>
    (Glob.readPattern pattern).mapError (.badPattern pattern)

/-- Whether one of the patterns matches a path. -/
def anyMatches (patterns : List (List Glob.Piece)) (path : String) : Bool :=
  patterns.any fun pattern => Glob.matchesPath pattern path

/-- Whether a path is excluded. Patterns of which one is not valid exclude nothing. -/
def excludes (config : Config) (path : String) : Bool :=
  match config.exclusions with
  | .ok patterns => anyMatches patterns path
  | .error _ => false

/-- The first fault of a configuration, if it has one. -/
def fault? (config : Config) : Option Fault :=
  match Format.ofWord? config.output, config.exclusions with
  | none, _ => some (.unknownOutput config.output)
  | some _, .error fault => some fault
  | some _, .ok _ => none

/-- The options of an extraction. -/
def extractionOptions (config : Config) : ExtractionOptions where
  emitLocations := config.emitLocations

end Config

end SwiftRelations
