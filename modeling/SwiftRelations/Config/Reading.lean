import SwiftRelations.Config.Basic
import SwiftRelations.Yaml.Document

/-!
# Configuration texts

A configuration is written as a YAML mapping. A field may be left out, fields of other names are
ignored, and no field may be given twice.

It follows `parse_str` of `Config`. Which nodes are read as texts, booleans and lists is the
documented behaviour of the library serde_yaml.
-/

namespace SwiftRelations.Config

open SwiftRelations.Yaml

/-- The fields of a configuration. -/
inductive Field where
  | version
  | name
  | includeTestFiles
  | excludedPaths
  | emitLocations
  | parallel
  | output
  deriving DecidableEq, Repr, Inhabited

/-- The key of a field. -/
def Field.key : Field → String
  | .version => "version"
  | .name => "name"
  | .includeTestFiles => "include_test_files"
  | .excludedPaths => "excluded_paths"
  | .emitLocations => "emit_locations"
  | .parallel => "parallel"
  | .output => "output"

/-- The field that a key stands for. -/
def Field.ofKey? (key : String) : Option Field :=
  [Field.version, .name, .includeTestFiles, .excludedPaths, .emitLocations, .parallel,
    .output].find? (·.key = key)

/-- The truth value that a word stands for. -/
def truth? (word : String) : Option Bool :=
  if ["true", "True", "TRUE"].contains word then some true
  else if ["false", "False", "FALSE"].contains word then some false
  else none

/-- Whether a text is a number without leading zeros, and whether it has a fraction. -/
def number? (text : String) : Option Bool :=
  let digits := match text.toList with
    | '-' :: cs => cs
    | '+' :: cs => cs
    | cs => cs
  let whole := digits.takeWhile Char.isDigit
  match digits.dropWhile Char.isDigit with
  | [] => if whole.isEmpty || (1 < whole.length && whole.head? = some '0') then none else some false
  | '.' :: fraction => if !whole.isEmpty && fraction.all Char.isDigit then some true else none
  | _ => none

/-- What a plain scalar is called in messages. -/
def plainWord (text : String) : String :=
  if ["", "~", "null", "Null", "NULL"].contains text then "unit value"
  else
    match truth? text, number? text with
    | some b, _ => "boolean " ++ (if b then "`true`" else "`false`")
    | none, some false => "integer `" ++ text ++ "`"
    | none, some true => "floating point `" ++ text ++ "`"
    | none, none => "string " ++ Text.quoted text

/-- What a node is called in messages. -/
def nodeWord : Yaml.Node → String
  | .scalar _ text .plain => plainWord text
  | .scalar _ text _ => "string " ++ Text.quoted text
  | .sequence .. => "sequence"
  | .mapping .. => "map"
  | .alias .. => "alias"

/-- The fault of a node that is not what is expected at some path. -/
def misplaced (path : String) (node : Yaml.Node) (expected : String) : Yaml.Fault where
  problem := (if path.isEmpty then "" else path ++ ": ") ++ "invalid type: " ++ nodeWord node ++
    ", expected " ++ expected
  mark := node.mark

/-- A text: the text of any scalar. -/
def readText (path expected : String) : Yaml.Node → Except Yaml.Fault String
  | .scalar _ text _ => .ok text
  | node => .error (misplaced path node expected)

/-- The tag of truth values. -/
def truthTag : String := "tag:yaml.org,2002:bool"

/-- A truth value: a plain scalar, or a literal one with the tag of truth values. -/
def readTruth (path : String) (node : Yaml.Node) : Except Yaml.Fault Bool :=
  let value := match node with
    | .scalar _ text .plain => truth? text
    | .scalar head text .literal => if head.tag = some truthTag then truth? text else none
    | _ => none
  match value with
  | some b => .ok b
  | none => .error (misplaced path node "a boolean")

/-- The texts of a sequence, whose first has number `n`. -/
def readItems (document : Yaml.Node) (path : String) (n : Nat) :
    List Yaml.Node → Except Yaml.Fault (List String)
  | [] => .ok []
  | item :: items => do
    let text ← readText (path ++ "[" ++ toString n ++ "]") "a string" (item.resolve document)
    return text :: (← readItems document path (n + 1) items)

/-- A list of texts: a sequence, or nothing. -/
def readTexts (document : Yaml.Node) (path : String) (node : Yaml.Node) :
    Except Yaml.Fault (List String) :=
  match node with
  | .sequence _ items => readItems document path 0 items
  | node => if node.isEmpty then .ok [] else .error (misplaced path node "a sequence")

/-- A configuration with a field set to the value that a node has. -/
def setField (config : Config) (document : Yaml.Node) (field : Field) (node : Yaml.Node) :
    Except Yaml.Fault Config :=
  let path := field.key
  match field with
  | .version => return { config with version := ← readText path "a string" node }
  | .name => return { config with name := ← readText path "a string" node }
  | .includeTestFiles => return { config with includeTestFiles := ← readTruth path node }
  | .excludedPaths => return { config with excludedPaths := ← readTexts document path node }
  | .emitLocations => return { config with emitLocations := ← readTruth path node }
  | .parallel => return { config with parallel := ← readTruth path node }
  | .output => return { config with output := ← readText path "a string" node }

/-- A configuration with the fields that the entries of a mapping set. `known` are the fields set
before. -/
def readEntries (document : Yaml.Node) (start : Mark) (config : Config) (known : List Field) :
    List (Yaml.Node × Yaml.Node) → Except Yaml.Fault Config
  | [] => .ok config
  | (key, value) :: entries => do
    let key ← readText "" "field identifier" (key.resolve document)
    match Field.ofKey? key with
    | none => readEntries document start config known entries
    | some field =>
      if known.contains field then
        throw { problem := "duplicate field `" ++ field.key ++ "`", mark := start }
      let config ← config.setField document field (value.resolve document)
      readEntries document start config (field :: known) entries

/-- The configuration that a document is. -/
def ofDocument : Option Yaml.Node → Except Yaml.Fault Config
  | none => .ok {}
  | some (.mapping head entries) =>
    readEntries (.mapping head entries) head.mark {} [] entries
  | some node => if node.isEmpty then .ok {} else .error (misplaced "" node "struct Config")

/-- The configuration that a text is. A text of nothing but white space has the defaults. -/
def ofText (text : String) : Except Yaml.Fault Config := do
  if (Text.trim text).isEmpty then return {}
  let document ← Document.ofText text
  let config ← ofDocument document.root
  if !document.isOnly then
    throw {
      problem := "deserializing from YAML containing more than one document is not supported"
      mark := {} }
  return config

end SwiftRelations.Config
