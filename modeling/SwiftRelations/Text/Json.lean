/-!
# JSON texts

A JSON string is the text between quotes, with the quote, the backslash and the control characters
escaped and all else as it is. A JSON value is written on one line without white space, or over
many lines, each level indented by two spaces.

The texts are those that the library serde_json writes.
-/

namespace SwiftRelations.Text

/-- The lower-case hexadecimal digit of a number below 16. -/
def hexDigit (n : Nat) : Char :=
  if n < 10 then Char.ofNat (48 + n) else Char.ofNat (87 + n)

/-- A character as it stands inside a JSON string. -/
def jsonChar (c : Char) : List Char :=
  if c = '"' then ['\\', '"']
  else if c = '\\' then ['\\', '\\']
  else if c = '\n' then ['\\', 'n']
  else if c = '\r' then ['\\', 'r']
  else if c = '\t' then ['\\', 't']
  else if c.toNat = 8 then ['\\', 'b']
  else if c.toNat = 12 then ['\\', 'f']
  else if c.toNat < 0x20 then
    ['\\', 'u', '0', '0', hexDigit (c.toNat / 16), hexDigit (c.toNat % 16)]
  else [c]

/-- A JSON string. -/
def jsonString (s : String) : String :=
  "\"" ++ String.ofList (s.toList.flatMap jsonChar) ++ "\""

/-- A JSON value whose numbers are integers. The fields of an object keep their order. -/
inductive Json where
  | string (s : String)
  | int (n : Int)
  | bool (b : Bool)
  | array (items : List Json)
  | object (fields : List (String × Json))
  deriving Inhabited

namespace Json

mutual

/-- A value on one line. -/
def compact : Json → String
  | .string s => jsonString s
  | .int n => toString n
  | .bool b => if b then "true" else "false"
  | .array items => "[" ++ ",".intercalate (compactItems items) ++ "]"
  | .object fields => "\x7b" ++ ",".intercalate (compactFields fields) ++ "\x7d"

/-- The items of an array, each on one line. -/
def compactItems : List Json → List String
  | [] => []
  | item :: items => compact item :: compactItems items

/-- The fields of an object, each on one line. -/
def compactFields : List (String × Json) → List String
  | [] => []
  | (name, value) :: fields => (jsonString name ++ ":" ++ compact value) :: compactFields fields

end

/-- The white space at the start of a line of some level. -/
def indent (level : Nat) : String := String.ofList (List.replicate (2 * level) ' ')

/-- Lines of a level between brackets of the level around it. Nothing between them stays on the
line. -/
def bracketed (opening closing : String) (level : Nat) : List String → String
  | [] => opening ++ closing
  | lines =>
    opening ++ "\n" ++ ",\n".intercalate (lines.map (indent (level + 1) ++ ·)) ++ "\n" ++
      indent level ++ closing

mutual

/-- A value over many lines, which begins on a line of some level. -/
def prettyAt (level : Nat) : Json → String
  | .string s => jsonString s
  | .int n => toString n
  | .bool b => if b then "true" else "false"
  | .array items => bracketed "[" "]" level (prettyItems (level + 1) items)
  | .object fields => bracketed "\x7b" "\x7d" level (prettyFields (level + 1) fields)

/-- The items of an array over many lines. -/
def prettyItems (level : Nat) : List Json → List String
  | [] => []
  | item :: items => prettyAt level item :: prettyItems level items

/-- The fields of an object over many lines. -/
def prettyFields (level : Nat) : List (String × Json) → List String
  | [] => []
  | (name, value) :: fields =>
    (jsonString name ++ ": " ++ prettyAt level value) :: prettyFields level fields

end

/-- A value over many lines. -/
def pretty (json : Json) : String := prettyAt 0 json

end Json

end SwiftRelations.Text
