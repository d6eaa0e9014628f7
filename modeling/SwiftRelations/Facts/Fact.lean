import SwiftRelations.Facts.Label
import SwiftRelations.Text.Json

/-!
# Facts

A fact is a named relation over nodes and scalars, such as `func_decls(#3, "main")`. The nodes in
it are labels when it is written, and identities when a node is described; so facts are generic in
what stands for a node.

They follow `FactValue` and `Fact` with its `subject` and `labels`. The trap form follows the way in
which they are shown, with `escape`, and the JSON form the way in which the library serde_json
writes them.
-/

namespace SwiftRelations

open SwiftRelations.Text

/-- An argument of a fact over nodes given as `ν`. -/
inductive Value (ν : Type) where
  | node (n : ν)
  | string (s : String)
  | int (n : Int)
  | bool (b : Bool)
  deriving DecidableEq, Repr, Inhabited

/-- A relation between nodes given as `ν` and scalars. -/
structure Fact (ν : Type) where
  relation : String
  args : List (Value ν)
  deriving DecidableEq, Repr, Inhabited

/-- The argument with its node given otherwise. -/
def Value.map (f : ν → μ) : Value ν → Value μ
  | .node n => .node (f n)
  | .string s => .string s
  | .int n => .int n
  | .bool b => .bool b

/-- The node of an argument. -/
def Value.node? : Value ν → Option ν
  | .node n => some n
  | _ => none

namespace Fact

/-- The fact with its nodes given otherwise. -/
def map (f : ν → μ) (fact : Fact ν) : Fact μ :=
  { relation := fact.relation, args := fact.args.map (·.map f) }

/-- The node the fact is about: its first argument. -/
def subject? (fact : Fact ν) : Option ν := fact.args.head?.bind (·.node?)

/-- The nodes the fact mentions, in order. -/
def nodes (fact : Fact ν) : List ν := fact.args.filterMap (·.node?)

end Fact

/-- A character as it stands inside a quoted argument. -/
def trapChar (c : Char) : List Char :=
  if c = '"' then ['\\', '"']
  else if c = '\\' then ['\\', '\\']
  else if c = '\n' then ['\\', 'n']
  else if c = '\r' then ['\\', 'r']
  else if c = '\t' then ['\\', 't']
  else [c]

/-- The text of an argument on a trap line. -/
def Value.trap : Value Label → String
  | .node label => label.text
  | .string s => "\"" ++ String.ofList (s.toList.flatMap trapChar) ++ "\""
  | .int n => toString n
  | .bool b => if b then "true" else "false"

/-- The trap line of a fact. -/
def Fact.trap (fact : Fact Label) : String :=
  fact.relation ++ "(" ++ ", ".intercalate (fact.args.map (·.trap)) ++ ")"

/-- The JSON form of an argument. A label is the string of its written form. -/
def Value.toJson : Value Label → Json
  | .node label => .string label.text
  | .string s => .string s
  | .int n => .int n
  | .bool b => .bool b

/-- The JSON form of a fact. -/
def Fact.toJson (fact : Fact Label) : Json :=
  .object [("relation", .string fact.relation), ("args", .array (fact.args.map (·.toJson)))]

/-- The JSON text of a fact, on one line. -/
def Fact.json (fact : Fact Label) : String := fact.toJson.compact

end SwiftRelations
