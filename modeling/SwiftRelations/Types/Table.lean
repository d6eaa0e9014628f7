import SwiftRelations.Types.Shape
import Std.Data.HashMap

/-!
# Interned types

A table holds each type once. A type refers to its parts by their places in the table, and two
types are the same when their canonical names are: `TypeTable.intern` hands out the place of an
equal type if there is one, and else adds the type at the end. Entries are never changed. The
places are looked up by name in an index beside the entries.

It follows `intern_type`, `named_type`, `find_type`, `intern_shape`, `resolve_type_text` and
`canonical_name` of `AstContext`.
-/

namespace SwiftRelations

open SwiftRelations.Text SwiftRelations.Types

/-- The place of a type in its table. -/
structure TypeId where
  index : Nat
  deriving DecidableEq, Hashable, Repr, Inhabited

/-- The structure of a type over the types it is made of. -/
inductive TypeKind where
  /-- A type given by its name, with its generic arguments. -/
  | nominal (name : String) (args : List TypeId)
  | optional (base : TypeId)
  | array (element : TypeId)
  | dictionary (key value : TypeId)
  | tuple (elements : List TypeId)
  | function (params : List TypeId) (result : TypeId)
  /-- The text of an annotation that spells no type. -/
  | unknown (text : String)
  deriving DecidableEq, Repr, Inhabited

/-- The word for a kind of type. -/
def TypeKind.word : TypeKind → String
  | .nominal .. => "nominal"
  | .optional _ => "optional"
  | .array _ => "array"
  | .dictionary .. => "dictionary"
  | .tuple _ => "tuple"
  | .function .. => "function"
  | .unknown _ => "unknown_type"

/-- The types a type is directly made of. -/
def TypeKind.parts : TypeKind → List TypeId
  | .nominal _ args => args
  | .optional base => [base]
  | .array element => [element]
  | .dictionary key value => [key, value]
  | .tuple elements => elements
  | .function params result => params ++ [result]
  | .unknown _ => []

/-- A type with its canonical name. -/
structure TypeEntry where
  kind : TypeKind
  name : String
  deriving DecidableEq, Repr, Inhabited

/-- The types known so far, in the order of their first use. -/
structure TypeTable where
  entries : Array TypeEntry := #[]
  /-- The place of each canonical name. -/
  index : Std.HashMap String TypeId := {}
  deriving Repr, Inhabited

namespace TypeTable

/-- The number of types. -/
def size (table : TypeTable) : Nat := table.entries.size

/-- The type at a place. -/
def get? (table : TypeTable) (id : TypeId) : Option TypeEntry := table.entries[id.index]?

/-- The canonical name of the type at a place. -/
def nameOf (table : TypeTable) (id : TypeId) : String :=
  match table.get? id with
  | some entry => entry.name
  | none => ""

/-- Whether the type at a place is a function type. -/
def isFunction (table : TypeTable) (id : TypeId) : Bool :=
  match table.get? id with
  | some { kind := .function .. , .. } => true
  | _ => false

/-- The names of some types with commas between them. -/
def namesOf (table : TypeTable) (ids : List TypeId) : String :=
  ", ".intercalate (ids.map table.nameOf)

/-- The canonical spelling of a type. Only a function type under a question mark needs
parentheses of its own: every other name ends where its type does. -/
def canonicalName (table : TypeTable) : TypeKind → String
  | .nominal name [] => name
  | .nominal name args => name ++ "<" ++ table.namesOf args ++ ">"
  | .optional base =>
    if table.isFunction base then "(" ++ table.nameOf base ++ ")?" else table.nameOf base ++ "?"
  | .array element => "[" ++ table.nameOf element ++ "]"
  | .dictionary key value => "[" ++ table.nameOf key ++ ": " ++ table.nameOf value ++ "]"
  | .tuple elements => "(" ++ table.namesOf elements ++ ")"
  | .function params result => "(" ++ table.namesOf params ++ ") -> " ++ table.nameOf result
  | .unknown text => trim text

/-- The type with a canonical name. -/
def find? (table : TypeTable) (name : String) : Option TypeId := table.index[name]?

/-- The table with one more type, which the index knows by its name. -/
def add (table : TypeTable) (entry : TypeEntry) : TypeTable where
  entries := table.entries.push entry
  index := table.index.insert entry.name ⟨table.size⟩

/-- The place of a type, which is added to the table if no type has its canonical name. -/
def intern (table : TypeTable) (kind : TypeKind) : TypeId × TypeTable :=
  let name := table.canonicalName kind
  match table.find? name with
  | some id => (id, table)
  | none => (⟨table.size⟩, table.add { kind, name })

/-- The place of the nominal type `name` without arguments. -/
def named (table : TypeTable) (name : String) : TypeId × TypeTable :=
  table.intern (.nominal name [])

mutual

/-- The place of the type with a given shape, its parts first. -/
def internShape (table : TypeTable) : Shape → TypeId × TypeTable
  | .named name args =>
    let (args, table) := internShapes table args
    table.intern (.nominal name args)
  | .optional base =>
    let (base, table) := internShape table base
    table.intern (.optional base)
  | .array element =>
    let (element, table) := internShape table element
    table.intern (.array element)
  | .dictionary key value =>
    let (key, table) := internShape table key
    let (value, table) := internShape table value
    table.intern (.dictionary key value)
  | .tuple elements =>
    let (elements, table) := internShapes table elements
    table.intern (.tuple elements)
  | .function params result =>
    let (params, table) := internShapes table params
    let (result, table) := internShape table result
    table.intern (.function params result)

/-- The places of the types with given shapes, in order. -/
def internShapes (table : TypeTable) : List Shape → List TypeId × TypeTable
  | [] => ([], table)
  | shape :: shapes =>
    let (id, table) := internShape table shape
    let (ids, table) := internShapes table shapes
    (id :: ids, table)

end

/-- The place of the type that an annotation spells. Text that spells no type is an unknown type
of its own, whatever white space stands between its words. -/
def resolve (table : TypeTable) (text : String) : TypeId × TypeTable :=
  match Shape.ofText? text with
  | some shape => table.internShape shape
  | none => table.intern (.unknown (squeeze text))

end TypeTable

end SwiftRelations
