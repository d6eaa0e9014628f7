import SwiftRelations.Types.Token

/-!
# The shape of a type

A type annotation is read into its shape, in which equal types have one form whatever their
spelling: `Optional<T>` and `T!` are `T?`, `Array<T>` and `T...` are `[T]`, `Dictionary<K, V>` is
`[K: V]`, `Void` is `()`, a parenthesised type is the type. Attributes, ownership words, effects
and labels leave no trace.

The grammar, over the tokens of the text:

* type: modifiers, a suffixed type, effect words, and perhaps an arrow with another type;
* suffixed type: a primary type and any number of `...`, `?` and `!`;
* primary type: `[type]`, `[type: type]`, a parenthesised list of types that may carry labels, or
  a name that may have arguments between `<` and `>`.

Shapes follow `TypeShape`, and their reading `parse_type_text`: `parse_type`, `parse_postfix` and
`parse_primary` of `TypeTextParser`, with `skip_words`, `skip_attributes`, `arrow_follows`,
`skip_element_label` and `desugar`.
-/

namespace SwiftRelations.Types

open SwiftRelations.Text

/-- The structure of a type, its spelling left out. -/
inductive Shape where
  /-- A type given by its name, with its generic arguments. -/
  | named (name : String) (args : List Shape)
  | optional (base : Shape)
  | array (element : Shape)
  | dictionary (key value : Shape)
  | tuple (elements : List Shape)
  | function (params : List Shape) (result : Shape)
  deriving Repr, Inhabited

/-- Words before a type that do not change which type it is. -/
def modifierWords : List String :=
  ["inout", "some", "any", "borrowing", "consuming", "__owned", "__shared"]

/-- Words between the parameters of a function type and its arrow. -/
def effectWords : List String :=
  ["async", "throws", "rethrows"]

namespace Shape

/-- The shape of the named type `name<args>`: the long spellings of optionals, arrays,
dictionaries and the empty tuple mean the same as the short ones. -/
def ofName (name : String) (args : List Shape) : Shape :=
  match (dropStart? name "Swift.").getD name, args with
  | "Optional", [base] => .optional base
  | "ImplicitlyUnwrappedOptional", [base] => .optional base
  | "Array", [element] => .array element
  | "Dictionary", [key, value] => .dictionary key value
  | "Void", [] => .tuple []
  | _, args => .named name args

/-- The parameter types that the type before an arrow stands for. -/
def asParams : Shape → List Shape
  | .tuple elements => elements
  | other => [other]

/-- The tokens after any attributes and modifier words. An `@` may stand without a name. -/
def skipModifiers : List Token → List Token
  | .mark '@' :: .name _ :: rest => skipModifiers rest
  | .mark '@' :: rest => skipModifiers rest
  | .name word :: rest =>
    if word ∈ modifierWords then skipModifiers rest else .name word :: rest
  | rest => rest

/-- The tokens after any effect words. -/
def skipEffects : List Token → List Token
  | .name word :: rest => if word ∈ effectWords then skipEffects rest else .name word :: rest
  | rest => rest

/-- The tokens after the label of a tuple element, `x:` or `_ x:`, if there is one. -/
def skipLabel : List Token → List Token
  | .name _ :: .mark ':' :: rest => rest
  | .name _ :: .name _ :: .mark ':' :: rest => rest
  | rest => rest

/-- Whether effect words and an arrow follow. -/
def arrowFollows (tokens : List Token) : Bool :=
  match skipEffects tokens with
  | .arrow :: _ => true
  | _ => false

/-- `shape` with the suffixes `...`, `?` and `!` that follow it applied, and the tokens after
them. -/
def suffixed (shape : Shape) : List Token → Shape × List Token
  | .ellipsis :: rest => suffixed (.array shape) rest
  | .mark '?' :: rest => suffixed (.optional shape) rest
  | .mark '!' :: rest => suffixed (.optional shape) rest
  | rest => (shape, rest)

/-- A reader of some leading tokens: what it read, and the tokens after it. -/
abbrev Reader := List Token → Option (Shape × List Token)

/-- One or more types with commas between them up to the closing mark `close`. The fuel bounds
their number. -/
def separated (item : Reader) (close : Char) : Nat → List Token → Option (List Shape × List Token)
  | 0, _ => none
  | fuel + 1, tokens => do
    let (first, rest) ← item tokens
    match rest with
    | .mark c :: rest =>
      if c = ',' then
        let (others, rest) ← separated item close fuel rest
        some (first :: others, rest)
      else if c = close then some ([first], rest)
      else none
    | _ => none

/-- A primary type, given a reader for the types inside it. One type in parentheses is that type,
unless the parentheses hold the parameters of a function type. -/
def primary (type : Reader) : Reader
  | .mark '[' :: rest => do
    let (first, rest) ← type rest
    match rest with
    | .mark ':' :: rest =>
      let (value, rest) ← type rest
      match rest with
      | .mark ']' :: rest => some (.dictionary first value, rest)
      | _ => none
    | .mark ']' :: rest => some (.array first, rest)
    | _ => none
  | .mark '(' :: .mark ')' :: rest => some (.tuple [], rest)
  | .mark '(' :: rest => do
    let (elements, rest) ← separated (type ∘ skipLabel) ')' rest.length rest
    match elements with
    | [single] => some (if arrowFollows rest then .tuple [single] else single, rest)
    | _ => some (.tuple elements, rest)
  | .name name :: .mark '<' :: rest => do
    let (args, rest) ← separated type '>' rest.length rest
    some (ofName name args, rest)
  | .name name :: rest => some (ofName name [], rest)
  | _ => none

/-- A type, given a reader for the types inside it. -/
def step (type : Reader) : Reader := fun tokens => do
  let (base, rest) ← primary type (skipModifiers tokens)
  let (base, rest) := suffixed base rest
  match skipEffects rest with
  | .arrow :: rest =>
    let (result, rest) ← type rest
    some (.function base.asParams result, rest)
  | rest => some (base, rest)

/-- A type at the front of some tokens. The fuel bounds how deep types may nest. -/
def read : Nat → Reader
  | 0, _ => none
  | fuel + 1, tokens => step (read fuel) tokens

/-- The shape that a whole list of tokens spells. Every nested type begins after a token of the
type around it, so the number of tokens bounds the nesting. -/
def ofTokens? (tokens : List Token) : Option Shape :=
  match read (tokens.length + 1) tokens with
  | some (shape, []) => some shape
  | _ => none

/-- The shape of the type that `text` spells, or nothing when it spells none. -/
def ofText? (text : String) : Option Shape :=
  ofTokens? (Token.scan text.toList)

end Shape

end SwiftRelations.Types
