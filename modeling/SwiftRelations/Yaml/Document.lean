import SwiftRelations.Yaml.Node

/-!
# YAML texts

A text holds documents. Only the first is read; that there are more is a fault for who wants one.

This is the documented behaviour of the library serde_yaml.
-/

namespace SwiftRelations.Yaml

/-- The handles that need no directive. -/
def defaultHandles : List (String × String) :=
  [("!", "!"), ("!!", "tag:yaml.org,2002:")]

/-- Whether a token is a directive. -/
def TokenKind.isDirective : TokenKind → Bool
  | .versionDirective .. => true
  | .tagDirective .. => true
  | _ => false

/-- Whether a document has no content before a token. -/
def TokenKind.endsDocument (kind : TokenKind) : Bool :=
  kind.isDirective || kind = .documentStart || kind = .documentEnd || kind = .streamEnd

/-- The directives in front of a document. The fuel bounds the number of tokens. -/
def readDirectives (versionKnown : Bool) : Nat → Read Unit
  | 0 => fail endFault
  | fuel + 1 => do
    let token ← peek
    match token.kind with
    | .versionDirective major minor =>
      if versionKnown then
        fail { problem := "found duplicate %YAML directive", mark := token.start }
      if major ≠ 1 || (minor ≠ 1 && minor ≠ 2) then
        fail { problem := "found incompatible YAML document", mark := token.start }
      drop
      readDirectives true fuel
    | .tagDirective handle start =>
      if ((← get).handles.lookup handle).isSome then
        fail { problem := "found duplicate %TAG directive", mark := token.start }
      modify fun s => { s with handles := (handle, start) :: s.handles }
      drop
      readDirectives versionKnown fuel
    | _ => return ()

/-- The content of a document that begins explicitly, after its directives. -/
def readExplicit (fuel : Nat) : Read Node := do
  let token ← peek
  if token.kind ≠ .documentStart then
    fail { problem := "did not find expected <document start>", mark := token.start }
  drop
  modify fun s => { s with handles := s.handles ++ defaultHandles }
  let next ← peek
  if next.kind.endsDocument then return Node.empty next.start
  readNode .block fuel

/-- The first document, if there is one. -/
def readDocument (fuel : Nat) : Read (Option Node) := do
  let token ← peek
  if token.kind = .streamEnd then return none
  let node ←
    if token.kind.isDirective || token.kind = .documentStart then do
      readDirectives false fuel
      readExplicit fuel
    else do
      modify fun s => { s with handles := defaultHandles }
      readNode .block fuel
  if (← peek).kind = .documentEnd then drop
  return some node

/-- Whether nothing but ends of documents follows. -/
def nothingFollows (s : Reading) : Bool :=
  match s.tokens.dropWhile (·.kind = .documentEnd) with
  | token :: _ => token.kind = .streamEnd
  | [] => false

/-- What there is in a text. -/
structure Document where
  /-- The node that the first document is. -/
  root : Option Node
  /-- Whether the text holds nothing else. -/
  isOnly : Bool
  deriving Inhabited

/-- The first document of a text. -/
def Document.ofText (text : String) : Except Fault Document := do
  let (tokens, fault) := tokens text
  let (root, rest) ← (readDocument (4 * tokens.length + 8)).run { tokens, fault }
  return { root, isOnly := root.isNone || nothingFollows rest }

end SwiftRelations.Yaml
