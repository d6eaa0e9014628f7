import SwiftRelations.Yaml.Stream

/-!
# Documents

The nodes that the tokens of a document make up: scalars, sequences, mappings and aliases. A node
left out is an empty plain scalar.

They are those that the parser of libyaml makes for the library serde_yaml.
-/

namespace SwiftRelations.Yaml

/-- What a node has besides its content. -/
structure NodeHead where
  mark : Mark
  /-- The number of the anchor of the node. -/
  anchor : Option Nat := none
  tag : Option String := none
  deriving Repr, Inhabited

/-- A node of a document. -/
inductive Node where
  | scalar (head : NodeHead) (text : String) (style : ScalarStyle)
  | sequence (head : NodeHead) (items : List Node)
  | mapping (head : NodeHead) (entries : List (Node × Node))
  /-- The node with the anchor of some number. -/
  | alias (mark : Mark) (anchor : Nat)
  deriving Repr, Inhabited

namespace Node

/-- The place of a node. -/
def mark : Node → Mark
  | .scalar head .. => head.mark
  | .sequence head _ => head.mark
  | .mapping head _ => head.mark
  | .alias mark _ => mark

/-- An empty plain scalar. -/
def empty (mark : Mark) : Node := .scalar { mark } "" .plain

/-- Whether a node is an empty plain scalar. -/
def isEmpty : Node → Bool
  | .scalar _ text style => text.isEmpty && style = .plain
  | _ => false

/-- A node, if its anchor has number `n`. -/
def orNone (n : Nat) (head : NodeHead) (node : Node) : Option Node :=
  if head.anchor = some n then some node else none

mutual

/-- The last node in a document whose anchor has number `n`. A collection comes before its parts. -/
def find? (n : Nat) : Node → Option Node
  | .scalar head text style => orNone n head (.scalar head text style)
  | .sequence head items => (findItem? n items).or (orNone n head (.sequence head items))
  | .mapping head entries => (findPart? n entries).or (orNone n head (.mapping head entries))
  | .alias .. => none

/-- The last node in a list of nodes whose anchor has number `n`. -/
def findItem? (n : Nat) : List Node → Option Node
  | [] => none
  | item :: items => (findItem? n items).or (find? n item)

/-- The last node in a list of entries whose anchor has number `n`. -/
def findPart? (n : Nat) : List (Node × Node) → Option Node
  | [] => none
  | (key, value) :: entries => (findPart? n entries).or ((find? n value).or (find? n key))

end

/-- A node of a document, or what it is an alias of. -/
def resolve (node document : Node) : Node :=
  match node with
  | .alias _ anchor => (find? anchor document).getD node
  | _ => node

end Node

/-! ## Reading nodes -/

/-- The state in which a document is read. -/
structure Reading where
  tokens : List Token
  /-- The fault after the tokens. -/
  fault : Option Fault
  /-- The anchors known so far, each name with its number. -/
  anchors : List (String × Nat) := []
  /-- The handles that directives define. -/
  handles : List (String × String) := []
  deriving Inhabited

/-- Reading a part of a document. -/
abbrev Read := StateT Reading (Except Fault)

/-- Stop with a fault. -/
def fail (fault : Fault) : Read α := fun _ => .error fault

/-- The fault of tokens that end too early. -/
def endFault : Fault := { problem := "did not find expected node content", mark := {} }

/-- The next token. -/
def peek : Read Token := do
  let s ← get
  match s.tokens with
  | token :: _ => return token
  | [] => fail (s.fault.getD endFault)

/-- Go over the next token. -/
def drop : Read Unit := modify fun s => { s with tokens := s.tokens.drop 1 }

/-- The number of an anchor: the number of names before it. A name that is known is numbered
anew. -/
def defineAnchor (name : String) : Read Nat := do
  let number := (← get).anchors.length
  modify fun s => { s with
    anchors := (name, number) :: s.anchors.filter (·.1 ≠ name) }
  return number

/-- The properties in front of a node. -/
structure Properties where
  start : Mark
  anchor : Option String := none
  tag : Option (String × String × Mark) := none

/-- The properties in front of a node: an anchor and a tag at most, in either order. -/
def readProperties : Read Properties := do
  let first ← peek
  match first.kind with
  | .anchor name =>
    drop
    let second ← peek
    match second.kind with
    | .tag handle suffix =>
      drop
      return { start := first.start, anchor := name, tag := some (handle, suffix, second.start) }
    | _ => return { start := first.start, anchor := name }
  | .tag handle suffix =>
    drop
    let second ← peek
    let tag := some (handle, suffix, first.start)
    match second.kind with
    | .anchor name =>
      drop
      return { start := first.start, anchor := name, tag }
    | _ => return { start := first.start, tag }
  | _ => return { start := first.start }

/-- The full tag for a handle and a suffix. -/
def expandTag (start : Mark) : String × String × Mark → Read String
  | (handle, suffix, mark) => do
    if handle.isEmpty then return suffix
    match (← get).handles.lookup handle with
    | some head => return head ++ suffix
    | none =>
      fail {
        problem := "found undefined tag handle", mark,
        context := some ("while parsing a node", start) }

/-- The fault of a token that does not fit, found while reading something that began at `start`. -/
def unexpected (token : Token) (context : String) (start : Mark) (problem : String) : Fault :=
  { problem, mark := token.start, context := some (context, start) }

/-- Where nodes are read. -/
inductive Place where
  /-- An entry of a block sequence, or a whole document. -/
  | block
  /-- A key or a value of a block mapping, where a sequence needs no indentation. -/
  | blockMapping
  | flow
  deriving DecidableEq

mutual

/-- A node. The fuel bounds the number of tokens, here and below. -/
def readNode (place : Place) : Nat → Read Node
  | 0 => fail endFault
  | fuel + 1 => do
    let first ← peek
    if let .alias name := first.kind then
      match (← get).anchors.lookup name with
      | some number =>
        drop
        return .alias first.start number
      | none => fail { problem := "unknown anchor", mark := first.start }
    else
      let properties ← readProperties
      let start := properties.start
      let tag ← properties.tag.mapM (expandTag start)
      let token ← peek
      let head : Read NodeHead := do
        let anchor ← properties.anchor.mapM defineAnchor
        return { mark := start, anchor, tag }
      match token.kind with
      | .blockEntry =>
        if place = .blockMapping then
          let head ← head
          return .sequence head (← readIndentlessItems fuel)
        else readNoContent place properties token head
      | .scalar text style =>
        drop
        return .scalar (← head) text style
      | .flowSequenceStart =>
        drop
        let head ← head
        return .sequence head (← readFlowItems token.start true fuel)
      | .flowMappingStart =>
        drop
        let head ← head
        return .mapping head (← readFlowEntries token.start true fuel)
      | .blockSequenceStart =>
        if place = .flow then readNoContent place properties token head
        else
          drop
          let head ← head
          return .sequence head (← readBlockItems token.start fuel)
      | .blockMappingStart =>
        if place = .flow then readNoContent place properties token head
        else
          drop
          let head ← head
          return .mapping head (← readBlockEntries token.start fuel)
      | _ => readNoContent place properties token head

/-- A node without content: it needs a property. -/
def readNoContent (place : Place) (properties : Properties) (token : Token)
    (head : Read NodeHead) : Read Node := do
  if properties.anchor.isSome || properties.tag.isSome then return .scalar (← head) "" .plain
  else
    let context :=
      if place = .flow then "while parsing a flow node" else "while parsing a block node"
    fail (unexpected token context properties.start "did not find expected node content")

/-- The items of a block sequence up to its end. -/
def readBlockItems (start : Mark) : Nat → Read (List Node)
  | 0 => fail endFault
  | fuel + 1 => do
    let token ← peek
    match token.kind with
    | .blockEntry =>
      drop
      let next ← peek
      let item ←
        match next.kind with
        | .blockEntry => pure (Node.empty token.stop)
        | .blockEnd => pure (Node.empty token.stop)
        | _ => readNode .block fuel
      return item :: (← readBlockItems start fuel)
    | .blockEnd =>
      drop
      return []
    | _ =>
      fail (unexpected token "while parsing a block collection" start
        "did not find expected '-' indicator")

/-- The items of a block sequence that is not indented. -/
def readIndentlessItems : Nat → Read (List Node)
  | 0 => fail endFault
  | fuel + 1 => do
    let token ← peek
    match token.kind with
    | .blockEntry =>
      drop
      let next ← peek
      let item ←
        match next.kind with
        | .blockEntry => pure (Node.empty token.stop)
        | .key => pure (Node.empty token.stop)
        | .value => pure (Node.empty token.stop)
        | .blockEnd => pure (Node.empty token.stop)
        | _ => readNode .block fuel
      return item :: (← readIndentlessItems fuel)
    | _ => return []

/-- The entries of a block mapping up to its end. -/
def readBlockEntries (start : Mark) : Nat → Read (List (Node × Node))
  | 0 => fail endFault
  | fuel + 1 => do
    let token ← peek
    match token.kind with
    | .key =>
      drop
      let key ← readBlockPart token fuel
      let colon ← peek
      let value ←
        match colon.kind with
        | .value =>
          drop
          readBlockPart colon fuel
        | _ => pure (Node.empty colon.start)
      return (key, value) :: (← readBlockEntries start fuel)
    | .blockEnd =>
      drop
      return []
    | _ =>
      fail (unexpected token "while parsing a block mapping" start "did not find expected key")

/-- A key or a value of a block mapping, after its indicator. -/
def readBlockPart (indicator : Token) : Nat → Read Node
  | 0 => fail endFault
  | fuel + 1 => do
    match (← peek).kind with
    | .key => return Node.empty indicator.stop
    | .value => return Node.empty indicator.stop
    | .blockEnd => return Node.empty indicator.stop
    | _ => readNode .blockMapping fuel

/-- The items of a flow sequence up to its end. -/
def readFlowItems (start : Mark) (isFirst : Bool) : Nat → Read (List Node)
  | 0 => fail endFault
  | fuel + 1 => do
    let token ← peek
    if token.kind = .flowSequenceEnd then
      drop
      return []
    if !isFirst then
      if token.kind ≠ .flowEntry then
        fail (unexpected token "while parsing a flow sequence" start
          "did not find expected ',' or ']'")
      drop
    let token ← peek
    match token.kind with
    | .flowSequenceEnd =>
      drop
      return []
    | .key =>
      drop
      let item ← readPair token.start fuel
      return item :: (← readFlowItems start false fuel)
    | _ =>
      let item ← readNode .flow fuel
      return item :: (← readFlowItems start false fuel)

/-- A mapping of one entry in a flow sequence, after its key indicator. An entry without a key loses
the token after the indicator. -/
def readPair (start : Mark) : Nat → Read Node
  | 0 => fail endFault
  | fuel + 1 => do
    let token ← peek
    let key ←
      if token.kind = .value || token.kind = .flowEntry || token.kind = .flowSequenceEnd then do
        drop
        pure (Node.empty token.stop)
      else readNode .flow fuel
    let colon ← peek
    if colon.kind = .value then
      drop
      let next ← peek
      if next.kind = .flowEntry || next.kind = .flowSequenceEnd then
        return .mapping { mark := start } [(key, Node.empty next.start)]
      return .mapping { mark := start } [(key, ← readNode .flow fuel)]
    return .mapping { mark := start } [(key, Node.empty colon.start)]

/-- The entries of a flow mapping up to its end. -/
def readFlowEntries (start : Mark) (isFirst : Bool) : Nat → Read (List (Node × Node))
  | 0 => fail endFault
  | fuel + 1 => do
    let token ← peek
    if token.kind = .flowMappingEnd then
      drop
      return []
    if !isFirst then
      if token.kind ≠ .flowEntry then
        fail (unexpected token "while parsing a flow mapping" start
          "did not find expected ',' or '\x7d'")
      drop
    let token ← peek
    match token.kind with
    | .flowMappingEnd =>
      drop
      return []
    | .key =>
      drop
      let next ← peek
      let key ←
        if next.kind = .value || next.kind = .flowEntry || next.kind = .flowMappingEnd then
          pure (Node.empty next.start)
        else readNode .flow fuel
      let value ← readFlowValue fuel
      return (key, value) :: (← readFlowEntries start false fuel)
    | _ =>
      let key ← readNode .flow fuel
      let value := Node.empty (← peek).start
      return (key, value) :: (← readFlowEntries start false fuel)

/-- The value of an entry of a flow mapping, which may be left out. -/
def readFlowValue : Nat → Read Node
  | 0 => fail endFault
  | fuel + 1 => do
    let colon ← peek
    if colon.kind = .value then
      drop
      let next ← peek
      if next.kind = .flowEntry || next.kind = .flowMappingEnd then
        return Node.empty next.start
      readNode .flow fuel
    else return Node.empty colon.start

end

end SwiftRelations.Yaml
