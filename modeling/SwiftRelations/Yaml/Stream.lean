import SwiftRelations.Yaml.Property

/-!
# Token streams

The tokens of a text, in order. A key of a block mapping is recognized only by the colon after it;
until then it is a possible key, and the tokens that tell so are put in front of it later.

They are gathered as the scanner of libyaml gathers them.
-/

namespace SwiftRelations.Yaml

/-- A token that may turn out to begin a key. -/
structure PossibleKey where
  /-- The number of tokens before it. -/
  place : Nat
  /-- Whether nothing else may stand here. -/
  required : Bool
  mark : Mark
  deriving Inhabited

/-- The state in which a text is read. -/
structure Scan where
  cursor : Cursor
  tokens : Array Token := #[]
  /-- The column of the innermost block collection, if there is one. -/
  indent : Option Nat := none
  /-- The columns of the block collections around it, innermost first. -/
  outerIndents : List (Option Nat) := []
  /-- The possible key of each flow collection that is open, innermost first, and of the block
  around them. -/
  keys : List (Option PossibleKey) := [none]
  /-- Whether a key may begin here. -/
  keyAllowed : Bool := true
  deriving Inhabited

namespace Scan

/-- Whether a flow collection is open. -/
def inFlow (s : Scan) : Bool := 1 < s.keys.length

/-- The place that the scan has reached. -/
def mark (s : Scan) : Mark := s.cursor.mark

/-- Add a token of some kind that ends before `rest`. -/
def add (s : Scan) (kind : TokenKind) (stop : Mark) (rest : Cursor) : Scan :=
  { s with tokens := s.tokens.push ⟨kind, s.mark, stop⟩, cursor := rest }

/-- Add a token of `n` characters. -/
def addIndicator (s : Scan) (kind : TokenKind) (n : Nat) : Scan :=
  s.add kind (s.cursor.skip n).mark (s.cursor.skip n)

/-- Insert an empty token before the token at `place`. -/
def insert (s : Scan) (place : Nat) (kind : TokenKind) (mark : Mark) : Scan :=
  { s with tokens := s.tokens.insertIdxIfInBounds place ⟨kind, mark, mark⟩ }

/-! ## Possible keys -/

/-- The fault of a key that is required but cannot be one. -/
def keyFault (s : Scan) (key : PossibleKey) : Fault :=
  s.cursor.fault "while scanning a simple key" key.mark "could not find expected ':'"

/-- Give up the possible keys that are on an earlier line or too long. -/
def dropStaleKeys (s : Scan) : Except Fault Scan := do
  let isStale (key : PossibleKey) : Bool :=
    key.mark.line < s.mark.line || key.mark.index + 1024 < s.mark.index
  let keys ← s.keys.mapM fun key =>
    match key with
    | none => .ok none
    | some key =>
      if !isStale key then .ok (some key)
      else if key.required then .error (s.keyFault key)
      else .ok none
  return { s with keys }

/-- Give up the possible key of the innermost collection. -/
def dropKey (s : Scan) : Except Fault Scan :=
  match s.keys with
  | some key :: keys =>
    if key.required then .error (s.keyFault key) else .ok { s with keys := none :: keys }
  | _ => .ok s

/-- Note that the next token may begin a key, if one may begin here. -/
def saveKey (s : Scan) : Except Fault Scan :=
  if !s.keyAllowed then .ok s
  else do
    let required := !s.inFlow && s.indent = some s.mark.column
    let s ← s.dropKey
    return { s with keys := some ⟨s.tokens.size, required, s.mark⟩ :: s.keys.drop 1 }

/-! ## Indentation -/

/-- Begin a block collection at `column`, if it is indented more than the one around it: its token
stands before the token at `place`. -/
def roll (s : Scan) (column place : Nat) (kind : TokenKind) (mark : Mark) : Scan :=
  if s.inFlow || !(s.indent.all (· < column)) then s
  else
    let s := { s with indent := some column, outerIndents := s.indent :: s.outerIndents }
    s.insert place kind mark

/-- The block collections among `indents` that are indented more than `column`, and those around
them. Without a column all are. -/
def splitIndents (column : Option Nat) : List (Option Nat) → Nat × List (Option Nat)
  | some n :: indents =>
    if column.all (· < n) then
      let (count, indents) := splitIndents column indents
      (count + 1, indents)
    else (0, some n :: indents)
  | indents => (0, indents)

/-- End the block collections that are indented more than `column`. -/
def unroll (s : Scan) (column : Option Nat) : Scan :=
  if s.inFlow then s
  else
    let (count, indents) := splitIndents column (s.indent :: s.outerIndents)
    let ends := List.replicate count (⟨.blockEnd, s.mark, s.mark⟩ : Token)
    { s with
      tokens := s.tokens.appendList ends
      indent := (indents.head?).getD none
      outerIndents := indents.drop 1 }

/-! ## Tokens -/

/-- Go over white space and comments. Tabs are white space only where no key may begin. The fuel
bounds the number of lines. -/
def skipToToken : Nat → Scan → Scan
  | 0, s => s
  | fuel + 1, s =>
    let isWhite (x : Char) : Bool := x = ' ' || ((s.inFlow || !s.keyAllowed) && x = '\t')
    let c := s.cursor.skipWhile isWhite
    let c := if c.at? '#' then c.skipWhile (!isBreak ·) else c
    if c.next.any isBreak then
      skipToToken fuel { s with cursor := c.lineBreak.2, keyAllowed := s.keyAllowed || !s.inFlow }
    else { s with cursor := c }

/-- The end of the text, where all block collections end. -/
def addEnd (s : Scan) : Except Fault Scan := do
  let m := s.mark
  let m := if m.column = 0 then m else { m with line := m.line + 1, column := 0 }
  let s := { s with cursor := { s.cursor with mark := m } }.unroll none
  let s ← s.dropKey
  return { s with keyAllowed := false }.addIndicator .streamEnd 0

/-- A directive. -/
def addDirective (s : Scan) : Except Fault Scan := do
  let s ← (s.unroll none).dropKey
  let (kind, stop, rest) ← readDirective s.cursor
  return { s with keyAllowed := false }.add kind stop rest

/-- The start or the end of a document. -/
def addDocumentMark (s : Scan) (kind : TokenKind) : Except Fault Scan := do
  let s ← (s.unroll none).dropKey
  return { s with keyAllowed := false }.addIndicator kind 3

/-- The start of a flow collection. -/
def addFlowStart (s : Scan) (kind : TokenKind) : Except Fault Scan := do
  let s ← s.saveKey
  return { s with keys := none :: s.keys, keyAllowed := true }.addIndicator kind 1

/-- The end of a flow collection. -/
def addFlowEnd (s : Scan) (kind : TokenKind) : Except Fault Scan := do
  let s ← s.dropKey
  let keys := if s.inFlow then s.keys.drop 1 else s.keys
  return { s with keys, keyAllowed := false }.addIndicator kind 1

/-- The comma between entries of a flow collection. -/
def addFlowEntry (s : Scan) : Except Fault Scan := do
  let s ← s.dropKey
  return { s with keyAllowed := true }.addIndicator .flowEntry 1

/-- The hyphen before an entry of a block sequence. -/
def addBlockEntry (s : Scan) : Except Fault Scan := do
  if !s.inFlow && !s.keyAllowed then
    throw (s.cursor.plainFault "block sequence entries are not allowed in this context")
  let s := s.roll s.mark.column s.tokens.size .blockSequenceStart s.mark
  let s ← s.dropKey
  return { s with keyAllowed := true }.addIndicator .blockEntry 1

/-- The question mark before a key. -/
def addKey (s : Scan) : Except Fault Scan := do
  if !s.inFlow && !s.keyAllowed then
    throw (s.cursor.plainFault "mapping keys are not allowed in this context")
  let s := s.roll s.mark.column s.tokens.size .blockMappingStart s.mark
  let s ← s.dropKey
  return { s with keyAllowed := !s.inFlow }.addIndicator .key 1

/-- The colon before a value. If there is a possible key, it is one. -/
def addValue (s : Scan) : Except Fault Scan :=
  match s.keys with
  | some key :: keys =>
    let s := s.insert key.place .key key.mark
    let s := s.roll key.mark.column key.place .blockMappingStart key.mark
    return { s with keys := none :: keys, keyAllowed := false }.addIndicator .value 1
  | _ => do
    if !s.inFlow && !s.keyAllowed then
      throw (s.cursor.plainFault "mapping values are not allowed in this context")
    let s := s.roll s.mark.column s.tokens.size .blockMappingStart s.mark
    return { s with keyAllowed := !s.inFlow }.addIndicator .value 1

/-- An anchor or an alias. -/
def addName (s : Scan) (context : String) (kind : String → TokenKind) : Except Fault Scan := do
  let s ← s.saveKey
  let (name, rest) ← readName context s.cursor
  return { s with keyAllowed := false }.add (kind name) rest.mark rest

/-- A tag. -/
def addTag (s : Scan) : Except Fault Scan := do
  let s ← s.saveKey
  let (kind, rest) ← readTag s.inFlow s.cursor
  return { s with keyAllowed := false }.add kind rest.mark rest

/-- A block scalar. -/
def addBlockScalar (s : Scan) (style : ScalarStyle) : Except Fault Scan := do
  let s ← s.dropKey
  let scalar ← readBlock (style = .folded) s.indent s.cursor
  let kind := TokenKind.scalar (String.ofList scalar.text) style
  return { s with keyAllowed := true }.add kind scalar.stop scalar.rest

/-- A quoted scalar. -/
def addQuoted (s : Scan) (quote : Char) (style : ScalarStyle) : Except Fault Scan := do
  let s ← s.saveKey
  let scalar ← readQuoted quote s.cursor
  let kind := TokenKind.scalar (String.ofList scalar.text) style
  return { s with keyAllowed := false }.add kind scalar.stop scalar.rest

/-- A plain scalar. A key may begin on the line after it. -/
def addPlain (s : Scan) : Except Fault Scan := do
  let s ← s.saveKey
  let least := (s.indent.map (· + 1)).getD 0
  let scalar ← readPlain s.inFlow least s.cursor
  let kind := TokenKind.scalar (String.ofList scalar.text) .plain
  return { s with keyAllowed := scalar.broken }.add kind scalar.stop scalar.rest

/-- The characters that no plain scalar begins with. -/
def indicators : List Char :=
  ['-', '?', ':', ',', '[', ']', '\x7b', '\x7d', '#', '&', '*', '!', '|', '>', apostrophe, '"', '%',
    '@', Char.ofNat 0x60]

/-- Whether a plain scalar begins with `x` before `y`. -/
def beginsPlain (inFlow : Bool) (x : Char) (y : Option Char) : Bool :=
  !(isSpacing x || isBreak x || indicators.contains x) || (x = '-' && !y.any isSpacing) ||
    (!inFlow && (x = '?' || x = ':') && !endsWord y)

/-- Add the token that begins with `x`, the next character. -/
def addToken (s : Scan) (x : Char) : Except Fault Scan :=
  let c := s.cursor
  let standsAlone := endsWord (c.ahead 1)
  if c.mark.column = 0 && x = '%' then s.addDirective
  else if c.atDocumentMark '-' then s.addDocumentMark .documentStart
  else if c.atDocumentMark '.' then s.addDocumentMark .documentEnd
  else if x = '[' then s.addFlowStart .flowSequenceStart
  else if x = '\x7b' then s.addFlowStart .flowMappingStart
  else if x = ']' then s.addFlowEnd .flowSequenceEnd
  else if x = '\x7d' then s.addFlowEnd .flowMappingEnd
  else if x = ',' then s.addFlowEntry
  else if x = '-' && standsAlone then s.addBlockEntry
  else if x = '?' && (s.inFlow || standsAlone) then s.addKey
  else if x = ':' && (s.inFlow || standsAlone) then s.addValue
  else if x = '*' then s.addName "while scanning an alias" .alias
  else if x = '&' then s.addName "while scanning an anchor" .anchor
  else if x = '!' then s.addTag
  else if x = '|' && !s.inFlow then s.addBlockScalar .literal
  else if x = '>' && !s.inFlow then s.addBlockScalar .folded
  else if x = apostrophe then s.addQuoted x .singleQuoted
  else if x = '"' then s.addQuoted x .doubleQuoted
  else if beginsPlain s.inFlow x (c.ahead 1) then s.addPlain
  else
    .error (c.fault "while scanning for the next token" c.mark
      "found character that cannot start any token")

/-- Go to the next token and add it. -/
def step (s : Scan) : Except Fault Scan := do
  let s := skipToToken (s.cursor.rest.length + 1) s
  let s ← s.dropStaleKeys
  let s := s.unroll (some s.mark.column)
  match s.cursor.next with
  | none => s.addEnd
  | some x => s.addToken x

/-- The tokens that are certain even if a possible key before them turns out to be one. -/
def certainTokens (s : Scan) : List Token :=
  let places := s.keys.filterMap fun key => key.map (·.place)
  s.tokens.toList.take (places.foldl min s.tokens.size)

/-- The tokens of a text, and the fault after them if the text has one. The fuel bounds the number
of tokens. -/
def run : Nat → Scan → List Token × Option Fault
  | 0, s => (s.tokens.toList, none)
  | fuel + 1, s =>
    match s.step with
    | .error fault => (s.certainTokens, some fault)
    | .ok next =>
      if (next.tokens.back?).any (·.kind = .streamEnd) then (next.tokens.toList, none)
      else run fuel next

end Scan

/-- The tokens of a text, and the fault after them if the text has one. -/
def tokens (text : String) : List Token × Option Fault :=
  match Cursor.ofText text with
  | .error fault => ([], some fault)
  | .ok cursor => Scan.run (cursor.rest.length + 2) { cursor }

end SwiftRelations.Yaml
