import SwiftRelations.Yaml.Token

/-!
# Scalars of a YAML text

Plain, quoted and block scalars. Over several lines a plain or quoted scalar is folded: a single
break becomes a space, and of several breaks the first is dropped.

They are read as the scanner of libyaml reads them.
-/

namespace SwiftRelations.Yaml

/-- The spacing and the breaks between two words of a scalar. -/
structure Gap where
  /-- The spacing, if there is no break. -/
  spaces : List Char := []
  broken : Bool := false
  firstBreak : List Char := []
  breaks : List Char := []
  deriving Inhabited

/-- What a gap contributes to a scalar. -/
def Gap.folded (gap : Gap) : List Char :=
  if !gap.broken then gap.spaces
  else if gap.firstBreak ≠ ['\n'] then gap.firstBreak ++ gap.breaks
  else if gap.breaks.isEmpty then [' ']
  else gap.breaks

/-- Go over spacing and breaks. `checkTab` may refuse a tab at the beginning of a line. The fuel
bounds the number of characters. -/
def readGap (checkTab : Cursor → Except Fault Unit) :
    Nat → Cursor → Gap → Except Fault (Gap × Cursor)
  | 0, c, gap => .ok (gap, c)
  | fuel + 1, c, gap =>
    match c.next with
    | none => .ok (gap, c)
    | some x =>
      if isSpacing x then do
        if gap.broken && x = '\t' then checkTab c
        let gap := if gap.broken then gap else { gap with spaces := gap.spaces ++ [x] }
        readGap checkTab fuel (c.skip 1) gap
      else if isBreak x then
        let (text, c) := c.lineBreak
        let gap :=
          if gap.broken then { gap with breaks := gap.breaks ++ text }
          else { gap with spaces := [], broken := true, firstBreak := text }
        readGap checkTab fuel c gap
      else .ok (gap, c)

/-! ## Plain scalars -/

/-- The indicators that end a plain scalar in a flow collection. -/
def endsFlowWord (x : Char) : Bool :=
  x = ',' || x = '[' || x = ']' || x = '\x7b' || x = '\x7d'

/-- The characters of a plain scalar up to the next spacing, break or indicator. -/
def readPlainWord (inFlow : Bool) (start : Mark) :
    Nat → Cursor → List Char → Except Fault (List Char × Cursor)
  | 0, c, word => .ok (word, c)
  | fuel + 1, c, word =>
    match c.next with
    | none => .ok (word, c)
    | some x =>
      if isSpacing x || isBreak x then .ok (word, c)
      else if inFlow && x = ':' && (c.ahead 1).any (fun y => endsFlowWord y || y = '?') then
        .error (c.fault "while scanning a plain scalar" start "found unexpected ':'")
      else if x = ':' && endsWord (c.ahead 1) then .ok (word, c)
      else if inFlow && endsFlowWord x then .ok (word, c)
      else readPlainWord inFlow start fuel (c.skip 1) (word ++ [x])

/-- A scalar that was read: its text, where it ends, and what comes after it. -/
structure ReadScalar where
  text : List Char
  stop : Mark
  rest : Cursor
  /-- Whether a line break follows the last word of a plain scalar. -/
  broken : Bool := false
  deriving Inhabited

/-- The rest of a plain scalar, after the words and the gap read so far. -/
def readPlainRest (inFlow : Bool) (indent : Nat) (start : Mark) :
    Nat → Cursor → Gap → ReadScalar → Except Fault ReadScalar
  | 0, _, _, scalar => .ok scalar
  | fuel + 1, c, gap, scalar =>
    if c.atDocumentBoundary || c.at? '#' then
      .ok { scalar with rest := c, broken := gap.broken }
    else do
      let (word, c) ← readPlainWord inFlow start c.rest.length c []
      let scalar : ReadScalar :=
        if word.isEmpty then { scalar with rest := c, broken := gap.broken }
        else { text := scalar.text ++ gap.folded ++ word, stop := c.mark, rest := c }
      if !(c.next.any fun x => isSpacing x || isBreak x) then return scalar
      let checkTab (c : Cursor) : Except Fault Unit :=
        if c.mark.column < indent then
          .error (c.fault "while scanning a plain scalar" start
            "found a tab character that violates indentation")
        else .ok ()
      let (gap, c) ← readGap checkTab c.rest.length c {}
      if !inFlow && c.mark.column < indent then
        return { scalar with rest := c, broken := gap.broken }
      readPlainRest inFlow indent start fuel c gap scalar

/-- A plain scalar. In a block its lines are indented by at least `indent` columns. -/
def readPlain (inFlow : Bool) (indent : Nat) (c : Cursor) : Except Fault ReadScalar :=
  readPlainRest inFlow indent c.mark (c.rest.length + 1) c {}
    { text := [], stop := c.mark, rest := c }

/-! ## Quoted scalars -/

/-- The value of a hexadecimal digit. -/
def hexValue? (c : Char) : Option Nat :=
  if c.isDigit then some (c.toNat - 48)
  else if 'a' ≤ c && c ≤ 'f' then some (c.toNat - 87)
  else if 'A' ≤ c && c ≤ 'F' then some (c.toNat - 55)
  else none

/-- The number that hexadecimal digits write. -/
def hexNumber? (digits : List Char) : Option Nat :=
  digits.foldlM (fun n c => (hexValue? c).map (16 * n + ·)) 0

/-- The character that a one-letter escape stands for. -/
def shortEscape? (x : Char) : Option Char :=
  match x with
  | '0' => some (Char.ofNat 0)
  | 'a' => some (Char.ofNat 7)
  | 'b' => some (Char.ofNat 8)
  | 't' => some '\t'
  | '\t' => some '\t'
  | 'n' => some '\n'
  | 'v' => some (Char.ofNat 0x0b)
  | 'f' => some (Char.ofNat 0x0c)
  | 'r' => some '\r'
  | 'e' => some (Char.ofNat 0x1b)
  | ' ' => some ' '
  | '"' => some '"'
  | '/' => some '/'
  | '\\' => some '\\'
  | 'N' => some (Char.ofNat 0x85)
  | '_' => some (Char.ofNat 0xa0)
  | 'L' => some (Char.ofNat 0x2028)
  | 'P' => some (Char.ofNat 0x2029)
  | _ => none

/-- The number of hexadecimal digits after the letter of an escape by code point. -/
def escapeLength? (x : Char) : Option Nat :=
  match x with
  | 'x' => some 2
  | 'u' => some 4
  | 'U' => some 8
  | _ => none

/-- The character that an escape stands for, and what comes after it. The cursor is at the
backslash. -/
def readEscape (start : Mark) (c : Cursor) : Except Fault (Char × Cursor) :=
  let fault (c : Cursor) (problem : String) : Fault :=
    c.fault "while parsing a quoted scalar" start problem
  match (c.ahead 1).bind shortEscape?, (c.ahead 1).bind escapeLength? with
  | some x, _ => .ok (x, c.skip 2)
  | none, none => .error (fault c "found unknown escape character")
  | none, some length =>
    let c := c.skip 2
    let digits := c.rest.take length
    match hexNumber? digits with
    | none => .error (fault c "did not find expected hexdecimal number")
    | some n =>
      if digits.length < length then .error (fault c "did not find expected hexdecimal number")
      else if (0xd800 ≤ n && n ≤ 0xdfff) || 0x10ffff < n then
        .error (fault c "found invalid Unicode character escape code")
      else .ok (Char.ofNat n, c.skip length)

/-- The apostrophe, which quotes a scalar without escapes. -/
def apostrophe : Char := Char.ofNat 39

/-- The characters of a quoted scalar up to the next spacing, break or closing quote, and whether an
escaped line break ended them. -/
def readQuotedWord (quote : Char) (start : Mark) :
    Nat → Cursor → List Char → Except Fault (List Char × Bool × Cursor)
  | 0, c, word => .ok (word, false, c)
  | fuel + 1, c, word =>
    match c.next with
    | none => .ok (word, false, c)
    | some x =>
      if isSpacing x || isBreak x then .ok (word, false, c)
      else if x = quote then
        if quote = apostrophe && c.ahead 1 = some quote then
          readQuotedWord quote start fuel (c.skip 2) (word ++ [quote])
        else .ok (word, false, c)
      else if quote ≠ apostrophe && x = '\\' then
        if (c.ahead 1).any isBreak then .ok (word, true, (c.skip 1).lineBreak.2)
        else do
          let (x, c) ← readEscape start c
          readQuotedWord quote start fuel c (word ++ [x])
      else readQuotedWord quote start fuel (c.skip 1) (word ++ [x])

/-- The rest of a quoted scalar, after the text read so far. -/
def readQuotedRest (quote : Char) (start : Mark) :
    Nat → Cursor → List Char → Except Fault ReadScalar
  | 0, c, text => .ok { text, stop := c.mark, rest := c }
  | fuel + 1, c, text => do
    let context := "while scanning a quoted scalar"
    if c.atDocumentBoundary then throw (c.fault context start "found unexpected document indicator")
    if c.rest.isEmpty then throw (c.fault context start "found unexpected end of stream")
    let (word, escaped, c) ← readQuotedWord quote start c.rest.length c []
    if c.at? quote then
      return { text := text ++ word, stop := (c.skip 1).mark, rest := c.skip 1 }
    let (gap, c) ← readGap (fun _ => .ok ()) c.rest.length c { broken := escaped }
    readQuotedRest quote start fuel c (text ++ word ++ gap.folded)

/-- A quoted scalar, which begins with its quote. -/
def readQuoted (quote : Char) (c : Cursor) : Except Fault ReadScalar :=
  readQuotedRest quote c.mark (c.rest.length + 1) (c.skip 1) []

/-! ## Block scalars -/

/-- What becomes of the breaks at the end of a block scalar. -/
inductive Chomping where
  | strip
  | clip
  | keep
  deriving DecidableEq, Repr, Inhabited

/-- The chomping that an indicator asks for. -/
def chomping? (c : Cursor) : Option Chomping :=
  match c.next with
  | some '+' => some .keep
  | some '-' => some .strip
  | _ => none

/-- The indentation that a digit asks for, and what comes after it. -/
def readIndentation (start : Mark) (c : Cursor) : Except Fault (Option Nat × Cursor) :=
  match c.next with
  | some x =>
    if x = '0' then
      .error (c.fault "while scanning a block scalar" start
        "found an indentation indicator equal to 0")
    else if x.isDigit then .ok (some (x.toNat - 48), c.skip 1)
    else .ok (none, c)
  | none => .ok (none, c)

/-- The indicators of a block scalar, in either order: its chomping, its indentation, and what comes
after them. -/
def readBlockHeader (start : Mark) (c : Cursor) :
    Except Fault (Chomping × Option Nat × Cursor) := do
  match chomping? c with
  | some chomping =>
    let (indentation, c) ← readIndentation start (c.skip 1)
    return (chomping, indentation, c)
  | none =>
    let (indentation, c) ← readIndentation start c
    match indentation, chomping? c with
    | some _, some chomping => return (chomping, indentation, c.skip 1)
    | _, _ => return (.clip, indentation, c)

/-- The empty lines before a line of a block scalar. -/
structure EmptyLines where
  breaks : List Char := []
  /-- The largest column reached. -/
  widest : Nat := 0
  stop : Mark := {}
  deriving Inhabited

/-- Go over the indentation of a block scalar and over its empty lines. Without a known indentation
all spaces belong to it. -/
def readEmptyLines (indent : Option Nat) (start : Mark) :
    Nat → Cursor → EmptyLines → Except Fault (EmptyLines × Cursor)
  | 0, c, lines => .ok (lines, c)
  | fuel + 1, c, lines =>
    let spaces := (c.rest.takeWhile (· = ' ')).length
    let c := c.skip (match indent with
      | some n => min spaces (n - c.mark.column)
      | none => spaces)
    let lines := { lines with widest := max lines.widest c.mark.column }
    let indenting := match indent with
      | some n => decide (c.mark.column < n)
      | none => true
    if indenting && c.at? '\t' then
      .error (c.fault "while scanning a block scalar" start
        "found a tab character where an indentation space is expected")
    else if c.next.any isBreak then
      let (text, c) := c.lineBreak
      readEmptyLines indent start fuel c
        { lines with breaks := lines.breaks ++ text, stop := c.mark }
    else .ok (lines, c)

/-- What has been read of a block scalar. -/
structure BlockText where
  text : List Char := []
  /-- The break after the last line. -/
  lastBreak : List Char := []
  /-- Whether the last line begins with spacing. -/
  lastIndented : Bool := false
  lines : EmptyLines := {}
  deriving Inhabited

/-- What stands between the last line of a block scalar and the next. In a folded scalar the break
between two lines that begin with a word is folded. -/
def BlockText.gap (block : BlockText) (isFolded nextIndented : Bool) : List Char :=
  if isFolded && block.lastBreak.head? = some '\n' && !block.lastIndented && !nextIndented then
    if block.lines.breaks.isEmpty then [' '] else block.lines.breaks
  else block.lastBreak ++ block.lines.breaks

/-- The lines of a block scalar. -/
def readBlockLines (isFolded : Bool) (indent : Nat) (start : Mark) :
    Nat → Cursor → BlockText → Except Fault (BlockText × Cursor)
  | 0, c, block => .ok (block, c)
  | fuel + 1, c, block =>
    if c.mark.column ≠ indent || c.rest.isEmpty then .ok (block, c)
    else do
      let indented := c.next.any isSpacing
      let gap := block.gap isFolded indented
      let (line, c) := c.span (!isBreak ·)
      let (lastBreak, c) := c.lineBreak
      let (lines, c) ← readEmptyLines (some indent) start (c.rest.length + 1) c { stop := c.mark }
      readBlockLines isFolded indent start fuel c
        { text := block.text ++ gap ++ line, lastBreak, lastIndented := indented, lines }

/-- A block scalar, which begins with its indicator. The collection around it is indented by
`parentIndent` columns, or is the whole document. -/
def readBlock (isFolded : Bool) (parentIndent : Option Nat) (c : Cursor) :
    Except Fault ReadScalar := do
  let start := c.mark
  let (chomping, indentation, c) ← readBlockHeader start (c.skip 1)
  let c := c.skipComment
  if !endsLine c.next then
    throw (c.fault "while scanning a block scalar" start
      "did not find expected comment or line break")
  let (_, c) := c.lineBreak
  let known := indentation.map (parentIndent.getD 0 + ·)
  let (lines, c) ← readEmptyLines known start (c.rest.length + 1) c { stop := c.mark }
  let least := (parentIndent.map (· + 1)).getD 0
  let indent := known.getD (max lines.widest (max least 1))
  let (block, c) ← readBlockLines isFolded indent start (c.rest.length + 1) c { lines }
  let tail := match chomping with
    | .strip => []
    | .clip => block.lastBreak
    | .keep => block.lastBreak ++ block.lines.breaks
  return { text := block.text ++ tail, stop := block.lines.stop, rest := c }

end SwiftRelations.Yaml
