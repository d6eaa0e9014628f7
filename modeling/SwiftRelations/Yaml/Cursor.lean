/-!
# Places in a YAML text

A cursor is what is left of a text together with its place in the whole. Lines may end in any of the
five line breaks, and a carriage return before a line feed is one break with it.

YAML is read in these modules as the library serde_yaml documents it, with the scanner and parser of
libyaml beneath it and the messages of their faults.
-/

namespace SwiftRelations.Yaml

/-- A place in a text: lines, columns and characters are counted from zero. -/
structure Mark where
  line : Nat := 0
  column : Nat := 0
  index : Nat := 0
  deriving DecidableEq, Repr, Inhabited

/-- The words for a place. The very beginning has none. -/
def Mark.place (m : Mark) : String :=
  if m.line = 0 && m.column = 0 then ""
  else " at line " ++ toString (m.line + 1) ++ " column " ++ toString (m.column + 1)

/-- What is wrong with a text. -/
structure Fault where
  problem : String
  mark : Mark
  /-- What was being read, and where it began. -/
  context : Option (String × Mark) := none
  deriving Repr, Inhabited

/-- The message for a fault. The place of the context is left out where the problem has the same. -/
def Fault.message (f : Fault) : String :=
  f.problem ++ f.mark.place ++
    match f.context with
    | none => ""
    | some (context, start) =>
      ", " ++ context ++
        if start.line = f.mark.line && start.column = f.mark.column then "" else start.place

/-- What is left of a text, and where it begins. -/
structure Cursor where
  rest : List Char
  mark : Mark := {}
  deriving Inhabited

/-- Whether a character is a space or a tab. -/
def isSpacing (c : Char) : Bool := c = ' ' || c = '\t'

/-- Whether a character breaks a line. -/
def isBreak (c : Char) : Bool :=
  c = '\n' || c = '\r' || c.toNat = 0x85 || c.toNat = 0x2028 || c.toNat = 0x2029

/-- Whether a word ends before what comes next: before spacing, a break or the end. -/
def endsWord : Option Char → Bool
  | none => true
  | some c => isSpacing c || isBreak c

/-- Whether a line ends before what comes next. -/
def endsLine : Option Char → Bool
  | none => true
  | some c => isBreak c

/-- The characters of anchors, handles and directive names. -/
def isNameChar (c : Char) : Bool := c.isAlphanum || c = '_' || c = '-'

namespace Cursor

/-- The next character. -/
def next (c : Cursor) : Option Char := c.rest.head?

/-- The character after `n` others. -/
def ahead (c : Cursor) (n : Nat) : Option Char := c.rest[n]?

/-- Whether the next character is `x`. -/
def at? (c : Cursor) (x : Char) : Bool := c.next = some x

/-- Go over `n` characters of the line. -/
def skip (c : Cursor) (n : Nat) : Cursor where
  rest := c.rest.drop n
  mark := { c.mark with column := c.mark.column + n, index := c.mark.index + n }

/-- The characters of the line before the first that fails `p`, and what comes after them. -/
def span (c : Cursor) (p : Char → Bool) : List Char × Cursor :=
  let taken := c.rest.takeWhile p
  (taken, c.skip taken.length)

/-- Go over the characters of the line before the first that fails `p`. -/
def skipWhile (c : Cursor) (p : Char → Bool) : Cursor := (c.span p).2

/-- Go over `n` characters of a line break. -/
def newLine (c : Cursor) (n : Nat) : Cursor where
  rest := c.rest.drop n
  mark := { line := c.mark.line + 1, column := 0, index := c.mark.index + n }

/-- Go over a line break, if there is one: what it contributes to a text, and what comes after it.
All breaks but the separators of lines and paragraphs contribute a line feed. -/
def lineBreak (c : Cursor) : List Char × Cursor :=
  match c.rest with
  | '\r' :: '\n' :: _ => (['\n'], c.newLine 2)
  | b :: _ =>
    if !isBreak b then ([], c)
    else if b.toNat = 0x2028 || b.toNat = 0x2029 then ([b], c.newLine 1)
    else (['\n'], c.newLine 1)
  | [] => ([], c)

/-- Whether a line begins here with three copies of `x` that stand alone. -/
def atDocumentMark (c : Cursor) (x : Char) : Bool :=
  c.mark.column = 0 && c.rest.take 3 == [x, x, x] && endsWord (c.ahead 3)

/-- Whether a line begins here that starts or ends a document. -/
def atDocumentBoundary (c : Cursor) : Bool := c.atDocumentMark '-' || c.atDocumentMark '.'

/-- Go to the end of the line over spacing and a comment. -/
def skipComment (c : Cursor) : Cursor :=
  let c := c.skipWhile isSpacing
  if c.at? '#' then c.skipWhile (!isBreak ·) else c

/-- A fault at this place, found while reading something that began at `start`. -/
def fault (c : Cursor) (context : String) (start : Mark) (problem : String) : Fault :=
  { problem, mark := c.mark, context := some (context, start) }

/-- A fault at this place. -/
def plainFault (c : Cursor) (problem : String) : Fault := { problem, mark := c.mark }

end Cursor

/-- Whether a character may stand in a YAML text. -/
def isPrintable (c : Char) : Bool :=
  let n := c.toNat
  n = 0x09 || n = 0x0a || n = 0x0d || (0x20 ≤ n && n ≤ 0x7e) || n = 0x85 ||
    (0xa0 ≤ n && n ≤ 0xd7ff) || (0xe000 ≤ n && n ≤ 0xfffd && n ≠ 0xfeff) || 0x10000 ≤ n

/-- The fault of the first character that may not stand in a text, if there is one. Its place is
given in bytes. -/
def unprintableFault? (offset : Nat) : List Char → Option Fault
  | [] => none
  | c :: cs =>
    if isPrintable c then unprintableFault? (offset + c.utf8Size) cs
    else
      let place := if offset = 0 then "" else " at position " ++ toString offset
      some { problem := "control characters are not allowed" ++ place, mark := {} }

/-- The beginning of a text. A byte order mark before it is no part of it. -/
def Cursor.ofText (text : String) : Except Fault Cursor :=
  let start (offset : Nat) (cs : List Char) : Except Fault Cursor :=
    match unprintableFault? offset cs with
    | some fault => .error fault
    | none => .ok { rest := cs }
  match text.toList with
  | '\ufeff' :: cs => start 3 cs
  | cs => start 0 cs

end SwiftRelations.Yaml
