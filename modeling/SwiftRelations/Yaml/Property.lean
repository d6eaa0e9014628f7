import SwiftRelations.Yaml.Scalar

/-!
# Directives, anchors and tags of a YAML text

The tokens that give properties to nodes or to the document.

They are read as the scanner of libyaml reads them.
-/

namespace SwiftRelations.Yaml

/-- An anchor or an alias, after its indicator: its name, and what comes after it. -/
def readName (context : String) (c : Cursor) : Except Fault (String × Cursor) :=
  let start := c.mark
  let (name, c) := (c.skip 1).span isNameChar
  let ended := endsWord c.next ||
    c.next.any fun x => ['?', ':', ',', ']', '\x7d', '%', '@', Char.ofNat 0x60].contains x
  if name.isEmpty || !ended then
    .error (c.fault context start "did not find expected alphabetic or numeric character")
  else .ok (String.ofList name, c)

/-! ## Tags -/

/-- What a tag or a tag directive is called in messages. -/
structure TagContext where
  start : Mark
  inDirective : Bool

/-- The characters of a tag that stand for themselves. -/
def isUriChar (verbatim : Bool) (x : Char) : Bool :=
  isNameChar x || [';', '/', '?', ':', '@', '&', '=', '+', '$', '.', '!', '~', '*', apostrophe, '(',
    ')'].contains x || (verbatim && [',', '[', ']'].contains x)

/-- The length of a character in bytes by its first byte, and the bits that byte gives to it. -/
def leadingByte? (n : Nat) : Option (Nat × Nat) :=
  if n < 0x80 then some (1, n)
  else if n / 0x20 = 6 then some (2, n % 0x20)
  else if n / 0x10 = 14 then some (3, n % 0x10)
  else if n / 8 = 30 then some (4, n % 8)
  else none

/-- The byte that a percent sign and two hexadecimal digits stand for. -/
def percentByte? (c : Cursor) : Option Nat :=
  match c.rest with
  | '%' :: a :: b :: _ => do
    let a ← hexValue? a
    let b ← hexValue? b
    return 16 * a + b
  | _ => none

/-- The bytes of a character after its first, each written with a percent sign. -/
def readTrailingBytes (tag : TagContext) : Nat → Cursor → Nat → Except Fault (Nat × Cursor)
  | 0, c, n => .ok (n, c)
  | more + 1, c, n =>
    let context :=
      if tag.inDirective then "while parsing a %TAG directive" else "while parsing a tag"
    match percentByte? c with
    | none => .error (c.fault context tag.start "did not find URI escaped octet")
    | some b =>
      if b / 0x40 ≠ 2 then
        .error (c.fault context tag.start "found an incorrect trailing UTF-8 octet")
      else readTrailingBytes tag more (c.skip 3) (0x40 * n + b % 0x40)

/-- A character whose bytes are written with percent signs. -/
def readPercent (tag : TagContext) (c : Cursor) : Except Fault (Char × Cursor) :=
  let context := if tag.inDirective then "while parsing a %TAG directive" else "while parsing a tag"
  match percentByte? c with
  | none => .error (c.fault context tag.start "did not find URI escaped octet")
  | some b =>
    match leadingByte? b with
    | none => .error (c.fault context tag.start "found an incorrect leading UTF-8 octet")
    | some (length, bits) => do
      let (n, c) ← readTrailingBytes tag (length - 1) (c.skip 3) bits
      return (Char.ofNat n, c)

/-- The characters of a tag. -/
def readUriChars (tag : TagContext) (verbatim : Bool) :
    Nat → Cursor → List Char → Except Fault (List Char × Cursor)
  | 0, c, uri => .ok (uri, c)
  | fuel + 1, c, uri =>
    match c.next with
    | some '%' => do
      let (x, c) ← readPercent tag c
      readUriChars tag verbatim fuel c (uri ++ [x])
    | some x =>
      if isUriChar verbatim x then readUriChars tag verbatim fuel (c.skip 1) (uri ++ [x])
      else .ok (uri, c)
    | none => .ok (uri, c)

/-- The rest of a tag after `head`, whose first character is an indicator. -/
def readUri (tag : TagContext) (verbatim : Bool) (head : List Char) (c : Cursor) :
    Except Fault (String × Cursor) := do
  let (uri, c) ← readUriChars tag verbatim c.rest.length c []
  if head.isEmpty && uri.isEmpty then
    let context :=
      if tag.inDirective then "while parsing a %TAG directive" else "while parsing a tag"
    throw (c.fault context tag.start "did not find expected tag URI")
  return (String.ofList (head.drop 1 ++ uri), c)

/-- The handle of a tag: an exclamation mark, name characters, and perhaps another mark. -/
def readHandle (tag : TagContext) (c : Cursor) : Except Fault (List Char × Cursor) := do
  let context :=
    if tag.inDirective then "while scanning a tag directive" else "while scanning a tag"
  if !c.at? '!' then throw (c.fault context tag.start "did not find expected '!'")
  let (name, c) := (c.skip 1).span isNameChar
  if c.at? '!' then return ('!' :: name ++ ['!'], c.skip 1)
  if tag.inDirective && !name.isEmpty then
    throw (c.fault "while parsing a tag directive" tag.start "did not find expected '!'")
  return ('!' :: name, c)

/-- A tag: verbatim, with a handle, or local. -/
def readTag (inFlow : Bool) (c : Cursor) : Except Fault (TokenKind × Cursor) := do
  let tag : TagContext := { start := c.mark, inDirective := false }
  let (kind, c) ←
    if c.ahead 1 = some '<' then do
      let (suffix, c) ← readUri tag true [] (c.skip 2)
      if !c.at? '>' then
        throw (c.fault "while scanning a tag" tag.start "did not find the expected '>'")
      pure (TokenKind.tag "" suffix, c.skip 1)
    else do
      let (handle, c) ← readHandle tag c
      if 2 ≤ handle.length && handle.getLast? = some '!' then
        let (suffix, c) ← readUri tag false [] c
        pure (TokenKind.tag (String.ofList handle) suffix, c)
      else
        let (suffix, c) ← readUri tag false handle c
        if suffix.isEmpty then pure (TokenKind.tag "" "!", c)
        else pure (TokenKind.tag "!" suffix, c)
  if !endsWord c.next && !(inFlow && c.at? ',') then
    throw <|
      c.fault "while scanning a tag" tag.start "did not find expected whitespace or line break"
  return (kind, c)

/-! ## Directives -/

/-- A number of a version. -/
def readVersionNumber (start : Mark) (c : Cursor) : Except Fault (Nat × Cursor) :=
  let context := "while scanning a %YAML directive"
  let (digits, after) := c.span Char.isDigit
  if digits.isEmpty then .error (c.fault context start "did not find expected version number")
  else if 9 < digits.length then
    .error ((c.skip 9).fault context start "found extremely long version number")
  else .ok (digits.foldl (fun n d => 10 * n + (d.toNat - 48)) 0, after)

/-- The version that a directive gives. -/
def readVersion (start : Mark) (c : Cursor) : Except Fault (TokenKind × Cursor) := do
  let (major, c) ← readVersionNumber start (c.skipWhile isSpacing)
  if !c.at? '.' then
    throw (c.fault "while scanning a %YAML directive" start
      "did not find expected digit or '.' character")
  let (minor, c) ← readVersionNumber start (c.skip 1)
  return (.versionDirective major minor, c)

/-- The handle that a directive defines. -/
def readTagDirective (start : Mark) (c : Cursor) : Except Fault (TokenKind × Cursor) := do
  let tag : TagContext := { start, inDirective := true }
  let context := "while scanning a %TAG directive"
  let (handle, c) ← readHandle tag (c.skipWhile isSpacing)
  if !(c.next.any isSpacing) then throw (c.fault context start "did not find expected whitespace")
  let (uri, c) ← readUri tag true [] (c.skipWhile isSpacing)
  if !endsWord c.next then
    throw (c.fault context start "did not find expected whitespace or line break")
  return (.tagDirective (String.ofList handle) uri, c)

/-- A directive up to the end of its line: its token, where it ends, and what comes after it. -/
def readDirective (c : Cursor) : Except Fault (TokenKind × Mark × Cursor) := do
  let start := c.mark
  let context := "while scanning a directive"
  let (name, c) := (c.skip 1).span isNameChar
  if name.isEmpty then throw (c.fault context start "could not find expected directive name")
  if !endsWord c.next then
    throw (c.fault context start "found unexpected non-alphabetical character")
  let (kind, c) ←
    match String.ofList name with
    | "YAML" => readVersion start c
    | "TAG" => readTagDirective start c
    | _ => throw (c.fault context start "found unknown directive name")
  let stop := c.mark
  let c := c.skipComment
  if !endsLine c.next then
    throw (c.fault context start "did not find expected comment or line break")
  return (kind, stop, c.lineBreak.2)

end SwiftRelations.Yaml
