import SwiftRelations.Text.Letter
import SwiftRelations.Text.PrintableTable

/-!
# Quoted texts

A text between quotes as messages show it: what cannot be seen standing alone is written by its code
point, and the quote and the backslash are escaped.

This is the documented form of texts for debugging, as messages use it.
-/

namespace SwiftRelations.Text

/-- Whether a character above ASCII extends the one before it or prints nothing. -/
def isUnseen (c : Char) : Bool :=
  inRanges graphemeExtendRanges c.toNat || inRanges unprintableRanges c.toNat

/-- A character by its code point, in as few hexadecimal digits as it needs. -/
def byCodePoint (c : Char) : List Char :=
  "\\u\x7b".toList ++ Nat.toDigits 16 c.toNat ++ "\x7d".toList

/-- A character as it stands inside a quoted text, where the characters of `marks` are escaped. -/
def quotedChar (marks : List Char) (c : Char) : List Char :=
  if c.toNat = 0 then ['\\', '0']
  else if c = '\t' then ['\\', 't']
  else if c = '\r' then ['\\', 'r']
  else if c = '\n' then ['\\', 'n']
  else if marks.contains c then ['\\', c]
  else if c.toNat < 0x20 || c.toNat = 0x7f then byCodePoint c
  else if 0x80 ≤ c.toNat && isUnseen c then byCodePoint c
  else [c]

/-- A text between quotes in which the characters of `marks` are escaped. -/
def quotedWith (marks : List Char) (s : String) : String :=
  "\"" ++ String.ofList (s.toList.flatMap (quotedChar marks)) ++ "\""

/-- A text between quotes. -/
def quoted (s : String) : String := quotedWith ['"', '\\'] s

/-- A path between quotes: the apostrophe is escaped too. -/
def quotedPath (s : String) : String := quotedWith ['"', '\\', Char.ofNat 39] s

end SwiftRelations.Text
