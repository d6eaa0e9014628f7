import SwiftRelations.Text.LetterTable

/-!
# Letters and numerals

The characters that may begin a name and those that may continue one.

They are the characters that `ident` takes for names.
-/

namespace SwiftRelations.Text

/-- Whether one of the inclusive ranges holds `n`. -/
def inRanges (ranges : List (Nat × Nat)) (n : Nat) : Bool :=
  ranges.any fun (low, high) => low ≤ n && n ≤ high

/-- The characters with the Unicode property `Alphabetic`. -/
def isLetter (c : Char) : Bool :=
  if c.toNat < 0x80 then c.isAlpha else inRanges alphabeticRanges c.toNat

/-- The characters that are letters or numerals (general categories `Nd`, `Nl`, `No`). -/
def isLetterOrNumeral (c : Char) : Bool :=
  if c.toNat < 0x80 then c.isAlphanum
  else inRanges alphabeticRanges c.toNat || inRanges numericRanges c.toNat

/-- The characters a name may begin with. -/
def beginsName (c : Char) : Bool := isLetter c || c == '_'

/-- The characters a name may go on with. -/
def continuesName (c : Char) : Bool := isLetterOrNumeral c || c == '_'

end SwiftRelations.Text
