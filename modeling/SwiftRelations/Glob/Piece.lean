/-!
# Patterns for paths

A pattern is a sequence of pieces. Paths are matched as bytes, and apart from the pieces made of two
asterisks none of them treats the separator `/` differently from other bytes.

The pieces are those of the documented syntax of the library globset.
-/

namespace SwiftRelations.Glob

/-- A part of a pattern. -/
inductive Piece where
  /-- The bytes of a character. -/
  | literal (c : Char)
  /-- One byte. -/
  | any
  /-- Any bytes. -/
  | zeroOrMore
  /-- Any whole components before what follows. -/
  | recursivePrefix
  /-- A separator and any bytes. -/
  | recursiveSuffix
  /-- A separator, and any whole components after it. -/
  | recursiveZeroOrMore
  /-- A byte of, or outside, inclusive ranges of characters. -/
  | oneOf (negated : Bool) (ranges : List (Char × Char))
  /-- What one of several sequences matches. -/
  | alternates (branches : List (List Piece))
  deriving Repr, Inhabited

/-- Whether a piece stands for the separator or for whole components, so that a component begins
after it. -/
def Piece.endsComponent : Piece → Bool
  | .literal c => c = '/'
  | .recursivePrefix => true
  | .recursiveZeroOrMore => true
  | _ => false

/-- What is wrong with a pattern. -/
inductive Fault where
  | unclosedClass
  | invertedRange (low high : Char)
  | unopenedAlternates
  | unclosedAlternates
  | danglingEscape
  deriving DecidableEq, Repr, Inhabited

/-- The reason a fault is reported with. -/
def Fault.reason : Fault → String
  | .unclosedClass => "unclosed character class; missing ']'"
  | .invertedRange low high =>
    "invalid range; '" ++ String.singleton low ++ "' > '" ++ String.singleton high ++ "'"
  | .unopenedAlternates =>
    "unopened alternate group; missing '\x7b' (maybe escape '\x7d' with '[\x7d]'?)"
  | .unclosedAlternates =>
    "unclosed alternate group; missing '\x7d' (maybe escape '\x7b' with '[\x7b]'?)"
  | .danglingEscape => "dangling '\\'"

/-- The message for a fault of a pattern. -/
def Fault.message (fault : Fault) (pattern : String) : String :=
  "error parsing glob '" ++ pattern ++ "': " ++ fault.reason

end SwiftRelations.Glob
