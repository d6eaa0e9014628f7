import SwiftRelations.Glob.Pattern

/-!
# Matching paths

A pattern matches a path if its pieces, one after another, can use up all bytes of the path. What a
piece may leave over of some bytes is a set of suffixes, kept as a list without repetitions.

What a pattern matches is the documented behaviour of the library globset, which matches by a
regular expression over bytes.
-/

namespace SwiftRelations.Glob

/-- Bytes of a path. -/
abbrev Bytes := List UInt8

/-- The bytes of a character. -/
def charBytes (c : Char) : Bytes := (String.singleton c).toUTF8.toList

/-- All suffixes, longest first. -/
def suffixes : Bytes → List Bytes
  | [] => [[]]
  | b :: bs => (b :: bs) :: suffixes bs

/-- What follows each separator. -/
def afterSeparators : Bytes → List Bytes
  | [] => []
  | b :: bs => if b = 0x2f then bs :: afterSeparators bs else afterSeparators bs

/-- The byte ranges of a class. A character above ASCII counts byte by byte; in a range of two
characters the last byte of the one and the first of the other are its ends. -/
def byteRanges : List (Char × Char) → List (UInt8 × UInt8)
  | [] => []
  | (low, high) :: ranges =>
    let single (bs : Bytes) : List (UInt8 × UInt8) := bs.map fun b => (b, b)
    let lows := charBytes low
    let highs := charBytes high
    (if low = high then single lows
    else
      single lows.dropLast ++
        [(lows.getLastD 0, highs.headD 0)] ++ single (highs.drop 1)) ++ byteRanges ranges

/-- Whether a byte belongs to a class. -/
def inClass (negated : Bool) (ranges : List (Char × Char)) (b : UInt8) : Bool :=
  (byteRanges ranges).any (fun (low, high) => low ≤ b && b ≤ high) != negated

/-- What bytes leave over after `start`. -/
def dropBytes? : Bytes → Bytes → Option Bytes
  | [], bs => some bs
  | s :: start, b :: bs => if s = b then dropBytes? start bs else none
  | _ :: _, [] => none

mutual

/-- Whether a piece stands for nothing at all: a group of nothing but such branches. -/
def Piece.isVoid : Piece → Bool
  | .alternates branches => allBranchesVoid branches
  | _ => false

/-- Whether all pieces of a sequence stand for nothing at all. -/
def allVoid : List Piece → Bool
  | [] => true
  | piece :: pieces => piece.isVoid && allVoid pieces

/-- Whether all branches of a group stand for nothing at all. -/
def allBranchesVoid : List (List Piece) → Bool
  | [] => true
  | branch :: branches => allVoid branch && allBranchesVoid branches

end

mutual

/-- What a piece may leave over of some bytes. A branch that stands for nothing at all is no
alternative, and a group without alternatives uses up nothing. -/
def Piece.rests : Piece → Bytes → List Bytes
  | .literal c, bs => (dropBytes? (charBytes c) bs).toList
  | .any, bs =>
    match bs with
    | [] => []
    | _ :: bs => [bs]
  | .zeroOrMore, bs => suffixes bs
  | .recursivePrefix, bs => bs :: afterSeparators bs
  | .recursiveSuffix, bs =>
    match bs with
    | [] => []
    | b :: bs => if b = 0x2f then suffixes bs else []
  | .recursiveZeroOrMore, bs =>
    match bs with
    | [] => []
    | b :: bs => if b = 0x2f then bs :: afterSeparators bs else []
  | .oneOf negated ranges, bs =>
    match bs with
    | [] => []
    | b :: bs => if inClass negated ranges b then [bs] else []
  | .alternates branches, bs =>
    if allBranchesVoid branches then [bs] else restsOfAny branches bs

/-- What a sequence may leave over of any of some bytes. -/
def restsOfAll : List Piece → List Bytes → List Bytes
  | [], rests => rests
  | piece :: pieces, rests => restsOfAll pieces (rests.flatMap (Piece.rests piece)).eraseDups

/-- What a branch of a group may leave over of some bytes. -/
def restsOfAny : List (List Piece) → Bytes → List Bytes
  | [], _ => []
  | branch :: branches, bs =>
    (if allVoid branch then [] else restsOfAll branch [bs]) ++ restsOfAny branches bs

end

/-- Whether the pieces of a pattern match a path. Whole components alone match every path. -/
def matchesPath (pieces : List Piece) (path : String) : Bool :=
  match pieces with
  | [.recursivePrefix] => true
  | pieces => (restsOfAll pieces [path.toUTF8.toList]).any (·.isEmpty)

end SwiftRelations.Glob
