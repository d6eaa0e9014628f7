import SwiftRelations.Glob.Lexeme

/-!
# Reading patterns

A pattern is read from its lexemes from left to right. Two asterisks that make up a whole component
stand for any whole components; elsewhere they are two single asterisks.

How patterns are read is the documented behaviour of the library globset.
-/

namespace SwiftRelations.Glob

/-- A group of alternates that is being read. -/
structure OpenGroup where
  /-- The branches that are complete, last first. -/
  branches : List (List Piece)
  /-- The pieces before the group, last first. -/
  before : List Piece
  deriving Inhabited

/-- Whether two asterisks after a piece begin a component. Inside a group an escaped comma or brace
counts as the beginning of one. -/
def beginsComponentAfter (inGroup : Bool) (last : Piece) : Bool :=
  last.endsComponent ||
    match last with
    | .literal c => inGroup && (c = ',' || c = '\x7b')
    | _ => false

/-- What two asterisks between components make of the piece before them. Another such piece takes in
both; a separator becomes part of the new piece. -/
def mergeInto (last new : Piece) : Piece :=
  match last with
  | .recursivePrefix => .recursivePrefix
  | .recursiveSuffix => .recursiveSuffix
  | _ => new

/-- How two asterisks are read, given the pieces before them, last first, and the lexemes after
them: the pieces with them, and whether the separator after them belongs to them. -/
def readStars (inGroup : Bool) (pieces : List Piece) (next : Option Lexeme) : List Piece × Bool :=
  let single := .zeroOrMore :: .zeroOrMore :: pieces
  match pieces with
  | [] =>
    match next with
    | none => ([.recursivePrefix], false)
    | some .slash => ([.recursivePrefix], true)
    | _ => (single, false)
  | last :: before =>
    if beginsComponentAfter inGroup last then
      match next with
      | none => (mergeInto last .recursiveSuffix :: before, false)
      | some .slash => (mergeInto last .recursiveZeroOrMore :: before, true)
      | some .comma =>
        if inGroup then (mergeInto last .recursiveSuffix :: before, false) else (single, false)
      | some .closeBrace =>
        if inGroup then (mergeInto last .recursiveSuffix :: before, false) else (single, false)
      | _ => (single, false)
    else (single, false)

/-- The pieces that lexemes make up, given the groups that are open, innermost first, and the pieces
read so far, last first. -/
def readPieces (groups : List OpenGroup) (pieces : List Piece) :
    List Lexeme → Except Fault (List Piece)
  | [] => if groups.isEmpty then .ok pieces.reverse else .error .unclosedAlternates
  | .bad fault :: _ => .error fault
  | .literal c :: rest => readPieces groups (.literal c :: pieces) rest
  | .slash :: rest => readPieces groups (.literal '/' :: pieces) rest
  | .question :: rest => readPieces groups (.any :: pieces) rest
  | .oneOf negated ranges :: rest => readPieces groups (.oneOf negated ranges :: pieces) rest
  | .star :: .star :: rest =>
    match readStars (!groups.isEmpty) pieces rest.head?, rest with
    | (pieces, true), _ :: rest => readPieces groups pieces rest
    | (pieces, _), rest => readPieces groups pieces rest
  | .star :: rest => readPieces groups (.zeroOrMore :: pieces) rest
  | .openBrace :: rest => readPieces (⟨[], pieces⟩ :: groups) [] rest
  | .closeBrace :: rest =>
    match groups with
    | [] => .error .unopenedAlternates
    | group :: groups =>
      let branches := (pieces.reverse :: group.branches).reverse
      readPieces groups (.alternates branches :: group.before) rest
  | .comma :: rest =>
    match groups with
    | [] => readPieces groups (.literal ',' :: pieces) rest
    | group :: groups =>
      readPieces ({ group with branches := pieces.reverse :: group.branches } :: groups) [] rest

/-- The pieces of a pattern, or what is wrong with it. -/
def readPattern (text : String) : Except Fault (List Piece) :=
  readPieces [] [] (lexemes text.toList)

end SwiftRelations.Glob
