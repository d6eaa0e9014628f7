import SwiftRelations.Glob.Piece

/-!
# Lexemes of patterns

The text of a pattern as a list of lexemes. A fault of the text stands in the list where it was
found, so that what comes before it is read first.

Patterns and the faults of their texts are the documented behaviour of the library globset.
-/

namespace SwiftRelations.Glob

/-- The smallest meaningful parts of a pattern's text. -/
inductive Lexeme where
  /-- A character that stands for itself, plain or escaped. -/
  | literal (c : Char)
  /-- The separator, not escaped. -/
  | slash
  | question
  | star
  | oneOf (negated : Bool) (ranges : List (Char × Char))
  | openBrace
  | closeBrace
  | comma
  | bad (fault : Fault)
  deriving Repr, Inhabited

/-- The ranges that the inside of a character class lists, given the last range so far. A hyphen
extends the last range to the character after it, also if it is a range already; at the end it
stands for itself. -/
def classRanges (low high : Char) : List Char → Except Fault (List (Char × Char))
  | [] => .ok [(low, high)]
  | '-' :: [] => .ok [(low, high), ('-', '-')]
  | '-' :: c :: cs =>
    if c < low then .error (.invertedRange low c) else classRanges low c cs
  | c :: cs => do
    let ranges ← classRanges c c cs
    return (low, high) :: ranges

/-- Whether a class is negated, and the text after the mark that says so. -/
def classNegation : List Char → Bool × List Char
  | '!' :: cs => (true, cs)
  | '^' :: cs => (true, cs)
  | cs => (false, cs)

/-- The mark of a negated class is at most taken away. -/
theorem length_classNegation_le (cs : List Char) :
    (classNegation cs).2.length ≤ cs.length := by
  unfold classNegation
  split <;> simp

/-- The class whose text begins after an opening bracket, and the text after the class. Its first
character always stands for itself, and the next closing bracket closes it. -/
def readClass (text : List Char) : Lexeme × List Char :=
  match classNegation text with
  | (_, []) => (.bad .unclosedClass, [])
  | (negated, c :: cs) =>
    match classRanges c c (cs.takeWhile (· ≠ ']')) with
    | .error fault => (.bad fault, [])
    | .ok ranges =>
      match cs.dropWhile (· ≠ ']') with
      | [] => (.bad .unclosedClass, [])
      | _ :: rest => (.oneOf negated ranges, rest)

/-- Reading a class takes nothing from its surroundings. -/
theorem length_readClass_le (text : List Char) : (readClass text).2.length ≤ text.length := by
  have bound := length_classNegation_le text
  unfold readClass
  split
  · simp
  · rename_i c cs heq
    rw [heq] at bound
    simp only [List.length_cons] at bound
    split
    · simp
    · split
      · simp
      · rename_i rest hdrop
        have shorter : (cs.dropWhile (· ≠ ']')).length ≤ cs.length :=
          (List.dropWhile_suffix _).length_le
        rw [hdrop, List.length_cons] at shorter
        exact Nat.le_of_lt (Nat.lt_of_lt_of_le (Nat.lt_of_succ_le shorter) (by omega))

/-- The lexemes of a pattern. -/
def lexemes : List Char → List Lexeme
  | [] => []
  | '\\' :: [] => [.bad .danglingEscape]
  | '\\' :: c :: cs => .literal c :: lexemes cs
  | '[' :: cs =>
    have : (readClass cs).2.length < cs.length + 1 := Nat.lt_succ_of_le (length_readClass_le cs)
    (readClass cs).1 :: lexemes (readClass cs).2
  | '/' :: cs => .slash :: lexemes cs
  | '?' :: cs => .question :: lexemes cs
  | '*' :: cs => .star :: lexemes cs
  | '\x7b' :: cs => .openBrace :: lexemes cs
  | '\x7d' :: cs => .closeBrace :: lexemes cs
  | ',' :: cs => .comma :: lexemes cs
  | c :: cs => .literal c :: lexemes cs
termination_by cs => cs.length

end SwiftRelations.Glob
